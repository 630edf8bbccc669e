import GpsNtp.Machinery.MachineInt
import Mathlib.Data.List.MinMax

/-!
# Ntp/Protection — the per-client rate limiter and the address allowlist

`protection.rs`: both structures are fixed-capacity arrays of optional entries.  An array is the
list of its slots together with its length, so a table of the wrong size cannot be built; which
slots are occupied, and that no address occupies two, is left to the operations to establish.
-/

namespace GpsNtp

open MachineInt

/-- `RATE_TABLE_SIZE`: the number of clients the limiter tracks. -/
def rateTableSize : ℕ := 32

/-- `MIN_POLL_INTERVAL_US`: the least time between two accepted requests of a client. -/
def minPollIntervalUs : ℤ := 2000000

/-- `ACL_MAX_ENTRIES`: the capacity of the allowlist. -/
def aclMaxEntries : ℕ := 8

/-! ## Rate limiter -/

/-- One slot of the limiter: a client and the time of its last accepted request. -/
structure ClientRecord where
  addr : UInt32
  lastUs : ℤ
deriving DecidableEq

/-- The limiter's table of `rateTableSize` slots. -/
structure RateLimiter where
  table : List (Option ClientRecord)
  length_table : table.length = rateTableSize
deriving DecidableEq

namespace RateLimiter

/-- The empty table. -/
def new : RateLimiter := ⟨List.replicate rateTableSize none, List.length_replicate⟩

/-- The request at `nowUs` comes too soon after the one accepted at `lastUs`. -/
def tooSoon (nowUs lastUs : ℤ) : Bool := decide (satSub nowUs lastUs < minPollIntervalUs)

/-- The search loop of `check`: the first entry of `addr` decides, and is renewed unless the
request is too soon; `none` when the loop runs off the table. -/
def touch (addr : UInt32) (nowUs : ℤ) :
    List (Option ClientRecord) → Option (List (Option ClientRecord) × Bool)
  | [] => none
  | none :: rest => (touch addr nowUs rest).map fun r => (none :: r.1, r.2)
  | some entry :: rest =>
    if entry.addr = addr then
      if tooSoon nowUs entry.lastUs then some (some entry :: rest, false)
      else some (some { entry with lastUs := nowUs } :: rest, true)
    else (touch addr nowUs rest).map fun r => (some entry :: r.1, r.2)

/-- The slot with the least `lastUs`, the first of them on a tie; an empty slot ranks last. -/
def oldest (table : List (Option ClientRecord)) : ℕ :=
  -- spelled out: instance search may find the order of `ℤ` through a noncomputable structure
  letI : Preorder ℤ := Int.instLinearOrder.toPreorder
  ((table.zipIdx.argmin fun p => p.1.elim i64Max ClientRecord.lastUs).map Prod.snd).getD 0

/-- The slot a new client takes: the first empty one, or the oldest. -/
def slotFor (table : List (Option ClientRecord)) : ℕ :=
  (table.findIdx? Option.isNone).getD (oldest table)

theorem length_touch {addr : UInt32} {nowUs : ℤ} {table : List (Option ClientRecord)}
    {r : List (Option ClientRecord) × Bool} (h : touch addr nowUs table = some r) :
    r.1.length = table.length := by
  induction table generalizing r with
  | nil => exact absurd h (by simp [touch])
  | cons slot rest ih =>
    cases slot with
    | none =>
      obtain ⟨r', hr', rfl⟩ := Option.map_eq_some_iff.mp h
      simp [ih hr']
    | some entry =>
      simp only [touch] at h
      split_ifs at h with haddr hsoon
      · obtain rfl := Option.some.inj h; rfl
      · obtain rfl := Option.some.inj h; rfl
      · obtain ⟨r', hr', rfl⟩ := Option.map_eq_some_iff.mp h
        simp [ih hr']

/-- `check`: whether a request of `addr` at `nowUs` is to be served, and the table after it. -/
def check (l : RateLimiter) (addr : UInt32) (nowUs : ℤ) : RateLimiter × Bool :=
  match h : touch addr nowUs l.table with
  | some r => (⟨r.1, (length_touch h).trans l.length_table⟩, r.2)
  | none =>
    (⟨l.table.set (slotFor l.table) (some ⟨addr, nowUs⟩),
      (List.length_set ..).trans l.length_table⟩, true)

end RateLimiter

/-! ## Allowlist -/

/-- One CIDR prefix of the allowlist. -/
structure AclEntry where
  network : UInt32
  mask : UInt32
deriving DecidableEq

/-- `AclEntry::contains`. -/
def AclEntry.contains (e : AclEntry) (addr : UInt32) : Bool :=
  (addr &&& e.mask) == (e.network &&& e.mask)

/-- The allowlist: `aclMaxEntries` slots, a count, and the answer of an empty list. -/
structure Acl where
  entries : List (Option AclEntry)
  length_entries : entries.length = aclMaxEntries
  len : ℕ
  defaultAllow : Bool
deriving DecidableEq

namespace Acl

/-- An empty list answering `defaultAllow`. -/
def empty (defaultAllow : Bool) : Acl :=
  ⟨List.replicate aclMaxEntries none, List.length_replicate, 0, defaultAllow⟩

/-- `Acl::allow_all`: no restrictions. -/
def allowAll : Acl := empty true

/-- `Acl::deny_all`: nothing is allowed until a prefix is added. -/
def denyAll : Acl := empty false

/-- `u32::from_be_bytes`. -/
def fromOctets (a b c d : UInt8) : UInt32 :=
  a.toUInt32 <<< 24 ||| b.toUInt32 <<< 16 ||| c.toUInt32 <<< 8 ||| d.toUInt32

/-- The subnet mask of a prefix length. -/
def prefixMask (prefixBits : UInt8) : UInt32 :=
  if prefixBits = 0 then 0 else ~~~((1 <<< (32 - prefixBits.toUInt32)) - 1)

/-- `Acl::add_ipv4_cidr`: whether the entry fitted, and the list after it. -/
def addIpv4Cidr (acl : Acl) (a b c d prefixBits : UInt8) : Acl × Bool :=
  if aclMaxEntries ≤ acl.len then (acl, false)
  else
    let entry : AclEntry := ⟨fromOctets a b c d, prefixMask prefixBits⟩
    let slot := (acl.entries.findIdx? Option.isNone).getD 0
    ({ acl with
        entries := acl.entries.set slot (some entry)
        length_entries := (List.length_set ..).trans acl.length_entries
        len := acl.len + 1 }, true)

/-- `Acl::allows`: an empty list answers its default, any other whether an entry matches. -/
def allows (acl : Acl) (addr : UInt32) : Bool :=
  if acl.len = 0 then acl.defaultAllow
  else (acl.entries.filterMap id).any fun e => e.contains addr

/-- `Acl::private_lan`: loopback and the three private ranges. -/
def privateLan : Acl :=
  let acl := (denyAll.addIpv4Cidr 127 0 0 0 8).1
  let acl := (acl.addIpv4Cidr 10 0 0 0 8).1
  let acl := (acl.addIpv4Cidr 172 16 0 0 12).1
  (acl.addIpv4Cidr 192 168 0 0 16).1

example : privateLan.allows (fromOctets 192 168 1 7) = true
    ∧ privateLan.allows (fromOctets 8 8 8 8) = false := by decide

end Acl

end GpsNtp
