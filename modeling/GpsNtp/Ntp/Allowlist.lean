import GpsNtp.Machinery.Run
import GpsNtp.Machinery.TopBits
import GpsNtp.Ntp.Protection

/-!
# Ntp/Allowlist — the allowlist is the union of its blocks

    [ block₀ │ block₁ │ ⋯ │ blockₙ₋₁ │ none │ ⋯ │ none ]      the first eight, in order

Blocks go into the first empty slot and none ever leaves, so the table is the list of the first
eight blocks added.  An address is admitted by one of them when it lies in the block, that is when
it has its top `prefixBits` bits; the bits of the network below do not matter.
-/

namespace GpsNtp

open Machine

/-! ## Blocks -/

/-- A CIDR block: four octets of a network address and the length of its prefix. -/
structure CidrBlock where
  a : UInt8
  b : UInt8
  c : UInt8
  d : UInt8
  prefixBits : UInt8
  prefixBits_le : prefixBits ≤ 32
deriving DecidableEq

namespace CidrBlock

/-- The network address as a number. -/
def network (block : CidrBlock) : ℕ :=
  block.a.toNat * 16777216 + block.b.toNat * 65536 + block.c.toNat * 256 + block.d.toNat

/-- The number of bits below the prefix. -/
def hostBits (block : CidrBlock) : ℕ := 32 - block.prefixBits.toNat

/-- The address has the top `prefixBits` bits of the network address. -/
def Mem (block : CidrBlock) (addr : UInt32) : Prop :=
  addr.toNat / 2 ^ block.hostBits = block.network / 2 ^ block.hostBits

instance (block : CidrBlock) (addr : UInt32) : Decidable (block.Mem addr) :=
  inferInstanceAs (Decidable (_ = _))

/-- The entry that the block is kept as. -/
def entry (block : CidrBlock) : AclEntry :=
  ⟨Acl.fromOctets block.a block.b block.c block.d, Acl.prefixMask block.prefixBits⟩

end CidrBlock

namespace Acl

/-- One more octet below. -/
theorem or_octet (n k : ℕ) {octet : ℕ} (h : octet < 256) :
    n <<< (k + 8) ||| octet <<< k = (n * 256 + octet) <<< k := by
  have hlt : octet <<< k < 2 ^ (k + 8) := by
    rw [Nat.shiftLeft_eq, Nat.pow_add, Nat.mul_comm (2 ^ k)]
    exact Nat.mul_lt_mul_of_pos_right h (Nat.two_pow_pos k)
  rw [← Nat.shiftLeft_add_eq_or_of_lt hlt, Nat.shiftLeft_eq, Nat.shiftLeft_eq, Nat.shiftLeft_eq,
    Nat.pow_add]
  ring

theorem toNat_fromOctets (a b c d : UInt8) :
    (fromOctets a b c d).toNat =
      a.toNat * 16777216 + b.toNat * 65536 + c.toNat * 256 + d.toNat := by
  have ha := a.toNat_lt
  have hb := b.toNat_lt
  have hc := c.toNat_lt
  have hd := d.toNat_lt
  have hshift : ∀ (x : UInt8) (k : ℕ), k ≤ 24 →
      x.toUInt32.toNat <<< (k % 32) % 4294967296 = x.toNat <<< k := by
    intro x k hk
    have hx := x.toNat_lt
    rw [UInt8.toNat_toUInt32, Nat.mod_eq_of_lt (by omega : k < 32), Nat.shiftLeft_eq]
    refine Nat.mod_eq_of_lt ?_
    calc x.toNat * 2 ^ k < 2 ^ 8 * 2 ^ k := Nat.mul_lt_mul_of_pos_right hx (Nat.two_pow_pos k)
      _ ≤ 2 ^ 8 * 2 ^ 24 := Nat.mul_le_mul_left _ (Nat.pow_le_pow_right (by decide) hk)
      _ = 4294967296 := rfl
  rw [fromOctets, UInt32.toNat_or, UInt32.toNat_or, UInt32.toNat_or, UInt32.toNat_shiftLeft,
    UInt32.toNat_shiftLeft, UInt32.toNat_shiftLeft]
  have hjoined : a.toNat <<< 24 ||| b.toNat <<< 16 ||| c.toNat <<< 8 ||| d.toNat <<< 0 =
      (((a.toNat * 256 + b.toNat) * 256 + c.toNat) * 256 + d.toNat) <<< 0 := by
    rw [or_octet a.toNat 16 hb, or_octet _ 8 hc, or_octet _ 0 hd]
  calc _ = a.toNat <<< 24 ||| b.toNat <<< 16 ||| c.toNat <<< 8 ||| d.toNat <<< 0 := by
        rw [← hshift a 24 (by decide), ← hshift b 16 (by decide), ← hshift c 8 (by decide)]
        rfl
    _ = _ := by
        rw [hjoined, Nat.shiftLeft_zero]
        omega

theorem toNat_pos_of_ne_zero {prefixBits : UInt8} (h : prefixBits ≠ 0) : 0 < prefixBits.toNat :=
  Nat.pos_of_ne_zero fun hzero => h (UInt8.toNat_inj.mp hzero)

theorem toBitVec_prefixMask {prefixBits : UInt8} (h₀ : prefixBits ≠ 0) (h : prefixBits ≤ 32) :
    (prefixMask prefixBits).toBitVec = TopBits.topMask 32 (32 - prefixBits.toNat) := by
  have hle : prefixBits.toNat ≤ 32 := UInt8.le_iff_toNat_le.mp h
  have hpos := toNat_pos_of_ne_zero h₀
  have hshift : (32 - prefixBits.toUInt32).toNat = 32 - prefixBits.toNat := by
    rw [UInt32.toNat_sub_of_le _ _ (by
      rw [UInt32.le_iff_toNat_le, UInt8.toNat_toUInt32]; exact hle), UInt8.toNat_toUInt32]
    rfl
  rw [prefixMask, if_neg h₀, UInt32.toBitVec_not, UInt32.toBitVec_sub, UInt32.toBitVec_shiftLeft,
    TopBits.topMask]
  have hamount : ((32 - prefixBits.toUInt32).toBitVec % 32).toNat = 32 - prefixBits.toNat := by
    rw [BitVec.toNat_umod, UInt32.toNat_toBitVec, hshift]
    exact Nat.mod_eq_of_lt (by omega : 32 - prefixBits.toNat < 32)
  rw [BitVec.shiftLeft_eq', hamount]
  rfl

end Acl

/-- **An entry contains an address** exactly when the address lies in its block. -/
theorem CidrBlock.contains_entry (block : CidrBlock) (addr : UInt32) :
    block.entry.contains addr = true ↔ block.Mem addr := by
  have hle : block.prefixBits.toNat ≤ 32 := UInt8.le_iff_toNat_le.mp block.prefixBits_le
  have hnetwork : (Acl.fromOctets block.a block.b block.c block.d).toNat = block.network :=
    Acl.toNat_fromOctets _ _ _ _
  rw [AclEntry.contains, beq_iff_eq, CidrBlock.entry, CidrBlock.Mem, CidrBlock.hostBits,
    ← hnetwork]
  by_cases h₀ : block.prefixBits = 0
  · -- the mask of an empty prefix is zero
    have haddr := addr.toNat_lt
    have hnet := (Acl.fromOctets block.a block.b block.c block.d).toNat_lt
    rw [h₀, Acl.prefixMask, if_pos rfl, UInt32.and_zero, UInt32.and_zero]
    exact iff_of_true rfl ((Nat.div_eq_of_lt haddr).trans (Nat.div_eq_of_lt hnet).symm)
  · have hpos := Acl.toNat_pos_of_ne_zero h₀
    rw [← UInt32.toBitVec_inj, UInt32.toBitVec_and, UInt32.toBitVec_and,
      Acl.toBitVec_prefixMask h₀ block.prefixBits_le, TopBits.and_topMask_eq_iff (by omega)]
    rfl

/-! ## The table -/

namespace Acl

/-- `add_ipv4_cidr` of a block. -/
def addBlock (acl : Acl) (block : CidrBlock) : Acl × Bool :=
  acl.addIpv4Cidr block.a block.b block.c block.d block.prefixBits

/-- The slots that blocks are kept in. -/
def slots (blocks : List CidrBlock) : List (Option AclEntry) :=
  blocks.map fun block => some block.entry

theorem length_slots (blocks : List CidrBlock) : (slots blocks).length = blocks.length :=
  List.length_map _

/-- **The table holds these blocks**, in this order from the first slot on. -/
structure Holds (acl : Acl) (blocks : List CidrBlock) : Prop where
  entries : acl.entries = slots blocks ++ List.replicate (aclMaxEntries - blocks.length) none
  len : acl.len = blocks.length

variable {acl : Acl} {blocks : List CidrBlock}

theorem holds_empty (defaultAllow : Bool) : (empty defaultAllow).Holds [] where
  entries := rfl
  len := rfl

/-- The first empty slot is the one behind the blocks. -/
theorem findIdx?_isNone (blocks : List CidrBlock) {n : ℕ} (hn : 0 < n) :
    (slots blocks ++ List.replicate n none).findIdx? Option.isNone = some blocks.length := by
  induction blocks with
  | nil =>
    obtain ⟨m, rfl⟩ := Nat.exists_eq_succ_of_ne_zero hn.ne'
    rfl
  | cons block blocks ih =>
    rw [slots] at ih
    rw [slots, List.map_cons, List.cons_append, List.findIdx?_cons, ih]
    rfl

/-- **A block is added** behind the others while there is room. -/
theorem Holds.addBlock (h : acl.Holds blocks) (hroom : blocks.length < aclMaxEntries)
    (block : CidrBlock) :
    (acl.addBlock block).1.Holds (blocks ++ [block]) ∧ (acl.addBlock block).2 = true ∧
      (acl.addBlock block).1.defaultAllow = acl.defaultAllow := by
  have hslot : (acl.entries.findIdx? Option.isNone).getD 0 = blocks.length := by
    rw [h.entries, findIdx?_isNone blocks (by omega), Option.getD_some]
  have hset : acl.entries.set blocks.length (some block.entry) = slots (blocks ++ [block]) ++
      List.replicate (aclMaxEntries - (blocks ++ [block]).length) none := by
    have hfree : aclMaxEntries - blocks.length =
        aclMaxEntries - (blocks ++ [block]).length + 1 := by
      rw [List.length_append, List.length_singleton]
      omega
    rw [h.entries, hfree, List.set_append_right _ _ (length_slots blocks).le, length_slots,
      Nat.sub_self, List.replicate_succ, List.set_cons_zero, slots, slots, List.map_append,
      List.append_assoc]
    rfl
  rw [Acl.addBlock, addIpv4Cidr, h.len, if_neg (not_le.mpr hroom)]
  refine ⟨⟨?_, ?_⟩, rfl, rfl⟩
  · dsimp only
    rw [hslot]
    exact hset
  · rw [List.length_append, List.length_singleton]

/-- **A full table stays as it is.** -/
theorem Holds.addBlock_of_full (h : acl.Holds blocks) (hfull : aclMaxEntries ≤ blocks.length)
    (block : CidrBlock) : acl.addBlock block = (acl, false) := by
  rw [Acl.addBlock, addIpv4Cidr, h.len, if_pos hfull]

/-- **Membership** in a table that holds blocks: one of them, or the default where there is
none. -/
theorem Holds.allows_iff (h : acl.Holds blocks) (addr : UInt32) :
    acl.allows addr = true ↔
      (blocks = [] ∧ acl.defaultAllow = true) ∨ ∃ block ∈ blocks, block.Mem addr := by
  rw [allows, h.len]
  split_ifs with hlen
  · obtain rfl := List.length_eq_zero_iff.mp hlen
    exact ⟨fun hdefault => .inl ⟨rfl, hdefault⟩, fun hor => hor.elim And.right
      fun ⟨_, hmem, _⟩ => absurd hmem List.not_mem_nil⟩
  · have hfilter : acl.entries.filterMap id = blocks.map CidrBlock.entry := by
      rw [h.entries, List.filterMap_append, List.filterMap_replicate_of_none rfl,
        List.append_nil, slots, List.filterMap_map]
      exact congrFun (@List.filterMap_eq_map _ _ CidrBlock.entry) blocks
    rw [hfilter, List.any_map, List.any_eq_true]
    simp only [Function.comp_apply, CidrBlock.contains_entry]
    exact ⟨.inr, fun hor => hor.resolve_left fun hdefault =>
      hlen (List.length_eq_zero_iff.mpr hdefault.1)⟩

/-! ## Runs of additions -/

/-- The list after these additions, each with its answer. -/
theorem holds_exec (defaultAllow : Bool) (adds : List CidrBlock) :
    (exec addBlock (empty defaultAllow) adds).Holds (adds.take aclMaxEntries) ∧
      (exec addBlock (empty defaultAllow) adds).defaultAllow = defaultAllow ∧
      (transcript addBlock (empty defaultAllow) adds).map Prod.snd =
        (List.range adds.length).map fun i => decide (i < aclMaxEntries) := by
  induction adds using List.reverseRecOn with
  | nil => exact ⟨holds_empty defaultAllow, rfl, rfl⟩
  | append_singleton adds block ih =>
    obtain ⟨hholds, hdefault, hanswers⟩ := ih
    rw [exec_append, exec_cons, exec_nil, transcript_append, List.map_append, hanswers,
      List.length_append, List.length_singleton, List.range_succ, List.map_append]
    rcases lt_or_ge adds.length aclMaxEntries with hroom | hfull
    · rw [List.take_of_length_le hroom.le] at hholds
      obtain ⟨hnext, hanswer, hsame⟩ := hholds.addBlock hroom block
      rw [List.take_of_length_le (by rw [List.length_append, List.length_singleton]; omega)]
      refine ⟨hnext, hsame.trans hdefault, ?_⟩
      rw [transcript_cons, transcript_nil, hanswer]
      exact congrArg (_ ++ [·]) (decide_eq_true hroom).symm
    · have hlength : (adds.take aclMaxEntries).length = aclMaxEntries :=
        List.length_take_of_le hfull
      have hnext := hholds.addBlock_of_full hlength.ge block
      rw [hnext, List.take_append_of_le_length hfull]
      refine ⟨hholds, hdefault, ?_⟩
      rw [transcript_cons, transcript_nil, hnext]
      exact congrArg (_ ++ [·]) (decide_eq_false (not_lt.mpr hfull)).symm

/-- A block that was added stays in its slot. -/
theorem entries_exec (defaultAllow : Bool) {adds : List CidrBlock} {i : ℕ} {block : CidrBlock}
    (hi : i < aclMaxEntries) (hblock : adds[i]? = some block) :
    (exec addBlock (empty defaultAllow) adds).entries[i]? = some (some block.entry) := by
  have hslot : (slots (adds.take aclMaxEntries))[i]? = some (some block.entry) := by
    rw [slots, List.getElem?_map, List.getElem?_take_of_lt hi, hblock, Option.map_some]
  rw [(holds_exec defaultAllow adds).1.entries,
    List.getElem?_append_left (List.getElem?_eq_some_iff.mp hslot).1, hslot]

/-- **The allowlist is the union of its blocks.**  On an open or a closed list, whatever blocks are
added: the first eight additions succeed and no later one changes the list, no entry is ever
overwritten, and an address is admitted when one of those blocks holds it, or when the list was open
and nothing was added.  A block holds the addresses of one aligned interval. -/
theorem allows_iff_union (startsOpen : Bool) (adds : List CidrBlock) :
    let start := if startsOpen then allowAll else denyAll
    let acl := exec addBlock start adds
    (transcript addBlock start adds).map Prod.snd =
        (List.range adds.length).map (fun i => decide (i < aclMaxEntries)) ∧
      (aclMaxEntries ≤ adds.length → ∀ block, acl.addBlock block = (acl, false)) ∧
      (∀ (later : List CidrBlock) (i : ℕ) (block : CidrBlock), i < aclMaxEntries →
        adds[i]? = some block →
        acl.entries[i]? = some (some block.entry) ∧
          (exec addBlock acl later).entries[i]? = some (some block.entry)) ∧
      (∀ addr, acl.allows addr = true ↔
        (adds = [] ∧ startsOpen = true) ∨
          ∃ block ∈ adds.take aclMaxEntries, block.Mem addr) ∧
      ∀ (block : CidrBlock) (addr : UInt32), block.Mem addr ↔
        block.network / 2 ^ block.hostBits * 2 ^ block.hostBits ≤ addr.toNat ∧
          addr.toNat < block.network / 2 ^ block.hostBits * 2 ^ block.hostBits +
            2 ^ block.hostBits := by
  intro start acl
  have hstart : start = empty startsOpen := by cases startsOpen <;> rfl
  obtain ⟨hholds, hdefault, hanswers⟩ := holds_exec startsOpen adds
  rw [← hstart] at hholds hdefault hanswers
  refine ⟨hanswers, fun hfull block => ?_, fun later i block hi hblock => ⟨?_, ?_⟩, fun addr => ?_,
    fun block addr => TopBits.div_eq_div_iff_mem⟩
  · exact hholds.addBlock_of_full (List.length_take_of_le hfull).ge block
  · change (exec addBlock start adds).entries[i]? = _
    rw [hstart]
    exact entries_exec startsOpen hi hblock
  · change (exec addBlock (exec addBlock start adds) later).entries[i]? = _
    rw [hstart, ← exec_append]
    refine entries_exec startsOpen hi ?_
    rw [List.getElem?_append_left (List.getElem?_eq_some_iff.mp hblock).1, hblock]
  · have hempty : adds.take aclMaxEntries = [] ↔ adds = [] :=
      List.take_eq_nil_iff.trans (or_iff_right (by decide))
    rw [hholds.allows_iff, hdefault, hempty]

end Acl

end GpsNtp
