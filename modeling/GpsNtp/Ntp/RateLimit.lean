import GpsNtp.Machinery.AcceptTable
import GpsNtp.Machinery.Run
import GpsNtp.Ntp.Protection
import Mathlib.Data.List.ReduceOption

/-!
# Ntp/RateLimit — what the 32-slot limiter guarantees

    RateLimiter.check  ──Represents──▸  AcceptTable.Admit

The slot array **represents** an accept table: its occupied slots carry distinct addresses, the
tracked keys, each with its last accepted time.  One `check` is one `Admit` step
(`check_simulates`) — the array's tie-break among equally old slots is one of the choices the
abstract table leaves open — so the guarantees of `Machinery/AcceptTable` hold of every sequence
of requests with non-decreasing times.
-/

namespace GpsNtp

open MachineInt Machine AcceptTable

namespace RateLimiter

/-! ## One `check`, by cases -/

/-- The search loop falls through exactly when no slot holds the address. -/
theorem touch_eq_none {addr : UInt32} {nowUs : ℤ} {table : List (Option ClientRecord)} :
    touch addr nowUs table = none ↔ ∀ e ∈ table.reduceOption, e.addr ≠ addr := by
  induction table with
  | nil => simp [touch, List.reduceOption]
  | cons slot rest ih =>
    cases slot with
    | none => simp [touch, ih, List.reduceOption_cons_of_none]
    | some entry =>
      rw [touch, List.reduceOption_cons_of_some, List.forall_mem_cons]
      split_ifs with haddr hsoon
      · simp [haddr]
      · simp [haddr]
      · simp [haddr, ih]

/-- **A slot that holds the address answers**, and is the only slot to change. -/
theorem touch_eq_some {addr : UInt32} {nowUs : ℤ} {table : List (Option ClientRecord)}
    {r : List (Option ClientRecord) × Bool} (h : touch addr nowUs table = some r) :
    ∃ l₁ e l₂, table = l₁ ++ some e :: l₂ ∧ e.addr = addr ∧
      r = if tooSoon nowUs e.lastUs then (table, false)
        else (l₁ ++ some { e with lastUs := nowUs } :: l₂, true) := by
  induction table generalizing r with
  | nil => exact absurd h (by simp [touch])
  | cons slot rest ih =>
    -- a slot of no interest passes the answer of the rest of the table on
    have hskip : (touch addr nowUs rest).map (fun r => (slot :: r.1, r.2)) = some r →
        ∃ l₁ e l₂, slot :: rest = l₁ ++ some e :: l₂ ∧ e.addr = addr ∧
          r = if tooSoon nowUs e.lastUs then (slot :: rest, false)
            else (l₁ ++ some { e with lastUs := nowUs } :: l₂, true) := by
      intro hmap
      obtain ⟨r', hr', rfl⟩ := Option.map_eq_some_iff.mp hmap
      obtain ⟨l₁, e, l₂, hrest, haddr, hr⟩ := ih hr'
      refine ⟨slot :: l₁, e, l₂, by rw [hrest, List.cons_append], haddr, ?_⟩
      rw [hr]
      split_ifs <;> rfl
    cases slot with
    | none => exact hskip h
    | some entry =>
      rw [touch] at h
      split_ifs at h with haddr hsoon
      · exact ⟨[], entry, rest, rfl, haddr, by rw [if_pos hsoon]; exact (Option.some.inj h).symm⟩
      · exact ⟨[], entry, rest, rfl, haddr, by rw [if_neg hsoon]; exact (Option.some.inj h).symm⟩
      · exact hskip h

/-- **The slot a new client takes** is empty, or holds a least recently accepted client of a full
table. -/
theorem slotFor_spec {table : List (Option ClientRecord)} (hne : table ≠ []) :
    ∃ l₁ x l₂, table = l₁ ++ x :: l₂ ∧ l₁.length = slotFor table ∧
      (x = none ∨ (∀ y ∈ table, y.isSome = true) ∧
        ∃ v, x = some v ∧ ∀ w, some w ∈ table → v.lastUs ≤ w.lastUs) := by
  have hcut : ∀ i (hi : i < table.length), table = table.take i ++ table[i] :: table.drop (i + 1) ∧
      (table.take i).length = i := fun i hi =>
    ⟨by rw [List.getElem_cons_drop, List.take_append_drop],
      List.length_take_of_le hi.le⟩
  cases hfree : table.findIdx? Option.isNone with
  | some i =>
    obtain ⟨hi, hnone, -⟩ := List.findIdx?_eq_some_iff_getElem.mp hfree
    refine ⟨_, _, _, (hcut i hi).1, ?_, Or.inl (Option.isNone_iff_eq_none.mp hnone)⟩
    rw [slotFor, hfree, Option.getD_some, (hcut i hi).2]
  | none =>
    have hfull : ∀ y ∈ table, y.isSome = true := fun y hy => by
      simpa using List.findIdx?_eq_none_iff.mp hfree y hy
    have hmin : (table.zipIdx.argmin fun p => p.1.elim i64Max ClientRecord.lastUs) ≠ none :=
      fun h => hne (by simpa using List.argmin_eq_none.mp h)
    obtain ⟨⟨x, i⟩, hp⟩ := Option.ne_none_iff_exists'.mp hmin
    have holdest : oldest table = i := by
      change ((table.zipIdx.argmin _).map Prod.snd).getD 0 = i
      rw [hp]
      rfl
    obtain ⟨hi, hx⟩ := List.mem_zipIdx' (List.argmin_mem hp)
    obtain ⟨v, hv⟩ := Option.isSome_iff_exists.mp (hfull _ (List.getElem_mem hi))
    refine ⟨_, _, _, (hcut i hi).1, ?_, Or.inr ⟨hfull, v, hv, fun w hw => ?_⟩⟩
    · rw [slotFor, hfree, Option.getD_none, holdest, (hcut i hi).2]
    · obtain ⟨j, hj, hjw⟩ := List.getElem_of_mem hw
      have hmem : (some w, j) ∈ table.zipIdx :=
        List.mem_zipIdx_iff_getElem?.mpr (hjw ▸ List.getElem?_eq_getElem hj)
      simpa [hx.trans hv] using List.le_of_mem_argmin hmem hp

/-- A request that `touch` answers. -/
theorem check_of_touch {l : RateLimiter} {addr : UInt32} {nowUs : ℤ}
    {r : List (Option ClientRecord) × Bool} (h : touch addr nowUs l.table = some r) :
    (l.check addr nowUs).1.table = r.1 ∧ (l.check addr nowUs).2 = r.2 := by
  rw [check]
  split
  · next r' h' =>
    obtain rfl := Option.some.inj (h'.symm.trans h)
    exact ⟨rfl, rfl⟩
  · next h' => exact absurd (h'.symm.trans h) (by simp)

/-- A request that takes a slot. -/
theorem check_of_absent {l : RateLimiter} {addr : UInt32} {nowUs : ℤ}
    (h : touch addr nowUs l.table = none) :
    (l.check addr nowUs).1.table = l.table.set (slotFor l.table) (some ⟨addr, nowUs⟩) ∧
      (l.check addr nowUs).2 = true := by
  rw [check]
  split
  · next r' h' => exact absurd (h'.symm.trans h) (by simp)
  · exact ⟨rfl, rfl⟩

/-- **One request, by cases**: the slot of the address answers it, or a new client takes a slot. -/
theorem check_cases (l : RateLimiter) (addr : UInt32) (nowUs : ℤ) :
    (∃ l₁ e l₂, l.table = l₁ ++ some e :: l₂ ∧ e.addr = addr ∧
      ((tooSoon nowUs e.lastUs = true ∧ (l.check addr nowUs).1.table = l.table ∧
          (l.check addr nowUs).2 = false) ∨
        (tooSoon nowUs e.lastUs = false ∧
          (l.check addr nowUs).1.table = l₁ ++ some ⟨addr, nowUs⟩ :: l₂ ∧
          (l.check addr nowUs).2 = true))) ∨
    ((∀ e ∈ l.table.reduceOption, e.addr ≠ addr) ∧
      ∃ l₁ x l₂, l.table = l₁ ++ x :: l₂ ∧
        (l.check addr nowUs).1.table = l₁ ++ some ⟨addr, nowUs⟩ :: l₂ ∧
        (l.check addr nowUs).2 = true ∧
        (x = none ∨ (∀ y ∈ l.table, y.isSome = true) ∧
          ∃ v, x = some v ∧ ∀ w, some w ∈ l.table → v.lastUs ≤ w.lastUs)) := by
  cases htouch : touch addr nowUs l.table with
  | some r =>
    have hcheck := check_of_touch htouch
    obtain ⟨l₁, e, l₂, htable, haddr, hr⟩ := touch_eq_some htouch
    refine Or.inl ⟨l₁, e, l₂, htable, haddr, ?_⟩
    cases hsoon : tooSoon nowUs e.lastUs with
    | true =>
      rw [hsoon, if_pos rfl] at hr
      exact Or.inl ⟨rfl, hcheck.1.trans (congrArg Prod.fst hr),
        hcheck.2.trans (congrArg Prod.snd hr)⟩
    | false =>
      rw [hsoon, if_neg (by decide)] at hr
      refine Or.inr ⟨rfl, ?_, hcheck.2.trans (congrArg Prod.snd hr)⟩
      rw [hcheck.1, hr, haddr]
  | none =>
    have hcheck := check_of_absent htouch
    have hne : l.table ≠ [] := fun h => by
      have := l.length_table
      rw [h] at this
      exact absurd this (by decide)
    obtain ⟨l₁, x, l₂, htable, hlen, hx⟩ := slotFor_spec hne
    refine Or.inr ⟨touch_eq_none.mp htouch, l₁, x, l₂, htable, ?_, hcheck.2, hx⟩
    rw [hcheck.1, ← hlen]
    conv_lhs => rw [htable]
    rw [List.set_append_right _ _ le_rfl, Nat.sub_self, List.set_cons_zero]

/-! ## The array represents an accept table -/

/-- The entries `es` of the occupied slots are the accept table `s`: one entry per tracked key,
carrying its last accepted time. -/
structure Represents (es : List ClientRecord) (s : Table UInt32 ℤ) : Prop where
  nodup : (es.map ClientRecord.addr).Nodup
  tracked : ∀ a, a ∈ s.tracked ↔ ∃ e ∈ es, e.addr = a
  last : ∀ e ∈ es, s.last e.addr = e.lastUs

theorem represents_new (last : UInt32 → ℤ) : Represents new.table.reduceOption ⟨∅, last⟩ := by
  have hnil : new.table.reduceOption = [] := List.reduceOption_replicate_none
  rw [hnil]
  exact ⟨List.nodup_nil, by simp, by simp⟩

/-- There are as many tracked keys as occupied slots. -/
theorem Represents.card_tracked {es : List ClientRecord} {s : Table UInt32 ℤ}
    (h : Represents es s) : s.tracked.card = es.length := by
  have heq : s.tracked = (es.map ClientRecord.addr).toFinset := by
    ext a
    simp [h.tracked]
  rw [heq, List.toFinset_card_of_nodup h.nodup, List.length_map]

/-- Writing a slot records the acceptance, whatever the slot held, as long as the other slots `A`
and `B` are what the accept table keeps. -/
theorem Represents.record {A B : List ClientRecord} {s s₀ : Table UInt32 ℤ} {ks : Finset UInt32}
    {addr : UInt32} (h : Represents (A ++ B) s₀) (nowUs : ℤ) (hfresh : ∀ e ∈ A ++ B, e.addr ≠ addr)
    (hlast : s₀.last = s.last) (hks : ∀ a, a ≠ addr → (a ∈ ks ↔ ∃ e ∈ A ++ B, e.addr = a)) :
    Represents (A ++ ⟨addr, nowUs⟩ :: B) (s.record ks addr nowUs) := by
  have hmem : ∀ e, e ∈ A ++ ⟨addr, nowUs⟩ :: B ↔ e = ⟨addr, nowUs⟩ ∨ e ∈ A ++ B := fun e => by
    simp only [List.mem_append, List.mem_cons]
    tauto
  refine ⟨?_, fun a => ?_, fun e he => ?_⟩
  · rw [List.map_append, List.map_cons, List.nodup_middle, List.nodup_cons, ← List.map_append]
    refine ⟨fun hin => ?_, h.nodup⟩
    obtain ⟨e, he, hea⟩ := List.mem_map.mp hin
    exact hfresh e he hea
  · rw [Table.record, Finset.mem_insert]
    by_cases ha : a = addr
    · subst ha
      exact ⟨fun _ => ⟨⟨a, nowUs⟩, (hmem _).mpr (Or.inl rfl), rfl⟩, fun _ => Or.inl rfl⟩
    · rw [or_iff_right ha, hks a ha]
      constructor
      · rintro ⟨e, he, hea⟩
        exact ⟨e, (hmem e).mpr (Or.inr he), hea⟩
      · rintro ⟨e, he, hea⟩
        rcases (hmem e).mp he with rfl | he
        · exact absurd hea.symm ha
        · exact ⟨e, he, hea⟩
  · rcases (hmem e).mp he with rfl | he
    · exact Function.update_self _ _ _
    · exact (Function.update_of_ne (hfresh e he) _ _).trans (hlast ▸ h.last e he)

/-- Taking the entry `e` out of the represented slots leaves the accept table without its key. -/
theorem Represents.cut {A B : List ClientRecord} {e : ClientRecord} {s : Table UInt32 ℤ}
    (h : Represents (A ++ e :: B) s) : Represents (A ++ B) ⟨s.tracked.erase e.addr, s.last⟩ := by
  have hmem : ∀ e', e' ∈ A ++ e :: B ↔ e' = e ∨ e' ∈ A ++ B := fun e' => by
    simp only [List.mem_append, List.mem_cons]
    tauto
  have hnodup := h.nodup
  rw [List.map_append, List.map_cons, List.nodup_middle, List.nodup_cons, ← List.map_append]
    at hnodup
  refine ⟨hnodup.2, fun a => ?_, fun e' he' => h.last e' ((hmem e').mpr (Or.inr he'))⟩
  rw [Finset.mem_erase, h.tracked a]
  constructor
  · rintro ⟨hne, e', he', rfl⟩
    rcases (hmem e').mp he' with rfl | he'
    · exact absurd rfl hne
    · exact ⟨e', he', rfl⟩
  · rintro ⟨e', he', rfl⟩
    exact ⟨fun heq => hnodup.1 (heq ▸ List.mem_map_of_mem he'), e',
      (hmem e').mpr (Or.inr he'), rfl⟩

theorem reduceOption_cut (l₁ l₂ : List (Option ClientRecord)) (e : ClientRecord) :
    (l₁ ++ some e :: l₂).reduceOption = l₁.reduceOption ++ e :: l₂.reduceOption := by
  rw [List.reduceOption_append, List.reduceOption_cons_of_some]

/-- An empty slot leaves room in the accept table. -/
theorem card_lt_of_empty_slot {l : RateLimiter} {s : Table UInt32 ℤ}
    (h : Represents l.table.reduceOption s) (hnone : none ∈ l.table) :
    s.tracked.card < rateTableSize := by
  have hlen : l.table.length
      = l.table.reduceOption.length + (l.table.filter Option.isNone).length :=
    List.length_eq_reduceOption_length_add_filter_none
  have hpos : 0 < (l.table.filter Option.isNone).length :=
    List.length_pos_of_mem (List.mem_filter.mpr ⟨hnone, rfl⟩)
  rw [l.length_table, ← h.card_tracked] at hlen
  omega

/-- Without an empty slot the accept table is full. -/
theorem card_eq_of_full {l : RateLimiter} {s : Table UInt32 ℤ}
    (h : Represents l.table.reduceOption s) (hfull : ∀ y ∈ l.table, y.isSome = true) :
    s.tracked.card = rateTableSize := by
  have hlen : l.table.length
      = l.table.reduceOption.length + (l.table.filter Option.isNone).length :=
    List.length_eq_reduceOption_length_add_filter_none
  have hnone : l.table.filter Option.isNone = [] :=
    List.filter_eq_nil_iff.mpr fun y hy => by simp [Option.isSome_iff_ne_none.mp (hfull y hy)]
  rw [l.length_table, ← h.card_tracked, hnone] at hlen
  exact hlen.symm

/-- **One `check` is one step of the accept table.** -/
theorem check_simulates {l : RateLimiter} {s : Table UInt32 ℤ}
    (h : Represents l.table.reduceOption s) (addr : UInt32) (nowUs : ℤ) :
    ∃ s', Admit rateTableSize (fun t u => tooSoon t u = true) s addr nowUs
        (l.check addr nowUs).2 s' ∧
      Represents (l.check addr nowUs).1.table.reduceOption s' := by
  rcases check_cases l addr nowUs with ⟨l₁, e, l₂, htable, rfl, hcase⟩ |
      ⟨hfresh, l₁, x, l₂, htable, hnew, hok, hx⟩
  · -- the address is tracked
    have hcut : Represents (l₁.reduceOption ++ e :: l₂.reduceOption) s :=
      reduceOption_cut l₁ l₂ e ▸ htable ▸ h
    have htracked : e.addr ∈ s.tracked := (hcut.tracked _).mpr ⟨e, by simp, rfl⟩
    have hlast : s.last e.addr = e.lastUs := hcut.last e (by simp)
    rcases hcase with ⟨hsoon, hsame, hok⟩ | ⟨hsoon, hnew, hok⟩
    · exact ⟨s, hok ▸ Admit.refuse htracked (hlast ▸ hsoon), hsame ▸ h⟩
    · refine ⟨_, hok ▸ Admit.renew htracked (by rw [hlast, hsoon]; decide), ?_⟩
      rw [hnew, reduceOption_cut]
      refine hcut.cut.record nowUs (fun e' he' heq => ?_) rfl fun a ha => ?_
      · exact Finset.notMem_erase _ _ ((hcut.cut.tracked _).mpr ⟨e', he', heq⟩)
      · rw [← hcut.cut.tracked a, Finset.mem_erase, and_iff_right ha]
  · -- the address is new
    have hnot : addr ∉ s.tracked := fun hin => by
      obtain ⟨e, he, hea⟩ := (h.tracked addr).mp hin
      exact hfresh e he hea
    rw [hnew, reduceOption_cut, hok]
    rcases hx with rfl | ⟨hfull, v, rfl, hmin⟩
    · have hes : l.table.reduceOption = l₁.reduceOption ++ l₂.reduceOption := by
        rw [htable, List.reduceOption_append, List.reduceOption_cons_of_none]
      have hroom : s.tracked.card < rateTableSize :=
        card_lt_of_empty_slot h (htable ▸ List.mem_append_right _ List.mem_cons_self)
      rw [hes] at h hfresh
      exact ⟨_, Admit.insert hnot hroom,
        h.record nowUs hfresh rfl fun a _ => h.tracked a⟩
    · have hcut : Represents (l₁.reduceOption ++ v :: l₂.reduceOption) s :=
        reduceOption_cut l₁ l₂ v ▸ htable ▸ h
      have hold : ∀ w ∈ s.tracked, s.last v.addr ≤ s.last w := fun w hw => by
        obtain ⟨e, he, rfl⟩ := (h.tracked w).mp hw
        rw [hcut.last v (by simp), h.last e he]
        exact hmin e (List.reduceOption_mem_iff.mp he)
      refine ⟨_, Admit.evict v.addr hnot (card_eq_of_full h hfull)
        ((hcut.tracked _).mpr ⟨v, by simp, rfl⟩) hold, ?_⟩
      refine hcut.cut.record nowUs (fun e he heq => hnot ?_) rfl fun a _ => hcut.cut.tracked a
      exact Finset.mem_of_mem_erase ((hcut.cut.tracked _).mpr ⟨e, he, heq⟩)

/-! ## Whole runs -/

/-- `check` as a machine over `(address, time)` requests, answering each. -/
def answer (l : RateLimiter) (req : UInt32 × ℤ) : RateLimiter × Bool := l.check req.1 req.2

/-- The calls a sequence of requests to a new limiter amounts to, with their answers. -/
def calls (reqs : List (UInt32 × ℤ)) : List (Call UInt32 ℤ) :=
  (transcript answer new reqs).map fun p => ⟨p.1.1, p.1.2, p.2⟩

/-- **A new limiter's table represents an accept table run** of the calls it answered. -/
theorem runs_represents (reqs : List (UInt32 × ℤ)) :
    ∃ s, Runs rateTableSize (fun t u => tooSoon t u = true) (calls reqs) s ∧
      Represents (exec answer new reqs).table.reduceOption s := by
  induction reqs using List.reverseRecOn with
  | nil => exact ⟨⟨∅, fun _ => 0⟩, Runs.nil _, represents_new _⟩
  | append_singleton reqs req ih =>
    obtain ⟨s, hr, hrep⟩ := ih
    obtain ⟨s', hadm, hrep'⟩ := check_simulates hrep req.1 req.2
    refine ⟨s', ?_, by simpa [answer] using hrep'⟩
    rw [calls, transcript_append, List.map_append]
    exact hr.snoc hadm

/-- The calls carry the requests they answer. -/
theorem map_calls (reqs : List (UInt32 × ℤ)) :
    (calls reqs).map (fun c => (c.key, c.time)) = reqs := by
  rw [calls, List.map_map]
  exact transcript_map_fst answer new reqs

theorem calls_snoc (reqs : List (UInt32 × ℤ)) (req : UInt32 × ℤ) :
    calls (reqs ++ [req])
      = calls reqs ++ [⟨req.1, req.2, ((exec answer new reqs).check req.1 req.2).2⟩] := by
  rw [calls, transcript_append, List.map_append]
  rfl

/-- Requests in order make calls in order. -/
theorem pairwise_calls {reqs : List (UInt32 × ℤ)} (hchron : reqs.Pairwise fun p q => p.2 ≤ q.2) :
    (calls reqs).Pairwise fun c d => c.time ≤ d.time := by
  rw [← map_calls reqs, List.pairwise_map] at hchron
  exact hchron

theorem tooSoon_iff {t u : ℤ} : tooSoon t u = true ↔ t - u < minPollIntervalUs := by
  rw [tooSoon, decide_eq_true_iff, satSub_lt_iff (by decide) (by decide)]

/-- The unbounded map of last accepted times, as a machine over the same requests. -/
def mapAnswer (m : UInt32 → Option ℤ) (req : UInt32 × ℤ) : (UInt32 → Option ℤ) × Bool :=
  mapAdmit tooSoon m req.1 req.2

/-- **With at most `rateTableSize` addresses the limiter is the unbounded map**, call for call, and
the map's state is the last accepted times of the calls answered. -/
theorem transcript_eq_mapAnswer {reqs : List (UInt32 × ℤ)} {K : Finset UInt32}
    (hchron : reqs.Pairwise fun p q => p.2 ≤ q.2) (hcard : K.card ≤ rateTableSize)
    (hK : ∀ req ∈ reqs, req.1 ∈ K) :
    transcript answer new reqs = transcript mapAnswer (fun _ => none) reqs ∧
      exec mapAnswer (fun _ => none) reqs = lastAccepted (calls reqs) := by
  induction reqs using List.reverseRecOn with
  | nil => exact ⟨rfl, rfl⟩
  | append_singleton reqs req ih =>
    obtain ⟨hpre, -, -⟩ := List.pairwise_append.mp hchron
    obtain ⟨htr, hmap⟩ := ih hpre fun r hr => hK r (List.mem_append_left _ hr)
    obtain ⟨s, hr, hrep⟩ := runs_represents reqs
    obtain ⟨s', hadm, -⟩ := check_simulates hrep req.1 req.2
    have hkeys : ∀ c ∈ calls reqs, c.key ∈ K := fun c hc => by
      have hmem : (c.key, c.time) ∈ reqs := by
        rw [← map_calls reqs]
        exact List.mem_map_of_mem hc
      exact hK _ (List.mem_append_left _ hmem)
    have hans : (mapAnswer (lastAccepted (calls reqs)) req).2
        = ((exec answer new reqs).check req.1 req.2).2 := by
      have hiff := (refused_iff_lastAccepted hr (pairwise_calls hpre) hadm hcard
        (hK req (by simp)) hkeys).trans mapAdmit_snd_eq_false.symm
      have hbool : ∀ a b : Bool, (a = false ↔ b = false) → b = a := by decide
      exact hbool _ _ hiff
    constructor
    · rw [transcript_append, transcript_append, htr, hmap]
      simp only [transcript_cons, transcript_nil, hans, answer]
    · rw [exec_append, hmap, calls_snoc]
      exact mapAdmit_fst hans

/-- **The limiter's guarantee.**  Over requests in order of time: a refused request follows the
last accepted one of its address by less than the poll interval; a request accepted that soon
was crowded out by `rateTableSize` other addresses accepted in between; and with at most
`rateTableSize` addresses in all, every answer is the unbounded map's. -/
theorem check_guarantee (reqs : List (UInt32 × ℤ))
    (hchron : reqs.Pairwise fun p q => p.2 ≤ q.2) :
    (∀ pre addr t post, reqs = pre ++ (addr, t) :: post →
      (((exec answer new pre).check addr t).2 = false →
        ∃ u, lastAccepted (calls pre) addr = some u ∧ t - u < minPollIntervalUs) ∧
      (((exec answer new pre).check addr t).2 = true →
        ∀ c ∈ calls pre, c.ok = true → c.key = addr → t - c.time < minPollIntervalUs →
          ∃ S : Finset UInt32, rateTableSize ≤ S.card ∧ addr ∉ S ∧
            ∀ b ∈ S, ∃ d ∈ calls pre, d.ok = true ∧ d.key = b ∧ c.time ≤ d.time ∧ d.time ≤ t)) ∧
    (∀ K : Finset UInt32, K.card ≤ rateTableSize → (∀ req ∈ reqs, req.1 ∈ K) →
      transcript answer new reqs = transcript mapAnswer (fun _ => none) reqs) := by
  refine ⟨?_, fun K hcard hK => (transcript_eq_mapAnswer hchron hcard hK).1⟩
  rintro pre addr t post rfl
  obtain ⟨hpre, -, hlast⟩ := List.pairwise_append.mp hchron
  have hcalls := pairwise_calls hpre
  obtain ⟨s, hr, hrep⟩ := runs_represents pre
  obtain ⟨s', hadm, -⟩ := check_simulates hrep addr t
  constructor
  · intro hok
    obtain ⟨u, hu, hsoon⟩ := too_soon_of_refused hr (hok ▸ hadm)
    exact ⟨u, hu, tooSoon_iff.mp hsoon⟩
  · rintro hok c hc hcok rfl hsoon
    -- the wait since the last acceptance is no longer than the wait since `c`
    obtain ⟨u, hu, hcu⟩ := le_lastAccepted hcalls hc hcok
    have hearly : tooSoon t u = true := tooSoon_iff.mpr (by omega)
    obtain ⟨S, hS, hnot, hin⟩ :=
      (crowded_of_early_accept hr hcalls (hok ▸ hadm) hu hearly).mono hcu
    refine ⟨S, hS, hnot, fun b hb => ?_⟩
    obtain ⟨d, hd, hdok, hdkey, hdtime⟩ := hin b hb
    have hmem : (d.key, d.time) ∈ pre := by
      rw [← map_calls pre]
      exact List.mem_map_of_mem hd
    exact ⟨d, hd, hdok, hdkey, hdtime, hlast _ hmem _ List.mem_cons_self⟩

/-- The first request of each of the clients `1` to `rateTableSize`, an hour after the boot and a
millisecond apart: together they fill the table. -/
def crowd : List (UInt32 × ℤ) :=
  (List.range rateTableSize).map fun i => (UInt32.ofNat (i + 1), 3600000000 + 1000 * i)

/-- **The guarantee in both directions**: client 70 is refused a second after its first request, and
served a second after the crowd has evicted it, though its poll interval is not over. -/
theorem check_guarantee_crowd :
    (((exec answer new [(70, 3599999000)]).check 70 3600999000).2 = false ∧
      ∃ u, lastAccepted (calls [(70, 3599999000)]) 70 = some u ∧
        (3600999000 : ℤ) - u < minPollIntervalUs) ∧
    (((exec answer new ((70, 3599999000) :: crowd)).check 70 3600999000).2 = true ∧
      ∃ S : Finset UInt32, rateTableSize ≤ S.card ∧ 70 ∉ S ∧
        ∀ b ∈ S, ∃ d ∈ calls ((70, 3599999000) :: crowd), d.ok = true ∧ d.key = b ∧
          3599999000 ≤ d.time ∧ d.time ≤ 3600999000) := by
  have hrefused : ((exec answer new [(70, 3599999000)]).check 70 3600999000).2 = false := by
    decide +kernel
  have hserved :
      ((exec answer new ((70, 3599999000) :: crowd)).check 70 3600999000).2 = true := by
    decide +kernel
  have hfirst : (⟨70, 3599999000, true⟩ : Call UInt32 ℤ) ∈ calls ((70, 3599999000) :: crowd) := by
    decide +kernel
  exact ⟨⟨hrefused, ((check_guarantee [(70, 3599999000), (70, 3600999000)] (by decide)).1
      [(70, 3599999000)] 70 3600999000 [] rfl).1 hrefused⟩,
    hserved, ((check_guarantee (((70, 3599999000) :: crowd) ++ [(70, 3600999000)])
      (by decide +kernel)).1 ((70, 3599999000) :: crowd) 70 3600999000 [] rfl).2 hserved _ hfirst
      rfl rfl (by decide)⟩

end RateLimiter

end GpsNtp
