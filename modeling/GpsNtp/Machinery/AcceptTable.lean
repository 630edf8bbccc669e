import Mathlib.Data.Finset.Card
import Mathlib.Data.List.Induction
import Mathlib.Order.Basic

/-!
# Machinery/AcceptTable — a bounded table of last-accepted times

    admit k t :  k tracked, too soon ──▸ refused
                 k tracked, else     ──▸ accepted, renewed
                 k absent            ──▸ accepted, an oldest key evicted when full

The table remembers, for at most `cap` keys, when a request of that key was last accepted.  The
relation `Admit` leaves the choice among equally old keys open, so every eviction order of an
implementation is an instance.  Two facts survive the evictions: a tracked key carries its *true*
last accepted time (`tracked_last`), and a key that was accepted and is no longer tracked was
crowded out by `cap` other keys accepted since (`crowded_of_absent`).  They make the two halves of
the limiter's guarantee (`too_soon_of_refused`, `crowded_of_early_accept`), and with at most `cap`
keys the bound is invisible (`refused_iff_lastAccepted`).
-/

namespace AcceptTable

variable {κ τ : Type*}

/-- The keys a table tracks, each with the time of its last accepted request. -/
structure Table (κ τ : Type*) where
  /-- The tracked keys. -/
  tracked : Finset κ
  /-- The last accepted time, meaningful on `tracked`. -/
  last : κ → τ

/-- A request, with the answer it got. -/
structure Call (κ τ : Type*) where
  key : κ
  time : τ
  ok : Bool
deriving DecidableEq

section History

variable [DecidableEq κ]

/-- The table after `k` is accepted at `t` among the keys `ks`. -/
def Table.record (s : Table κ τ) (ks : Finset κ) (k : κ) (t : τ) : Table κ τ :=
  ⟨insert k ks, Function.update s.last k t⟩

/-- **The unbounded map of last accepted times**, read off a history. -/
def lastAccepted (h : List (Call κ τ)) (a : κ) : Option τ :=
  h.foldl (fun acc c => if c.ok = true ∧ c.key = a then some c.time else acc) none

@[simp] theorem lastAccepted_nil (a : κ) : lastAccepted ([] : List (Call κ τ)) a = none := rfl

theorem lastAccepted_snoc (h : List (Call κ τ)) (c : Call κ τ) (a : κ) :
    lastAccepted (h ++ [c]) a
      = if c.ok = true ∧ c.key = a then some c.time else lastAccepted h a := by
  rw [lastAccepted, List.foldl_append]
  rfl

/-- **The unbounded limiter**: every key's last accepted time is kept. -/
def mapAdmit (tooSoon : τ → τ → Bool) (m : κ → Option τ) (k : κ) (t : τ) :
    (κ → Option τ) × Bool :=
  if (m k).any (tooSoon t) then (m, false) else (Function.update m k (some t), true)

/-- The unbounded limiter refuses exactly the keys accepted too recently. -/
theorem mapAdmit_snd_eq_false {tooSoon : τ → τ → Bool} {m : κ → Option τ} {k : κ} {t : τ} :
    (mapAdmit tooSoon m k t).2 = false ↔ ∃ u, m k = some u ∧ tooSoon t u = true := by
  rw [mapAdmit]
  split_ifs with h
  · simpa [Option.any_eq_true] using h
  · simpa [Option.any_eq_true] using h

/-- **The unbounded limiter's state is the unbounded map of its history.** -/
theorem mapAdmit_fst {tooSoon : τ → τ → Bool} {h : List (Call κ τ)} {k : κ} {t : τ} {ok : Bool}
    (hok : (mapAdmit tooSoon (lastAccepted h) k t).2 = ok) :
    (mapAdmit tooSoon (lastAccepted h) k t).1 = lastAccepted (h ++ [⟨k, t, ok⟩]) := by
  funext a
  rw [lastAccepted_snoc]
  rw [mapAdmit] at hok ⊢
  split_ifs at hok ⊢ with hany hacc hacc
  · exact absurd (hok.trans hacc.1) Bool.false_ne_true
  · rfl
  · obtain ⟨-, rfl⟩ : true = ok ∧ k = a := ⟨hok, hacc.2⟩
    exact Function.update_self _ _ _
  · exact Function.update_of_ne (fun hak => hacc ⟨hok.symm, hak.symm⟩) _ _

/-- A refused call leaves the unbounded map as it was. -/
theorem lastAccepted_snoc_refused {h : List (Call κ τ)} {c : Call κ τ} (hc : c.ok = false)
    (a : κ) : lastAccepted (h ++ [c]) a = lastAccepted h a := by
  rw [lastAccepted_snoc, if_neg (by simp [hc])]

/-- A call of another key leaves the unbounded map as it was. -/
theorem lastAccepted_snoc_of_ne {h : List (Call κ τ)} {c : Call κ τ} {a : κ} (hc : c.key ≠ a) :
    lastAccepted (h ++ [c]) a = lastAccepted h a := by
  rw [lastAccepted_snoc, if_neg fun hk => hc hk.2]

/-- The last accepted time is the time of an accepted call. -/
theorem mem_of_lastAccepted {h : List (Call κ τ)} {a : κ} {u : τ} (hu : lastAccepted h a = some u) :
    ∃ c ∈ h, c.ok = true ∧ c.key = a ∧ c.time = u := by
  induction h using List.reverseRecOn with
  | nil => exact absurd hu (by simp)
  | append_singleton h c ih =>
    rw [lastAccepted_snoc] at hu
    split_ifs at hu with hc
    · exact ⟨c, by simp, hc.1, hc.2, Option.some.inj hu⟩
    · obtain ⟨c', hm, hrest⟩ := ih hu
      exact ⟨c', List.mem_append_left _ hm, hrest⟩

end History

variable [LinearOrder τ]

/-- The keys accepted from `u` on crowd `a` out: there are at least `cap` of them. -/
def Crowded (cap : ℕ) (h : List (Call κ τ)) (a : κ) (u : τ) : Prop :=
  ∃ S : Finset κ, cap ≤ S.card ∧ a ∉ S ∧
    ∀ b ∈ S, ∃ c ∈ h, c.ok = true ∧ c.key = b ∧ u ≤ c.time

theorem Crowded.snoc {cap : ℕ} {h : List (Call κ τ)} {a : κ} {u : τ} (hcr : Crowded cap h a u)
    (c : Call κ τ) : Crowded cap (h ++ [c]) a u := by
  obtain ⟨S, hcard, ha, hS⟩ := hcr
  refine ⟨S, hcard, ha, fun b hb => ?_⟩
  obtain ⟨d, hd, hrest⟩ := hS b hb
  exact ⟨d, List.mem_append_left _ hd, hrest⟩

/-- **Crowding is monotone**: from an earlier time on, no fewer keys were accepted. -/
theorem Crowded.mono {cap : ℕ} {h : List (Call κ τ)} {a : κ} {u u' : τ} (hcr : Crowded cap h a u)
    (hu : u' ≤ u) : Crowded cap h a u' := by
  obtain ⟨S, hcard, ha, hS⟩ := hcr
  refine ⟨S, hcard, ha, fun b hb => ?_⟩
  obtain ⟨d, hd, hok, hkey, htime⟩ := hS b hb
  exact ⟨d, hd, hok, hkey, hu.trans htime⟩

variable [DecidableEq κ]

/-- **It is the latest one**, when calls come in order. -/
theorem le_lastAccepted {h : List (Call κ τ)} (hchron : h.Pairwise fun c d => c.time ≤ d.time)
    {c : Call κ τ} (hc : c ∈ h) (hok : c.ok = true) :
    ∃ u, lastAccepted h c.key = some u ∧ c.time ≤ u := by
  induction h using List.reverseRecOn with
  | nil => exact absurd hc List.not_mem_nil
  | append_singleton h d ih =>
    obtain ⟨hpre, -, hlast⟩ := List.pairwise_append.mp hchron
    rw [lastAccepted_snoc]
    rcases List.mem_append.mp hc with hm | hm
    · split_ifs with hd
      · exact ⟨d.time, rfl, hlast c hm d (by simp)⟩
      · exact ih hpre hm
    · obtain rfl : c = d := by simpa using hm
      exact ⟨c.time, if_pos ⟨hok, rfl⟩, le_rfl⟩

/-- **One request.**  `tooSoon t u` says that `t` is too soon after an acceptance at `u`. -/
inductive Admit (cap : ℕ) (tooSoon : τ → τ → Prop) (s : Table κ τ) (k : κ) (t : τ) :
    Bool → Table κ τ → Prop
  | refuse : k ∈ s.tracked → tooSoon t (s.last k) → Admit cap tooSoon s k t false s
  | renew : k ∈ s.tracked → ¬ tooSoon t (s.last k) →
      Admit cap tooSoon s k t true (s.record s.tracked k t)
  | insert : k ∉ s.tracked → s.tracked.card < cap →
      Admit cap tooSoon s k t true (s.record s.tracked k t)
  | evict (v : κ) : k ∉ s.tracked → s.tracked.card = cap → v ∈ s.tracked →
      (∀ w ∈ s.tracked, s.last v ≤ s.last w) →
      Admit cap tooSoon s k t true (s.record (s.tracked.erase v) k t)

/-- The tables reachable from the empty one, with the calls that led there, oldest first. -/
inductive Runs (cap : ℕ) (tooSoon : τ → τ → Prop) : List (Call κ τ) → Table κ τ → Prop
  | nil (last : κ → τ) : Runs cap tooSoon [] ⟨∅, last⟩
  | snoc {h : List (Call κ τ)} {s s' : Table κ τ} {c : Call κ τ} : Runs cap tooSoon h s →
      Admit cap tooSoon s c.key c.time c.ok s' → Runs cap tooSoon (h ++ [c]) s'

section Invariants

variable {cap : ℕ} {tooSoon : τ → τ → Prop} {h : List (Call κ τ)} {s : Table κ τ}

/-- **A tracked key carries its true last accepted time.** -/
theorem tracked_last (hr : Runs cap tooSoon h s) :
    ∀ a ∈ s.tracked, lastAccepted h a = some (s.last a) := by
  induction hr with
  | nil => intro a ha; exact absurd ha (Finset.notMem_empty a)
  | @snoc h s s' c _ hadm ih =>
    -- whichever keys survive an acceptance, they were tracked before, or are the accepted one
    have haccept : ∀ ks ⊆ s.tracked, c.ok = true → ∀ a ∈ (s.record ks c.key c.time).tracked,
        lastAccepted (h ++ [c]) a = some ((s.record ks c.key c.time).last a) := by
      intro ks hks hok a ha
      rw [lastAccepted_snoc]
      by_cases hca : c.key = a
      · subst hca
        simp [Table.record, hok]
      · rcases Finset.mem_insert.mp ha with rfl | hmem
        · exact absurd rfl hca
        · rw [if_neg fun hk => hca hk.2, ih a (hks hmem)]
          simp [Table.record, Function.update_of_ne (Ne.symm hca)]
    generalize hok : c.ok = ok at hadm
    cases hadm with
    | refuse => intro a ha; rw [lastAccepted_snoc_refused hok, ih a ha]
    | renew => exact haccept _ (fun _ hx => hx) hok
    | insert => exact haccept _ (fun _ hx => hx) hok
    | evict v => exact haccept _ (Finset.erase_subset _ _) hok

/-- An evicted key is crowded out by the keys that stay and the one that takes its place. -/
theorem crowded_evict {c : Call κ τ} {v : κ} (hr : Runs cap tooSoon h s)
    (hchron : ∀ d ∈ h, d.time ≤ c.time) (hok : c.ok = true) (hk : c.key ∉ s.tracked)
    (hcard : s.tracked.card = cap) (hv : v ∈ s.tracked)
    (hmin : ∀ w ∈ s.tracked, s.last v ≤ s.last w) : Crowded cap (h ++ [c]) v (s.last v) := by
  refine ⟨insert c.key (s.tracked.erase v), ?_, ?_, fun b hb => ?_⟩
  · have hnot : c.key ∉ s.tracked.erase v := fun hm => hk (Finset.mem_of_mem_erase hm)
    rw [Finset.card_insert_of_notMem hnot, Finset.card_erase_of_mem hv, hcard]
    omega
  · intro hm
    rcases Finset.mem_insert.mp hm with rfl | hm
    · exact hk hv
    · exact Finset.notMem_erase v _ hm
  · rcases Finset.mem_insert.mp hb with rfl | hb
    · obtain ⟨d, hd, -, -, htime⟩ := mem_of_lastAccepted (tracked_last hr v hv)
      exact ⟨c, by simp, hok, rfl, htime ▸ hchron d hd⟩
    · have hbt := Finset.mem_of_mem_erase hb
      obtain ⟨d, hd, hdok, hdkey, htime⟩ := mem_of_lastAccepted (tracked_last hr b hbt)
      exact ⟨d, List.mem_append_left _ hd, hdok, hdkey, htime ▸ hmin b hbt⟩

/-- **An absent key was crowded out**: since its last accepted request, `cap` other keys were
accepted. -/
theorem crowded_of_absent (hr : Runs cap tooSoon h s)
    (hchron : h.Pairwise fun c d => c.time ≤ d.time) :
    ∀ a ∉ s.tracked, ∀ u, lastAccepted h a = some u → Crowded cap h a u := by
  induction hr with
  | nil => intro a _ u hu; exact absurd hu (by simp)
  | @snoc h s s' c hr hadm ih =>
    obtain ⟨hpre, -, hlast⟩ := List.pairwise_append.mp hchron
    have hle : ∀ d ∈ h, d.time ≤ c.time := fun d hd => hlast d hd c (by simp)
    -- a key absent both before and after stays crowded out; the accepted key is present
    have hstay : ∀ a ∉ s.tracked, c.key ≠ a → ∀ u, lastAccepted (h ++ [c]) a = some u →
        Crowded cap (h ++ [c]) a u := by
      intro a ha hne u hu
      rw [lastAccepted_snoc_of_ne hne] at hu
      exact (ih hpre a ha u hu).snoc c
    generalize hok : c.ok = ok at hadm
    cases hadm with
    | refuse hk =>
      exact fun a ha => hstay a ha fun hca => ha (hca ▸ hk)
    | renew | insert =>
      intro a ha
      obtain ⟨hne, hmem⟩ := not_or.mp (mt Finset.mem_insert.mpr ha)
      exact hstay a hmem (Ne.symm hne)
    | evict v hk hcard hv hmin =>
      intro a ha u hu
      obtain ⟨hne, hmem⟩ := not_or.mp (mt Finset.mem_insert.mpr ha)
      by_cases hav : a = v
      · subst hav
        rw [lastAccepted_snoc_of_ne (Ne.symm hne), tracked_last hr a hv] at hu
        obtain rfl := Option.some.inj hu
        exact crowded_evict hr hle hok hk hcard hv hmin
      · exact hstay a (fun hmt => hmem (Finset.mem_erase.mpr ⟨hav, hmt⟩)) (Ne.symm hne) u hu

/-! ## The guarantee -/

/-- **No false refusal** — a refused key was accepted too recently, evictions or not. -/
theorem too_soon_of_refused {s' : Table κ τ} {k : κ} {t : τ} (hr : Runs cap tooSoon h s)
    (ha : Admit cap tooSoon s k t false s') : ∃ u, lastAccepted h k = some u ∧ tooSoon t u := by
  cases ha with
  | refuse hk hs => exact ⟨_, tracked_last hr k hk, hs⟩

/-- **Enforcement** — a key accepted too soon after its last acceptance had been crowded out. -/
theorem crowded_of_early_accept {s' : Table κ τ} {k : κ} {t u : τ} (hr : Runs cap tooSoon h s)
    (hchron : h.Pairwise fun c d => c.time ≤ d.time) (ha : Admit cap tooSoon s k t true s')
    (hu : lastAccepted h k = some u) (hs : tooSoon t u) : Crowded cap h k u := by
  by_cases hk : k ∈ s.tracked
  · have hlast : s.last k = u := Option.some.inj ((tracked_last hr k hk).symm.trans hu)
    cases ha with
    | renew _ hns => exact absurd (hlast ▸ hs) hns
    | insert hk' => exact absurd hk hk'
    | evict _ hk' => exact absurd hk hk'
  · exact crowded_of_absent hr hchron k hk u hu

/-- **With at most `cap` keys the bound is invisible** — the answer is the one the unbounded map
gives. -/
theorem refused_iff_lastAccepted {s' : Table κ τ} {k : κ} {t : τ} {ok : Bool} {K : Finset κ}
    (hr : Runs cap tooSoon h s) (hchron : h.Pairwise fun c d => c.time ≤ d.time)
    (ha : Admit cap tooSoon s k t ok s') (hK : K.card ≤ cap) (hk : k ∈ K)
    (hkeys : ∀ c ∈ h, c.key ∈ K) :
    ok = false ↔ ∃ u, lastAccepted h k = some u ∧ tooSoon t u := by
  constructor
  · rintro rfl
    exact too_soon_of_refused hr ha
  · rintro ⟨u, hu, hs⟩
    cases ok with
    | false => rfl
    | true =>
      -- the crowd and `k` itself would be `cap + 1` keys of `K`
      obtain ⟨S, hcard, hkS, hS⟩ := crowded_of_early_accept hr hchron ha hu hs
      have hsub : insert k S ⊆ K := by
        intro b hb
        rcases Finset.mem_insert.mp hb with rfl | hb
        · exact hk
        · obtain ⟨c, hc, -, hkey, -⟩ := hS b hb
          exact hkey ▸ hkeys c hc
      have := Finset.card_le_card hsub
      rw [Finset.card_insert_of_notMem hkS] at this
      omega

end Invariants

end AcceptTable
