import GpsNtp.Machinery.Run
import Mathlib.Data.Nat.Basic

/-!
# Machinery/Seqlock — one writer, one reader, one sequence number

    writer    seq + 1  ▸  value := vₖ  ▸  seq + 1
    reader    s₁ := seq  ▸  v := value  ▸  s₂ := seq      retried until s₁ is even and s₂ = s₁

The `k`-th **publication** of a seqlock takes three atomic steps, a read takes three atomic loads,
and a schedule interleaves the two as it likes.  The theorem of the protocol is `read_atomic`: a
read that returns is an atomic read at its first load.  The sequence number is a natural number
here; a fixed-width counter refines it as long as the publications fit (`Inv.seq_le`).
-/

namespace Seqlock

open Machine

variable {α : Type*}

/-! ## The protocol -/

/-- Who takes the next step. -/
inductive Turn where
  | writer
  | reader
deriving DecidableEq

/-- Where the writer stands: between publications, past the first bump, past the store. -/
inductive WriterPc where
  | idle
  | bumped
  | stored
deriving DecidableEq

/-- Where the reader stands: between reads, or before one of the three loads of a read. -/
inductive ReaderPc (α : Type*) where
  | idle
  | loadSeq
  | loadValue (s₁ : ℕ)
  | confirm (s₁ : ℕ) (v : α)
deriving DecidableEq

/-- The shared cell and both program counters. -/
structure State (α : Type*) where
  seq : ℕ
  value : α
  writer : WriterPc
  reader : ReaderPc α

/-- A cell that holds `v₀`, with nothing published. -/
def State.init (v₀ : α) : State α := ⟨0, v₀, .idle, .idle⟩

variable (published : ℕ → α) (limit : ℕ)

/-- The writer's next atomic step; it rests after `limit` publications. -/
def writerStep (s : State α) : State α :=
  match s.writer with
  | .idle => if s.seq / 2 < limit then { s with seq := s.seq + 1, writer := .bumped } else s
  | .bumped => { s with value := published (s.seq / 2 + 1), writer := .stored }
  | .stored => { s with seq := s.seq + 1, writer := .idle }

/-- The reader's next atomic step, and what the read returns if it ends there. -/
def readerStep (s : State α) : State α × Option (ℕ × α) :=
  match s.reader with
  | .idle => ({ s with reader := .loadSeq }, none)
  | .loadSeq => ({ s with reader := if s.seq % 2 = 1 then .loadSeq else .loadValue s.seq }, none)
  | .loadValue s₁ => ({ s with reader := .confirm s₁ s.value }, none)
  | .confirm s₁ v =>
    if s₁ = s.seq then ({ s with reader := .idle }, some (s₁ / 2, v))
    else ({ s with reader := .loadSeq }, none)

/-- One step of the schedule. -/
def step (s : State α) : Turn → State α × Option (ℕ × α)
  | .writer => (writerStep published limit s, none)
  | .reader => readerStep s

/-! ## The invariant -/

/-- Publication `k` is complete: `value` holds it and no publication is under way. -/
def Complete (k : ℕ) (s : State α) : Prop :=
  s.writer = .idle ∧ s.seq = 2 * k ∧ s.value = published k

/-- What the cell holds at each point of a publication. -/
def WriterInv (seq : ℕ) (value : α) : WriterPc → Prop
  | .idle => seq % 2 = 0 ∧ value = published (seq / 2)
  | .bumped => seq % 2 = 1 ∧ value = published (seq / 2)
  | .stored => seq % 2 = 1 ∧ value = published (seq / 2 + 1)

/-- What the reader knows at each point of a read: an unchanged sequence number vouches for the
value it loaded. -/
def ReaderInv (seq : ℕ) : ReaderPc α → Prop
  | .idle | .loadSeq => True
  | .loadValue s₁ => s₁ % 2 = 0 ∧ s₁ ≤ seq
  | .confirm s₁ v => s₁ % 2 = 0 ∧ s₁ ≤ seq ∧ (s₁ = seq → v = published (s₁ / 2))

/-- **The invariant** of the protocol. -/
structure Inv (s : State α) : Prop where
  writer : WriterInv published s.seq s.value s.writer
  reader : ReaderInv published s.seq s.reader
  seq_le : s.seq ≤ 2 * limit

variable {published limit} {s : State α}

theorem inv_init : Inv published limit (.init (published 0)) where
  writer := ⟨rfl, congrArg published (Nat.zero_div 2).symm⟩
  reader := trivial
  seq_le := Nat.zero_le _

/-- **An even sequence number** finds its publication complete. -/
theorem Inv.complete (h : Inv published limit s) (heven : s.seq % 2 = 0) :
    Complete published (s.seq / 2) s := by
  have hw := h.writer
  cases hpc : s.writer with
  | idle =>
    rw [hpc] at hw
    exact ⟨hpc, by omega, hw.2⟩
  | bumped =>
    rw [hpc] at hw
    exact absurd hw.1 (by omega)
  | stored =>
    rw [hpc] at hw
    exact absurd hw.1 (by omega)

/-- A bump takes away what a confirmation could rest on. -/
theorem ReaderInv.bump {seq : ℕ} {pc : ReaderPc α} (h : ReaderInv published seq pc) :
    ReaderInv published (seq + 1) pc := by
  cases pc with
  | idle => trivial
  | loadSeq => trivial
  | loadValue s₁ => exact ⟨h.1, h.2.trans (Nat.le_succ _)⟩
  | confirm s₁ v => exact ⟨h.1, h.2.1.trans (Nat.le_succ _), fun heq => absurd h.2.1 (by omega)⟩

theorem Inv.writerStep (h : Inv published limit s) :
    Inv published limit (writerStep published limit s) := by
  have hw := h.writer
  have hle := h.seq_le
  unfold Seqlock.writerStep
  cases hpc : s.writer with
  | idle =>
    rw [hpc] at hw
    obtain ⟨heven, hvalue⟩ := hw
    dsimp only
    split_ifs with hlimit
    · have hhalf : (s.seq + 1) / 2 = s.seq / 2 := by omega
      refine ⟨⟨?_, ?_⟩, h.reader.bump, ?_⟩
      · dsimp only
        omega
      · dsimp only
        rw [hhalf, hvalue]
      · dsimp only
        omega
    · exact h
  | bumped =>
    rw [hpc] at hw
    exact ⟨⟨hw.1, rfl⟩, h.reader, hle⟩
  | stored =>
    rw [hpc] at hw
    obtain ⟨hodd, hvalue⟩ := hw
    have hhalf : (s.seq + 1) / 2 = s.seq / 2 + 1 := by omega
    refine ⟨⟨?_, ?_⟩, h.reader.bump, ?_⟩
    · dsimp only
      omega
    · dsimp only
      rw [hhalf, hvalue]
    · dsimp only
      omega

theorem Inv.readerStep (h : Inv published limit s) :
    Inv published limit (readerStep s).1 := by
  have hr := h.reader
  unfold Seqlock.readerStep
  cases hpc : s.reader with
  | idle => exact ⟨h.writer, trivial, h.seq_le⟩
  | loadSeq =>
    refine ⟨h.writer, ?_, h.seq_le⟩
    dsimp only
    split_ifs with hodd
    · trivial
    · exact ⟨by omega, le_rfl⟩
  | loadValue s₁ =>
    rw [hpc] at hr
    refine ⟨h.writer, ⟨hr.1, hr.2, fun heq => ?_⟩, h.seq_le⟩
    have heq : s₁ = s.seq := heq
    rw [heq]
    exact (h.complete (heq ▸ hr.1)).2.2
  | confirm s₁ v =>
    dsimp only
    split_ifs
    · exact ⟨h.writer, trivial, h.seq_le⟩
    · exact ⟨h.writer, trivial, h.seq_le⟩

/-- **Every step keeps the invariant.** -/
theorem Inv.step (h : Inv published limit s) (turn : Turn) :
    Inv published limit (step published limit s turn).1 := by
  cases turn with
  | writer => exact h.writerStep
  | reader => exact h.readerStep

/-- What a read returns is a publication, whole. -/
theorem Inv.returns (h : Inv published limit s) {turn : Turn} {k : ℕ} {v : α}
    (hret : (Seqlock.step published limit s turn).2 = some (k, v)) :
    v = published k ∧ k ≤ limit ∧ ∃ s₁, s₁ / 2 = k ∧ s.reader = .confirm s₁ v := by
  cases turn with
  | writer => exact absurd hret nofun
  | reader =>
    have hr := h.reader
    have hle := h.seq_le
    unfold Seqlock.step Seqlock.readerStep at hret
    cases hpc : s.reader with
    | confirm s₁ w =>
      rw [hpc] at hr hret
      dsimp only at hret
      split_ifs at hret with heq
      obtain ⟨rfl, rfl⟩ := Prod.mk.inj (Option.some.inj hret)
      exact ⟨hr.2.2 heq, by omega, s₁, rfl, rfl⟩
    | _ => rw [hpc] at hret; exact absurd hret nofun

/-! ## Reads are atomic -/

variable (published limit)

/-- The state a schedule reaches from a fresh cell. -/
def after (turns : List Turn) : State α :=
  exec (step published limit) (.init (published 0)) turns

/-- **Publication `k` was complete during the read under way**: at a moment of the schedule since
which the reader has not been between reads. -/
def CompleteDuringRead (k : ℕ) (turns : List Turn) : Prop :=
  ∃ start during, turns = start ++ during ∧ Complete published k (after published limit start) ∧
    ∀ part, part <+: during → (after published limit (start ++ part)).reader ≠ .idle

variable {published limit}

theorem after_snoc (turns : List Turn) (turn : Turn) :
    after published limit (turns ++ [turn]) =
      (step published limit (after published limit turns) turn).1 := by
  rw [after, exec_append]
  rfl

/-- The protocol keeps its invariant under every schedule. -/
theorem inv_after (turns : List Turn) : Inv published limit (after published limit turns) :=
  run_induction (fun _ turn h => h.step turn) inv_init turns

/-- A read under way stays under way across a step that does not end it. -/
theorem CompleteDuringRead.snoc {k : ℕ} {turns : List Turn} {turn : Turn}
    (h : CompleteDuringRead published limit k turns)
    (hbusy : (after published limit (turns ++ [turn])).reader ≠ .idle) :
    CompleteDuringRead published limit k (turns ++ [turn]) := by
  obtain ⟨start, during, rfl, hcomplete, hcall⟩ := h
  refine ⟨start, during ++ [turn], List.append_assoc _ _ _, hcomplete, fun part hpart => ?_⟩
  rcases List.prefix_concat_iff.mp hpart with rfl | hpart
  · rwa [← List.append_assoc]
  · exact hcall part hpart

/-- The sequence number a read holds after its first load. -/
def ReaderPc.held : ReaderPc α → Option ℕ
  | .idle | .loadSeq => none
  | .loadValue s₁ => some s₁
  | .confirm s₁ _ => some s₁

/-- A read holds the number it held, or this step is its first load. -/
theorem held_step {turn : Turn} {s₁ : ℕ}
    (h : (step published limit s turn).1.reader.held = some s₁) :
    s.reader.held = some s₁ ∨ s.reader = .loadSeq ∧ s.seq = s₁ ∧ s₁ % 2 = 0 := by
  cases turn with
  | writer =>
    have hreader : (writerStep published limit s).reader = s.reader := by
      unfold writerStep
      cases s.writer with
      | idle => dsimp only; split_ifs <;> rfl
      | bumped => rfl
      | stored => rfl
    exact Or.inl (hreader ▸ h)
  | reader =>
    unfold step readerStep at h
    cases hpc : s.reader with
    | idle => rw [hpc] at h; exact absurd h nofun
    | loadSeq =>
      rw [hpc] at h
      dsimp only at h
      split_ifs at h with hodd
      · exact absurd h nofun
      · obtain rfl := Option.some.inj h
        exact Or.inr ⟨rfl, rfl, by omega⟩
    | loadValue t => rw [hpc] at h; exact Or.inl h
    | confirm t v =>
      rw [hpc] at h
      dsimp only at h
      split_ifs at h <;> exact absurd h nofun

/-- **The number a read holds is that of a publication complete during the read.** -/
theorem held_completeDuringRead (turns : List Turn) :
    ∀ s₁, (after published limit turns).reader.held = some s₁ →
      CompleteDuringRead published limit (s₁ / 2) turns := by
  induction turns using List.reverseRecOn with
  | nil => exact nofun
  | append_singleton turns turn ih =>
    intro s₁ hheld
    have hbusy : (after published limit (turns ++ [turn])).reader ≠ .idle := by
      intro hidle
      rw [hidle] at hheld
      exact absurd hheld nofun
    rw [after_snoc] at hheld
    rcases held_step hheld with hheld | ⟨hload, rfl, heven⟩
    · exact (ih s₁ hheld).snoc hbusy
    · have hcomplete : Complete published _ (after published limit turns) :=
        (inv_after turns).complete heven
      refine CompleteDuringRead.snoc ⟨turns, [], (List.append_nil _).symm, hcomplete, ?_⟩ hbusy
      intro part hpart
      rw [List.prefix_nil.mp hpart, List.append_nil, hload]
      exact nofun

/-- **Reads are atomic.**  Under every schedule a read that returns `(k, v)` returns the `k`-th
publication, complete at a moment of the read. -/
theorem read_atomic {turns : List Turn} {turn : Turn} {k : ℕ} {v : α}
    (h : (step published limit (after published limit turns) turn).2 = some (k, v)) :
    v = published k ∧ k ≤ limit ∧ CompleteDuringRead published limit k turns := by
  have hinv : Inv published limit (after published limit turns) := inv_after turns
  obtain ⟨hv, hk, s₁, rfl, hconfirm⟩ := hinv.returns h
  exact ⟨hv, hk, held_completeDuringRead turns s₁ (by rw [hconfirm]; rfl)⟩

end Seqlock
