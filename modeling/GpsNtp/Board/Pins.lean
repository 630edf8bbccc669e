import GpsNtp.Machinery.Run
import Mathlib.Logic.Function.Basic

/-!
# Board/Pins — who has taken a pin

    registry    —  ──take "pps"──▸  pps  ──release──▸  —  ──take──▸  —
    pool        ●  ──────────────▸  ○  ────────────▸  ○  ────────▸  ○
                        Ok                                NotAvailable

The pool of the board's pins and the registry of their owners.  A pin is moved out of the pool when
it is taken.  A module that closes releases the numbers of its pins, which clears the registry; the
pins themselves are not put back.
-/

namespace GpsNtp.Board

open Machine

/-! ## The registry -/

def GPIO_COUNT : ℕ := 49

/-- GPIO allocation conflict or missing pin. -/
inductive PinError
  | alreadyInUse (pin : ℤ) (owner : String)
  | notAvailable (pin : ℤ)
deriving DecidableEq

/-- The slot of a pin in the table, `pin as usize`, where it has one. -/
def slot (pin : ℤ) : Option (Fin GPIO_COUNT) :=
  if h : (pin % 2 ^ 32).toNat < GPIO_COUNT then some ⟨_, h⟩ else none

/-- Which GPIO numbers are allocated, and by which module. -/
structure PinRegistry where
  owners : Fin GPIO_COUNT → Option String

namespace PinRegistry

def new : PinRegistry := ⟨fun _ => none⟩

def claim (r : PinRegistry) (pin : ℤ) (owner : String) : PinRegistry × Except PinError Unit :=
  match slot pin with
  | none => (r, .error (.notAvailable pin))
  | some i =>
    match r.owners i with
    | some existing => (r, .error (.alreadyInUse pin existing))
    | none => (⟨Function.update r.owners i (some owner)⟩, .ok ())

def release (r : PinRegistry) (pin : ℤ) : PinRegistry :=
  match slot pin with
  | none => r
  | some i => ⟨Function.update r.owners i none⟩

end PinRegistry

/-! ## The pool -/

/-- The GPIO lines of the pool. -/
inductive Gpio
  | gpio0 | gpio1 | gpio2 | gpio7 | gpio10 | gpio12 | gpio21 | gpio33
  | gpio35 | gpio36 | gpio37 | gpio39 | gpio40 | gpio41 | gpio42 | gpio45
deriving DecidableEq

def Gpio.number : Gpio → ℤ
  | gpio0 => 0
  | gpio1 => 1
  | gpio2 => 2
  | gpio7 => 7
  | gpio10 => 10
  | gpio12 => 12
  | gpio21 => 21
  | gpio33 => 33
  | gpio35 => 35
  | gpio36 => 36
  | gpio37 => 37
  | gpio39 => 39
  | gpio40 => 40
  | gpio41 => 41
  | gpio42 => 42
  | gpio45 => 45

/-- The registry, and which lines are still in the pool. -/
structure PinPool where
  registry : PinRegistry
  gpio : Gpio → Bool

namespace PinPool

def fromBoardPins : PinPool := ⟨.new, fun _ => true⟩

def release (p : PinPool) (pin : ℤ) : PinPool := { p with registry := p.registry.release pin }

/-- What each of `take_gpio0` to `take_gpio45` does, of the line of its name. -/
def take (p : PinPool) (g : Gpio) (owner : String) : PinPool × Except PinError Gpio :=
  match p.registry.claim g.number owner with
  | (registry, .error err) => ({ p with registry }, .error err)
  | (registry, .ok ()) =>
    if p.gpio g then (⟨registry, Function.update p.gpio g false⟩, .ok g)
    else ({ p with registry := registry.release g.number }, .error (.notAvailable g.number))

def takeGpio0 (p : PinPool) (owner : String) : PinPool × Except PinError Gpio :=
  p.take .gpio0 owner

def takeGpio1 (p : PinPool) (owner : String) : PinPool × Except PinError Gpio :=
  p.take .gpio1 owner

def takeGpio2 (p : PinPool) (owner : String) : PinPool × Except PinError Gpio :=
  p.take .gpio2 owner

def takeGpio7 (p : PinPool) (owner : String) : PinPool × Except PinError Gpio :=
  p.take .gpio7 owner

def takeGpio10 (p : PinPool) (owner : String) : PinPool × Except PinError Gpio :=
  p.take .gpio10 owner

def takeGpio12 (p : PinPool) (owner : String) : PinPool × Except PinError Gpio :=
  p.take .gpio12 owner

def takeGpio21 (p : PinPool) (owner : String) : PinPool × Except PinError Gpio :=
  p.take .gpio21 owner

def takeGpio33 (p : PinPool) (owner : String) : PinPool × Except PinError Gpio :=
  p.take .gpio33 owner

def takeGpio35 (p : PinPool) (owner : String) : PinPool × Except PinError Gpio :=
  p.take .gpio35 owner

def takeGpio36 (p : PinPool) (owner : String) : PinPool × Except PinError Gpio :=
  p.take .gpio36 owner

def takeGpio37 (p : PinPool) (owner : String) : PinPool × Except PinError Gpio :=
  p.take .gpio37 owner

def takeGpio39 (p : PinPool) (owner : String) : PinPool × Except PinError Gpio :=
  p.take .gpio39 owner

def takeGpio40 (p : PinPool) (owner : String) : PinPool × Except PinError Gpio :=
  p.take .gpio40 owner

def takeGpio41 (p : PinPool) (owner : String) : PinPool × Except PinError Gpio :=
  p.take .gpio41 owner

def takeGpio42 (p : PinPool) (owner : String) : PinPool × Except PinError Gpio :=
  p.take .gpio42 owner

def takeGpio45 (p : PinPool) (owner : String) : PinPool × Except PinError Gpio :=
  p.take .gpio45 owner

/-- The one of them that a module calls for a line. -/
def takeLine (p : PinPool) (g : Gpio) (owner : String) : PinPool × Except PinError Gpio :=
  match g with
  | .gpio0 => p.takeGpio0 owner
  | .gpio1 => p.takeGpio1 owner
  | .gpio2 => p.takeGpio2 owner
  | .gpio7 => p.takeGpio7 owner
  | .gpio10 => p.takeGpio10 owner
  | .gpio12 => p.takeGpio12 owner
  | .gpio21 => p.takeGpio21 owner
  | .gpio33 => p.takeGpio33 owner
  | .gpio35 => p.takeGpio35 owner
  | .gpio36 => p.takeGpio36 owner
  | .gpio37 => p.takeGpio37 owner
  | .gpio39 => p.takeGpio39 owner
  | .gpio40 => p.takeGpio40 owner
  | .gpio41 => p.takeGpio41 owner
  | .gpio42 => p.takeGpio42 owner
  | .gpio45 => p.takeGpio45 owner

/-- **Each is the same function** of its line. -/
theorem takeLine_eq (p : PinPool) (g : Gpio) (owner : String) :
    p.takeLine g owner = p.take g owner := by
  cases g <;> rfl

end PinPool

/-- What the modules ask of the pool. -/
inductive PinCall
  | take (g : Gpio) (owner : String)
  | release (pin : ℤ)
deriving DecidableEq

/-- A call, of which a take is answered. -/
def PinPool.step (p : PinPool) : PinCall → PinPool
  | .take g owner => (p.takeLine g owner).1
  | .release pin => p.release pin

/-! ## The fate of a line -/

/-- The slot of a line. -/
def Gpio.slot (g : Gpio) : Fin GPIO_COUNT := (Board.slot g.number).getD ⟨0, by decide⟩

theorem slot_number (g : Gpio) : slot g.number = some g.slot := by
  cases g <;> rfl

/-- The line of a number. -/
def Gpio.ofSlot (i : ℕ) : Option Gpio :=
  [.gpio0, .gpio1, .gpio2, .gpio7, .gpio10, .gpio12, .gpio21, .gpio33, .gpio35, .gpio36, .gpio37,
    .gpio39, .gpio40, .gpio41, .gpio42, .gpio45].find? fun g => g.number = i

/-- **No two lines share a slot.** -/
theorem slot_injective : Function.Injective Gpio.slot := by
  have hback : ∀ g : Gpio, Gpio.ofSlot g.slot = some g := by
    intro g
    cases g <;> rfl
  intro g g' h
  have hsome := hback g
  rw [h, hback g'] at hsome
  exact (Option.some.inj hsome).symm

/-- What has become of a line: nobody has taken it, a module has, or had. -/
inductive Fate
  | fresh
  | held (owner : String)
  | gone
deriving DecidableEq

/-- What a call makes of it. -/
def Fate.next (g : Gpio) : Fate → PinCall → Fate
  | .fresh, .take g' owner => if g' = g then .held owner else .fresh
  | .held owner, .release pin => if slot pin = some g.slot then .gone else .held owner
  | fate, _ => fate

/-- How the pool shows it. -/
def PinPool.Shows (p : PinPool) (g : Gpio) : Fate → Prop
  | .fresh => p.registry.owners g.slot = none ∧ p.gpio g = true
  | .held owner => p.registry.owners g.slot = some owner ∧ p.gpio g = false
  | .gone => p.registry.owners g.slot = none ∧ p.gpio g = false

/-- How a take of it is answered. -/
def Fate.answer (g : Gpio) : Fate → Except PinError Gpio
  | .fresh => .ok g
  | .held owner => .error (.alreadyInUse g.number owner)
  | .gone => .error (.notAvailable g.number)

namespace PinPool

variable {p : PinPool} {g : Gpio}

/-- What is shown depends on the owner and the line only. -/
theorem shows_congr {p' : PinPool} (howner : p'.registry.owners g.slot = p.registry.owners g.slot)
    (hgpio : p'.gpio g = p.gpio g) {fate : Fate} (h : p.Shows g fate) : p'.Shows g fate := by
  cases fate <;> exact ⟨howner.trans h.1, hgpio.trans h.2⟩

theorem release_owners (pin : ℤ) : (p.release pin).registry.owners g.slot =
    if slot pin = some g.slot then none else p.registry.owners g.slot := by
  rw [release, PinRegistry.release]
  cases slot pin with
  | none => rw [if_neg (Option.some_ne_none _).symm]
  | some i =>
    by_cases hi : i = g.slot
    · rw [hi, if_pos rfl]
      exact Function.update_self ..
    · rw [if_neg fun h => hi (Option.some.inj h)]
      exact Function.update_of_ne (Ne.symm hi) ..

/-- A line that is free in the registry and in the pool is taken. -/
theorem take_fresh (howner : p.registry.owners g.slot = none) (hgpio : p.gpio g = true)
    (owner : String) : p.take g owner =
      (⟨⟨Function.update p.registry.owners g.slot (some owner)⟩, Function.update p.gpio g false⟩,
        .ok g) := by
  rw [take, PinRegistry.claim, slot_number]
  dsimp only
  rw [howner]
  exact if_pos hgpio

/-- One that has an owner is refused, with his name. -/
theorem take_held {first : String} (howner : p.registry.owners g.slot = some first)
    (owner : String) : p.take g owner = (p, .error (.alreadyInUse g.number first)) := by
  rw [take, PinRegistry.claim, slot_number]
  dsimp only
  rw [howner]

/-- One that is not in the pool is refused, and its number free again. -/
theorem take_gone (howner : p.registry.owners g.slot = none) (hgpio : p.gpio g = false)
    (owner : String) : p.take g owner = (p, .error (.notAvailable g.number)) := by
  rw [take, PinRegistry.claim, slot_number]
  dsimp only
  rw [howner]
  dsimp only
  rw [hgpio, PinRegistry.release, slot_number]
  dsimp only
  rw [Function.update_idem, ← howner, Function.update_eq_self]
  rfl

theorem take_answer {fate : Fate} (h : p.Shows g fate) (owner : String) :
    (p.take g owner).2 = fate.answer g := by
  cases fate with
  | fresh => rw [take_fresh h.1 h.2]; rfl
  | held first => rw [take_held h.1]; rfl
  | gone => rw [take_gone h.1 h.2]; rfl

/-- A take of one line leaves the others. -/
theorem take_other {g' : Gpio} (hne : g' ≠ g) (owner : String) :
    (p.take g' owner).1.registry.owners g.slot = p.registry.owners g.slot ∧
      (p.take g' owner).1.gpio g = p.gpio g := by
  have hslot : g.slot ≠ g'.slot := fun h => hne (slot_injective h).symm
  cases howner : p.registry.owners g'.slot with
  | some first =>
    rw [take_held howner]
    exact ⟨rfl, rfl⟩
  | none =>
    cases hgpio : p.gpio g' with
    | true =>
      rw [take_fresh howner hgpio]
      exact ⟨Function.update_of_ne hslot .., Function.update_of_ne hne.symm ..⟩
    | false =>
      rw [take_gone howner hgpio]
      exact ⟨rfl, rfl⟩

/-- **What one call does** to what is shown of a line. -/
theorem Shows.step {fate : Fate} (h : p.Shows g fate) (c : PinCall) :
    (p.step c).Shows g (fate.next g c) := by
  cases c with
  | take g' owner =>
    by_cases hg : g' = g
    · subst hg
      cases fate with
      | fresh =>
        rw [Fate.next, if_pos rfl, PinPool.step, takeLine_eq, take_fresh h.1 h.2]
        exact ⟨Function.update_self .., Function.update_self ..⟩
      | held first =>
        rw [PinPool.step, takeLine_eq, take_held h.1]
        exact h
      | gone =>
        rw [PinPool.step, takeLine_eq, take_gone h.1 h.2]
        exact h
    · have hnext : fate.next g (.take g' owner) = fate := by
        cases fate with
        | fresh => exact if_neg hg
        | held first => rfl
        | gone => rfl
      rw [hnext]
      rw [PinPool.step, takeLine_eq]
      exact shows_congr (take_other hg owner).1 (take_other hg owner).2 h
  | release pin =>
    have howners := release_owners (p := p) (g := g) pin
    cases fate with
    | fresh => exact ⟨howners.trans (by rw [h.1, ite_self]), h.2⟩
    | gone => exact ⟨howners.trans (by rw [h.1, ite_self]), h.2⟩
    | held first =>
      rw [Fate.next]
      split_ifs at howners ⊢
      · exact ⟨howners, h.2⟩
      · exact ⟨howners.trans h.1, h.2⟩

end PinPool

/-! ## Whole runs -/

/-- The first take of a line: its owner, and the calls behind it. -/
def firstTake (g : Gpio) : List PinCall → Option (String × List PinCall)
  | [] => none
  | .take g' owner :: calls => if g' = g then some (owner, calls) else firstTake g calls
  | .release _ :: calls => firstTake g calls

/-- A call that releases the number of a line. -/
def PinCall.releases (g : Gpio) : PinCall → Bool
  | .take _ _ => false
  | .release pin => slot pin = some g.slot

theorem fate_gone (g : Gpio) (calls : List PinCall) : run (Fate.next g) .gone calls = .gone := by
  induction calls with
  | nil => rfl
  | cons c calls ih => exact ih

theorem fate_held (g : Gpio) (owner : String) (calls : List PinCall) :
    run (Fate.next g) (.held owner) calls =
      if calls.any (PinCall.releases g) then .gone else .held owner := by
  induction calls with
  | nil => rfl
  | cons c calls ih =>
    rw [run_cons, List.any_cons]
    cases c with
    | take g' owner' => exact ih
    | release pin =>
      rw [Fate.next, PinCall.releases]
      split_ifs with hslot hany hany
      · exact fate_gone g calls
      · rw [decide_eq_true hslot, Bool.true_or] at hany
        exact absurd rfl hany
      · rw [decide_eq_false hslot, Bool.false_or] at hany
        rw [ih, if_pos hany]
      · rw [decide_eq_false hslot, Bool.false_or] at hany
        rw [ih, if_neg hany]

/-- The fate of a line is that of its first take. -/
theorem fate_fresh (g : Gpio) (calls : List PinCall) :
    run (Fate.next g) .fresh calls =
      match firstTake g calls with
      | none => .fresh
      | some (owner, later) => if later.any (PinCall.releases g) then .gone else .held owner := by
  induction calls with
  | nil => rfl
  | cons c calls ih =>
    rw [run_cons]
    cases c with
    | take g' owner =>
      rw [Fate.next, firstTake]
      split_ifs with hg
      · exact fate_held g owner calls
      · exact ih
    | release pin => exact ih

theorem shows_run {p : PinPool} {g : Gpio} {fate : Fate} (h : p.Shows g fate)
    (calls : List PinCall) :
    (run PinPool.step p calls).Shows g (run (Fate.next g) fate calls) := by
  induction calls generalizing p fate with
  | nil => exact h
  | cons c calls ih => exact ih (h.step c)

/-- **A line is handed out once.**  Whatever the modules have asked of the pool, a take of a line
is answered with the line if it is the first; with the name of the one who was first, until its
number is released; and from then on it is not available, to any module. -/
theorem take_answered (calls : List PinCall) (g : Gpio) (owner : String) :
    ((run PinPool.step .fromBoardPins calls).takeLine g owner).2 =
      match firstTake g calls with
      | none => .ok g
      | some (first, later) =>
        if later.any (PinCall.releases g) then .error (.notAvailable g.number)
        else .error (.alreadyInUse g.number first) := by
  have hstart : PinPool.fromBoardPins.Shows g .fresh := ⟨rfl, rfl⟩
  rw [PinPool.takeLine_eq, PinPool.take_answer (shows_run hstart calls), fate_fresh]
  cases firstTake g calls with
  | none => rfl
  | some first =>
    dsimp only
    split_ifs <;> rfl

/-- A module that closes and starts again gets nothing. -/
example : ((run PinPool.step .fromBoardPins [.take .gpio12 "pps", .release 12]).takeGpio12
    "pps").2 = .error (.notAvailable 12) := by
  decide

end GpsNtp.Board
