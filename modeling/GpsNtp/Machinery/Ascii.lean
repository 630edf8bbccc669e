import Mathlib.Algebra.Group.Nat.Defs
import Mathlib.Data.Int.Notation
import Mathlib.Data.List.Basic

/-!
# Machinery/Ascii — numbers in text

    "+2F"  ──fromStrRadix 16──▶  47
    "2F+"  ──fromStrRadix 16──▶  none

`from_str_radix` of the integers, on the bytes of the text: digits of the radix in either case, one
leading `+` allowed, a leading `-` where the type is signed, nothing else, and a value the type
holds.
-/

namespace Ascii

/-- `char::to_digit`. -/
def toDigit (radix : ℕ) (b : UInt8) : Option ℕ :=
  let digit :=
    if 0x30 ≤ b ∧ b ≤ 0x39 then some (b.toNat - 0x30)
    else if 0x61 ≤ b ∧ b ≤ 0x7A then some (b.toNat - 0x61 + 10)
    else if 0x41 ≤ b ∧ b ≤ 0x5A then some (b.toNat - 0x41 + 10)
    else none
  digit.filter (· < radix)

/-- The digits after a value, `none` at one that is no digit or takes the value past `max`. -/
def parseDigits (radix max : ℕ) : ℕ → List UInt8 → Option ℕ
  | value, [] => some value
  | value, b :: bs =>
    match toDigit radix b with
    | some d =>
      if value * radix + d ≤ max then parseDigits radix max (value * radix + d) bs else none
    | none => none

/-- `from_str_radix` of an unsigned type whose greatest value is `max`. -/
def fromStrRadix (radix max : ℕ) (src : List UInt8) : Option ℕ :=
  match src with
  | [] => none
  | [0x2B] => none
  | 0x2B :: digits => parseDigits radix max 0 digits
  | digits => parseDigits radix max 0 digits

/-- `from_str_radix` of a signed type with these bounds. -/
def fromStrRadixSigned (radix : ℕ) (min max : ℤ) (src : List UInt8) : Option ℤ :=
  match src with
  | 0x2D :: b :: digits =>
    (parseDigits radix (-min).toNat 0 (b :: digits)).map fun v => -(v : ℤ)
  | src => (fromStrRadix radix max.toNat src).map fun v => (v : ℤ)

/-- `u8::to_ascii_lowercase`. -/
def toAsciiLowercase (b : UInt8) : UInt8 := if 0x41 ≤ b ∧ b ≤ 0x5A then b + 0x20 else b

/-! ## What is a number -/

/-- The number that digits spell, behind the digits of `value`. -/
def valueFrom (radix value : ℕ) (digits : List UInt8) : ℕ :=
  digits.foldl (fun n b => n * radix + (toDigit radix b).getD 0) value

/-- A text without its leading `+`. -/
def unsign : List UInt8 → List UInt8
  | 0x2B :: digits => digits
  | digits => digits

/-- A text that does not start with the sign has none to drop. -/
theorem unsign_of_head?_ne {src : List UInt8} (h : src.head? ≠ some 0x2B) : unsign src = src := by
  rw [unsign.eq_def]
  split
  · exact absurd rfl h
  · rfl

theorem length_unsign_le (src : List UInt8) : (unsign src).length ≤ src.length := by
  rw [unsign.eq_def]
  split
  · exact Nat.le_succ _
  · exact Nat.le_refl _

/-- **The digits read**: each is one of the radix, and the number they spell is in range. -/
structure Spells (radix max : ℕ) (digits : List UInt8) (v : ℕ) : Prop where
  wellFormed : digits ≠ [] ∧ ∀ b ∈ digits, (toDigit radix b).isSome
  value : valueFrom radix 0 digits = v
  range : v ≤ max

theorem le_valueFrom {radix value : ℕ} (hradix : 0 < radix) (digits : List UInt8) :
    value ≤ valueFrom radix value digits := by
  induction digits generalizing value with
  | nil => exact Nat.le_refl _
  | cons b digits ih =>
    calc value ≤ value * radix := Nat.le_mul_of_pos_right value hradix
      _ ≤ value * radix + (toDigit radix b).getD 0 := Nat.le_add_right _ _
      _ ≤ valueFrom radix value (b :: digits) := ih

/-- No prefix of a number in range is out of range. -/
theorem parseDigits_eq_some_iff {radix max value v : ℕ} (hradix : 0 < radix)
    (hvalue : value ≤ max) {digits : List UInt8} :
    parseDigits radix max value digits = some v ↔
      (∀ b ∈ digits, (toDigit radix b).isSome) ∧ valueFrom radix value digits = v ∧ v ≤ max := by
  induction digits generalizing value with
  | nil =>
    rw [parseDigits, Option.some.injEq]
    exact ⟨fun h => ⟨nofun, h, h ▸ hvalue⟩, fun h => h.2.1⟩
  | cons b digits ih =>
    rw [parseDigits, List.forall_mem_cons, valueFrom, List.foldl_cons, ← valueFrom]
    cases hb : toDigit radix b with
    | none => exact iff_of_false nofun fun h => Bool.false_ne_true h.1.1
    | some d =>
      rw [Option.getD_some]
      dsimp only
      split_ifs with hle
      · rw [ih hle, Option.isSome_some, eq_self_iff_true, true_and]
      · refine iff_of_false nofun fun ⟨_, hv, hmax⟩ => hle ?_
        exact Nat.le_trans (le_valueFrom hradix digits) (hv ▸ hmax)

theorem parseDigits_zero_eq_some_iff {radix max v : ℕ} (hradix : 0 < radix) {digits : List UInt8}
    (hne : digits ≠ []) : parseDigits radix max 0 digits = some v ↔ Spells radix max digits v := by
  rw [parseDigits_eq_some_iff hradix (Nat.zero_le max)]
  exact ⟨fun h => ⟨⟨hne, h.1⟩, h.2.1, h.2.2⟩, fun h => ⟨h.wellFormed.2, h.value, h.range⟩⟩

/-- **What `from_str_radix` takes for a number**: digits, behind one `+` or none. -/
theorem fromStrRadix_eq_some_iff {radix max v : ℕ} (hradix : 0 < radix) {src : List UInt8} :
    fromStrRadix radix max src = some v ↔ Spells radix max (unsign src) v := by
  rw [fromStrRadix.eq_def]
  split
  · exact iff_of_false nofun fun h => h.wellFormed.1 rfl
  · exact iff_of_false nofun fun h => h.wellFormed.1 rfl
  · rename_i digits hne
    exact parseDigits_zero_eq_some_iff hradix fun hnil => hne (by rw [hnil])
  · rename_i hnil hplus hsigned
    rw [unsign_of_head?_ne fun hhead => ?_]
    · exact parseDigits_zero_eq_some_iff hradix hnil
    · obtain ⟨digits, rfl⟩ := List.head?_eq_some_iff.mp hhead
      exact hsigned digits rfl

/-! ## Decimals -/

/-- **A decimal**: one or more of `0`, …, `9` and nothing else. -/
structure IsDecimal (digits : List UInt8) (v : ℕ) : Prop where
  ne_nil : digits ≠ []
  digit : ∀ b ∈ digits, 0x30 ≤ b ∧ b ≤ 0x39
  value : digits.foldl (fun n b => n * 10 + (b.toNat - 0x30)) 0 = v

theorem toDigit_ten (b : UInt8) :
    toDigit 10 b = if 0x30 ≤ b ∧ b ≤ 0x39 then some (b.toNat - 0x30) else none := by
  rw [toDigit]
  split_ifs with h₀ h₁ h₂
  · have hle : b.toNat ≤ 57 := UInt8.le_iff_toNat_le.mp h₀.2
    exact Option.filter_some_pos (decide_eq_true (by omega))
  · exact Option.filter_some_neg (decide_eq_false (by omega))
  · exact Option.filter_some_neg (decide_eq_false (by omega))
  · rfl

theorem isSome_toDigit_ten {b : UInt8} : (toDigit 10 b).isSome ↔ 0x30 ≤ b ∧ b ≤ 0x39 := by
  rw [toDigit_ten]
  split_ifs with h
  · exact iff_of_true rfl h
  · exact iff_of_false Bool.false_ne_true h

theorem valueFrom_ten {value : ℕ} {digits : List UInt8} (h : ∀ b ∈ digits, 0x30 ≤ b ∧ b ≤ 0x39) :
    valueFrom 10 value digits = digits.foldl (fun n b => n * 10 + (b.toNat - 0x30)) value := by
  rw [valueFrom]
  refine List.foldl_ext _ _ _ fun n b hb => ?_
  rw [toDigit_ten, if_pos (h b hb), Option.getD_some]

theorem spells_ten {max v : ℕ} {digits : List UInt8} :
    Spells 10 max digits v ↔ IsDecimal digits v ∧ v ≤ max := by
  constructor
  · rintro ⟨⟨hne, hdigits⟩, hvalue, hle⟩
    have hdecimal := fun b hb => isSome_toDigit_ten.mp (hdigits b hb)
    exact ⟨⟨hne, hdecimal, (valueFrom_ten hdecimal).symm.trans hvalue⟩, hle⟩
  · rintro ⟨h, hle⟩
    exact ⟨⟨h.ne_nil, fun b hb => isSome_toDigit_ten.mpr (h.digit b hb)⟩,
      (valueFrom_ten h.digit).trans h.value, hle⟩

/-- **What an unsigned integer type reads in decimal.** -/
theorem fromStrRadix_ten_eq_some_iff {max v : ℕ} {src : List UInt8} :
    fromStrRadix 10 max src = some v ↔ IsDecimal (unsign src) v ∧ v ≤ max :=
  (fromStrRadix_eq_some_iff (by decide)).trans spells_ten

theorem IsDecimal.unsign_eq {digits : List UInt8} {v : ℕ} (h : IsDecimal digits v) :
    unsign digits = digits := by
  refine unsign_of_head?_ne fun hhead => ?_
  exact absurd (h.digit _ (List.mem_of_mem_head? hhead)).1 (by decide)

/-- A decimal is less than the first with more digits. -/
theorem IsDecimal.lt_pow {digits : List UInt8} {v : ℕ} (h : IsDecimal digits v) :
    v < 10 ^ digits.length := by
  have hfold : ∀ (bs : List UInt8) (n : ℕ), (∀ b ∈ bs, 0x30 ≤ b ∧ b ≤ 0x39) →
      bs.foldl (fun n b => n * 10 + (b.toNat - 0x30)) n < (n + 1) * 10 ^ bs.length := by
    intro bs
    induction bs with
    | nil => exact fun n _ => by rw [List.foldl_nil, List.length_nil]; omega
    | cons b bs ih =>
      intro n hbs
      have hb : b.toNat ≤ 57 := UInt8.le_iff_toNat_le.mp (hbs b List.mem_cons_self).2
      have hrest := ih (n * 10 + (b.toNat - 0x30)) fun b' hb' => hbs b' (List.mem_cons_of_mem b hb')
      have hplace : (n * 10 + (b.toNat - 0x30) + 1) * 10 ^ bs.length ≤
          (n + 1) * 10 * 10 ^ bs.length := Nat.mul_le_mul_right _ (by omega)
      have hpow : (n + 1) * 10 * 10 ^ bs.length = (n + 1) * 10 ^ (b :: bs).length := by
        rw [List.length_cons, Nat.pow_succ, Nat.mul_assoc, Nat.mul_comm 10]
      exact hpow ▸ Nat.lt_of_lt_of_le hrest hplace
  have hlt := hfold digits 0 h.digit
  rwa [h.value, Nat.zero_add, Nat.one_mul] at hlt

/-- **What a signed integer type reads in decimal.** -/
theorem fromStrRadixSigned_ten_eq_some_iff {min max v : ℤ} {src : List UInt8} :
    fromStrRadixSigned 10 min max src = some v ↔
      (∃ n : ℕ, IsDecimal (unsign src) n ∧ n ≤ max.toNat ∧ v = n) ∨
        ∃ (digits : List UInt8) (n : ℕ), src = 0x2D :: digits ∧ IsDecimal digits n ∧
          n ≤ (-min).toNat ∧ v = -n := by
  rw [fromStrRadixSigned.eq_def]
  split
  · rename_i b digits
    simp only [Option.map_eq_some_iff, Option.bind_eq_bind, Option.bind_eq_some_iff,
      Option.pure_def, Option.some.injEq]
    constructor
    · rintro ⟨-, ⟨n, hn, rfl⟩, rfl⟩
      obtain ⟨hdecimal, hle⟩ := spells_ten.mp
        ((parseDigits_zero_eq_some_iff (by decide) (List.cons_ne_nil b digits)).mp hn)
      exact .inr ⟨_, n, rfl, hdecimal, hle, rfl⟩
    · rintro (⟨n, hdecimal, -⟩ | ⟨digits', n, heq, hdecimal, hle, rfl⟩)
      · exact absurd (hdecimal.digit 0x2D List.mem_cons_self).1 (by decide)
      · obtain rfl := (List.cons.inj heq).2
        exact ⟨n, ⟨n, (parseDigits_zero_eq_some_iff (by decide) hdecimal.ne_nil).mpr
          (spells_ten.mpr ⟨hdecimal, hle⟩), rfl⟩, rfl⟩
  · rename_i hminus
    simp only [Option.map_eq_some_iff, Option.bind_eq_bind, Option.bind_eq_some_iff,
      Option.pure_def, Option.some.injEq]
    constructor
    · rintro ⟨-, ⟨n, hn, rfl⟩, rfl⟩
      obtain ⟨hdecimal, hle⟩ := fromStrRadix_ten_eq_some_iff.mp hn
      exact .inl ⟨n, hdecimal, hle, rfl⟩
    · rintro (⟨n, hdecimal, hle, rfl⟩ | ⟨digits, n, rfl, hdecimal, -⟩)
      · exact ⟨n, ⟨n, fromStrRadix_ten_eq_some_iff.mpr ⟨hdecimal, hle⟩, rfl⟩, rfl⟩
      · obtain ⟨b, digits, rfl⟩ := List.exists_cons_of_ne_nil hdecimal.ne_nil
        exact absurd rfl (hminus b digits)

/-! ## Two characters -/

theorem toDigit_lt {radix d : ℕ} {b : UInt8} (h : toDigit radix b = some d) : d < radix := by
  rw [toDigit] at h
  exact of_decide_eq_true (Option.filter_eq_some_iff.mp h).2

theorem spells_one {radix max v : ℕ} {l : UInt8} :
    Spells radix max [l] v ↔ toDigit radix l = some v ∧ v ≤ max := by
  constructor
  · rintro ⟨⟨-, hdigit⟩, hvalue, hle⟩
    obtain ⟨x, hx⟩ := Option.isSome_iff_exists.mp (hdigit l List.mem_cons_self)
    rw [valueFrom, List.foldl_cons, List.foldl_nil, hx, Option.getD_some, Nat.zero_mul,
      Nat.zero_add] at hvalue
    exact ⟨hvalue ▸ hx, hle⟩
  · rintro ⟨hv, hle⟩
    refine ⟨⟨List.cons_ne_nil _ _, ?_⟩, ?_, hle⟩
    · rw [List.forall_mem_singleton, hv]
      rfl
    · rw [valueFrom, List.foldl_cons, List.foldl_nil, hv, Option.getD_some, Nat.zero_mul,
        Nat.zero_add]

theorem spells_two {radix max v : ℕ} {h l : UInt8} :
    Spells radix max [h, l] v ↔ (∃ x y, toDigit radix h = some x ∧ toDigit radix l = some y ∧
      x * radix + y = v) ∧ v ≤ max := by
  constructor
  · rintro ⟨⟨-, hdigit⟩, hvalue, hle⟩
    rw [List.forall_mem_cons, List.forall_mem_singleton] at hdigit
    obtain ⟨hh, hl⟩ := hdigit
    obtain ⟨x, hx⟩ := Option.isSome_iff_exists.mp hh
    obtain ⟨y, hy⟩ := Option.isSome_iff_exists.mp hl
    rw [valueFrom, List.foldl_cons, List.foldl_cons, List.foldl_nil, hx, hy, Option.getD_some,
      Option.getD_some, Nat.zero_mul, Nat.zero_add] at hvalue
    exact ⟨⟨x, y, hx, hy, hvalue⟩, hle⟩
  · rintro ⟨⟨x, y, hx, hy, hv⟩, hle⟩
    refine ⟨⟨List.cons_ne_nil _ _, ?_⟩, ?_, hle⟩
    · rw [List.forall_mem_cons, List.forall_mem_singleton, hx, hy]
      exact ⟨rfl, rfl⟩
    · rw [valueFrom, List.foldl_cons, List.foldl_cons, List.foldl_nil, hx, hy, Option.getD_some,
        Option.getD_some, Nat.zero_mul, Nat.zero_add, hv]

theorem lt_of_isSome_toDigit {radix : ℕ} {b : UInt8} (h : (toDigit radix b).isSome) :
    b < 0x80 := by
  obtain ⟨d, hd⟩ := Option.isSome_iff_exists.mp h
  rw [toDigit] at hd
  have hrange := (Option.filter_eq_some_iff.mp hd).1
  split_ifs at hrange with hdigit hlower hupper
  · exact UInt8.lt_of_le_of_lt hdigit.2 (by decide)
  · exact UInt8.lt_of_le_of_lt hlower.2 (by decide)
  · exact UInt8.lt_of_le_of_lt hupper.2 (by decide)

/-- **What two characters spell**: two digits, or one behind the sign. -/
theorem fromStrRadix_pair_eq_some_iff {radix max v : ℕ} (hradix : 0 < radix)
    (hmax : radix * radix ≤ max + 1) {h l : UInt8} : fromStrRadix radix max [h, l] = some v ↔
      (∃ x y, toDigit radix h = some x ∧ toDigit radix l = some y ∧ x * radix + y = v) ∨
        h = 0x2B ∧ toDigit radix l = some v := by
  rw [fromStrRadix_eq_some_iff hradix]
  by_cases hplus : h = 0x2B
  · subst hplus
    have hunsign : unsign [0x2B, l] = [l] := rfl
    have hle : toDigit radix l = some v → v ≤ max := fun hl => by
      have hlt := toDigit_lt hl
      have hsquare : radix ≤ radix * radix := Nat.le_mul_of_pos_right radix hradix
      omega
    rw [hunsign, spells_one]
    constructor
    · exact fun hv => .inr ⟨rfl, hv.1⟩
    · rintro (⟨x, -, hx, -⟩ | ⟨-, hv⟩)
      · exact absurd hx nofun
      · exact ⟨hv, hle hv⟩
  · have hunsign : unsign [h, l] = [h, l] :=
      unsign_of_head?_ne fun hhead => hplus (Option.some.inj hhead)
    rw [hunsign, spells_two]
    constructor
    · exact fun hv => .inl hv.1
    · rintro (⟨x, y, hx, hy, hv⟩ | ⟨hsign, -⟩)
      · refine ⟨⟨x, y, hx, hy, hv⟩, ?_⟩
        have hstep : (x + 1) * radix ≤ radix * radix := Nat.mul_le_mul_right radix (toDigit_lt hx)
        have hlt := toDigit_lt hy
        rw [Nat.succ_mul] at hstep
        omega
      · exact absurd hsign hplus

/-- A hexadecimal digit. -/
def hexDigit (b : UInt8) : Option ℕ :=
  if 0x30 ≤ b ∧ b ≤ 0x39 then some (b.toNat - 0x30)
  else if 0x41 ≤ b ∧ b ≤ 0x46 then some (b.toNat - 0x41 + 10)
  else if 0x61 ≤ b ∧ b ≤ 0x66 then some (b.toNat - 0x61 + 10)
  else none

theorem toDigit_sixteen (b : UInt8) : toDigit 16 b = hexDigit b := by
  grind [toDigit, hexDigit, UInt8.le_iff_toNat_le, Option.filter]

/-- An upper case hexadecimal digit. -/
def upperHexDigit (d : ℕ) : UInt8 := UInt8.ofNat (if d < 10 then 0x30 + d else 0x41 + (d - 10))

/-- `{:02X}` of a byte. -/
def upperHex (b : UInt8) : List UInt8 :=
  [upperHexDigit (b.toNat / 16), upperHexDigit (b.toNat % 16)]

theorem toDigit_upperHexDigit {d : ℕ} (h : d < 16) : toDigit 16 (upperHexDigit d) = some d := by
  decide +revert

theorem isSome_toDigit_of_mem_upperHex {b c : UInt8} (h : c ∈ upperHex b) :
    (toDigit 16 c).isSome := by
  have hb := b.toNat_lt
  rcases List.mem_pair.mp h with rfl | rfl
  · rw [toDigit_upperHexDigit (by omega)]
    rfl
  · rw [toDigit_upperHexDigit (by omega)]
    rfl

/-- The digits of a byte spell it. -/
theorem fromStrRadix_upperHex (b : UInt8) : fromStrRadix 16 255 (upperHex b) = some b.toNat := by
  have hb := b.toNat_lt
  refine (fromStrRadix_pair_eq_some_iff (by decide) (by decide)).mpr (.inl ⟨_, _,
    toDigit_upperHexDigit (by omega), toDigit_upperHexDigit (by omega), ?_⟩)
  omega

/-! ## What a number consists of -/

theorem isSome_toDigit_of_parseDigits {radix max value v : ℕ} {bs : List UInt8}
    (h : parseDigits radix max value bs = some v) : ∀ b ∈ bs, (toDigit radix b).isSome := by
  induction bs generalizing value with
  | nil => exact nofun
  | cons b bs ih =>
    rw [parseDigits] at h
    split at h
    · rename_i d hd
      split_ifs at h with hle
      rintro b' (_ | ⟨_, hb'⟩)
      · rw [hd]
        rfl
      · exact ih h b' hb'
    · exact absurd h nofun

/-- **The bytes of a number**: digits, or the sign. -/
theorem mem_of_fromStrRadix {radix max v : ℕ} {src : List UInt8}
    (h : fromStrRadix radix max src = some v) :
    ∀ b ∈ src, b = 0x2B ∨ (toDigit radix b).isSome := by
  rw [fromStrRadix.eq_def] at h
  split at h
  · exact absurd h nofun
  · exact absurd h nofun
  · rintro b (_ | ⟨_, hb⟩)
    · exact .inl rfl
    · exact .inr (isSome_toDigit_of_parseDigits h b hb)
  · exact fun b hb => .inr (isSome_toDigit_of_parseDigits h b hb)

end Ascii
