import Mathlib.Data.List.Basic
import Mathlib.Algebra.Order.Ring.Nat
import Mathlib.Tactic.Ring

/-!
# Machinery/Bytes — big-endian fields of a byte string

A network packet is a byte string cut at fixed offsets.  `toBe n v` is the `n`-byte big-endian
image of `v` and `ofBe` reads one back; `field off len` cuts the `len` bytes at `off`.  A packet
built by concatenation is read by peeling its head off field by field (`field_append_of_le`,
`field_append_self`).
-/

namespace Bytes

/-! ## Big-endian integers -/

/-- The `n`-byte big-endian image of `v`, whatever of `v` does not fit dropped. -/
def toBe : ℕ → ℕ → List UInt8
  | 0, _ => []
  | n + 1, v => UInt8.ofNat (v / 256 ^ n) :: toBe n v

/-- The integer a byte string spells, most significant byte first. -/
def ofBe (bs : List UInt8) : ℕ := bs.foldl (fun acc b => acc * 256 + b.toNat) 0

@[simp] theorem length_toBe (n v : ℕ) : (toBe n v).length = n := by
  induction n with
  | zero => rfl
  | succ n ih => rw [toBe, List.length_cons, ih]

/-- Reading from a running value shifts it past the bytes read. -/
theorem foldl_ofBe (acc : ℕ) (bs : List UInt8) :
    bs.foldl (fun acc b => acc * 256 + b.toNat) acc = acc * 256 ^ bs.length + ofBe bs := by
  induction bs generalizing acc with
  | nil => simp [ofBe]
  | cons b bs ih =>
    rw [ofBe, List.foldl_cons, List.foldl_cons, ih, ih (0 * 256 + b.toNat), List.length_cons]
    ring

theorem ofBe_cons (b : UInt8) (bs : List UInt8) :
    ofBe (b :: bs) = b.toNat * 256 ^ bs.length + ofBe bs := by
  rw [ofBe, List.foldl_cons, foldl_ofBe]
  ring

/-- **Decoding inverts encoding**, up to the bits the width drops. -/
theorem ofBe_toBe (n v : ℕ) : ofBe (toBe n v) = v % 256 ^ n := by
  induction n with
  | zero => simp [toBe, ofBe, Nat.mod_one]
  | succ n ih =>
    have hdigit : (UInt8.ofNat (v / 256 ^ n)).toNat = v / 256 ^ n % 256 := UInt8.toNat_ofNat'
    rw [toBe, ofBe_cons, length_toBe, ih, hdigit, @Nat.mod_pow_succ _ 256]
    exact (Nat.add_comm _ _).trans (congrArg _ (Nat.mul_comm _ _))

theorem ofBe_lt (bs : List UInt8) : ofBe bs < 256 ^ bs.length := by
  induction bs with
  | nil => exact Nat.zero_lt_one
  | cons b bs ih =>
    rw [ofBe_cons, List.length_cons, pow_succ']
    have hb : b.toNat + 1 ≤ 256 := b.toNat_lt
    have hmul := Nat.mul_le_mul_right (256 ^ bs.length) hb
    rw [Nat.add_mul, one_mul] at hmul
    omega

/-- What lies past the width does not show. -/
theorem toBe_add_mul (n v k : ℕ) : toBe n (v + k * 256 ^ n) = toBe n v := by
  induction n generalizing k with
  | zero => rfl
  | succ n ih =>
    have hsplit : v + k * 256 ^ (n + 1) = v + (k * 256) * 256 ^ n := by ring
    have hpos : 0 < 256 ^ n := Nat.pow_pos (by decide)
    rw [toBe, toBe, hsplit, ih, Nat.add_mul_div_right _ _ hpos]
    refine congrArg (· :: _) (UInt8.toNat_inj.mp ?_)
    rw [UInt8.toNat_ofNat', UInt8.toNat_ofNat']
    exact Nat.add_mul_mod_self_right _ _ _

/-- **Encoding inverts decoding.** -/
theorem toBe_ofBe (bs : List UInt8) : toBe bs.length (ofBe bs) = bs := by
  induction bs with
  | nil => rfl
  | cons b bs ih =>
    have hpos : 0 < 256 ^ bs.length := Nat.pow_pos (by decide)
    rw [List.length_cons, toBe, ofBe_cons, Nat.add_comm, toBe_add_mul, ih,
      Nat.add_mul_div_right _ _ hpos, Nat.div_eq_of_lt (ofBe_lt bs), Nat.zero_add,
      UInt8.ofNat_toNat]

/-! ## Fields -/

/-- The `len` bytes of `bs` at offset `off`. -/
def field (off len : ℕ) (bs : List UInt8) : List UInt8 := (bs.drop off).take len

/-- A field past the head of a concatenation is a field of the rest. -/
theorem field_append_of_le {a b : List UInt8} {off len : ℕ} (h : a.length ≤ off) :
    field off len (a ++ b) = field (off - a.length) len b := by
  rw [field, List.drop_append, List.drop_eq_nil_of_le h, List.nil_append, field]

/-- **The head of a concatenation is the field it was written as.** -/
theorem field_append_self {a b : List UInt8} {len : ℕ} (h : a.length = len) :
    field 0 len (a ++ b) = a := by
  subst h
  rw [field, List.drop_zero, List.take_left]

theorem length_field {off len : ℕ} {bs : List UInt8} (h : off + len ≤ bs.length) :
    (field off len bs).length = len := by
  rw [field, List.length_take, List.length_drop]
  omega

/-- Behind the bytes of `a` those of `b` count less. -/
theorem ofBe_append (a b : List UInt8) : ofBe (a ++ b) = ofBe a * 256 ^ b.length + ofBe b := by
  rw [ofBe, List.foldl_append, foldl_ofBe]
  rfl

/-- A field of eight bytes, by its halves. -/
theorem ofBe_field_halves {off : ℕ} {bs : List UInt8} (h : off + 8 ≤ bs.length) :
    ofBe (field off 8 bs) = ofBe (field off 4 bs) * 2 ^ 32 + ofBe (field (off + 4) 4 bs) := by
  have hlower : (field (off + 4) 4 bs).length = 4 := length_field (by omega)
  have hsplit : field off 8 bs = field off 4 bs ++ field (off + 4) 4 bs := by
    rw [field, field, field, ← List.drop_drop, ← List.take_add]
  rw [hsplit, ofBe_append, hlower]
  rfl

end Bytes
