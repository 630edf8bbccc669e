import Mathlib.Data.UInt
import Mathlib.Algebra.Group.Nat.Defs

/-!
# Machinery/Bcd — packed decimal bytes

    0x59 = │ 5 │ 9 │ = 59         0x4F = │ 4 │ F │ = 55, as 0x55 is

Two decimal digits in the two nibbles of a byte.  A reader that adds up the nibbles without looking
at them inverts the writer, and the writer inverts it exactly on the bytes whose nibbles are digits.
-/

namespace Bcd

/-- The number in a byte, each nibble taken for a digit. -/
def unpack (byte : ℕ) : ℕ := byte % 16 + byte / 16 * 10

/-- The byte of a number, a digit in each nibble. -/
def pack (value : ℕ) : ℕ := value / 10 * 16 + value % 10

/-- Both nibbles of a byte are digits. -/
def IsPacked (byte : UInt8) : Prop := byte.toNat % 16 < 10 ∧ byte.toNat / 16 < 10

instance (byte : UInt8) : Decidable (IsPacked byte) := inferInstanceAs (Decidable (_ ∧ _))

theorem unpack_pack (value : ℕ) : unpack (pack value) = value := by
  rw [unpack, pack]
  omega

/-- Tens count sixteen each. -/
theorem pack_lt {value : ℕ} (tens : ℕ) (h : value < tens * 10) : pack value < tens * 16 := by
  rw [pack]
  omega

theorem pack_le_pack {value value' : ℕ} (h : value ≤ value') : pack value ≤ pack value' := by
  rw [pack, pack]
  omega

/-- **Writing back what was read** gives the byte again exactly if its nibbles are digits, where a
writer has no more than two digits. -/
theorem ofNat_pack_unpack_iff (byte : UInt8) :
    UInt8.ofNat (pack (min (unpack byte.toNat) 99)) = byte ↔ IsPacked byte := by
  have hbyte : byte.toNat < 256 := byte.toNat_lt
  have hpack := pack_le_pack (min_le_right (unpack byte.toNat) 99)
  have hmod : pack (min (unpack byte.toNat) 99) % 256 = pack (min (unpack byte.toNat) 99) :=
    Nat.mod_eq_of_lt (hpack.trans_lt (by decide))
  rw [← UInt8.toNat_inj, UInt8.toNat_ofNat', hmod, IsPacked, pack, unpack]
  omega

end Bcd
