/-
  The operators of JavaScript on 32 bits.

  The operands are whole numbers, of which the lowest 32 bits count.  The results are
  signed, but for that of `>>>`.
-/
import Mathlib.Data.Int.Notation
import Mathlib.Data.Nat.Notation

namespace Js

/-- `ToInt32`. -/
def toBits (x : ℤ) : BitVec 32 := BitVec.ofInt 32 x

/-- `x & y`. -/
def bitAnd (x y : ℤ) : ℤ := (toBits x &&& toBits y).toInt

/-- `x | y`. -/
def bitOr (x y : ℤ) : ℤ := (toBits x ||| toBits y).toInt

/-- `x ^ y`. -/
def bitXor (x y : ℤ) : ℤ := (toBits x ^^^ toBits y).toInt

/-- `x << k` -/
def shiftLeft (x : ℤ) (k : ℕ) : ℤ := (toBits x <<< (k % 32)).toInt

/-- `x >>> k` -/
def shiftRight (x : ℤ) (k : ℕ) : ℤ := (toBits x >>> (k % 32)).toNat

@[simp] theorem toBits_toInt (x : BitVec 32) : toBits x.toInt = x := BitVec.ofInt_toInt

@[simp] theorem toBits_toNat (x : BitVec 32) : toBits (x.toNat : ℤ) = x := by
  simp [toBits]

@[simp] theorem toBits_bitXor (x y : ℤ) : toBits (bitXor x y) = toBits x ^^^ toBits y :=
  toBits_toInt _

@[simp] theorem toBits_shiftRight (x : ℤ) (k : ℕ) :
    toBits (shiftRight x k) = toBits x >>> (k % 32) := toBits_toNat _

/-- A mask without the sign bit has the same value either way. -/
theorem bitAnd_eq_toNat (x : ℤ) {m : ℕ} (hm : m < 0x80000000) :
    bitAnd x m = (toBits x &&& BitVec.ofNat 32 m).toNat := by
  have hle : (toBits x &&& BitVec.ofNat 32 m).toNat ≤ m := by
    rw [BitVec.toNat_and, BitVec.toNat_ofNat]
    exact Nat.le_trans Nat.and_le_right (Nat.mod_le _ _)
  have hmask : toBits m = BitVec.ofNat 32 m := BitVec.ofInt_natCast 32 m
  rw [bitAnd, hmask]
  exact BitVec.toInt_eq_toNat_of_lt (by omega)

end Js
