/-
  The check sums of a package.

  * `crc32` is the function of `ntx.mjs`, over the table that it computes when it is
    loaded;
  * `crc32_eq`: it is the register of `Crc` fed with the bits of the bytes.
-/
import NexTalkRelay.Js.Int32
import NexTalkRelay.Js.Text
import NexTalkRelay.Lib.Crc

open Js

namespace Package

/-! ## `crcTable` and `crc32` -/

/-- One turn of the loop over `k`. -/
def tableTurn (c : ℤ) : ℤ :=
  if bitAnd c 1 = 0 then shiftRight c 1 else bitXor 0xedb88320 (shiftRight c 1)

/-- `crcTable`. -/
def crcTable : List ℤ := (List.range 256).map fun n : ℕ => shiftRight (tableTurn^[8] n) 0

/-- The loop over the bytes from the register `c` on. -/
def crcLoop (c : ℤ) (b : Bytes) : ℤ :=
  b.foldl (fun c x => bitXor (crcTable.getD (bitAnd (bitXor c x.toNat) 255).toNat 0)
    (shiftRight c 8)) c

/-- `crc32`. -/
def crc32 (b : Bytes) : ℤ := shiftRight (bitXor (crcLoop 0xffffffff b) 0xffffffff) 0

/-! ## CRC-32 -/

/-- The polynomial with the bits reflected. -/
def polynomial : BitVec 32 := 0xEDB88320#32

/-- The bits of a byte, the lowest first. -/
def byteBits (b : UInt8) : List Bool := (List.range 8).map b.toNat.testBit

/-- The reflected CRC-32, computed one bit at a time. -/
def crcBitwise (b : Bytes) : BitVec 32 :=
  Crc.feed polynomial (BitVec.allOnes 32) (b.flatMap byteBits) ^^^ BitVec.allOnes 32

theorem toBits_tableTurn (c : ℤ) : toBits (tableTurn c) = Crc.step polynomial (toBits c) := by
  have hbit : bitAnd c 1 = 0 ↔ (toBits c).getLsbD 0 = false := by
    have heq := bitAnd_eq_toNat c (m := 1) (by decide)
    rw [BitVec.toNat_and] at heq
    change bitAnd c 1 = _ at heq
    rw [heq, BitVec.getLsbD, Nat.testBit_zero, show (1#32).toNat = 1 from rfl, Nat.and_one_is_mod,
      decide_eq_false_iff_not]
    omega
  unfold tableTurn Crc.step
  by_cases hzero : bitAnd c 1 = 0
  · rw [if_pos hzero, hbit.1 hzero]
    simp
  · have hone : (toBits c).getLsbD 0 = true := by
      rwa [hbit, Bool.not_eq_false] at hzero
    rw [if_neg hzero, hone, if_pos rfl, toBits_bitXor, toBits_shiftRight]
    rfl

theorem toBits_tableTurns (k : ℕ) (c : ℤ) :
    toBits (tableTurn^[k] c) = (Crc.step polynomial)^[k] (toBits c) := by
  induction k generalizing c with
  | zero => rfl
  | succ k ih =>
    rw [Function.iterate_succ_apply, Function.iterate_succ_apply, ih, toBits_tableTurn]

/-- An entry of the table has the eight steps of its index. -/
theorem toBits_crcTable {n : ℕ} (hn : n < 256) :
    toBits (crcTable.getD n 0) = (Crc.step polynomial)^[8] (BitVec.ofNat 32 n) := by
  have hget : crcTable.getD n 0 = shiftRight (tableTurn^[8] n) 0 := by
    rw [crcTable, List.getD_eq_getElem?_getD, List.getElem?_map, List.getElem?_range hn]
    rfl
  rw [hget, toBits_shiftRight, toBits_tableTurns]
  simp [toBits]

/-- One byte. -/
theorem toBits_crcStep (c : ℤ) (x : UInt8) :
    toBits (bitXor (crcTable.getD (bitAnd (bitXor c x.toNat) 255).toNat 0) (shiftRight c 8)) =
      Crc.feed polynomial (toBits c) (byteBits x) := by
  have hx : toBits (x.toNat : ℤ) >>> 8 = 0#32 := by
    have := x.toNat_lt
    refine BitVec.eq_of_toNat_eq ?_
    simp only [toBits, BitVec.ofInt_natCast, BitVec.toNat_ushiftRight, BitVec.toNat_ofNat,
      Nat.shiftRight_eq_div_pow]
    omega
  have hbits : byteBits x = (List.range 8).map (toBits (x.toNat : ℤ)).getLsbD := by
    refine List.map_congr_left fun i hi => ?_
    have hi := List.mem_range.1 hi
    simp only [toBits, BitVec.ofInt_natCast, BitVec.getLsbD_ofNat]
    simp [show i < 32 by omega]
  have hindex : (bitAnd (bitXor c x.toNat) 255).toNat =
      ((toBits c ^^^ toBits x.toNat) &&& 255#32).toNat := by
    have heq := bitAnd_eq_toNat (bitXor c x.toNat) (m := 255) (by decide)
    change bitAnd (bitXor c x.toNat) 255 = _ at heq
    rw [heq, toBits_bitXor]
    rfl
  have hlt : ((toBits c ^^^ toBits x.toNat) &&& 255#32).toNat < 256 := by
    rw [BitVec.toNat_and]
    exact Nat.lt_succ_of_le Nat.and_le_right
  have hlow (i : ℕ) : ((toBits c ^^^ toBits x.toNat) &&& 255#32).getLsbD i =
      (decide (i < 8) && (toBits c ^^^ toBits x.toNat).getLsbD i) := by
    have hmask : (255#32).getLsbD i = decide (i < 8) := by
      rw [BitVec.getLsbD_ofNat, show 255 = 2 ^ 8 - 1 from rfl, Nat.testBit_two_pow_sub_one]
      by_cases hi : i < 8
      · simp [hi, show i < 32 by omega]
      · simp [hi]
    rw [BitVec.getLsbD_and, hmask, Bool.and_comm]
  have hshift : (toBits c ^^^ toBits x.toNat) >>> 8 = toBits c >>> 8 := by
    rw [BitVec.ushiftRight_xor_distrib, hx, BitVec.xor_zero]
  rw [toBits_bitXor, hindex, toBits_crcTable hlt, BitVec.ofNat_toNat, BitVec.setWidth_eq,
    toBits_shiftRight, hbits, Crc.feed_bits (by decide) hx, Crc.steps_split hlow, hshift]

/-- The register of the table and that of the bits are the same. -/
theorem toBits_crcLoop (c : ℤ) (b : Bytes) :
    toBits (crcLoop c b) = Crc.feed polynomial (toBits c) (b.flatMap byteBits) := by
  induction b generalizing c with
  | nil => rfl
  | cons x b ih =>
    rw [List.flatMap_cons, Crc.feed_append, ← toBits_crcStep]
    exact ih _

theorem crc32_eq_toNat (b : Bytes) : crc32 b = (crcBitwise b).toNat := by
  rw [crc32, shiftRight, toBits_bitXor, toBits_crcLoop]
  rfl

theorem crc32_bounds (b : Bytes) : 0 ≤ crc32 b ∧ crc32 b ≤ 2 ^ 32 - 1 := by
  have hlt := (crcBitwise b).isLt
  rw [crc32_eq_toNat]
  constructor <;> omega

/-- **The table computes CRC-32.** -/
theorem crc32_eq (b : Bytes) :
    crc32 b = (crcBitwise b).toNat ∧ 0 ≤ crc32 b ∧ crc32 b ≤ 2 ^ 32 - 1 :=
  ⟨crc32_eq_toNat b, crc32_bounds b⟩

/-- The check value, of `123456789`. -/
example : crc32 [49, 50, 51, 52, 53, 54, 55, 56, 57] = 0xCBF43926 := by decide +kernel

end Package
