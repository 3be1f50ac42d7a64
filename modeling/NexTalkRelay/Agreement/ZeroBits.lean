/-
  The leading zero bits of a hash.

  The Router, the shard and `solve.py` count them alike: over the bytes, and inside
  the first byte that is not zero by shifting it until its top bit is set.

  * `zeroBits` is that loop, over the numbers of either language;
  * `beValue` reads bytes as a number, the first one the most significant;
  * `leadingZeroBits_threshold`: the loops stop, agree, and compare the number with
    a power of two.
-/
import Mathlib.Data.Nat.Digits.Lemmas
import NexTalkRelay.Agreement.Solver
import NexTalkRelay.Lib.While

open Effect Js

namespace Agreement

/-! ## The loops -/

section

variable {α : Type} (ofByte : UInt8 → α) (topClear : α → Bool) (shift : α → α)

/-- `while ((x & 0x80) === 0) { bits++; x <<= 1 }` -/
def shiftLoop (fuel : ℕ) (bits : ℕ) (x : α) : Option (ℕ × α) :=
  whileLoop (fun s => topClear s.2) (fun s => (s.1 + 1, shift s.2)) fuel (bits, x)

/-- The loop over the bytes; it goes on after a zero byte, and ends at any other. -/
def zeroBits (fuel : ℕ) : ℕ → Bytes → Option ℕ
  | bits, [] => some bits
  | bits, b :: bytes =>
    if b = 0 then zeroBits fuel (bits + 8) bytes
    else (shiftLoop topClear shift fuel bits (ofByte b)).map Prod.fst

end

namespace Js32

/-- `x & 0x80` and `x <<= 1` of JavaScript work on 32 bits. -/
def topClear (x : BitVec 32) : Bool := x &&& 0x80#32 == 0#32

/-- `x <<= 1` on 32 bits. -/
def shift (x : BitVec 32) : BitVec 32 := x <<< 1

/-- `leadingZeroBits` of the Router, and its copies in the shard and in the combined
    worker. -/
def leadingZeroBits (fuel : ℕ) (bytes : Bytes) : Option ℕ :=
  zeroBits (fun b => BitVec.ofNat 32 b.toNat) topClear shift fuel 0 bytes

end Js32

namespace Py

/-- The integers of Python have no bound. -/
def topClear (x : ℕ) : Bool := x &&& 0x80 == 0

/-- `leading_zero_bits` of `solve.py`. -/
def leadingZeroBits (fuel : ℕ) (digest : Bytes) : Option ℕ :=
  zeroBits (fun b => b.toNat) topClear (· <<< 1) fuel 0 digest

end Py

/-! ## What they count -/

section

variable {α : Type} {ofByte : UInt8 → α} {topClear : α → Bool} {shift : α → α}

/-- What the loops need of the numbers: on bytes, `val` sees the test as a comparison
    and the shift as doubling. -/
structure Doubles (val : α → ℕ) (ofByte : UInt8 → α) (topClear : α → Bool) (shift : α → α) :
    Prop where
  val_ofByte : ∀ b, val (ofByte b) = b.toNat
  topClear_iff : ∀ x, val x < 256 → (topClear x = true ↔ val x < 128)
  val_shift : ∀ x, val x < 128 → val (shift x) = 2 * val x

variable {val : α → ℕ}

/-- The shifts that were made and those to come are `total` together. -/
def Shifted (val : α → ℕ) (total : ℕ) (s : ℕ × α) : Prop :=
  val s.2 ≠ 0 ∧ val s.2 < 256 ∧ s.1 + (7 - Nat.log2 (val s.2)) = total

theorem Shifted.step (h : Doubles val ofByte topClear shift) {total bits : ℕ} {x : α}
    (hs : Shifted val total (bits, x)) (htop : topClear x = true) :
    Shifted val total (bits + 1, shift x) ∧
      7 - Nat.log2 (val (shift x)) < 7 - Nat.log2 (val x) := by
  obtain ⟨hne, hbyte, htotal⟩ : val x ≠ 0 ∧ val x < 256 ∧ bits + (7 - Nat.log2 (val x)) = total :=
    hs
  have hhalf : val x < 128 := (h.topClear_iff x hbyte).1 htop
  have hlow : Nat.log2 (val x) < 7 := (Nat.log2_lt hne).2 hhalf
  have hval : val (shift x) = 2 * val x := h.val_shift x hhalf
  have hlog : Nat.log2 (val (shift x)) = Nat.log2 (val x) + 1 := by
    rw [hval, Nat.log2_two_mul hne]
  refine ⟨⟨?_, ?_, ?_⟩, ?_⟩
  · show val (shift x) ≠ 0
    omega
  · show val (shift x) < 256
    omega
  · show bits + 1 + (7 - Nat.log2 (val (shift x))) = total
    omega
  · omega

/-- The shifts end where the top bit is set, and then all have been made. -/
theorem Shifted.stop (h : Doubles val ofByte topClear shift) {total bits : ℕ} {x : α}
    (hs : Shifted val total (bits, x)) (htop : topClear x = false) : bits = total := by
  obtain ⟨hne, hbyte, htotal⟩ : val x ≠ 0 ∧ val x < 256 ∧ bits + (7 - Nat.log2 (val x)) = total :=
    hs
  have hhalf : ¬ val x < 128 := by
    rw [← h.topClear_iff x hbyte, htop]
    exact Bool.false_ne_true
  have hlog : Nat.log2 (val x) = 7 := (Nat.log2_eq_iff hne).2 ⟨by omega, by omega⟩
  omega

/-- The shifts of a byte other than zero end, and are as many as it has leading zero
    bits. -/
theorem shiftLoop_eq (h : Doubles val ofByte topClear shift) {b : UInt8} (hb : b ≠ 0)
    {fuel : ℕ} (hfuel : 8 ≤ fuel) (bits : ℕ) :
    ∃ x, shiftLoop topClear shift fuel bits (ofByte b) = some (bits + leadingZeros b, x) := by
  have hval := h.val_ofByte b
  have hlt := b.toNat_lt
  have hpos : b.toNat ≠ 0 := fun hzero => hb (UInt8.toNat_inj.1 hzero)
  have hstart : Shifted val (bits + leadingZeros b) (bits, ofByte b) := by
    refine ⟨?_, ?_, ?_⟩
    · show val (ofByte b) ≠ 0
      omega
    · show val (ofByte b) < 256
      omega
    · show bits + (7 - Nat.log2 (val (ofByte b))) = bits + leadingZeros b
      rw [hval, leadingZeros]
  obtain ⟨⟨k, x⟩, hloop, hend, htop⟩ :=
    whileLoop_total (I := Shifted val (bits + leadingZeros b))
      (m := fun s : ℕ × α => 7 - Nat.log2 (val s.2)) (fun _ hs htop => hs.step h htop) hstart
      (show _ < fuel by omega)
  obtain rfl := hend.stop h htop
  exact ⟨x, hloop⟩

theorem zeroBits_eq (h : Doubles val ofByte topClear shift) {fuel : ℕ} (hfuel : 8 ≤ fuel)
    (bytes : Bytes) (bits : ℕ) :
    zeroBits ofByte topClear shift fuel bits bytes = some (bits + leadingZeroBits bytes) := by
  induction bytes generalizing bits with
  | nil => rfl
  | cons b bytes ih =>
    rw [zeroBits, leadingZeroBits]
    by_cases hb : b = 0
    · rw [if_pos hb, if_pos hb, ih, Nat.add_assoc]
    · obtain ⟨x, hloop⟩ := shiftLoop_eq h hb hfuel bits
      rw [if_neg hb, if_neg hb, hloop]
      rfl

end

theorem and_top : ∀ n < 256, n &&& 0x80 = 0 ↔ n < 128 := by decide +kernel

theorem doubles_js : Doubles BitVec.toNat (fun b => BitVec.ofNat 32 b.toNat) Js32.topClear
    Js32.shift where
  val_ofByte b := by
    have := b.toNat_lt
    simp only [BitVec.toNat_ofNat]
    omega
  topClear_iff x hx := by
    have hzero : (x &&& 0x80#32 = 0#32) ↔ x.toNat &&& 0x80 = 0 := by
      rw [← BitVec.toNat_inj, BitVec.toNat_and]
      rfl
    simp only [Js32.topClear, beq_iff_eq, hzero]
    exact and_top x.toNat hx
  val_shift x hx := by
    rw [Js32.shift, BitVec.toNat_shiftLeft, Nat.shiftLeft_eq]
    omega

theorem doubles_py : Doubles id (fun b => b.toNat) Py.topClear (· <<< 1) where
  val_ofByte _ := rfl
  topClear_iff x hx := by
    simp only [Py.topClear, beq_iff_eq]
    exact and_top x hx
  val_shift x _ := by
    simp only [id, Nat.shiftLeft_eq]
    omega

/-! ## The number that the bytes spell -/

/-- Bytes as a number, the first one the most significant. -/
def beValue (bytes : Bytes) : ℕ := Nat.ofDigits 256 (bytes.reverse.map UInt8.toNat)

theorem beValue_cons (b : UInt8) (bytes : Bytes) :
    beValue (b :: bytes) = b.toNat * 2 ^ (8 * bytes.length) + beValue bytes := by
  have hpow : 2 ^ (8 * bytes.length) = 256 ^ bytes.length := by
    rw [Nat.pow_mul]
  simp only [beValue, List.reverse_cons, List.map_append, Nat.ofDigits_append, List.map_cons,
    List.map_nil, Nat.ofDigits_singleton, List.length_map, List.length_reverse, hpow]
  rw [Nat.add_comm, Nat.mul_comm]

theorem beValue_lt (bytes : Bytes) : beValue bytes < 2 ^ (8 * bytes.length) := by
  have hlt : beValue bytes < 256 ^ (bytes.reverse.map UInt8.toNat).length := by
    refine Nat.ofDigits_lt_base_pow_length (by omega) ?_
    simp only [List.mem_map]
    rintro n ⟨b, -, rfl⟩
    exact b.toNat_lt
  simpa [Nat.pow_mul] using hlt

theorem le_leadingZeros_iff {b : UInt8} (hb : b ≠ 0) {d : ℕ} (hd : d ≤ 8) :
    d ≤ leadingZeros b ↔ b.toNat < 2 ^ (8 - d) := by
  have hpos : b.toNat ≠ 0 := fun hzero => hb (UInt8.toNat_inj.1 hzero)
  have hlog : Nat.log2 b.toNat < 8 := (Nat.log2_lt hpos).2 b.toNat_lt
  rw [leadingZeros, ← Nat.log2_lt hpos]
  omega

/-- A number `b * m + v` with `v < m` is below a multiple of `m` if `b` is below the
    factor. -/
theorem mul_add_lt_iff {b v m k : ℕ} (hv : v < m) : b * m + v < k * m ↔ b < k := by
  constructor
  · intro h
    by_contra hle
    have := Nat.mul_le_mul_right m (Nat.le_of_not_lt hle)
    omega
  · intro h
    have := Nat.mul_le_mul_right m (Nat.succ_le_of_lt h)
    rw [Nat.succ_mul] at this
    omega

theorem le_leadingZeroBits_iff (bytes : Bytes) {d : ℕ} (hd : d ≤ 8 * bytes.length) :
    d ≤ leadingZeroBits bytes ↔ beValue bytes < 2 ^ (8 * bytes.length - d) := by
  induction bytes generalizing d with
  | nil =>
    obtain rfl : d = 0 := by simpa using hd
    simp [beValue]
  | cons b bytes ih =>
    have hrest := beValue_lt bytes
    rw [List.length_cons] at hd ⊢
    rw [leadingZeroBits, beValue_cons]
    rcases Nat.lt_or_ge 8 d with hlarge | hsmall
    · have hexp : 8 * (bytes.length + 1) - d = 8 * bytes.length - (d - 8) := by omega
      rw [hexp]
      by_cases hb : b = 0
      · have ih := ih (d := d - 8) (by omega)
        rw [if_pos hb, hb]
        simp only [UInt8.toNat_zero, Nat.zero_mul, Nat.zero_add, ← ih]
        omega
      · -- a byte that is not zero has fewer than eight zero bits, and is worth more than the bound
        have hpos : b.toNat ≠ 0 := fun hzero => hb (UInt8.toNat_inj.1 hzero)
        have hone := Nat.mul_le_mul_right (2 ^ (8 * bytes.length)) (Nat.pos_of_ne_zero hpos)
        have hbound : 2 ^ (8 * bytes.length - (d - 8)) ≤ 2 ^ (8 * bytes.length) :=
          Nat.pow_le_pow_right (by omega) (by omega)
        rw [if_neg hb, leadingZeros]
        omega
    · have hexp : 2 ^ (8 * (bytes.length + 1) - d) = 2 ^ (8 - d) * 2 ^ (8 * bytes.length) := by
        rw [← Nat.pow_add]
        congr 1
        omega
      rw [hexp, mul_add_lt_iff hrest]
      by_cases hb : b = 0
      · rw [if_pos hb, hb]
        simp only [UInt8.toNat_zero, Nat.two_pow_pos, iff_true]
        omega
      · rw [if_neg hb, le_leadingZeros_iff hb hsmall]

/-! ## The theorem -/

/-- **Counting leading zero bits is a comparison.**  The shifts of a byte other than
    zero end within eight tests; the copies in JavaScript and in Python return one
    count on every input; and that count reaches `d` exactly if the number that the
    bytes spell is below `2 ^ (8 * L - d)`. -/
theorem leadingZeroBits_threshold (bytes : Bytes) {d fuel : ℕ} (hd : d ≤ 8 * bytes.length)
    (hfuel : 8 ≤ fuel) :
    (∀ b : UInt8, b ≠ 0 → ∀ bits,
      (shiftLoop Js32.topClear Js32.shift fuel bits (BitVec.ofNat 32 b.toNat)).isSome ∧
      (shiftLoop Py.topClear (· <<< 1) fuel bits b.toNat).isSome) ∧
    ∃ count, Js32.leadingZeroBits fuel bytes = some count ∧
      Py.leadingZeroBits fuel bytes = some count ∧
      (d ≤ count ↔ beValue bytes < 2 ^ (8 * bytes.length - d)) := by
  refine ⟨?_, leadingZeroBits bytes, ?_, ?_, le_leadingZeroBits_iff bytes hd⟩
  · intro b hb bits
    obtain ⟨x, hx⟩ := shiftLoop_eq doubles_js hb hfuel bits
    obtain ⟨y, hy⟩ := shiftLoop_eq doubles_py hb hfuel bits
    constructor
    · rw [hx]
      rfl
    · rw [hy]
      rfl
  · rw [Js32.leadingZeroBits, zeroBits_eq doubles_js hfuel, Nat.zero_add]
  · rw [Py.leadingZeroBits, zeroBits_eq doubles_py hfuel, Nat.zero_add]

theorem zero_then_seven_bits : 13 ≤ 8 * [(0 : UInt8), 7].length ∧
    ∃ count, Js32.leadingZeroBits 8 [0, 7] = some count ∧
      Py.leadingZeroBits 8 [0, 7] = some count ∧ (13 ≤ count ↔ beValue [0, 7] < 2 ^ 3) :=
  ⟨by decide, (leadingZeroBits_threshold [0, 7] (by decide) le_rfl).2⟩

end Agreement
