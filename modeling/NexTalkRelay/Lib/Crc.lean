/-
  Cyclic redundancy checks, with the bits reflected.

  The register takes the bits of the message one at a time, the lowest bit of a byte
  first.

  * `step` is the step of the register for one bit, and `feed` that of a message;
  * `step_xor`: the step is linear;
  * `feed_bits`: the bits of a word may be put into the register at once, and the
    steps made afterwards;
  * `steps_split`: the steps for `n` bits are determined by the lowest `n` bits of the
    register, up to a shift of the others; this is what a table is good for.
-/
import Mathlib.Data.Nat.Bitwise
import Mathlib.Logic.Function.Iterate

namespace Crc

variable {w : ℕ} (poly : BitVec w)

/-! ## The register -/

/-- One turn of the shift register. -/
def step (c : BitVec w) : BitVec w := if c.getLsbD 0 then poly ^^^ (c >>> 1) else c >>> 1

/-- A bit of the message and one step. -/
def feedBit (c : BitVec w) (b : Bool) : BitVec w := step poly (c ^^^ if b then 1#w else 0#w)

/-- The message bit by bit. -/
def feed (c : BitVec w) (bits : List Bool) : BitVec w := bits.foldl (feedBit poly) c

variable {poly}

/-! ## Linearity -/

theorem step_eq (c : BitVec w) :
    step poly c = (if c.getLsbD 0 then poly else 0#w) ^^^ (c >>> 1) := by
  unfold step
  cases c.getLsbD 0 <;> simp

theorem step_xor (x y : BitVec w) : step poly (x ^^^ y) = step poly x ^^^ step poly y := by
  have hpoly (a b : Bool) : (if a ^^ b then poly else 0#w) =
      (if a then poly else 0#w) ^^^ (if b then poly else 0#w) := by
    cases a <;> cases b <;> simp
  rw [step_eq, step_eq x, step_eq y, BitVec.getLsbD_xor, hpoly, BitVec.ushiftRight_xor_distrib]
  ac_rfl

theorem steps_xor (n : ℕ) (x y : BitVec w) :
    (step poly)^[n] (x ^^^ y) = (step poly)^[n] x ^^^ (step poly)^[n] y := by
  induction n generalizing x y with
  | zero => rfl
  | succ n ih => rw [Function.iterate_succ_apply, step_xor, ih]; rfl

theorem step_of_even {c : BitVec w} (h : c.getLsbD 0 = false) : step poly c = c >>> 1 := by
  simp [step, h]

/-- Bits that are zero are shifted out. -/
theorem steps_of_low {n : ℕ} {c : BitVec w} (h : ∀ i < n, c.getLsbD i = false) :
    (step poly)^[n] c = c >>> n := by
  induction n generalizing c with
  | zero => simp
  | succ n ih =>
    have hlow : ∀ i < n, (c >>> 1).getLsbD i = false := by
      intro i hi
      rw [BitVec.getLsbD_ushiftRight]
      exact h (1 + i) (by omega)
    rw [Function.iterate_succ_apply, step_of_even (h 0 (by omega)), ih hlow,
      ← BitVec.shiftRight_add, Nat.add_comm]

/-- **A step of several bits.** -/
theorem steps_split {n : ℕ} {c low : BitVec w}
    (hlow : ∀ i, low.getLsbD i = (decide (i < n) && c.getLsbD i)) :
    (step poly)^[n] c = (step poly)^[n] low ^^^ (c >>> n) := by
  have hc : c = low ^^^ (low ^^^ c) := by
    rw [← BitVec.xor_assoc, BitVec.xor_self, BitVec.zero_xor]
  have hzero : ∀ i < n, (low ^^^ c).getLsbD i = false := by
    intro i hi
    simp [hlow, hi]
  have hhigh : (low ^^^ c) >>> n = c >>> n := by
    refine BitVec.eq_of_getLsbD_eq fun i _ => ?_
    have hge : ¬ n + i < n := by omega
    simp [hlow, hge]
  calc (step poly)^[n] c = (step poly)^[n] (low ^^^ (low ^^^ c)) := by rw [← hc]
    _ = (step poly)^[n] low ^^^ (c >>> n) := by rw [steps_xor, steps_of_low hzero, hhigh]

/-! ## The bits of a word -/

/-- **Bit by bit or at once.** -/
theorem feed_bits {n : ℕ} (hw : 0 < w) {c x : BitVec w} (hx : x >>> n = 0#w) :
    feed poly c ((List.range n).map x.getLsbD) = (step poly)^[n] (c ^^^ x) := by
  induction n generalizing c x with
  | zero =>
    obtain rfl : x = 0#w := by simpa using hx
    simp [feed]
  | succ n ih =>
    have hrest : (x >>> 1) >>> n = 0#w := by
      rw [← BitVec.shiftRight_add, Nat.add_comm, hx]
    have hbits : (List.range (n + 1)).map x.getLsbD =
        x.getLsbD 0 :: (List.range n).map (x >>> 1).getLsbD := by
      rw [List.range_succ_eq_map, List.map_cons, List.map_map]
      refine congrArg _ (List.map_congr_left fun i _ => ?_)
      rw [BitVec.getLsbD_ushiftRight, Nat.add_comm]
      rfl
    -- the lowest bit of the word and the others
    have hsplit : c ^^^ x = (c ^^^ if x.getLsbD 0 then 1#w else 0#w) ^^^ ((x >>> 1) <<< 1) := by
      rw [BitVec.xor_assoc]
      refine congrArg _ (BitVec.eq_of_getLsbD_eq fun i hi => ?_)
      rcases i with _ | i
      · cases x.getLsbD 0 <;> simp [hw]
      · cases x.getLsbD 0 <;> simp [hi, Nat.add_comm]
    have heven : step poly ((x >>> 1) <<< 1) = x >>> 1 := by
      rw [step_of_even (by simp)]
      refine BitVec.eq_of_getLsbD_eq fun i hi => ?_
      simp only [BitVec.getLsbD_ushiftRight, BitVec.getLsbD_shiftLeft]
      by_cases hlast : 1 + i < w
      · simp [hlast]
      · simp [hlast, BitVec.getLsbD_of_ge x (1 + i) (by omega)]
    rw [hbits, Function.iterate_succ_apply, hsplit, step_xor, heven, ← ih hrest]
    rfl

theorem feed_append (c : BitVec w) (xs ys : List Bool) :
    feed poly c (xs ++ ys) = feed poly (feed poly c xs) ys := List.foldl_append

end Crc
