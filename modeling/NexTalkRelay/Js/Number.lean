/-
  JavaScript numbers.

  A number is `NaN`, an infinity or a finite decimal.  Finite values are kept
  exactly, as decimals without trailing zeros: the rounding of a double to 53
  bits is left out, so that an arithmetic result here is the exact one.

  * `ofDigits m e` is `m * 10^e`, brought into the canonical form;
  * `Number.text` is `String(x)`, `stringToNumber` is `Number(s)`;
  * `lt`, `le` compare as `<` and `<=` do: with `NaN` both are false;
  * `toInt?` is the value of an integer, which the order of the others is
    related to by `Dec.lt_int`.
-/
import Mathlib.Data.List.TakeWhile
import Mathlib.Data.Rat.Floor
import Mathlib.Tactic.Ring
import Mathlib.Tactic.Linarith
import NexTalkRelay.Js.Text

namespace Js

/-! ## Finite numbers -/

/-- A finite number `mant * 10^exp` without trailing zeros. -/
structure Dec where
  mant : ℤ
  exp : ℤ
  canon : mant % 10 ≠ 0 ∨ (mant = 0 ∧ exp = 0)
deriving DecidableEq

namespace Dec

/-- The value of a decimal. -/
def val (d : Dec) : ℚ :=
  if 0 ≤ d.exp then ((d.mant * 10 ^ d.exp.toNat : ℤ) : ℚ) else mkRat d.mant (10 ^ (-d.exp).toNat)

/-- Drop at most `fuel` trailing zeros. -/
def strip : ℕ → ℤ → ℤ → ℤ × ℤ
  | 0, m, e => (m, e)
  | fuel + 1, m, e => if m % 10 = 0 then strip fuel (m / 10) (e + 1) else (m, e)

theorem strip_canon (fuel : ℕ) (m e : ℤ) (hm : m ≠ 0) (hf : m.natAbs < 10 ^ fuel) :
    (strip fuel m e).1 % 10 ≠ 0 := by
  induction fuel generalizing m e with
  | zero => simp at hf; omega
  | succ fuel ih =>
    rw [strip]
    split
    · refine ih _ _ (by omega) ?_
      rw [pow_succ] at hf
      omega
    · assumption

/-- The decimal `m * 10^e`. -/
def ofDigits (m e : ℤ) : Dec :=
  if hm : m = 0 then ⟨0, 0, Or.inr ⟨rfl, rfl⟩⟩
  else
    let p := strip (Nat.toDigits 10 m.natAbs).length m e
    ⟨p.1, p.2, Or.inl (strip_canon _ _ _ hm
      ((Nat.length_toDigits_le_iff (by decide) Nat.length_toDigits_pos).1 le_rfl))⟩

/-- The sum, at the smaller exponent. -/
def add (a b : Dec) : Dec :=
  let e := min a.exp b.exp
  ofDigits (a.mant * 10 ^ (a.exp - e).toNat + b.mant * 10 ^ (b.exp - e).toNat) e

/-- The opposite number. -/
def neg (a : Dec) : Dec := ofDigits (-a.mant) a.exp

/-- Division by a power of ten. -/
def shift (a : Dec) (k : ℕ) : Dec := ofDigits a.mant (a.exp - k)

/-- The value as an integer, if it is one. -/
def toInt? (a : Dec) : Option ℤ :=
  if 0 ≤ a.exp then some (a.mant * 10 ^ a.exp.toNat) else none

/-- The smallest integer from the number on. -/
def ceil (a : Dec) : ℤ :=
  if 0 ≤ a.exp then a.mant * 10 ^ a.exp.toNat else -(-a.mant / 10 ^ (-a.exp).toNat)

/-! ### Values -/

theorem val_eq (d : Dec) : d.val = d.mant * (10 : ℚ) ^ d.exp := by
  unfold val
  split
  · next h =>
    obtain ⟨k, hk⟩ := Int.eq_ofNat_of_zero_le h
    rw [hk]; push_cast; simp
  · next h =>
    obtain ⟨k, hk⟩ := Int.eq_ofNat_of_zero_le (show 0 ≤ -d.exp by omega)
    have he : d.exp = -(k : ℤ) := by omega
    rw [he, neg_neg, Int.toNat_natCast, Rat.mkRat_eq_div, zpow_neg, zpow_natCast, div_eq_mul_inv]
    push_cast; rfl

theorem strip_val (fuel : ℕ) (m e : ℤ) :
    ((strip fuel m e).1 : ℚ) * (10 : ℚ) ^ (strip fuel m e).2 = m * (10 : ℚ) ^ e := by
  induction fuel generalizing m e with
  | zero => rfl
  | succ fuel ih =>
    rw [strip]
    split
    · next h =>
      rw [ih]
      have hm : ((m / 10 : ℤ) : ℚ) * 10 = m := by
        have := Int.ediv_mul_cancel (Int.dvd_of_emod_eq_zero h)
        exact_mod_cast this
      rw [zpow_add₀ (by norm_num), zpow_one, ← hm]; ring
    · rfl

@[simp] theorem val_ofDigits (m e : ℤ) : (ofDigits m e).val = m * (10 : ℚ) ^ e := by
  rw [val_eq, ofDigits]
  split
  · next h => simp [h]
  · exact strip_val _ _ _

@[simp] theorem val_shift (a : Dec) (k : ℕ) : (a.shift k).val = a.val / 10 ^ k := by
  rw [shift, val_ofDigits, val_eq, zpow_sub₀ (by norm_num), zpow_natCast, mul_div_assoc]

@[simp] theorem val_neg (a : Dec) : a.neg.val = -a.val := by
  rw [neg, val_ofDigits, val_eq]; push_cast; ring

/-- An integral multiple of a higher power of ten. -/
theorem mul_zpow_of_le {m e e' : ℤ} (h : e' ≤ e) :
    ((m * 10 ^ (e - e').toNat : ℤ) : ℚ) * (10 : ℚ) ^ e' = m * (10 : ℚ) ^ e := by
  obtain ⟨k, hk⟩ := Int.eq_ofNat_of_zero_le (show 0 ≤ e - e' by omega)
  have he : e = k + e' := by omega
  rw [hk, he, zpow_add₀ (by norm_num), Int.toNat_natCast, zpow_natCast]; push_cast; ring

@[simp] theorem val_add (a b : Dec) : (a.add b).val = a.val + b.val := by
  rw [add, val_ofDigits, Int.cast_add, add_mul, mul_zpow_of_le (min_le_left _ _),
    mul_zpow_of_le (min_le_right _ _), val_eq, val_eq]

theorem val_eq_zero {a : Dec} : a.val = 0 ↔ a.mant = 0 := by
  have : (10 : ℚ) ^ a.exp ≠ 0 := zpow_ne_zero _ (by norm_num)
  rw [val_eq]; simp [this]

/-- A decimal with a negative exponent is no integer. -/
theorem exp_nonneg_of_val {a : Dec} {n : ℤ} (h : a.val = n) : 0 ≤ a.exp := by
  by_contra he
  obtain ⟨k, hk⟩ := Int.eq_ofNat_of_zero_le (show 0 ≤ -a.exp - 1 by omega)
  have he : a.exp = -((k + 1 : ℕ) : ℤ) := by push_cast; omega
  rw [val_eq, he, zpow_neg, zpow_natCast, ← div_eq_mul_inv, div_eq_iff (by positivity)] at h
  have hm : a.mant = n * 10 ^ (k + 1) := by exact_mod_cast h
  rcases a.canon with hc | ⟨-, hc⟩
  · rw [pow_succ, ← mul_assoc] at hm; omega
  · omega

theorem toInt?_eq_some {a : Dec} {n : ℤ} : a.toInt? = some n ↔ a.val = n := by
  unfold toInt?
  constructor
  · intro h
    split at h
    · next he =>
      simp only [Option.some.injEq] at h
      rw [val, if_pos he, h]
    · cases h
  · intro h
    have he := exp_nonneg_of_val h
    rw [if_pos he]
    rw [val, if_pos he] at h
    exact congrArg some (by exact_mod_cast h)

theorem ceil_eq (a : Dec) : a.ceil = ⌈a.val⌉ := by
  unfold ceil val
  split
  · rw [Int.ceil_intCast]
  · rw [Rat.mkRat_eq_div, Rat.ceil_intCast_div_natCast]; push_cast; rfl

/-! ### Text -/

/-- The text of a positive decimal with the digits `s` and the decimal point
    after `n` of them. -/
def textOf (s : JString) (n : ℤ) : JString :=
  let k : ℤ := s.length
  if k ≤ n ∧ n ≤ 21 then s ++ List.replicate (n - k).toNat 48
  else if 0 < n ∧ n ≤ 21 then s.take n.toNat ++ js "." ++ s.drop n.toNat
  else if -6 < n ∧ n ≤ 0 then js "0." ++ List.replicate (-n).toNat 48 ++ s
  else
    let e := js (if 0 < n then "e+" else "e-") ++ digits (n - 1).natAbs
    if k = 1 then s ++ e else s.take 1 ++ js "." ++ s.drop 1 ++ e

/-- `String(x)` of a finite number. -/
def text (a : Dec) : JString :=
  if a.mant = 0 then js "0"
  else
    let s := digits a.mant.natAbs
    (if a.mant < 0 then js "-" else []) ++ textOf s (s.length + a.exp)

/-- The characters of a number: digits, signs, the point and the exponent mark. -/
def isNumChar (c : UInt16) : Bool := isDigit c || c == 43 || c == 45 || c == 46 || c == 101

theorem isNumChar_of_isDigit {c : UInt16} (h : isDigit c = true) : isNumChar c = true := by
  simp [isNumChar, h]

theorem isNumChar_digits {n : ℕ} {c : UInt16} (h : c ∈ digits n) : isNumChar c = true :=
  isNumChar_of_isDigit ((isDigits_iff.1 (isDigits_digits n)).2 c h)

/-- The four notations: without a point, with a point inside, with a point in
    front, and with an exponent. -/
theorem textOf_cases (s : JString) (n : ℤ) :
    (∃ z, textOf s n = s ++ List.replicate z 48 ∧ s.length + z ≤ 21) ∨
    (∃ k, textOf s n = s.take k ++ 46 :: s.drop k) ∨
    (∃ z, textOf s n = 48 :: 46 :: (List.replicate z 48 ++ s)) ∨
    (∃ u c m, textOf s n = u ++ 101 :: c :: digits m ∧ (c = 43 ∨ c = 45) ∧
      ∀ d ∈ u, d ∈ s ∨ d = 46) := by
  unfold textOf
  dsimp only
  split
  · next h => exact Or.inl ⟨_, rfl, by omega⟩
  split
  · exact Or.inr (Or.inl ⟨n.toNat, by rw [List.append_assoc]; rfl⟩)
  split
  · exact Or.inr (Or.inr (Or.inl ⟨(-n).toNat, by rw [List.append_assoc]; rfl⟩))
  · refine Or.inr (Or.inr (Or.inr ?_))
    obtain ⟨c, he, hc⟩ : ∃ c, js (if 0 < n then "e+" else "e-") = [101, c] ∧ (c = 43 ∨ c = 45) := by
      split
      · exact ⟨43, by decide, Or.inl rfl⟩
      · exact ⟨45, by decide, Or.inr rfl⟩
    rw [he]
    split
    · exact ⟨s, c, _, rfl, hc, fun d hd => Or.inl hd⟩
    · refine ⟨s.take 1 ++ js "." ++ s.drop 1, c, _, rfl, hc, fun d hd => ?_⟩
      simp only [List.mem_append] at hd
      rcases hd with (hd | hd) | hd
      · exact Or.inl (List.mem_of_mem_take hd)
      · revert hd; rw [show js "." = [46] by decide]; simp +contextual
      · exact Or.inl (List.mem_of_mem_drop hd)

theorem isNumChar_textOf {s : JString} (hs : ∀ c ∈ s, isNumChar c = true) (n : ℤ) :
    ∀ c ∈ textOf s n, isNumChar c = true := by
  have hz (k : ℕ) : ∀ c ∈ List.replicate k (48 : UInt16), isNumChar c = true := by
    intro c hc; rw [List.eq_of_mem_replicate hc]; decide
  intro c hc
  rcases textOf_cases s n with ⟨z, he, -⟩ | ⟨k, he⟩ | ⟨z, he⟩ | ⟨u, e, m, he, hsign, hu⟩ <;>
    rw [he] at hc <;> simp only [List.mem_append, List.mem_cons] at hc
  · rcases hc with hc | hc
    exacts [hs c hc, hz z c hc]
  · rcases hc with hc | rfl | hc
    exacts [hs c (List.mem_of_mem_take hc), by decide, hs c (List.mem_of_mem_drop hc)]
  · rcases hc with rfl | rfl | hc | hc
    exacts [by decide, by decide, hz z c hc, hs c hc]
  · rcases hc with hc | rfl | rfl | hc
    · rcases hu c hc with hc | rfl
      exacts [hs c hc, by decide]
    · decide
    · rcases hsign with rfl | rfl <;> decide
    · exact isNumChar_digits hc

theorem isNumChar_text (a : Dec) : ∀ c ∈ a.text, isNumChar c = true := by
  have hminus : ∀ c ∈ js "-", isNumChar c = true := List.all_eq_true.1 (by decide)
  have hzero : ∀ c ∈ js "0", isNumChar c = true := List.all_eq_true.1 (by decide)
  unfold text
  split
  · exact hzero
  · intro c hc
    rcases List.mem_append.1 hc with hc | hc
    · split at hc
      · exact hminus c hc
      · cases hc
    · exact isNumChar_textOf (fun c => isNumChar_digits) _ c hc

theorem ascii_text (a : Dec) : Ascii a.text := by
  intro c hc
  have hnum := isNumChar_text a c hc
  simp only [isNumChar, isDigit, Bool.or_eq_true, Bool.and_eq_true, decide_eq_true_eq, beq_iff_eq,
    UInt16.le_iff_toNat_le, UInt16.lt_iff_toNat_lt, ← UInt16.toNat_inj] at *
  simp at *
  omega

theorem colon_notMem_text (a : Dec) : colon ∉ a.text :=
  fun h => absurd (isNumChar_text a _ h) (by decide)

theorem decValue_append_zeros (s : JString) (z : ℕ) :
    decValue (s ++ List.replicate z 48) = decValue s * 10 ^ z := by
  induction z with
  | zero => simp
  | succ z ih =>
    rw [List.replicate_succ', ← List.append_assoc]
    unfold decValue at *
    rw [List.foldl_append, ih]
    simp only [List.foldl_cons, List.foldl_nil]
    rw [pow_succ]
    have h48 : (48 : UInt16).toNat - 48 = 0 := rfl
    rw [h48]
    ring

/-- An integer that is not too large is written in digits. -/
theorem text_nat {a : Dec} {n : ℕ} (ha : a.val = n) (hn : n < 10 ^ 21) :
    isDigits a.text = true ∧ decValue a.text = n := by
  have he := exp_nonneg_of_val (n := n) (by exact_mod_cast ha)
  obtain ⟨e, he⟩ := Int.eq_ofNat_of_zero_le he
  have hint := toInt?_eq_some.2 (show a.val = (n : ℤ) by exact_mod_cast ha)
  simp only [toInt?, he, Int.natCast_nonneg, if_true, Int.toNat_natCast, Option.some.injEq] at hint
  obtain ⟨m, hm⟩ := Int.eq_ofNat_of_zero_le (show 0 ≤ a.mant by
    by_contra hneg
    have : a.mant * 10 ^ e < 0 := mul_neg_of_neg_of_pos (by omega) (by positivity)
    omega)
  rw [hm] at hint
  have hval : m * 10 ^ e = n := by exact_mod_cast hint
  unfold text
  rw [hm, he]
  split
  · next h0 =>
    have : m = 0 := by exact_mod_cast h0
    subst this
    rw [Nat.zero_mul] at hval
    subst hval
    exact ⟨by decide, by decide⟩
  · next h0 =>
    have hpos : 0 < m := by omega
    have hlen : (digits m).length + e ≤ 21 := by
      have he21 : e < 21 := by
        by_contra hge
        have := Nat.pow_le_pow_right (n := 10) (by omega) (not_lt.1 hge)
        have := Nat.le_mul_of_pos_left (10 ^ e) hpos
        omega
      have hlt : m < 10 ^ (21 - e) := by
        by_contra hge
        have := Nat.mul_le_mul_right (10 ^ e) (not_lt.1 hge)
        rw [← pow_add, Nat.sub_add_cancel he21.le] at this
        omega
      have := (Nat.length_toDigits_le_iff (b := 10) (by decide) (by omega)).2 hlt
      simp only [digits, List.length_map]
      omega
    have htext : (if (m : ℤ) < 0 then js "-" else []) ++
        textOf (digits (m : ℤ).natAbs) ((digits (m : ℤ).natAbs).length + e) =
          digits m ++ List.replicate e 48 := by
      rw [if_neg (by omega), Int.natAbs_natCast, List.nil_append, textOf]
      dsimp only
      rw [if_pos ⟨by omega, by omega⟩]
      congr 2
      omega
    dsimp only
    rw [htext, decValue_append_zeros, decValue_digits]
    refine ⟨isDigits_iff.2 ⟨?_, fun c hc => ?_⟩, hval⟩
    · exact List.append_ne_nil_of_left_ne_nil (isDigits_iff.1 (isDigits_digits m)).1 _
    · rcases List.mem_append.1 hc with hc | hc
      · exact (isDigits_iff.1 (isDigits_digits m)).2 c hc
      · rw [List.eq_of_mem_replicate hc]
        decide

/-- The text of a number that looks like a hexadecimal number is short: only
    integers are written without sign, point and exponent. -/
theorem length_text_le {a : Dec} (h : ∀ c ∈ a.text, isHexDigit c = true) : a.text.length ≤ 21 := by
  have hno {c : UInt16} (hc : c = 43 ∨ c = 45 ∨ c = 46) : c ∉ a.text := by
    intro hm
    have := h c hm
    rcases hc with rfl | rfl | rfl <;> revert this <;> decide
  unfold text at *
  split
  · decide
  · next h0 =>
    rw [if_neg h0] at hno
    split at hno
    · exact absurd (List.mem_append_left _ (by decide)) (hno (c := 45) (by simp))
    · next hpos =>
      rw [if_neg hpos, List.nil_append] at *
      rcases textOf_cases (digits a.mant.natAbs) ((digits a.mant.natAbs).length + a.exp) with
        ⟨z, he, hz⟩ | ⟨k, he⟩ | ⟨z, he⟩ | ⟨u, e, m, he, hsign, -⟩ <;> rw [he] at hno ⊢
      · simpa using hz
      · exact absurd (by simp) (hno (c := 46) (by simp))
      · exact absurd (by simp) (hno (c := 46) (by simp))
      · exact absurd (by simp) (hno (c := e) (by tauto))

end Dec

/-! ## Numbers -/

/-- A number of JavaScript. -/
inductive Number where
  | nan
  | inf (neg : Bool)
  | fin (d : Dec)
deriving DecidableEq

namespace Number

/-- An integer. -/
def ofInt (n : ℤ) : Number := fin (Dec.ofDigits n 0)

instance : NatCast Number := ⟨fun n => ofInt n⟩

/-- `a < b` -/
def lt : Number → Number → Bool
  | nan, _ | _, nan => false
  | inf s, inf s' => s && !s'
  | inf s, fin _ => s
  | fin _, inf s => !s
  | fin a, fin b => decide (a.val < b.val)

/-- `a <= b` -/
def le : Number → Number → Bool
  | nan, _ | _, nan => false
  | inf s, inf s' => s || !s'
  | inf s, fin _ => s
  | fin _, inf s => !s
  | fin a, fin b => decide (a.val ≤ b.val)

/-- The opposite number; that of an infinity is the other one. -/
def neg : Number → Number
  | nan => nan
  | inf s => inf !s
  | fin a => fin a.neg

/-- The sum; it is not a number where infinities of both signs meet. -/
def add : Number → Number → Number
  | nan, _ | _, nan => nan
  | inf s, inf s' => if s = s' then inf s else nan
  | inf s, fin _ | fin _, inf s => inf s
  | fin a, fin b => fin (a.add b)

/-- `Math.abs(a)` -/
def abs (a : Number) : Number := if a.lt (ofInt 0) then a.neg else a

/-- `Math.max(a, b)` -/
def max (a b : Number) : Number := if a = nan ∨ b = nan then nan else if a.lt b then b else a

/-- `Math.min(a, b)` -/
def min (a b : Number) : Number := if a = nan ∨ b = nan then nan else if a.lt b then a else b

/-- `a / 1000` -/
def divThousand : Number → Number
  | fin a => fin (a.shift 3)
  | a => a

/-- `Math.ceil(a)` -/
def ceil : Number → Number
  | fin a => ofInt a.ceil
  | a => a

/-- `Number.isFinite(a)` -/
def isFinite : Number → Bool
  | fin _ => true
  | _ => false

/-- The value of an integer; `Number.isInteger(a)` if there is one. -/
def toInt? : Number → Option ℤ
  | fin a => a.toInt?
  | _ => none

/-- The truth value of a number. -/
def truthy : Number → Bool
  | nan => false
  | inf _ => true
  | fin a => decide (a.mant ≠ 0)

/-- `String(a)` -/
def text : Number → JString
  | nan => js "NaN"
  | inf s => js (if s then "-Infinity" else "Infinity")
  | fin a => a.text

/-! ### Order and integers -/

theorem lt_ofInt {a : Dec} {n : ℤ} : (fin a).lt (ofInt n) = true ↔ a.val < n := by
  simp [lt, ofInt]

theorem ofInt_lt {a : Dec} {n : ℤ} : (ofInt n).lt (fin a) = true ↔ (n : ℚ) < a.val := by
  simp [lt, ofInt]

theorem ofInt_le {a : Dec} {n : ℤ} : (ofInt n).le (fin a) = true ↔ (n : ℚ) ≤ a.val := by
  simp [le, ofInt]

theorem le_ofInt {a : Dec} {n : ℤ} : (fin a).le (ofInt n) = true ↔ a.val ≤ n := by
  simp [le, ofInt]

/-- What is at most an integer is at most a larger one. -/
theorem le_ofInt_mono {a : Number} {n n' : ℤ} (h : n ≤ n') (ha : a.le (ofInt n) = true) :
    a.le (ofInt n') = true := by
  cases a with
  | nan => cases ha
  | inf s => cases s <;> first | rfl | cases ha
  | fin d =>
    rw [le_ofInt] at ha ⊢
    exact ha.trans (by exact_mod_cast h)

@[simp] theorem ofInt_lt_ofInt {m n : ℤ} : (ofInt m).lt (ofInt n) = true ↔ m < n := by
  simp [lt, ofInt]

@[simp] theorem ofInt_le_ofInt {m n : ℤ} : (ofInt m).le (ofInt n) = true ↔ m ≤ n := by
  simp [le, ofInt]

theorem toInt?_eq_some {a : Number} {n : ℤ} : a.toInt? = some n ↔ ∃ d, a = fin d ∧ d.val = n := by
  cases a <;> simp [toInt?, Dec.toInt?_eq_some]

@[simp] theorem toInt?_ofInt (n : ℤ) : (ofInt n).toInt? = some n :=
  toInt?_eq_some.2 ⟨_, rfl, by simp⟩

theorem toInt?_of_eq {a : Number} {n : ℤ} (h : a = ofInt n) : a.toInt? = some n := by
  rw [h, toInt?_ofInt]

theorem isFinite_iff {a : Number} : a.isFinite = true ↔ ∃ d, a = fin d := by
  cases a <;> simp [isFinite]

theorem abs_fin (a : Dec) : ∃ d, (fin a).abs = fin d ∧ d.val = |a.val| := by
  unfold abs
  split
  · next h =>
    rw [lt_ofInt, Int.cast_zero] at h
    exact ⟨_, rfl, by rw [Dec.val_neg, abs_of_neg h]⟩
  · next h =>
    rw [lt_ofInt, Int.cast_zero, not_lt] at h
    exact ⟨_, rfl, by rw [abs_of_nonneg h]⟩

theorem max_fin (a b : Dec) : ∃ d, (fin a).max (fin b) = fin d ∧ d.val = Max.max a.val b.val := by
  simp only [max, reduceCtorEq, or_self, if_false, lt, decide_eq_true_eq]
  split
  · next h => exact ⟨_, rfl, (max_eq_right h.le).symm⟩
  · next h => exact ⟨_, rfl, (max_eq_left (not_lt.1 h)).symm⟩

theorem colon_notMem_text (a : Number) : colon ∉ a.text := by
  cases a with
  | nan => decide
  | inf s => cases s <;> decide
  | fin d => exact d.colon_notMem_text

end Number

/-! ## `Number(s)` -/

/-- The digits of a literal in base `2^k`, as in `0x1f`. -/
def radixLiteral (base : ℕ) (s : JString) : Number :=
  let vs := s.map fun c => (hexVal c).filter (· < base)
  if s.isEmpty || vs.any Option.isNone then .nan
  else .ofInt (vs.foldl (fun n v => base * n + v.getD 0) 0 : ℕ)

/-- An exponent part `e±ddd`; nothing is the exponent `0`. -/
def exponent (s : JString) : Option ℤ :=
  match s with
  | [] => some 0
  | c :: s =>
    if c = 101 ∨ c = 69 then
      match s with
      | 43 :: s => if isDigits s then some (decValue s) else none
      | 45 :: s => if isDigits s then some (-decValue s) else none
      | s => if isDigits s then some (decValue s) else none
    else none

/-- A decimal literal without a sign. -/
def decimalLiteral (s : JString) : Option (ℤ × ℤ) :=
  let ip := s.takeWhile isDigit
  let r := s.dropWhile isDigit
  let fp := match r with
    | 46 :: r => r.takeWhile isDigit
    | _ => []
  let rest := match r with
    | 46 :: r => r.dropWhile isDigit
    | _ => r
  if ip.isEmpty && fp.isEmpty then none
  else (exponent rest).map fun e => (decValue (ip ++ fp), e - fp.length)

/-- `Number(s)` of a string. -/
def stringToNumber (s : JString) : Number :=
  let signed (neg : Bool) (u : JString) : Number :=
    if u = js "Infinity" then .inf neg
    else match decimalLiteral u with
      | some (m, e) => .fin (.ofDigits (if neg then -m else m) e)
      | none => .nan
  match trim s with
  | [] => .ofInt 0
  | 43 :: u => signed false u
  | 45 :: u => signed true u
  -- a prefixed literal has no sign
  | 48 :: c :: u =>
    if c = 120 ∨ c = 88 then radixLiteral 16 u
    else if c = 111 ∨ c = 79 then radixLiteral 8 u
    else if c = 98 ∨ c = 66 then radixLiteral 2 u
    else signed false (48 :: c :: u)
  | u => signed false u

theorem isSpace_of_isDigit {c : UInt16} (h : isDigit c = true) : isSpace c = false := by
  simp only [isDigit, Bool.and_eq_true, decide_eq_true_eq, UInt16.le_iff_toNat_le] at h
  simp [isSpace, UInt16.le_iff_toNat_le, ← UInt16.toNat_inj] at *
  omega

theorem trim_of_isDigits {s : JString} (h : isDigits s = true) : trim s = s := by
  have hs : ∀ c ∈ s, isSpace c = false := fun c hc =>
    isSpace_of_isDigit ((isDigits_iff.1 h).2 c hc)
  have hdrop : ∀ t : JString, (∀ c ∈ t, isSpace c = false) → t.dropWhile isSpace = t := by
    intro t ht
    cases t with
    | nil => rfl
    | cons c t => rw [List.dropWhile_cons, if_neg (by simp [ht c (by simp)])]
  rw [trim, hdrop s hs, hdrop _ fun c hc => hs c (List.mem_reverse.1 hc), List.reverse_reverse]

theorem decimalLiteral_of_isDigits {s : JString} (h : isDigits s = true) :
    decimalLiteral s = some ((decValue s : ℤ), 0) := by
  obtain ⟨hne, hs⟩ := isDigits_iff.1 h
  have htake : s.takeWhile isDigit = s := List.takeWhile_eq_self_iff.2 hs
  have hdrop : s.dropWhile isDigit = [] := List.dropWhile_eq_nil_iff.2 hs
  simp [decimalLiteral, htake, hdrop, exponent, hne]

/-- **A text of digits is read as the number it writes.** -/
theorem stringToNumber_of_isDigits {s : JString} (h : isDigits s = true) :
    stringToNumber s = .ofInt (decValue s) := by
  have hlit := decimalLiteral_of_isDigits h
  obtain ⟨hne, hs⟩ := isDigits_iff.1 h
  have hinf : s ≠ js "Infinity" := by rintro rfl; revert h; decide
  have hfin (t : JString) (ht : t = s) : (if t = js "Infinity" then Number.inf false
      else match decimalLiteral t with
        | some (m, e) => .fin (.ofDigits (if false then -m else m) e)
        | none => .nan) = Number.ofInt (decValue s) := by
    subst ht
    rw [if_neg hinf, hlit]; rfl
  unfold stringToNumber
  rw [trim_of_isDigits h]
  -- no digit is a sign or a radix mark
  split
  · exact absurd rfl hne
  · exact absurd (hs 43 (by simp)) (by decide)
  · exact absurd (hs 45 (by simp)) (by decide)
  · next c u =>
    have hc : isDigit c = true := hs c (by simp)
    have hne {d : UInt16} (hd : isDigit d = false) : c ≠ d := by
      rintro rfl; rw [hc] at hd; cases hd
    rw [if_neg (not_or.2 ⟨hne (by decide), hne (by decide)⟩),
      if_neg (not_or.2 ⟨hne (by decide), hne (by decide)⟩),
      if_neg (not_or.2 ⟨hne (by decide), hne (by decide)⟩)]
    exact hfin _ rfl
  · exact hfin _ rfl

end Js
