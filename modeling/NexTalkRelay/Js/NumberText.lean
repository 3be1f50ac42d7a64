/-
  The text of a number is read as that number.

  * `Literal` is a decimal literal without a sign, taken apart;
  * `textOf_literal`: all notations of `String(x)` are such literals;
  * `stringToNumber_text` and `parseNumber_text`: `Number(s)` and `JSON.parse`
    give back the number that was written.
-/
import NexTalkRelay.Js.Json

namespace Js

/-! ## Digits -/

theorem foldl_decValue (s : JString) (a : ℕ) :
    s.foldl (fun n c => 10 * n + (c.toNat - 48)) a = a * 10 ^ s.length + decValue s := by
  induction s generalizing a with
  | nil => simp [decValue]
  | cons c s ih =>
    have h0 := ih (10 * 0 + (c.toNat - 48))
    have hcons : decValue (c :: s) = s.foldl (fun n c => 10 * n + (c.toNat - 48)) _ := rfl
    rw [hcons, h0, List.foldl_cons, ih, List.length_cons, pow_succ]
    ring

theorem decValue_append (s t : JString) :
    decValue (s ++ t) = decValue s * 10 ^ t.length + decValue t := by
  rw [decValue, List.foldl_append, foldl_decValue]
  rfl

theorem decValue_lt {s : JString} (h : ∀ c ∈ s, isDigit c = true) : decValue s < 10 ^ s.length := by
  induction s with
  | nil => decide
  | cons c s ih =>
    have hs := ih fun d hd => h d (List.mem_cons_of_mem _ hd)
    have hc := h c List.mem_cons_self
    simp only [isDigit, Bool.and_eq_true, decide_eq_true_eq, UInt16.le_iff_toNat_le] at hc
    simp only [UInt16.reduceToNat] at hc
    have hone : decValue [c] = c.toNat - 48 := by simp [decValue]
    rw [← List.singleton_append, decValue_append, hone, List.length_append, List.length_singleton,
      pow_add]
    have : (c.toNat - 48) * 10 ^ s.length ≤ 9 * 10 ^ s.length := Nat.mul_le_mul_right _ (by omega)
    omega

theorem mem_digits {n : ℕ} {c : UInt16} (h : c ∈ digits n) : isDigit c = true :=
  (isDigits_iff.1 (isDigits_digits n)).2 c h

/-- No leading zero. -/
theorem head_digits {n : ℕ} (h : 0 < n) : (digits n).head? ≠ some 48 := by
  intro h48
  obtain ⟨s, hs⟩ := List.head?_eq_some_iff.1 h48
  have hval : decValue s = n := by
    rw [← decValue_digits n, hs, ← List.singleton_append, decValue_append, show decValue [48] = 0 from rfl]
    omega
  have hlt : n < 10 ^ s.length := hval ▸ decValue_lt fun c hc => mem_digits (hs ▸ List.mem_cons_of_mem _ hc)
  have hpos : 0 < s.length := by
    rcases Nat.eq_zero_or_pos s.length with h0 | hpos
    · rw [h0] at hlt
      omega
    · exact hpos
  have hlen := (Nat.length_toDigits_le_iff (b := 10) (by decide) hpos).2 hlt
  have := congrArg List.length hs
  simp only [digits, List.length_map, List.length_cons] at this
  omega

/-! ## Literals -/

/-- A decimal literal without a sign: the digits before and after the point, and
    the exponent part. -/
structure Literal where
  ip : JString
  fp : JString
  ex : JString
  exp : ℤ
  ip_ne : ip ≠ []
  ip_digit : ∀ c ∈ ip, isDigit c = true
  ip_head : ip.head? = some 48 → ip.length = 1
  fp_digit : ∀ c ∈ fp, isDigit c = true
  ex_exp : exponent ex = some exp

namespace Literal

variable (l : Literal)

/-- The point and the digits after it, if there are any. -/
def point : JString := if l.fp = [] then [] else 46 :: l.fp

/-- The characters of the literal. -/
def text : JString := l.ip ++ (l.point ++ l.ex)

/-- The value of the literal. -/
def val : ℚ := decValue (l.ip ++ l.fp) * (10 : ℚ) ^ (l.exp - l.fp.length)

/-- An exponent part begins with its mark. -/
theorem ex_head {c : UInt16} (h : l.ex.head? = some c) : c = 101 ∨ c = 69 := by
  obtain ⟨s, hs⟩ := List.head?_eq_some_iff.1 h
  have hex := l.ex_exp
  rw [hs] at hex
  unfold exponent at hex
  dsimp only at hex
  by_contra hc
  rw [if_neg hc] at hex
  cases hex

theorem not_digit_ex (s : JString) (h : ∀ c ∈ s.head?, isDigit c = false) :
    ∀ c ∈ (l.ex ++ s).head?, isDigit c = false := by
  intro c hc
  cases hex : l.ex with
  | nil => exact h c (by rwa [hex, List.nil_append] at hc)
  | cons d t =>
    rw [hex, List.cons_append, List.head?_cons, Option.mem_some_iff] at hc
    rcases l.ex_head (c := c) (by rw [hex, List.head?_cons, hc]) with rfl | rfl <;> rfl

end Literal

/-- Digits are taken up to the first unit that is none. -/
theorem span_digits {s t : JString} (hs : ∀ c ∈ s, isDigit c = true)
    (ht : ∀ c ∈ t.head?, isDigit c = false) :
    (s ++ t).takeWhile isDigit = s ∧ (s ++ t).dropWhile isDigit = t := by
  rw [List.takeWhile_append_of_pos hs, List.dropWhile_append_of_pos hs]
  cases t with
  | nil => exact ⟨by simp, rfl⟩
  | cons c t =>
    have hc := ht c rfl
    simp [hc]

namespace Literal

variable (l : Literal)

theorem not_digit_point (s : JString) (h : ∀ c ∈ s.head?, isDigit c = false) :
    ∀ c ∈ (l.point ++ (l.ex ++ s)).head?, isDigit c = false := by
  unfold point
  split
  · exact l.not_digit_ex s h
  · intro c hc
    rw [List.cons_append, List.head?_cons, Option.mem_some_iff] at hc
    rw [← hc]
    rfl

theorem span_ip (s : JString) (h : ∀ c ∈ s.head?, isDigit c = false) :
    (l.text ++ s).takeWhile isDigit = l.ip ∧
      (l.text ++ s).dropWhile isDigit = l.point ++ (l.ex ++ s) := by
  have hspan := span_digits l.ip_digit (l.not_digit_point s h)
  rwa [← List.append_assoc l.point, ← List.append_assoc l.ip, List.append_assoc l.point] at hspan

/-- A point is followed by a digit. -/
theorem point_digit : (match l.point ++ l.ex with
    | 46 :: c :: _ => isDigit c
    | 46 :: [] => false
    | _ => true) = true := by
  by_cases hfp : l.fp = []
  · have hpoint : l.point = [] := if_pos hfp
    have hex {t : JString} (heq : l.ex = 46 :: t) : False := by
      have h46 : (46 : UInt16) = 101 ∨ (46 : UInt16) = 69 := l.ex_head (by rw [heq]; rfl)
      exact absurd h46 (by decide)
    rw [hpoint, List.nil_append]
    split
    · next heq => exact (hex heq).elim
    · next heq => exact (hex heq).elim
    · rfl
  · obtain ⟨c, t, ht⟩ := List.exists_cons_of_ne_nil hfp
    have hpoint : l.point ++ l.ex = 46 :: c :: (t ++ l.ex) := by
      rw [point, if_neg hfp, ht, List.cons_append, List.cons_append]
    rw [hpoint]
    exact l.fp_digit c (ht ▸ List.mem_cons_self)

theorem decimalLiteral_text :
    decimalLiteral l.text = some ((decValue (l.ip ++ l.fp) : ℤ), l.exp - l.fp.length) := by
  have hnone : ∀ c ∈ ([] : JString).head?, isDigit c = false := by simp
  obtain ⟨htake, hdrop⟩ := l.span_ip [] hnone
  rw [List.append_nil] at htake hdrop
  have hex := l.not_digit_ex [] hnone
  rw [List.append_nil] at hdrop hex
  have hip : l.ip.isEmpty = false := by simpa using l.ip_ne
  unfold decimalLiteral
  dsimp only
  rw [htake, hdrop, hip]
  simp only [Bool.false_and, Bool.false_eq_true, if_false]
  by_cases hfp : l.fp = []
  · have hpoint : l.point = [] := if_pos hfp
    rw [hpoint, List.nil_append]
    split
    · next heq =>
      have h46 : (46 : UInt16) = 101 ∨ (46 : UInt16) = 69 := l.ex_head (by rw [heq]; rfl)
      exact absurd h46 (by decide)
    · rw [l.ex_exp, hfp]
      rfl
  · obtain ⟨ht, hd⟩ := span_digits l.fp_digit hex
    have hpoint : l.point ++ l.ex = 46 :: (l.fp ++ l.ex) := by
      rw [point, if_neg hfp, List.cons_append]
    rw [hpoint]
    simp only [ht, hd, l.ex_exp, Option.map_some]

end Literal

/-! ## The notations -/

theorem exponent_plus (s : JString) :
    exponent (js "e+" ++ s) = if isDigits s then some (decValue s : ℤ) else none := rfl

theorem exponent_minus (s : JString) :
    exponent (js "e-" ++ s) = if isDigits s then some (-decValue s : ℤ) else none := rfl

theorem exponent_mark (n : ℤ) :
    exponent (js (if 0 < n then "e+" else "e-") ++ digits (n - 1).natAbs) = some (n - 1) := by
  by_cases hn : 0 < n
  · rw [if_pos hn, exponent_plus, if_pos (isDigits_digits _), decValue_digits]
    exact congrArg some (by omega)
  · rw [if_neg hn, exponent_minus, if_pos (isDigits_digits _), decValue_digits]
    exact congrArg some (by omega)

theorem mem_zeros {k : ℕ} {c : UInt16} (h : c ∈ List.replicate k (48 : UInt16)) : isDigit c = true := by
  rw [List.eq_of_mem_replicate h]
  decide

theorem decValue_zeros (k : ℕ) : decValue (List.replicate k 48) = 0 := by
  have h := Dec.decValue_append_zeros [] k
  rwa [List.nil_append, show decValue [] = 0 from rfl, Nat.zero_mul] at h

/-- **Every notation of a positive number is a literal of its value.** -/
theorem textOf_literal {m : ℕ} (hm : 0 < m) (e : ℤ) :
    ∃ l : Literal, Dec.textOf (digits m) ((digits m).length + e) = l.text ∧
      l.val = m * (10 : ℚ) ^ e := by
  have hne : digits m ≠ [] := (isDigits_iff.1 (isDigits_digits m)).1
  have hpos : 0 < (digits m).length := List.length_pos_iff.2 hne
  have hval := decValue_digits m
  have hdigit : ∀ c ∈ digits m, isDigit c = true := fun c => mem_digits
  have hhead := head_digits hm
  generalize digits m = s at hne hpos hval hdigit hhead
  have htake {k : ℕ} (hk : 0 < k) : (s.take k).head? ≠ some 48 := by
    rw [List.head?_take, if_neg (by omega)]
    exact hhead
  unfold Dec.textOf
  dsimp only
  split
  · -- without a point
    next h =>
    refine ⟨{ ip := s ++ List.replicate e.toNat 48, fp := [], ex := [], exp := 0
              ip_ne := List.append_ne_nil_of_left_ne_nil hne _
              ip_digit := fun c hc => (List.mem_append.1 hc).elim (hdigit c) mem_zeros
              ip_head := fun h48 => absurd h48 (by rwa [List.head?_append_of_ne_nil _ hne])
              fp_digit := by simp
              ex_exp := rfl }, ?_, ?_⟩
    · simp only [Literal.text, Literal.point, if_true, List.append_nil]
      rw [show ((s.length : ℤ) + e - s.length).toNat = e.toNat by omega]
    · obtain ⟨k, hk⟩ := Int.eq_ofNat_of_zero_le (show 0 ≤ e by omega)
      simp only [Literal.val, List.append_nil, hk, Int.toNat_natCast]
      rw [Dec.decValue_append_zeros, hval]
      simp
  · next h =>
    split
    · -- a point inside
      next hn =>
      obtain ⟨k, hk⟩ := Int.eq_ofNat_of_zero_le (show 0 ≤ (s.length : ℤ) + e by omega)
      rw [hk, Int.toNat_natCast]
      have hdrop : s.drop k ≠ [] := by
        rw [ne_eq, List.drop_eq_nil_iff]
        omega
      refine ⟨{ ip := s.take k, fp := s.drop k, ex := [], exp := 0
                ip_ne := by
                  rw [ne_eq, List.take_eq_nil_iff]
                  exact fun h0 => h0.elim (by omega) hne
                ip_digit := fun c hc => hdigit c (List.mem_of_mem_take hc)
                ip_head := fun h48 => absurd h48 (htake (by omega))
                fp_digit := fun c hc => hdigit c (List.mem_of_mem_drop hc)
                ex_exp := rfl }, ?_, ?_⟩
      · simp only [Literal.text, Literal.point, if_neg hdrop, List.append_nil, List.append_assoc]
        rfl
      · simp only [Literal.val, List.take_append_drop, hval, List.length_drop]
        congr 2
        omega
    · split
      · -- a point in front
        next hn =>
        obtain ⟨k, hk⟩ := Int.eq_ofNat_of_zero_le (show 0 ≤ -((s.length : ℤ) + e) by omega)
        rw [hk, Int.toNat_natCast]
        have hfp : List.replicate k 48 ++ s ≠ [] := List.append_ne_nil_of_right_ne_nil _ hne
        refine ⟨{ ip := [48], fp := List.replicate k 48 ++ s, ex := [], exp := 0
                  ip_ne := List.cons_ne_nil _ _
                  ip_digit := by simp; decide
                  ip_head := fun _ => rfl
                  fp_digit := fun c hc => (List.mem_append.1 hc).elim mem_zeros (hdigit c)
                  ex_exp := rfl }, ?_, ?_⟩
        · simp only [Literal.text, Literal.point, if_neg hfp, List.append_nil, List.append_assoc]
          rfl
        · have hzeros : [48] ++ (List.replicate k 48 ++ s) = List.replicate (k + 1) 48 ++ s := rfl
          simp only [Literal.val]
          rw [hzeros, decValue_append, decValue_zeros, hval, List.length_append,
            List.length_replicate, Nat.zero_mul, Nat.zero_add]
          congr 2
          push_cast
          omega
      · -- with an exponent
        have hex := exponent_mark ((s.length : ℤ) + e)
        split
        · next h1 =>
          refine ⟨{ ip := s, fp := [], ex := _, exp := _
                    ip_ne := hne
                    ip_digit := hdigit
                    ip_head := fun h48 => absurd h48 hhead
                    fp_digit := by simp
                    ex_exp := hex }, ?_, ?_⟩
          · simp only [Literal.text, Literal.point, if_true, List.nil_append]
          · simp only [Literal.val, List.append_nil, hval, List.length_nil]
            congr 2
            push_cast
            omega
        · next h1 =>
          have hdrop : s.drop 1 ≠ [] := by
            rw [ne_eq, List.drop_eq_nil_iff]
            omega
          refine ⟨{ ip := s.take 1, fp := s.drop 1, ex := _, exp := _
                    ip_ne := by
                      rw [ne_eq, List.take_eq_nil_iff]
                      exact fun h0 => h0.elim (by omega) hne
                    ip_digit := fun c hc => hdigit c (List.mem_of_mem_take hc)
                    ip_head := fun h48 => absurd h48 (htake (by omega))
                    fp_digit := fun c hc => hdigit c (List.mem_of_mem_drop hc)
                    ex_exp := hex }, ?_, ?_⟩
          · simp only [Literal.text, Literal.point, if_neg hdrop, List.append_assoc]
            rfl
          · simp only [Literal.val, List.take_append_drop, hval, List.length_drop]
            congr 2
            push_cast [Nat.cast_sub (show 1 ≤ s.length by omega)]
            omega

/-! ## Round trip -/

namespace Dec

theorem eq_of_mant_eq {a b : Dec} {k : ℕ} (hexp : b.exp = a.exp + k)
    (hmant : a.mant = b.mant * 10 ^ k) : a = b := by
  obtain ⟨m, e, hcanon⟩ := a
  obtain ⟨m', e', hcanon'⟩ := b
  dsimp only at hexp hmant
  cases k with
  | zero =>
    obtain rfl : m = m' := by simpa using hmant
    obtain rfl : e' = e := by simpa using hexp
    rfl
  | succ k =>
    rw [pow_succ, ← mul_assoc] at hmant
    rcases hcanon with hne | ⟨rfl, rfl⟩
    · omega
    · have hm' : m' = 0 := by
        rcases mul_eq_zero.1 hmant.symm with h | h
        · exact (mul_eq_zero.1 h).resolve_right (by positivity)
        · omega
      rcases hcanon' with hne | ⟨-, rfl⟩
      · omega
      · omega

/-- A decimal is determined by its value. -/
theorem val_injective {a b : Dec} (h : a.val = b.val) : a = b := by
  have hle {a b : Dec} (h : a.val = b.val) (he : a.exp ≤ b.exp) : a = b := by
    obtain ⟨k, hk⟩ := Int.eq_ofNat_of_zero_le (show 0 ≤ b.exp - a.exp by omega)
    refine eq_of_mant_eq (k := k) (by omega) ?_
    rw [val_eq, val_eq, ← mul_zpow_of_le he, hk, Int.toNat_natCast] at h
    exact_mod_cast mul_right_cancel₀ (zpow_ne_zero _ (by norm_num)) h
  rcases le_total a.exp b.exp with he | he
  · exact hle h he
  · exact (hle h.symm he).symm

end Dec

namespace Literal

/-- A literal begins with a digit. -/
theorem text_cons (l : Literal) : ∃ c s, l.text = c :: s ∧ isDigit c = true := by
  obtain ⟨c, s, hs⟩ := List.exists_cons_of_ne_nil l.ip_ne
  exact ⟨c, s ++ (l.point ++ l.ex), by rw [text, hs, List.cons_append],
    l.ip_digit c (hs ▸ List.mem_cons_self)⟩

/-- `Number(s)` of a literal, with a sign or without. -/
def number (l : Literal) (negative : Bool) : Dec :=
  .ofDigits (if negative then -(decValue (l.ip ++ l.fp) : ℤ) else decValue (l.ip ++ l.fp))
    (l.exp - l.fp.length)

theorem val_number (l : Literal) (negative : Bool) :
    (l.number negative).val = if negative then -l.val else l.val := by
  unfold number val
  rw [Dec.val_ofDigits]
  split
  · push_cast
    ring
  · push_cast
    rfl

end Literal

theorem isNumChar_spec {c : UInt16} (h : Dec.isNumChar c = true) :
    isSpace c = false ∧ ¬(c = 120 ∨ c = 88) ∧ ¬(c = 111 ∨ c = 79) ∧ ¬(c = 98 ∨ c = 66) := by
  simp only [Dec.isNumChar, isDigit, Bool.or_eq_true, Bool.and_eq_true, decide_eq_true_eq, beq_iff_eq,
    UInt16.le_iff_toNat_le, ← UInt16.toNat_inj] at h
  simp [isSpace, UInt16.le_iff_toNat_le, ← UInt16.toNat_inj] at *
  omega

theorem trim_of_isNumChar {s : JString} (h : ∀ c ∈ s, Dec.isNumChar c = true) : trim s = s := by
  have hdrop : ∀ t : JString, (∀ c ∈ t, Dec.isNumChar c = true) → t.dropWhile isSpace = t := by
    intro t ht
    cases t with
    | nil => rfl
    | cons c t => rw [List.dropWhile_cons, if_neg (by simp [(isNumChar_spec (ht c (by simp))).1])]
  rw [trim, hdrop s h, hdrop _ fun c hc => h c (List.mem_reverse.1 hc), List.reverse_reverse]

theorem stringToNumber_literal {l : Literal} (h : ∀ c ∈ l.text, Dec.isNumChar c = true) :
    stringToNumber l.text = .fin (l.number false) ∧
      stringToNumber (45 :: l.text) = .fin (l.number true) := by
  obtain ⟨c, s, hs, hc⟩ := l.text_cons
  have hlit := l.decimalLiteral_text
  rw [hs] at h hlit ⊢
  have hinf : c :: s ≠ js "Infinity" := by
    intro heq
    rw [(List.cons.inj heq).1] at hc
    revert hc
    decide
  constructor
  · unfold stringToNumber
    rw [trim_of_isNumChar h]
    split
    · next heq => cases heq
    · next heq =>
      rw [(List.cons.inj heq).1] at hc
      cases hc
    · next heq =>
      rw [(List.cons.inj heq).1] at hc
      cases hc
    · next d u heq =>
      obtain ⟨-, hx, ho, hb⟩ := isNumChar_spec (h d (by rw [heq]; simp))
      rw [if_neg hx, if_neg ho, if_neg hb, ← heq]
      dsimp only
      rw [if_neg hinf, hlit]
      rfl
    · dsimp only
      rw [if_neg hinf, hlit]
      rfl
  · have hminus : ∀ d ∈ 45 :: c :: s, Dec.isNumChar d = true := by
      intro d hd
      rcases List.mem_cons.1 hd with rfl | hd
      · rfl
      · exact h d hd
    unfold stringToNumber
    rw [trim_of_isNumChar hminus]
    refine (if_neg hinf).trans ?_
    rw [hlit]
    rfl

/-- The text of a number, taken apart. -/
theorem text_literal (a : Dec) :
    ∃ (l : Literal) (negative : Bool), a.text = (if negative then [45] else []) ++ l.text ∧
      l.number negative = a := by
  by_cases h0 : a.mant = 0
  · refine ⟨{ ip := [48], fp := [], ex := [], exp := 0, ip_ne := List.cons_ne_nil _ _
              ip_digit := by simp; decide
              ip_head := fun _ => rfl, fp_digit := by simp, ex_exp := rfl }, false, ?_, ?_⟩
    · unfold Dec.text
      rw [if_pos h0]
      rfl
    · refine Dec.val_injective ?_
      rw [Literal.val_number, Dec.val_eq_zero.2 h0]
      simp [Literal.val, decValue]
  · obtain ⟨l, hl, hval⟩ := textOf_literal (m := a.mant.natAbs) (by omega) a.exp
    refine ⟨l, decide (a.mant < 0), ?_, Dec.val_injective ?_⟩
    · unfold Dec.text
      rw [if_neg h0]
      dsimp only
      rw [hl]
      by_cases hneg : a.mant < 0
      · rw [if_pos hneg, if_pos (decide_eq_true hneg)]
        rfl
      · rw [if_neg hneg, if_neg (by simpa using hneg)]
    · rw [Literal.val_number, hval, Dec.val_eq, Nat.cast_natAbs]
      by_cases hneg : a.mant < 0
      · rw [if_pos (decide_eq_true hneg), abs_of_neg hneg]
        push_cast
        ring
      · rw [if_neg (by simpa using hneg), abs_of_nonneg (not_lt.1 hneg)]

/-- **`Number(String(x))` is `x`.** -/
theorem stringToNumber_text (a : Dec) : stringToNumber a.text = .fin a := by
  obtain ⟨l, negative, htext, hnumber⟩ := text_literal a
  have hchars : ∀ c ∈ l.text, Dec.isNumChar c = true := fun c hc =>
    a.isNumChar_text c (htext ▸ List.mem_append_right _ hc)
  obtain ⟨hplus, hminus⟩ := stringToNumber_literal hchars
  rw [htext, ← hnumber]
  cases negative with
  | false => exact hplus
  | true => exact hminus

/-- The text is not continued by a character of numbers. -/
def NumberEnds (s : JString) : Prop := ∀ c ∈ s.head?, Dec.isNumChar c = false ∧ c ≠ 69

/-- **`JSON.parse` reads a number as it was written.** -/
theorem parseNumber_text (a : Dec) {s : JString} (h : NumberEnds s) :
    Json.parseNumber (a.text ++ s) = some (.fin a, s) := by
  have hnum := stringToNumber_text a
  have hchars := a.isNumChar_text
  obtain ⟨l, negative, htext, -⟩ := text_literal a
  set p : UInt16 → Bool := fun c => isDigit c || c == 43 || c == 45 || c == 46 || c == 101 || c == 69
    with hp
  have hpos : ∀ c ∈ a.text, p c = true := fun c hc => by
    simpa only [hp, Dec.isNumChar, Bool.or_eq_true] using Or.inl (hchars c hc)
  have hends : s.takeWhile p = [] ∧ s.dropWhile p = s := by
    cases s with
    | nil => exact ⟨rfl, rfl⟩
    | cons c s =>
      obtain ⟨hc, h69⟩ := h c rfl
      have hpc : p c = false := by
        simp only [hp, Dec.isNumChar] at hc ⊢
        rw [hc, Bool.false_or]
        simpa using h69
      simp [hpc]
  have hlit : (a.text ++ s).takeWhile p = a.text := by
    rw [List.takeWhile_append_of_pos hpos, hends.1, List.append_nil]
  have hrest : (a.text ++ s).dropWhile p = s := by
    rw [List.dropWhile_append_of_pos hpos, hends.2]
  have hbody : (if a.text.head? = some 45 then a.text.drop 1 else a.text) = l.text := by
    obtain ⟨c, t, ht, hc⟩ := l.text_cons
    rw [htext]
    cases negative with
    | false =>
      refine if_neg fun h45 => ?_
      simp only [Bool.false_eq_true, if_false, List.nil_append, ht, List.head?_cons,
        Option.some.injEq] at h45
      rw [h45] at hc
      cases hc
    | true => rfl
  obtain ⟨htake, hdrop⟩ := l.span_ip [] (by simp)
  rw [List.append_nil] at htake hdrop
  rw [List.append_nil] at hdrop
  have hzero : (decide (l.ip.head? = some 48) && decide (1 < l.ip.length)) = false := by
    by_cases h48 : l.ip.head? = some 48
    · simp [l.ip_head h48]
    · simp [h48]
  have hne : l.ip.isEmpty = false := by simpa using l.ip_ne
  unfold Json.parseNumber
  dsimp only
  rw [hlit, hbody, htake, hdrop, hnum, hrest, hzero, hne]
  exact if_neg (Bool.eq_false_iff.1 (congrArg not l.point_digit))

end Js
