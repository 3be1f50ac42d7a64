/-
  Fields of requests that a handler tests against a pattern.

  * `HexStr lo hi` is a text that matches `/^[0-9a-f]{lo,hi}$/i`, `DigitStr`
    one that matches `/^\d+$/`;
  * `hexField` reads a field that must also be a string;
  * `testedField` reads a field whose type the handler does not ask for: the
    pattern is then applied to the text of the value, and `Tested.str?` is
    empty where the value is no string, so that `x.toLowerCase()` throws.
-/
import NexTalkRelay.Js.Json
import NexTalkRelay.Lib.Check

open Effect

namespace Js

/-- A text that matches `/^[0-9a-f]{lo,hi}$/i`. -/
def HexStr (lo hi : ℕ) : Type := {s : JString // isHexOf lo hi s = true}

namespace HexStr

variable {lo hi : ℕ}

instance : DecidableEq (HexStr lo hi) := inferInstanceAs (DecidableEq (Subtype _))

/-- The text, if it passes the test. -/
def parse (lo hi : ℕ) (s : JString) : Option (HexStr lo hi) :=
  if h : isHexOf lo hi s = true then some ⟨s, h⟩ else none

/-- `s.toLowerCase()` -/
def lower (s : HexStr lo hi) : JString := toLowerCase s.1

theorem parse_eq_some {s : JString} {x : HexStr lo hi} : parse lo hi s = some x ↔ s = x.1 := by
  obtain ⟨x, hx⟩ := x
  unfold parse
  constructor
  · intro h
    split at h
    · exact congrArg Subtype.val (Option.some.inj h)
    · cases h
  · rintro rfl; rw [dif_pos hx]

theorem isHexOf_lower (s : HexStr lo hi) : isHexOf lo hi s.lower = true := isHexOf_toLowerCase s.2

theorem colon_notMem_lower (s : HexStr lo hi) : colon ∉ s.lower :=
  colon_notMem_of_isHexOf s.isHexOf_lower

theorem ne_nil (hlo : 0 < lo) (s : HexStr lo hi) : s.1 ≠ [] := by
  intro hs
  have hlen := (isHexOf_iff.1 s.2).1
  rw [hs] at hlen
  exact absurd hlen (Nat.not_le.2 hlo)

@[simp] theorem toLowerCase_lower (s : HexStr lo hi) : toLowerCase s.lower = s.lower :=
  toLowerCase_toLowerCase _

end HexStr

/-- A text that matches `/^\d+$/`. -/
def DigitStr : Type := {s : JString // isDigits s = true}

/-- The text, if it has digits only. -/
def DigitStr.parse (s : JString) : Option DigitStr := if h : isDigits s = true then some ⟨s, h⟩ else none

/-- `Number(s)` -/
def DigitStr.toNumber (s : DigitStr) : Number := stringToNumber s.1

theorem DigitStr.toNumber_eq (s : DigitStr) : s.toNumber = .ofInt (decValue s.1) :=
  stringToNumber_of_isDigits s.2

theorem DigitStr.colon_notMem (s : DigitStr) : colon ∉ s.1 := colon_notMem_of_isDigits s.2

theorem DigitStr.parse_eq_some {s : JString} {x : DigitStr} : parse s = some x ↔ s = x.1 := by
  obtain ⟨x, hx⟩ := x
  unfold parse
  constructor
  · intro h
    split at h
    · exact congrArg Subtype.val (Option.some.inj h)
    · cases h
  · rintro rfl; rw [dif_pos hx]

/-- The distance of a timestamp from the clock, `Math.abs(nowMs - tsMs)`. -/
def clockSkew (now : ℕ) (timestamp : DigitStr) : Number :=
  ((Number.ofInt now).add timestamp.toNumber.neg).abs

theorem clockSkew_val (t : ℕ) (ts : DigitStr) :
    ∃ d, clockSkew t ts = .fin d ∧ d.val = |(t : ℚ) - decValue ts.1| := by
  obtain ⟨d, hd, hv⟩ := Number.abs_fin
    ((Dec.ofDigits t 0).add (Dec.ofDigits (decValue ts.1 : ℕ) 0).neg)
  refine ⟨d, ?_, ?_⟩
  · rw [clockSkew, DigitStr.toNumber_eq]; exact hd
  · rw [hv]; simp [sub_eq_add_neg]

/-! ## Reading fields -/

/-- A string field that must match `/^[0-9a-f]{lo,hi}$/i`. -/
def hexField (lo hi : ℕ) (v : Option Json) : Option (HexStr lo hi) :=
  (Json.asStr? v).bind (HexStr.parse lo hi)

theorem hexField_eq_some {lo hi : ℕ} {v : Option Json} {x : HexStr lo hi} :
    hexField lo hi v = some x ↔ v = some (.str x.1) := by
  unfold hexField Json.asStr?
  split
  · simp [HexStr.parse_eq_some]
  · next h => simp only [Option.bind_none, reduceCtorEq, false_iff]; exact fun hv => h _ hv

/-- A value whose text has passed a pattern. -/
structure Tested (α : Type) where
  val : α
  isString : Bool

/-- The value where a string is needed. -/
def Tested.str? {α : Type} (x : Tested α) : Option α := if x.isString then some x.val else none

/-- `if (!v || !pattern.test(v)) return r` -/
def testedField {ρ α : Type} (pattern : JString → Option α) (v : Option Json) (r : ρ) :
    Check ρ (Tested α) := do
  let v ← Check.orAnswer (v.filter fun v => Json.truthy (some v)) r
  let s ← Check.orCrash v.toStr
  let a ← Check.orAnswer (pattern s) r
  return { val := a, isString := (Json.asStr? (some v)).isSome }

/-- A string that passes the pattern is its own value. -/
theorem testedField_str {ρ α : Type} {pattern : JString → Option α} {v : Option Json} {r : ρ}
    {x : Tested α} {a : α} (h : testedField pattern v r = .ok x) (ha : x.str? = some a) :
    ∃ s, v = some (.str s) ∧ pattern s = some a := by
  simp only [testedField, Check.orAnswer_bind, Check.orCrash_bind] at h
  obtain ⟨w, hw, s, hs, b, hb, hx⟩ := h
  cases hx
  rw [Option.filter_eq_some_iff] at hw
  unfold Tested.str? at ha
  split at ha
  · next hstr =>
    cases w <;> simp [Json.asStr?] at hstr
    simp only [Json.toStr, Option.some.injEq] at hs ha
    exact ⟨s, by rw [hw.1, hs], by rw [hb, ha]⟩
  · cases ha

/-- A string that is not empty and matches passes as itself. -/
theorem testedField_ok {ρ α : Type} {pattern : JString → Option α} {s : JString} {a : α} (r : ρ)
    (hs : s ≠ []) (ha : pattern s = some a) :
    testedField pattern (some (.str s)) r = .ok { val := a, isString := true } := by
  have hne : s.isEmpty = false := by simpa using hs
  unfold testedField
  rw [Option.filter_some, if_pos (by simp [Json.truthy, hne])]
  simp only [Check.orAnswer, Check.orCrash, Json.toStr, bind, Except.bind, ha]
  rfl

theorem testedField_hex {ρ : Type} {lo hi : ℕ} (hlo : 0 < lo) (x : HexStr lo hi) (r : ρ) :
    testedField (HexStr.parse lo hi) (some (.str x.1)) r = .ok { val := x, isString := true } :=
  testedField_ok r (x.ne_nil hlo) (HexStr.parse_eq_some.2 rfl)

theorem testedField_timestamp {ρ : Type} (d : DigitStr) (r : ρ) :
    testedField DigitStr.parse (some (.str d.1)) r = .ok { val := d, isString := true } :=
  testedField_ok r (isDigits_iff.1 d.2).1 (DigitStr.parse_eq_some.2 rfl)

/-- What has passed the pattern is the text of the field. -/
theorem testedField_toStr {ρ α : Type} {pattern : JString → Option α} {v : Option Json} {r : ρ}
    {x : Tested α} (h : testedField pattern v r = .ok x) :
    ∃ s, v.bind Json.toStr = some s ∧ pattern s = some x.val := by
  simp only [testedField, Check.orAnswer_bind, Check.orCrash_bind] at h
  obtain ⟨w, hw, s, hs, b, hb, hx⟩ := h
  cases hx
  rw [Option.filter_eq_some_iff] at hw
  rw [hw.1]
  exact ⟨s, hs, hb⟩

theorem testedField_answers {ρ α : Type} {Q : ρ → Prop} {r : ρ} (h : Q r)
    (pattern : JString → Option α) (v : Option Json) : (testedField pattern v r).Answers Q :=
  (Check.answers_orAnswer h _).bind fun _ => (Check.answers_orCrash Q _).bind fun _ =>
    (Check.answers_orAnswer h _).bind fun _ => Check.answers_ok Q _

end Js
