/-
  JSON values as the programs see them.

  A missing property is `undefined`, here `none : Option Json`.

  * `field` is property access, `truthy` the test that `if (x)` makes;
  * `toStr` and `toNumber` are the conversions `String(x)` and `Number(x)`;
    `none` means that they throw;
  * `stringify` is `JSON.stringify` and `parse` is `JSON.parse`.
-/
import NexTalkRelay.Js.Number

namespace Js

/-- A JSON value.  The properties of an object have distinct keys. -/
inductive Json where
  | null
  | bool (b : Bool)
  | num (n : Number)
  | str (s : JString)
  | arr (xs : List Json)
  | obj (ps : List (JString × Json))

namespace Json

/-! ## Access and conversion -/

/-- `x.key`, or a property picked by destructuring; values other than objects
    have none of the keys that the programs ask for. -/
def field (v : Json) (key : JString) : Option Json :=
  match v with
  | obj ps => (ps.find? fun p => p.1 == key).map Prod.snd
  | _ => none

/-- The truth value of `x`. -/
def truthy : Option Json → Bool
  | none | some null => false
  | some (bool b) => b
  | some (num n) => n.truthy
  | some (str s) => !s.isEmpty
  | some (arr _) | some (obj _) => true

/-- `x` if `typeof x === "string"` -/
def asStr? : Option Json → Option JString
  | some (str s) => some s
  | _ => none

/-- The elements of `x` if `Array.isArray(x)` -/
def asArr? : Option Json → Option (List Json)
  | some (arr xs) => some xs
  | _ => none

/-- Join texts by a separator. -/
def join (sep : JString) : List JString → JString
  | [] => []
  | [s] => s
  | s :: ss => s ++ sep ++ join sep ss

mutual
/-- `String(x)`; an object whose own `toString` hides the inherited one has no
    text. -/
def toStr : Json → Option JString
  | null => some (js "null")
  | bool b => some (js (if b then "true" else "false"))
  | num n => some n.text
  | str s => some s
  | arr xs => (elemStrs xs).map (join (js ","))
  | obj ps => if ps.any fun p => p.1 == js "toString" then none else some (js "[object Object]")

/-- The texts of the elements of an array; `null` counts as the empty text. -/
def elemStrs : List Json → Option (List JString)
  | [] => some []
  | null :: xs => (elemStrs xs).map ([] :: ·)
  | x :: xs => do
    let s ← toStr x
    let ss ← elemStrs xs
    return s :: ss
end

/-- `Number(x)` -/
def toNumber : Json → Option Number
  | null => some (.ofInt 0)
  | bool b => some (.ofInt (if b then 1 else 0))
  | num n => some n
  | str s => some (stringToNumber s)
  | v => (toStr v).map stringToNumber

/-! ## `JSON.stringify` -/

/-- A code unit inside a quoted string. -/
def quoteUnit (c : UInt16) : JString :=
  if c = 34 then js "\\\""
  else if c = 92 then js "\\\\"
  else if c = 8 then js "\\b"
  else if c = 9 then js "\\t"
  else if c = 10 then js "\\n"
  else if c = 12 then js "\\f"
  else if c = 13 then js "\\r"
  else if c < 32 || isHighSurrogate c || isLowSurrogate c then
    js "\\u" ++ hexByte (UInt8.ofNat (c.toNat / 256)) ++ hexByte (UInt8.ofNat (c.toNat % 256))
  else [c]

/-- The units of a quoted string: a surrogate pair is written as it is. -/
def quoteUnits : JString → JString
  | [] => []
  | [c] => quoteUnit c
  | c :: d :: s =>
    if isHighSurrogate c && isLowSurrogate d then c :: d :: quoteUnits s
    else quoteUnit c ++ quoteUnits (d :: s)

/-- A string in quotation marks. -/
def quote (s : JString) : JString := js "\"" ++ quoteUnits s ++ js "\""

/-- The key is an array index, which an object lists before its other keys. -/
def isIndex (key : JString) : Bool :=
  isDigits key && (key == digits (decValue key)) && decide (decValue key < 2 ^ 32 - 1)

/-- The properties of an object in the order in which it lists them. -/
def inOrder {α : Type} (ps : List (JString × α)) : List (JString × α) :=
  (ps.filter fun p => isIndex p.1).mergeSort (fun p q => decValue p.1 ≤ decValue q.1) ++
    ps.filter fun p => !isIndex p.1

mutual
/-- `JSON.stringify(x)` -/
def stringify : Json → JString
  | null => js "null"
  | bool b => js (if b then "true" else "false")
  | num n => if n.isFinite then n.text else js "null"
  | str s => quote s
  | arr xs => js "[" ++ join (js ",") (elemTexts xs) ++ js "]"
  | obj ps =>
    js "\x7b" ++ join (js ",") ((inOrder (propTexts ps)).map fun p => quote p.1 ++ js ":" ++ p.2) ++
      js "\x7d"

/-- The texts of the elements of an array. -/
def elemTexts : List Json → List JString
  | [] => []
  | x :: xs => stringify x :: elemTexts xs

/-- The texts of the members of an object. -/
def propTexts : List (JString × Json) → List (JString × JString)
  | [] => []
  | p :: ps => (p.1, stringify p.2) :: propTexts ps
end

/-! ## `JSON.parse` -/

/-- White space between tokens. -/
def skipSpace (s : JString) : JString :=
  s.dropWhile fun c => c == 32 || c == 9 || c == 10 || c == 13

/-- The rest after a fixed word. -/
def expect (w s : JString) : Option JString := if w.isPrefixOf s then some (s.drop w.length) else none

/-- The rest of a string literal after its opening quote. -/
def parseString (fuel : ℕ) (acc s : JString) : Option (JString × JString) :=
  match fuel, s with
  | _, [] | 0, _ => none
  | _ + 1, 34 :: s => some (acc.reverse, s)
  | fuel + 1, 92 :: c :: s =>
    if c = 117 then
      match s with
      | a :: b :: d :: e :: s => do
        let a ← hexVal a
        let b ← hexVal b
        let d ← hexVal d
        let e ← hexVal e
        parseString fuel (UInt16.ofNat (((a * 16 + b) * 16 + d) * 16 + e) :: acc) s
      | _ => none
    else if c = 34 ∨ c = 92 ∨ c = 47 then parseString fuel (c :: acc) s
    else if c = 98 then parseString fuel (8 :: acc) s
    else if c = 102 then parseString fuel (12 :: acc) s
    else if c = 110 then parseString fuel (10 :: acc) s
    else if c = 114 then parseString fuel (13 :: acc) s
    else if c = 116 then parseString fuel (9 :: acc) s
    else none
  | fuel + 1, c :: s => if c < 32 ∨ c = 92 then none else parseString fuel (c :: acc) s

/-- A number literal: no leading zeros, digits on both sides of the point. -/
def parseNumber (s : JString) : Option (Number × JString) :=
  let isNumChar (c : UInt16) : Bool := isDigit c || c == 43 || c == 45 || c == 46 || c == 101 || c == 69
  let lit := s.takeWhile isNumChar
  let body := if lit.head? = some 45 then lit.drop 1 else lit
  let ip := body.takeWhile isDigit
  let r := body.dropWhile isDigit
  let point := match r with
    | 46 :: c :: _ => isDigit c
    | 46 :: [] => false
    | _ => true
  if ip.isEmpty || (ip.head? = some 48 && decide (1 < ip.length)) || !point then none
  else match stringToNumber lit with
    | .nan => none
    | n => some (n, s.dropWhile isNumChar)

/-- Add a property; a key that is there already gets the new value. -/
def setProp (ps : List (JString × Json)) (k : JString) (v : Json) : List (JString × Json) :=
  if ps.any fun p => p.1 == k then ps.map fun p => if p.1 == k then (k, v) else p
  else ps ++ [(k, v)]

mutual
/-- A value and the rest of the text. -/
def parseValue : ℕ → JString → Option (Json × JString)
  | 0, _ => none
  | fuel + 1, s =>
    match skipSpace s with
    | 110 :: s => (expect (js "ull") s).map fun s => (null, s)
    | 116 :: s => (expect (js "rue") s).map fun s => (bool true, s)
    | 102 :: s => (expect (js "alse") s).map fun s => (bool false, s)
    | 34 :: s => (parseString (s.length + 1) [] s).map fun p => (str p.1, p.2)
    | 91 :: s =>
      match skipSpace s with
      | 93 :: s => some (arr [], s)
      | s => parseElems fuel [] s
    | 123 :: s =>
      match skipSpace s with
      | 125 :: s => some (obj [], s)
      | s => parseMembers fuel [] s
    | s => (parseNumber s).map fun p => (num p.1, p.2)

/-- The elements of an array after those in `acc`. -/
def parseElems : ℕ → List Json → JString → Option (Json × JString)
  | 0, _, _ => none
  | fuel + 1, acc, s => do
    let (v, s) ← parseValue fuel s
    match skipSpace s with
    | 44 :: s => parseElems fuel (acc ++ [v]) s
    | 93 :: s => some (arr (acc ++ [v]), s)
    | _ => none

/-- The members of an object after those in `acc`. -/
def parseMembers : ℕ → List (JString × Json) → JString → Option (Json × JString)
  | 0, _, _ => none
  | fuel + 1, acc, s => do
    let s ← expect (js "\"") (skipSpace s)
    let (k, s) ← parseString (s.length + 1) [] s
    let s ← expect (js ":") (skipSpace s)
    let (v, s) ← parseValue fuel s
    match skipSpace s with
    | 44 :: s => parseMembers fuel (setProp acc k v) s
    | 125 :: s => some (obj (setProp acc k v), s)
    | _ => none
end

/-- `JSON.parse(s)`; `none` means that it throws.  Every level of nesting takes
    a character, so that the length of the text bounds the recursion. -/
def parse (s : JString) : Option Json := do
  let (v, s) ← parseValue (2 * s.length + 1) s
  if (skipSpace s).isEmpty then some v else none

end Json

end Js
