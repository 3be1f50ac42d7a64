/-
  Text of the JavaScript programs: strings of UTF-16 code units, the patterns
  that the handlers test them against, hexadecimal, and the bytes that
  `TextEncoder` makes of them.

  * `js` is a string literal of the source, `digits n` the text of a natural
    number;
  * `isHexOf lo hi` is the pattern `/^[0-9a-f]{lo,hi}$/i`, `isDigits` is
    `/^\d+$/`, `isHttpUrl` is `/^https?:\/\/\S+$/i`;
  * `bytesToHex` and `parseHexPair` are the two directions of hexadecimal;
  * `encode` is `TextEncoder`: a text that starts with ASCII fields determines
    them by its bytes (`encode_eq_ascii_append`).
-/
import Mathlib.Data.List.Basic
import Mathlib.Data.Nat.Notation
import Mathlib.Tactic.Common

/-- A JavaScript string: its UTF-16 code units. -/
abbrev JString := List UInt16

/-- The contents of a `Uint8Array`. -/
abbrev Bytes := List UInt8

namespace Js

/-- The code units of a code point. -/
def units (c : Char) : JString :=
  if c.toNat < 0x10000 then [UInt16.ofNat c.toNat]
  else [UInt16.ofNat (0xD800 + (c.toNat - 0x10000) / 0x400),
        UInt16.ofNat (0xDC00 + (c.toNat - 0x10000) % 0x400)]

/-- A string literal. -/
def js (s : String) : JString := s.toList.flatMap units

/-- The code unit of `:`, which separates the fields of every signed text. -/
def colon : UInt16 := 58

/-- The text of a natural number, `String(n)`. -/
def digits (n : ℕ) : JString := (Nat.toDigits 10 n).map fun c => UInt16.ofNat c.toNat

/-! ## Patterns -/

/-- `[0-9]`. -/
def isDigit (c : UInt16) : Bool := 48 ≤ c && c ≤ 57

/-- `[0-9a-fA-F]`. -/
def isHexDigit (c : UInt16) : Bool := isDigit c || (97 ≤ c && c ≤ 102) || (65 ≤ c && c ≤ 70)

/-- The pattern `/^[0-9a-f]{lo,hi}$/i`. -/
def isHexOf (lo hi : ℕ) (s : JString) : Bool :=
  decide (lo ≤ s.length) && decide (s.length ≤ hi) && s.all isHexDigit

/-- The pattern `/^\d+$/`. -/
def isDigits (s : JString) : Bool := !s.isEmpty && s.all isDigit

/-- The pattern `\s`: white space and line terminators. -/
def isSpace (c : UInt16) : Bool :=
  (9 ≤ c && c ≤ 13) || c == 32 || c == 0xA0 || c == 0x1680 || (0x2000 ≤ c && c ≤ 0x200A) ||
    c == 0x2028 || c == 0x2029 || c == 0x202F || c == 0x205F || c == 0x3000 || c == 0xFEFF

/-- Lower case of a code unit.  The programs only lower hexadecimal text, so
    only ASCII letters are mapped. -/
def lowerUnit (c : UInt16) : UInt16 := if 65 ≤ c && c ≤ 90 then c + 32 else c

/-- `toLowerCase`, which changes ASCII letters only here. -/
def toLowerCase (s : JString) : JString := s.map lowerUnit

/-- The pattern `/^https?:\/\/\S+$/i`. -/
def isHttpUrl (s : JString) : Bool :=
  let s' := toLowerCase s
  let host (p : JString) : Bool :=
    p.isPrefixOf s' && decide (p.length < s.length) && (s.drop p.length).all fun c => !isSpace c
  host (js "http://") || host (js "https://")

/-- `s.trim()`. -/
def trim (s : JString) : JString :=
  ((s.dropWhile isSpace).reverse.dropWhile isSpace).reverse

/-! ### Characters of the tested texts -/

theorem lowerUnit_lowerUnit (c : UInt16) : lowerUnit (lowerUnit c) = lowerUnit c := by
  simp only [lowerUnit, Bool.and_eq_true, decide_eq_true_eq, UInt16.le_iff_toNat_le]
  split
  · simp_all [UInt16.toNat_add]; omega
  · simp_all

theorem isHexDigit_lowerUnit {c : UInt16} (h : isHexDigit c = true) :
    isHexDigit (lowerUnit c) = true := by
  simp only [lowerUnit, isHexDigit, isDigit, Bool.or_eq_true, Bool.and_eq_true, decide_eq_true_eq,
    UInt16.le_iff_toNat_le] at *
  split
  · simp_all [UInt16.toNat_add]; omega
  · simp_all

theorem isHexDigit_of_lowerUnit {c : UInt16} (h : isHexDigit (lowerUnit c) = true) :
    isHexDigit c = true := by
  unfold lowerUnit at h
  split at h
  · next hup =>
    simp only [isHexDigit, isDigit, Bool.or_eq_true, Bool.and_eq_true, decide_eq_true_eq,
      UInt16.le_iff_toNat_le] at *
    simp [UInt16.toNat_add] at *
    omega
  · exact h

theorem isHexDigit_of_isDigit {c : UInt16} (h : isDigit c = true) : isHexDigit c = true := by
  simp [isHexDigit, h]

theorem ne_colon_of_isHexDigit {c : UInt16} (h : isHexDigit c = true) : c ≠ colon := by
  rintro rfl; revert h; decide

@[simp] theorem toLowerCase_toLowerCase (s : JString) :
    toLowerCase (toLowerCase s) = toLowerCase s := by
  simp [toLowerCase, lowerUnit_lowerUnit]

@[simp] theorem length_toLowerCase (s : JString) : (toLowerCase s).length = s.length := by
  simp [toLowerCase]

theorem isHexOf_iff {lo hi : ℕ} {s : JString} :
    isHexOf lo hi s = true ↔ lo ≤ s.length ∧ s.length ≤ hi ∧ ∀ c ∈ s, isHexDigit c = true := by
  simp [isHexOf, and_assoc]

theorem isHexOf_toLowerCase {lo hi : ℕ} {s : JString} (h : isHexOf lo hi s = true) :
    isHexOf lo hi (toLowerCase s) = true := by
  obtain ⟨h1, h2, h3⟩ := isHexOf_iff.1 h
  refine isHexOf_iff.2 ⟨by simpa using h1, by simpa using h2, fun c hc => ?_⟩
  obtain ⟨d, hd, rfl⟩ := List.mem_map.1 hc
  exact isHexDigit_lowerUnit (h3 d hd)

/-- A hexadecimal text has no `:`. -/
theorem colon_notMem_of_isHexOf {lo hi : ℕ} {s : JString} (h : isHexOf lo hi s = true) :
    colon ∉ s :=
  fun m => ne_colon_of_isHexDigit ((isHexOf_iff.1 h).2.2 _ m) rfl

theorem isDigits_iff {s : JString} :
    isDigits s = true ↔ s ≠ [] ∧ ∀ c ∈ s, isDigit c = true := by
  simp [isDigits]

theorem colon_notMem_of_isDigits {s : JString} (h : isDigits s = true) : colon ∉ s :=
  fun m => ne_colon_of_isHexDigit (isHexDigit_of_isDigit ((isDigits_iff.1 h).2 _ m)) rfl

theorem isDigits_digits (n : ℕ) : isDigits (digits n) = true := by
  refine isDigits_iff.2 ⟨by simp [digits, Nat.toDigits_ne_nil], fun c hc => ?_⟩
  obtain ⟨d, hd, rfl⟩ := List.mem_map.1 hc
  have := Nat.isDigit_of_mem_toDigits (by decide) (by decide) hd
  simp only [Char.isDigit, Bool.and_eq_true, decide_eq_true_eq] at this
  simp only [isDigit, Bool.and_eq_true, decide_eq_true_eq, UInt16.le_iff_toNat_le]
  have h1 : 48 ≤ d.toNat := this.1
  have h2 : d.toNat ≤ 57 := this.2
  simp; omega

/-- The number that a text of decimal digits writes, `Number(s)`. -/
def decValue (s : JString) : ℕ := s.foldl (fun n c => 10 * n + (c.toNat - 48)) 0

theorem decValue_digits (n : ℕ) : decValue (digits n) = n := by
  have hfold : ∀ (cs : List Char) (a : ℕ), (∀ c ∈ cs, c.isDigit = true) →
      cs.foldl (fun n c => 10 * n + ((UInt16.ofNat c.toNat).toNat - 48)) a =
        Nat.ofDigitChars 10 cs a := by
    intro cs
    induction cs with
    | nil => exact fun a _ => rfl
    | cons c cs ih =>
      intro a hcs
      have hc : (UInt16.ofNat c.toNat).toNat = c.toNat := by
        have := hcs c (by simp)
        simp only [Char.isDigit, Bool.and_eq_true, decide_eq_true_eq] at this
        have h2 : c.toNat ≤ 57 := this.2
        simp; omega
      rw [List.foldl_cons, hc, ih _ fun d hd => hcs d (List.mem_cons_of_mem _ hd)]
      rfl
  rw [decValue, digits, List.foldl_map, hfold _ _ fun c hc =>
    Nat.isDigit_of_mem_toDigits (by decide) (by decide) hc]
  exact Nat.ofDigitChars_ten_toDigits

theorem digits_injective {m n : ℕ} (h : digits m = digits n) : m = n := by
  rw [← decValue_digits m, h, decValue_digits]

/-! ## Hexadecimal -/

/-- The digit of `n < 16`. -/
def hexDigit (n : ℕ) : UInt16 := UInt16.ofNat (if n < 10 then 48 + n else 87 + n)

/-- `b.toString(16).padStart(2, "0")` -/
def hexByte (b : UInt8) : JString := [hexDigit (b.toNat / 16), hexDigit (b.toNat % 16)]

/-- `bytesToHex`. -/
def bytesToHex (bytes : Bytes) : JString := bytes.flatMap hexByte

/-- The value of a hexadecimal digit. -/
def hexVal (c : UInt16) : Option ℕ :=
  if isDigit c then some (c.toNat - 48)
  else if 97 ≤ c && c ≤ 102 then some (c.toNat - 87)
  else if 65 ≤ c && c ≤ 70 then some (c.toNat - 55)
  else none

/-- `parseInt(hex.slice(i, i + 2), 16)` stored in a `Uint8Array`: leading space
    and a sign are skipped, `0x` is dropped, parsing stops at the first
    character that is no digit, and `NaN` is stored as `0`. -/
def parseHexPair (a b : UInt16) : UInt8 :=
  if isSpace a || a == 43 then UInt8.ofNat ((hexVal b).getD 0)
  else if a == 45 then UInt8.ofNat (256 - (hexVal b).getD 0)
  else if a == 48 && (b == 120 || b == 88) then 0
  else match hexVal a, hexVal b with
    | some x, some y => UInt8.ofNat (16 * x + y)
    | some x, none => UInt8.ofNat x
    | none, _ => 0

/-- The bytes of the pairs of a text of even length. -/
def hexPairs : JString → Bytes
  | a :: b :: s => parseHexPair a b :: hexPairs s
  | _ => []

theorem length_bytesToHex (bytes : Bytes) : (bytesToHex bytes).length = 2 * bytes.length := by
  induction bytes with
  | nil => rfl
  | cons b bytes ih => simp only [bytesToHex, List.flatMap_cons] at *; simp [hexByte, ih]; omega

theorem hexDigit_spec : ∀ n < 16, isHexDigit (hexDigit n) = true ∧ lowerUnit (hexDigit n) = hexDigit n ∧
    hexVal (hexDigit n) = some n := by decide

theorem mem_bytesToHex {bytes : Bytes} {c : UInt16} (h : c ∈ bytesToHex bytes) :
    ∃ n < 16, c = hexDigit n := by
  obtain ⟨b, -, hb⟩ := List.mem_flatMap.1 h
  simp only [hexByte, List.mem_cons, List.not_mem_nil, or_false] at hb
  have := b.toNat_lt
  rcases hb with rfl | rfl
  · exact ⟨_, by omega, rfl⟩
  · exact ⟨_, by omega, rfl⟩

/-- The hexadecimal text of `n` bytes. -/
theorem isHexOf_bytesToHex (bytes : Bytes) :
    isHexOf (2 * bytes.length) (2 * bytes.length) (bytesToHex bytes) = true := by
  have hl := length_bytesToHex bytes
  refine isHexOf_iff.2 ⟨by omega, by omega, fun c hc => ?_⟩
  obtain ⟨n, hn, rfl⟩ := mem_bytesToHex hc
  exact (hexDigit_spec n hn).1

@[simp] theorem toLowerCase_bytesToHex (bytes : Bytes) :
    toLowerCase (bytesToHex bytes) = bytesToHex bytes := by
  refine (List.map_congr_left fun c hc => ?_).trans (List.map_id _)
  obtain ⟨n, hn, rfl⟩ := mem_bytesToHex hc
  exact (hexDigit_spec n hn).2.1

theorem isHexDigit_facts : ∀ n < 103, isHexDigit (UInt16.ofNat n) = true →
    isSpace (UInt16.ofNat n) = false ∧ UInt16.ofNat n ≠ 43 ∧ UInt16.ofNat n ≠ 45 ∧
      UInt16.ofNat n ≠ 88 ∧ UInt16.ofNat n ≠ 120 ∧
      hexVal (lowerUnit (UInt16.ofNat n)) = hexVal (UInt16.ofNat n) := by decide

/-- A hexadecimal digit is no white space, no sign and no `x`, and its case does
    not matter. -/
theorem isHexDigit_spec {c : UInt16} (h : isHexDigit c = true) :
    isSpace c = false ∧ c ≠ 43 ∧ c ≠ 45 ∧ c ≠ 88 ∧ c ≠ 120 ∧ hexVal (lowerUnit c) = hexVal c := by
  have hlt : c.toNat < 103 := by
    simp only [isHexDigit, isDigit, Bool.or_eq_true, Bool.and_eq_true, decide_eq_true_eq,
      UInt16.le_iff_toNat_le] at h
    simp at h
    omega
  have := isHexDigit_facts c.toNat hlt
  rw [UInt16.ofNat_toNat] at this
  exact this h

theorem parseHexPair_eq {a b : UInt16} (ha : isHexDigit a = true) (hb : isHexDigit b = true) :
    parseHexPair a b = match hexVal a, hexVal b with
      | some x, some y => UInt8.ofNat (16 * x + y)
      | some x, none => UInt8.ofNat x
      | none, _ => 0 := by
  obtain ⟨h1, h2, h3, -, -, -⟩ := isHexDigit_spec ha
  obtain ⟨-, -, -, h4, h5, -⟩ := isHexDigit_spec hb
  simp [parseHexPair, h1, h2, h3, h4, h5]

/-- The case of hexadecimal digits does not matter for the bytes. -/
theorem hexPairs_toLowerCase : ∀ {s : JString}, (∀ c ∈ s, isHexDigit c = true) →
    hexPairs (toLowerCase s) = hexPairs s
  | [], _ | [_], _ => rfl
  | a :: b :: s, h => by
    have ha := h a (by simp)
    have hb := h b (by simp)
    have ih := hexPairs_toLowerCase (s := s) fun c hc => h c (by simp [hc])
    change parseHexPair (lowerUnit a) (lowerUnit b) :: hexPairs (toLowerCase s) =
      parseHexPair a b :: hexPairs s
    rw [ih, parseHexPair_eq ha hb, parseHexPair_eq (isHexDigit_lowerUnit ha)
      (isHexDigit_lowerUnit hb), (isHexDigit_spec ha).2.2.2.2.2, (isHexDigit_spec hb).2.2.2.2.2]

theorem parseHexPair_hexDigit : ∀ x < 16, ∀ y < 16,
    parseHexPair (hexDigit x) (hexDigit y) = UInt8.ofNat (16 * x + y) := by decide

/-- **Hexadecimal round trip.** -/
theorem hexPairs_bytesToHex (bytes : Bytes) : hexPairs (bytesToHex bytes) = bytes := by
  induction bytes with
  | nil => rfl
  | cons b bytes ih =>
    have hb := b.toNat_lt
    change parseHexPair (hexDigit (b.toNat / 16)) (hexDigit (b.toNat % 16)) ::
      hexPairs (bytesToHex bytes) = _
    rw [ih, parseHexPair_hexDigit _ (by omega) _ (by omega), Nat.div_add_mod]
    simp

theorem bytesToHex_injective {b b' : Bytes} (h : bytesToHex b = bytesToHex b') : b = b' := by
  rw [← hexPairs_bytesToHex b, h, hexPairs_bytesToHex]

/-! ## Bytes of a text -/

/-- The first half of a surrogate pair. -/
def isHighSurrogate (c : UInt16) : Bool := 0xD800 ≤ c && c ≤ 0xDBFF

/-- The second half of a surrogate pair. -/
def isLowSurrogate (c : UInt16) : Bool := 0xDC00 ≤ c && c ≤ 0xDFFF

/-- UTF-8 of a code point below `0x10000`. -/
def encodeUnit (c : UInt16) : Bytes :=
  if c < 0x80 then [c.toUInt8]
  else if c < 0x800 then [UInt8.ofNat (0xC0 + c.toNat / 64), UInt8.ofNat (0x80 + c.toNat % 64)]
  -- an unpaired surrogate is encoded as U+FFFD
  else if isHighSurrogate c || isLowSurrogate c then [0xEF, 0xBF, 0xBD]
  else [UInt8.ofNat (0xE0 + c.toNat / 4096), UInt8.ofNat (0x80 + c.toNat / 64 % 64),
        UInt8.ofNat (0x80 + c.toNat % 64)]

/-- UTF-8 of the code point of a surrogate pair. -/
def encodePair (c d : UInt16) : Bytes :=
  let p := 0x10000 + (c.toNat - 0xD800) * 0x400 + (d.toNat - 0xDC00)
  [UInt8.ofNat (0xF0 + p / 262144), UInt8.ofNat (0x80 + p / 4096 % 64),
   UInt8.ofNat (0x80 + p / 64 % 64), UInt8.ofNat (0x80 + p % 64)]

/-- `new TextEncoder().encode(s)` -/
def encode : JString → Bytes
  | [] => []
  | [c] => encodeUnit c
  | c :: d :: s =>
    if isHighSurrogate c && isLowSurrogate d then encodePair c d ++ encode s
    else encodeUnit c ++ encode (d :: s)

/-- The characters that a URI component keeps: letters, digits and `-_.!~*'()`. -/
def isUnreserved (c : UInt16) : Bool :=
  isDigit c || (97 ≤ c && c ≤ 122) || (65 ≤ c && c ≤ 90) ||
    [45, 95, 46, 33, 126, 42, 39, 40, 41].contains c

/-- `%` and two upper-case hexadecimal digits. -/
def escapeByte (b : UInt8) : JString :=
  let digit (n : ℕ) : UInt16 := UInt16.ofNat (if n < 10 then 48 + n else 55 + n)
  [37, digit (b.toNat / 16), digit (b.toNat % 16)]

/-- One character of `encodeURIComponent`. -/
def escapeUnit (c : UInt16) : JString :=
  if isUnreserved c then [c] else (encodeUnit c).flatMap escapeByte

/-- `encodeURIComponent(s)`; an unpaired surrogate throws. -/
def encodeURIComponent : JString → Option JString
  | [] => some []
  | [c] => if isHighSurrogate c || isLowSurrogate c then none else some (escapeUnit c)
  | c :: d :: s =>
    if isHighSurrogate c && isLowSurrogate d then
      (encodeURIComponent s).map ((encodePair c d).flatMap escapeByte ++ ·)
    else if isHighSurrogate c || isLowSurrogate c then none
    else (encodeURIComponent (d :: s)).map (escapeUnit c ++ ·)

/-- The text is ASCII. -/
def Ascii (s : JString) : Prop := ∀ c ∈ s, c < 0x80

theorem ascii_of_all {s : JString} (h : s.all (fun c => decide (c < 0x80)) = true) : Ascii s :=
  fun c hc => of_decide_eq_true (List.all_eq_true.1 h c hc)

theorem ascii_append {s t : JString} : Ascii (s ++ t) ↔ Ascii s ∧ Ascii t := by
  simp [Ascii, or_imp, forall_and]

theorem ascii_of_isHexOf {lo hi : ℕ} {s : JString} (h : isHexOf lo hi s = true) : Ascii s := by
  intro c hc
  have hhex := (isHexOf_iff.1 h).2.2 c hc
  simp only [isHexDigit, isDigit, Bool.or_eq_true, Bool.and_eq_true, decide_eq_true_eq,
    UInt16.le_iff_toNat_le, UInt16.lt_iff_toNat_lt] at *
  simp at *
  omega

theorem ascii_of_isDigits {s : JString} (h : isDigits s = true) : Ascii s := by
  intro c hc
  have hdigit := (isDigits_iff.1 h).2 c hc
  simp only [isDigit, Bool.and_eq_true, decide_eq_true_eq, UInt16.le_iff_toNat_le,
    UInt16.lt_iff_toNat_lt] at *
  simp at *
  omega

theorem ascii_digits (n : ℕ) : Ascii (digits n) := ascii_of_isDigits (isDigits_digits n)

theorem encodeUnit_ascii {c : UInt16} (h : c < 0x80) : encodeUnit c = [c.toUInt8] := by
  simp [encodeUnit, h]

theorem not_high_of_ascii {c : UInt16} (h : c < 0x80) : isHighSurrogate c = false := by
  simp only [isHighSurrogate, Bool.and_eq_false_imp, decide_eq_true_eq, UInt16.le_iff_toNat_le,
    UInt16.lt_iff_toNat_lt] at *
  simp_all; omega

theorem encode_cons_ascii {c : UInt16} (h : c < 0x80) (s : JString) :
    encode (c :: s) = c.toUInt8 :: encode s := by
  cases s with
  | nil => simp [encode, encodeUnit_ascii h]
  | cons d s => simp [encode, encodeUnit_ascii h, not_high_of_ascii h]

theorem encode_ascii_append {s : JString} (h : Ascii s) (t : JString) :
    encode (s ++ t) = s.map UInt16.toUInt8 ++ encode t := by
  induction s with
  | nil => rfl
  | cons c s ih =>
    rw [List.cons_append, encode_cons_ascii (h c (by simp)),
      ih fun d hd => h d (List.mem_cons_of_mem _ hd)]
    rfl

/-- No surrogate is paired across an ASCII character. -/
theorem encode_append_cons {c : UInt16} (h : c < 0x80) (s t : JString) :
    encode (s ++ c :: t) = encode s ++ encode (c :: t) := by
  have hlow : isLowSurrogate c = false := by
    simp only [isLowSurrogate, Bool.and_eq_false_imp, decide_eq_true_eq, UInt16.le_iff_toNat_le,
      UInt16.lt_iff_toNat_lt] at *
    simp_all; omega
  induction s using encode.induct with
  | case1 => rfl
  | case2 d =>
    rw [List.singleton_append, show encode [d] = encodeUnit d from rfl, encode, hlow, Bool.and_false,
      if_neg Bool.false_ne_true]
  | case3 d e s hde ih =>
    rw [List.cons_append, List.cons_append, encode, if_pos hde, encode, if_pos hde, ih,
      List.append_assoc]
  | case4 d e s hde ih =>
    rw [List.cons_append, List.cons_append, encode, if_neg hde, encode, if_neg hde,
      ← List.cons_append, ih, List.append_assoc]

theorem not_lt_of_toNat {b : UInt8} {n : ℕ} (h : b = UInt8.ofNat n) (h1 : 0x80 ≤ n) (h2 : n < 256) :
    ¬ b < 0x80 := by
  rw [h, UInt8.lt_iff_toNat_lt]; simp; omega

theorem encodeUnit_head {c : UInt16} (h : ¬ c < 0x80) :
    ∃ b r, encodeUnit c = b :: r ∧ ¬ b < 0x80 := by
  have hc := c.toNat_lt
  unfold encodeUnit
  rw [if_neg h]
  split
  · next h2 =>
    have h2 : c.toNat < 0x800 := UInt16.lt_iff_toNat_lt.1 h2
    exact ⟨_, _, rfl, not_lt_of_toNat rfl (by omega) (by omega)⟩
  · split
    · exact ⟨_, _, rfl, by decide⟩
    · exact ⟨_, _, rfl, not_lt_of_toNat rfl (by omega) (by omega)⟩

theorem encodePair_head {c d : UInt16} (hc : isHighSurrogate c = true)
    (hd : isLowSurrogate d = true) : ∃ b r, encodePair c d = b :: r ∧ ¬ b < 0x80 := by
  simp only [isHighSurrogate, isLowSurrogate, Bool.and_eq_true, decide_eq_true_eq,
    UInt16.le_iff_toNat_le] at hc hd
  simp only [UInt16.reduceToNat] at hc hd
  exact ⟨_, _, rfl, not_lt_of_toNat rfl (by omega) (by omega)⟩

/-- Every other code unit, alone or in a pair, starts with a byte from `0x80` on. -/
theorem encode_head {c : UInt16} (hc : ¬ c < 0x80) (s : JString) :
    ∃ b r, encode (c :: s) = b :: r ∧ ¬ b < 0x80 := by
  obtain ⟨b, r, h, hb⟩ := encodeUnit_head hc
  cases s with
  | nil => exact ⟨b, r, h, hb⟩
  | cons d s =>
    rw [encode]
    split
    · next hcd =>
      rw [Bool.and_eq_true] at hcd
      obtain ⟨b', r', h', hb'⟩ := encodePair_head hcd.1 hcd.2
      exact ⟨b', r' ++ encode s, by rw [h']; rfl, hb'⟩
    · exact ⟨b, r ++ encode (d :: s), by rw [h]; rfl, hb⟩

/-- A text whose first byte is ASCII starts with that character. -/
theorem encode_cons_head {c : UInt16} {s : JString} {b : UInt8} {r : Bytes}
    (h : encode (c :: s) = b :: r) (hb : b < 0x80) : c < 0x80 ∧ b = c.toUInt8 ∧ encode s = r := by
  by_cases hc : c < 0x80
  · rw [encode_cons_ascii hc] at h
    obtain ⟨rfl, rfl⟩ := List.cons.inj h
    exact ⟨hc, rfl, rfl⟩
  · obtain ⟨b', r', h', hb'⟩ := encode_head hc s
    rw [h] at h'
    exact absurd ((List.cons.inj h').1 ▸ hb) hb'

theorem encode_eq_nil {s : JString} (h : encode s = []) : s = [] := by
  cases s with
  | nil => rfl
  | cons c s =>
    by_cases hc : c < 0x80
    · rw [encode_cons_ascii hc] at h; cases h
    · obtain ⟨b, r, h', -⟩ := encode_head hc s
      rw [h] at h'; cases h'

theorem toUInt8_lt {c : UInt16} (h : c < 0x80) : c.toUInt8 < 0x80 := by
  rw [UInt16.lt_iff_toNat_lt] at h
  rw [UInt8.lt_iff_toNat_lt]
  simp at *; omega

theorem toUInt8_inj {c d : UInt16} (hc : c < 0x80) (hd : d < 0x80) (h : c.toUInt8 = d.toUInt8) :
    c = d := by
  rw [UInt16.lt_iff_toNat_lt] at hc hd
  have := congrArg UInt8.toNat h
  rw [← UInt16.toNat_inj]
  simp at *; omega

/-- **ASCII fields are read off the bytes.** -/
theorem encode_eq_ascii_append {p s : JString} (hp : Ascii p) {r : Bytes}
    (h : encode s = p.map UInt16.toUInt8 ++ r) : ∃ t, s = p ++ t ∧ encode t = r := by
  induction p generalizing s with
  | nil => exact ⟨s, rfl, h⟩
  | cons c p ih =>
    have hc : c < 0x80 := hp c (by simp)
    cases s with
    | nil => simp [encode] at h
    | cons d s =>
      obtain ⟨hd, hcd, hr⟩ := encode_cons_head h (toUInt8_lt hc)
      obtain ⟨t, rfl, ht⟩ := ih (fun e he => hp e (List.mem_cons_of_mem _ he)) hr
      exact ⟨t, by rw [toUInt8_inj hc hd hcd]; rfl, ht⟩

theorem length_encode_ascii {s : JString} (h : Ascii s) : (encode s).length = s.length := by
  have hs := encode_ascii_append h []
  rw [List.append_nil] at hs
  rw [hs]
  simp [encode]

theorem encode_eq_ascii {p s : JString} (hp : Ascii p) (h : encode s = encode p) : s = p := by
  have hp' := encode_ascii_append hp []
  rw [List.append_nil] at hp'
  obtain ⟨t, rfl, ht⟩ := encode_eq_ascii_append hp (h.trans hp')
  rw [encode_eq_nil ht, List.append_nil]

end Js
