/-
  JSON values on the wire.

  A value is sent as the bytes of its text and read back by `JSON.parse`.

  * `Proper` says that the properties of every object have distinct keys;
  * `canon` is what arrives: numbers that JSON cannot write are `null`, and the
    properties of an object stand in the order in which it lists them;
  * `parse_stringify` and `received_stringify` are the round trips;
  * `stringify_canon`: what arrives has the text that was sent.
-/
import NexTalkRelay.Js.NumberText
import NexTalkRelay.Js.Utf8

namespace Js.Json

/-! ## Values that arrive -/

/-- The properties of every object in the value have distinct keys. -/
inductive Proper : Json → Prop where
  | null : Proper null
  | bool (b : Bool) : Proper (bool b)
  | num (n : Number) : Proper (num n)
  | str (s : JString) : Proper (str s)
  | arr {xs : List Json} : (∀ x ∈ xs, Proper x) → Proper (arr xs)
  | obj {ps : List (JString × Json)} : (ps.map Prod.fst).Nodup → (∀ p ∈ ps, Proper p.2) →
      Proper (obj ps)

mutual
/-- What is left of a value that is written and read. -/
def canon : Json → Json
  | null => null
  | bool b => bool b
  | num n => if n.isFinite then num n else null
  | str s => str s
  | arr xs => arr (canonElems xs)
  | obj ps => obj (inOrder (canonProps ps))

/-- The elements of an array. -/
def canonElems : List Json → List Json
  | [] => []
  | x :: xs => canon x :: canonElems xs

/-- The members of an object. -/
def canonProps : List (JString × Json) → List (JString × Json)
  | [] => []
  | p :: ps => (p.1, canon p.2) :: canonProps ps
end

theorem canonElems_eq (xs : List Json) : canonElems xs = xs.map canon := by
  induction xs with
  | nil => rfl
  | cons x xs ih => rw [canonElems, ih, List.map_cons]

theorem canonProps_eq (ps : List (JString × Json)) :
    canonProps ps = ps.map fun p => (p.1, canon p.2) := by
  induction ps with
  | nil => rfl
  | cons p ps ih => rw [canonProps, ih, List.map_cons]

theorem elemTexts_eq (xs : List Json) : elemTexts xs = xs.map stringify := by
  induction xs with
  | nil => rfl
  | cons x xs ih => rw [elemTexts, ih, List.map_cons]

theorem propTexts_eq (ps : List (JString × Json)) :
    propTexts ps = ps.map fun p => (p.1, stringify p.2) := by
  induction ps with
  | nil => rfl
  | cons p ps ih => rw [propTexts, ih, List.map_cons]

/-! ### The order of the properties -/

section Order

variable {α β : Type}

theorem inOrder_perm (ps : List (JString × α)) : (inOrder ps).Perm ps :=
  ((List.mergeSort_perm _ _).append_right _).trans (List.filter_append_perm _ _)

theorem mem_inOrder {ps : List (JString × α)} {p : JString × α} : p ∈ inOrder ps ↔ p ∈ ps :=
  (inOrder_perm ps).mem_iff

/-- The values play no part in the order. -/
theorem inOrder_map (f : α → β) (ps : List (JString × α)) :
    inOrder (ps.map fun p => (p.1, f p.2)) = (inOrder ps).map fun p => (p.1, f p.2) := by
  unfold inOrder
  rw [List.map_append, List.filter_map, List.filter_map, List.map_mergeSort]
  · rfl
  · intro p _ q _
    rfl

/-- Properties without index keys stay where they are. -/
theorem inOrder_named {ps : List (JString × α)} (h : ∀ p ∈ ps, isIndex p.1 = false) :
    inOrder ps = ps := by
  have hnone : ps.filter (fun p => isIndex p.1) = [] :=
    List.filter_eq_nil_iff.2 fun p hp => by simp [h p hp]
  have hall : ps.filter (fun p => !isIndex p.1) = ps :=
    List.filter_eq_self.2 fun p hp => by simp [h p hp]
  rw [inOrder, hnone, hall, List.mergeSort_nil, List.nil_append]

theorem inOrder_append_named (ps : List (JString × α)) {qs : List (JString × α)}
    (h : ∀ q ∈ qs, isIndex q.1 = false) : inOrder (ps ++ qs) = inOrder ps ++ qs := by
  have hnone : qs.filter (fun q => isIndex q.1) = [] :=
    List.filter_eq_nil_iff.2 fun q hq => by simp [h q hq]
  have hall : qs.filter (fun q => !isIndex q.1) = qs :=
    List.filter_eq_self.2 fun q hq => by simp [h q hq]
  rw [inOrder, List.filter_append, List.filter_append, hnone, hall, List.append_nil, inOrder,
    List.append_assoc]

theorem inOrder_inOrder (ps : List (JString × α)) : inOrder (inOrder ps) = inOrder ps := by
  have hnamed : ∀ p ∈ ps.filter fun p => !isIndex p.1, isIndex p.1 = false := fun p hp => by
    simpa using (List.mem_filter.1 hp).2
  have hsorted : ((ps.filter fun p => isIndex p.1).mergeSort
      (fun p q => decValue p.1 ≤ decValue q.1)).Pairwise fun p q =>
        decide (decValue p.1 ≤ decValue q.1) = true := by
    refine List.pairwise_mergeSort (fun p q r h1 h2 => ?_) (fun p q => ?_) _
    · simp only [decide_eq_true_eq] at h1 h2 ⊢
      omega
    · simp only [Bool.or_eq_true, decide_eq_true_eq]
      omega
  have hidx : ∀ p ∈ (ps.filter fun p => isIndex p.1).mergeSort
      (fun p q => decValue p.1 ≤ decValue q.1), isIndex p.1 = true := fun p hp =>
    (List.mem_filter.1 (List.mem_mergeSort.1 hp)).2
  conv_lhs => rw [inOrder.eq_def ps]
  rw [inOrder_append_named _ hnamed, inOrder.eq_def ps]
  generalize (ps.filter fun p => isIndex p.1).mergeSort
    (fun p q => decValue p.1 ≤ decValue q.1) = q at hsorted hidx
  have hnil : q.filter (fun p => !isIndex p.1) = [] :=
    List.filter_eq_nil_iff.2 fun p hp => by simp [hidx p hp]
  rw [inOrder, List.filter_eq_self.2 hidx, hnil, List.append_nil, List.mergeSort_of_pairwise hsorted]

end Order

/-! ## Strings -/

section Strings

variable {fuel : ℕ} {acc : JString} {c : UInt16}

/-- A unit that is neither a quote, a backslash nor a control stands for itself. -/
theorem parseString_plain (hquote : c ≠ 34) (hslash : c ≠ 92) (hcontrol : ¬ c < 32) (s : JString) :
    parseString (fuel + 1) acc (c :: s) = parseString fuel (c :: acc) s := by
  rw [parseString.eq_def]
  split
  · next heq => cases heq
  · next hfuel _ => cases hfuel
  · next heq => exact absurd (List.cons.inj heq).1 hquote
  · next heq => exact absurd (List.cons.inj heq).1 hslash
  · next hfuel heq =>
    cases hfuel
    cases heq
    rw [if_neg (not_or.2 ⟨hcontrol, hslash⟩)]

theorem hexVal_hexDigit {n : ℕ} (h : n < 16) : hexVal (hexDigit n) = some n := (hexDigit_spec n h).2.2

/-- `\uXXXX` is the unit with this code. -/
theorem parseString_code (c : UInt16) (s : JString) :
    parseString (fuel + 1) acc (js "\\u" ++ hexByte (UInt8.ofNat (c.toNat / 256)) ++
        hexByte (UInt8.ofNat (c.toNat % 256)) ++ s) = parseString fuel (c :: acc) s := by
  have hc := c.toNat_lt
  have hhigh : (UInt8.ofNat (c.toNat / 256)).toNat = c.toNat / 256 :=
    UInt8.toNat_ofNat_of_lt (show c.toNat / 256 < 256 by omega)
  have hlow : (UInt8.ofNat (c.toNat % 256)).toNat = c.toNat % 256 :=
    UInt8.toNat_ofNat_of_lt (show c.toNat % 256 < 256 by omega)
  have hcode : UInt16.ofNat (((c.toNat / 256 / 16 * 16 + c.toNat / 256 % 16) * 16 +
      c.toNat % 256 / 16) * 16 + c.toNat % 256 % 16) = c := by
    rw [show ((c.toNat / 256 / 16 * 16 + c.toNat / 256 % 16) * 16 + c.toNat % 256 / 16) * 16 +
      c.toNat % 256 % 16 = c.toNat by omega, UInt16.ofNat_toNat]
  rw [show js "\\u" = [92, 117] from rfl]
  simp only [hexByte, hhigh, hlow, List.cons_append, List.nil_append]
  rw [parseString]
  simp only [if_true, hexVal_hexDigit (show c.toNat / 256 / 16 < 16 by omega),
    hexVal_hexDigit (show c.toNat / 256 % 16 < 16 by omega),
    hexVal_hexDigit (show c.toNat % 256 / 16 < 16 by omega),
    hexVal_hexDigit (show c.toNat % 256 % 16 < 16 by omega), Option.bind_eq_bind, Option.bind_some,
    hcode]

/-- A unit is read as it was written. -/
theorem parseString_quoteUnit (c : UInt16) (s : JString) :
    parseString (fuel + 1) acc (quoteUnit c ++ s) = parseString fuel (c :: acc) s := by
  unfold quoteUnit
  split
  · next h => rw [h]; rfl
  split
  · next h => rw [h]; rfl
  split
  · next h => rw [h]; rfl
  split
  · next h => rw [h]; rfl
  split
  · next h => rw [h]; rfl
  split
  · next h => rw [h]; rfl
  split
  · next h => rw [h]; rfl
  split
  · exact parseString_code c s
  · next hquote hslash _ _ _ _ _ hplain =>
    simp only [Bool.or_eq_true, decide_eq_true_eq, not_or] at hplain
    exact parseString_plain hquote hslash hplain.1.1 s

theorem quoteUnit_pos (c : UInt16) : 0 < (quoteUnit c).length := by
  refine List.length_pos_iff.2 fun h => ?_
  have hread : parseString 2 [] (quoteUnit c ++ [34]) = parseString 1 [c] [34] :=
    parseString_quoteUnit c [34]
  rw [h] at hread
  cases hread

theorem parseString_quoteUnits {s : JString} :
    ∀ {fuel : ℕ} {acc : JString} (t : JString), (quoteUnits s).length < fuel →
      parseString fuel acc (quoteUnits s ++ 34 :: t) = some (acc.reverse ++ s, t) := by
  induction s using quoteUnits.induct with
  | case1 =>
    intro fuel acc t hfuel
    obtain ⟨n, rfl⟩ := Nat.exists_eq_add_of_lt hfuel
    simp [quoteUnits, parseString]
  | case2 c =>
    intro fuel acc t hfuel
    have hpos := quoteUnit_pos c
    rw [quoteUnits] at hfuel ⊢
    obtain ⟨n, rfl⟩ : ∃ n, fuel = n + 1 + 1 := ⟨fuel - 2, by omega⟩
    rw [parseString_quoteUnit]
    simp [parseString]
  | case3 c d s hcd ih =>
    intro fuel acc t hfuel
    rw [quoteUnits, if_pos hcd] at hfuel ⊢
    simp only [List.length_cons] at hfuel
    obtain ⟨n, rfl⟩ : ∃ n, fuel = n + 1 + 1 := ⟨fuel - 2, by omega⟩
    simp only [isHighSurrogate, isLowSurrogate, Bool.and_eq_true, decide_eq_true_eq,
      UInt16.le_iff_toNat_le] at hcd
    have hplain {u : UInt16} (hu : 0xD800 ≤ u.toNat) : u ≠ 34 ∧ u ≠ 92 ∧ ¬ u < 32 := by
      simp only [ne_eq, ← UInt16.toNat_inj, UInt16.lt_iff_toNat_lt]
      simp only [UInt16.reduceToNat]
      omega
    simp only [UInt16.reduceToNat] at hcd
    obtain ⟨hc1, hc2, hc3⟩ := hplain (u := c) (by omega)
    obtain ⟨hd1, hd2, hd3⟩ := hplain (u := d) (by omega)
    rw [List.cons_append, parseString_plain hc1 hc2 hc3, List.cons_append,
      parseString_plain hd1 hd2 hd3, ih t (by omega)]
    simp
  | case4 c d s hcd ih =>
    intro fuel acc t hfuel
    have hpos := quoteUnit_pos c
    rw [quoteUnits, if_neg hcd] at hfuel ⊢
    rw [List.length_append] at hfuel
    obtain ⟨n, rfl⟩ : ∃ n, fuel = n + 1 := ⟨fuel - 1, by omega⟩
    rw [List.append_assoc, parseString_quoteUnit, ih t (by omega)]
    simp

end Strings

/-- A quoted text, read after its opening quote. -/
theorem parseString_quote (s t : JString) :
    parseString ((quoteUnits s ++ 34 :: t).length + 1) [] (quoteUnits s ++ 34 :: t) = some (s, t) := by
  rw [parseString_quoteUnits t (by rw [List.length_append, List.length_cons]; omega)]
  rfl

theorem quote_append (s t : JString) : quote s ++ t = 34 :: (quoteUnits s ++ 34 :: t) := by
  rw [quote, show js "\"" = [34] from rfl]
  simp

/-! ## Values -/

/-- What may follow a value: nothing, a comma or a closing bracket. -/
def Ends (s : JString) : Prop := ∀ c ∈ s.head?, c = 44 ∨ c = 93 ∨ c = 125

theorem ends_nil : Ends [] := by simp [Ends]

theorem ends_cons {c : UInt16} (h : c = 44 ∨ c = 93 ∨ c = 125) (s : JString) : Ends (c :: s) := by
  intro d hd
  rw [List.head?_cons, Option.mem_some_iff] at hd
  rwa [← hd]

theorem Ends.number {s : JString} (h : Ends s) : NumberEnds s := by
  intro c hc
  rcases h c hc with rfl | rfl | rfl <;> decide

/-- An ASCII unit that a value may begin with: neither white space nor a closing
    bracket. -/
def Opens (c : UInt16) : Prop := c ≠ 32 ∧ c ≠ 9 ∧ c ≠ 10 ∧ c ≠ 13 ∧ c ≠ 93 ∧ c < 0x80

theorem skipSpace_cons {c : UInt16} (h : c ≠ 32 ∧ c ≠ 9 ∧ c ≠ 10 ∧ c ≠ 13) (s : JString) :
    skipSpace (c :: s) = c :: s := by
  obtain ⟨h1, h2, h3, h4⟩ := h
  simp [skipSpace, h1, h2, h3, h4]

theorem Opens.skip {c : UInt16} (h : Opens c) (s : JString) : skipSpace (c :: s) = c :: s :=
  skipSpace_cons ⟨h.1, h.2.1, h.2.2.1, h.2.2.2.1⟩ s

/-- The text of a number begins with a digit or a minus. -/
theorem text_cons (d : Dec) : ∃ c s, d.text = c :: s ∧ (c = 45 ∨ isDigit c = true) := by
  obtain ⟨l, negative, htext, -⟩ := text_literal d
  obtain ⟨c, s, hs, hc⟩ := l.text_cons
  cases negative with
  | false => exact ⟨c, s, by rw [htext, hs]; rfl, Or.inr hc⟩
  | true => exact ⟨45, c :: s, by rw [htext, hs]; rfl, Or.inl rfl⟩

theorem opens_number {c : UInt16} (h : c = 45 ∨ isDigit c = true) :
    Opens c ∧ c ≠ 110 ∧ c ≠ 116 ∧ c ≠ 102 ∧ c ≠ 34 ∧ c ≠ 91 ∧ c ≠ 123 := by
  simp only [isDigit, Bool.and_eq_true, decide_eq_true_eq, UInt16.le_iff_toNat_le,
    UInt16.lt_iff_toNat_lt, Opens, ne_eq, ← UInt16.toNat_inj] at h ⊢
  simp only [UInt16.reduceToNat] at h ⊢
  omega

theorem stringify_cons (v : Json) : ∃ c s, v.stringify = c :: s ∧ Opens c := by
  cases v with
  | null => exact ⟨110, _, rfl, by unfold Opens; decide⟩
  | bool b =>
    cases b with
    | false => exact ⟨102, _, rfl, by unfold Opens; decide⟩
    | true => exact ⟨116, _, rfl, by unfold Opens; decide⟩
  | num n =>
    cases n with
    | fin d =>
      obtain ⟨c, s, hs, hc⟩ := text_cons d
      exact ⟨c, s, hs, (opens_number hc).1⟩
    | nan | inf => exact ⟨110, _, rfl, by unfold Opens; decide⟩
  | str s => exact ⟨34, _, rfl, by unfold Opens; decide⟩
  | arr xs => exact ⟨91, _, by rw [stringify]; rfl, by unfold Opens; decide⟩
  | obj ps => exact ⟨123, _, by rw [stringify]; rfl, by unfold Opens; decide⟩

theorem stringify_pos (v : Json) : 0 < v.stringify.length := by
  obtain ⟨c, s, hs, -⟩ := stringify_cons v
  rw [hs]
  exact Nat.succ_pos _

theorem parseValue_number {fuel : ℕ} (d : Dec) {s : JString} (h : NumberEnds s) :
    parseValue (fuel + 1) (d.text ++ s) = some (num (.fin d), s) := by
  have hnum := parseNumber_text d h
  obtain ⟨c, t, ht, hc⟩ := text_cons d
  rw [ht, List.cons_append] at hnum ⊢
  obtain ⟨hopen, h1, h2, h3, h4, h5, h6⟩ := opens_number hc
  rw [parseValue, hopen.skip]
  split
  · next heq => exact absurd (List.cons.inj heq).1 h1
  · next heq => exact absurd (List.cons.inj heq).1 h2
  · next heq => exact absurd (List.cons.inj heq).1 h3
  · next heq => exact absurd (List.cons.inj heq).1 h4
  · next heq => exact absurd (List.cons.inj heq).1 h5
  · next heq => exact absurd (List.cons.inj heq).1 h6
  · rw [hnum]
    rfl

theorem parseValue_quote {fuel : ℕ} (s t : JString) :
    parseValue (fuel + 1) (quote s ++ t) = some (str s, t) := by
  rw [quote_append, parseValue, skipSpace_cons (by decide)]
  exact congrArg (Option.map fun p : JString × JString => (str p.1, p.2)) (parseString_quote s t)

theorem parseValue_open (fuel : ℕ) (s : JString) :
    parseValue (fuel + 1) (91 :: s) = match skipSpace s with
      | 93 :: s => some (arr [], s)
      | s => parseElems fuel [] s := by
  rw [parseValue, skipSpace_cons (by decide)]
  rfl

theorem parseValue_brace (fuel : ℕ) (s : JString) :
    parseValue (fuel + 1) (123 :: s) = match skipSpace s with
      | 125 :: s => some (obj [], s)
      | s => parseMembers fuel [] s := by
  rw [parseValue, skipSpace_cons (by decide)]
  rfl

theorem join_cons_cons (a b : JString) (l : List JString) :
    join (js ",") (a :: b :: l) = a ++ 44 :: join (js ",") (b :: l) := by
  rw [join]
  · rw [List.append_assoc]
    rfl
  · exact List.cons_ne_nil b l

/-- The text of the value is read back in front of every text that ends it. -/
def Reads (v : Json) : Prop :=
  ∀ (fuel : ℕ) (s : JString), 2 * v.stringify.length ≤ fuel → Ends s →
    parseValue fuel (v.stringify ++ s) = some (v.canon, s)

theorem parseElems_texts {xs : List Json} (hxs : xs ≠ []) (h : ∀ x ∈ xs, Reads x) :
    ∀ (fuel : ℕ) (acc : List Json) (s : JString),
      2 * (join (js ",") (xs.map stringify)).length + 1 ≤ fuel →
      parseElems fuel acc (join (js ",") (xs.map stringify) ++ 93 :: s) =
        some (arr (acc ++ xs.map canon), s) := by
  induction xs with
  | nil => exact absurd rfl hxs
  | cons x xs ih =>
    intro fuel acc s hfuel
    have hx := h x List.mem_cons_self
    cases xs with
    | nil =>
      simp only [List.map_cons, List.map_nil, join] at hfuel ⊢
      obtain ⟨n, rfl⟩ : ∃ n, fuel = n + 1 := ⟨fuel - 1, by omega⟩
      rw [parseElems, hx _ _ (by omega) (ends_cons (by decide) s)]
      simp only [Option.bind_eq_bind, Option.bind_some, skipSpace_cons (c := 93) (by decide)]
    | cons y ys =>
      have hrest := ih (List.cons_ne_nil y ys) fun z hz => h z (List.mem_cons_of_mem x hz)
      have hjoin : join (js ",") ((x :: y :: ys).map stringify) =
          x.stringify ++ 44 :: join (js ",") ((y :: ys).map stringify) := join_cons_cons _ _ _
      rw [hjoin] at hfuel ⊢
      rw [List.length_append, List.length_cons] at hfuel
      obtain ⟨n, rfl⟩ : ∃ n, fuel = n + 1 := ⟨fuel - 1, by omega⟩
      rw [List.append_assoc, List.cons_append, parseElems,
        hx _ _ (by omega) (ends_cons (by decide) _)]
      simp only [Option.bind_eq_bind, Option.bind_some, skipSpace_cons (c := 44) (by decide)]
      rw [hrest n _ s (by omega), List.append_assoc]
      rfl

/-- The text of a property. -/
def memberText (p : JString × Json) : JString := quote p.1 ++ js ":" ++ p.2.stringify

theorem memberText_append (p : JString × Json) (s : JString) :
    memberText p ++ s = 34 :: (quoteUnits p.1 ++ 34 :: (58 :: (p.2.stringify ++ s))) := by
  rw [memberText, List.append_assoc, List.append_assoc, quote_append]
  rfl

theorem setProp_new {acc : List (JString × Json)} {k : JString} (v : Json)
    (h : k ∉ acc.map Prod.fst) : setProp acc k v = acc ++ [(k, v)] := by
  refine if_neg fun hany => ?_
  obtain ⟨p, hp, hk⟩ := List.any_eq_true.1 hany
  exact h (List.mem_map.2 ⟨p, hp, by simpa using hk⟩)

/-- What is read after a member: the next one, or the end of the object. -/
def membersAfter (n : ℕ) (acc : List (JString × Json)) : JString → Option (Json × JString)
  | 44 :: s => parseMembers n acc s
  | 125 :: s => some (obj acc, s)
  | _ => none

/-- The key of the next property is read, and its value. -/
theorem parseMembers_member {n : ℕ} {acc : List (JString × Json)} {p : JString × Json}
    (hp : Reads p.2) (hn : 2 * p.2.stringify.length ≤ n) {c : UInt16} (hc : c = 44 ∨ c = 93 ∨ c = 125)
    (s : JString) :
    parseMembers (n + 1) acc (memberText p ++ c :: s) =
      membersAfter n (setProp acc p.1 p.2.canon) (skipSpace (c :: s)) := by
  have hquote (t : JString) : expect (js "\"") (34 :: t) = some t := rfl
  have hcolon (t : JString) : expect (js ":") (58 :: t) = some t := rfl
  rw [memberText_append, parseMembers]
  simp only [Option.bind_eq_bind, Option.bind_some, skipSpace_cons (c := 34) (by decide), hquote,
    parseString_quote, skipSpace_cons (c := 58) (by decide), hcolon,
    hp n _ hn (ends_cons hc s)]
  rfl

theorem parseMembers_texts {ps : List (JString × Json)} (hps : ps ≠ [])
    (h : ∀ p ∈ ps, Reads p.2) :
    ∀ (fuel : ℕ) (acc : List (JString × Json)) (s : JString),
      ((acc ++ ps).map Prod.fst).Nodup →
      2 * (join (js ",") (ps.map memberText)).length + 1 ≤ fuel →
      parseMembers fuel acc (join (js ",") (ps.map memberText) ++ 125 :: s) =
        some (obj (acc ++ ps.map fun p => (p.1, p.2.canon)), s) := by
  induction ps with
  | nil => exact absurd rfl hps
  | cons p ps ih =>
    intro fuel acc s hnodup hfuel
    have hp := h p List.mem_cons_self
    have hnew : p.1 ∉ acc.map Prod.fst := by
      intro hmem
      rw [List.map_append, List.map_cons] at hnodup
      exact (List.nodup_append.1 hnodup).2.2 _ hmem _ List.mem_cons_self rfl
    have hlen : 2 * p.2.stringify.length ≤ 2 * (memberText p).length := by
      simp only [memberText, List.length_append]
      omega
    cases ps with
    | nil =>
      simp only [List.map_cons, List.map_nil, join] at hfuel ⊢
      obtain ⟨n, rfl⟩ : ∃ n, fuel = n + 1 := ⟨fuel - 1, by omega⟩
      rw [parseMembers_member hp (by omega) (by decide), skipSpace_cons (by decide),
        setProp_new _ hnew]
      rfl
    | cons q qs =>
      have hrest := ih (List.cons_ne_nil q qs) fun r hr => h r (List.mem_cons_of_mem p hr)
      have hjoin : join (js ",") ((p :: q :: qs).map memberText) =
          memberText p ++ 44 :: join (js ",") ((q :: qs).map memberText) := join_cons_cons _ _ _
      rw [hjoin] at hfuel ⊢
      rw [List.length_append, List.length_cons] at hfuel
      obtain ⟨n, rfl⟩ : ∃ n, fuel = n + 1 := ⟨fuel - 1, by omega⟩
      rw [List.append_assoc, List.cons_append, parseMembers_member hp (by omega) (by decide),
        skipSpace_cons (by decide)]
      have hnodup' : ((acc ++ [(p.1, p.2.canon)] ++ q :: qs).map Prod.fst).Nodup := by
        simpa using hnodup
      rw [setProp_new _ hnew]
      refine (hrest n _ s hnodup' (by omega)).trans ?_
      rw [List.append_assoc]
      rfl

/-- The texts of the properties in their order. -/
theorem stringify_obj (ps : List (JString × Json)) :
    (obj ps).stringify = 123 :: (join (js ",") ((inOrder ps).map memberText) ++ [125]) := by
  rw [stringify, propTexts_eq, inOrder_map, List.map_map]
  rfl

theorem stringify_arr (xs : List Json) :
    (arr xs).stringify = 91 :: (join (js ",") (xs.map stringify) ++ [93]) := by
  rw [stringify, elemTexts_eq]
  rfl

/-- The order of the keys does not change which are there. -/
theorem nodup_inOrder {ps : List (JString × Json)} (h : (ps.map Prod.fst).Nodup) :
    ((inOrder ps).map Prod.fst).Nodup :=
  (((inOrder_perm ps).map Prod.fst).nodup_iff).2 h

theorem parseValue_stringify {v : Json} (h : v.Proper) : v.Reads := by
  induction h with
  | null =>
    intro fuel s hfuel hs
    obtain ⟨n, rfl⟩ : ∃ n, fuel = n + 1 := ⟨fuel - 1, by
      have := stringify_pos null
      omega⟩
    rfl
  | bool b =>
    intro fuel s hfuel hs
    obtain ⟨n, rfl⟩ : ∃ n, fuel = n + 1 := ⟨fuel - 1, by
      have := stringify_pos (bool b)
      omega⟩
    cases b with
    | false => rfl
    | true => rfl
  | num n =>
    intro fuel s hfuel hs
    obtain ⟨m, rfl⟩ : ∃ m, fuel = m + 1 := ⟨fuel - 1, by
      have := stringify_pos (num n)
      omega⟩
    cases n with
    | fin d => exact parseValue_number d hs.number
    | nan | inf => rfl
  | str t =>
    intro fuel s hfuel hs
    obtain ⟨n, rfl⟩ : ∃ n, fuel = n + 1 := ⟨fuel - 1, by
      have := stringify_pos (str t)
      omega⟩
    exact parseValue_quote t s
  | @arr xs hxs ih =>
    intro fuel s hfuel hs
    rw [stringify_arr] at hfuel ⊢
    simp only [List.length_cons, List.length_append, List.length_nil] at hfuel
    obtain ⟨n, rfl⟩ : ∃ n, fuel = n + 1 := ⟨fuel - 1, by omega⟩
    rw [canon, canonElems_eq, List.cons_append, List.append_assoc, parseValue_open]
    cases xs with
    | nil => rfl
    | cons x xs =>
      have hread := parseElems_texts (List.cons_ne_nil x xs) ih n [] s (by omega)
      obtain ⟨c, t, ht, hc⟩ := stringify_cons x
      obtain ⟨u, hu⟩ : ∃ u, join (js ",") ((x :: xs).map stringify) = c :: u := by
        cases xs with
        | nil => exact ⟨t, ht⟩
        | cons y ys => exact ⟨_, by rw [List.map_cons, List.map_cons, join_cons_cons, ht]; rfl⟩
      rw [hu] at hread ⊢
      rw [List.cons_append, hc.skip]
      split
      · next heq => exact absurd (List.cons.inj heq).1 hc.2.2.2.2.1
      · exact hread
  | @obj ps hnodup hps ih =>
    intro fuel s hfuel hs
    rw [stringify_obj] at hfuel ⊢
    simp only [List.length_cons, List.length_append, List.length_nil] at hfuel
    obtain ⟨n, rfl⟩ : ∃ n, fuel = n + 1 := ⟨fuel - 1, by omega⟩
    rw [canon, canonProps_eq, inOrder_map, List.cons_append, List.append_assoc, parseValue_brace]
    have hnodup' := nodup_inOrder hnodup
    have ih' : ∀ p ∈ inOrder ps, Reads p.2 := fun p hp => ih p (mem_inOrder.1 hp)
    generalize inOrder ps = qs at hnodup' ih' hfuel
    cases qs with
    | nil => rfl
    | cons q qs =>
      have hread := parseMembers_texts (List.cons_ne_nil q qs) ih' n [] s hnodup' (by omega)
      obtain ⟨u, hu⟩ : ∃ u, join (js ",") ((q :: qs).map memberText) = 34 :: u := by
        cases qs with
        | nil => exact ⟨_, rfl⟩
        | cons r rs => exact ⟨_, join_cons_cons _ _ _⟩
      rw [hu] at hread ⊢
      exact hread

/-- **What is written is read back**, in its canonical form. -/
theorem parse_stringify {v : Json} (h : v.Proper) : parse v.stringify = some v.canon := by
  have hread := parseValue_stringify h (2 * v.stringify.length + 1) [] (by omega) ends_nil
  rw [List.append_nil] at hread
  rw [parse, hread]
  rfl

/-! ### What is read is proper -/

/-- Properties that an object may have. -/
def ProperProps (ps : List (JString × Json)) : Prop :=
  (ps.map Prod.fst).Nodup ∧ ∀ p ∈ ps, p.2.Proper

theorem ProperProps.setProp {ps : List (JString × Json)} (h : ProperProps ps) (k : JString) {v : Json}
    (hv : v.Proper) : ProperProps (setProp ps k v) := by
  by_cases hmem : k ∈ ps.map Prod.fst
  · have hany : (ps.any fun p => p.1 == k) = true := by
      obtain ⟨p, hp, rfl⟩ := List.mem_map.1 hmem
      exact List.any_eq_true.2 ⟨p, hp, beq_self_eq_true _⟩
    rw [Json.setProp, if_pos hany]
    constructor
    · rw [List.map_map, show (Prod.fst ∘ fun p : JString × Json => if p.1 == k then (k, v) else p) =
        Prod.fst from funext fun p => by simp only [Function.comp_apply]; split <;> simp_all]
      exact h.1
    · intro p hp
      obtain ⟨q, hq, rfl⟩ := List.mem_map.1 hp
      split
      · exact hv
      · exact h.2 q hq
  · rw [setProp_new v hmem]
    constructor
    · rw [List.map_append, List.nodup_append]
      refine ⟨h.1, by simp, fun a ha b hb heq => hmem ?_⟩
      obtain rfl : b = k := List.mem_singleton.1 hb
      exact heq ▸ ha
    · intro p hp
      rcases List.mem_append.1 hp with hp | hp
      · exact h.2 p hp
      · rw [List.mem_singleton.1 hp]
        exact hv

/-- Every value that the parser has read so far is proper. -/
theorem proper_of_read (fuel : ℕ) :
    (∀ s v r, parseValue fuel s = some (v, r) → v.Proper) ∧
    (∀ acc s v r, (∀ x ∈ acc, x.Proper) → parseElems fuel acc s = some (v, r) → v.Proper) ∧
    (∀ acc s v r, ProperProps acc → parseMembers fuel acc s = some (v, r) → v.Proper) := by
  induction fuel with
  | zero =>
    refine ⟨fun s v r h => ?_, fun acc s v r _ h => ?_, fun acc s v r _ h => ?_⟩
    · rw [parseValue] at h
      cases h
    · rw [parseElems] at h
      cases h
    · rw [parseMembers] at h
      cases h
  | succ fuel ih =>
    obtain ⟨ihvalue, ihelems, ihmembers⟩ := ih
    refine ⟨fun s v r h => ?_, fun acc s v r hacc h => ?_, fun acc s v r hacc h => ?_⟩
    · rw [parseValue] at h
      split at h
      · obtain ⟨_, -, he⟩ := Option.map_eq_some_iff.1 h
        cases he
        exact .null
      · obtain ⟨_, -, he⟩ := Option.map_eq_some_iff.1 h
        cases he
        exact .bool true
      · obtain ⟨_, -, he⟩ := Option.map_eq_some_iff.1 h
        cases he
        exact .bool false
      · obtain ⟨_, -, he⟩ := Option.map_eq_some_iff.1 h
        cases he
        exact .str _
      · split at h
        · cases h
          exact .arr (by simp)
        · exact ihelems _ _ _ _ (by simp) h
      · split at h
        · cases h
          exact .obj (by simp) (by simp)
        · exact ihmembers _ _ _ _ ⟨by simp, by simp⟩ h
      · obtain ⟨_, -, he⟩ := Option.map_eq_some_iff.1 h
        cases he
        exact .num _
    · rw [parseElems] at h
      obtain ⟨⟨x, t⟩, hx, h⟩ := Option.bind_eq_some_iff.1 h
      have hxs : ∀ y ∈ acc ++ [x], y.Proper := by
        intro y hy
        rcases List.mem_append.1 hy with hy | hy
        · exact hacc y hy
        · rw [List.mem_singleton.1 hy]
          exact ihvalue _ _ _ hx
      dsimp only at h
      split at h
      · exact ihelems _ _ _ _ hxs h
      · cases h
        exact .arr hxs
      · cases h
    · rw [parseMembers] at h
      obtain ⟨t1, -, h⟩ := Option.bind_eq_some_iff.1 h
      obtain ⟨⟨k, t2⟩, -, h⟩ := Option.bind_eq_some_iff.1 h
      obtain ⟨t3, -, h⟩ := Option.bind_eq_some_iff.1 h
      obtain ⟨⟨x, t4⟩, hx, h⟩ := Option.bind_eq_some_iff.1 h
      have hps := hacc.setProp k (ihvalue _ _ _ hx)
      dsimp only at h
      split at h
      · exact ihmembers _ _ _ _ hps h
      · cases h
        exact .obj hps.1 hps.2
      · cases h

/-- **What `JSON.parse` reads is proper.** -/
theorem proper_of_parse {s : JString} {v : Json} (h : parse s = some v) : v.Proper := by
  obtain ⟨⟨w, t⟩, hw, h⟩ := Option.bind_eq_some_iff.1 h
  dsimp only at h
  split at h
  · cases h
    exact (proper_of_read _).1 _ _ _ hw
  · cases h

/-! ## Canonical values -/

/-- The canonical properties of an object. -/
theorem canon_obj (ps : List (JString × Json)) :
    (obj ps).canon = obj ((inOrder ps).map fun p => (p.1, p.2.canon)) := by
  rw [canon, canonProps_eq, inOrder_map]

theorem canon_arr (xs : List Json) : (arr xs).canon = arr (xs.map canon) := by
  rw [canon, canonElems_eq]

theorem canon_named {ps : List (JString × Json)} (h : ∀ p ∈ ps, isIndex p.1 = false) :
    (obj ps).canon = obj (ps.map fun p => (p.1, p.2.canon)) := by
  rw [canon_obj, inOrder_named h]

theorem proper_canon {v : Json} (h : v.Proper) : v.canon.Proper := by
  induction h with
  | null => exact .null
  | bool b => exact .bool b
  | num n =>
    rw [canon]
    split
    · exact .num n
    · exact .null
  | str s => exact .str s
  | arr _ ih =>
    rw [canon_arr]
    refine .arr fun y hy => ?_
    obtain ⟨x, hx, rfl⟩ := List.mem_map.1 hy
    exact ih x hx
  | obj hnodup _ ih =>
    rw [canon_obj]
    refine .obj ?_ fun q hq => ?_
    · rw [List.map_map]
      exact nodup_inOrder hnodup
    · obtain ⟨p, hp, rfl⟩ := List.mem_map.1 hq
      exact ih p (mem_inOrder.1 hp)

/-- A canonical value is its own canonical form. -/
theorem canon_canon {v : Json} (h : v.Proper) : v.canon.canon = v.canon := by
  induction h with
  | null => rfl
  | bool b => rfl
  | num n =>
    rw [canon]
    split
    · next hn => rw [canon, if_pos hn]
    · rfl
  | str s => rfl
  | arr _ ih =>
    rw [canon_arr, canon_arr, List.map_map]
    exact congrArg arr (List.map_congr_left ih)
  | @obj ps _ _ ih =>
    rw [canon_obj, canon_obj, inOrder_map, inOrder_inOrder, List.map_map]
    refine congrArg obj (List.map_congr_left fun p hp => ?_)
    simp only [Function.comp_apply, ih p (mem_inOrder.1 hp)]

/-- **What arrives has the text that was sent.** -/
theorem stringify_canon {v : Json} (h : v.Proper) : v.canon.stringify = v.stringify := by
  induction h with
  | null => rfl
  | bool b => rfl
  | num n =>
    rw [canon]
    split
    · rfl
    · next hn => rw [stringify, stringify, if_neg hn]
  | str s => rfl
  | arr _ ih =>
    rw [canon_arr, stringify_arr, stringify_arr, List.map_map]
    exact congrArg (fun t => 91 :: (join (js ",") t ++ [93])) (List.map_congr_left ih)
  | @obj ps _ _ ih =>
    rw [canon_obj, stringify_obj, stringify_obj, inOrder_map, inOrder_inOrder, List.map_map]
    refine congrArg (fun t => 123 :: (join (js ",") t ++ [125])) (List.map_congr_left fun p hp => ?_)
    simp only [Function.comp_apply, memberText, ih p (mem_inOrder.1 hp)]

/-! ### Access -/

/-- Among distinct keys, the order does not matter for a lookup. -/
theorem find_perm {ps qs : List (JString × Json)} (h : ps.Perm qs) (hnodup : (ps.map Prod.fst).Nodup)
    (k : JString) : ps.find? (fun p => p.1 == k) = qs.find? fun p => p.1 == k := by
  induction h with
  | nil => rfl
  | cons p _ ih =>
    rw [List.find?_cons, List.find?_cons, ih (List.nodup_cons.1 hnodup).2]
  | swap p q l =>
    have hne : q.1 ≠ p.1 := fun heq => (List.nodup_cons.1 hnodup).1 (heq ▸ List.mem_cons_self)
    simp only [List.find?_cons]
    by_cases hp : p.1 = k
    · rw [(beq_iff_eq).2 hp, beq_eq_false_iff_ne.2 (hp ▸ hne)]
    · rw [beq_eq_false_iff_ne.2 hp]
  | trans h _ ih1 ih2 =>
    exact (ih1 hnodup).trans (ih2 (((h.map Prod.fst).nodup_iff).1 hnodup))

/-- The fields of what arrives. -/
theorem field_canon {v : Json} (h : v.Proper) (k : JString) :
    v.canon.field k = (v.field k).map canon := by
  cases h with
  | @obj ps hnodup _ =>
    rw [canon_obj]
    simp only [field, List.find?_map, Option.map_map]
    rw [find_perm (inOrder_perm ps).symm hnodup k]
    rfl
  | num n =>
    rw [canon]
    split
    · rfl
    · rfl
  | _ => rfl

/-! ## The bytes of a text -/

theorem paired_hexByte (b : UInt8) : Paired (hexByte b) := by
  have hascii := ascii_of_isHexOf (isHexOf_bytesToHex [b])
  rw [show bytesToHex [b] = hexByte b from List.append_nil _] at hascii
  exact paired_of_ascii hascii

theorem paired_quoteUnit (c : UInt16) : Paired (quoteUnit c) := by
  have hescape {s : String} (hs : (js s).all (fun c => decide (c < 0x80)) = true) : Paired (js s) :=
    paired_of_ascii (ascii_of_all hs)
  unfold quoteUnit
  split
  · exact hescape (by decide)
  split
  · exact hescape (by decide)
  split
  · exact hescape (by decide)
  split
  · exact hescape (by decide)
  split
  · exact hescape (by decide)
  split
  · exact hescape (by decide)
  split
  · exact hescape (by decide)
  split
  · exact ((hescape (by decide)).append (paired_hexByte _)).append (paired_hexByte _)
  · next hplain =>
    simp only [Bool.or_eq_true, not_or, Bool.not_eq_true] at hplain
    exact Bool.or_eq_false_iff.2 ⟨hplain.1.2, hplain.2⟩

theorem paired_quoteUnits (s : JString) : Paired (quoteUnits s) := by
  induction s using quoteUnits.induct with
  | case1 => trivial
  | case2 c => exact paired_quoteUnit c
  | case3 c d s hcd ih =>
    rw [quoteUnits, if_pos hcd]
    obtain ⟨hc, hd⟩ := Bool.and_eq_true_iff.1 hcd
    exact (paired_pair hc hd).2 ih
  | case4 c d s hcd ih =>
    rw [quoteUnits, if_neg hcd]
    exact (paired_quoteUnit c).append ih

theorem paired_quote (s : JString) : Paired (quote s) :=
  ((paired_cons rfl).2 trivial : Paired (js "\"")).append (paired_quoteUnits s) |>.append
    ((paired_cons rfl).2 trivial)

theorem paired_join {sep : JString} (hsep : Paired sep) {l : List JString}
    (h : ∀ s ∈ l, Paired s) : Paired (join sep l) := by
  induction l with
  | nil => trivial
  | cons s l ih =>
    cases l with
    | nil => exact h s List.mem_cons_self
    | cons t l =>
      rw [join]
      · exact ((h s List.mem_cons_self).append hsep).append
          (ih fun u hu => h u (List.mem_cons_of_mem s hu))
      · exact List.cons_ne_nil t l

theorem paired_stringify {v : Json} (h : v.Proper) : Paired v.stringify := by
  have hends (c : UInt16) (hc : isSurrogate c = false) : Paired [c] := (paired_cons hc).2 trivial
  induction h with
  | null => exact paired_of_ascii (ascii_of_all (by decide))
  | bool b => cases b <;> exact paired_of_ascii (ascii_of_all (by decide))
  | num n =>
    rw [stringify]
    split
    · next hn =>
      obtain ⟨d, rfl⟩ := Number.isFinite_iff.1 hn
      exact paired_of_ascii d.ascii_text
    · exact paired_of_ascii (ascii_of_all (by decide))
  | str s => exact paired_quote s
  | arr _ ih =>
    rw [stringify_arr]
    refine (paired_cons rfl).2 ((paired_join (hends _ rfl) fun t ht => ?_).append (hends _ rfl))
    obtain ⟨x, hx, rfl⟩ := List.mem_map.1 ht
    exact ih x hx
  | obj _ _ ih =>
    rw [stringify_obj]
    refine (paired_cons rfl).2 ((paired_join (hends _ rfl) fun t ht => ?_).append (hends _ rfl))
    obtain ⟨p, hp, rfl⟩ := List.mem_map.1 ht
    exact ((paired_quote p.1).append (hends _ rfl)).append (ih p (mem_inOrder.1 hp))

/-- What a body of this text is read as: `await request.json()`. -/
def received (text : JString) : Option Json := parse (decode (encode text))

/-- **A value arrives in its canonical form.** -/
theorem received_stringify {v : Json} (h : v.Proper) : received v.stringify = some v.canon := by
  obtain ⟨c, s, hs, hc⟩ := stringify_cons v
  have hpaired := paired_stringify h
  rw [hs] at hpaired
  rw [received, hs, decode_encode hpaired hc.2.2.2.2.2, ← hs, parse_stringify h]

end Js.Json
