/-
  The depth of a message.

  `jsonDepth` stops where it has gone one step below the limit, and leaves a loop
  over children as soon as one of them is that deep.

  * `Inside v k` says that a value is `k` steps below `v`, so that the depth of `v`
    is the greatest such `k`; `nesting` computes it without a limit;
  * `jsonDepth_eq`: `jsonDepth` is the minimum of the depth and the first number
    above the limit;
  * `tracedDepth` is `jsonDepth` with the arguments of all calls it makes;
  * `depth_limit` is what the shape check makes of it.
-/
import Mathlib.Order.Bounds.Basic
import NexTalkRelay.Shard.Auth

open Effect Js

namespace Shard

/-! ## The depth of a value -/

/-- The values directly inside a value. -/
def children : Json → List Json
  | .arr xs => xs
  | .obj ps => ps.map Prod.snd
  | _ => []

/-- A value is `k` steps below another one. -/
inductive Inside : Json → ℕ → Prop
  | here (v : Json) : Inside v 0
  | step {v c : Json} {k : ℕ} (hc : c ∈ children v) (hk : Inside c k) : Inside v (k + 1)

mutual
/-- The number of steps to the deepest value. -/
def nesting : Json → ℕ
  | .arr xs => elemsNesting xs
  | .obj ps => propsNesting ps
  | _ => 0

/-- The elements of an array. -/
def elemsNesting : List Json → ℕ
  | [] => 0
  | x :: xs => max (nesting x + 1) (elemsNesting xs)

/-- The values of an object. -/
def propsNesting : List (JString × Json) → ℕ
  | [] => 0
  | p :: ps => max (nesting p.2 + 1) (propsNesting ps)
end

theorem propsNesting_eq (ps : List (JString × Json)) :
    propsNesting ps = elemsNesting (ps.map Prod.snd) := by
  induction ps with
  | nil => rfl
  | cons p ps ih => rw [propsNesting, List.map_cons, elemsNesting, ih]

theorem nesting_eq (v : Json) : nesting v = elemsNesting (children v) := by
  cases v with
  | arr xs => rw [nesting, children]
  | obj ps => rw [nesting, children, propsNesting_eq]
  | null | bool | num | str => simp only [nesting, children, elemsNesting]

theorem le_elemsNesting {c : Json} {xs : List Json} (hc : c ∈ xs) :
    nesting c + 1 ≤ elemsNesting xs := by
  induction xs with
  | nil => cases hc
  | cons x xs ih =>
    rw [elemsNesting]
    rcases List.mem_cons.1 hc with rfl | hc
    · exact le_max_left _ _
    · exact (ih hc).trans (le_max_right _ _)

/-- Some child is as deep as the deepest. -/
theorem exists_elemsNesting {xs : List Json} (hne : xs ≠ []) :
    ∃ c ∈ xs, elemsNesting xs = nesting c + 1 := by
  induction xs with
  | nil => exact absurd rfl hne
  | cons x xs ih =>
    rw [elemsNesting]
    rcases Nat.le_total (elemsNesting xs) (nesting x + 1) with hle | hle
    · exact ⟨x, List.mem_cons_self, max_eq_left hle⟩
    · have hxs : xs ≠ [] := by
        rintro rfl
        simp [elemsNesting] at hle
      obtain ⟨c, hc, heq⟩ := ih hxs
      exact ⟨c, List.mem_cons_of_mem x hc, (max_eq_right hle).trans heq⟩

theorem Inside.le_nesting {v : Json} {k : ℕ} (h : Inside v k) : k ≤ nesting v := by
  induction h with
  | here v => exact Nat.zero_le _
  | step hc _ ih =>
    have := le_elemsNesting hc
    rw [nesting_eq]
    omega

theorem inside_nesting (n : ℕ) : ∀ v, nesting v = n → Inside v n := by
  induction n with
  | zero =>
    intro v _
    exact .here v
  | succ n ih =>
    intro v hv
    have hne : children v ≠ [] := by
      intro hnil
      rw [nesting_eq, hnil, elemsNesting] at hv
      omega
    obtain ⟨c, hc, heq⟩ := exists_elemsNesting hne
    rw [nesting_eq] at hv
    exact .step hc (ih c (by omega))

/-- `nesting` is the length of the longest path. -/
theorem isGreatest_nesting (v : Json) : IsGreatest {k | Inside v k} (nesting v) :=
  ⟨inside_nesting _ v rfl, fun _ h => h.le_nesting⟩

/-! ## The depth with a limit -/

mutual
/-- From any depth that a call may have, the depth below the value is counted as far
    as the limit reaches. -/
theorem jsonDepth_eq (v : Json) (depth : ℕ) (h : depth ≤ maxJsonDepth + 1) :
    jsonDepth v depth = min (maxJsonDepth + 1) (depth + nesting v) := by
  rw [jsonDepth.eq_def]
  by_cases hlimit : maxJsonDepth < depth
  · rw [if_pos hlimit]
    omega
  · rw [if_neg hlimit]
    cases v with
    | arr xs =>
      rw [nesting]
      exact (elemsDepth_eq xs depth depth (by omega) le_rfl (by omega)).trans (by omega)
    | obj ps =>
      rw [nesting]
      exact (propsDepth_eq ps depth depth (by omega) le_rfl (by omega)).trans (by omega)
    | null | bool | num | str =>
      simp only [nesting]
      omega

/-- The loop has the maximum of the children before it in `m`. -/
theorem elemsDepth_eq (xs : List Json) (depth m : ℕ) (h : depth ≤ maxJsonDepth) (hm : depth ≤ m)
    (hmax : m ≤ maxJsonDepth + 1) :
    elemsDepth xs depth m = min (maxJsonDepth + 1) (max m (depth + elemsNesting xs)) := by
  cases xs with
  | nil =>
    rw [elemsDepth, elemsNesting]
    omega
  | cons x xs =>
    have hx := jsonDepth_eq x (depth + 1) (by omega)
    rw [elemsDepth, elemsNesting]
    by_cases hbreak : maxJsonDepth < if m < jsonDepth x (depth + 1) then jsonDepth x (depth + 1) else m
    · rw [if_pos hbreak]
      split at hbreak <;> split <;> omega
    · rw [if_neg hbreak, elemsDepth_eq xs depth _ h (by split <;> omega) (by omega)]
      split <;> omega

theorem propsDepth_eq (ps : List (JString × Json)) (depth m : ℕ) (h : depth ≤ maxJsonDepth)
    (hm : depth ≤ m) (hmax : m ≤ maxJsonDepth + 1) :
    propsDepth ps depth m = min (maxJsonDepth + 1) (max m (depth + propsNesting ps)) := by
  cases ps with
  | nil =>
    rw [propsDepth, propsNesting]
    omega
  | cons p ps =>
    have hp := jsonDepth_eq p.2 (depth + 1) (by omega)
    rw [propsDepth, propsNesting]
    by_cases hbreak :
        maxJsonDepth < if m < jsonDepth p.2 (depth + 1) then jsonDepth p.2 (depth + 1) else m
    · rw [if_pos hbreak]
      split at hbreak <;> split <;> omega
    · rw [if_neg hbreak, propsDepth_eq ps depth _ h (by split <;> omega) (by omega)]
      split <;> omega
end

/-! ## The calls -/

mutual
/-- `jsonDepth` with the depths of all its calls, itself the first. -/
def tracedDepth (value : Json) (depth : ℕ) : ℕ × List ℕ :=
  if maxJsonDepth < depth then (depth, [depth])
  else match value with
    | .arr xs => let t := tracedElems xs depth depth; (t.1, depth :: t.2)
    | .obj ps => let t := tracedProps ps depth depth; (t.1, depth :: t.2)
    | _ => (depth, [depth])

/-- The loop over the elements of an array. -/
def tracedElems (xs : List Json) (depth max : ℕ) : ℕ × List ℕ :=
  match xs with
  | [] => (max, [])
  | x :: xs =>
    let d := tracedDepth x (depth + 1)
    let max := if max < d.1 then d.1 else max
    if maxJsonDepth < max then (max, d.2)
    else let t := tracedElems xs depth max; (t.1, d.2 ++ t.2)

/-- The loop over the values of an object. -/
def tracedProps (ps : List (JString × Json)) (depth max : ℕ) : ℕ × List ℕ :=
  match ps with
  | [] => (max, [])
  | p :: ps =>
    let d := tracedDepth p.2 (depth + 1)
    let max := if max < d.1 then d.1 else max
    if maxJsonDepth < max then (max, d.2)
    else let t := tracedProps ps depth max; (t.1, d.2 ++ t.2)
end

mutual
/-- The trace changes nothing. -/
theorem tracedDepth_fst (v : Json) (depth : ℕ) : (tracedDepth v depth).1 = jsonDepth v depth := by
  rw [tracedDepth.eq_def, jsonDepth.eq_def]
  by_cases hlimit : maxJsonDepth < depth
  · rw [if_pos hlimit, if_pos hlimit]
  · rw [if_neg hlimit, if_neg hlimit]
    cases v with
    | arr xs => exact tracedElems_fst xs depth depth
    | obj ps => exact tracedProps_fst ps depth depth
    | null | bool | num | str => rfl

theorem tracedElems_fst (xs : List Json) (depth m : ℕ) :
    (tracedElems xs depth m).1 = elemsDepth xs depth m := by
  cases xs with
  | nil => rw [tracedElems, elemsDepth]
  | cons x xs =>
    rw [tracedElems, elemsDepth]
    simp only [tracedDepth_fst x (depth + 1)]
    by_cases hbreak : maxJsonDepth < if m < jsonDepth x (depth + 1) then jsonDepth x (depth + 1) else m
    · rw [if_pos hbreak, if_pos hbreak]
    · rw [if_neg hbreak, if_neg hbreak]
      exact tracedElems_fst xs depth _

theorem tracedProps_fst (ps : List (JString × Json)) (depth m : ℕ) :
    (tracedProps ps depth m).1 = propsDepth ps depth m := by
  cases ps with
  | nil => rw [tracedProps, propsDepth]
  | cons p ps =>
    rw [tracedProps, propsDepth]
    simp only [tracedDepth_fst p.2 (depth + 1)]
    by_cases hbreak :
        maxJsonDepth < if m < jsonDepth p.2 (depth + 1) then jsonDepth p.2 (depth + 1) else m
    · rw [if_pos hbreak, if_pos hbreak]
    · rw [if_neg hbreak, if_neg hbreak]
      exact tracedProps_fst ps depth _
end

mutual
/-- No call goes further than one step below the limit. -/
theorem tracedDepth_le (v : Json) (depth : ℕ) (h : depth ≤ maxJsonDepth + 1) :
    ∀ d ∈ (tracedDepth v depth).2, d ≤ maxJsonDepth + 1 := by
  rw [tracedDepth.eq_def]
  by_cases hlimit : maxJsonDepth < depth
  · rw [if_pos hlimit]
    simpa using h
  · rw [if_neg hlimit]
    cases v with
    | arr xs =>
      exact List.forall_mem_cons.2 ⟨h, tracedElems_le xs depth depth (by omega)⟩
    | obj ps =>
      exact List.forall_mem_cons.2 ⟨h, tracedProps_le ps depth depth (by omega)⟩
    | null | bool | num | str => simpa using h

theorem tracedElems_le (xs : List Json) (depth m : ℕ) (h : depth ≤ maxJsonDepth) :
    ∀ d ∈ (tracedElems xs depth m).2, d ≤ maxJsonDepth + 1 := by
  cases xs with
  | nil => simp [tracedElems]
  | cons x xs =>
    have hx := tracedDepth_le x (depth + 1) (by omega)
    rw [tracedElems]
    generalize (if m < (tracedDepth x (depth + 1)).1 then (tracedDepth x (depth + 1)).1 else m) = m'
    by_cases hbreak : maxJsonDepth < m'
    · rw [if_pos hbreak]
      exact hx
    · rw [if_neg hbreak]
      exact List.forall_mem_append.2 ⟨hx, tracedElems_le xs depth _ h⟩

theorem tracedProps_le (ps : List (JString × Json)) (depth m : ℕ) (h : depth ≤ maxJsonDepth) :
    ∀ d ∈ (tracedProps ps depth m).2, d ≤ maxJsonDepth + 1 := by
  cases ps with
  | nil => simp [tracedProps]
  | cons p ps =>
    have hp := tracedDepth_le p.2 (depth + 1) (by omega)
    rw [tracedProps]
    generalize (if m < (tracedDepth p.2 (depth + 1)).1 then (tracedDepth p.2 (depth + 1)).1 else m) = m'
    by_cases hbreak : maxJsonDepth < m'
    · rw [if_pos hbreak]
      exact hp
    · rw [if_neg hbreak]
      exact List.forall_mem_append.2 ⟨hp, tracedProps_le ps depth _ h⟩
end

/-! ## The shape check -/

/-- The text of the error about the depth. -/
def depthError : JString :=
  js "envelope exceeds max nesting depth (" ++ digits maxJsonDepth ++ js ")"

/-- An object or an array whose type, if it is a string, is one of those of an
    envelope. -/
def Recognised (v : Json) : Prop :=
  match v with
  | .arr _ => True
  | .obj _ => ∀ type, Json.asStr? (v.field (js "type")) = some type → type ∈ allowedEnvelopeTypes
  | _ => False

theorem typeError_ne (type : JString) :
    js "envelope type '" ++ type ++ js "' is not recognized" ≠ depthError := by
  intro h
  have hchar := congrArg (fun s : JString => s[9]?) h
  simp only [List.append_assoc, depthError] at hchar
  rw [List.getElem?_append_left (by decide), List.getElem?_append_left (by decide)] at hchar
  exact absurd hchar (by decide)

/-- What the check says, as a choice of three errors. -/
theorem validateEnvelopeShape_eq (v : Json) :
    (Recognised v ∧ validateEnvelopeShape v =
      if maxJsonDepth < jsonDepth v 0 then some depthError else none) ∨
    (¬ Recognised v ∧ ∃ error, validateEnvelopeShape v = some error ∧ error ≠ depthError) := by
  cases v with
  | arr xs => exact Or.inl ⟨trivial, rfl⟩
  | obj ps =>
    unfold validateEnvelopeShape Recognised
    dsimp only
    cases htype : Json.asStr? (Json.field (.obj ps) (js "type")) with
    | none =>
      refine Or.inl ⟨?_, rfl⟩
      intro type h
      cases h
    | some type =>
      dsimp only
      by_cases hallowed : type ∈ allowedEnvelopeTypes
      · rw [if_pos (List.contains_iff_mem.2 hallowed)]
        refine Or.inl ⟨?_, rfl⟩
        intro type' h
        obtain rfl := Option.some.inj h
        exact hallowed
      · rw [if_neg (by simpa using hallowed)]
        exact Or.inr ⟨fun h => hallowed (h type rfl), _, rfl, typeError_ne type⟩
  | null | bool | num | str =>
    exact Or.inr ⟨id, js "message must decode to a JSON object", rfl, by decide⟩

/-- **The depth limit.**  `jsonDepth` is the minimum of `MAX_JSON_DEPTH + 1` and the
    length of the longest path from the root to any value; no call has a greater depth
    than that number; and of the values whose type passes, the shape check refuses for
    their depth those that are deeper than the limit. -/
theorem depth_limit (v : Json) : ∃ n, IsGreatest {k | Inside v k} n ∧
    jsonDepth v 0 = min (maxJsonDepth + 1) n ∧
    (tracedDepth v 0).1 = jsonDepth v 0 ∧ (∀ d ∈ (tracedDepth v 0).2, d ≤ maxJsonDepth + 1) ∧
    (validateEnvelopeShape v = some depthError ↔ Recognised v ∧ maxJsonDepth < n) ∧
    (maxJsonDepth < n → validateEnvelopeShape v ≠ none) := by
  have hdepth := jsonDepth_eq v 0 (Nat.zero_le _)
  rw [Nat.zero_add] at hdepth
  have hlimit : maxJsonDepth < jsonDepth v 0 ↔ maxJsonDepth < nesting v := by omega
  refine ⟨nesting v, isGreatest_nesting v, hdepth, tracedDepth_fst v 0,
    tracedDepth_le v 0 (Nat.zero_le _), ?_⟩
  rcases validateEnvelopeShape_eq v with ⟨hrec, heq⟩ | ⟨hrec, error, heq, hne⟩
  · rw [heq]
    by_cases hdeep : maxJsonDepth < nesting v
    · rw [if_pos (hlimit.2 hdeep)]
      simp [hdeep, hrec]
    · rw [if_neg (fun h => hdeep (hlimit.1 h))]
      simp [hdeep]
  · simp [heq, hne, hrec]

/-- Arrays inside each other. -/
def nested : ℕ → Json
  | 0 => .null
  | n + 1 => .arr [nested n]

/-- An object that is too deep, and of a type that is refused before. -/
def deepOther : Json := .obj [(js "type", .str (js "other")), (js "body", nested 9)]

theorem type_refused_first : ¬ ∀ v n, IsGreatest {k | Inside v k} n →
    (validateEnvelopeShape v = some depthError ↔ maxJsonDepth < n) := by
  intro h
  have hiff := h deepOther (nesting deepOther) (isGreatest_nesting _)
  exact absurd (hiff.2 (by decide)) (by decide)

end Shard
