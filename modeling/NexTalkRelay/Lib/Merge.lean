/-
  Merging lists without repetition.

  `pushAbsent base xs` pushes the elements of `xs`, one after the other, to the
  end of `base`, except those that are already there.

  * `pushAbsent_eq`: the result is `base` followed by `absent base xs`, the
    elements that were missing;
  * the result grows at its end with `xs` (`pushAbsent_append`), but with
    `base` only under the condition of `prefix_insert_iff`; `prefix_last_iff` is
    the condition for one element that is always pushed last.
-/
import Mathlib.Data.List.Basic
import Mathlib.Data.List.Nodup
import Mathlib.Data.List.Infix

namespace Merge

variable {α : Type} [DecidableEq α]

/-- Push the elements of `xs` that are not there yet. -/
def pushAbsent (base xs : List α) : List α :=
  xs.foldl (fun merged x => if x ∈ merged then merged else merged ++ [x]) base

/-- The elements of `xs` missing in `base`, without repetition. -/
def absent (base : List α) : List α → List α
  | [] => []
  | x :: xs => if x ∈ base then absent base xs else x :: absent (base ++ [x]) xs

variable {base ys xs : List α} {x y : α}

theorem pushAbsent_eq (base xs : List α) : pushAbsent base xs = base ++ absent base xs := by
  induction xs generalizing base with
  | nil => simp [pushAbsent, absent]
  | cons x xs ih =>
    rw [absent]
    split
    · next h => rw [← ih]; simp only [pushAbsent, List.foldl_cons, if_pos h]
    · next h =>
      have hstep : pushAbsent base (x :: xs) = pushAbsent (base ++ [x]) xs := by
        simp only [pushAbsent, List.foldl_cons, if_neg h]
      rw [hstep, ih, List.append_assoc, List.singleton_append]

theorem pushAbsent_append (base xs ys : List α) :
    pushAbsent base (xs ++ ys) = pushAbsent (pushAbsent base xs) ys := List.foldl_append

theorem pushAbsent_singleton (base : List α) (x : α) :
    pushAbsent base [x] = if x ∈ base then base else base ++ [x] := rfl

theorem prefix_pushAbsent (base xs : List α) : base <+: pushAbsent base xs := by
  rw [pushAbsent_eq]; exact List.prefix_append _ _

@[simp] theorem mem_pushAbsent : y ∈ pushAbsent base xs ↔ y ∈ base ∨ y ∈ xs := by
  induction xs generalizing base with
  | nil => simp [pushAbsent]
  | cons x xs ih =>
    have hstep : pushAbsent base (x :: xs) = pushAbsent (if x ∈ base then base else base ++ [x]) xs :=
      rfl
    rw [hstep, ih]
    split
    · next h => aesop
    · simp [or_assoc]

theorem mem_absent : y ∈ absent base xs ↔ y ∉ base ∧ y ∈ xs := by
  induction xs generalizing base with
  | nil => simp [absent]
  | cons x xs ih =>
    rw [absent]
    split
    · next h => rw [ih]; aesop
    · next h =>
      simp only [List.mem_cons, ih, List.mem_append, List.not_mem_nil, or_false, not_or]
      constructor
      · rintro (rfl | ⟨⟨hy, -⟩, hm⟩)
        exacts [⟨h, Or.inl rfl⟩, ⟨hy, Or.inr hm⟩]
      · rintro ⟨hy, rfl | hm⟩
        · exact Or.inl rfl
        · exact (eq_or_ne y x).imp id fun hyx => ⟨⟨hy, hyx⟩, hm⟩

theorem nodup_absent (base xs : List α) : (absent base xs).Nodup := by
  induction xs generalizing base with
  | nil => exact List.nodup_nil
  | cons x xs ih =>
    rw [absent]
    split
    · exact ih base
    · exact List.nodup_cons.2 ⟨fun h => (mem_absent.1 h).1 (by simp), ih _⟩

theorem nodup_pushAbsent (h : base.Nodup) : (pushAbsent base xs).Nodup := by
  rw [pushAbsent_eq, List.nodup_append]
  exact ⟨h, nodup_absent base xs, fun a ha b hb hab => (mem_absent.1 hb).1 (hab ▸ ha)⟩

/-- Only the elements of `base` matter. -/
theorem absent_congr {base' : List α} (h : ∀ a, a ∈ base ↔ a ∈ base') :
    absent base xs = absent base' xs := by
  induction xs generalizing base base' with
  | nil => rfl
  | cons x xs ih =>
    have hx : ∀ a, a ∈ base ++ [x] ↔ a ∈ base' ++ [x] := by simp [h]
    rw [absent, absent, ih h, ih hx]
    simp only [h]

/-- What is inserted at the end of `base` is missing no more. -/
theorem absent_insert (base ys xs : List α) :
    absent (base ++ ys) xs = (absent base xs).filter fun a => a ∉ ys := by
  induction xs generalizing base with
  | nil => rfl
  | cons x xs ih =>
    rw [absent, absent]
    by_cases hb : x ∈ base
    · rw [if_pos (List.mem_append_left ys hb), if_pos hb, ih]
    · by_cases hy : x ∈ ys
      · rw [if_pos (List.mem_append_right base hy), if_neg hb,
          List.filter_cons_of_neg (by simpa using hy), ← ih]
        exact absent_congr fun a => by simp only [List.mem_append, List.mem_singleton]; aesop
      · rw [if_neg (by simp [hb, hy]), if_neg hb, List.filter_cons_of_pos (by simpa using hy), ← ih]
        congr 1
        exact absent_congr fun a => by simp only [List.mem_append, List.mem_singleton]; tauto

omit [DecidableEq α] in
/-- Two lists of which one continues the other. -/
theorem prefix_or_prefix {r a b : List α} (h : r <+: a ++ b) : a <+: r ∨ r <+: a := by
  rcases le_total a.length r.length with hl | hl
  · exact Or.inl (List.prefix_of_prefix_length_le (List.prefix_append a b) h hl)
  · exact Or.inr (List.prefix_of_prefix_length_le h (List.prefix_append a b) hl)

/-- **Growth in the middle.** Insertion at the end of `base` keeps the merged
    list as a prefix iff what is inserted and what was missing continue each
    other. -/
theorem prefix_insert_iff (base ys xs : List α) :
    pushAbsent base xs <+: pushAbsent (base ++ ys) xs ↔
      ys <+: absent base xs ∨ absent base xs <+: ys := by
  rw [pushAbsent_eq, pushAbsent_eq, absent_insert, List.append_assoc, List.prefix_append_right_inj]
  constructor
  · exact prefix_or_prefix
  · rintro (⟨rest, hr⟩ | h)
    · have hnd := nodup_absent base xs
      rw [← hr] at hnd ⊢
      rw [List.nodup_append] at hnd
      have hys : ys.filter (fun a => a ∉ ys) = [] := by simp
      have hrest : rest.filter (fun a => a ∉ ys) = rest := by
        rw [List.filter_eq_self]
        intro a ha
        simpa using fun h => hnd.2.2 a h a ha rfl
      rw [List.filter_append, hys, hrest, List.nil_append]
    · exact h.trans (List.prefix_append _ _)

/-- **An element pushed last.** A list that ends with the push of `x` keeps its
    prefix when `y` comes in before, except if that moves `x`. -/
theorem prefix_last_iff (m : List α) (x y : α) :
    pushAbsent m [x] <+: pushAbsent (pushAbsent m [y]) [x] ↔ x ∈ m ∨ y ∈ m ∨ x = y := by
  simp only [pushAbsent_singleton]
  by_cases hx : x ∈ m
  · rw [if_pos hx, iff_true_intro (Or.inl hx : x ∈ m ∨ y ∈ m ∨ x = y), iff_true]
    by_cases hy : y ∈ m
    · simp [hx, hy]
    · simp [hx, hy, List.prefix_append]
  · by_cases hy : y ∈ m
    · simp [hx, hy]
    · by_cases hxy : x = y
      · subst hxy; simp [hx]
      · simp [hx, hy, hxy, List.append_assoc, List.prefix_append_right_inj]

end Merge
