/-
  Words separated by a delimiter.

  A text built from fields and a delimiter determines its fields as far as the
  delimiter does not occur in them.

  * `cut` compares two texts at their first delimiter, `cut_last` at their
    last one;
  * `prefix_cases` says where a start of a text that ends with the delimiter may
    end;
  * `fields` is a text of several fields and a rest, and `cut_fields` and
    `fields_injective` compare two of them;
  * `trailing` is a text with several fields at its end, and `cut_trailing`
    compares two of them.
-/
import Mathlib.Data.List.Basic

namespace Delim

variable {α : Type} {s : α} {a b x y : List α}

/-- **First field.** Two texts whose first fields are free of the delimiter
    agree in the first field and in the rest. -/
theorem cut (ha : s ∉ a) (hb : s ∉ b) (h : a ++ s :: x = b ++ s :: y) : a = b ∧ x = y := by
  induction a generalizing b with
  | nil =>
    cases b with
    | nil => exact ⟨rfl, (List.cons.inj h).2⟩
    | cons c b => exact absurd (List.mem_cons.2 (Or.inl (List.cons.inj h).1)) hb
  | cons c a ih =>
    cases b with
    | nil => exact absurd (List.mem_cons.2 (Or.inl (List.cons.inj h).1.symm)) ha
    | cons d b =>
      obtain ⟨rfl, htl⟩ := List.cons.inj h
      obtain ⟨rfl, rfl⟩ := ih (fun m => ha (List.mem_cons_of_mem _ m))
        (fun m => hb (List.mem_cons_of_mem _ m)) htl
      exact ⟨rfl, rfl⟩

/-- **Last field.** Two texts whose last fields are free of the delimiter
    agree in the last field and in what comes before. -/
theorem cut_last (hx : s ∉ x) (hy : s ∉ y) (h : a ++ s :: x = b ++ s :: y) : a = b ∧ x = y := by
  have hr : x.reverse ++ s :: a.reverse = y.reverse ++ s :: b.reverse := by
    simpa using congrArg List.reverse h
  obtain ⟨h1, h2⟩ := cut (by simpa using hx) (by simpa using hy) hr
  exact ⟨List.reverse_injective h2, List.reverse_injective h1⟩

/-- A text with a single delimiter is split there only. -/
theorem cut_only (hx : s ∉ x) (hy : s ∉ y) (h : a ++ s :: b = x ++ s :: y) : a = x ∧ b = y := by
  rcases List.append_eq_append_iff.1 h with ⟨c, rfl, hc⟩ | ⟨c, rfl, hc⟩
  · cases c with
    | nil => exact ⟨(List.append_nil a).symm, (List.cons.inj hc).2⟩
    | cons d c =>
      obtain rfl := (List.cons.inj hc).1
      exact absurd (List.mem_append_right a List.mem_cons_self) hx
  · cases c with
    | nil => exact ⟨List.append_nil x, (List.cons.inj hc).2.symm⟩
    | cons d c =>
      obtain ⟨rfl, rfl⟩ := List.cons.inj hc
      exact absurd (List.mem_append_right c List.mem_cons_self) hy

/-- A start of a text that ends with the delimiter ends inside the first part, or
    at the only delimiter that follows. -/
theorem prefix_cases (hx : s ∉ x) (hy : s ∉ y) (h : b ++ [s] <+: a ++ (x ++ s :: y)) :
    b ++ [s] <+: a ∨ b = a ++ x := by
  by_cases hl : (b ++ [s]).length ≤ a.length
  · exact Or.inl (List.prefix_of_prefix_length_le h (List.prefix_append _ _) hl)
  · obtain ⟨d, hd⟩ := List.prefix_of_prefix_length_le (List.prefix_append a _) h (by omega)
    obtain ⟨rest, hrest⟩ := h
    rcases List.eq_nil_or_concat d with rfl | ⟨d, e, rfl⟩
    · rw [List.append_nil] at hd
      rw [hd] at hl
      exact absurd (Nat.le_refl _) hl
    · rw [List.concat_eq_append, ← List.append_assoc] at hd
      obtain ⟨rfl, he⟩ := List.append_inj' hd rfl
      obtain rfl := List.singleton_inj.1 he
      rw [List.append_assoc, List.append_assoc, List.append_cancel_left_eq] at hrest
      rw [(cut_only hx hy hrest).1]
      exact Or.inr rfl

/-! ## Several fields -/

/-- Fields, each followed by the delimiter, and the rest of the text. -/
def fields (s : α) (fs : List (List α)) (rest : List α) : List α :=
  fs.foldr (fun f rest => f ++ s :: rest) rest

variable {fs gs : List (List α)}

/-- **Leading fields.** As many fields without the delimiter are the same, and so
    is what follows them. -/
theorem cut_fields (hfs : ∀ f ∈ fs, s ∉ f) (hgs : ∀ g ∈ gs, s ∉ g) (hlen : fs.length = gs.length)
    (h : fields s fs x = fields s gs y) : fs = gs ∧ x = y := by
  induction fs generalizing gs with
  | nil =>
    obtain rfl := List.length_eq_zero_iff.1 hlen.symm
    exact ⟨rfl, h⟩
  | cons f fs ih =>
    cases gs with
    | nil => cases hlen
    | cons g gs =>
      rw [List.forall_mem_cons] at hfs hgs
      obtain ⟨rfl, hrest⟩ := cut hfs.1 hgs.1 h
      obtain ⟨rfl, rfl⟩ := ih hfs.2 hgs.2 (Nat.succ.inj hlen) hrest
      exact ⟨rfl, rfl⟩

theorem count_fields [DecidableEq α] (fs : List (List α)) (x : List α) :
    (fields s fs x).count s = fs.length + fs.flatten.count s + x.count s := by
  induction fs with
  | nil => simp [fields]
  | cons f fs ih =>
    unfold fields at ih ⊢
    rw [List.foldr_cons, List.count_append, List.count_cons_self, ih]
    simp only [List.length_cons, List.flatten_cons, List.count_append]
    omega

/-- **All fields.** If one of two texts has no delimiters but those between its
    fields, the fields are the same. -/
theorem fields_injective [DecidableEq α] (hgs : ∀ g ∈ gs, s ∉ g) (hy : s ∉ y)
    (hlen : fs.length = gs.length) (h : fields s fs x = fields s gs y) : fs = gs ∧ x = y := by
  have hzero {hs : List (List α)} : hs.flatten.count s = 0 ↔ ∀ f ∈ hs, s ∉ f := by
    simp [List.count_eq_zero]
  have hcount := congrArg (List.count s) h
  rw [count_fields, count_fields, hzero.2 hgs, List.count_eq_zero.2 hy] at hcount
  exact cut_fields (hzero.1 (by omega)) hgs hlen h

/-- A text and fields after it, each behind a delimiter. -/
def trailing (s : α) (text : List α) (fs : List (List α)) : List α :=
  fs.foldl (fun text f => text ++ s :: f) text

/-- **Trailing fields.** As many fields without the delimiter are the same, and so
    is what precedes them. -/
theorem cut_trailing (hfs : ∀ f ∈ fs, s ∉ f) (hgs : ∀ g ∈ gs, s ∉ g) (hlen : fs.length = gs.length)
    (h : trailing s x fs = trailing s y gs) : x = y ∧ fs = gs := by
  induction fs generalizing gs x y with
  | nil =>
    obtain rfl := List.length_eq_zero_iff.1 hlen.symm
    exact ⟨h, rfl⟩
  | cons f fs ih =>
    cases gs with
    | nil => cases hlen
    | cons g gs =>
      rw [List.forall_mem_cons] at hfs hgs
      obtain ⟨hfront, rfl⟩ := ih hfs.2 hgs.2 (Nat.succ.inj hlen) h
      obtain ⟨rfl, rfl⟩ := cut_last hfs.1 hgs.1 hfront
      exact ⟨rfl, rfl⟩

end Delim
