/-
  Streams that arrive in chunks.

  * `readFull` reads a number of elements over as many chunks as it takes;
    `readFull_eq_none` and `readFull_eq_some`: what it returns and what it leaves
    depend on the stream only, not on the chunks;
  * `Parsed next` says which items stand at the front of a stream, up to the first
    place where `next` finds none.
-/
import Mathlib.Data.List.Basic

namespace Chunks

variable {α β : Type}

/-! ## Reading -/

/-- The first `n` elements, and the chunks behind them. -/
def readFull : ℕ → List (List α) → Option (List α × List (List α))
  | n, [] => if n = 0 then some ([], []) else none
  | n, c :: cs =>
    if n ≤ c.length then some (c.take n, c.drop n :: cs)
    else (readFull (n - c.length) cs).map fun p => (c ++ p.1, p.2)

theorem readFull_eq_none {n : ℕ} {chunks : List (List α)} :
    readFull n chunks = none ↔ chunks.flatten.length < n := by
  induction chunks generalizing n with
  | nil =>
    rw [readFull, List.flatten_nil, List.length_nil]
    split <;> simp <;> omega
  | cons c cs ih =>
    rw [readFull, List.flatten_cons, List.length_append]
    split
    · simp only [reduceCtorEq, false_iff]
      omega
    · rw [Option.map_eq_none_iff, ih]
      omega

theorem readFull_eq_some {n : ℕ} {chunks rest : List (List α)} {x : List α}
    (h : readFull n chunks = some (x, rest)) :
    n ≤ chunks.flatten.length ∧ x = chunks.flatten.take n ∧
      rest.flatten = chunks.flatten.drop n := by
  induction chunks generalizing n x rest with
  | nil =>
    rw [readFull] at h
    split at h
    · next hn =>
      cases h
      subst hn
      exact ⟨Nat.le_refl _, rfl, rfl⟩
    · cases h
  | cons c cs ih =>
    rw [readFull] at h
    simp only [List.flatten_cons, List.length_append]
    split at h
    · next hn =>
      cases h
      refine ⟨by omega, ?_, ?_⟩
      · rw [List.take_append_of_le_length hn]
      · rw [List.drop_append_of_le_length hn, List.flatten_cons]
    · next hn =>
      obtain ⟨⟨y, r⟩, hread, heq⟩ := Option.map_eq_some_iff.1 h
      cases heq
      obtain ⟨hle, hy, hr⟩ := ih hread
      refine ⟨by omega, ?_, ?_⟩
      · rw [List.take_append, List.take_of_length_le (by omega), hy]
      · rw [List.drop_append, List.drop_of_length_le (by omega), List.nil_append]
        exact hr

/-! ## Parsing -/

/-- The items at the front of the stream. -/
inductive Parsed (next : List α → Option (β × List α)) : List α → List β → Prop
  | stop {s : List α} (found : next s = none) : Parsed next s []
  | item {s rest : List α} {b : β} {bs : List β} (found : next s = some (b, rest))
      (others : Parsed next rest bs) : Parsed next s (b :: bs)

variable {next : List α → Option (β × List α)}

theorem Parsed.unique {s : List α} {bs bs' : List β} (h : Parsed next s bs)
    (h' : Parsed next s bs') : bs = bs' := by
  induction h generalizing bs' with
  | stop hnone =>
    cases h' with
    | stop _ => rfl
    | item hsome _ => cases hnone.symm.trans hsome
  | item hsome _ ih =>
    cases h' with
    | stop hnone => cases hnone.symm.trans hsome
    | item hsome' hrest' =>
      cases hsome.symm.trans hsome'
      rw [ih hrest']

/-- If every item takes something of the stream, it can be parsed. -/
theorem parsed_exists (hless : ∀ s b rest, next s = some (b, rest) → rest.length < s.length)
    (s : List α) : ∃ bs, Parsed next s bs ∧ bs.length ≤ s.length := by
  induction hn : s.length using Nat.strongRecOn generalizing s with
  | ind n ih =>
    cases hnext : next s with
    | none => exact ⟨[], .stop hnext, Nat.zero_le _⟩
    | some p =>
      obtain ⟨b, rest⟩ := p
      have hlt := hless s b rest hnext
      obtain ⟨bs, hbs, hle⟩ := ih rest.length (by omega) rest rfl
      exact ⟨b :: bs, .item hnext hbs, by rw [List.length_cons]; omega⟩

end Chunks
