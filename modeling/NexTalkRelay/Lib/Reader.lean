/-
  Readers of binary formats.

  A reader takes what it needs from the front of its input and leaves the rest.

  * `Reads p bytes x`: before any rest, `p` reads `x` from exactly `bytes`;
  * `Reads.pure` and `Reads.bind` put readers together as their bytes are;
  * `times` reads a given number of items, and `all` as many as there are.
-/
import Mathlib.Data.List.Basic
import Mathlib.Data.Nat.Notation

namespace Binary

/-- Reads a value off the front of a byte string. -/
abbrev Reader (α : Type) := StateT (List UInt8) Option α

variable {α β : Type}

/-- Before any rest, the reader takes exactly these bytes. -/
def Reads (p : Reader α) (bytes : List UInt8) (x : α) : Prop :=
  ∀ rest, p.run (bytes ++ rest) = some (x, rest)

/-- A value is determined by its bytes. -/
theorem Reads.inj {p : Reader α} {bytes : List UInt8} {x y : α} (hx : Reads p bytes x)
    (hy : Reads p bytes y) : x = y := by
  have h := (hx []).symm.trans (hy [])
  simp only [Option.some.injEq, Prod.mk.injEq] at h
  exact h.1

theorem Reads.pure (x : α) : Reads (Pure.pure x) [] x := fun _ => rfl

theorem Reads.bind {p : Reader α} {q : α → Reader β} {a b : List UInt8} {x : α} {y : β}
    (hp : Reads p a x) (hq : Reads (q x) b y) : Reads (p >>= q) (a ++ b) y := by
  intro rest
  rw [StateT.run_bind, List.append_assoc, hp]
  exact hq rest

theorem Reads.map {p : Reader α} {bytes : List UInt8} {x : α} (hp : Reads p bytes x) (f : α → β) :
    Reads (f <$> p) bytes (f x) := by
  intro rest
  rw [StateT.run_map, hp]
  rfl

/-- The last step of a reader. -/
theorem Reads.bind_pure {p : Reader α} {bytes : List UInt8} {x : α} (hp : Reads p bytes x)
    (f : α → β) : Reads (p >>= fun x => Pure.pure (f x)) bytes (f x) := by
  have h := hp.bind (q := fun x => Pure.pure (f x)) (.pure (f x))
  rwa [List.append_nil] at h

/-! ## Bytes -/

/-- One byte. -/
def byte : Reader UInt8 := fun bytes =>
  match bytes with
  | [] => none
  | b :: rest => some (b, rest)

theorem reads_byte (b : UInt8) : Reads byte [b] b := fun _ => rfl

/-- A byte that has to be there. -/
def expect (b : UInt8) : Reader Unit := do
  if (← byte) = b then Pure.pure () else failure

theorem reads_expect (b : UInt8) : Reads (expect b) [b] () := by
  refine Reads.bind (a := [b]) (b := []) (reads_byte b) ?_
  rw [if_pos rfl]
  exact .pure ()

/-- `n` bytes. -/
def take (n : ℕ) : Reader (List UInt8) := fun bytes =>
  if n ≤ bytes.length then some (bytes.take n, bytes.drop n) else none

theorem reads_take (bytes : List UInt8) : Reads (take bytes.length) bytes bytes := by
  intro rest
  simp [take, StateT.run]

/-! ## Several items -/

/-- `n` values in a row. -/
def times (p : Reader α) : ℕ → Reader (List α)
  | 0 => Pure.pure []
  | n + 1 => do
    let x ← p
    let xs ← times p n
    Pure.pure (x :: xs)

theorem reads_times {p : Reader β} {enc : α → List UInt8} {f : α → β} {xs : List α}
    (h : ∀ x ∈ xs, Reads p (enc x) (f x)) :
    Reads (times p xs.length) (xs.flatMap enc) (xs.map f) := by
  induction xs with
  | nil => exact .pure []
  | cons x xs ih =>
    have hx := h x List.mem_cons_self
    have hxs := ih fun y hy => h y (List.mem_cons_of_mem x hy)
    exact hx.bind (hxs.bind_pure fun ys => f x :: ys)

/-- Items to the end of the input. -/
def all (p : Reader α) : ℕ → List UInt8 → Option (List α)
  | _, [] => some []
  | 0, _ :: _ => none
  | fuel + 1, b :: bytes => do
    let (x, rest) ← p.run (b :: bytes)
    let xs ← all p fuel rest
    return x :: xs

theorem all_eq {p : Reader α} {enc : α → List UInt8} {xs : List α}
    (h : ∀ x ∈ xs, Reads p (enc x) x ∧ enc x ≠ []) {fuel : ℕ} (hfuel : xs.length ≤ fuel) :
    all p fuel (xs.flatMap enc) = some xs := by
  induction xs generalizing fuel with
  | nil => cases fuel <;> rfl
  | cons x xs ih =>
    obtain ⟨hx, hne⟩ := h x List.mem_cons_self
    obtain ⟨fuel, rfl⟩ : ∃ k, fuel = k + 1 := ⟨fuel - 1, by simp at hfuel; omega⟩
    have hxs := ih (fun y hy => h y (List.mem_cons_of_mem x hy)) (by simpa using hfuel)
    have hrun := hx (xs.flatMap enc)
    obtain ⟨b, bytes, hbytes⟩ := List.exists_cons_of_ne_nil hne
    rw [hbytes, List.cons_append] at hrun
    rw [List.flatMap_cons, hbytes, List.cons_append, all, hrun]
    simp [hxs]

/-- As many items as the input has, each of them at least a byte. -/
def items (p : Reader α) (bytes : List UInt8) : Option (List α) := all p bytes.length bytes

theorem length_le_flatMap {enc : α → List UInt8} {xs : List α} (h : ∀ x ∈ xs, enc x ≠ []) :
    xs.length ≤ (xs.flatMap enc).length := by
  induction xs with
  | nil => exact Nat.zero_le _
  | cons x xs ih =>
    have hx := List.length_pos_iff.2 (h x List.mem_cons_self)
    have hxs := ih fun y hy => h y (List.mem_cons_of_mem x hy)
    rw [List.flatMap_cons, List.length_append, List.length_cons]
    omega

theorem items_eq {p : Reader α} {enc : α → List UInt8} {xs : List α}
    (h : ∀ x ∈ xs, Reads p (enc x) x ∧ enc x ≠ []) : items p (xs.flatMap enc) = some xs :=
  all_eq h (length_le_flatMap fun x hx => (h x hx).2)

/-- An input that one reader takes to its end. -/
def whole (p : Reader α) (bytes : List UInt8) : Option α :=
  (p.run bytes).bind fun r => if r.2 = [] then some r.1 else none

theorem whole_eq {p : Reader α} {bytes : List UInt8} {x : α} (h : Reads p bytes x) :
    whole p bytes = some x := by
  have hrun := h []
  rw [List.append_nil] at hrun
  simp [whole, hrun]

end Binary
