/-
  A linear memory.

  * `read` and `write` move bytes out of a memory and into it;
  * `read_write` is what is read where it was written, `read_write_disjoint` what is
    read elsewhere, and `read_write_end` what is read up to the end of a write.
-/
import Mathlib.Data.List.Basic

namespace LinearMemory

/-- A byte at every address. -/
abbrev Memory := ℕ → UInt8

/-- The `n` bytes from `p` on. -/
def read (m : Memory) (p n : ℕ) : List UInt8 := (List.range n).map fun i => m (p + i)

/-- The memory with the bytes from `p` on. -/
def write (m : Memory) (p : ℕ) (bytes : List UInt8) : Memory := fun a =>
  if p ≤ a then (bytes[a - p]?).getD (m a) else m a

variable {m m' : Memory} {p q n : ℕ} {x y : List UInt8}

@[simp] theorem length_read (m : Memory) (p n : ℕ) : (read m p n).length = n := by
  simp [read]

@[simp] theorem read_zero (m : Memory) (p : ℕ) : read m p 0 = [] := rfl

theorem read_congr (h : ∀ i, i < n → m (p + i) = m' (p + i)) : read m p n = read m' p n :=
  List.map_congr_left fun i hi => h i (List.mem_range.1 hi)

theorem read_add (m : Memory) (p a b : ℕ) : read m p (a + b) = read m p a ++ read m (p + a) b := by
  simp only [read, List.range_add, List.map_append, List.map_map, Function.comp_def, Nat.add_assoc]

theorem write_inside {i : ℕ} (h : i < x.length) : write m p x (p + i) = x[i] := by
  simp [write, List.getElem?_eq_getElem h]

theorem write_outside {a : ℕ} (h : a < p ∨ p + x.length ≤ a) : write m p x a = m a := by
  unfold write
  split
  · rw [List.getElem?_eq_none (by omega), Option.getD_none]
  · rfl

theorem read_write (m : Memory) (p : ℕ) (x : List UInt8) : read (write m p x) p x.length = x := by
  refine List.ext_getElem (by simp) fun i _ h => ?_
  simp only [read, List.getElem_map, List.getElem_range]
  exact write_inside h

/-- A part of what was written. -/
theorem read_write_inside {i : ℕ} (h : i + n ≤ x.length) :
    read (write m p x) (p + i) n = (x.drop i).take n := by
  refine List.ext_getElem (by simp; omega) fun k hk _ => ?_
  rw [length_read] at hk
  simp only [read, List.getElem_map, List.getElem_range, List.getElem_take, List.getElem_drop]
  rw [Nat.add_assoc]
  exact write_inside (by omega)

/-- **Frame rule.** -/
theorem read_write_disjoint (h : q + n ≤ p ∨ p + x.length ≤ q) :
    read (write m p x) q n = read m q n :=
  read_congr fun i hi => write_outside (by omega)

/-- What ends with a write. -/
theorem read_write_end (m : Memory) (p n : ℕ) (x : List UInt8) :
    read (write m (p + n) x) p (n + x.length) = read m p n ++ x := by
  rw [read_add, read_write, read_write_disjoint (Or.inl (by omega))]

/-- Two writes, one behind the other. -/
theorem write_write (m : Memory) (p : ℕ) (x y : List UInt8) :
    write (write m p x) (p + x.length) y = write m p (x ++ y) := by
  funext a
  unfold write
  by_cases hy : p + x.length ≤ a
  · have hp : p ≤ a := by omega
    have hsub : a - (p + x.length) = a - p - x.length := by omega
    rw [if_pos hy, if_pos hp, if_pos hp, List.getElem?_append_right (by omega), hsub,
      List.getElem?_eq_none (show x.length ≤ a - p by omega), Option.getD_none]
  · rw [if_neg hy]
    by_cases hp : p ≤ a
    · rw [if_pos hp, if_pos hp, List.getElem?_append_left (by omega)]
    · rw [if_neg hp, if_neg hp]

end LinearMemory
