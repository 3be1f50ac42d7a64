/-
  Loops that run while a test holds.

  * `whileLoop` makes as many tests as it has fuel, so that a loop that stops does
    so with some fuel, and then with any larger amount;
  * `whileLoop_total`: a loop whose body keeps an invariant and lessens a measure
    stops where the invariant holds and the test fails.
-/
import Mathlib.Data.Nat.Basic
import Mathlib.Order.Basic

namespace Effect

variable {σ τ : Type*}

/-- The state in which the loop stops. -/
def whileLoop (test : σ → Bool) (body : σ → σ) : ℕ → σ → Option σ
  | 0, _ => none
  | fuel + 1, s => if test s then whileLoop test body fuel (body s) else some s

section

variable {test : σ → Bool} {body : σ → σ}

theorem whileLoop_stop {s : σ} (h : test s = false) (fuel : ℕ) :
    whileLoop test body (fuel + 1) s = some s := by
  simp [whileLoop, h]

theorem whileLoop_turn {s : σ} (h : test s = true) (fuel : ℕ) :
    whileLoop test body (fuel + 1) s = whileLoop test body fuel (body s) := by
  simp [whileLoop, h]

/-- **Total correctness.** -/
theorem whileLoop_total {I : σ → Prop} {m : σ → ℕ}
    (hbody : ∀ s, I s → test s = true → I (body s) ∧ m (body s) < m s) {s : σ} (hs : I s)
    {fuel : ℕ} (hfuel : m s < fuel) :
    ∃ t, whileLoop test body fuel s = some t ∧ I t ∧ test t = false := by
  induction fuel generalizing s with
  | zero => omega
  | succ fuel ih =>
    cases htest : test s with
    | false => exact ⟨s, whileLoop_stop htest fuel, hs, htest⟩
    | true =>
      obtain ⟨hinv, hlt⟩ := hbody s hs htest
      rw [whileLoop_turn htest]
      exact ih hinv (by omega)

end

end Effect
