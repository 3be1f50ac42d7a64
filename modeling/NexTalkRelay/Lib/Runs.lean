/-
  Runs of a system that takes one step for each event.

  `step e s` is the state after the event `e`, and a run is a list of events.

  * `after` is the last state of a run, and `Always P` says that `P` holds of
    the state before each step and its event;
  * `Always.imp` is the induction over a run: under an invariant, what implies
    `Q` at one step implies it at every step.
-/
import Mathlib.Data.List.Basic
import Mathlib.Tactic.Tauto

namespace Runs

variable {S E : Type} (step : E → S → S)

/-- The state at the end of a run. -/
def after : S → List E → S
  | s, [] => s
  | s, e :: run => after (step e s) run

/-- Every step of a run is as `P` says. -/
def Always (P : S → E → Prop) : S → List E → Prop
  | _, [] => True
  | s, e :: run => P s e ∧ Always P (step e s) run

instance {P : S → E → Prop} [∀ s e, Decidable (P s e)] :
    (s : S) → (run : List E) → Decidable (Always step P s run)
  | _, [] => isTrue trivial
  | s, e :: run =>
    haveI : Decidable (Always step P (step e s) run) := instDecidableAlways (step e s) run
    inferInstanceAs (Decidable (P s e ∧ Always step P (step e s) run))

variable {step} {I : S → Prop} {P Q : S → E → Prop} {s : S} {run : List E}

theorem after_append (s : S) (run run' : List E) :
    after step s (run ++ run') = after step (after step s run) run' := by
  induction run generalizing s with
  | nil => rfl
  | cons e run ih => exact ih (step e s)

theorem always_append {run' : List E} :
    Always step P s (run ++ run') ↔ Always step P s run ∧ Always step P (after step s run) run' := by
  induction run generalizing s with
  | nil => exact (and_iff_right trivial).symm
  | cons e run ih => exact (and_congr_right fun _ => ih).trans and_assoc.symm

theorem always_and :
    Always step (fun s e => P s e ∧ Q s e) s run ↔ Always step P s run ∧ Always step Q s run := by
  induction run generalizing s with
  | nil => exact (and_iff_left trivial).symm
  | cons e run ih =>
    unfold Always
    rw [ih]
    tauto

theorem always_of_forall {P : E → Prop} (h : ∀ e ∈ run, P e) :
    Always step (fun _ e => P e) s run := by
  induction run generalizing s with
  | nil => trivial
  | cons e run ih =>
    exact ⟨h e List.mem_cons_self, ih fun e' he' => h e' (List.mem_cons_of_mem _ he')⟩

theorem after_inv (hstep : ∀ s e, I s → I (step e s)) (hs : I s) : I (after step s run) := by
  induction run generalizing s with
  | nil => exact hs
  | cons e run ih => exact ih (hstep s e hs)

/-- **Invariant rule.** -/
theorem Always.inv (hstep : ∀ s e, I s → P s e → I (step e s)) (hs : I s)
    (h : Always step P s run) : I (after step s run) := by
  induction run generalizing s with
  | nil => exact hs
  | cons e run ih => exact ih (hstep s e hs h.1) h.2

/-- **Consequence rule.** -/
theorem Always.imp (hstep : ∀ s e, I s → P s e → I (step e s)) (hpq : ∀ s e, I s → P s e → Q s e)
    (hs : I s) (h : Always step P s run) : Always step Q s run := by
  induction run generalizing s with
  | nil => trivial
  | cons e run ih => exact ⟨hpq s e hs h.1, ih (hstep s e hs h.1) h.2⟩

theorem always_congr (hstep : ∀ s e, I s → I (step e s)) (hpq : ∀ s e, I s → (P s e ↔ Q s e))
    (hs : I s) : Always step P s run ↔ Always step Q s run :=
  ⟨.imp (fun s e hi _ => hstep s e hi) (fun s e hi => (hpq s e hi).1) hs,
    .imp (fun s e hi _ => hstep s e hi) (fun s e hi => (hpq s e hi).2) hs⟩

/-- Under an invariant, a property that holds at the start holds after every step
    exactly if every step keeps it. -/
theorem always_next_iff {J : S → Prop} (hstep : ∀ s e, I s → I (step e s))
    (hnext : ∀ s e, I s → J s → (J (step e s) ↔ P s e)) (hs : I s) (hj : J s) :
    Always step (fun s e => J (step e s)) s run ↔ Always step P s run := by
  induction run generalizing s with
  | nil => exact Iff.rfl
  | cons e run ih =>
    constructor
    · rintro ⟨hj', hrun⟩
      exact ⟨(hnext s e hs hj).1 hj', (ih (hstep s e hs) hj').1 hrun⟩
    · rintro ⟨hp, hrun⟩
      have hj' := (hnext s e hs hj).2 hp
      exact ⟨hj', (ih (hstep s e hs) hj').2 hrun⟩

/-- **Log rule.** What is in a log at the end was there at the start, or comes
    from an event. -/
theorem mem_log_after {α : Type} (log : S → List α) {Q : E → α → Prop}
    (hstep : ∀ s e a, a ∈ log (step e s) → a ∈ log s ∨ Q e a) {a : α}
    (ha : a ∈ log (after step s run)) : a ∈ log s ∨ ∃ e ∈ run, Q e a := by
  induction run generalizing s with
  | nil => exact Or.inl ha
  | cons e run ih =>
    rcases ih ha with ha | ⟨e', he', hq⟩
    · exact (hstep s e a ha).imp_right fun hq => ⟨e, List.mem_cons_self, hq⟩
    · exact Or.inr ⟨e', List.mem_cons_of_mem _ he', hq⟩

/-- The last step of a run. -/
theorem Always.last {e : E} (h : Always step P s (run ++ [e])) : P (after step s run) e :=
  (always_append.1 h).2.1

end Runs
