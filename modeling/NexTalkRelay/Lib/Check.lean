/-
  Checks that come before an action.

  A check ends with a value, with an answer that replaces the action, or by
  throwing an exception.

  * `require`, `orAnswer`, `orCrash` are the steps of a check; their lemmas
    say what a successful check went through;
  * `guarded c f` runs the action `f` on the value of the check `c`, and
    `gated` an action that a program may refuse.
-/
import NexTalkRelay.Lib.Prog

namespace Effect

/-- How a check ends without a value. -/
inductive Stop (ρ : Type) where
  | answer (r : ρ)
  | crash

/-- A chain of checks that may stop with an answer. -/
abbrev Check (ρ α : Type) := Except (Stop ρ) α

variable {ρ α β : Type}

namespace Check

/-- Answer `r` unless `c` holds. -/
def require (c : Bool) (r : ρ) : Check ρ Unit := if c then .ok () else .error (.answer r)

/-- The value of `o`, or the answer `r`. -/
def orAnswer (o : Option α) (r : ρ) : Check ρ α :=
  match o with
  | some a => .ok a
  | none => .error (.answer r)

/-- The value of `o`, or an exception. -/
def orCrash (o : Option α) : Check ρ α :=
  match o with
  | some a => .ok a
  | none => .error .crash

@[simp] theorem require_bind {c : Bool} {r : ρ} {f : Unit → Check ρ β} {b : β} :
    (require c r >>= f) = .ok b ↔ c = true ∧ f () = .ok b := by
  cases c <;> simp [require, bind, Except.bind]

@[simp] theorem orAnswer_bind {o : Option α} {r : ρ} {f : α → Check ρ β} {b : β} :
    (orAnswer o r >>= f) = .ok b ↔ ∃ a, o = some a ∧ f a = .ok b := by
  cases o <;> simp [orAnswer, bind, Except.bind]

@[simp] theorem orCrash_bind {o : Option α} {f : α → Check ρ β} {b : β} :
    (orCrash o >>= f) = .ok b ↔ ∃ a, o = some a ∧ f a = .ok b := by
  cases o <;> simp [orCrash, bind, Except.bind]

theorem bind_eq_ok {c : Check ρ α} {f : α → Check ρ β} {b : β} :
    (c >>= f) = .ok b ↔ ∃ a, c = .ok a ∧ f a = .ok b := by
  cases c <;> simp [bind, Except.bind]

/-- Every answer of the check satisfies `Q`. -/
def Answers (Q : ρ → Prop) (c : Check ρ α) : Prop := ∀ r, c = .error (.answer r) → Q r

theorem answers_ok (Q : ρ → Prop) (a : α) : Answers Q (.ok a : Check ρ α) := nofun

theorem answers_orAnswer {Q : ρ → Prop} {r : ρ} (h : Q r) (o : Option α) :
    Answers Q (orAnswer o r) := by
  cases o with
  | some a => exact answers_ok Q a
  | none => rintro _ ⟨⟩; exact h

theorem answers_orCrash (Q : ρ → Prop) (o : Option α) : Answers Q (orCrash o : Check ρ α) := by
  cases o <;> exact nofun

theorem answers_require {Q : ρ → Prop} {r : ρ} (h : Q r) (c : Bool) : Answers Q (require c r) := by
  cases c with
  | true => exact answers_ok Q ()
  | false => rintro _ ⟨⟩; exact h

theorem Answers.bind {Q : ρ → Prop} {c : Check ρ α} {f : α → Check ρ β} (hc : Answers Q c)
    (hf : ∀ a, Answers Q (f a)) : Answers Q (c >>= f) := by
  cases c with
  | ok a => exact hf a
  | error e => rintro r ⟨⟩; exact hc r rfl

end Check

variable {Op : Type} {Res : Op → Type}

/-- The action `f` on the value of the check. -/
def guarded (c : Check ρ α) (f : α → Prog Op Res ρ) : Prog Op Res ρ :=
  match c with
  | .ok a => f a
  | .error (.answer r) => .ret r
  | .error .crash => .throw

/-- Two guarded actions that make the same first step of their checks. -/
theorem guarded_bind_congr {γ : Type} {c : Check ρ α} {k : α → Check ρ β} {k' : α → Check ρ γ}
    {f : β → Prog Op Res ρ} {f' : γ → Prog Op Res ρ}
    (h : ∀ a, guarded (k a) f = guarded (k' a) f') : guarded (c >>= k) f = guarded (c >>= k') f' := by
  cases c with
  | ok a => exact h a
  | error e => cases e <;> rfl

theorem guarded_only {P : Op → Prop} {c : Check ρ α} {f : α → Prog Op Res ρ}
    (hf : ∀ a, c = .ok a → (f a).Only P) : (guarded c f).Only P := by
  unfold guarded
  split
  · exact hf _ rfl
  · trivial
  · trivial

/-- Pass the gate, which may answer in its place, then run the action. -/
def gated (gate : Prog Op Res (Option ρ)) (act : Prog Op Res ρ) : Prog Op Res ρ := do
  match ← gate with
  | some r => return r
  | none => act

theorem gated_only {P : Op → Prop} {gate : Prog Op Res (Option ρ)} {act : Prog Op Res ρ}
    (hg : gate.Only P) (ha : act.Only P) : (gated gate act).Only P := by
  refine hg.bind fun v => ?_
  cases v with
  | some r => trivial
  | none => exact ha

/-- A response of a gated action is a refusal, or the action ran in the state
    that the gate left. -/
theorem gated_run {σ : Type} {h : Prog.Handler Op Res σ} {gate : Prog Op Res (Option ρ)}
    {act : Prog Op Res ρ} {s s' : σ} {r : ρ} (hr : (gated gate act).run h s = (some r, s')) :
    gate.run h s = (some (some r), s') ∨
      ∃ s₁, gate.run h s = (some none, s₁) ∧ act.run h s₁ = (some r, s') := by
  obtain ⟨v, s₁, hgate, hact⟩ := Prog.run_bind_eq_some hr
  cases v with
  | some r' =>
    obtain ⟨⟨⟩, rfl⟩ := Prod.mk.inj hact
    exact Or.inl hgate
  | none => exact Or.inr ⟨s₁, hgate, hact⟩

end Effect
