/-
  Programs whose end is settled by an operation.

  * `Sure Q p`: whatever the answers are, `p` comes to its end with a value in `Q`;
  * `Obeys ok fin`: as `Follows`, but the rule `ok` of an operation may also speak of
    what the program does after it, for instance that its value is settled;
  * `Pool.Obey.step_cases` is the step rule for pools of such programs.
-/
import NexTalkRelay.Lib.Faults
import NexTalkRelay.Lib.Interleave

namespace Effect

variable {Op : Type} {Res : Op → Type} {μ α β σ τ ι : Type}

namespace Prog

/-- Whatever the answers are, the program comes to its end with a value in `Q`. -/
def Sure (Q : α → Prop) : Prog Op Res α → Prop
  | ret a => Q a
  | throw => False
  | op _ k => ∀ r, Sure Q (k r)

theorem sure_of_returns {Q Q' : α → Prop} {p : Prog Op Res α} (hp : p.Returns fun _ => false)
    (hq : p.Post Q) (h : ∀ a, Q a → Q' a) : p.Sure Q' := by
  induction p with
  | ret a => exact h a hq
  | throw => exact hp.elim
  | op o k ih => exact fun r => ih r (hp.2 r) (hq r)

theorem Sure.value {Q : α → Prop} {p : Prog Op Res α} {a : α} (hp : p.Sure Q)
    (ha : p.value = some a) : Q a := by
  rw [value_eq_some.1 ha] at hp
  exact hp

section
variable (note : μ → (o : Op) → Res o → μ)

/-- From the memory `m` on, each operation of `p` and what comes after it are as `ok`
    says, and each returned value as `fin` says. -/
def Obeys (ok : μ → (o : Op) → (Res o → Prog Op Res α) → Prop) (fin : μ → α → Prop) :
    Prog Op Res α → μ → Prop
  | ret a, m => fin m a
  | throw, _ => True
  | op o k, m => ok m o k ∧ ∀ r, Obeys ok fin (k r) (note m o r)

variable {note} {ok : μ → (o : Op) → (Res o → Prog Op Res α) → Prop} {fin : μ → α → Prop}

/-- **Frame rule.** A beginning whose operations are never restricted. -/
theorem Only.obeys_bind {P : Op → Prop} {I : μ → Prop} {Q : β → Prop} {p : Prog Op Res β}
    {f : β → Prog Op Res α} (hp : p.Only P) (hq : p.Post Q) (hok : ∀ m o k, P o → I m → ok m o k)
    (hkeep : ∀ m o r, P o → I m → I (note m o r))
    (hf : ∀ m b, I m → Q b → (f b).Obeys note ok fin m) {m : μ} (hm : I m) :
    (p.bind f).Obeys note ok fin m := by
  induction p generalizing m with
  | ret b => exact hf m b hm hq
  | throw => trivial
  | op o k ih => exact ⟨hok m o _ hp.1 hm, fun r => ih r (hp.2 r) (hq r) (hkeep m o r hp.1 hm)⟩

/-- A program whose operations are never restricted. -/
theorem Only.obeys {P : Op → Prop} {I : μ → Prop} {Q : α → Prop} {p : Prog Op Res α}
    (hp : p.Only P) (hq : p.Post Q) (hok : ∀ m o k, P o → I m → ok m o k)
    (hkeep : ∀ m o r, P o → I m → I (note m o r)) (hfin : ∀ m a, I m → Q a → fin m a) {m : μ}
    (hm : I m) : p.Obeys note ok fin m := by
  induction p generalizing m with
  | ret a => exact hfin m a hm hq
  | throw => trivial
  | op o k ih =>
    exact ⟨hok m o _ hp.1 hm, fun r => ih r (hp.2 r) (hq r) (hkeep m o r hp.1 hm)⟩

end

end Prog

namespace Pool

/-- Every process obeys its rules. -/
def Obey (note : μ → (o : Op) → Res o → μ)
    (ok : ι → μ → (o : Op) → (Res o → Prog Op Res α) → Prop) (fin : ι → μ → α → Prop)
    (P : Pool ι Op Res α σ μ) : Prop :=
  ∀ i, (P.prog i).Obeys note (ok i) (fin i) (P.memory i)

variable {note : μ → (o : Op) → Res o → μ}
  {ok : ι → μ → (o : Op) → (Res o → Prog Op Res α) → Prop} {fin : ι → μ → α → Prop}
  {P : Pool ι Op Res α σ μ}

theorem start_obey {s : σ} {p : ι → Prog Op Res α} {m : μ}
    (hp : ∀ i, (p i).Obeys note (ok i) (fin i) m) : (start s p m).Obey note ok fin := hp

theorem Obey.value (hP : P.Obey note ok fin) {i : ι} {a : α}
    (ha : (P.prog i).value = some a) : fin i (P.memory i) a := by
  have hf := hP i
  rw [Prog.value_eq_some.1 ha] at hf
  exact hf

section
variable [DecidableEq ι] {h : τ → Prog.Handler Op Res σ}

/-- **What a step can do** where every operation is answered: nothing, or an operation that
    the rules allow. -/
theorem Obey.step_cases (hP : P.Obey note ok fin) (hh : ∀ t, Prog.Answering (h t)) (e : ι × τ) :
    (step note h e P).Obey note ok fin ∧ (step note h e P = P ∨
      ∃ o k r s, P.prog e.1 = .op o k ∧ ok e.1 (P.memory e.1) o k ∧
        h e.2 o P.shared = (some r, s) ∧ step note h e P =
          { shared := s
            prog := Function.update P.prog e.1 (k r)
            memory := Function.update P.memory e.1 (note (P.memory e.1) o r) }) := by
  rcases Pool.step_cases note h P e with heq | ⟨o, k, s, hp, ⟨r, ho, heq⟩ | ⟨ho, -⟩⟩
  · rw [heq]
    exact ⟨hP, Or.inl rfl⟩
  · have hf := hP e.1
    rw [hp] at hf
    refine ⟨?_, Or.inr ⟨o, k, r, s, hp, hf.1, ho, heq⟩⟩
    rw [heq]
    intro i
    dsimp only
    by_cases hi : i = e.1
    · subst hi
      rw [Function.update_self, Function.update_self]
      exact hf.2 r
    · rw [Function.update_of_ne hi, Function.update_of_ne hi]
      exact hP i
  · exact absurd (congrArg Prod.fst ho) (hh e.2 o P.shared)

end

end Pool

end Effect
