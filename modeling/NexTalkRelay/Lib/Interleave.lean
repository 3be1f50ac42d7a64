/-
  Interleaved runs of programs over a shared state.

  A `Pool` holds a shared state and, for each process, the rest of its program
  and a memory of what it has done; one step performs one operation of one
  process.

  * `Follows ok fin` is what a single program does, whatever the answers are:
    each operation is `ok` for the memory before it, and a returned value is
    `fin` for the memory at the end.  `Follows.bind` composes programs;
  * `Chains A b`: each operation in `A` is followed at once by `b`;
  * `Pool.step_cases` says all that a step can do, and `Pool.Follow.inv` that a
    step keeps an invariant of the state and the memories if every operation that
    the rules allow there keeps it.
-/
import NexTalkRelay.Lib.Prog
import NexTalkRelay.Lib.Runs

namespace Effect

open Runs

variable {Op : Type} {Res : Op → Type} {μ α β σ τ ι : Type}

namespace Prog

section
variable (note : μ → (o : Op) → Res o → μ)

/-- From the memory `m` on, `p` performs only operations that are `ok`, and
    returns only values that are `fin`. -/
def Follows (ok : μ → Op → Prop) (fin : μ → α → Prop) : Prog Op Res α → μ → Prop
  | ret a, m => fin m a
  | throw, _ => True
  | op o k, m => ok m o ∧ ∀ r, Follows ok fin (k r) (note m o r)

variable {note} {ok ok' : μ → Op → Prop} {fin fin' : μ → α → Prop} {p : Prog Op Res α} {m : μ}

@[simp] theorem follows_ret {a : α} : (ret a : Prog Op Res α).Follows note ok fin m ↔ fin m a :=
  Iff.rfl

@[simp] theorem follows_throw : (throw : Prog Op Res α).Follows note ok fin m := trivial

@[simp] theorem follows_op {o : Op} {k : Res o → Prog Op Res α} :
    (op o k).Follows note ok fin m ↔ ok m o ∧ ∀ r, (k r).Follows note ok fin (note m o r) := Iff.rfl

/-- **Sequential composition.** -/
theorem Follows.bind {f : α → Prog Op Res β} {fin' : μ → β → Prop}
    (hp : p.Follows note ok fin m) (hf : ∀ m a, fin m a → (f a).Follows note ok fin' m) :
    (p.bind f).Follows note ok fin' m := by
  induction p generalizing m with
  | ret a => exact hf m a hp
  | throw => trivial
  | op o k ih => exact ⟨hp.1, fun r => ih r (hp.2 r)⟩

/-- **Consequence.** -/
theorem Follows.mono (hok : ∀ m o, ok m o → ok' m o) (hfin : ∀ m a, fin m a → fin' m a)
    (hp : p.Follows note ok fin m) : p.Follows note ok' fin' m := by
  induction p generalizing m with
  | ret a => exact hfin m a hp
  | throw => trivial
  | op o k ih => exact ⟨hok m o hp.1, fun r => ih r (hp.2 r)⟩

/-- **Frame rule.** What every operation of a program keeps holds at its end. -/
theorem Only.follows {P : Op → Prop} {I : μ → Prop} (hp : p.Only P)
    (hok : ∀ m o, P o → I m → ok m o) (hkeep : ∀ m o r, P o → I m → I (note m o r)) (hm : I m) :
    p.Follows note ok (fun m _ => I m) m := by
  induction p generalizing m with
  | ret a => exact hm
  | throw => trivial
  | op o k ih => exact ⟨hok m o hp.1 hm, fun r => ih r (hp.2 r) (hkeep m o r hp.1 hm)⟩

end

/-- The operation that a program performs next. -/
def next : Prog Op Res α → Option Op
  | op o _ => some o
  | _ => none

@[simp] theorem next_op (o : Op) (k : Res o → Prog Op Res α) : (op o k).next = some o := rfl

/-- Every operation of a program in `A` is followed at once by `b`. -/
def Chains (A : Op → Prop) (b : Op) : Prog Op Res α → Prop
  | ret _ => True
  | throw => True
  | op o k => (A o → ∀ r, (k r).next = some b) ∧ ∀ r, Chains A b (k r)

theorem chains_of_never {A : Op → Prop} (hA : ∀ o, ¬ A o) (b : Op) (p : Prog Op Res α) :
    p.Chains A b := by
  induction p with
  | ret a => trivial
  | throw => trivial
  | op o k ih => exact ⟨fun ho => absurd ho (hA o), ih⟩

theorem Only.chains_bind {A : Op → Prop} {b : Op} {p : Prog Op Res α} {f : α → Prog Op Res β}
    (hp : p.Only fun o => ¬ A o) (hf : ∀ a, (f a).Chains A b) : (p.bind f).Chains A b := by
  induction p with
  | ret a => exact hf a
  | throw => trivial
  | op o k ih => exact ⟨fun ho => absurd ho hp.1, fun r => ih r (hp.2 r)⟩

/-- The value that a finished program returned. -/
def value : Prog Op Res α → Option α
  | ret a => some a
  | _ => none

theorem value_eq_some {p : Prog Op Res α} {a : α} : p.value = some a ↔ p = ret a := by
  cases p <;> simp [value]

end Prog

/-! ## Pools -/

/-- Processes over a shared state, each with the rest of its program and a memory
    of what it has done. -/
structure Pool (ι Op : Type) (Res : Op → Type) (α σ μ : Type) where
  shared : σ
  prog : ι → Prog Op Res α
  memory : ι → μ

namespace Pool

/-- The processes of a pool, started with the same memory. -/
def start (s : σ) (p : ι → Prog Op Res α) (m : μ) : Pool ι Op Res α σ μ :=
  { shared := s, prog := p, memory := fun _ => m }

/-- Every process follows its rules. -/
def Follow (note : μ → (o : Op) → Res o → μ) (ok : ι → μ → Op → Prop) (fin : ι → μ → α → Prop)
    (P : Pool ι Op Res α σ μ) : Prop :=
  ∀ i, (P.prog i).Follows note (ok i) (fin i) (P.memory i)

variable {note : μ → (o : Op) → Res o → μ} {ok : ι → μ → Op → Prop} {fin : ι → μ → α → Prop}
  {P : Pool ι Op Res α σ μ}

theorem start_follow {s : σ} {p : ι → Prog Op Res α} {m : μ}
    (hp : ∀ i, (p i).Follows note (ok i) (fin i) m) : (start s p m).Follow note ok fin := hp

/-- What a finished process returned is as its rules say. -/
theorem Follow.value (hP : P.Follow note ok fin) {i : ι} {a : α}
    (ha : (P.prog i).value = some a) : fin i (P.memory i) a := by
  have hf := hP i
  rw [Prog.value_eq_some.1 ha] at hf
  exact hf

section
variable [DecidableEq ι] (note) (h : τ → Prog.Handler Op Res σ)

/-- Process `e.1` performs its next operation, answered by `h e.2`. -/
def step (e : ι × τ) (P : Pool ι Op Res α σ μ) : Pool ι Op Res α σ μ :=
  match P.prog e.1 with
  | .op o k =>
    match h e.2 o P.shared with
    | (some r, s) =>
      { shared := s
        prog := Function.update P.prog e.1 (k r)
        memory := Function.update P.memory e.1 (note (P.memory e.1) o r) }
    | (none, s) => { P with shared := s, prog := Function.update P.prog e.1 .throw }
  | _ => P

variable {note h} {e : ι × τ}

/-- **What a step can do**: nothing, an operation that is answered, or one that
    throws. -/
theorem step_cases (note : μ → (o : Op) → Res o → μ) (h : τ → Prog.Handler Op Res σ)
    (P : Pool ι Op Res α σ μ) (e : ι × τ) :
    step note h e P = P ∨
      ∃ o k s, P.prog e.1 = .op o k ∧
        ((∃ r, h e.2 o P.shared = (some r, s) ∧ step note h e P =
            { shared := s
              prog := Function.update P.prog e.1 (k r)
              memory := Function.update P.memory e.1 (note (P.memory e.1) o r) }) ∨
          h e.2 o P.shared = (none, s) ∧ step note h e P =
            { P with shared := s, prog := Function.update P.prog e.1 .throw }) := by
  unfold step
  cases hp : P.prog e.1 with
  | op o k =>
    rcases ho : h e.2 o P.shared with ⟨_ | r, s⟩
    · exact Or.inr ⟨o, k, s, rfl, Or.inr ⟨ho, by simp [ho]⟩⟩
    · exact Or.inr ⟨o, k, s, rfl, Or.inl ⟨r, ho, by simp [ho]⟩⟩
  | _ => exact Or.inl rfl

theorem Follow.step (hP : P.Follow note ok fin) : (step note h e P).Follow note ok fin := by
  rcases step_cases note h P e with heq | ⟨o, k, s, hp, ⟨r, -, heq⟩ | ⟨-, heq⟩⟩ <;>
    rw [heq]
  · exact hP
  · intro i
    dsimp only
    by_cases hi : i = e.1
    · subst hi
      have hf := hP e.1
      rw [hp] at hf
      rw [Function.update_self, Function.update_self]
      exact hf.2 r
    · rw [Function.update_of_ne hi, Function.update_of_ne hi]
      exact hP i
  · intro i
    dsimp only
    by_cases hi : i = e.1
    · subst hi
      rw [Function.update_self]
      trivial
    · rw [Function.update_of_ne hi]
      exact hP i

/-- **Step rule.** An invariant of the shared state and the memories is kept by a
    step if every operation that a process may perform there keeps it. -/
theorem Follow.inv {I : σ → (ι → μ) → Prop} (hP : P.Follow note ok fin)
    (hI : I P.shared P.memory)
    (hstep : ∀ o s r, (P.prog e.1).next = some o → ok e.1 (P.memory e.1) o →
      h e.2 o P.shared = (some r, s) →
      I s (Function.update P.memory e.1 (note (P.memory e.1) o r)))
    (hthrow : ∀ o s, (P.prog e.1).next = some o → ok e.1 (P.memory e.1) o →
      h e.2 o P.shared = (none, s) → I s P.memory) :
    I (Pool.step note h e P).shared (Pool.step note h e P).memory := by
  rcases step_cases note h P e with
    heq | ⟨o, k, s, hp, ⟨r, ho, heq⟩ | ⟨ho, heq⟩⟩ <;> rw [heq]
  · exact hI
  · have hf := hP e.1
    rw [hp] at hf
    exact hstep o s r (by rw [hp]; rfl) hf.1 ho
  · have hf := hP e.1
    rw [hp] at hf
    exact hthrow o s (by rw [hp]; rfl) hf.1 ho

end

end Pool

end Effect
