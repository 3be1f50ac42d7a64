/-
  Programs over abstract operations.

  A `Prog` performs operations one at a time and returns a value or throws; it
  is the common form of a handler that reads and writes a shared store.

  * `run` runs a program without interruption; `run_bind` splits a run at a
    sequential composition.
  * `Only P` says which operations a program may perform, whatever the answers
    are; `run_inv` is the frame rule.
  * `Post Q` says which values a program may return, whatever the answers are.
  * `Yields l a`: a run in which the operations and their answers are those of the
    transcript `l` returns `a`.
-/
import Mathlib.Logic.Function.Basic

namespace Effect

/-- Programs over the operations `Op`, where `o : Op` answers with a `Res o`. -/
inductive Prog (Op : Type) (Res : Op → Type) (α : Type) where
  | ret (a : α)
  | throw
  | op (o : Op) (k : Res o → Prog Op Res α)

variable {Op : Type} {Res : Op → Type} {σ α β γ : Type}

namespace Prog

/-- Run `p`, then `f` on its value. -/
def bind : Prog Op Res α → (α → Prog Op Res β) → Prog Op Res β
  | ret a, f => f a
  | throw, _ => throw
  | op o k, f => op o fun r => bind (k r) f

instance : Monad (Prog Op Res) where
  pure := ret
  bind := bind

/-- Perform one operation. -/
def perform (o : Op) : Prog Op Res (Res o) := op o ret

@[simp] theorem pure_eq (a : α) : (pure a : Prog Op Res α) = ret a := rfl
@[simp] theorem bind_eq (p : Prog Op Res α) (f : α → Prog Op Res β) : p >>= f = p.bind f := rfl
@[simp] theorem ret_bind (a : α) (f : α → Prog Op Res β) : (ret a).bind f = f a := rfl
@[simp] theorem throw_bind (f : α → Prog Op Res β) : (throw : Prog Op Res α).bind f = throw := rfl
@[simp] theorem op_bind (o : Op) (k : Res o → Prog Op Res α) (f : α → Prog Op Res β) :
    (op o k).bind f = op o fun r => (k r).bind f := rfl
@[simp] theorem perform_bind (o : Op) (f : Res o → Prog Op Res β) :
    (perform o).bind f = op o f := rfl

theorem bind_assoc (p : Prog Op Res α) (f : α → Prog Op Res β) (g : β → Prog Op Res γ) :
    (p.bind f).bind g = p.bind fun a => (f a).bind g := by
  induction p with
  | ret a => rfl
  | throw => rfl
  | op o k ih => simp only [op_bind, ih]

/-! ## Uninterrupted runs -/

/-- How a state answers the operations; the answer `none` means that the
    operation throws. -/
abbrev Handler (Op : Type) (Res : Op → Type) (σ : Type) := (o : Op) → σ → Option (Res o) × σ

/-- The value and the final state of `p`, run without interruption. -/
def run (h : Handler Op Res σ) : Prog Op Res α → σ → Option α × σ
  | ret a, s => (some a, s)
  | throw, s => (none, s)
  | op o k, s =>
    match h o s with
    | (some r, s') => run h (k r) s'
    | (none, s') => (none, s')

@[simp] theorem run_ret (h : Handler Op Res σ) (a : α) (s : σ) : (ret a).run h s = (some a, s) := rfl
@[simp] theorem run_throw (h : Handler Op Res σ) (s : σ) :
    (throw : Prog Op Res α).run h s = (none, s) := rfl

theorem run_op {h : Handler Op Res σ} {o : Op} {s s' : σ} {r : Res o} (ho : h o s = (some r, s'))
    (k : Res o → Prog Op Res α) : (op o k).run h s = (k r).run h s' := by
  simp only [run, ho]

/-- **Runs of a sequential composition.** -/
theorem run_bind (h : Handler Op Res σ) (p : Prog Op Res α) (f : α → Prog Op Res β) (s : σ) :
    (p.bind f).run h s = match p.run h s with
      | (some a, s') => (f a).run h s'
      | (none, s') => (none, s') := by
  induction p generalizing s with
  | ret a => rfl
  | throw => rfl
  | op o k ih =>
    simp only [op_bind, run]
    rcases h o s with ⟨_ | r, s'⟩
    · rfl
    · exact ih r s'

theorem run_bind_some {h : Handler Op Res σ} {p : Prog Op Res α} {s s' : σ} {a : α}
    (hp : p.run h s = (some a, s')) (f : α → Prog Op Res β) :
    (p.bind f).run h s = (f a).run h s' := by
  rw [run_bind, hp]

/-- A run of a composition that returns ran both parts to their end. -/
theorem run_bind_eq_some {h : Handler Op Res σ} {p : Prog Op Res α} {f : α → Prog Op Res β}
    {s s' : σ} {b : β} (hr : (p.bind f).run h s = (some b, s')) :
    ∃ a s₁, p.run h s = (some a, s₁) ∧ (f a).run h s₁ = (some b, s') := by
  rw [run_bind] at hr
  rcases hp : p.run h s with ⟨_ | a, s₁⟩
  · simp [hp] at hr
  · rw [hp] at hr; exact ⟨a, s₁, rfl, hr⟩

/-! ## What a program may do -/

/-- Every operation that `p` may perform satisfies `P`. -/
def Only (P : Op → Prop) : Prog Op Res α → Prop
  | ret _ => True
  | throw => True
  | op o k => P o ∧ ∀ r, Only P (k r)

@[simp] theorem only_ret (P : Op → Prop) (a : α) : (ret a : Prog Op Res α).Only P := trivial
@[simp] theorem only_throw (P : Op → Prop) : (throw : Prog Op Res α).Only P := trivial
@[simp] theorem only_op (P : Op → Prop) (o : Op) (k : Res o → Prog Op Res α) :
    (op o k).Only P ↔ P o ∧ ∀ r, (k r).Only P := Iff.rfl

theorem Only.bind {P : Op → Prop} {p : Prog Op Res α} {f : α → Prog Op Res β} (hp : p.Only P)
    (hf : ∀ a, (f a).Only P) : (p.bind f).Only P := by
  induction p with
  | ret a => exact hf a
  | throw => trivial
  | op o k ih => exact ⟨hp.1, fun r => ih r (hp.2 r)⟩

theorem Only.mono {P Q : Op → Prop} (h : ∀ o, P o → Q o) {p : Prog Op Res α} (hp : p.Only P) :
    p.Only Q := by
  induction p with
  | ret a => trivial
  | throw => trivial
  | op o k ih => exact ⟨h o hp.1, fun r => ih r (hp.2 r)⟩

/-- **Frame rule.** A run keeps what every operation of the program keeps. -/
theorem run_inv {P : Op → Prop} {I : σ → Prop} {h : Handler Op Res σ}
    (hstep : ∀ o s, P o → I s → I (h o s).2) {p : Prog Op Res α} (hp : p.Only P) {s : σ} (hs : I s) :
    I (p.run h s).2 := by
  induction p generalizing s with
  | ret a => exact hs
  | throw => exact hs
  | op o k ih =>
    have h1 := hstep o s hp.1 hs
    simp only [run]
    rcases ho : h o s with ⟨_ | r, s'⟩
    · rw [ho] at h1; exact h1
    · rw [ho] at h1; exact ih r (hp.2 r) h1

/-! ## What a program may return -/

/-- `p` may only return values satisfying `Q`. -/
def Post (Q : α → Prop) : Prog Op Res α → Prop
  | ret a => Q a
  | throw => True
  | op _ k => ∀ r, Post Q (k r)

@[simp] theorem post_ret (Q : α → Prop) (a : α) : (ret a : Prog Op Res α).Post Q ↔ Q a := Iff.rfl
@[simp] theorem post_throw (Q : α → Prop) : (throw : Prog Op Res α).Post Q := trivial
@[simp] theorem post_op (Q : α → Prop) (o : Op) (k : Res o → Prog Op Res α) :
    (op o k).Post Q ↔ ∀ r, (k r).Post Q := Iff.rfl

theorem post_true (p : Prog Op Res α) : p.Post fun _ => True := by
  induction p with
  | ret a => trivial
  | throw => trivial
  | op o k ih => exact ih

theorem Post.bind {Q : α → Prop} {R : β → Prop} {p : Prog Op Res α} {f : α → Prog Op Res β}
    (hp : p.Post Q) (hf : ∀ a, Q a → (f a).Post R) : (p.bind f).Post R := by
  induction p with
  | ret a => exact hf a hp
  | throw => trivial
  | op o k ih => exact fun r => ih r (hp r)

theorem Post.run {Q : α → Prop} {h : Handler Op Res σ} {p : Prog Op Res α} (hp : p.Post Q) {s : σ}
    {a : α} (ha : (p.run h s).1 = some a) : Q a := by
  induction p generalizing s with
  | ret b => simp only [run_ret, Option.some.injEq] at ha; exact ha ▸ hp
  | throw => simp at ha
  | op o k ih =>
    simp only [Prog.run] at ha
    rcases ho : h o s with ⟨_ | r, s'⟩
    · simp [ho] at ha
    · rw [ho] at ha; exact ih r (hp r) ha

/-! ## Transcripts -/

/-- With the operations and the answers of the transcript, `p` returns the value. -/
def Yields : Prog Op Res α → List ((o : Op) × Res o) → α → Prop
  | ret a, l, b => l = [] ∧ a = b
  | throw, _, _ => False
  | op o k, l, b => ∃ r l', l = ⟨o, r⟩ :: l' ∧ Yields (k r) l' b

@[simp] theorem yields_ret {a b : α} {l : List ((o : Op) × Res o)} :
    (ret a).Yields l b ↔ l = [] ∧ a = b := Iff.rfl

@[simp] theorem yields_throw {b : α} {l : List ((o : Op) × Res o)} :
    ¬ (throw : Prog Op Res α).Yields l b := id

@[simp] theorem yields_op {o : Op} {k : Res o → Prog Op Res α} {b : α} {l : List ((o : Op) × Res o)} :
    (op o k).Yields l b ↔ ∃ r l', l = ⟨o, r⟩ :: l' ∧ (k r).Yields l' b := Iff.rfl

/-- **The transcript of a composition.** -/
theorem yields_bind {p : Prog Op Res α} {f : α → Prog Op Res β} {b : β}
    {l : List ((o : Op) × Res o)} :
    (p.bind f).Yields l b ↔ ∃ l₁ l₂ a, l = l₁ ++ l₂ ∧ p.Yields l₁ a ∧ (f a).Yields l₂ b := by
  induction p generalizing l with
  | ret a =>
    constructor
    · intro h
      exact ⟨[], l, a, rfl, ⟨rfl, rfl⟩, h⟩
    · rintro ⟨_, l₂, _, rfl, ⟨rfl, rfl⟩, h⟩
      exact h
  | throw => simp
  | op o k ih =>
    simp only [op_bind, yields_op, ih]
    constructor
    · rintro ⟨r, _, rfl, l₁, l₂, a, rfl, hp, hf⟩
      exact ⟨⟨o, r⟩ :: l₁, l₂, a, rfl, ⟨r, l₁, rfl, hp⟩, hf⟩
    · rintro ⟨_, l₂, a, rfl, ⟨r, l₁, rfl, hp⟩, hf⟩
      exact ⟨r, l₁ ++ l₂, rfl, l₁, l₂, a, rfl, hp, hf⟩

/-- **The answers determine the run**: where one returns, any other that is given the same
    answers returns too. -/
theorem Yields.unique {p : Prog Op Res α} {a b : α} {l l' m m' : List ((o : Op) × Res o)}
    (h : p.Yields l a) (h' : p.Yields l' b) (heq : l ++ m = l' ++ m') :
    l = l' ∧ a = b ∧ m = m' := by
  induction p generalizing l l' with
  | ret x =>
    obtain ⟨rfl, rfl⟩ := h
    obtain ⟨rfl, rfl⟩ := h'
    exact ⟨rfl, rfl, heq⟩
  | throw => exact h.elim
  | op o k ih =>
    obtain ⟨r, l, rfl, h⟩ := h
    obtain ⟨r', l', rfl, h'⟩ := h'
    obtain ⟨hr, hrest⟩ := List.cons.inj heq
    cases hr
    obtain ⟨rfl, rfl, rfl⟩ := ih r h h' hrest
    exact ⟨rfl, rfl, rfl⟩

end Prog

end Effect
