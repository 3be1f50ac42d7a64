/-
  Operations that fail.

  * `Prog.faulty failable fails h` answers as the handler `h` does, except that
    the `n`-th operation of a run throws, without an effect, if `fails n`;
  * `Prog.FailsAfter W h p s`: the run of `p` performs an operation in `W` and
    then throws;
  * `Prog.Then W N`: after an operation in `W` the program goes on as `N` says;
    if it then returns whatever fails, `Prog.Returns`, it does all or nothing.
-/
import Mathlib.Data.Nat.Notation
import NexTalkRelay.Lib.Prog

namespace Effect

namespace Prog

variable {Op : Type} {Res : Op → Type} {σ α β : Type}

/-! ## Faults -/

section
variable (failable : Op → Bool) (fails : ℕ → Bool)

/-- The state counts the operations. -/
def faulty (h : Handler Op Res σ) : Handler Op Res (σ × ℕ)
  | o, (s, n) =>
    if failable o && fails n then (none, (s, n + 1)) else ((h o s).1, ((h o s).2, n + 1))

variable {failable fails} {h : Handler Op Res σ}

/-- An operation that answers has met no fault. -/
theorem of_faulty {o : Op} {s s' : σ} {n n' : ℕ} {r : Res o}
    (ho : faulty failable fails h o (s, n) = (some r, (s', n'))) : h o s = (some r, s') := by
  unfold faulty at ho
  dsimp only at ho
  split at ho
  · cases ho
  · simp only [Prod.mk.injEq] at ho
    exact Prod.ext ho.1 ho.2.1

/-- Without faults the handler answers as before. -/
theorem run_faulty_false (p : Prog Op Res α) (s : σ) (n : ℕ) :
    ∃ n', p.run (faulty failable (fun _ => false) h) (s, n) = ((p.run h s).1, ((p.run h s).2, n')) := by
  induction p generalizing s n with
  | ret a => exact ⟨n, rfl⟩
  | throw => exact ⟨n, rfl⟩
  | op o k ih =>
    have ho : faulty failable (fun _ => false) h o (s, n) = ((h o s).1, ((h o s).2, n + 1)) := by
      unfold faulty
      simp
    simp only [run, ho]
    rcases h o s with ⟨_ | r, s'⟩
    · exact ⟨n + 1, rfl⟩
    · exact ih r s' (n + 1)

/-- What every operation keeps, it keeps when operations fail. -/
theorem faulty_keeps {P : Op → Prop} {I : σ → Prop} (hkeep : ∀ o s, P o → I s → I (h o s).2)
    (o : Op) (x : σ × ℕ) (ho : P o) (hx : I x.1) : I (faulty failable fails h o x).2.1 := by
  obtain ⟨s, n⟩ := x
  unfold faulty
  dsimp only
  split
  · exact hx
  · exact hkeep o s ho hx

/-- An operation that throws has no effect. -/
def Inert (h : Handler Op Res σ) : Prop := ∀ o s, (h o s).1 = none → (h o s).2 = s

theorem Inert.faulty (hinert : Inert h) {o : Op} {s : σ} {n : ℕ}
    (ho : (faulty failable fails h o (s, n)).1 = none) :
    (Prog.faulty failable fails h o (s, n)).2.1 = s := by
  unfold Prog.faulty at ho ⊢
  dsimp only at ho ⊢
  split at ho
  · next hf => rw [if_pos hf]
  · next hf =>
    rw [if_neg hf]
    exact hinert o s ho

end

/-! ## Before and after an operation -/

section
variable (W : Op → Prop) (h : Handler Op Res σ)

/-- An operation in `W` is performed, and then the run throws. -/
def FailsAfter : Prog Op Res α → σ → Prop
  | ret _, _ => False
  | throw, _ => False
  | op o k, s => ∃ r s', h o s = (some r, s') ∧
      (W o ∧ ((k r).run h s').1 = none ∨ ¬ W o ∧ FailsAfter (k r) s')

variable {W h}

theorem failsAfter_throws {p : Prog Op Res α} {s : σ} (hp : p.FailsAfter W h s) :
    (p.run h s).1 = none := by
  induction p generalizing s with
  | ret a => exact hp.elim
  | throw => rfl
  | op o k ih =>
    obtain ⟨r, s', ho, ⟨-, hnone⟩ | ⟨-, hafter⟩⟩ := hp
    · rw [run_op ho]
      exact hnone
    · rw [run_op ho]
      exact ih r hafter

end

section
variable {W : Op → Prop} {I : σ → Prop} {h : Handler Op Res σ}

/-- A run that throws, but not after an operation in `W`, has performed none. -/
theorem run_throws (hkeep : ∀ o s, ¬ W o → I s → I (h o s).2)
    (hthrow : ∀ o s, (h o s).1 = none → I s → I (h o s).2) {p : Prog Op Res α} {s : σ} (hs : I s)
    (hnone : (p.run h s).1 = none) (hp : ¬ p.FailsAfter W h s) : I (p.run h s).2 := by
  induction p generalizing s with
  | ret a => cases hnone
  | throw => exact hs
  | op o k ih =>
    rcases ho : h o s with ⟨_ | r, s'⟩
    · have hkept := hthrow o s (by rw [ho]) hs
      rw [ho] at hkept
      simp only [run, ho]
      exact hkept
    · rw [run_op ho] at hnone ⊢
      have hw : ¬ W o := fun hw => hp ⟨r, s', ho, Or.inl ⟨hw, hnone⟩⟩
      have hkept := hkeep o s hw hs
      rw [ho] at hkept
      exact ih r hkept hnone fun hafter => hp ⟨r, s', ho, Or.inr ⟨hw, hafter⟩⟩

end

/-! ## The end of a program -/

/-- After an operation in `W` the program goes on as `N` says. -/
def Then (W : Op → Prop) (N : Prog Op Res α → Prop) : Prog Op Res α → Prop
  | ret _ => True
  | throw => True
  | op o k => ∀ r, (W o → N (k r)) ∧ (¬ W o → Then W N (k r))

section
variable {W : Op → Prop} {N : Prog Op Res α → Prop}

theorem then_of_only {p : Prog Op Res α} (hp : p.Only fun o => ¬ W o) : p.Then W N := by
  induction p with
  | ret a => trivial
  | throw => trivial
  | op o k ih => exact fun r => ⟨fun hw => absurd hw hp.1, fun _ => ih r (hp.2 r)⟩

theorem Then.bind {p : Prog Op Res β} {f : β → Prog Op Res α} (hp : p.Only fun o => ¬ W o)
    (hf : ∀ b, (f b).Then W N) : (p.bind f).Then W N := by
  induction p with
  | ret b => exact hf b
  | throw => trivial
  | op o k ih => exact fun r => ⟨fun hw => absurd hw hp.1, fun _ => ih r (hp.2 r)⟩

/-- **A value outside `Q` comes from a run without operations in `W`.** -/
theorem Then.run {Q : α → Prop} {I : σ → Prop} {h : Handler Op Res σ}
    (hkeep : ∀ o s, ¬ W o → I s → I (h o s).2) {p : Prog Op Res α} (hp : p.Then W (Post Q)) {s : σ}
    (hs : I s) {a : α} (ha : (p.run h s).1 = some a) (hq : ¬ Q a) : I (p.run h s).2 := by
  induction p generalizing s with
  | ret b => exact hs
  | throw => cases ha
  | op o k ih =>
    rcases ho : h o s with ⟨_ | r, s'⟩
    · simp only [Prog.run, ho, reduceCtorEq] at ha
    · rw [run_op ho] at ha ⊢
      have hw : ¬ W o := fun hw => hq (((hp r).1 hw).run ha)
      have hkept := hkeep o s hw hs
      rw [ho] at hkept
      exact ih r ((hp r).2 hw) hkept ha

end

/-! ## Programs that return -/

section
variable (failable : Op → Bool)

/-- The program returns, whatever fails. -/
def Returns : Prog Op Res α → Prop
  | ret _ => True
  | throw => False
  | op o k => failable o = false ∧ ∀ r, Returns (k r)

variable {failable} {W : Op → Prop}

theorem Returns.bind {p : Prog Op Res α} {f : α → Prog Op Res β} (hp : p.Returns failable)
    (hf : ∀ a, (f a).Returns failable) : (p.bind f).Returns failable := by
  induction p with
  | ret a => exact hf a
  | throw => exact hp.elim
  | op o k ih => exact ⟨hp.1, fun r => ih r (hp.2 r)⟩

/-- The handler answers every operation. -/
def Answering (h : Handler Op Res σ) : Prop := ∀ o s, (h o s).1 ≠ none

variable {fails : ℕ → Bool} {h : Handler Op Res σ}

theorem Returns.run {p : Prog Op Res α} (hp : p.Returns failable) (hh : Answering h) (s : σ) (n : ℕ) :
    (p.run (faulty failable fails h) (s, n)).1 ≠ none := by
  induction p generalizing s n with
  | ret a => exact Option.some_ne_none a
  | throw => exact hp.elim
  | op o k ih =>
    have ho : faulty failable fails h o (s, n) = ((h o s).1, ((h o s).2, n + 1)) := by
      unfold faulty
      simp [hp.1]
    obtain ⟨r, hr⟩ := Option.ne_none_iff_exists'.1 (hh o s)
    rw [hr] at ho
    rw [run_op ho]
    exact ih r (hp.2 r) _ _

/-- **All or nothing.** -/
theorem Then.not_failsAfter {p : Prog Op Res α} (hp : p.Then W (Returns failable))
    (hh : Answering h) (s : σ) (n : ℕ) : ¬ p.FailsAfter W (faulty failable fails h) (s, n) := by
  induction p generalizing s n with
  | ret a => exact id
  | throw => exact id
  | op o k ih =>
    rintro ⟨r, ⟨s', n'⟩, ho, ⟨hw, hnone⟩ | ⟨hw, hafter⟩⟩
    · exact ((hp r).1 hw).run hh s' n' hnone
    · exact ih r ((hp r).2 hw) s' n' hafter

/-- **A run that fails after an operation in `W` leaves what it would have left
    without a fault**, as far as only `W` changes it. -/
theorem FailsAfter.clean {τ : Type} {view : σ → τ} {Q : α → Prop}
    (hview : ∀ o s, ¬ W o → view (h o s).2 = view s) (hh : Answering h) {p : Prog Op Res α}
    (hp : p.Then W fun q => q.Only (fun o => ¬ W o) ∧ q.Returns (fun _ => false) ∧ q.Post Q)
    {s : σ} {n : ℕ} (hfails : p.FailsAfter W (faulty failable fails h) (s, n)) :
    (∃ a, (p.run h s).1 = some a ∧ Q a) ∧
      view (p.run (faulty failable fails h) (s, n)).2.1 = view (p.run h s).2 := by
  induction p generalizing s n with
  | ret a => exact hfails.elim
  | throw => exact hfails.elim
  | op o k ih =>
    obtain ⟨r, ⟨s', n'⟩, ho, ⟨hw, -⟩ | ⟨hw, hafter⟩⟩ := hfails
    · obtain ⟨honly, hreturns, hpost⟩ := (hp r).1 hw
      rw [run_op ho, run_op (of_faulty ho)]
      have hclean : view ((k r).run h s').2 = view s' :=
        run_inv (I := fun s => view s = view s')
          (fun o s ho hs => (hview o s ho).trans hs) honly rfl
      have hfaulty : view ((k r).run (faulty failable fails h) (s', n')).2.1 = view s' :=
        run_inv (I := fun x : σ × ℕ => view x.1 = view s')
          (faulty_keeps fun o s ho hs => (hview o s ho).trans hs) honly rfl
      refine ⟨?_, hfaulty.trans hclean.symm⟩
      have hsome : ((k r).run (faulty (fun _ => false) (fun _ => false) h) (s', 0)).1 ≠ none :=
        hreturns.run hh s' 0
      obtain ⟨m, hrun⟩ := run_faulty_false (k r) s' 0
      rw [hrun] at hsome
      obtain ⟨a, ha⟩ := Option.ne_none_iff_exists'.1 hsome
      exact ⟨a, ha, hpost.run ha⟩
    · rw [run_op ho, run_op (of_faulty ho)]
      exact ih r ((hp r).2 hw) hafter

end

end Prog

end Effect
