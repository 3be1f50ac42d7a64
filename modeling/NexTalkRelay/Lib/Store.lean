/-
  Key-value stores whose entries expire.

  A key `k : K` holds values of type `V k`.  An entry put with a time to live
  of `n` seconds at instant `t` (in milliseconds) is present at the instants
  before `t + 1000 n` and absent from then on.

  * `Store.get`, `Store.put`, `Store.delete` with the lemmas that relate them;
  * `KvOp`: the operations of a program on a store, its clock and the services
    it calls, and `exec`, which answers them at a fixed instant;
  * `KvOp.widen`: a program among those that may also call further services.
-/
import Mathlib.Data.Int.Notation
import Mathlib.Data.Nat.Notation
import Mathlib.Tactic.Common
import NexTalkRelay.Lib.Prog

namespace Effect

/-- An entry and the instant at which it disappears (`none`: never). -/
structure Slot (V : Type) where
  val : V
  expires : Option ℤ

/-- A store holding at most one entry for each key. -/
abbrev Store (K : Type) (V : K → Type) := (k : K) → Option (Slot (V k))

namespace Slot

/-- The entry is still there at instant `now`. -/
def live {V : Type} (e : Slot V) (now : ℕ) : Bool :=
  match e.expires with
  | none => true
  | some x => decide ((now : ℤ) < x)

theorem live_mono {V : Type} {e : Slot V} {t t' : ℕ} (h : t ≤ t') (hl : e.live t' = true) :
    e.live t = true := by
  unfold live at *
  split at hl
  · rfl
  · simp only [decide_eq_true_eq] at *; omega

end Slot

namespace Store

variable {K : Type} {V : K → Type}

/-- The value of `k` at instant `now`. -/
def get (s : Store K V) (now : ℕ) (k : K) : Option (V k) :=
  match s k with
  | some e => if e.live now then some e.val else none
  | none => none

theorem get_eq_some {s : Store K V} {now : ℕ} {k : K} {v : V k} :
    s.get now k = some v ↔ ∃ e, s k = some e ∧ e.live now = true ∧ e.val = v := by
  unfold get
  cases s k with
  | none => simp
  | some e => by_cases h : e.live now = true <;> simp [h]

theorem get_live {s : Store K V} {now : ℕ} {k : K} {e : Slot (V k)} (h : s k = some e)
    (hl : e.live now = true) : s.get now k = some e.val := get_eq_some.2 ⟨e, h, hl, rfl⟩

theorem get_expired {s : Store K V} {now : ℕ} {k : K} {e : Slot (V k)} (h : s k = some e)
    (hl : e.live now = false) : s.get now k = none := by
  simp [get, h, hl]

/-- An entry present later was present before. -/
theorem get_of_later {s : Store K V} {t t' : ℕ} (h : t ≤ t') {k : K} {v : V k}
    (hv : s.get t' k = some v) : s.get t k = some v := by
  obtain ⟨e, he, hl, rfl⟩ := get_eq_some.1 hv
  exact get_eq_some.2 ⟨e, he, Slot.live_mono h hl, rfl⟩

theorem get_congr {s s' : Store K V} {k : K} (h : s' k = s k) (now : ℕ) : s'.get now k = s.get now k := by
  unfold get; rw [h]

theorem get_none {s : Store K V} {k : K} (h : s k = none) (now : ℕ) : s.get now k = none := by
  unfold get; rw [h]

variable [DecidableEq K]

/-- Put `v` under `k` at instant `now`, with an optional time to live in seconds. -/
def put (s : Store K V) (now : ℕ) (k : K) (v : V k) (ttl : Option ℤ) : Store K V :=
  Function.update s k (some ⟨v, ttl.map fun n => (now : ℤ) + 1000 * n⟩)

/-- Removes a key. -/
def delete (s : Store K V) (k : K) : Store K V := Function.update s k none

variable (s : Store K V) (now : ℕ) {k k' : K}

@[simp] theorem put_same (v : V k) (ttl : Option ℤ) :
    s.put now k v ttl k = some ⟨v, ttl.map fun n => (now : ℤ) + 1000 * n⟩ := by simp [put]

theorem put_other (h : k' ≠ k) (v : V k) (ttl : Option ℤ) : s.put now k v ttl k' = s k' := by
  simp [put, h]

/-- The same write to two stores leaves alike what was alike. -/
theorem put_congr {s s' : Store K V} (h : s k' = s' k') (v : V k) (ttl : Option ℤ) :
    s.put now k v ttl k' = s'.put now k v ttl k' := by
  by_cases hk : k' = k
  · subst hk
    rw [put_same, put_same]
  · rw [put_other s now hk, put_other s' now hk, h]

@[simp] theorem delete_same : s.delete k k = none := by simp [delete]

theorem delete_other (h : k' ≠ k) : s.delete k k' = s k' := by simp [delete, h]

theorem get_put_other (h : k' ≠ k) (v : V k) (ttl : Option ℤ) (t : ℕ) :
    (s.put now k v ttl).get t k' = s.get t k' := get_congr (put_other s now h v ttl) t

@[simp] theorem get_put_none (v : V k) (t : ℕ) : (s.put now k v none).get t k = some v := by
  simp [get, Slot.live]

theorem get_put_some (v : V k) (n : ℤ) (t : ℕ) :
    (s.put now k v (some n)).get t k = if (t : ℤ) < now + 1000 * n then some v else none := by
  simp [get, Slot.live]

end Store

/-! ## Operations on a store -/

/-- The operations of a program that uses a store, its clock and the outside
    services `E`. -/
inductive KvOp (K : Type) (V : K → Type) (E : Type) where
  | get (k : K)
  | put (k : K) (v : V k) (ttl : Option ℤ)
  | delete (k : K)
  | now
  | call (e : E)

namespace KvOp

variable {K E τ : Type} {V : K → Type} {R : E → Type}

/-- The type of the answer to an operation, where the service `e` answers with
    an `R e`. -/
@[reducible] def Res (R : E → Type) : KvOp K V E → Type
  | get k => Option (V k)
  | put .. | delete _ => Unit
  | now => ℕ
  | call e => R e

/-- The operation writes only keys in `S`. -/
def Writes (S : K → Prop) : KvOp K V E → Prop
  | get _ | now | call _ => True
  | put k _ _ | delete k => S k

/-- The operation leaves the entry of `k` alone. -/
abbrev Spares (k : K) : KvOp K V E → Prop := Writes (· ≠ k)

theorem Writes.mono {S T : K → Prop} (h : ∀ k, S k → T k) {o : KvOp K V E} (ho : o.Writes S) :
    o.Writes T := by
  cases o <;> first | trivial | exact h _ ho

/-- The operation calls only services in `C`. -/
def Calls (C : E → Prop) : KvOp K V E → Prop
  | get _ | put .. | delete _ | now => True
  | call e => C e

section
variable {α : Type} (S : K → Prop)

@[simp] theorem only_get (k : K) (f : Option (V k) → Prog (KvOp K V E) (Res R) α) :
    (Prog.op (.get k) f : Prog (KvOp K V E) (Res R) α).Only (Writes S) ↔ ∀ r, (f r).Only (Writes S) := by
  simp [Writes]
@[simp] theorem only_now (f : ℕ → Prog (KvOp K V E) (Res R) α) :
    (Prog.op .now f : Prog (KvOp K V E) (Res R) α).Only (Writes S) ↔ ∀ t, (f t).Only (Writes S) := by
  simp [Writes]
@[simp] theorem only_call (e : E) (f : R e → Prog (KvOp K V E) (Res R) α) :
    (Prog.op (.call e) f : Prog (KvOp K V E) (Res R) α).Only (Writes S) ↔ ∀ r, (f r).Only (Writes S) := by
  simp [Writes]
@[simp] theorem only_put (k : K) (v : V k) (ttl : Option ℤ)
    (f : Unit → Prog (KvOp K V E) (Res R) α) :
    (Prog.op (.put k v ttl) f : Prog (KvOp K V E) (Res R) α).Only (Writes S) ↔
      S k ∧ (f ()).Only (Writes S) :=
  and_congr_right fun _ => ⟨fun h => h (), fun h _ => h⟩
@[simp] theorem only_delete (k : K) (f : Unit → Prog (KvOp K V E) (Res R) α) :
    (Prog.op (.delete k) f : Prog (KvOp K V E) (Res R) α).Only (Writes S) ↔
      S k ∧ (f ()).Only (Writes S) :=
  and_congr_right fun _ => ⟨fun h => h (), fun h _ => h⟩

end

/-! ### Further services -/

section
variable {E' : Type} {R' : E' → Type} {α : Type}

/-- The program, among programs that may also call the services `E'`. -/
def widen : Prog (KvOp K V E) (Res R) α → Prog (KvOp K V (E ⊕ E')) (Res (Sum.elim R R')) α
  | .ret a => .ret a
  | .throw => .throw
  | .op (.get k) f => .op (.get k) fun r => widen (f r)
  | .op (.put k v ttl) f => .op (.put k v ttl) fun r => widen (f r)
  | .op (.delete k) f => .op (.delete k) fun r => widen (f r)
  | .op .now f => .op .now fun r => widen (f r)
  | .op (.call e) f => .op (.call (.inl e)) fun r => widen (f r)

instance : MonadLift (Prog (KvOp K V E) (Res R)) (Prog (KvOp K V (E ⊕ E')) (Res (Sum.elim R R'))) :=
  ⟨widen⟩

theorem widen_writes {S : K → Prop} {p : Prog (KvOp K V E) (Res R) α} (hp : p.Only (Writes S)) :
    (widen p : Prog (KvOp K V (E ⊕ E')) (Res (Sum.elim R R')) α).Only (Writes S) := by
  induction p with
  | ret a => trivial
  | throw => trivial
  | op o k ih => cases o <;> exact ⟨hp.1, fun r => ih r (hp.2 r)⟩

end

variable [DecidableEq K]

/-- The answers of a store at the instant `t`, with services that keep a state
    of their own. -/
def exec (t : ℕ) (h : Prog.Handler E R τ) : Prog.Handler (KvOp K V E) (Res R) (Store K V × τ)
  | get k, s => (some (s.1.get t k), s)
  | put k v ttl, s => (some (), (s.1.put t k v ttl, s.2))
  | delete k, s => (some (), (s.1.delete k, s.2))
  | now, s => (some t, s)
  | call e, s => ((h e s.2).1, (s.1, (h e s.2).2))

theorem exec_spares {k : K} {o : KvOp K V E} (ho : o.Spares k) (t : ℕ) (h : Prog.Handler E R τ)
    (s : Store K V × τ) : (exec t h o s).2.1 k = s.1 k := by
  cases o with
  | get _ | now | call _ => rfl
  | put k' v ttl => exact Store.put_other s.1 t (Ne.symm ho) v ttl
  | delete k' => exact Store.delete_other s.1 (Ne.symm ho)

/-- **Frame rule.** A program that spares `k` leaves its entry unchanged. -/
theorem run_spares {k : K} {α : Type} {p : Prog (KvOp K V E) (Res R) α} (hp : p.Only (Spares k))
    (t : ℕ) (h : Prog.Handler E R τ) (s : Store K V × τ) : (p.run (exec t h) s).2.1 k = s.1 k :=
  Prog.run_inv (I := fun s' => s'.1 k = s.1 k)
    (fun _ s' ho hs => (exec_spares ho t h s').trans hs) hp rfl

/-- A program that writes only keys in `S` leaves the others alone. -/
theorem run_outside {S : K → Prop} {k : K} (hk : ¬ S k) {α : Type}
    {p : Prog (KvOp K V E) (Res R) α} (hp : p.Only (Writes S)) (t : ℕ) (h : Prog.Handler E R τ)
    (s : Store K V × τ) : (p.run (exec t h) s).2.1 k = s.1 k :=
  run_spares (hp.mono fun _ ho => Writes.mono (by rintro _ hs rfl; exact hk hs) ho) t h s

/-- A program that calls only services in `C` keeps what they keep. -/
theorem run_calls {C : E → Prop} {I : τ → Prop} {h : Prog.Handler E R τ}
    (hstep : ∀ e x, C e → I x → I (h e x).2) {α : Type} {p : Prog (KvOp K V E) (Res R) α}
    (hp : p.Only (Calls C)) (t : ℕ) {s : Store K V × τ} (hs : I s.2) :
    I (p.run (exec t h) s).2.2 := by
  refine Prog.run_inv (I := fun s' : Store K V × τ => I s'.2) (fun o s' ho hs' => ?_) hp hs
  cases o with
  | get _ | put _ _ _ | delete _ | now => exact hs'
  | call e => exact hstep e s'.2 ho hs'

/-- A program runs among further services as it runs among its own. -/
theorem run_widen {E' : Type} {R' : E' → Type} {h : Prog.Handler (E ⊕ E') (Sum.elim R R') τ}
    {h₀ : Prog.Handler E R τ} (hh : ∀ e x, h (.inl e) x = h₀ e x) (t : ℕ) {α : Type}
    (p : Prog (KvOp K V E) (Res R) α) (s : Store K V × τ) :
    (widen p).run (exec t h) s = p.run (exec t h₀) s := by
  induction p generalizing s with
  | ret a => rfl
  | throw => rfl
  | op o k ih =>
    cases o with
    | get key => exact ih _ _
    | put key v ttl => exact ih _ _
    | delete key => exact ih _ _
    | now => exact ih _ _
    | call e =>
      have hcall := hh e s.2
      unfold widen
      simp only [Prog.run, exec, hcall]
      cases (h₀ e s.2).1 with
      | none => rfl
      | some r => exact ih _ _

section
variable {α : Type} (t : ℕ) (h : Prog.Handler E R τ) (s : Store K V) (x : τ)

@[simp] theorem run_get (k : K) (f : Option (V k) → Prog (KvOp K V E) (Res R) α) :
    (Prog.op (.get k) f).run (exec t h) (s, x) = (f (s.get t k)).run (exec t h) (s, x) := rfl
@[simp] theorem run_put (k : K) (v : V k) (ttl : Option ℤ)
    (f : Unit → Prog (KvOp K V E) (Res R) α) :
    (Prog.op (.put k v ttl) f).run (exec t h) (s, x) =
      (f ()).run (exec t h) (s.put t k v ttl, x) := rfl
@[simp] theorem run_delete (k : K) (f : Unit → Prog (KvOp K V E) (Res R) α) :
    (Prog.op (.delete k) f).run (exec t h) (s, x) = (f ()).run (exec t h) (s.delete k, x) := rfl
@[simp] theorem run_now (f : ℕ → Prog (KvOp K V E) (Res R) α) :
    (Prog.op .now f).run (exec t h) (s, x) = (f t).run (exec t h) (s, x) := rfl

end

end KvOp

end Effect
