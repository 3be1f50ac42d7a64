/-
  A FIFO queue behind a secret, with exact expiry.

  A box disappears at the instant `expires`, and its backlog at the instant
  `ttl` seconds after its first entry was queued.

  * `settle ttl t` is what is left of a box at the instant `t`; settling is
    monotone in time (`settle_settle`), so that a box may be settled late;
  * `Box.push`, `Box.drain`, `Box.rekey` and `Box.touch` append an entry, empty
    the queue, replace the secret, and only prolong the life of the box.
-/
import Mathlib.Data.Int.Notation
import Mathlib.Data.Nat.Notation
import Mathlib.Tactic.Common

namespace ExpiringQueue

/-- A queue of entries `E` behind a secret `S`. -/
structure Box (S E : Type) where
  secret : S
  queue : List E
  /-- When the first entry of the backlog was queued. -/
  since : Option ℕ
  created : ℕ
  /-- When the box disappears (`none`: never). -/
  expires : Option ℤ

namespace Box

variable {S E : Type}

/-- The box is still there. -/
def alive (b : Box S E) (t : ℕ) : Bool :=
  match b.expires with
  | none => true
  | some x => decide ((t : ℤ) < x)

/-- The backlog has outlived `ttl` seconds. -/
def stale (b : Box S E) (ttl : ℤ) (t : ℕ) : Bool :=
  match b.since with
  | none => false
  | some u => decide ((u : ℤ) + 1000 * ttl ≤ t)

/-- Drop a stale backlog. -/
def expire (b : Box S E) (ttl : ℤ) (t : ℕ) : Box S E :=
  if b.stale ttl t then { b with queue := [], since := none } else b

/-- A new box, which lives for `life` seconds. -/
def new (secret : S) (life : ℤ) (t : ℕ) : Box S E :=
  { secret, queue := [], since := none, created := t, expires := some (t + 1000 * life) }

/-- Live for another `life` seconds. -/
def touch (b : Box S E) (life : ℤ) (t : ℕ) : Box S E :=
  { b with expires := some (t + 1000 * life) }

/-- Another secret for the same queue. -/
def rekey (b : Box S E) (secret : S) : Box S E := { b with secret }

/-- Append an entry. -/
def push (b : Box S E) (e : E) (t : ℕ) : Box S E :=
  { b with queue := b.queue ++ [e], since := some (b.since.getD t) }

/-- Empty the queue. -/
def drain (b : Box S E) : Box S E := { b with queue := [], since := none }

theorem alive_mono {b : Box S E} {t t' : ℕ} (h : t ≤ t') (ha : b.alive t' = true) :
    b.alive t = true := by
  unfold alive at *
  split at ha
  · rfl
  · simp only [decide_eq_true_eq] at *; omega

theorem stale_mono {b : Box S E} {ttl : ℤ} {t t' : ℕ} (h : t ≤ t') (hs : b.stale ttl t = true) :
    b.stale ttl t' = true := by
  unfold stale at *
  split at hs
  · cases hs
  · simp only [decide_eq_true_eq] at *; omega

@[simp] theorem alive_expire (b : Box S E) (ttl : ℤ) (t t' : ℕ) :
    (b.expire ttl t).alive t' = b.alive t' := by
  unfold expire; split <;> rfl

theorem expire_of_not_stale {b : Box S E} {ttl : ℤ} {t : ℕ} (h : b.stale ttl t = false) :
    b.expire ttl t = b := by
  simp [expire, h]

theorem expire_expire {b : Box S E} {ttl : ℤ} {t t' : ℕ} (h : t ≤ t') :
    (b.expire ttl t).expire ttl t' = b.expire ttl t' := by
  by_cases hs : b.stale ttl t = true
  · -- a dropped backlog is stale at every later instant
    have h1 : b.expire ttl t = b.drain := by simp [expire, hs, drain]
    have h2 : b.expire ttl t' = b.drain := by simp [expire, stale_mono h hs, drain]
    rw [h1, h2]
    exact expire_of_not_stale rfl
  · have h0 : b.expire ttl t = b := expire_of_not_stale (by simpa using hs)
    rw [h0]

theorem expire_touch (b : Box S E) (life ttl : ℤ) (t' t : ℕ) :
    (b.touch life t').expire ttl t = (b.expire ttl t).touch life t' := by
  have hs : (b.touch life t').stale ttl t = b.stale ttl t := rfl
  unfold expire
  rw [hs]
  split <;> rfl

theorem expire_rekey (b : Box S E) (secret : S) (ttl : ℤ) (t : ℕ) :
    (b.rekey secret).expire ttl t = (b.expire ttl t).rekey secret := by
  have hs : (b.rekey secret).stale ttl t = b.stale ttl t := rfl
  unfold expire
  rw [hs]
  split <;> rfl

end Box

variable {S E : Type}

/-- What is left at the instant `t`. -/
def settle (ttl : ℤ) (t : ℕ) (o : Option (Box S E)) : Option (Box S E) :=
  (o.filter fun b => b.alive t).map fun b => b.expire ttl t

@[simp] theorem settle_none (ttl : ℤ) (t : ℕ) : settle ttl t (none : Option (Box S E)) = none := rfl

theorem settle_some_alive {b : Box S E} {t : ℕ} (h : b.alive t = true) (ttl : ℤ) :
    settle ttl t (some b) = some (b.expire ttl t) := by
  simp [settle, h]

theorem settle_some_gone {b : Box S E} {t : ℕ} (h : b.alive t = false) (ttl : ℤ) :
    settle ttl t (some b) = none := by
  simp [settle, h]

theorem settle_expire (b : Box S E) (ttl : ℤ) (t : ℕ) :
    settle ttl t (some (b.expire ttl t)) = settle ttl t (some b) := by
  by_cases ha : b.alive t = true
  · rw [settle_some_alive ha, settle_some_alive (by simpa using ha), Box.expire_expire (Nat.le_refl t)]
  · rw [settle_some_gone (by simpa using ha), settle_some_gone (by simpa using ha)]

/-- **Late settling.** Settling early makes no difference to what is left later. -/
theorem settle_settle {ttl : ℤ} {t t' : ℕ} (h : t ≤ t') (o : Option (Box S E)) :
    settle ttl t' (settle ttl t o) = settle ttl t' o := by
  cases o with
  | none => rfl
  | some b =>
    by_cases ha : b.alive t = true
    · rw [settle_some_alive ha]
      by_cases ha' : b.alive t' = true
      · rw [settle_some_alive (by simpa using ha'), settle_some_alive ha', Box.expire_expire h]
      · rw [settle_some_gone (by simpa using ha'), settle_some_gone (by simpa using ha')]
    · rw [settle_some_gone (by simpa using ha), settle_none,
        settle_some_gone (by simpa using fun ha' => ha (Box.alive_mono h ha'))]

end ExpiringQueue
