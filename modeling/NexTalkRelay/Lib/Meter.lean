/-
  Counting calls in aligned windows of time.

  A bucket has a counter for each of its windows.  A call is granted while the
  counter is below the limit of the bucket, and then writes it anew, with a life
  that is longer than the window.

  * `hit` is one call, and `answers` those of a list of calls;
  * `Counted` says what the counter of a window holds, and `hit_counted` what one
    call makes of it;
  * `granted_eq_min`: in each window as many calls of a bucket are granted as the
    limit allows, in whatever order the calls come.
-/
import NexTalkRelay.Lib.Store

namespace Effect.Meter

variable {B : Type}

/-- The counters of all buckets and windows. -/
abbrev Counters (B : Type) := Store (B × ℕ) fun _ => ℕ

/-- The window of the instant `t`, in milliseconds; windows are in seconds. -/
def windowAt (window : B → ℕ) (t : ℕ) (b : B) : ℕ := t / (window b * 1000)

/-- The count of a bucket in the current window. -/
def count (window : B → ℕ) (s : Counters B) (t : ℕ) (b : B) : ℕ :=
  (s.get t (b, windowAt window t b)).getD 0

/-- The counter of a window holds `k`, and lives until the end of the window. -/
def Counted (window : B → ℕ) (s : Counters B) (b : B) (n k : ℕ) : Prop :=
  k = 0 ∧ s (b, n) = none ∨
    ∃ x : ℤ, s (b, n) = some ⟨k, some x⟩ ∧ (((n + 1) * (window b * 1000) : ℕ) : ℤ) ≤ x

/-- Inside its window a counter is read as it was written. -/
theorem Counted.count {window : B → ℕ} {s : Counters B} {b : B} {n k t : ℕ}
    (h : Counted window s b n k) (hw : 0 < window b) (ht : windowAt window t b = n) :
    count window s t b = k := by
  unfold Meter.count
  rw [ht]
  rcases h with ⟨rfl, hnone⟩ | ⟨x, hsome, hx⟩
  · rw [Store.get_none hnone]
    rfl
  · have hlive : (t : ℤ) < x := by
      have hlt : t < (n + 1) * (window b * 1000) := by
        rw [← ht, windowAt]
        exact Nat.lt_mul_of_div_lt (Nat.lt_succ_self _) (by omega)
      omega
    rw [Store.get_live hsome (by simpa [Slot.live] using hlive)]
    rfl

variable [DecidableEq B]

section Calls

variable (limit window : B → ℕ)

/-- A call at the instant `t`: whether it is granted, and the counters after it. -/
def hit (t : ℕ) (b : B) (s : Counters B) : Bool × Counters B :=
  if limit b ≤ count window s t b then (false, s)
  else (true, s.put t (b, windowAt window t b) (count window s t b + 1) (some (window b + 5)))

/-- The answers to a sequence of calls. -/
def answers : Counters B → List (ℕ × B) → List Bool
  | _, [] => []
  | s, e :: calls => (hit limit window e.1 e.2 s).1 :: answers (hit limit window e.1 e.2 s).2 calls

/-- The call is one of the bucket in the window `n`. -/
def Within (b : B) (n : ℕ) (e : ℕ × B) : Prop := e.2 = b ∧ windowAt window e.1 b = n

instance (b : B) (n : ℕ) (e : ℕ × B) : Decidable (Within window b n e) :=
  inferInstanceAs (Decidable (_ ∧ _))

/-- The number of the calls of a bucket in a window, and of those among them that
    were granted. -/
def received (calls : List (ℕ × B)) (b : B) (n : ℕ) : ℕ :=
  (calls.filter fun e => Within window b n e).length

/-- The calls of a bucket that were granted in the window `n`. -/
def granted (calls : List (ℕ × B)) (answers : List Bool) (b : B) (n : ℕ) : ℕ :=
  ((calls.zip answers).filter fun e => Within window b n e.1 && e.2).length

end Calls

variable {limit window : B → ℕ} {s : Counters B} {b : B} {n k : ℕ}

/-- **What one call makes of a counter.** -/
theorem hit_counted (h : Counted window s b n k) (hw : 0 < window b) (e : ℕ × B) :
    if Within window b n e then
      (hit limit window e.1 e.2 s).1 = decide (k < limit b) ∧
        Counted window (hit limit window e.1 e.2 s).2 b n (if k < limit b then k + 1 else k)
    else Counted window (hit limit window e.1 e.2 s).2 b n k := by
  obtain ⟨t, b'⟩ := e
  split
  · next hin =>
    obtain ⟨rfl, ht⟩ : b' = b ∧ windowAt window t b = n := hin
    have hcount := h.count hw ht
    unfold hit
    dsimp only
    rw [hcount, ht]
    by_cases hk : k < limit b'
    · rw [if_neg (by omega), if_pos hk, decide_eq_true hk]
      refine ⟨rfl, Or.inr ⟨t + 1000 * (window b' + 5 : ℤ), ?_, ?_⟩⟩
      · exact Store.put_same s t (k + 1) (some (window b' + 5))
      · have hle : n * (window b' * 1000) ≤ t := by
          rw [← ht, windowAt]
          exact Nat.div_mul_le_self t _
        have hsucc : (n + 1) * (window b' * 1000) = n * (window b' * 1000) + window b' * 1000 :=
          Nat.succ_mul n _
        omega
    · rw [if_pos (by omega), if_neg hk, decide_eq_false hk]
      exact ⟨rfl, h⟩
  · next hout =>
    unfold hit
    split
    · exact h
    · have hkey : (b, n) ≠ (b', windowAt window t b') := by
        intro heq
        obtain ⟨rfl, rfl⟩ := Prod.mk.inj heq
        exact hout ⟨rfl, rfl⟩
      unfold Counted at h ⊢
      dsimp only
      rw [Store.put_other s t hkey]
      exact h

/-- **A window grants what its limit allows.** -/
theorem granted_eq_min (h : Counted window s b n k) (hw : 0 < window b) (hk : k ≤ limit b)
    (calls : List (ℕ × B)) :
    granted window calls (answers limit window s calls) b n =
      min (limit b - k) (received window calls b n) := by
  induction calls generalizing s k with
  | nil => simp [granted, received]
  | cons e calls ih =>
    have hstep := @hit_counted B _ limit window s b n k h hw e
    have hcons (a : Bool) (as : List Bool) : granted window (e :: calls) (a :: as) b n =
        (if Within window b n e ∧ a = true then 1 else 0) + granted window calls as b n := by
      unfold granted
      rw [List.zip_cons_cons, List.filter_cons]
      by_cases hin : Within window b n e <;> cases a <;> simp [hin, Nat.add_comm]
    have hreceived : received window (e :: calls) b n =
        (if Within window b n e then 1 else 0) + received window calls b n := by
      unfold received
      rw [List.filter_cons]
      by_cases hin : Within window b n e <;> simp [hin, Nat.add_comm]
    rw [answers, hcons, hreceived]
    by_cases hin : Within window b n e
    · rw [if_pos hin] at hstep
      obtain ⟨hanswer, hcounted⟩ := hstep
      by_cases hlt : k < limit b
      · rw [if_pos hlt] at hcounted
        rw [ih hcounted hlt, if_pos ⟨hin, hanswer.trans (decide_eq_true hlt)⟩, if_pos hin]
        omega
      · rw [if_neg hlt] at hcounted
        have hno : ¬ (Within window b n e ∧ (hit limit window e.1 e.2 s).1 = true) := by
          rintro ⟨-, htrue⟩
          rw [hanswer] at htrue
          exact hlt (of_decide_eq_true htrue)
        rw [ih hcounted hk, if_neg hno, if_pos hin]
        omega
    · rw [if_neg hin] at hstep
      rw [ih hstep hk, if_neg fun h => hin h.1, if_neg hin]
      omega

end Effect.Meter
