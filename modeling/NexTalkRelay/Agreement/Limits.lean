/-
  The rate limits of the shard and of the Router.

  Both count the calls of a bucket in a window under a key of their stores, which
  is made of the name of the bucket and the number of the window.

  * `shardAnswers` and `routerAnswers` are the answers to calls that are handled
    one after the other, at any instants;
  * `shardAnswers_eq` and `routerAnswers_eq`: they are those of `Meter`;
  * `rate_limits_count_exactly`: so in each window as many calls are allowed as
    the limit says.
-/
import NexTalkRelay.Lib.Meter
import NexTalkRelay.Router.Topology
import NexTalkRelay.Shard.Push

open Effect Js Meter

namespace Agreement

/-! ## The shard -/

section Shard

variable (c : Crypto) (limit window : JString → ℕ)

/-- The answers of `rateLimit` to calls at given instants for given buckets. -/
def shardAnswers : Shard.Kv → List (ℕ × JString) → List Bool
  | _, [] => []
  | kv, e :: calls =>
    let p := Shard.runAt c e.1
      (Shard.rateLimit e.2 (.ofInt (limit e.2)) (window e.2)) kv
    p.1.getD false :: shardAnswers p.2 calls

/-- The counters in the store of a shard. -/
def shardCounters (kv : Shard.Kv) : Counters JString := fun p => kv (.rl p.1 p.2)

theorem shardCounters_put (kv : Shard.Kv) (t : ℕ) (b : JString) (n v : ℕ) (ttl : Option ℤ) :
    shardCounters (kv.put t (.rl b n) v ttl) = (shardCounters kv).put t (b, n) v ttl := by
  funext p
  obtain ⟨b', n'⟩ := p
  by_cases hp : (b', n') = (b, n)
  · cases hp
    exact (Store.put_same kv t _ ttl).trans (Store.put_same (shardCounters kv) t v ttl).symm
  · have hkey : Shard.Key.rl b' n' ≠ .rl b n := by
      rintro ⟨⟩
      exact hp rfl
    exact (Store.put_other kv t hkey v ttl).trans (Store.put_other (shardCounters kv) t hp v ttl).symm

theorem shardCounters_count (kv : Shard.Kv) (t : ℕ) (b : JString) :
    (kv.get t (.rl b (t / (window b * 1000)))).getD 0 = count window (shardCounters kv) t b := by
  unfold count Store.get
  cases h : kv (.rl b (t / (window b * 1000))) with
  | none => rw [show shardCounters kv (b, windowAt window t b) = none from h]
  | some e => rw [show shardCounters kv (b, windowAt window t b) = some e from h]

/-- **One call counts as `hit` does.** -/
theorem rateLimit_hit (t : ℕ) (b : JString) (kv : Shard.Kv) :
    (Shard.runAt c t (Shard.rateLimit b (.ofInt (limit b)) (window b)) kv).1 =
        some (hit limit window t b (shardCounters kv)).1 ∧
      shardCounters (Shard.runAt c t (Shard.rateLimit b (.ofInt (limit b)) (window b)) kv).2 =
        (hit limit window t b (shardCounters kv)).2 := by
  have hrun := Shard.rateLimit_window kv [] c t b (.ofInt (limit b)) (window b)
  have hcount := shardCounters_count window kv t b
  rw [hcount] at hrun
  unfold Shard.runAt hit
  rw [hrun]
  by_cases hfull : limit b ≤ count window (shardCounters kv) t b
  · rw [if_pos (Number.ofInt_le_ofInt.2 (by exact_mod_cast hfull)), if_pos hfull]
    exact ⟨rfl, rfl⟩
  · rw [if_neg (mt Number.ofInt_le_ofInt.1 (by exact_mod_cast hfull)), if_neg hfull]
    exact ⟨rfl, shardCounters_put kv t b _ _ _⟩

theorem shardAnswers_eq (kv : Shard.Kv) (calls : List (ℕ × JString)) :
    shardAnswers c limit window kv calls = answers limit window (shardCounters kv) calls := by
  induction calls generalizing kv with
  | nil => rfl
  | cons e calls ih =>
    obtain ⟨hanswer, hcounters⟩ := rateLimit_hit c limit window e.1 e.2 kv
    simp only [shardAnswers, answers, hanswer, Option.getD_some, ih, hcounters]

end Shard

/-! ## The Router -/

section Router

variable (env : Router.Env) (answer : JString → Router.CreateBody → Router.Created)
  (limit window : JString → ℕ)

/-- The answers of `adminRateLimit` to calls at given instants for given buckets. -/
def routerAnswers : Router.Kv × Router.World → List (ℕ × JString) → List Bool
  | _, [] => []
  | s, e :: calls =>
    let p := (Router.adminRateLimit env e.2 (limit e.2) (window e.2)).run
      (KvOp.exec e.1 (Router.services env.crypto answer)) s
    p.1.getD false :: routerAnswers p.2 calls

/-- The counters in the administration store. -/
def routerCounters (kv : Router.Kv) : Counters JString := fun p => kv (.rl p.1 p.2)

theorem routerCounters_put (kv : Router.Kv) (t : ℕ) (b : JString) (n v : ℕ) (ttl : Option ℤ) :
    routerCounters (kv.put t (.rl b n) v ttl) = (routerCounters kv).put t (b, n) v ttl := by
  funext p
  obtain ⟨b', n'⟩ := p
  by_cases hp : (b', n') = (b, n)
  · cases hp
    exact (Store.put_same kv t _ ttl).trans (Store.put_same (routerCounters kv) t v ttl).symm
  · have hkey : Router.Key.rl b' n' ≠ .rl b n := by
      rintro ⟨⟩
      exact hp rfl
    exact (Store.put_other kv t hkey v ttl).trans
      (Store.put_other (routerCounters kv) t hp v ttl).symm

theorem routerCounters_count (kv : Router.Kv) (t : ℕ) (b : JString) :
    (kv.get t (.rl b (t / (window b * 1000)))).getD 0 = count window (routerCounters kv) t b := by
  unfold count Store.get
  cases h : kv (.rl b (t / (window b * 1000))) with
  | none => rw [show routerCounters kv (b, windowAt window t b) = none from h]
  | some e => rw [show routerCounters kv (b, windowAt window t b) = some e from h]

/-- **One call counts as `hit` does**, if the store is bound. -/
theorem adminRateLimit_hit (hkv : env.adminKv = true) (t : ℕ) (b : JString) (kv : Router.Kv)
    (w : Router.World) :
    ∃ kv', (Router.adminRateLimit env b (limit b) (window b)).run
        (KvOp.exec t (Router.services env.crypto answer)) (kv, w) =
      (some (hit limit window t b (routerCounters kv)).1, (kv', w)) ∧
      routerCounters kv' = (hit limit window t b (routerCounters kv)).2 := by
  have hcount := routerCounters_count window kv t b
  rw [Router.adminRateLimit_run hkv, hcount]
  unfold hit
  by_cases hfull : limit b ≤ count window (routerCounters kv) t b
  · rw [if_pos hfull, if_pos hfull]
    exact ⟨kv, rfl, rfl⟩
  · rw [if_neg hfull, if_neg hfull]
    refine ⟨_, rfl, ?_⟩
    rw [routerCounters_put]
    rfl

theorem routerAnswers_eq (hkv : env.adminKv = true) (kv : Router.Kv) (w : Router.World)
    (calls : List (ℕ × JString)) :
    routerAnswers env answer limit window (kv, w) calls =
      answers limit window (routerCounters kv) calls := by
  induction calls generalizing kv with
  | nil => rfl
  | cons e calls ih =>
    obtain ⟨kv', hrun, hcounters⟩ := adminRateLimit_hit env answer limit window hkv e.1 e.2 kv w
    simp only [routerAnswers, answers, hrun, Option.getD_some, ih, hcounters]

end Router

/-! ## Exact counts -/

/-- **The rate limiters count exactly.**  The buckets may have any names, limits and
    windows; the store holds no counter at the start.  Then in each window the
    number of allowed calls of a bucket is the minimum of its limit and the number
    of its calls, both on a shard and on a Router whose store is bound, and the
    keys of different buckets and windows differ. -/
theorem rate_limits_count_exactly {limit window : JString → ℕ} (hwindow : ∀ b, 60 ≤ window b)
    (calls : List (ℕ × JString)) (b : JString) (n : ℕ) :
    (∀ (c : Crypto) (kv : Shard.Kv), kv (.rl b n) = none →
      granted window calls (shardAnswers c limit window kv calls) b n =
        min (limit b) (received window calls b n)) ∧
    (∀ (env : Router.Env) (answer : JString → Router.CreateBody → Router.Created) (kv : Router.Kv)
      (w : Router.World), env.adminKv = true → kv (.rl b n) = none →
      granted window calls (routerAnswers env answer limit window (kv, w) calls) b n =
        min (limit b) (received window calls b n)) ∧
    Function.Injective Shard.Key.text ∧ Function.Injective Router.Key.text := by
  have hpos : 0 < window b := lt_of_lt_of_le (by omega) (hwindow b)
  refine ⟨fun c kv hkv => ?_, fun env answer kv w hbound hkv => ?_, Shard.Key.text_injective,
    Router.Key.text_injective⟩
  · rw [shardAnswers_eq, granted_eq_min (Or.inl ⟨rfl, hkv⟩) hpos (Nat.zero_le _), Nat.sub_zero]
  · rw [routerAnswers_eq env answer limit window hbound,
      granted_eq_min (Or.inl ⟨rfl, hkv⟩) hpos (Nat.zero_le _), Nat.sub_zero]

theorem three_calls_counted :
    granted (fun _ => 60) [(0, js "a"), (59999, js "b"), (59999, js "a"), (1, js "a")]
        (shardAnswers Crypto.trusting (fun _ => 2) (fun _ => 60) (fun _ => none)
          [(0, js "a"), (59999, js "b"), (59999, js "a"), (1, js "a")]) (js "a") 0 =
      min 2 (received (fun _ => 60) [(0, js "a"), (59999, js "b"), (59999, js "a"), (1, js "a")]
        (js "a") 0) :=
  (@rate_limits_count_exactly (fun _ => 2) (fun _ => 60) (fun _ => le_refl 60) _ _ _).1 _ _ rfl

end Agreement
