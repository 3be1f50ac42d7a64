/-
  The shard list, and what a request does to it.

  * `shardUrlsOf` and its parts are the lists that the handlers read from a
    store in which the lists are `Durable`;
  * `admitted` and `rotated` say which requests rewrite the registered shards,
    as a condition on the request and the state before it, and `rewrites` is
    the list that they write;
  * `Rewritten` is all that a request does to the lists (`handle_cases`), and
    `Rewritten.shardUrls` says that it pushes at most one URL to the shard list.
-/
import NexTalkRelay.Router.Frame

open Effect Js

namespace Router

/-! ## The lists of a store -/

/-- The keys of the lists of the configuration. -/
def Listed : Key → Prop
  | .shardUrls | .priorShardCounts | .registeredShards => True
  | _ => False

/-- The lists do not expire. -/
def Durable (kv : Kv) : Prop := ∀ k, Listed k → ∀ e, kv k = some e → e.expires = none

/-- What the handlers find under a key of the configuration. -/
def stored (env : Env) (kv : Kv) (k : Key) : Option (Val k) :=
  if env.adminKv then (kv k).map (·.val) else none

/-- The registered shards of a store. -/
def registeredOf (env : Env) (kv : Kv) : List Registered := (stored env kv .registeredShards).getD []

/-- The static list in force. -/
def baseOf (env : Env) (kv : Kv) : List JString := baseUrls env (stored env kv .shardUrls)

/-- Their URLs. -/
def registeredUrls (env : Env) (kv : Kv) : List JString := (registeredOf env kv).map (·.url)

/-- The shard list. -/
def shardUrlsOf (env : Env) (kv : Kv) : List JString :=
  Merge.pushAbsent (baseOf env kv) (registeredUrls env kv)

/-- The earlier counts of a store. -/
def priorCountsOf (env : Env) (kv : Kv) : List Json :=
  (stored env kv .priorShardCounts).getD env.priorShardCounts

theorem Durable.get {kv : Kv} (h : Durable kv) {k : Key} (hk : Listed k) (t : ℕ) :
    kv.get t k = (kv k).map (·.val) := by
  cases he : kv k with
  | none => exact Store.get_none he t
  | some e =>
    refine Store.get_live he ?_
    unfold Slot.live
    rw [h k hk e he]

theorem Durable.of_same {kv kv' : Kv} (hd : Durable kv) (h : ∀ k, Listed k → kv' k = kv k) :
    Durable kv' := fun k hk e he => hd k hk e (by rw [← h k hk, he])

theorem stored_congr {env : Env} {kv kv' : Kv} {k : Key} (h : kv' k = kv k) :
    stored env kv' k = stored env kv k := by
  unfold stored; rw [h]

theorem registeredOf_congr {env : Env} {kv kv' : Kv}
    (h : kv' .registeredShards = kv .registeredShards) : registeredOf env kv' = registeredOf env kv := by
  unfold registeredOf; rw [stored_congr h]

theorem registeredUrls_congr {env : Env} {kv kv' : Kv}
    (h : kv' .registeredShards = kv .registeredShards) :
    registeredUrls env kv' = registeredUrls env kv := by
  unfold registeredUrls; rw [registeredOf_congr h]

theorem shardUrlsOf_congr {env : Env} {kv kv' : Kv} (h : kv' .shardUrls = kv .shardUrls)
    (h' : kv' .registeredShards = kv .registeredShards) :
    shardUrlsOf env kv' = shardUrlsOf env kv := by
  unfold shardUrlsOf baseOf
  rw [stored_congr h, registeredUrls_congr h']

theorem stored_of_slot {env : Env} {kv : Kv} {k : Key} {v : Val k} {x : Option ℤ}
    (hkv : env.adminKv = true) (h : kv k = some ⟨v, x⟩) : stored env kv k = some v := by
  unfold stored; rw [if_pos hkv, h]; rfl

section
variable {σ : Type} {env : Env} {t : ℕ} {kv : Kv} {w : σ}
  {h : Prog.Handler Service Service.Res σ}

theorem adminGet_run (hd : Durable kv) {k : Key} (hk : Listed k) :
    (adminGet env k).run (KvOp.exec t h) (kv, w) = (some (stored env kv k), (kv, w)) := by
  unfold adminGet stored
  split
  · rw [← hd.get hk t]; rfl
  · rfl

theorem getRegisteredShards_run (hd : Durable kv) :
    (getRegisteredShards env).run (KvOp.exec t h) (kv, w) = (some (registeredOf env kv), (kv, w)) := by
  unfold getRegisteredShards
  rw [Prog.bind_eq, Prog.run_bind_some (adminGet_run hd (k := .registeredShards) trivial)]
  rfl

theorem getShardUrls_run (hd : Durable kv) :
    (getShardUrls env).run (KvOp.exec t h) (kv, w) = (some (shardUrlsOf env kv), (kv, w)) := by
  unfold getShardUrls
  rw [Prog.bind_eq, Prog.run_bind_some (adminGet_run hd (k := .shardUrls) trivial), Prog.bind_eq,
    Prog.run_bind_some (getRegisteredShards_run hd)]
  rfl

theorem getPriorShardCounts_run (hd : Durable kv) :
    (getPriorShardCounts env).run (KvOp.exec t h) (kv, w) =
      (some (priorCountsOf env kv), (kv, w)) := by
  unfold getPriorShardCounts
  rw [Prog.bind_eq, Prog.run_bind_some (adminGet_run hd (k := .priorShardCounts) trivial)]
  rfl

end

/-- A request is answered with the shard list at hand. -/
theorem handle_eq {env : Env} {answer : JString → CreateBody → Created} {t : ℕ} {rq : Request}
    {s : State} (hd : Durable s.1) (h : shardUrlsOf env s.1 ≠ []) :
    handle env answer t rq s =
      ((((serve env (Era.current h) rq).run (KvOp.exec t (services env.crypto answer)) s).1.getD
        crashed), ((serve env (Era.current h) rq).run
          (KvOp.exec t (services env.crypto answer)) s).2) := by
  obtain ⟨kv, w⟩ := s
  unfold handle fetch
  rw [Prog.bind_eq, Prog.run_bind_some (getShardUrls_run hd), dif_pos h]

theorem handle_empty {env : Env} {answer : JString → CreateBody → Created} {t : ℕ} {rq : Request}
    {s : State} (hd : Durable s.1) (h : shardUrlsOf env s.1 = []) :
    handle env answer t rq s = (jsonErr (js "Router misconfiguration") 500, s) := by
  obtain ⟨kv, w⟩ := s
  unfold handle fetch
  rw [Prog.bind_eq, Prog.run_bind_some (getShardUrls_run hd), dif_neg (not_not.2 h)]
  rfl

/-! ## Requests that rewrite the list -/

/-- The registration passes its gate. -/
def passes (env : Env) (t : ℕ) (ip : Option JString) (f : RegisterShardFields)
    (shardPubkey : HexStr 64 64) (kv : Kv) : Bool :=
  decide ((kv.get t (.rl (registerBucket ip) (t / (3600 * 1000)))).getD 0 < 6) &&
  (match kv.get t (.powNonce f.nonce) with
    | none => false
    | some challenge => decide (t ≤ challenge.expiresAt) && !powFails env.crypto f challenge) &&
  !(Number.ofInt 60000).lt (clockSkew t f.timestamp.val) &&
  verifyEd25519 env.crypto shardPubkey (registerShardMessage f shardPubkey) f.signature

/-- The URL and the key of a registration that is accepted. -/
def admitted (env : Env) (t : ℕ) (rq : RegisterShardRequest) (kv : Kv) :
    Option (JString × HexStr 64 64) :=
  match registerShardFields rq.body with
  | .error _ => none
  | .ok f =>
    (f.shardPubkey.str?.filter fun pk => env.adminKv && passes env t rq.ip f pk kv &&
      roomFor env (registeredOf env kv) f.shardUrl).map fun pk => (f.shardUrl, pk)

/-- The fields of a rotation that is accepted. -/
def rotated (env : Env) (t : ℕ) (body : Option Json) (kv : Kv) : Option RotateFields :=
  match rotateFields body with
  | .error _ => none
  | .ok f =>
    if env.adminKv && !(Number.ofInt 60000).lt (clockSkew t f.timestamp.val) &&
      (((registeredOf env kv).find? fun s => s.url == f.shardUrl).any fun record =>
        toLowerCase record.pubkey == f.oldPubkey.lower) &&
      verifyEd25519 env.crypto f.oldPubkey (migrationMsg f) f.oldSig &&
      verifyEd25519 env.crypto f.newPubkey (acceptMsg f) f.newSig
    then some f else none

/-- The list that a request writes. -/
def rewrites (env : Env) (t : ℕ) (rq : Request) (kv : Kv) : Option (List Registered) :=
  match rq with
  | .registerShard rq =>
    (admitted env t rq kv).map fun p => upsert (registeredOf env kv) p.1 p.2.lower t
  | .rotateShardKey body => (rotated env t body kv).map fun f => replaceKey (registeredOf env kv) f t
  | _ => none

/-- The URL of the registration that a request makes. -/
def joined (env : Env) (t : ℕ) (rq : Request) (kv : Kv) : Option JString :=
  match rq with
  | .registerShard rq => (admitted env t rq kv).map Prod.fst
  | _ => none

/-- All that a request does to the lists. -/
structure Rewritten (env : Env) (t : ℕ) (rq : Request) (kv kv' : Kv) : Prop where
  static : ∀ k, ¬ Topology k → kv' k = kv k
  registered : kv' .registeredShards = match rewrites env t rq kv with
    | some updated => some ⟨updated, none⟩
    | none => kv .registeredShards

section
variable {env : Env} {t : ℕ} {kv : Kv} {w : World}
  {h : Prog.Handler Service Service.Res World}

theorem adminRateLimit_run (hkv : env.adminKv = true) (bucketKey : JString)
    (limit windowSeconds : ℕ) :
    (adminRateLimit env bucketKey limit windowSeconds).run (KvOp.exec t h) (kv, w) =
      if limit ≤ (kv.get t (.rl bucketKey (t / (windowSeconds * 1000)))).getD 0 then
        (some false, (kv, w))
      else (some true, (kv.put t (.rl bucketKey (t / (windowSeconds * 1000)))
        ((kv.get t (.rl bucketKey (t / (windowSeconds * 1000)))).getD 0 + 1 : ℕ)
        (some (windowSeconds + 5 : ℕ)), w)) := by
  simp only [adminRateLimit, hkv, Bool.not_true, Bool.false_eq_true, if_false, dateNow, kvGet,
    Prog.bind_eq, Prog.perform_bind, KvOp.run_now, KvOp.run_get]
  split <;> rfl

/-- The gate lets a registration through exactly when it passes. -/
theorem registerShardGate_run (hkv : env.adminKv = true) (t : ℕ) (kv : Kv) (w : World)
    (h : Prog.Handler Service Service.Res World) (ip : Option JString) (f : RegisterShardFields) :
    ((registerShardGate env ip f).run (KvOp.exec t h) (kv, w)).1 = some none ↔
      ∃ pk, f.shardPubkey.str? = some pk ∧ passes env t ip f pk kv = true := by
  unfold registerShardGate passes
  rw [Prog.bind_eq, Prog.run_bind, adminRateLimit_run hkv]
  by_cases hrl : 6 ≤ (kv.get t (.rl (registerBucket ip) (t / (3600 * 1000)))).getD 0
  · rw [if_pos hrl]
    simp [hrl]
  rw [if_neg hrl]
  simp only [kvGet, kvDelete, dateNow, Bool.not_true, Bool.false_eq_true, if_false, Prog.bind_eq,
    Prog.perform_bind, KvOp.run_get]
  rw [Store.get_put_other kv t (by simp : Key.powNonce f.nonce ≠ .rl _ _)]
  cases hch : kv.get t (.powNonce f.nonce) with
  | none => simp
  | some challenge =>
    simp only [KvOp.run_now]
    by_cases hexp : challenge.expiresAt < t
    · rw [if_pos hexp]; simp [hexp]
    rw [if_neg hexp]
    cases hpow : powFails env.crypto f challenge with
    | true => simp
    | false =>
      simp only [Bool.false_eq_true, if_false, KvOp.run_delete, KvOp.run_now]
      cases hskew : (Number.ofInt 60000).lt (clockSkew t f.timestamp.val) with
      | true => simp
      | false =>
        cases hpk : f.shardPubkey.str? with
        | none => simp
        | some pk =>
          cases hv : verifyEd25519 env.crypto pk (registerShardMessage f pk) f.signature <;>
            simp [hv, not_le.1 hrl, not_lt.1 hexp]

theorem getRoutingTableVersion_run {σ : Type} (env : Env) (t : ℕ) (kv : Kv) (w : σ)
    (h : Prog.Handler Service Service.Res σ) :
    ∃ v, (getRoutingTableVersion env).run (KvOp.exec t h) (kv, w) = (some v, (kv, w)) := by
  unfold getRoutingTableVersion adminGet
  split
  · simp only [kvGet, Prog.bind_eq, Prog.perform_bind, KvOp.run_get]
    cases kv.get t .routingTableVersion <;> exact ⟨_, rfl⟩
  · exact ⟨_, rfl⟩

theorem putRegistered_run (env : Env) (t : ℕ) (s : State)
    (h : Prog.Handler Service Service.Res World) (updated : List Registered) :
    ∃ v kv', (putRegistered env updated).run (KvOp.exec t h) s = (some v, (kv', s.2)) ∧
      kv' .registeredShards = some ⟨updated, none⟩ := by
  obtain ⟨kv, w⟩ := s
  simp only [putRegistered, kvPut, Prog.bind_eq, Prog.perform_bind, KvOp.run_put]
  obtain ⟨v, hv⟩ := getRoutingTableVersion_run env t
    (kv.put t .registeredShards updated none) w h
  rw [Prog.run_bind_some hv, KvOp.run_put]
  refine ⟨_, _, rfl, ?_⟩
  have hne : Key.registeredShards ≠ .routingTableVersion := by simp
  rw [Store.put_other _ _ hne, Store.put_same]
  rfl

/-- An error is no success. -/
theorem jsonErr_fails {message : JString} {status : ℕ} (hs : 300 ≤ status) {p : Prop}
    (hr : (jsonErr message status).status < 300) : p := absurd hr (Nat.not_lt.2 hs)

theorem registerShard_run (env : Env) (t : ℕ) (w : World)
    (h : Prog.Handler Service Service.Res World) (hd : Durable kv) {f : RegisterShardFields} {pk : HexStr 64 64}
    (hpk : f.shardPubkey.str? = some pk) :
    ∃ r kv', (registerShard env f).run (KvOp.exec t h) (kv, w) = (some r, (kv', w)) ∧
      (r.status < 300 → roomFor env (registeredOf env kv) f.shardUrl = true) ∧
      kv' .registeredShards =
        if roomFor env (registeredOf env kv) f.shardUrl then
          some ⟨upsert (registeredOf env kv) f.shardUrl pk.lower t, none⟩
        else kv .registeredShards := by
  unfold registerShard
  rw [Prog.bind_eq, Prog.run_bind_some (getRegisteredShards_run hd)]
  cases hroom : roomFor env (registeredOf env kv) f.shardUrl with
  | false => exact ⟨_, _, rfl, jsonErr_fails (by decide), rfl⟩
  | true =>
    obtain ⟨v, kv', hput, hreg⟩ := putRegistered_run env t (kv, w) h
      (upsert (registeredOf env kv) f.shardUrl pk.lower t)
    simp only [Bool.not_true, Bool.false_eq_true, if_false, hpk, dateNow, Prog.bind_eq,
      Prog.perform_bind, KvOp.run_now, if_true]
    rw [Prog.run_bind_some hput]
    exact ⟨_, _, rfl, fun _ => trivial, hreg⟩

theorem registerShardFields_answers (body : Option Json) :
    (registerShardFields body).Answers fun r => r.status = 400 := by
  set Q : Response → Prop := fun r => r.status = 400
  have hbad (message : JString) : Q (jsonErr message 400) := rfl
  refine (Check.answers_orAnswer (hbad _) _).bind fun body => ?_
  refine (Check.answers_orAnswer (hbad _) _).bind fun shardUrl => ?_
  refine (testedField_answers (hbad _) _ _).bind fun shardPubkey => ?_
  refine (Check.answers_orAnswer (hbad _) _).bind fun nonce => ?_
  refine (Check.answers_orAnswer (hbad _) _).bind fun solution => ?_
  refine (testedField_answers (hbad _) _ _).bind fun timestamp => ?_
  exact (testedField_answers (hbad _) _ _).bind fun signature => Check.answers_ok _ _

/-- The gate of a registration refuses with an error. -/
theorem registerShardGate_post (env : Env) (ip : Option JString) (f : RegisterShardFields) :
    (registerShardGate env ip f).Post fun o => ∀ r ∈ o, 300 ≤ r.status := by
  have herr {message : JString} {status : ℕ} (h : 300 ≤ status) :
      ∀ r ∈ some (jsonErr message status), 300 ≤ r.status := by
    rintro _ ⟨⟩
    exact h
  refine (Prog.post_true _).bind fun ok _ => ?_
  split
  · exact herr (by decide)
  · intro challenge
    cases challenge with
    | none => exact herr (by decide)
    | some challenge =>
      intro now
      simp only [Prog.ret_bind]
      split
      · exact herr (by decide)
      split
      · exact herr (by decide)
      intro _ now
      simp only [Prog.ret_bind]
      split
      · exact herr (by decide)
      split
      · trivial
      split
      · exact herr (by decide)
      · rintro _ ⟨⟩

/-- A gate changes no list. -/
theorem gate_listed {α : Type} {p : M α} (hp : p.Only (KvOp.Writes Passing)) (s : State) {k : Key}
    (hk : Listed k) : (p.run (KvOp.exec t h) s).2.1 k = s.1 k := by
  refine KvOp.run_outside ?_ hp t h s
  cases k with
  | rl _ _ => exact fun _ => hk
  | powNonce _ => exact fun _ => hk
  | _ => exact id

/-- `/register_shard` writes the list exactly when it admits the request, and
    answers without an error only then. -/
theorem handleRegisterShard_registered (hd : Durable kv) (rq : RegisterShardRequest) :
    ((handleRegisterShard env rq).run (KvOp.exec t h) (kv, w)).2.1 .registeredShards =
        (match admitted env t rq kv with
          | some p => some ⟨upsert (registeredOf env kv) p.1 p.2.lower t, none⟩
          | none => kv .registeredShards) ∧
      ((((handleRegisterShard env rq).run (KvOp.exec t h) (kv, w)).1.getD crashed).status < 300 →
        admitted env t rq kv ≠ none) := by
  unfold handleRegisterShard admitted
  cases hf : registerShardFields rq.body with
  | error e =>
    split
    · exact ⟨rfl, jsonErr_fails (by decide)⟩
    · cases e with
      | answer r =>
        have hr : r.status = 400 := registerShardFields_answers rq.body r hf
        exact ⟨rfl, fun hok => absurd (hr ▸ hok : 400 < 300) (by decide)⟩
      | crash => exact ⟨rfl, jsonErr_fails (by decide)⟩
  | ok f =>
    cases hkv : env.adminKv with
    | false =>
      have hnone : (f.shardPubkey.str?.filter fun _ => false) = none := by
        cases f.shardPubkey.str? <;> rfl
      simp only [Bool.false_and, hnone]
      exact ⟨rfl, jsonErr_fails (by decide)⟩
    | true =>
      have hgate := registerShardGate_run hkv t kv w h rq.ip f
      have hsame := fun k => gate_listed (t := t) (h := h) (k := k)
        (registerShardGate_writes env rq.ip f) (kv, w)
      have hpost := fun o => (registerShardGate_post env rq.ip f).run (h := KvOp.exec t h)
        (s := (kv, w)) (a := o)
      simp only [Bool.not_true, Bool.false_eq_true, if_false, guarded, gated, Prog.bind_eq]
      rw [Prog.run_bind]
      rcases hrun : (registerShardGate env rq.ip f).run (KvOp.exec t h) (kv, w) with ⟨v, kv', w'⟩
      rw [hrun] at hgate hsame hpost
      have hreg : kv' .registeredShards = kv .registeredShards := hsame .registeredShards trivial
      by_cases hp : ∃ pk, f.shardPubkey.str? = some pk ∧ passes env t rq.ip f pk kv = true
      · obtain ⟨pk, hpk, hpass⟩ := hp
        obtain rfl : v = some none := hgate.2 ⟨pk, hpk, hpass⟩
        have hd' : Durable kv' := hd.of_same fun k hk => hsame k hk
        obtain ⟨r, kv'', hact, hok, hnext⟩ := registerShard_run env t w' h hd' hpk
        dsimp only
        rw [hact]
        dsimp only
        rw [hnext, registeredOf_congr hreg, hreg, hpk]
        rw [registeredOf_congr hreg] at hok
        cases hroom : roomFor env (registeredOf env kv) f.shardUrl with
        | true => simp [Option.filter, hpass]
        | false =>
          refine ⟨by simp [Option.filter], fun hr => ?_⟩
          exact absurd (hok hr) (by simp [hroom])
      · have hnone : (f.shardPubkey.str?.filter fun pk => true && passes env t rq.ip f pk kv &&
            roomFor env (registeredOf env kv) f.shardUrl) = none := by
          rw [Option.filter_eq_none_iff]
          intro pk hpk hboth
          exact hp ⟨pk, hpk, by simp at hboth; exact hboth.1⟩
        rw [hnone]
        rcases v with _ | _ | r
        · exact ⟨hreg, jsonErr_fails (by decide)⟩
        · exact absurd (hgate.1 rfl) hp
        · exact ⟨hreg, fun hr => absurd hr (Nat.not_lt.2 (hpost _ rfl r rfl))⟩

/-- `/rotate_shard_key` writes the list exactly when both keys agree. -/
theorem handleRotateShardKey_registered (hd : Durable kv) (body : Option Json) :
    ((handleRotateShardKey env body).run (KvOp.exec t h) (kv, w)).2.1 .registeredShards =
      match rotated env t body kv with
      | some f => some ⟨replaceKey (registeredOf env kv) f t, none⟩
      | none => kv .registeredShards := by
  unfold handleRotateShardKey rotated
  cases hf : rotateFields body with
  | error e =>
    split
    · rfl
    · cases e <;> rfl
  | ok f =>
    cases hkv : env.adminKv with
    | false => rfl
    | true =>
      simp only [Bool.not_true, Bool.false_eq_true, if_false, guarded, rotateShardKey, dateNow,
        Prog.bind_eq, Prog.perform_bind, KvOp.run_now, Bool.true_and]
      cases hskew : (Number.ofInt 60000).lt (clockSkew t f.timestamp.val) with
      | true => rfl
      | false =>
        simp only [Bool.false_eq_true, if_false, Bool.not_false, Bool.true_and]
        rw [Prog.run_bind_some (getRegisteredShards_run hd)]
        cases hfind : (registeredOf env kv).find? fun s => s.url == f.shardUrl with
        | none => rfl
        | some record =>
          by_cases hold : toLowerCase record.pubkey = f.oldPubkey.lower
          · cases hv : verifyEd25519 env.crypto f.oldPubkey (migrationMsg f) f.oldSig with
            | false => simp [hold]
            | true =>
              cases hv' : verifyEd25519 env.crypto f.newPubkey (acceptMsg f) f.newSig with
              | false => simp [hold]
              | true =>
                obtain ⟨v, kv', hput, hreg⟩ := putRegistered_run env t (kv, w) h
                  (replaceKey (registeredOf env kv) f t)
                simp only [hold, ne_eq, not_true_eq_false, if_false, Bool.not_true,
                  Bool.false_eq_true, KvOp.run_now, Option.any_some, beq_self_eq_true, Bool.and_self,
                  if_true]
                rw [Prog.run_bind_some hput]
                exact hreg
          · simp [hold]

end

/-! ## One request -/

/-- **Step lemma.** -/
theorem serve_rewritten {env : Env} {t : ℕ} {h : Prog.Handler Service Service.Res World}
    {urls : List JString} (current : Era urls) (rq : Request) {s : State} (hd : Durable s.1) :
    Rewritten env t rq s.1 ((serve env current rq).run (KvOp.exec t h) s).2.1 where
  static k hk := KvOp.run_outside hk (serve_writes env current rq) t h s
  registered := by
    obtain ⟨kv, w⟩ := s
    cases rq with
    | registerShard rq =>
      refine (handleRegisterShard_registered hd rq).1.trans ?_
      dsimp only [rewrites]
      cases admitted env t rq kv <;> rfl
    | rotateShardKey body =>
      refine (handleRotateShardKey_registered hd body).trans ?_
      dsimp only [rewrites]
      cases rotated env t body kv <;> rfl
    | routingTable => exact KvOp.run_outside (S := Passing) id (handleRoutingTable_writes env) t _ _
    | register rq => exact KvOp.run_outside (S := Passing) id (handleRegister_writes env rq _) t _ _
    | resolve pubkey =>
      exact KvOp.run_outside (S := Passing) id (handleResolve_writes env pubkey _) t _ _
    | serverHello body =>
      exact KvOp.run_outside (S := Passing) id (handleServerHello_writes env body) t _ _
    | powChallenge rq =>
      exact KvOp.run_outside (S := Passing) id (handlePowChallenge_writes env rq) t _ _

/-- Requests keep the lists durable. -/
theorem Rewritten.durable {env : Env} {t : ℕ} {rq : Request} {kv kv' : Kv}
    (h : Rewritten env t rq kv kv') (hd : Durable kv) : Durable kv' := by
  intro k hk e he
  cases k with
  | shardUrls => exact hd _ hk e (by rwa [h.static .shardUrls id] at he)
  | priorShardCounts => exact hd _ hk e (by rwa [h.static .priorShardCounts id] at he)
  | registeredShards =>
    rw [h.registered] at he
    split at he
    · cases he; rfl
    · exact hd _ hk e he
  | routingTableVersion | powNonce _ | rl _ _ => exact hk.elim

section
variable {env : Env} {answer : JString → CreateBody → Created} {t : ℕ} {rq : Request} {s : State}

/-- A request changes nothing, or the lists as `Rewritten` says. -/
theorem handle_cases (env : Env) (answer : JString → CreateBody → Created) (t : ℕ) (rq : Request)
    (hd : Durable s.1) :
    (shardUrlsOf env s.1 = [] ∧ (handle env answer t rq s).2 = s) ∨
      (shardUrlsOf env s.1 ≠ [] ∧ Rewritten env t rq s.1 (handle env answer t rq s).2.1) := by
  by_cases hempty : shardUrlsOf env s.1 = []
  · exact Or.inl ⟨hempty, by rw [handle_empty hd hempty]⟩
  · exact Or.inr ⟨hempty, by rw [handle_eq hd hempty]; exact serve_rewritten _ rq hd⟩

theorem handle_durable (hd : Durable s.1) : Durable (handle env answer t rq s).2.1 := by
  rcases handle_cases env answer t rq hd with ⟨-, h⟩ | ⟨-, h⟩
  · rw [h]; exact hd
  · exact h.durable hd

end

/-! ## The shard list after a request -/

section
variable {env : Env}

theorem upsert_urls (existing : List Registered) (url pubkey : JString) (now : ℕ) :
    (upsert existing url pubkey now).map (·.url) =
      Merge.pushAbsent (existing.map (·.url)) [url] := by
  have hmem : (existing.any fun s => s.url == url) = true ↔ url ∈ existing.map (·.url) := by
    simp only [List.any_eq_true, beq_iff_eq, List.mem_map]
  unfold upsert
  rw [Merge.pushAbsent_singleton]
  by_cases h : url ∈ existing.map (·.url)
  · rw [if_pos (hmem.2 h), if_pos h, List.map_map]
    refine List.map_congr_left fun s _ => ?_
    simp only [Function.comp]
    split
    · next he => exact he.symm
    · rfl
  · rw [if_neg (mt hmem.1 h), if_neg h, List.map_append]
    rfl

theorem replaceKey_urls (existing : List Registered) (f : RotateFields) (now : ℕ) :
    (replaceKey existing f now).map (·.url) = existing.map (·.url) := by
  unfold replaceKey
  rw [List.map_map]
  refine List.map_congr_left fun s _ => ?_
  simp only [Function.comp]
  split
  · next he => exact he.symm
  · rfl

theorem adminKv_of_admitted {t : ℕ} {rq : RegisterShardRequest} {kv : Kv}
    {p : JString × HexStr 64 64} (h : admitted env t rq kv = some p) : env.adminKv = true := by
  unfold admitted at h
  split at h
  · cases h
  · obtain ⟨pk, hpk, -⟩ := Option.map_eq_some_iff.1 h
    have := (Option.filter_eq_some_iff.1 hpk).2
    simp only [Bool.and_eq_true] at this
    exact this.1.1

theorem adminKv_of_rotated {t : ℕ} {body : Option Json} {kv : Kv} {f : RotateFields}
    (h : rotated env t body kv = some f) : env.adminKv = true := by
  unfold rotated at h
  split at h
  · cases h
  · split at h
    · next hall => simp only [Bool.and_eq_true] at hall; exact hall.1.1.1.1
    · cases h

section
variable {t : ℕ} {rq : Request} {kv kv' : Kv}

theorem Rewritten.registeredUrls (h : Rewritten env t rq kv kv') :
    registeredUrls env kv' =
      Merge.pushAbsent (registeredUrls env kv) (joined env t rq kv).toList := by
  have hreg := h.registered
  cases rq with
  | registerShard rq =>
    dsimp only [rewrites, joined] at hreg ⊢
    cases had : admitted env t rq kv with
    | none => rw [had] at hreg; exact registeredUrls_congr hreg
    | some p =>
      rw [had] at hreg
      unfold Router.registeredUrls registeredOf
      rw [stored_of_slot (adminKv_of_admitted had) hreg]
      exact upsert_urls _ _ _ _
  | rotateShardKey body =>
    dsimp only [rewrites, joined] at hreg ⊢
    cases hro : rotated env t body kv with
    | none => rw [hro] at hreg; exact registeredUrls_congr hreg
    | some f =>
      rw [hro] at hreg
      unfold Router.registeredUrls registeredOf
      rw [stored_of_slot (adminKv_of_rotated hro) hreg]
      exact replaceKey_urls _ _ _
  | _ => exact registeredUrls_congr hreg

theorem Rewritten.baseOf (h : Rewritten env t rq kv kv') : baseOf env kv' = baseOf env kv := by
  unfold Router.baseOf
  rw [stored_congr (h.static .shardUrls id)]

theorem Rewritten.priorCountsOf (h : Rewritten env t rq kv kv') :
    priorCountsOf env kv' = priorCountsOf env kv := by
  unfold Router.priorCountsOf
  rw [stored_congr (h.static .priorShardCounts id)]

/-- **A request pushes at most one URL**, at the end of the shard list. -/
theorem Rewritten.shardUrls (h : Rewritten env t rq kv kv') :
    shardUrlsOf env kv' = Merge.pushAbsent (shardUrlsOf env kv) (joined env t rq kv).toList := by
  unfold shardUrlsOf
  rw [h.baseOf, h.registeredUrls]
  cases joined env t rq kv with
  | none => rfl
  | some url =>
    rw [Option.toList_some, Merge.pushAbsent_singleton]
    split
    · next hmem =>
      rw [Merge.pushAbsent_singleton, if_pos (Merge.mem_pushAbsent.2 (Or.inr hmem))]
    · exact Merge.pushAbsent_append _ _ _

end

end

/-! ## A small mesh -/

/-- A Router with one static shard, on a platform that trusts every signature. -/
def meshEnv : Env where
  serverSecret := js "s"
  routerSigningKey := js "k"
  routerSigningPublic := js "p"
  isSet := by decide
  shardUrls := [js "http://a"]
  crypto := Crypto.trusting

/-- A Router whose store is empty. -/
def fresh : State := (fun _ => none, {})

theorem fresh_durable : Durable fresh.1 := fun _ _ _ he => by cases he

/-- Shards that are up. -/
def up (_ : JString) (_ : CreateBody) : Created := { ok := true, status := 200, text := [] }

/-- The registration of `url` that redeems a nonce; its key and its signature
    repeat one digit. -/
def registration (nonce : UInt8) (url : JString) (key : UInt16) : RegisterShardRequest where
  ip := none
  body := some (.obj [(js "shard_url", .str url), (js "shard_pubkey", .str (List.replicate 64 key)),
    (js "nonce", .str (bytesToHex [nonce])), (js "solution", .str (js "s")),
    (js "timestamp", .str (js "0")), (js "signature", .str (List.replicate 128 key))])

/-- A challenge and the registration that redeems it. -/
def joins (nonce : UInt8) (url : JString) (key : UInt16) : List Request :=
  [.powChallenge { ip := none, nonce := [nonce] }, .registerShard (registration nonce url key)]

end Router
