/-
  The combined worker in the place of a shard.

  Without the secrets of a Router the combined worker serves the endpoints of a
  shard; its handlers are those of the shard word for word, but for `/create`.

  * `localCreate` and `handleCreate` are its `/create`, which counts a request
    before it looks at the capability;
  * `Alike` says that both answer a request with the same status and leave the
    same store; `drop_in_iff`: they do so along a history exactly if every
    `/create` in it comes with a verified capability.
-/
import NexTalkRelay.Lib.Runs
import NexTalkRelay.Shard.Create
import NexTalkRelay.Shard.Inert

open Effect Js Runs Shard

namespace Combined

/-! ## `POST /create` -/

/-- What a capability of the second format carries. -/
structure V2Opts where
  clientPubkey : HexStr 64 64
  capNonce : JString

/-- `v2opts`; `none` where `clientPubkey.toLowerCase()` throws. -/
def v2opts (f : CreateFields) : Option (Option V2Opts) :=
  match f.cap with
  | .v2 clientPubkey capNonce => clientPubkey.str?.map fun clientPubkey =>
    some ⟨⟨clientPubkey.lower, clientPubkey.isHexOf_lower⟩, capNonce⟩
  | .v1 => some none

/-- Write the record; the answer is whether it is new. -/
def localRecord (env : Shard.Env) (f : CreateFields) (v2opts : Option V2Opts) : Shard.M Bool := do
  match ← kvGet (.mailbox f.mailboxId.lower) with
  | some stored =>
    putMailbox env f.mailboxId.lower { stored with
      readSecretHash := f.readSecretHash.lower
      clientPubkey := match v2opts with
        | some o => some o.clientPubkey.lower
        | none => stored.clientPubkey
      replicaShardUrls :=
        if f.replicas.isEmpty then stored.replicaShardUrls else .arr (f.replicas.map .str) }
    return false
  | none =>
    let now ← dateNow
    putMailbox env f.mailboxId.lower
      { readSecretHash := f.readSecretHash.lower
        clientPubkey := v2opts.map fun o => o.clientPubkey.lower
        messages := []
        createdAt := now
        messagesEnqueuedAt := none
        replicaShardUrls := .arr (f.replicas.map .str) }
    return true

/-- The Router's signature on the capability verifies. -/
def localCapOk (env : Shard.Env) (f : CreateFields) (v2opts : Option V2Opts) : Shard.M Bool :=
  match v2opts with
  | some o =>
    verifyCapabilityV2 env f.mailboxId.lower (some o.clientPubkey) (js "mailbox.create") f.capExp
      o.capNonce f.capSig
  | none => verifyCapability env f.mailboxId.lower f.readSecretHash.lower f.capExp f.capSig

/-- `none` is a capability that does not verify. -/
def localCreate (env : Shard.Env) (f : CreateFields) (v2opts : Option V2Opts) :
    Shard.M (Option Bool) := do
  if !(← localCapOk env f v2opts) then return none
  else return some (← localRecord env f v2opts)

/-- The answer of `/create`. -/
def created (env : Shard.Env) (f : CreateFields) : Option Bool → Shard.Response
  | none => Shard.err (js "invalid or expired Router capability") 401
  | some isNew => Shard.json (.created f.mailboxId.lower env.cfg.mailboxTtlSeconds isNew)

/-- `handleCreate` of the combined worker: the counter stands before the capability. -/
def handleCreate (env : Shard.Env) (rq : CreateRequest) : Shard.M Shard.Response :=
  guarded (createFields rq.body) fun f => do
    if ← rateLimit (js "create-ip:" ++ Shard.clientIp rq.ip) env.cfg.maxCreatesPerIp 60 then
      match v2opts f with
      | none => .throw
      | some v2opts => return created env f (← localCreate env f v2opts)
    else return Shard.err (js "Too many create requests, slow down") 429 (some (js "60"))

/-! ## The endpoints of a shard -/

/-- The endpoints of the shard in the combined worker. -/
def fetchShard (env : Shard.Env) : Shard.Request → Shard.M Shard.Response
  | .create rq => handleCreate env rq
  | .exists_ rq => handleExists rq
  | .send rq => handleSend env rq
  | .read rq => handleRead env rq
  | .replicate rq => handleReplicate env rq
  | .routingTablePush body => handleRoutingTablePush env body
  | .routingTableServe => handleRoutingTableServe

/-- The response of `fetch` to an exception in a handler of the shard; unlike a shard's,
    it does not name the exception. -/
def shardCrashed : Shard.Response := Shard.err (js "Internal server error") 500

/-- Answer a request at the instant `t`. -/
def handleShard (env : Shard.Env) (t : ℕ) (rq : Shard.Request) (kv : Kv) : Shard.Response × Kv :=
  let r := runAt env.crypto t (fetchShard env rq) kv
  (r.1.getD shardCrashed, r.2)

/-! ## One request -/

/-- A `/create` that is well formed comes with a verified capability. -/
def CreateVerified (env : Shard.Env) (t : ℕ) : Shard.Request → Prop
  | .create rq => ∀ f, createFields rq.body = .ok f → Verified env t f
  | _ => True

section
variable {env : Shard.Env} {t : ℕ} {kv : Kv} {f : CreateFields}

/-- The options have the client that a shard reads from the capability. -/
theorem client_of_v2opts {o : Option V2Opts} (ho : v2opts f = some o) :
    (o.map fun o => o.clientPubkey.lower) = f.clientPubkey := by
  unfold v2opts at ho
  unfold CreateFields.clientPubkey
  cases hcap : f.cap with
  | v1 =>
    rw [hcap] at ho
    obtain rfl := Option.some.inj ho
    rfl
  | v2 clientPubkey nonce =>
    rw [hcap] at ho
    obtain ⟨pk, hpk, rfl⟩ := Option.map_eq_some_iff.1 ho
    dsimp only
    rw [hpk]
    exact congrArg some pk.toLowerCase_lower

theorem refresh_eq {o : Option V2Opts} (stored : Mailbox) : v2opts f = some o →
    f.refresh stored = { stored with
      readSecretHash := f.readSecretHash.lower
      clientPubkey := match o with
        | some o => some o.clientPubkey.lower
        | none => stored.clientPubkey
      replicaShardUrls :=
        if f.replicas.isEmpty then stored.replicaShardUrls else .arr (f.replicas.map .str) } := by
  intro ho
  unfold CreateFields.refresh
  rw [← client_of_v2opts ho]
  cases o <;> rfl

theorem fresh_eq {o : Option V2Opts} (ho : v2opts f = some o) (now : ℕ) :
    f.fresh now =
      { readSecretHash := f.readSecretHash.lower
        clientPubkey := o.map fun o => o.clientPubkey.lower
        messages := []
        createdAt := now
        messagesEnqueuedAt := none
        replicaShardUrls := .arr (f.replicas.map .str) } := by
  rw [client_of_v2opts ho]
  rfl

/-- The record is written as a shard writes it. -/
theorem localRecord_eq {o : Option V2Opts} (ho : v2opts f = some o) :
    ((localRecord env f o).bind fun isNew => .ret (created env f (some isNew))) =
      createMailbox env f := by
  refine congrArg (Prog.op _) (funext fun found => ?_)
  cases found with
  | none =>
    refine congrArg (Prog.op _) (funext fun now => ?_)
    simp only [fresh_eq ho, Prog.ret_bind]
    exact Prog.bind_assoc _ _ _
  | some stored =>
    simp only [refresh_eq stored ho, Prog.ret_bind]
    exact Prog.bind_assoc _ _ _

/-- The capability is checked as a shard checks it. -/
theorem localCapOk_eq {o : Option V2Opts} (ho : v2opts f = some o) :
    localCapOk env f o = capOk env f := by
  unfold v2opts at ho
  unfold localCapOk capOk
  cases hcap : f.cap with
  | v1 =>
    rw [hcap] at ho
    obtain rfl := Option.some.inj ho
    rfl
  | v2 clientPubkey nonce =>
    rw [hcap] at ho
    obtain ⟨pk, hpk, rfl⟩ := Option.map_eq_some_iff.1 ho
    have hlower : HexStr.lower ⟨pk.lower, pk.isHexOf_lower⟩ = pk.lower := pk.toLowerCase_lower
    unfold verifyCapabilityV2
    simp only [hpk, hlower]

theorem localCreate_eq {o : Option V2Opts} (ho : v2opts f = some o) :
    ((localCreate env f o).bind fun r => .ret (created env f r)) = (capOk env f).bind fun ok =>
      if !ok then .ret (Shard.err (js "invalid or expired Router capability") 401)
      else createMailbox env f := by
  unfold localCreate
  rw [localCapOk_eq ho, Prog.bind_eq, Prog.bind_assoc]
  refine congrArg _ (funext fun ok => ?_)
  cases ok with
  | false => rfl
  | true =>
    rw [← localRecord_eq ho]
    exact Prog.bind_assoc _ _ _

/-- A verified capability has a text. -/
theorem v2opts_of_verified (h : Verified env t f) : ∃ o, v2opts f = some o := by
  obtain ⟨-, message, hmessage, -⟩ := h
  unfold CreateFields.message at hmessage
  unfold v2opts
  cases hcap : f.cap with
  | v1 => exact ⟨none, rfl⟩
  | v2 clientPubkey nonce =>
    rw [hcap] at hmessage
    obtain ⟨pk, hpk, -⟩ := Option.map_eq_some_iff.1 hmessage
    exact ⟨_, Option.map_eq_some_iff.2 ⟨pk, hpk, rfl⟩⟩

/-- The bucket of an address. -/
def createBucket (rq : CreateRequest) : JString := js "create-ip:" ++ Shard.clientIp rq.ip

/-- The store after a request has been counted. -/
def countCreate (t : ℕ) (rq : CreateRequest) (kv : Kv) : Kv :=
  kv.put t (.rl (createBucket rq) (t / (60 * 1000))) (bucketCount kv t (createBucket rq) + 1 : ℕ)
    (some 65)

/-- The count shows. -/
theorem countCreate_ne (t : ℕ) (rq : CreateRequest) (kv : Kv) : countCreate t rq kv ≠ kv := by
  intro h
  have hcount : bucketCount (countCreate t rq kv) t (createBucket rq) =
      bucketCount kv t (createBucket rq) + 1 := by
    unfold countCreate
    rw [bucketCount, Store.get_put_some, if_pos (by omega)]
    rfl
  rw [h] at hcount
  omega

section
variable {rq : CreateRequest}

/-- The combined worker refuses a request for its rate, or counts it and goes on. -/
theorem handleCreate_run (hf : createFields rq.body = .ok f) :
    (handleCreate env rq).run (KvOp.exec t (services env.crypto)) (kv, []) =
      if env.cfg.maxCreatesPerIp.le (.ofInt (bucketCount kv t (createBucket rq))) then
        (some (Shard.err (js "Too many create requests, slow down") 429 (some (js "60"))), (kv, []))
      else (match v2opts f with
        | none => .throw
        | some o => (localCreate env f o).bind fun r => .ret (created env f r) :
          Shard.M Shard.Response).run (KvOp.exec t (services env.crypto)) (countCreate t rq kv, []) := by
  unfold handleCreate guarded createBucket countCreate
  rw [hf]
  dsimp only
  rw [Prog.bind_eq, Prog.run_bind, rateLimit_run]
  by_cases hfull : env.cfg.maxCreatesPerIp.le
      (.ofInt (bucketCount kv t (js "create-ip:" ++ Shard.clientIp rq.ip))) = true
  · rw [if_pos hfull, if_pos hfull]
    rfl
  · rw [if_neg hfull, if_neg hfull]
    rfl

/-- **With a verified capability both do the same.** -/
theorem create_alike (hv : CreateVerified env t (.create rq)) :
    runAt env.crypto t (fetchShard env (.create rq)) kv =
      runAt env.crypto t (Shard.fetch env (.create rq)) kv := by
  have hrun : (handleCreate env rq).run (KvOp.exec t (services env.crypto)) (kv, []) =
      (Shard.handleCreate env rq).run (KvOp.exec t (services env.crypto)) (kv, []) := by
    cases hf : createFields rq.body with
    | error e =>
      unfold handleCreate Shard.handleCreate
      rw [hf]
      cases e <;> rfl
    | ok f =>
      have hverified := hv f hf
      have hcap (kv : Kv) : (capOk env f).run (KvOp.exec t (services env.crypto)) (kv, []) =
          (some true, (kv, [])) := by
        obtain ⟨o, hrun, hiff⟩ := capOk_run env t kv [] f
        rw [hrun, hiff.2 hverified]
      obtain ⟨o, ho⟩ := v2opts_of_verified hverified
      rw [handleCreate_run hf, ho]
      dsimp only
      rw [localCreate_eq ho, Prog.run_bind_some (hcap _)]
      unfold Shard.handleCreate guarded gated createGate
      rw [hf]
      simp only [Prog.bind_eq, Prog.bind_assoc]
      rw [Prog.run_bind_some (hcap kv)]
      simp only [Bool.not_true, Bool.false_eq_true, if_false]
      rw [Prog.run_bind, limited_run]
      unfold createBucket countCreate
      split
      · rfl
      · rfl
  unfold runAt
  dsimp only [fetchShard, Shard.fetch]
  rw [hrun]

/-- A shard refuses a request without a verified capability, and does not count it. -/
theorem shard_refuses (kv : Kv) (hf : createFields rq.body = .ok f) (hv : ¬ Verified env t f) :
    (Shard.handle env t (.create rq) kv).1.status ≠ 429 ∧ (Shard.handle env t (.create rq) kv).2 = kv := by
  obtain ⟨o, hcap, hiff⟩ := capOk_run env t kv [] f
  have hrun : (Shard.handleCreate env rq).run (KvOp.exec t (services env.crypto)) (kv, []) =
      (o.map fun _ => Shard.err (js "invalid or expired Router capability") 401, (kv, [])) := by
    unfold Shard.handleCreate guarded gated createGate
    rw [hf]
    simp only [Prog.bind_eq, Prog.bind_assoc]
    rw [Prog.run_bind, hcap]
    rcases o with _ | _ | _
    · rfl
    · rfl
    · exact absurd (hiff.1 rfl) hv
  unfold Shard.handle runAt
  dsimp only [Shard.fetch]
  rw [hrun]
  refine ⟨?_, rfl⟩
  cases o with
  | none => exact show (500 : ℕ) ≠ 429 by omega
  | some ok => exact show (401 : ℕ) ≠ 429 by omega

/-- The combined worker refuses it for its rate, or has counted it. -/
theorem combined_counts (kv : Kv) (hf : createFields rq.body = .ok f) (hv : ¬ Verified env t f) :
    (handleShard env t (.create rq) kv).1.status = 429 ∨
      (handleShard env t (.create rq) kv).2 = countCreate t rq kv := by
  unfold handleShard runAt
  dsimp only [fetchShard]
  rw [handleCreate_run hf]
  split
  · exact Or.inl rfl
  · refine Or.inr ?_
    cases ho : v2opts f with
    | none => rfl
    | some o =>
      obtain ⟨ok, hcap, hiff⟩ := capOk_run env t (countCreate t rq kv) [] f
      dsimp only
      rw [localCreate_eq ho, Prog.run_bind, hcap]
      rcases ok with _ | _ | _
      · rfl
      · rfl
      · exact absurd (hiff.1 rfl) hv

end

end

/-! ## Histories -/

section
variable (env : Shard.Env)

/-- The stores of a shard and of the combined worker after a request to each. -/
def step (e : ℕ × Shard.Request) (s : Kv × Kv) : Kv × Kv :=
  ((Shard.handle env e.1 e.2 s.1).2, (handleShard env e.1 e.2 s.2).2)

/-- Both answer with the same status, and leave the same store. -/
def Alike (s : Kv × Kv) (e : ℕ × Shard.Request) : Prop :=
  (handleShard env e.1 e.2 s.2).1.status = (Shard.handle env e.1 e.2 s.1).1.status ∧
    (handleShard env e.1 e.2 s.2).2 = (Shard.handle env e.1 e.2 s.1).2

/-- An exception is answered with the same status. -/
theorem alike_of_runs {kv : Kv} {e : ℕ × Shard.Request}
    (h : runAt env.crypto e.1 (fetchShard env e.2) kv =
      runAt env.crypto e.1 (Shard.fetch env e.2) kv) : Alike env (kv, kv) e := by
  unfold Alike handleShard
  dsimp only
  rw [h]
  refine ⟨?_, rfl⟩
  change ((runAt env.crypto e.1 (Shard.fetch env e.2) kv).1.getD shardCrashed).status =
    ((runAt env.crypto e.1 (Shard.fetch env e.2) kv).1.getD Shard.crashed).status
  cases (runAt env.crypto e.1 (Shard.fetch env e.2) kv).1 <;> rfl

/-- A request is answered alike exactly if its capability, if it needs one, is
    verified. -/
theorem alike_iff (kv : Kv) (e : ℕ × Shard.Request) :
    Alike env (kv, kv) e ↔ CreateVerified env e.1 e.2 := by
  obtain ⟨t, rq⟩ := e
  constructor
  · intro halike
    cases rq with
    | create rq =>
      intro f hf
      by_contra hv
      obtain ⟨hstatus, hsame⟩ := halike
      obtain ⟨hrate, hkept⟩ := shard_refuses kv hf hv
      rcases combined_counts kv hf hv with h429 | hcount
      · exact hrate (hstatus.symm.trans h429)
      · exact countCreate_ne t rq kv (hcount.symm.trans (hsame.trans hkept))
    | _ => trivial
  · intro hv
    cases rq with
    | create rq => exact alike_of_runs env (create_alike hv)
    | _ => exact alike_of_runs env rfl

/-- **The combined worker is a drop-in shard** along a history, whatever is in the
    store at its start, exactly if every well-formed `/create` in it comes with a
    verified capability. -/
theorem drop_in_iff (kv : Kv) (run : List (ℕ × Shard.Request)) :
    Always (step env) (Alike env) (kv, kv) run ↔ ∀ e ∈ run, CreateVerified env e.1 e.2 := by
  induction run generalizing kv with
  | nil => exact ⟨fun _ e he => absurd he List.not_mem_nil, fun _ => trivial⟩
  | cons e run ih =>
    rw [List.forall_mem_cons, ← alike_iff env kv e]
    refine and_congr_right fun halike => ?_
    have hstep : step env e (kv, kv) =
        ((Shard.handle env e.1 e.2 kv).2, (Shard.handle env e.1 e.2 kv).2) :=
      Prod.ext rfl halike.2
    rw [hstep]
    exact ih _

end

/-! ## A rate that is used up by others -/

/-- A `/create` of an address, under a capability of the first format. -/
def createOf (capSig : JString) : Shard.Request :=
  .create
    { ip := some (js "10.0.0.1")
      body := some (.obj [(js "mailbox_id", .str (letters 16)),
        (js "read_secret_hash", .str (letters 64)), (js "cap_exp", .num (.ofInt 9)),
        (js "cap_sig", .str capSig)]) }

/-- With one `/create` allowed in a minute, a forged one uses up the rate of its
    address on the combined worker only. -/
theorem forged_create_counts :
    ¬ ∀ (env : Shard.Env) (kv : Kv) (run : List (ℕ × Shard.Request)),
      Always (step env) (Alike env) (kv, kv) run := by
  intro h
  let env : Shard.Env := { onePushEnv with cfg := { maxCreatesPerIp := .ofInt 1 } }
  obtain ⟨-, ⟨hstatus, -⟩, -⟩ := h env (fun _ => none)
    [(0, createOf forgery), (0, createOf (letters 128))]
  revert hstatus
  decide +kernel

end Combined
