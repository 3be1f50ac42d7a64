/-
  Which replicate pushes a shard accepts.

  * `passed_iff`: a push passes its gate if it is fresh, its origin is below the
    rate limit and known to the cached table, and its signature verifies;
  * `Queued`: it is then queued, unless an entry with its id is there already;
  * `siblingPush` is a push that a shard accepts.
-/
import NexTalkRelay.Shard.Moves

open Effect Js

namespace Shard

/-! ## The gate -/

section
variable {env : Env} {t : ℕ} (kv : Kv) (log : List Service)

/-- The requests of the bucket in this minute. -/
def bucketCount (kv : Kv) (t : ℕ) (bucketKey : JString) : ℕ :=
  (kv.get t (.rl bucketKey (t / (60 * 1000)))).getD 0

/-- **What one call of the rate limiter does**, for any window. -/
theorem rateLimit_window (c : Crypto) (t : ℕ) (bucketKey : JString) (limit : Number)
    (windowSeconds : ℕ) :
    (rateLimit bucketKey limit windowSeconds).run (KvOp.exec t (services c)) (kv, log) =
      if limit.le (.ofInt ((kv.get t (.rl bucketKey (t / (windowSeconds * 1000)))).getD 0 : ℕ)) then
        (some false, (kv, log))
      else (some true, (kv.put t (.rl bucketKey (t / (windowSeconds * 1000)))
        ((kv.get t (.rl bucketKey (t / (windowSeconds * 1000)))).getD 0 + 1 : ℕ)
        (some (windowSeconds + 5)), log)) := by
  have hput (k : Key) (v : Val k) : kvPut k v (.ofInt (windowSeconds + 5)) =
      Prog.perform (KvOp.put k v (some (windowSeconds + 5))) := by
    unfold kvPut
    rw [Number.toInt?_ofInt]
  simp only [rateLimit, dateNow, kvGet, Prog.bind_eq, Prog.perform_bind, KvOp.run_now, KvOp.run_get,
    hput]
  split <;> rfl

theorem rateLimit_run (env : Env) (t : ℕ) (bucketKey : JString) (limit : Number) :
    (rateLimit bucketKey limit 60).run (KvOp.exec t (services env.crypto)) (kv, log) =
      if limit.le (.ofInt (bucketCount kv t bucketKey)) then (some false, (kv, log))
      else (some true, (kv.put t (.rl bucketKey (t / (60 * 1000)))
        (bucketCount kv t bucketKey + 1 : ℕ) (some 65), log)) :=
  rateLimit_window kv log env.crypto t bucketKey limit 60

theorem replicateAuth_run (env : Env) (t : ℕ) (f : ReplicateFields) (pk : HexStr 64 64) :
    ((replicateAuth env f pk).run (KvOp.exec t (services env.crypto)) (kv, log)).1 = some none ↔
      knownShard pk.lower (kv.get t .routingTable) = some true ∧ replicateSigOk env f pk = true := by
  simp only [replicateAuth, kvGet, Prog.bind_eq, Prog.perform_bind, KvOp.run_get]
  cases hknown : knownShard pk.lower (kv.get t .routingTable) with
  | none => simp
  | some known =>
    cases known with
    | false => simp
    | true => cases hsig : replicateSigOk env f pk <;> simp

/-- The bucket of an origin. -/
def originBucket (pk : HexStr 64 64) : JString := js "replicate-origin:" ++ pk.lower

/-- **What the gate of a push verifies.** -/
theorem passed_iff (env : Env) (t : ℕ) (f : ReplicateFields) :
    Passed env t kv f ↔ (Number.ofInt 60000).lt (clockSkew t f.timestamp) = false ∧
      ∃ pk, f.originPubkey.str? = some pk ∧
        env.cfg.maxReplicatesPerOrigin.le (.ofInt (bucketCount kv t (originBucket pk))) = false ∧
        knownShard pk.lower (kv.get t .routingTable) = some true ∧ replicateSigOk env f pk = true := by
  unfold Passed runAt
  simp only [replicateGate, dateNow, Prog.bind_eq, Prog.perform_bind, KvOp.run_now]
  cases hskew : (Number.ofInt 60000).lt (clockSkew t f.timestamp) with
  | true => simp
  | false =>
    cases hpk : f.originPubkey.str? with
    | none => simp
    | some pk =>
      simp only [Bool.false_eq_true, if_false, limited, Prog.bind_eq, true_and, Option.some.injEq,
        exists_eq_left']
      rw [Prog.run_bind, rateLimit_run]
      cases hrl : env.cfg.maxReplicatesPerOrigin.le (.ofInt (bucketCount kv t (originBucket pk))) with
      | true => rw [originBucket] at hrl; simp [hrl]
      | false =>
        rw [originBucket] at hrl
        rw [if_neg (by simp [hrl])]
        dsimp only
        rw [if_pos rfl, replicateAuth_run, Store.get_put_other kv t (by simp)]
        simp

end

section
variable (env : Env) (t : ℕ) (kv : Kv)

/-! ## Pushes -/

/-- The push is queued: it passes its gate, and no entry with its id is there. -/
structure Queued (rq : ReplicateRequest) (f : ReplicateFields) : Prop where
  fields : replicateFields rq.body = .ok f
  passed : Passed env t kv f
  absent : (f.stored (kv.get t (.mailbox f.mailboxId.lower)) t).queues f.entry.id = false
  lifetime : env.cfg.mailboxTtlSeconds.toInt?.isSome = true

variable {env t kv}

/-- A queued push is written. -/
theorem Queued.wrote {rq : ReplicateRequest} {f : ReplicateFields} (h : Queued env t kv rq f) :
    (handle env t (.replicate rq) kv).1 = json (.replicated false) ∧
      Wrote env t kv f.mailboxId.lower
        ((f.stored (kv.get t (.mailbox f.mailboxId.lower)) t).pushed f.entry t)
        (handle env t (.replicate rq) kv).2 := by
  obtain ⟨life, hlife⟩ := Option.isSome_iff_exists.1 h.lifetime
  have hgate : ∃ s₁, (replicateGate env f).run (KvOp.exec t (services env.crypto)) (kv, []) =
      (some none, s₁) := ⟨_, Prod.ext h.passed rfl⟩
  obtain ⟨s₁, hgate⟩ := hgate
  have hsame := gate_same (replicateGate_writes env f) env.crypto t (kv, [])
  rw [hgate] at hsame
  have hget : s₁.1.get t (.mailbox f.mailboxId.lower) = kv.get t (.mailbox f.mailboxId.lower) :=
    Store.get_congr (hsame _) t
  have hrun : (handleReplicate env rq).run (KvOp.exec t (services env.crypto)) (kv, []) =
      (some (json (.replicated false)), (s₁.1.put t (.mailbox f.mailboxId.lower)
        ((f.stored (kv.get t (.mailbox f.mailboxId.lower)) t).pushed f.entry t) (some life),
        s₁.2)) := by
    unfold handleReplicate guarded gated
    rw [h.fields]
    dsimp only
    rw [Prog.bind_eq, Prog.run_bind_some hgate]
    dsimp only
    rw [replicateMailbox_run, hget]
    unfold replicateInto
    rw [if_neg (by simpa [Mailbox.queues] using h.absent)]
    simp only [Prog.bind_eq]
    rw [Prog.run_bind_some (pushEntry_run s₁.1 s₁.2 _ _),
      Prog.run_bind_some (putMailbox_run s₁.1 s₁.2 hlife _ _)]
    rfl
  have hhandle : handle env t (.replicate rq) kv = (json (.replicated false),
      s₁.1.put t (.mailbox f.mailboxId.lower)
        ((f.stored (kv.get t (.mailbox f.mailboxId.lower)) t).pushed f.entry t) (some life)) := by
    simp only [handle, fetch, runAt, hrun, Option.getD_some]
  rw [hhandle]
  exact ⟨rfl, Wrote.congr hsame ⟨life, hlife, fun _ => rfl⟩⟩

end

/-! ## A sibling -/

theorem isHexOf_letters {lo hi n : ℕ} (h : lo ≤ n ∧ n ≤ hi) : isHexOf lo hi (letters n) = true := by
  refine isHexOf_iff.2 ⟨by simpa [letters] using h.1, by simpa [letters] using h.2, fun c hc => ?_⟩
  rw [List.eq_of_mem_replicate hc]
  rfl

/-- A text of `n` letters `a`. -/
def hexLetters {lo hi : ℕ} (n : ℕ) (h : lo ≤ n ∧ n ≤ hi) : HexStr lo hi :=
  ⟨letters n, isHexOf_letters h⟩

/-- A table that names the sibling with the key `aa…a`. -/
def siblingTable : Json :=
  .obj [(js "shard_urls", .arr [.str (js "http://a")]),
    (js "shards", .arr [.obj [(js "pubkey", .str (letters 64))]]),
    (js "expires_at", .num (.ofInt 3600000)), (js "signature", .str (letters 128))]

/-- The mailbox of the sibling's pushes is created. -/
def sampleCreate : CreateRequest where
  ip := none
  body := some (.obj [(js "mailbox_id", .str (letters 16)),
    (js "read_secret_hash", .str (List.replicate 64 48)), (js "cap_exp", .num (.ofInt 9)),
    (js "cap_sig", .str (letters 128))])

/-- An entry with its id and message. -/
def siblingEntry (id message : JString) : Entry where
  json := .obj [(js "id", .str id), (js "message", .str message)]
  id
  message
  hasId := rfl
  hasMessage := rfl

/-- A push of the sibling at the instant `0`. -/
def siblingPush (id message : JString) : ReplicateRequest where
  body := some (.obj [(js "mailbox_id", .str (letters 16)), (js "entry", (siblingEntry id message).json),
    (js "origin_shard_pubkey", .str (letters 64)), (js "timestamp", .str (js "0")),
    (js "signature", .str (letters 128))])

/-- The fields of a push of this entry. -/
def siblingFields (id message : JString) : ReplicateFields where
  mailboxId := ⟨letters 16, by decide⟩
  entry := siblingEntry id message
  replicaShardUrls := none
  originPubkey := ⟨⟨letters 64, by decide⟩, true⟩
  timestamp := ⟨js "0", by decide⟩
  signature := ⟨⟨letters 128, by decide⟩, true⟩
  unsigned := .obj [(js "mailbox_id", .str (letters 16)), (js "entry", (siblingEntry id message).json),
    (js "origin_shard_pubkey", .str (letters 64)), (js "timestamp", .str (js "0"))]

theorem trusting_verifies {pubkey signature : JString} (hp : pubkey.length % 2 = 0)
    (hs : signature.length % 2 = 0) (message : JString) :
    verifyEd25519Message Crypto.trusting pubkey message signature = true := by
  simp [verifyEd25519Message, hexToBytes, hp, hs, Crypto.trusting]

/-- On a shard with the default limits that has cached the table, the first push
    is queued. -/
theorem sibling_queued (id message : JString) :
    Queued (trustingEnv {}) 0
      (handle (trustingEnv {}) 0 (.routingTablePush (some siblingTable)) fun _ => none).2
      (siblingPush id message) (siblingFields id message) where
  fields := rfl
  passed := by
    have hskew : (Number.ofInt 60000).lt (clockSkew 0 ⟨js "0", by decide⟩) = false := by
      decide +kernel
    have hsig : replicateSigOk (trustingEnv {}) (siblingFields id message)
        ⟨letters 64, by decide⟩ = true := by
      have h64 : (letters 64).length % 2 = 0 := by simp [letters]
      have h128 : (letters 128).length % 2 = 0 := by simp [letters]
      exact trusting_verifies h64 h128
        (js "replicate:" ++ (siblingFields id message).unsigned.stringify)
    refine (passed_iff _ _ 0 _).2 ⟨hskew, ⟨letters 64, by decide⟩, rfl, ?_, ?_, hsig⟩
    · decide +kernel
    · decide +kernel
  absent := rfl
  lifetime := rfl

end Shard
