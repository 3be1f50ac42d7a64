/-
  What the parts of a handler may write.

  A gate writes rate-limit counters and, for `/send`, replay entries; the rest
  of a handler writes its own mailbox and, to sign a response, the identity of
  the shard.

  * `Gate` and `Own id` are these sets of keys, and the `…_writes` lemmas say
    that a gate or a mailbox part stays inside them.
-/
import NexTalkRelay.Shard.Handlers

open Effect Js

namespace Shard

/-- The keys that a gate writes. -/
def Gate : Key → Prop
  | .rl _ _ | .replay _ => True
  | _ => False

/-- The keys that a handler of the mailbox `id` writes after its gate. -/
def Own (id : JString) : Key → Prop
  | .mailbox id' => id' = id
  | .shardIdentity => True
  | _ => False

section
variable {S : Key → Prop}

theorem kvPut_writes {k : Key} (hk : S k) (v : Val k) (ttl : Number) :
    (kvPut k v ttl).Only (KvOp.Writes S) := by
  unfold kvPut
  split
  · exact ⟨hk, fun _ => trivial⟩
  · trivial

/-! ## Gates -/

theorem rateLimit_writes (hS : ∀ b w, S (.rl b w)) (bucketKey : JString) (limit : Number) (w : ℕ) :
    (rateLimit bucketKey limit w).Only (KvOp.Writes S) := by
  simp only [rateLimit, dateNow, kvGet, Prog.bind_eq, Prog.perform_bind, KvOp.only_now,
    KvOp.only_get]
  intro now r
  split
  · trivial
  · exact (kvPut_writes (hS _ _) _ _).bind fun _ => trivial

theorem limited_writes (hS : ∀ b w, S (.rl b w)) (bucketKey : JString) (limit : Number)
    (message : JString) {next : M Verdict} (hn : next.Only (KvOp.Writes S)) :
    (limited bucketKey limit message next).Only (KvOp.Writes S) := by
  refine (rateLimit_writes hS bucketKey limit 60).bind fun b => ?_
  split
  · exact hn
  · trivial

theorem capOk_writes (env : Env) (f : CreateFields) : (capOk env f).Only (KvOp.Writes S) := by
  unfold capOk
  split
  · simp only [verifyCapabilityV2, dateNow, Prog.bind_eq, Prog.perform_bind, KvOp.only_now]
    intro now
    split
    · trivial
    · split <;> trivial
  · simp only [verifyCapability, dateNow, Prog.bind_eq, Prog.perform_bind, KvOp.only_now]
    intro now
    split <;> trivial

theorem verifySenderAuth_writes (hS : ∀ d, S (.replay d)) (env : Env) (auth : Option Json)
    (skew : Number) (msg : JString) : (verifySenderAuth env auth skew msg).Only (KvOp.Writes S) := by
  unfold verifySenderAuth
  split
  · trivial
  · simp only [dateNow, kvGet, Prog.bind_eq, Prog.perform_bind, KvOp.only_now]
    intro now
    split
    · trivial
    · rw [KvOp.only_get]
      intro seen
      split
      · trivial
      · split
        · trivial
        · exact (kvPut_writes (hS _) _ _).bind fun _ => trivial

theorem replicateAuth_writes (env : Env) (f : ReplicateFields) (pk : HexStr 64 64) :
    (replicateAuth env f pk).Only (KvOp.Writes S) := by
  simp only [replicateAuth, kvGet, Prog.bind_eq, Prog.perform_bind, KvOp.only_get]
  intro table
  split
  · trivial
  · trivial
  · split <;> trivial

end

section
variable (env : Env) (ip : Option JString)

theorem createGate_writes (f : CreateFields) : (createGate env ip f).Only (KvOp.Writes Gate) := by
  refine (capOk_writes env f).bind fun ok => ?_
  split
  · trivial
  · exact limited_writes (fun _ _ => trivial) _ _ _ trivial

theorem existsGate_writes : (existsGate ip).Only (KvOp.Writes Gate) :=
  limited_writes (fun _ _ => trivial) _ _ _ trivial

theorem readGate_writes : (readGate ip).Only (KvOp.Writes Gate) :=
  limited_writes (fun _ _ => trivial) _ _ _ trivial

theorem sendLimits_writes {S : Key → Prop} (hS : ∀ b w, S (.rl b w)) (f : SendFields) :
    (sendLimits env ip f).Only (KvOp.Writes S) :=
  limited_writes hS _ _ _ (limited_writes hS _ _ _ (limited_writes hS _ _ _ trivial))

theorem sendGate_writes (f : SendFields) : (sendGate env ip f).Only (KvOp.Writes Gate) := by
  unfold sendGate
  split
  · trivial
  · refine (verifySenderAuth_writes (fun _ => trivial) _ _ _ _).bind fun r => ?_
    cases r with
    | some e => trivial
    | none => exact sendLimits_writes env ip (fun _ _ => trivial) f

theorem replicateGate_writes (f : ReplicateFields) :
    (replicateGate env f).Only (KvOp.Writes Gate) := by
  simp only [replicateGate, dateNow, Prog.bind_eq, Prog.perform_bind, KvOp.only_now]
  intro now
  split
  · trivial
  · split
    · trivial
    · exact limited_writes (fun _ _ => trivial) _ _ _ (replicateAuth_writes env f _)

end

/-! ## Mailbox parts -/

section
variable (env : Env) {S : Key → Prop}

theorem clearStale_writes (m : Mailbox) : (clearStale env m).Only (KvOp.Writes S) := by
  unfold clearStale isBacklogStale
  split
  · trivial
  · simp only [dateNow, Prog.bind_eq, Prog.perform_bind, Prog.op_bind, KvOp.only_now]
    intro now
    dsimp only [Prog.pure_eq, Prog.ret_bind]
    split <;> trivial

theorem pushEntry_writes (m : Mailbox) (e : Entry) : (pushEntry m e).Only (KvOp.Writes S) := by
  unfold pushEntry
  dsimp only
  split
  · trivial
  · exact (KvOp.only_now S _).2 fun _ => trivial

theorem putMailbox_writes (id : JString) (m : Mailbox) :
    (putMailbox env id m).Only (KvOp.Writes (Own id)) :=
  kvPut_writes (k := .mailbox id) (S := Own id) (show id = id from rfl) m _

theorem fanOut_writes (id : JString) (e : Entry) (urls : Json) :
    (fanOut id e urls).Only (KvOp.Writes S) := by
  unfold fanOut
  split
  · split
    · exact (KvOp.only_call S _ _).2 fun _ => trivial
    · trivial
  · trivial

theorem ensureShardIdentity_writes (hS : S .shardIdentity) (fresh : Identity) :
    (ensureShardIdentity fresh).Only (KvOp.Writes S) := by
  simp only [ensureShardIdentity, kvGet, Prog.bind_eq, Prog.perform_bind, KvOp.only_get]
  intro r
  split
  · trivial
  · exact (KvOp.only_put S _ _ _ _).2 ⟨hS, trivial⟩

theorem respond_writes (hS : S .shardIdentity) (fresh : Identity) (requestId : Option JString)
    (body : Payload) : (respond env fresh requestId body).Only (KvOp.Writes S) := by
  unfold respond
  split
  · refine (ensureShardIdentity_writes hS fresh).bind fun identity => ?_
    exact (KvOp.only_now S _).2 fun _ => (KvOp.only_call S _ _).2 fun _ => trivial
  · trivial

theorem createMailbox_writes (f : CreateFields) :
    (createMailbox env f).Only (KvOp.Writes (Own f.mailboxId.lower)) := by
  simp only [createMailbox, kvGet, dateNow, Prog.bind_eq, Prog.perform_bind, KvOp.only_get]
  intro r
  split
  · exact (putMailbox_writes env _ _).bind fun _ => trivial
  · exact (KvOp.only_now _ _).2 fun now => (putMailbox_writes env _ _).bind fun _ => trivial

theorem existsMailbox_writes (id : HexStr 16 128) : (existsMailbox id).Only (KvOp.Writes S) := by
  simp only [existsMailbox, kvGet, Prog.bind_eq, Prog.perform_bind, KvOp.only_get]
  intro r
  split <;> trivial

theorem sendMailbox_writes (rq : SendRequest) (f : SendFields) :
    (sendMailbox env rq f).Only (KvOp.Writes (Own f.mailboxId.lower)) := by
  simp only [sendMailbox, kvGet, dateNow, Prog.bind_eq, Prog.perform_bind, KvOp.only_get]
  intro r
  split
  · trivial
  · refine (clearStale_writes env _).bind fun stored => ?_
    split
    · trivial
    · refine (KvOp.only_now _ _).2 fun time => (pushEntry_writes _ _).bind fun stored => ?_
      refine (putMailbox_writes env _ _).bind fun _ => (fanOut_writes _ _ _).bind fun _ => ?_
      exact respond_writes env (S := Own _) trivial _ _ _

theorem readMailbox_writes (rq : ReadRequest) (f : ReadFields) :
    (readMailbox env rq f).Only (KvOp.Writes (Own f.mailboxId.lower)) := by
  simp only [readMailbox, kvGet, Prog.bind_eq, Prog.perform_bind, KvOp.only_get]
  intro r
  split
  · trivial
  · split
    · trivial
    · refine (clearStale_writes env _).bind fun stored => (putMailbox_writes env _ _).bind fun _ => ?_
      exact respond_writes env (S := Own _) trivial _ _ _

theorem replicateInto_writes (f : ReplicateFields) (m : Mailbox) :
    (replicateInto env f m).Only (KvOp.Writes (Own f.mailboxId.lower)) := by
  unfold replicateInto
  split
  · trivial
  · exact (pushEntry_writes _ _).bind fun stored => (putMailbox_writes env _ _).bind fun _ => trivial

theorem replicateMailbox_writes (f : ReplicateFields) :
    (replicateMailbox env f).Only (KvOp.Writes (Own f.mailboxId.lower)) := by
  simp only [replicateMailbox, kvGet, dateNow, Prog.bind_eq, Prog.perform_bind, KvOp.only_get]
  intro r
  split
  · exact replicateInto_writes env f _
  · exact (KvOp.only_now _ _).2 fun now => replicateInto_writes env f _

end

end Shard
