/-
  What the handlers of the Router may write.

  * `Passing` are the keys of counters and nonces, and `Topology` adds the list
    of registered shards and the version of the table; the static list and the
    earlier shard counts belong to the operator;
  * the `…_writes` lemmas say that a handler stays inside these sets.
-/
import NexTalkRelay.Router.Handlers

open Effect Js

namespace Router

/-- The keys of counters and nonces. -/
def Passing : Key → Prop
  | .rl _ _ | .powNonce _ => True
  | _ => False

/-- The keys that requests may write. -/
def Topology : Key → Prop
  | .registeredShards | .routingTableVersion => True
  | k => Passing k

theorem topology_of_passing {k : Key} (h : Passing k) : Topology k := by
  cases k <;> trivial

section
variable {S : Key → Prop} (env : Env)

/-! ## Configuration -/

theorem adminGet_writes (k : Key) : (adminGet env k).Only (KvOp.Writes S) := by
  unfold adminGet
  split
  · exact ⟨trivial, fun _ => trivial⟩
  · trivial

theorem getRegisteredShards_writes : (getRegisteredShards env).Only (KvOp.Writes S) :=
  (adminGet_writes env _).bind fun _ => trivial

theorem getShardUrls_writes : (getShardUrls env).Only (KvOp.Writes S) :=
  (adminGet_writes env _).bind fun _ => (getRegisteredShards_writes env).bind fun _ => trivial

theorem getPriorShardCounts_writes : (getPriorShardCounts env).Only (KvOp.Writes S) :=
  (adminGet_writes env _).bind fun _ => trivial

theorem getRoutingTableVersion_writes : (getRoutingTableVersion env).Only (KvOp.Writes S) := by
  refine (adminGet_writes env _).bind fun raw => ?_
  cases raw with
  | none => trivial
  | some raw => trivial

theorem adminRateLimit_writes (hS : ∀ b w, S (.rl b w)) (bucketKey : JString)
    (limit windowSeconds : ℕ) :
    (adminRateLimit env bucketKey limit windowSeconds).Only (KvOp.Writes S) := by
  unfold adminRateLimit
  split
  · trivial
  · simp only [dateNow, kvGet, kvPutFor, Prog.bind_eq, Prog.perform_bind, KvOp.only_now,
      KvOp.only_get]
    intro now r
    split
    · trivial
    · exact ⟨hS _ _, fun _ => trivial⟩

/-! ## Clients -/

theorem handleRoutingTable_writes : (handleRoutingTable env).Only (KvOp.Writes S) := by
  refine Prog.Only.bind ?_ fun _ => trivial
  refine (getShardUrls_writes env).bind fun _ => (getPriorShardCounts_writes env).bind fun _ =>
    (getRoutingTableVersion_writes env).bind fun _ => (getRegisteredShards_writes env).bind
      fun _ => ?_
  exact ⟨trivial, fun now => ⟨trivial, fun _ => trivial⟩⟩

theorem registerGate_writes (f : RegisterFields) : (registerGate env f).Only (KvOp.Writes S) := by
  refine ⟨trivial, fun now => ?_⟩
  simp only [Prog.ret_bind]
  split
  · trivial
  · split
    · trivial
    · split <;> trivial

theorem createAll_writes (body : CreateBody) (urls : List JString) :
    (createAll body urls).Only (KvOp.Writes S) := by
  induction urls with
  | nil => trivial
  | cons url urls ih => exact ⟨trivial, fun _ => ih.bind fun _ => trivial⟩

theorem buildSignedResponse_writes (requestId : Json) (status : ℕ) (body : Registration) :
    (buildSignedResponse env requestId status body).Only (KvOp.Writes S) := by
  refine ⟨trivial, fun now => ?_⟩
  simp only [Prog.ret_bind]
  split
  · trivial
  · exact ⟨trivial, fun _ => trivial⟩

theorem register_writes (rq : RegisterRequest) (f : RegisterFields) {urls : List JString}
    (current : Era urls) : (register env rq f current).Only (KvOp.Writes S) := by
  unfold register
  split
  · trivial
  · refine Prog.Only.bind ⟨trivial, fun now => ⟨trivial, fun _ => trivial⟩⟩ fun body => ?_
    refine (createAll_writes _ _).bind fun results => ?_
    split
    · split
      · trivial
      · refine (getRoutingTableVersion_writes env).bind fun _ => ?_
        unfold confirm
        split
        · trivial
        · exact buildSignedResponse_writes env _ _ _
    · trivial

theorem handleRegister_writes (rq : RegisterRequest) {urls : List JString} (current : Era urls) :
    (handleRegister env rq current).Only (KvOp.Writes S) :=
  guarded_only fun f _ => gated_only (registerGate_writes env f) (register_writes env rq f current)

theorem probe_writes (pubkey : HexStr 64 64) {urls : List JString} (eras : List (Era urls)) :
    (probe env pubkey eras).Only (KvOp.Writes S) := by
  induction eras with
  | nil => trivial
  | cons n eras ih =>
    unfold probe
    split
    · exact ih
    · refine ⟨trivial, fun found => ?_⟩
      simp only [Prog.ret_bind]
      split
      · trivial
      · exact ih

theorem handleResolve_writes (pubkey : Option JString) {urls : List JString} (current : Era urls) :
    (handleResolve env pubkey current).Only (KvOp.Writes S) := by
  have hres (pk : HexStr 64 64) (n : Era urls) (b : Bool) :
      (resolution env pk n b).Only (KvOp.Writes S) :=
    (getRoutingTableVersion_writes env).bind fun _ => trivial
  unfold handleResolve
  split
  · trivial
  · refine (getPriorShardCounts_writes env).bind fun _ => (probe_writes env _ _).bind fun n => ?_
    cases n with
    | none => exact hres _ _ _
    | some n => exact hres _ _ _

theorem handleServerHello_writes (body : Option Json) :
    (handleServerHello env body).Only (KvOp.Writes S) :=
  guarded_only fun _ _ => ⟨trivial, fun _ => ⟨trivial, fun _ => trivial⟩⟩

/-! ## Shards -/

theorem handlePowChallenge_writes (rq : ChallengeRequest) :
    (handlePowChallenge env rq).Only (KvOp.Writes Passing) := by
  unfold handlePowChallenge
  split
  · trivial
  · refine (adminRateLimit_writes env (fun _ _ => trivial) _ _ _).bind fun ok => ?_
    split
    · trivial
    · exact ⟨trivial, fun _ => ⟨trivial, fun _ => trivial⟩⟩

theorem registerShardGate_writes (ip : Option JString) (f : RegisterShardFields) :
    (registerShardGate env ip f).Only (KvOp.Writes Passing) := by
  refine (adminRateLimit_writes env (fun _ _ => trivial) _ _ _).bind fun ok => ?_
  split
  · trivial
  · refine ⟨trivial, fun challenge => ?_⟩
    cases challenge with
    | none => trivial
    | some challenge =>
      refine ⟨trivial, fun now => ?_⟩
      simp only [Prog.ret_bind]
      split
      · trivial
      · split
        · trivial
        · refine ⟨trivial, fun _ => ⟨trivial, fun now => ?_⟩⟩
          simp only [Prog.ret_bind]
          split
          · trivial
          · split
            · trivial
            · split <;> trivial

theorem putRegistered_writes (updated : List Registered) :
    (putRegistered env updated).Only (KvOp.Writes Topology) :=
  ⟨trivial, fun _ => (getRoutingTableVersion_writes env).bind fun _ => ⟨trivial, fun _ => trivial⟩⟩

theorem registerShard_writes (f : RegisterShardFields) :
    (registerShard env f).Only (KvOp.Writes Topology) := by
  refine (getRegisteredShards_writes env).bind fun existing => ?_
  split
  · trivial
  · split
    · trivial
    · exact ⟨trivial, fun now => (putRegistered_writes env _).bind fun _ => trivial⟩

theorem handleRegisterShard_writes (rq : RegisterShardRequest) :
    (handleRegisterShard env rq).Only (KvOp.Writes Topology) := by
  unfold handleRegisterShard
  split
  · trivial
  · exact guarded_only fun f _ => gated_only
      ((registerShardGate_writes env _ f).mono fun _ ho => ho.mono fun _ => topology_of_passing)
      (registerShard_writes env f)

theorem rotateShardKey_writes (f : RotateFields) :
    (rotateShardKey env f).Only (KvOp.Writes Topology) := by
  refine ⟨trivial, fun now => ?_⟩
  simp only [Prog.ret_bind]
  split
  · trivial
  · refine (getRegisteredShards_writes env).bind fun existing => ?_
    split
    · trivial
    · split
      · trivial
      · split
        · trivial
        · split
          · trivial
          · exact ⟨trivial, fun now => (putRegistered_writes env _).bind fun _ => trivial⟩

theorem handleRotateShardKey_writes (body : Option Json) :
    (handleRotateShardKey env body).Only (KvOp.Writes Topology) := by
  unfold handleRotateShardKey
  split
  · trivial
  · exact guarded_only fun f _ => rotateShardKey_writes env f

end

theorem serve_writes (env : Env) {urls : List JString} (current : Era urls) (rq : Request) :
    (serve env current rq).Only (KvOp.Writes Topology) := by
  cases rq with
  | routingTable => exact handleRoutingTable_writes env
  | register rq => exact handleRegister_writes env rq _
  | resolve pubkey => exact handleResolve_writes env pubkey _
  | serverHello body => exact handleServerHello_writes env body
  | powChallenge rq =>
    exact (handlePowChallenge_writes env rq).mono fun _ ho => ho.mono fun _ => topology_of_passing
  | registerShard rq => exact handleRegisterShard_writes env rq
  | rotateShardKey body => exact handleRotateShardKey_writes env body

end Router
