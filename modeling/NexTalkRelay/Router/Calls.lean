/-
  The services that the handlers of the Router call.

  The `…_calls` lemmas say which texts a handler signs and which shards it
  asks, for a set `C` of services that contains them; the handlers for the
  shards call none.
-/
import NexTalkRelay.Router.Frame

open Effect Js

namespace Router

section
variable {C : Service → Prop} (env : Env)

/-! ## Configuration -/

theorem adminGet_calls (k : Key) : (adminGet env k).Only (KvOp.Calls C) := by
  unfold adminGet
  split
  · exact ⟨trivial, fun _ => trivial⟩
  · trivial

theorem getRegisteredShards_calls : (getRegisteredShards env).Only (KvOp.Calls C) :=
  (adminGet_calls env _).bind fun _ => trivial

theorem getShardUrls_calls : (getShardUrls env).Only (KvOp.Calls C) :=
  (adminGet_calls env _).bind fun _ => (getRegisteredShards_calls env).bind fun _ => trivial

theorem getPriorShardCounts_calls : (getPriorShardCounts env).Only (KvOp.Calls C) :=
  (adminGet_calls env _).bind fun _ => trivial

theorem getRoutingTableVersion_calls : (getRoutingTableVersion env).Only (KvOp.Calls C) := by
  refine (adminGet_calls env _).bind fun raw => ?_
  cases raw <;> trivial

theorem adminRateLimit_calls (bucketKey : JString) (limit windowSeconds : ℕ) :
    (adminRateLimit env bucketKey limit windowSeconds).Only (KvOp.Calls C) := by
  unfold adminRateLimit
  split
  · trivial
  · refine ⟨trivial, fun now => ⟨trivial, fun current => ?_⟩⟩
    simp only [Prog.ret_bind]
    split
    · trivial
    · exact ⟨trivial, fun _ => trivial⟩

/-! ## Clients -/

theorem handleRoutingTable_calls
    (hC : ∀ urls counts version registered now, C (.sign .buildSignedRoutingTable
      env.routerSigningKey (Json.obj (tableBody env urls counts version registered now)).stringify)) :
    (handleRoutingTable env).Only (KvOp.Calls C) := by
  refine Prog.Only.bind ?_ fun _ => trivial
  refine (getShardUrls_calls env).bind fun urls => (getPriorShardCounts_calls env).bind fun counts =>
    (getRoutingTableVersion_calls env).bind fun version => (getRegisteredShards_calls env).bind
      fun registered => ?_
  exact ⟨trivial, fun now => ⟨hC _ _ _ _ _, fun _ => trivial⟩⟩

theorem probe_calls (pubkey : HexStr 64 64) {urls : List JString} (eras : List (Era urls))
    (hC : ∀ url, C (.exists_ url (mailboxIdOf env pubkey))) :
    (probe env pubkey eras).Only (KvOp.Calls C) := by
  induction eras with
  | nil => trivial
  | cons n eras ih =>
    unfold probe
    split
    · exact ih
    · refine ⟨hC _, fun found => ?_⟩
      simp only [Prog.ret_bind]
      split
      · trivial
      · exact ih

theorem handleResolve_calls (pubkey : Option JString) {urls : List JString} (current : Era urls)
    (hC : ∀ url mailboxId, C (.exists_ url mailboxId)) :
    (handleResolve env pubkey current).Only (KvOp.Calls C) := by
  have hres (pk : HexStr 64 64) (n : Era urls) (b : Bool) :
      (resolution env pk n b).Only (KvOp.Calls C) :=
    (getRoutingTableVersion_calls env).bind fun _ => trivial
  unfold handleResolve
  split
  · trivial
  · refine (getPriorShardCounts_calls env).bind fun _ =>
      (probe_calls env _ _ fun _ => hC _ _).bind fun n => ?_
    cases n with
    | none => exact hres _ _ _
    | some n => exact hres _ _ _

theorem handleServerHello_calls (body : Option Json)
    (hC : ∀ protocol nonce (now : ℕ), C (.sign .handleServerHello env.routerSigningKey
      (helloText protocol nonce env.routerSigningPublic (digits now)))) :
    (handleServerHello env body).Only (KvOp.Calls C) :=
  guarded_only fun _ _ => ⟨trivial, fun _ => ⟨hC _ _ _, fun _ => trivial⟩⟩

/-! ## Shards -/

theorem handlePowChallenge_calls (rq : ChallengeRequest) :
    (handlePowChallenge env rq).Only (KvOp.Calls C) := by
  unfold handlePowChallenge
  split
  · trivial
  · refine (adminRateLimit_calls env _ _ _).bind fun ok => ?_
    split
    · trivial
    · exact ⟨trivial, fun _ => ⟨trivial, fun _ => trivial⟩⟩

theorem registerShardGate_calls (ip : Option JString) (f : RegisterShardFields) :
    (registerShardGate env ip f).Only (KvOp.Calls C) := by
  refine (adminRateLimit_calls env _ _ _).bind fun ok => ?_
  split
  · trivial
  · refine ⟨trivial, fun challenge => ?_⟩
    cases challenge with
    | none => trivial
    | some challenge =>
      refine ⟨trivial, fun now => ?_⟩
      simp only [Prog.ret_bind]
      split
      · trivial
      · split
        · trivial
        · refine ⟨trivial, fun _ => ⟨trivial, fun now => ?_⟩⟩
          simp only [Prog.ret_bind]
          split
          · trivial
          · split
            · trivial
            · split <;> trivial

theorem putRegistered_calls (updated : List Registered) :
    (putRegistered env updated).Only (KvOp.Calls C) :=
  ⟨trivial, fun _ => (getRoutingTableVersion_calls env).bind fun _ => ⟨trivial, fun _ => trivial⟩⟩

theorem registerShard_calls (f : RegisterShardFields) :
    (registerShard env f).Only (KvOp.Calls C) := by
  refine (getRegisteredShards_calls env).bind fun existing => ?_
  split
  · trivial
  · split
    · trivial
    · exact ⟨trivial, fun now => (putRegistered_calls env _).bind fun _ => trivial⟩

theorem handleRegisterShard_calls (rq : RegisterShardRequest) :
    (handleRegisterShard env rq).Only (KvOp.Calls C) := by
  unfold handleRegisterShard
  split
  · trivial
  · exact guarded_only fun f _ => gated_only (registerShardGate_calls env _ f)
      (registerShard_calls env f)

theorem handleRotateShardKey_calls (body : Option Json) :
    (handleRotateShardKey env body).Only (KvOp.Calls C) := by
  unfold handleRotateShardKey
  split
  · trivial
  · refine guarded_only fun f _ => ⟨trivial, fun now => ?_⟩
    simp only [Prog.ret_bind]
    split
    · trivial
    · refine (getRegisteredShards_calls env).bind fun existing => ?_
      split
      · trivial
      · split
        · trivial
        · split
          · trivial
          · split
            · trivial
            · exact ⟨trivial, fun now => (putRegistered_calls env _).bind fun _ => trivial⟩

/-! ## Dispatch -/

/-- Every service but the creation of a mailbox. -/
def CreatesNothing : Service → Prop
  | .create .. => False
  | _ => True

theorem serve_creates_nothing {urls : List JString} (current : Era urls) {rq : Request}
    (hrq : ∀ r, rq ≠ .register r) : (serve env current rq).Only (KvOp.Calls CreatesNothing) := by
  cases rq with
  | routingTable => exact handleRoutingTable_calls env fun _ _ _ _ _ => trivial
  | register r => exact absurd rfl (hrq r)
  | resolve pubkey => exact handleResolve_calls env pubkey _ fun _ _ => trivial
  | serverHello body => exact handleServerHello_calls env body fun _ _ _ => trivial
  | powChallenge rq => exact handlePowChallenge_calls env rq
  | registerShard rq => exact handleRegisterShard_calls env rq
  | rotateShardKey body => exact handleRotateShardKey_calls env body

end

end Router
