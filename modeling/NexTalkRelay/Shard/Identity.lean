/-
  The identity of a shard while many requests and jobs use it.

  * `Endpoint.prog` is what an endpoint runs, one operation at a time;
  * `Used` is what such a program remembers: the key pair that it has got, and
    the keys that it has shown in its signatures and calls;
  * `Rules` are the operations that it may perform after what it remembers, and
    `prog_follows` says that every endpoint but a rotation keeps to them;
  * `one_identity`: all use the key pair that remains stored, in every run in
    which a new one is stored only where there is none.
-/
import NexTalkRelay.Lib.Interleave
import NexTalkRelay.Shard.Admin
import NexTalkRelay.Shard.Moves

open Effect Js Runs

namespace Shard

/-! ## Programs -/

/-- What an endpoint runs. -/
def Endpoint.prog (env : AdminEnv) : Endpoint → A Answer
  | core rq => do return .core (← fetch env.toEnv rq)
  | health authorization => do return .admin (← handleHealth env authorization)
  | serverHello body fresh => do return .admin (← handleServerHello body fresh)
  | shardInfo authorization fresh => do
    return .admin (← handleAdminShardInfo env authorization fresh)
  | register authorization body fresh => do
    return .admin (← handleAdminRegister env authorization body fresh)
  | rotateKey authorization fresh newIdentity => do
    return .admin (← handleAdminRotateKey env authorization fresh newIdentity)
  | selfRegister fresh => do
    ensureSelfRegistered env fresh
    return .none
  | fanOut job fresh => do
    replicateToSiblings env.toEnv fresh job
    return .none

/-- The endpoint replaces the key pair. -/
def Endpoint.rotates : Endpoint → Bool
  | rotateKey .. => true
  | _ => false

/-! ## Keys that are shown -/

/-- A private key that has signed, or a public key that has been named. -/
inductive Shown where
  | signed (privateKey : JString)
  | named (publicKey : JString)

/-- The key belongs to the pair. -/
def Shown.Of (identity : Identity) : Shown → Prop
  | signed privateKey => privateKey = identity.privateKeyPkcs8Base64
  | named publicKey => publicKey = identity.publicKeyHex

/-- The public key in a field of a document. -/
def namedIn (key : JString) (doc : Json) : List Shown :=
  ((Json.asStr? (doc.field key)).map Shown.named).toList

/-- The key of a signature, or of the origin of a push. -/
def Service.shown : Service → List Shown
  | sign key _ => [.signed key]
  | waitUntil _ => []
  | post _ body => namedIn (js "origin_shard_pubkey") body

/-- The key that is to be registered. -/
def RouterCall.shown (call : RouterCall) : List Shown :=
  match call.body with
  | some body => namedIn (js "shard_pubkey") body
  | none => []

/-- The key of the envelope. -/
def Response.shown (r : Response) : List Shown :=
  match r.envelope with
  | some envelope => [.named envelope.serverPublicKey]
  | none => []

/-- The keys in the body of an administrative response. -/
def AdminResponse.shown (r : AdminResponse) : List Shown :=
  namedIn (js "server_public_key") r.body ++ namedIn (js "shard_pubkey") r.body

/-- The keys in an answer. -/
def Answer.shown : Answer → List Shown
  | core r => r.shown
  | admin r => r.shown
  | none => []

/-! ## What a program remembers -/

/-- The key in the store and the keys that the isolate has shown. -/
structure Used where
  identity : Option Identity := none
  shown : List Shown := []

/-- The key is of the pair that the program has got. -/
def Used.Owns (m : Used) (s : Shown) : Prop := ∃ identity, m.identity = some identity ∧ s.Of identity

section
variable {E : Type} {R : E → Type} (shows : E → List Shown)

/-- What an operation adds to it. -/
def Used.note (m : Used) (o : KvOp Key Val E) (r : KvOp.Res R o) : Used :=
  match o, r with
  | .get .shardIdentity, some identity => { m with identity := some identity }
  | .put .shardIdentity identity _, _ => { m with identity := some identity }
  | .call e, _ => { m with shown := m.shown ++ shows e }
  | _, _ => m

/-- The operations that a program may perform, after what it remembers. -/
def Rules (m : Used) : KvOp Key Val E → Prop
  | .put .shardIdentity _ ttl => ttl = none
  | .delete .shardIdentity => False
  | .call e => ∀ s ∈ shows e, m.Owns s
  | _ => True

/-- The program keeps to the rules, and what it returns shows only its key. -/
abbrev Keeping {α : Type} (p : Prog (KvOp Key Val E) (KvOp.Res R) α) (shown : α → List Shown)
    (m : Used) : Prop :=
  p.Follows (Used.note shows) (Rules shows) (fun m a => ∀ s ∈ shown a, m.Owns s) m

end

/-- Further services change nothing. -/
theorem widen_follows {E E' α : Type} {R : E → Type} {R' : E' → Type} {shows : E → List Shown}
    {shows' : E' → List Shown} {fin : Used → α → Prop} {p : Prog (KvOp Key Val E) (KvOp.Res R) α}
    {m : Used} (hp : p.Follows (Used.note shows) (Rules shows) fin m) :
    (KvOp.widen p : Prog (KvOp Key Val (E ⊕ E')) (KvOp.Res (Sum.elim R R')) α).Follows
      (Used.note (Sum.elim shows shows')) (Rules (Sum.elim shows shows')) fin m := by
  induction p generalizing m with
  | ret a => exact hp
  | throw => trivial
  | op o next ih =>
    cases o with
    | get k =>
      refine ⟨trivial, fun r => ?_⟩
      have hnext := ih r (hp.2 r)
      cases k with
      | shardIdentity => cases r <;> exact hnext
      | _ => exact hnext
    | put k v ttl => cases k <;> exact ⟨hp.1, fun r => ih r (hp.2 r)⟩
    | delete k => cases k <;> exact ⟨hp.1, fun r => ih r (hp.2 r)⟩
    | now => exact ⟨hp.1, fun r => ih r (hp.2 r)⟩
    | call e => exact ⟨hp.1, fun r => ih r (hp.2 r)⟩

/-! ## Programs that use no key -/

/-- The operation neither touches the key pair nor shows a key. -/
def Quiet : KvOp Key Val Service → Prop
  | .put .shardIdentity _ _ | .delete .shardIdentity => False
  | .call (.waitUntil _) => True
  | .call _ => False
  | _ => True

theorem quiet_rules {o : KvOp Key Val Service} (ho : Quiet o) (m : Used) : Rules Service.shown m o := by
  cases o with
  | get k => trivial
  | put k v ttl => cases k <;> first | exact ho.elim | trivial
  | delete k => cases k <;> first | exact ho.elim | trivial
  | now => trivial
  | call e =>
    cases e with
    | waitUntil job => exact fun s hs => absurd hs List.not_mem_nil
    | sign key message => exact ho.elim
    | post url body => exact ho.elim

section
variable {α β : Type} {p : M α} {m : Used}

theorem quiet_follows (hp : p.Only Quiet) (m : Used) :
    p.Follows (Used.note Service.shown) (Rules Service.shown) (fun _ _ => True) m :=
  hp.follows (fun m _ ho _ => quiet_rules ho m) (fun _ _ _ _ _ => trivial) trivial

/-- Programs that keep to the rules may begin without a key. -/
theorem keeping_bind {shown : β → List Shown} {f : α → M β} (hp : p.Only Quiet)
    (hf : ∀ a m, Keeping Service.shown (f a) shown m) (m : Used) :
    Keeping Service.shown (p.bind f) shown m :=
  (quiet_follows hp m).bind fun m a _ => hf a m

/-- Nothing is shown. -/
theorem keeping_ret {shown : α → List Shown} {a : α} (h : shown a = []) :
    Keeping Service.shown (.ret a : M α) shown m := by
  intro s hs
  rw [h] at hs
  exact absurd hs List.not_mem_nil

end

/-! ## Gates -/

theorem kvPut_quiet {k : Key} (hk : k ≠ .shardIdentity) (v : Val k) (ttl : Number) :
    (kvPut k v ttl).Only Quiet := by
  unfold kvPut
  split
  · refine ⟨?_, fun _ => trivial⟩
    cases k <;> first | exact absurd rfl hk | trivial
  · trivial

theorem rateLimit_quiet (bucketKey : JString) (limit : Number) (w : ℕ) :
    (rateLimit bucketKey limit w).Only Quiet := by
  refine ⟨trivial, fun now => ⟨trivial, fun current => ?_⟩⟩
  simp only [Prog.ret_bind]
  split
  · trivial
  · exact (kvPut_quiet (by simp) _ _).bind fun _ => trivial

theorem capOk_quiet (env : Env) (f : CreateFields) : (capOk env f).Only Quiet := by
  unfold capOk
  split
  · refine ⟨trivial, fun now => ?_⟩
    simp only [Prog.ret_bind]
    split
    · trivial
    · split <;> trivial
  · refine ⟨trivial, fun now => ?_⟩
    simp only [Prog.ret_bind]
    split <;> trivial

theorem verifySenderAuth_quiet (env : Env) (auth : Option Json) (skew : Number) (msg : JString) :
    (verifySenderAuth env auth skew msg).Only Quiet := by
  unfold verifySenderAuth
  split
  · trivial
  · refine ⟨trivial, fun now => ?_⟩
    simp only [Prog.ret_bind]
    split
    · trivial
    · refine ⟨trivial, fun seen => ?_⟩
      simp only [Prog.ret_bind]
      split
      · trivial
      · split
        · trivial
        · exact (kvPut_quiet (by simp) _ _).bind fun _ => trivial

/-- The verdict of a gate shows nothing. -/
def verdictShown (v : Verdict) : List Shown :=
  match v with
  | some r => r.shown
  | none => []

/-- A gate. -/
abbrev Gated (gate : M Verdict) : Prop := ∀ m, Keeping Service.shown gate verdictShown m

section
variable (env : Env) (ip : Option JString)

theorem limited_keeps (bucketKey : JString) (limit : Number) (message : JString) {next : M Verdict}
    (hn : Gated next) : Gated (limited bucketKey limit message next) := by
  refine keeping_bind (rateLimit_quiet bucketKey limit 60) fun b m => ?_
  split
  · exact hn m
  · exact keeping_ret rfl

theorem passed_keeps : Gated (.ret none) := fun _ => keeping_ret rfl

theorem createGate_keeps (f : CreateFields) : Gated (createGate env ip f) := by
  refine keeping_bind (capOk_quiet env f) fun ok m => ?_
  split
  · exact keeping_ret rfl
  · exact limited_keeps _ _ _ passed_keeps m

theorem sendGate_keeps (f : SendFields) : Gated (sendGate env ip f) := by
  unfold sendGate
  split
  · exact fun _ => trivial
  · refine keeping_bind (verifySenderAuth_quiet env _ _ _) fun r => ?_
    cases r with
    | some e => exact fun _ => keeping_ret rfl
    | none =>
      refine limited_keeps _ _ _ (limited_keeps _ _ _ (limited_keeps _ _ _ fun _ => keeping_ret ?_))
      unfold verdictShown
      split
      · next h =>
        obtain ⟨e, -, rfl⟩ := Option.map_eq_some_iff.1 h
        rfl
      · rfl

theorem replicateAuth_keeps (f : ReplicateFields) (pk : HexStr 64 64) :
    Gated (replicateAuth env f pk) := by
  refine fun m => ⟨trivial, fun table => ?_⟩
  simp only [Prog.ret_bind]
  split
  · trivial
  · exact keeping_ret rfl
  · split <;> exact keeping_ret rfl

theorem replicateGate_keeps (f : ReplicateFields) : Gated (replicateGate env f) := by
  intro m
  refine ⟨trivial, fun now => ?_⟩
  simp only [Prog.ret_bind]
  split
  · exact keeping_ret rfl
  · split
    · trivial
    · exact limited_keeps _ _ _ (replicateAuth_keeps env f _) _

end

/-! ## Requests -/

section
variable (env : Env)

theorem clearStale_quiet (m : Mailbox) : (clearStale env m).Only Quiet := by
  refine Prog.Only.bind (P := Quiet) ?_ fun stale => ?_
  · unfold isBacklogStale
    split
    · trivial
    · exact ⟨trivial, fun _ => trivial⟩
  · split <;> trivial

theorem pushEntry_quiet (m : Mailbox) (e : Entry) : (pushEntry m e).Only Quiet := by
  unfold pushEntry
  dsimp only
  split
  · trivial
  · exact ⟨trivial, fun _ => trivial⟩

theorem putMailbox_quiet (id : JString) (m : Mailbox) : (putMailbox env id m).Only Quiet :=
  kvPut_quiet (k := .mailbox id) (by simp) m _

theorem fanOut_quiet (id : JString) (e : Entry) (urls : Json) : (fanOut id e urls).Only Quiet := by
  unfold fanOut
  split
  · split
    · exact ⟨trivial, fun _ => trivial⟩
    · trivial
  · trivial

/-- The program has got the key pair that it goes on with. -/
theorem ensureShardIdentity_follows (fresh : Identity) (m : Used) :
    (ensureShardIdentity fresh).Follows (Used.note Service.shown) (Rules Service.shown)
      (fun m identity => m.identity = some identity) m := by
  refine ⟨trivial, fun found => ?_⟩
  cases found with
  | some identity => exact rfl
  | none => exact ⟨rfl, fun _ => rfl⟩

/-- The key that is shown is the one that the program has got. -/
theorem owns_signed {m : Used} {identity : Identity} (hm : m.identity = some identity) :
    ∀ s ∈ [Shown.signed identity.privateKeyPkcs8Base64], m.Owns s := by
  rintro s hs
  obtain rfl := List.mem_singleton.1 hs
  exact ⟨identity, hm, rfl⟩

theorem owns_named {m : Used} {identity : Identity} (hm : m.identity = some identity) :
    ∀ s ∈ [Shown.named identity.publicKeyHex], m.Owns s := by
  rintro s hs
  obtain rfl := List.mem_singleton.1 hs
  exact ⟨identity, hm, rfl⟩

theorem respond_keeps (fresh : Identity) (requestId : Option JString) (body : Payload) (m : Used) :
    Keeping Service.shown (respond env fresh requestId body) Response.shown m := by
  unfold respond
  split
  · refine (ensureShardIdentity_follows fresh m).bind fun m identity hm => ⟨trivial, fun now => ?_⟩
    exact ⟨owns_signed hm, fun signature => owns_named hm⟩
  · exact keeping_ret rfl

theorem createMailbox_keeps (f : CreateFields) (m : Used) :
    Keeping Service.shown (createMailbox env f) Response.shown m := by
  refine ⟨trivial, fun found => ?_⟩
  cases found with
  | some stored => exact keeping_bind (putMailbox_quiet env _ _) (fun _ _ => keeping_ret rfl) _
  | none =>
    refine ⟨trivial, fun now => ?_⟩
    exact keeping_bind (putMailbox_quiet env _ _) (fun _ _ => keeping_ret rfl) _

theorem existsMailbox_keeps (id : HexStr 16 128) (m : Used) :
    Keeping Service.shown (existsMailbox id) Response.shown m := by
  refine ⟨trivial, fun found => ?_⟩
  cases found <;> exact keeping_ret rfl

theorem sendMailbox_keeps (rq : SendRequest) (f : SendFields) (m : Used) :
    Keeping Service.shown (sendMailbox env rq f) Response.shown m := by
  refine ⟨trivial, fun found => ?_⟩
  cases found with
  | none => exact keeping_ret rfl
  | some stored =>
    refine keeping_bind (clearStale_quiet env stored) (fun stored m => ?_) _
    split
    · exact keeping_ret rfl
    · refine ⟨trivial, fun time => keeping_bind (pushEntry_quiet _ _) (fun stored => ?_) _⟩
      refine keeping_bind (putMailbox_quiet env _ _) fun _ => ?_
      exact keeping_bind (fanOut_quiet _ _ _) fun _ => respond_keeps env _ _ _

theorem readMailbox_keeps (rq : ReadRequest) (f : ReadFields) (m : Used) :
    Keeping Service.shown (readMailbox env rq f) Response.shown m := by
  refine ⟨trivial, fun found => ?_⟩
  cases found with
  | none => exact keeping_ret rfl
  | some stored =>
    simp only [Prog.ret_bind]
    split
    · exact keeping_ret rfl
    · refine keeping_bind (clearStale_quiet env stored) (fun stored => ?_) _
      exact keeping_bind (putMailbox_quiet env _ _) fun _ => respond_keeps env _ _ _

theorem replicateMailbox_keeps (f : ReplicateFields) (m : Used) :
    Keeping Service.shown (replicateMailbox env f) Response.shown m := by
  have hinto (stored : Mailbox) (m : Used) :
      Keeping Service.shown (replicateInto env f stored) Response.shown m := by
    unfold replicateInto
    split
    · exact keeping_ret rfl
    · refine keeping_bind (pushEntry_quiet _ _) (fun stored => ?_) _
      exact keeping_bind (putMailbox_quiet env _ _) fun _ _ => keeping_ret rfl
  refine ⟨trivial, fun found => ?_⟩
  cases found with
  | some stored => exact hinto stored _
  | none => exact ⟨trivial, fun now => hinto _ _⟩

theorem guarded_keeps {α : Type} {c : Check Response α} {gate : α → M Verdict}
    {act : α → M Response} (hc : c.Answers fun r => r.shown = []) (hg : ∀ a, Gated (gate a))
    (ha : ∀ a m, Keeping Service.shown (act a) Response.shown m) (m : Used) :
    Keeping Service.shown (guarded c fun a => gated (gate a) (act a)) Response.shown m := by
  unfold guarded
  split
  · next a =>
    refine (hg a m).bind fun m v hv => ?_
    cases v with
    | some r => exact hv
    | none => exact ha a m
  · next r => exact keeping_ret (hc r rfl)
  · trivial

theorem cacheTable_keeps (p : Json × HexStr 128 128 × Number) (m : Used) :
    Keeping Service.shown (cacheTable env p) Response.shown m := by
  unfold cacheTable
  split
  · exact keeping_ret rfl
  · refine ⟨trivial, fun now => ?_⟩
    simp only [Prog.ret_bind]
    split
    · exact keeping_ret rfl
    · exact ⟨trivial, fun _ => keeping_ret rfl⟩

/-- **A request keeps to the rules.** -/
theorem fetch_keeps (rq : Request) (m : Used) :
    Keeping Service.shown (fetch env rq) Response.shown m := by
  have hbad (message : JString) : (err message).shown = [] := rfl
  cases rq with
  | create rq =>
    exact guarded_keeps (createFields_answers hbad rq.body) (createGate_keeps env rq.ip)
      (createMailbox_keeps env) m
  | exists_ rq =>
    exact guarded_keeps (existsFields_answers hbad rq) (fun _ => limited_keeps _ _ _ passed_keeps)
      existsMailbox_keeps m
  | send rq =>
    exact guarded_keeps (sendFields_answers hbad env rq.body) (sendGate_keeps env rq.ip)
      (sendMailbox_keeps env rq) m
  | read rq =>
    exact guarded_keeps (readFields_answers hbad rq) (fun _ => limited_keeps _ _ _ passed_keeps)
      (readMailbox_keeps env rq) m
  | replicate rq =>
    exact guarded_keeps (replicateFields_answers hbad rq.body) (replicateGate_keeps env)
      (replicateMailbox_keeps env) m
  | routingTablePush body =>
    unfold fetch
    dsimp only
    rw [handleRoutingTablePush_eq]
    unfold guarded
    split
    · exact cacheTable_keeps env _ m
    · next r h =>
      have hshown : r.shown = [] := tableFields_answers (Q := fun r => r.shown = []) hbad body r h
      exact keeping_ret hshown
    · trivial
  | routingTableServe =>
    refine ⟨trivial, fun table => ?_⟩
    cases table <;> exact keeping_ret rfl

end

/-! ## Endpoints -/

/-- What a program on the store and the Router shows. -/
abbrev shows : Service ⊕ RouterCall → List Shown := Sum.elim Service.shown RouterCall.shown

section
variable (env : AdminEnv) {m : Used}

/-- The handler of an endpoint, within its program. -/
theorem answered_keeps {α : Type} {p : A α} {shown : α → List Shown} {answer : α → Answer}
    (hp : Keeping shows p shown m) (hanswer : ∀ a, (answer a).shown = shown a) :
    Keeping shows (p.bind fun a => .ret (answer a)) Answer.shown m := by
  refine hp.bind fun m a ha s hs => ?_
  rw [hanswer] at hs
  exact ha s hs

theorem plain_ret {r : AdminResponse} (h : r.shown = []) :
    Keeping shows (.ret r : A AdminResponse) AdminResponse.shown m := by
  intro s hs
  rw [h] at hs
  exact absurd hs List.not_mem_nil

theorem helloFields_answers (body : Option Json) :
    (helloFields body).Answers fun r => r.shown = [] := by
  set Q : AdminResponse → Prop := fun r => r.shown = []
  have hbad (message : JString) : Q (adminErr message) := rfl
  refine (Check.answers_orAnswer (hbad _) _).bind fun body => ?_
  refine (Check.answers_orAnswer (hbad _) _).bind fun nonce => ?_
  exact (Check.answers_orAnswer (hbad _) _).bind fun protocol => Check.answers_ok Q _

theorem handleServerHello_keeps (body : Option Json) (fresh : Identity) :
    Keeping Service.shown (handleServerHello body fresh) AdminResponse.shown m := by
  unfold handleServerHello guarded
  split
  · refine (ensureShardIdentity_follows fresh m).bind fun m identity hm => ⟨trivial, fun now => ?_⟩
    exact ⟨owns_signed hm, fun signature => owns_named hm⟩
  · next r h => exact keeping_ret (helloFields_answers body r h)
  · trivial

theorem handleAdminShardInfo_keeps (authorization : Option JString) (fresh : Identity) :
    Keeping Service.shown (handleAdminShardInfo env authorization fresh) AdminResponse.shown m := by
  unfold handleAdminShardInfo
  split
  · exact keeping_ret rfl
  · exact (ensureShardIdentity_follows fresh m).bind fun m identity hm => owns_named hm

theorem handleHealth_keeps (authorization : Option JString) :
    Keeping Service.shown (handleHealth env authorization) AdminResponse.shown m := by
  unfold handleHealth
  split
  · exact keeping_ret rfl
  · exact ⟨trivial, fun now => keeping_ret rfl⟩

theorem named_registerShardBody (selfUrl key : JString) (nonce : Option Json)
    (solution timestamp signature : JString) :
    namedIn (js "shard_pubkey") (registerShardBody selfUrl key nonce solution timestamp signature) =
      [.named key] := by
  unfold namedIn
  rw [registerShardBody_pubkey]
  rfl

/-- The registration names and signs with the key that the program has got. -/
theorem postRegistration_follows (routerUrl selfUrl : JString) {identity : Identity}
    (nonce : Option Json) (solution : JString) (hm : m.identity = some identity) :
    (postRegistration routerUrl selfUrl identity nonce solution).Follows (Used.note shows)
      (Rules shows) (fun _ _ => True) m := by
  refine ⟨trivial, fun now => ⟨owns_signed hm, fun signature => ⟨fun s hs => ?_, fun _ => trivial⟩⟩⟩
  refine owns_named hm s ?_
  rw [← named_registerShardBody selfUrl identity.publicKeyHex nonce solution (digits now) signature]
  exact hs

theorem markRegistered_follows :
    (liftM markRegistered : A Unit).Follows (Used.note shows) (Rules shows) (fun _ _ => True) m :=
  ⟨trivial, fun _ => ⟨trivial, fun _ => trivial⟩⟩

theorem adminRegisterFields_answers (body : Option Json) :
    (adminRegisterFields env body).Answers fun r => r.shown = [] := by
  set Q : AdminResponse → Prop := fun r => r.shown = []
  have hbad (message : JString) : Q (adminErr message) := rfl
  refine (Check.answers_orAnswer (hbad _) _).bind fun body => ?_
  refine (Check.answers_orAnswer (hbad _) _).bind fun nonce => ?_
  refine (Check.answers_orAnswer (hbad _) _).bind fun solution => ?_
  refine Check.Answers.bind ?_ fun router => ?_
  · unfold targetRouter
    split
    · exact Check.answers_orCrash Q _
    · exact Check.answers_ok Q _
  · refine (Check.answers_require (hbad _) _).bind fun _ => ?_
    exact (Check.answers_orAnswer (hbad _) _).bind fun selfUrl => Check.answers_ok Q _

theorem handleAdminRegister_keeps (authorization : Option JString) (body : Option Json)
    (fresh : Identity) :
    Keeping shows (handleAdminRegister env authorization body fresh) AdminResponse.shown m := by
  unfold handleAdminRegister
  split
  · exact plain_ret rfl
  unfold guarded
  split
  · refine (widen_follows (ensureShardIdentity_follows fresh m)).bind fun m identity hm => ?_
    refine (postRegistration_follows _ _ _ _ hm).bind fun m reply _ => ?_
    split
    · exact plain_ret rfl
    · split
      · exact plain_ret rfl
      · exact markRegistered_follows.bind fun _ _ _ => plain_ret rfl
  · next r h => exact plain_ret (adminRegisterFields_answers env body r h)
  · trivial

theorem ensureSelfRegistered_follows (fresh : Identity) :
    (ensureSelfRegistered env fresh).Follows (Used.note shows) (Rules shows) (fun _ _ => True) m := by
  unfold ensureSelfRegistered
  split
  · have hdue : registrationDue.Only Quiet := by
      refine ⟨trivial, fun last => ?_⟩
      cases last with
      | none => trivial
      | some last => exact ⟨trivial, fun _ => trivial⟩
    refine (widen_follows (quiet_follows hdue m)).bind fun m due _ => ?_
    split
    · refine (widen_follows (ensureShardIdentity_follows fresh m)).bind fun m identity hm => ?_
      split
      · trivial
      · next component =>
        have hask (url : JString) : (fetchRouter url none).Follows (Used.note shows) (Rules shows)
            (fun m _ => m.identity = some identity) m :=
          ⟨fun s hs => absurd hs List.not_mem_nil, fun _ => hm⟩
        refine (hask _).bind fun m reply hm => ?_
        split
        · trivial
        · split
          · trivial
          · split
            · trivial
            · split
              · trivial
              · refine (postRegistration_follows _ _ _ _ hm).bind fun m reply _ => ?_
                split
                · trivial
                · split
                  · trivial
                  · exact markRegistered_follows
    · trivial
  · trivial

theorem forM_follows {α : Type} {P : Used → Prop} (xs : List α) {f : α → M Unit}
    (hf : ∀ x m, P m → (f x).Follows (Used.note Service.shown) (Rules Service.shown)
      (fun m _ => P m) m) (hm : P m) :
    (xs.forM f).Follows (Used.note Service.shown) (Rules Service.shown) (fun _ _ => True) m := by
  induction xs generalizing m with
  | nil => trivial
  | cons x xs ih => exact (hf x m hm).bind fun m _ hm => ih hm

/-- The pushes name and sign with the key that the program has got. -/
theorem replicateToSiblings_follows (env : Env) (fresh : Identity) (job : FanOut) :
    (replicateToSiblings env fresh job).Follows (Used.note Service.shown) (Rules Service.shown)
      (fun _ _ => True) m := by
  unfold replicateToSiblings
  dsimp only
  split
  · trivial
  · refine (ensureShardIdentity_follows fresh m).bind fun m identity hm => ⟨trivial, fun now => ?_⟩
    refine ⟨owns_signed hm, fun signature => ?_⟩
    refine forM_follows (P := fun m => m.identity = some identity) _ (fun url m hm => ?_) hm
    split
    · exact ⟨owns_named hm, fun _ => hm⟩
    · trivial

/-- **Every endpoint but a rotation keeps to the rules.** -/
theorem prog_follows {e : Endpoint} (he : e.rotates = false) (m : Used) :
    Keeping shows (e.prog env) Answer.shown m := by
  cases e with
  | core rq => exact answered_keeps (widen_follows (fetch_keeps env.toEnv rq m)) fun _ => rfl
  | health authorization =>
    exact answered_keeps (widen_follows (handleHealth_keeps env authorization)) fun _ => rfl
  | serverHello body fresh =>
    exact answered_keeps (widen_follows (handleServerHello_keeps body fresh)) fun _ => rfl
  | shardInfo authorization fresh =>
    exact answered_keeps (widen_follows (handleAdminShardInfo_keeps env authorization fresh))
      fun _ => rfl
  | register authorization body fresh =>
    exact answered_keeps (handleAdminRegister_keeps env authorization body fresh) fun _ => rfl
  | rotateKey authorization fresh newIdentity => cases he
  | selfRegister fresh =>
    exact (ensureSelfRegistered_follows env fresh).bind fun _ _ _ s hs =>
      absurd hs List.not_mem_nil
  | fanOut job fresh =>
    exact (widen_follows (replicateToSiblings_follows env.toEnv fresh job)).bind fun _ _ _ s hs =>
      absurd hs List.not_mem_nil

end

/-! ## Concurrent use -/

/-- The instant of a step, and how the Router answers then. -/
structure Moment where
  time : ℕ
  router : RouterCall → Except JString RouterReply

/-- A shard and what it does at the same time. -/
abbrev Workers (ι : Type) :=
  Pool ι (KvOp Key Val (Service ⊕ RouterCall)) (KvOp.Res (Sum.elim Service.Res RouterCall.Res)) Answer
    (Kv × List Service) Used

section
variable {ι : Type} (env : AdminEnv)

/-- How the operations of a request are answered at a moment. -/
def answersAt (at_ : Moment) : Prog.Handler (KvOp Key Val (Service ⊕ RouterCall))
    (KvOp.Res (Sum.elim Service.Res RouterCall.Res)) (Kv × List Service) :=
  KvOp.exec at_.time (allServices env.crypto at_.router)

/-- The endpoints, called on a shard with the store `kv`. -/
def called (kv : Kv) (e : ι → Endpoint) : Workers ι := Pool.start (kv, []) (fun i => (e i).prog env) {}

/-- One operation of one of them. -/
def workStep [DecidableEq ι] (e : ι × Moment) (P : Workers ι) : Workers ι :=
  Pool.step (Used.note shows) (answersAt env) e P

/-- A key pair is stored only where there is none. -/
def StoredFirst (P : Workers ι) (e : ι × Moment) : Prop :=
  ∀ fresh ttl, (P.prog e.1).next = some (.put .shardIdentity fresh ttl) →
    P.shared.1 .shardIdentity = none

/-- All that has been got is the pair that is stored, and all that has been shown
    belongs to it. -/
def OneIdentity (P : Workers ι) : Prop :=
  ∃ identity, ∀ i, (∀ got, (P.memory i).identity = some got →
      got = identity ∧ P.shared.1 .shardIdentity = some ⟨identity, none⟩) ∧
    (∀ s ∈ (P.memory i).shown, s.Of identity) ∧
    ∀ a, (P.prog i).value = some a → ∀ s ∈ a.shown, s.Of identity

/-- Nobody has got a key pair yet, or all have got the stored one. -/
inductive Agreed (s : Kv × List Service) (memory : ι → Used) : Prop
  | unused (bare : s.1 .shardIdentity = none)
      (free : ∀ i, (memory i).identity = none ∧ (memory i).shown = [])
  | used {identity : Identity} (stored : s.1 .shardIdentity = some ⟨identity, none⟩)
      (got : ∀ i got, (memory i).identity = some got → got = identity)
      (shown : ∀ i, ∀ x ∈ (memory i).shown, x.Of identity)

/-- The workers keep to the rules. -/
abbrev Keep (P : Workers ι) : Prop :=
  P.Follow (Used.note shows) (fun _ => Rules shows) fun _ m a => ∀ s ∈ a.shown, m.Owns s

/-- What has been got, shown and returned is of the stored pair. -/
theorem Agreed.one {P : Workers ι} (hkeep : Keep P) (h : Agreed P.shared P.memory) : OneIdentity P := by
  cases h with
  | unused bare free =>
    refine ⟨⟨[], []⟩, fun i => ⟨fun got hgot => ?_, fun s hs => ?_, fun a ha s hs => ?_⟩⟩
    · rw [(free i).1] at hgot
      cases hgot
    · rw [(free i).2] at hs
      cases hs
    · obtain ⟨identity, hidentity, -⟩ := hkeep.value ha s hs
      cases (free i).1.symm.trans hidentity
  | @used identity stored got shown =>
    refine ⟨identity, fun i => ⟨fun other hother => ⟨got i other hother, stored⟩, shown i, ?_⟩⟩
    intro a ha s hs
    obtain ⟨own, hown, hof⟩ := hkeep.value ha s hs
    rwa [got i own hown] at hof

section
variable [DecidableEq ι]

theorem update_all {memory : ι → Used} {i : ι} {m : Used} {P : Used → Prop} (hi : P m)
    (hP : ∀ j, P (memory j)) (j : ι) : P (Function.update memory i m j) := by
  by_cases hij : j = i
  · subst hij
    rw [Function.update_self]
    exact hi
  · rw [Function.update_of_ne hij]
    exact hP j

section
variable {s s' : Kv × List Service} {memory : ι → Used} {i : ι}

/-- The key pair is left alone, and nothing is got or shown. -/
theorem Agreed.same (h : Agreed s memory) (hs : s'.1 .shardIdentity = s.1 .shardIdentity) :
    Agreed s' (Function.update memory i (memory i)) := by
  rw [Function.update_eq_self]
  cases h with
  | unused bare free => exact .unused (hs.trans bare) free
  | used stored got shown => exact .used (hs.trans stored) got shown

/-- The stored key pair is got. -/
theorem Agreed.get (h : Agreed s memory) {t : ℕ} {identity : Identity}
    (hget : s.1.get t .shardIdentity = some identity) :
    Agreed s (Function.update memory i { memory i with identity := some identity }) := by
  cases h with
  | unused bare free => cases hget.symm.trans (Store.get_none bare t)
  | @used stored_identity stored got shown =>
    obtain rfl : identity = stored_identity :=
      Option.some.inj (hget.symm.trans (Store.get_live stored rfl))
    refine .used stored (update_all (P := fun m => ∀ got, m.identity = some got → got = identity)
      (fun other hother => (Option.some.inj hother).symm) got) ?_
    exact update_all (P := fun m => ∀ x ∈ m.shown, x.Of identity) (shown i) shown

/-- The first key pair is stored. -/
theorem Agreed.put (h : Agreed s memory) (hfirst : s.1 .shardIdentity = none) {fresh : Identity}
    (hs : s'.1 .shardIdentity = some ⟨fresh, none⟩) :
    Agreed s' (Function.update memory i { memory i with identity := some fresh }) := by
  cases h with
  | used stored got shown => cases hfirst.symm.trans stored
  | unused bare free =>
    refine .used hs (update_all (P := fun m => ∀ got, m.identity = some got → got = fresh)
      (fun other hother => (Option.some.inj hother).symm) fun j other hother => ?_)
      (update_all (P := fun m => ∀ x ∈ m.shown, x.Of fresh) (fun x hx => ?_) fun j x hx => ?_)
    · rw [(free j).1] at hother
      cases hother
    · rw [(free i).2] at hx
      cases hx
    · rw [(free j).2] at hx
      cases hx

/-- Keys are shown that belong to the pair that has been got. -/
theorem Agreed.show (h : Agreed s memory) {new : List Shown} (hnew : ∀ x ∈ new, (memory i).Owns x)
    (hs : s'.1 = s.1) :
    Agreed s' (Function.update memory i { memory i with shown := (memory i).shown ++ new }) := by
  cases h with
  | unused bare free =>
    obtain rfl : new = [] := by
      refine List.eq_nil_iff_forall_not_mem.2 fun x hx => ?_
      obtain ⟨identity, hidentity, -⟩ := hnew x hx
      cases (free i).1.symm.trans hidentity
    refine .unused (by rw [hs]; exact bare)
      (update_all (P := fun m => m.identity = none ∧ m.shown = []) ⟨(free i).1, ?_⟩ free)
    rw [List.append_nil]
    exact (free i).2
  | @used identity stored got shown =>
    refine .used (by rw [hs]; exact stored)
      (update_all (P := fun m => ∀ got, m.identity = some got → got = identity) (got i) got)
      (update_all (P := fun m => ∀ x ∈ m.shown, x.Of identity) (fun x hx => ?_) shown)
    rcases List.mem_append.1 hx with hx | hx
    · exact shown i x hx
    · obtain ⟨own, hown, hof⟩ := hnew x hx
      rwa [got i own hown] at hof

end

/-- Every service answers. -/
theorem allServices_answer (c : Crypto) (router : RouterCall → Except JString RouterReply)
    (e : Service ⊕ RouterCall) (log : List Service) : (allServices c router e log).1 ≠ none := by
  rcases e with e | call
  · cases e <;> exact Option.some_ne_none _
  · exact Option.some_ne_none _

/-- **Step lemma.** -/
theorem Agreed.step {P : Workers ι} (hkeep : Keep P) (h : Agreed P.shared P.memory) (e : ι × Moment)
    (hfirst : StoredFirst P e) :
    Agreed (workStep env e P).shared (workStep env e P).memory := by
  refine hkeep.inv h (fun o s r hnext hok ho => ?_) fun o s hnext hok ho => ?_
  · have hspared (ho' : o.Spares .shardIdentity) :
        s.1 .shardIdentity = P.shared.1 .shardIdentity := by
      have hs := KvOp.exec_spares ho' e.2.time (allServices env.crypto e.2.router) P.shared
      unfold answersAt at ho
      rwa [ho] at hs
    cases o with
    | get k =>
      obtain ⟨hr, rfl⟩ := Prod.mk.inj ho
      obtain rfl := Option.some.inj hr
      cases k with
      | shardIdentity =>
        cases hget : P.shared.1.get e.2.time .shardIdentity with
        | none => exact h.same rfl
        | some identity => exact h.get hget
      | _ => exact h.same rfl
    | put k v ttl =>
      obtain ⟨-, rfl⟩ := Prod.mk.inj ho
      cases k with
      | shardIdentity =>
        obtain rfl : ttl = none := hok
        exact h.put (hfirst v none hnext) (Store.put_same P.shared.1 e.2.time v none)
      | _ => exact h.same (hspared (by rintro ⟨⟩))
    | delete k =>
      obtain ⟨-, rfl⟩ := Prod.mk.inj ho
      cases k with
      | shardIdentity => exact hok.elim
      | _ => exact h.same (hspared (by rintro ⟨⟩))
    | now =>
      obtain ⟨-, rfl⟩ := Prod.mk.inj ho
      exact h.same rfl
    | call c =>
      obtain ⟨-, rfl⟩ := Prod.mk.inj ho
      exact h.show hok rfl
  · cases o with
    | call c => exact absurd (congrArg Prod.fst ho) (allServices_answer env.crypto e.2.router c _)
    | _ => cases congrArg Prod.fst ho

/-- **One shard, one identity**, in every run of any endpoints but rotations,
    called at the same time on a shard that has no key pair, in which a pair is
    stored only where there is none. -/
theorem one_identity (kv : Kv) (e : ι → Endpoint) (run : List (ι × Moment))
    (hbare : kv .shardIdentity = none) (hplain : ∀ i, (e i).rotates = false)
    (hfirst : Always (workStep env) StoredFirst (called env kv e) run) :
    OneIdentity (after (workStep env) (called env kv e) run) := by
  have hstart : Keep (called env kv e) :=
    Pool.start_follow fun i => prog_follows env (hplain i) {}
  obtain ⟨hkeep, hagreed⟩ := hfirst.inv (I := fun P => Keep P ∧ Agreed P.shared P.memory)
    (fun P e' h hP => ⟨h.1.step, h.2.step env h.1 e' hP⟩)
    ⟨hstart, .unused hbare fun _ => ⟨rfl, rfl⟩⟩
  exact hagreed.one hkeep

end

end

/-! ## Two key pairs -/

/-- Two handshakes at the same time, each with its own draw. -/
def handshakes (second : Bool) : Endpoint :=
  .serverHello (some (.obj [(js "nonce", .str (letters 8))]))
    (if second then ⟨js "bb", js "k2"⟩ else ⟨js "aa", js "k1"⟩)

/-- The first instant. -/
def atStart : Moment := ⟨0, fun _ => .error []⟩

/-- Run to its end, a handshake stores the pair that the other then gets. -/
theorem handshakes_in_turn :
    OneIdentity (after (workStep ⟨trustingEnv {}, none, none⟩)
      (called ⟨trustingEnv {}, none, none⟩ (fun _ => none) handshakes)
      [(false, atStart), (false, atStart), (true, atStart), (true, atStart)]) := by
  refine one_identity _ _ _ _ rfl (fun b => by cases b <;> rfl) ⟨?_, ?_, ?_, ?_, trivial⟩
  · rintro fresh ttl ⟨⟩
  · intro _ _ _
    rfl
  · rintro fresh ttl ⟨⟩
  · rintro fresh ttl ⟨⟩

/-- Both handshakes find no key pair, and each goes on with its own. -/
theorem handshakes_disagree :
    ¬ ∀ (env : AdminEnv) (kv : Kv) (e : Bool → Endpoint) (run : List (Bool × Moment)),
      kv .shardIdentity = none → (∀ i, (e i).rotates = false) →
        OneIdentity (after (workStep env) (called env kv e) run) := by
  intro h
  obtain ⟨identity, hone⟩ := h ⟨trustingEnv {}, none, none⟩ (fun _ => none) handshakes
    [(false, atStart), (true, atStart), (false, atStart), (true, atStart)] rfl
    (fun b => by cases b <;> rfl)
  have hfirst := ((hone false).1 ⟨js "aa", js "k1"⟩ rfl).1
  have hsecond := ((hone true).1 ⟨js "bb", js "k2"⟩ rfl).1
  cases hfirst.trans hsecond.symm

end Shard
