/-
  A registration and the shards that it asks.

  * `Net` says what becomes of each `/create` on its way, and `Net.register` runs
    `/register` against the shards as they are;
  * `create_secret` is what one `/create` does to the read secrets of a shard, and
    `register_net` what the Router answers;
  * `Net.Untaken` says that no shard takes the `/create` of a registration, and
    `lockout_iff` that a registration that fails changes no read secret exactly then.
-/
import NexTalkRelay.Router.History
import NexTalkRelay.Combined.Replica

open Effect Js

namespace Agreement

/-! ## The network -/

/-- A shard with its store. -/
structure Node where
  env : Shard.Env
  kv : Shard.Kv

/-- The shards, by their URLs. -/
abbrev Shards := JString → Node

/-- What becomes of a request to a shard: it is lost, or it is handled at an instant,
    and the answer arrives in time or does not. -/
inductive Fate where
  | lost
  | unheard (t : ℕ) (ip : Option JString)
  | heard (t : ℕ) (ip : Option JString)

/-- What becomes of the requests of the Router. -/
structure Net where
  fate : JString → Fate
  /-- `String(e)` of a `fetch` that fails. -/
  fault : JString
  /-- The text of a response. -/
  text : Shard.Response → JString

/-- A shard handles a `/create`. -/
def Node.create (n : Node) (body : Router.CreateBody) (t : ℕ) (ip : Option JString) :
    Shard.Response × Node :=
  let r := Shard.handle n.env t (.create ⟨ip, Json.received body.toJson.stringify⟩) n.kv
  (r.1, { n with kv := r.2 })

/-- A shard handles a `/exists`. -/
def Node.probe (n : Node) (mailboxId : JString) (t : ℕ) (ip : Option JString) :
    Shard.Response × Node :=
  let r := Shard.handle n.env t (.exists_ ⟨ip, some mailboxId⟩) n.kv
  (r.1, { n with kv := r.2 })

namespace Net

variable (N : Net)

/-- What the Router notes of an answer. -/
def created (r : Shard.Response) : Router.Created where
  ok := Combined.respOk r
  status := r.status
  text := if Combined.respOk r then [] else N.text r

/-- What the Router notes of a `fetch` that fails. -/
def failed : Router.Created := ⟨false, 0, N.fault⟩

/-- The Router posts a `/create` to a shard. -/
def post (body : Router.CreateBody) (url : JString) (n : Node) : Router.Created × Node :=
  match N.fate url with
  | .lost => (N.failed, n)
  | .unheard t ip => (N.failed, (n.create body t ip).2)
  | .heard t ip => (N.created (n.create body t ip).1, (n.create body t ip).2)

/-- The shards after one of them was asked. -/
def asked (body : Router.CreateBody) (url : JString) (s : Shards) : Shards :=
  Function.update s url (N.post body url (s url)).2

/-- The Router asks a shard for a mailbox. -/
def probe (mailboxId url : JString) (n : Node) : Bool × Node :=
  match N.fate url with
  | .lost => (false, n)
  | .unheard t ip => (false, (n.probe mailboxId t ip).2)
  | .heard t ip => (Combined.respOk (n.probe mailboxId t ip).1, (n.probe mailboxId t ip).2)

/-- The services of the Router over the network. -/
def services (c : Crypto) : Prog.Handler Router.Service Router.Service.Res Shards
  | .sign _ key message, s => (some (c.signHex key message), s)
  | .create url body, s => (some (N.post body url (s url)).1, N.asked body url s)
  | .exists_ url mailboxId, s =>
    (some (N.probe mailboxId url (s url)).1, Function.update s url (N.probe mailboxId url (s url)).2)

/-- The Router answers a `/register`; an exception is answered too. -/
def register (env : Router.Env) (t : ℕ) (rq : Router.RegisterRequest) (s : Router.Kv × Shards) :
    Router.Response × (Router.Kv × Shards) :=
  let r := (Router.fetch env (.register rq)).run (KvOp.exec t (N.services env.crypto)) s
  (r.1.getD Router.crashed, r.2)

/-- The answers of shards that are asked one after the other, and the shards afterwards. -/
def postAll (body : Router.CreateBody) : List JString → Shards → List Router.Created × Shards
  | [], s => ([], s)
  | url :: urls, s =>
    let rest := postAll body urls (N.asked body url s)
    ((N.post body url (s url)).1 :: rest.1, rest.2)

/-- The shard handles the `/create`, and answers with success. -/
def Takes (body : Router.CreateBody) (url : JString) (n : Node) : Prop :=
  match N.fate url with
  | .lost => False
  | .unheard t ip | .heard t ip => (n.create body t ip).1.status = 200

end Net

/-- The read secret of a mailbox. -/
def secretAt (n : Node) (id : JString) : Option JString :=
  (n.kv (.mailbox id)).map fun slot => slot.val.readSecretHash

/-- No shard takes the body, or only one that has this read secret already. -/
def Net.Untaken (N : Net) (body : Router.CreateBody) : List JString → Shards → Prop
  | [], _ => True
  | url :: urls, s =>
    (N.Takes body url (s url) → secretAt (s url) body.mailboxId = some body.readSecretHash) ∧
      N.Untaken body urls (N.asked body url s)

/-! ## One shard -/

section

variable (env : Router.Env) (t₀ : ℕ) {rq : Router.RegisterRequest} (pubkey : HexStr 64 64)
  (replicas : List JString)

/-- **One `/create`.**  It sets the read secret of its mailbox if it is answered with
    success, and else no read secret changes. -/
theorem create_secret (hnonce : rq.capNonce.length = 16) (n : Node) (t : ℕ) (ip : Option JString)
    (id : JString) :
    let body := Router.createBody env t₀ rq pubkey replicas
    ((n.create body t ip).1.status = 200 → secretAt (n.create body t ip).2 id =
      if id = body.mailboxId then some body.readSecretHash else secretAt n id) ∧
    ((n.create body t ip).1.status ≠ 200 →
      secretAt (n.create body t ip).2 id = secretAt n id) := by
  intro body
  have hne : rq.capNonce ≠ [] := by
    intro h
    rw [h] at hnonce
    cases hnonce
  have hbody : Json.received body.toJson.stringify = some body.toJson :=
    Combined.received_bodyText
  have hmoves := Shard.handle_moves n.env t n.kv
    (.create ⟨ip, Json.received body.toJson.stringify⟩)
  unfold Node.create secretAt
  dsimp only
  generalize Shard.handle n.env t (.create ⟨ip, Json.received body.toJson.stringify⟩) n.kv = p
    at hmoves ⊢
  obtain ⟨r, kv'⟩ := p
  cases hmoves with
  | idle _ hstatus hsame =>
    refine ⟨fun h => ?_, fun _ => ?_⟩
    · exact absurd (hstatus h) (by simp [Shard.Request.inert])
    · rw [hsame id]
  | @create _ f _ _ hf _ hwrote =>
    refine ⟨fun _ => ?_, fun h => absurd rfl h⟩
    have hfields : Shard.createFields (some body.toJson) =
        .ok (Combined.bodyFields env t₀ rq pubkey replicas) :=
      Combined.createFields_createBody hne
    rw [hbody] at hf
    obtain rfl := Except.ok.inj (hf.symm.trans hfields)
    have hid : (Combined.bodyFields env t₀ rq pubkey replicas).mailboxId.lower = body.mailboxId :=
      env.crypto.toLowerCase_hmacHex _ _
    have hsecret : (Combined.bodyFields env t₀ rq pubkey replicas).readSecretHash.lower =
        body.readSecretHash := toLowerCase_bytesToHex _
    rw [hid] at hwrote
    by_cases hown : id = body.mailboxId
    · obtain ⟨expires, hslot⟩ := hwrote.own
      rw [if_pos hown, hown, hslot, ← hsecret]
      unfold Shard.CreateFields.record
      split <;> rfl
    · rw [if_neg hown, hwrote.other hown]

end

/-! ## All shards -/

section

variable {N : Net} {body : Router.CreateBody}

/-- Handling the body sets the read secret of its mailbox, or changes none. -/
def Net.Sets (N : Net) (body : Router.CreateBody) : Prop := ∀ url n id,
  (N.Takes body url n → secretAt (N.post body url n).2 id =
    if id = body.mailboxId then some body.readSecretHash else secretAt n id) ∧
  (¬ N.Takes body url n → secretAt (N.post body url n).2 id = secretAt n id)

theorem createBody_sets (N : Net) (env : Router.Env) (t₀ : ℕ) {rq : Router.RegisterRequest}
    (hnonce : rq.capNonce.length = 16) (pubkey : HexStr 64 64) (replicas : List JString) :
    N.Sets (Router.createBody env t₀ rq pubkey replicas) := by
  intro url n id
  unfold Net.Takes Net.post
  cases N.fate url with
  | lost => exact ⟨False.elim, fun _ => rfl⟩
  | unheard t ip => exact create_secret env t₀ pubkey replicas hnonce n t ip id
  | heard t ip => exact create_secret env t₀ pubkey replicas hnonce n t ip id

theorem asked_same (url : JString) (s : Shards) :
    N.asked body url s url = (N.post body url (s url)).2 := Function.update_self ..

theorem asked_other {url u : JString} (s : Shards) (h : u ≠ url) : N.asked body url s u = s u :=
  Function.update_of_ne h ..

theorem postAll_cons (url : JString) (urls : List JString) (s : Shards) :
    (N.postAll body (url :: urls) s).2 = (N.postAll body urls (N.asked body url s)).2 := rfl

/-- Once a shard has the read secret of the body, it stays. -/
theorem postAll_stays (hsets : N.Sets body) (urls : List JString) {s : Shards} {u : JString}
    (h : secretAt (s u) body.mailboxId = some body.readSecretHash) :
    secretAt ((N.postAll body urls s).2 u) body.mailboxId = some body.readSecretHash := by
  induction urls generalizing s with
  | nil => exact h
  | cons url urls ih =>
    rw [postAll_cons]
    refine ih ?_
    by_cases hu : u = url
    · subst hu
      rw [asked_same]
      obtain ⟨htaken, hkept⟩ := hsets u (s u) body.mailboxId
      by_cases htakes : N.Takes body u (s u)
      · rw [htaken htakes, if_pos rfl]
      · rw [hkept htakes, h]
    · rw [asked_other s hu, h]

/-- A shard that does not take the body, or has its read secret, keeps its read secrets. -/
theorem asked_keeps (hsets : N.Sets body) {url : JString} {s : Shards}
    (h : N.Takes body url (s url) →
      secretAt (s url) body.mailboxId = some body.readSecretHash) (u id : JString) :
    secretAt (N.asked body url s u) id = secretAt (s u) id := by
  by_cases hu : u = url
  · subst hu
    rw [asked_same]
    obtain ⟨htaken, hkept⟩ := hsets u (s u) id
    by_cases htakes : N.Takes body u (s u)
    · rw [htaken htakes]
      split
      · next hid => rw [hid, h htakes]
      · rfl
    · exact hkept htakes
  · rw [asked_other s hu]

/-- **The shards keep their read secrets** exactly if none takes the body. -/
theorem postAll_keeps_iff (hsets : N.Sets body) (urls : List JString) (s : Shards) :
    (∀ u id, secretAt ((N.postAll body urls s).2 u) id = secretAt (s u) id) ↔
      N.Untaken body urls s := by
  induction urls generalizing s with
  | nil => exact iff_of_true (fun _ _ => rfl) trivial
  | cons url urls ih =>
    simp only [postAll_cons]
    constructor
    · intro hkeep
      have hfirst : N.Takes body url (s url) →
          secretAt (s url) body.mailboxId = some body.readSecretHash := by
        intro htakes
        rw [← hkeep url body.mailboxId]
        refine postAll_stays hsets urls ?_
        rw [asked_same, (hsets url (s url) body.mailboxId).1 htakes, if_pos rfl]
      refine ⟨hfirst, (ih _).1 fun u id => ?_⟩
      rw [asked_keeps hsets hfirst, hkeep]
    · rintro ⟨hfirst, hrest⟩ u id
      rw [(ih _).2 hrest u id, asked_keeps hsets hfirst]

end

/-! ## The Router -/

section

variable (N : Net) (env : Router.Env) (t : ℕ) (kv : Router.Kv) (s : Shards)

theorem createAll_net (body : Router.CreateBody) (urls : List JString) :
    (Router.createAll body urls).run (KvOp.exec t (N.services env.crypto)) (kv, s) =
      (some (N.postAll body urls s).1, (kv, (N.postAll body urls s).2)) := by
  induction urls generalizing s with
  | nil => rfl
  | cons url urls ih =>
    change ((Router.createAll body urls).bind _).run _ (kv, N.asked body url s) = _
    rw [Prog.run_bind_some (ih _)]
    rfl

/-- The `request_id` can stand in a signed text. -/
def Signable (requestId : Option Json) : Prop :=
  ∀ id, requestId.filter (fun v => Json.truthy (some v)) = some id → id.toStr.isSome

theorem confirm_net (requestId : Option Json) (r : Router.Registration) :
    ∃ o, (Router.confirm env requestId r).run (KvOp.exec t (N.services env.crypto)) (kv, s) =
        (o, (kv, s)) ∧
      ((o.getD Router.crashed).status = 200 ↔ Signable requestId) := by
  unfold Router.confirm Signable
  cases hid : requestId.filter fun v => Json.truthy (some v) with
  | none => exact ⟨_, rfl, iff_of_true rfl (by simp)⟩
  | some id =>
    simp only [Router.buildSignedResponse, Router.dateNow, Prog.bind_eq, Prog.perform_bind,
      KvOp.run_now]
    cases htext : id.toStr with
    | none => exact ⟨_, rfl, iff_of_false (show (500 : ℕ) ≠ 200 by decide) (by simp [htext])⟩
    | some text => exact ⟨_, rfl, iff_of_true rfl (by simp [htext])⟩

/-- The request passes the gate of `/register`. -/
structure Admitted (rq : Router.RegisterRequest) (f : Router.RegisterFields)
    (pubkey : HexStr 64 64) : Prop extends Router.Registers env rq f pubkey where
  skew : (Number.ofInt 30000).lt (clockSkew t f.timestamp.val) = false

theorem register_net (rq : Router.RegisterRequest) {f : Router.RegisterFields}
    {pubkey : HexStr 64 64} (hpk : f.pubkey.str? = some pubkey) {urls : List JString}
    (current : Router.Era urls) :
    let replicas := Router.replicasOf env pubkey current
    let body := Router.createBody env t rq pubkey replicas
    ∃ o, (Router.register env rq f current).run (KvOp.exec t (N.services env.crypto)) (kv, s) =
        (o, (kv, (N.postAll body replicas s).2)) ∧
      ((o.getD Router.crashed).status = 200 ↔
        (∃ primary ∈ (N.postAll body replicas s).1.head?, primary.ok = true) ∧
          Signable f.requestId) := by
  intro replicas body
  have hmint : (Router.mint env rq pubkey replicas).run (KvOp.exec t (N.services env.crypto))
      (kv, s) = (some body, (kv, s)) := rfl
  unfold Router.register
  rw [hpk]
  dsimp only
  rw [show Router.replicasForEra env.crypto pubkey.1 current
    (Router.replicationFactor env current.1) = replicas from rfl, Prog.bind_eq,
    Prog.run_bind_some hmint, Prog.bind_eq,
    Prog.run_bind_some (createAll_net N env t kv s body replicas)]
  have hbody : body.mailboxId = Router.mailboxIdOf env pubkey := rfl
  generalize replicas = urls
  cases urls with
  | nil =>
    refine ⟨_, rfl, iff_of_false (show (500 : ℕ) ≠ 200 by decide) ?_⟩
    rintro ⟨⟨primary, hprimary, -⟩, -⟩
    cases hprimary
  | cons shardUrl rest =>
    have hanswers : (N.postAll body (shardUrl :: rest) s).1 =
        (N.post body shardUrl (s shardUrl)).1 ::
          (N.postAll body rest (N.asked body shardUrl s)).1 := rfl
    rw [hanswers]
    generalize (N.postAll body (shardUrl :: rest) s).2 = s'
    generalize (N.post body shardUrl (s shardUrl)).1 = primary
    dsimp only [List.head?_cons]
    by_cases hok : primary.ok = true
    · obtain ⟨v, hv⟩ := Router.getRoutingTableVersion_run env t kv s' (N.services env.crypto)
      obtain ⟨o, hrun, hstatus⟩ := confirm_net N env t kv s' f.requestId
        { mailboxId := body.mailboxId, readSecret := bytesToHex rq.readSecret, shardUrl
          replicaShardUrls := shardUrl :: rest, expiresAt := body.capExp, tableVersion := v }
      rw [if_neg (by simp [hok]), Prog.bind_eq, Prog.run_bind_some hv]
      refine ⟨o, hrun, hstatus.trans ⟨fun h => ⟨⟨primary, rfl, hok⟩, h⟩, And.right⟩⟩
    · rw [if_pos (by simpa using hok)]
      refine ⟨_, rfl, iff_of_false (show (502 : ℕ) ≠ 200 by decide) ?_⟩
      rintro ⟨⟨_, ⟨⟩, h⟩, -⟩
      exact hok h

/-- A request that is not admitted is refused and asks no shard. -/
theorem handleRegister_refused (rq : Router.RegisterRequest) {urls : List JString}
    (current : Router.Era urls) (h : ∀ f pubkey, ¬ Admitted env t rq f pubkey) :
    ∃ o, (Router.handleRegister env rq current).run (KvOp.exec t (N.services env.crypto)) (kv, s) =
      (o, (kv, s)) ∧ (o.getD Router.crashed).status ≠ 200 := by
  unfold Router.handleRegister guarded
  cases hf : Router.registerFields rq.body with
  | error e =>
    cases e with
    | answer r =>
      have hr : r.status = 400 := Router.registerFields_answers rq.body r hf
      exact ⟨_, rfl, by rw [Option.getD_some, hr]; decide⟩
    | crash => exact ⟨_, rfl, show (500 : ℕ) ≠ 200 by decide⟩
  | ok f =>
    dsimp only
    unfold gated Router.registerGate
    simp only [Router.dateNow, Prog.bind_eq, Prog.perform_bind, Prog.op_bind, KvOp.run_now]
    cases hskew : (Number.ofInt 30000).lt (clockSkew t f.timestamp.val) with
    | true => exact ⟨_, rfl, show (401 : ℕ) ≠ 200 by decide⟩
    | false =>
      cases hpk : f.pubkey.str? with
      | none => exact ⟨_, rfl, show (500 : ℕ) ≠ 200 by decide⟩
      | some pubkey =>
        cases hv : Router.verifyEd25519 env.crypto pubkey (Router.registerMessage f pubkey)
          f.signature with
        | true => exact absurd ⟨⟨hf, hpk, hv⟩, hskew⟩ (h f pubkey)
        | false =>
          simp only [Bool.false_eq_true, if_false, hv, Bool.not_false, if_true]
          exact ⟨_, rfl, show (401 : ℕ) ≠ 200 by decide⟩

theorem handleRegister_admitted {rq : Router.RegisterRequest} {f : Router.RegisterFields}
    {pubkey : HexStr 64 64} (h : Admitted env t rq f pubkey) {urls : List JString}
    (current : Router.Era urls) :
    (Router.handleRegister env rq current).run (KvOp.exec t (N.services env.crypto)) (kv, s) =
      (Router.register env rq f current).run (KvOp.exec t (N.services env.crypto)) (kv, s) := by
  unfold Router.handleRegister guarded
  rw [h.fields]
  dsimp only
  unfold gated Router.registerGate
  simp only [Router.dateNow, Prog.bind_eq, Prog.perform_bind, Prog.op_bind, KvOp.run_now, h.skew,
    h.text, h.signed]
  rfl

/-- The Router with its shard list at hand. -/
theorem register_eq (rq : Router.RegisterRequest) (hd : Router.Durable kv)
    (h : Router.shardUrlsOf env kv ≠ []) :
    N.register env t rq (kv, s) =
      let r := (Router.handleRegister env rq (Router.Era.current h)).run
        (KvOp.exec t (N.services env.crypto)) (kv, s)
      (r.1.getD Router.crashed, r.2) := by
  unfold Net.register Router.fetch
  rw [Prog.bind_eq, Prog.run_bind_some (Router.getShardUrls_run hd), dif_pos h]
  rfl

theorem register_empty (rq : Router.RegisterRequest) (hd : Router.Durable kv)
    (h : Router.shardUrlsOf env kv = []) :
    N.register env t rq (kv, s) =
      (Router.jsonErr (js "Router misconfiguration") 500, (kv, s)) := by
  unfold Net.register Router.fetch
  rw [Prog.bind_eq, Prog.run_bind_some (Router.getShardUrls_run hd), dif_neg (not_not.2 h)]
  rfl

end

/-! ## Failed registrations -/

section

variable (N : Net) (env : Router.Env) (t : ℕ) (rq : Router.RegisterRequest) (kv : Router.Kv)
  (s : Shards)

/-- The primary takes the body and its answer arrives, or no shard takes it. -/
def Harmless : Prop :=
  ∀ f pubkey (h : Router.shardUrlsOf env kv ≠ []), Admitted env t rq f pubkey →
    let replicas := Router.replicasOf env pubkey (Router.Era.current h)
    let body := Router.createBody env t rq pubkey replicas
    ((∃ url ∈ replicas.head?, (N.post body url (s url)).1.ok = true) ∧ Signable f.requestId) ∨
      N.Untaken body replicas s

/-- A failed registration changes no read secret. -/
def KeepsSecrets : Prop :=
  (N.register env t rq (kv, s)).1.status ≠ 200 → ∀ url id,
    secretAt ((N.register env t rq (kv, s)).2.2 url) id = secretAt (s url) id

theorem head?_postAll (body : Router.CreateBody) (urls : List JString) :
    (∃ primary ∈ (N.postAll body urls s).1.head?, primary.ok = true) ↔
      ∃ url ∈ urls.head?, (N.post body url (s url)).1.ok = true := by
  cases urls with
  | nil => simp [Net.postAll]
  | cons url urls => simp [Net.postAll]

/-- What an admitted registration does. -/
theorem register_admitted {f : Router.RegisterFields} {pubkey : HexStr 64 64}
    (h : Admitted env t rq f pubkey) (hd : Router.Durable kv)
    (hurls : Router.shardUrlsOf env kv ≠ []) :
    let replicas := Router.replicasOf env pubkey (Router.Era.current hurls)
    let body := Router.createBody env t rq pubkey replicas
    (N.register env t rq (kv, s)).2 = (kv, (N.postAll body replicas s).2) ∧
      ((N.register env t rq (kv, s)).1.status = 200 ↔
        (∃ url ∈ replicas.head?, (N.post body url (s url)).1.ok = true) ∧
          Signable f.requestId) := by
  obtain ⟨o, hrun, hstatus⟩ := register_net N env t kv s rq h.text (Router.Era.current hurls)
  rw [register_eq N env t kv s rq hd hurls, handleRegister_admitted N env t kv s h, hrun]
  exact ⟨rfl, by rw [← head?_postAll]; exact hstatus⟩

/-- **Lockout.**  A registration that fails leaves every read secret as it was exactly if
    it is harmless. -/
theorem lockout_iff (hd : Router.Durable kv) (hnonce : rq.capNonce.length = 16) :
    KeepsSecrets N env t rq kv s ↔ Harmless N env t rq kv s := by
  unfold KeepsSecrets Harmless
  by_cases hurls : Router.shardUrlsOf env kv = []
  · rw [register_empty N env t kv s rq hd hurls]
    exact iff_of_true (fun _ _ _ => rfl) fun _ _ h => absurd hurls h
  by_cases hadmitted : ∃ f pubkey, Admitted env t rq f pubkey
  swap
  · have hnone : ∀ f pubkey, ¬ Admitted env t rq f pubkey :=
      fun f pubkey h => hadmitted ⟨f, pubkey, h⟩
    obtain ⟨o, hrun, -⟩ := handleRegister_refused N env t kv s rq (Router.Era.current hurls) hnone
    rw [register_eq N env t kv s rq hd hurls, hrun]
    exact iff_of_true (fun _ _ _ => rfl) fun f pubkey _ h => absurd h (hnone f pubkey)
  obtain ⟨f, pubkey, h⟩ := hadmitted
  obtain ⟨hstate, hstatus⟩ := register_admitted N env t rq kv s h hd hurls
  rw [hstate, ne_eq, hstatus, postAll_keeps_iff (createBody_sets N env t hnonce pubkey _),
    ← or_iff_not_imp_left]
  constructor
  · intro hor f' pubkey' _ h'
    obtain rfl := Except.ok.inj (h.fields.symm.trans h'.fields)
    obtain rfl := Option.some.inj (h.text.symm.trans h'.text)
    exact hor
  · intro hall
    exact hall f pubkey hurls h

end

/-! ## A registration that fails -/

/-- A Router of two shards that places every mailbox on both. -/
def twoShards : Router.Env :=
  { Router.zeroEnv with
    shardUrls := [js "http://a", js "http://b"]
    replicationFactor := .ofInt 2 }

/-- A shard where the mailbox of every key has a read secret. -/
def registered : Node where
  env := Shard.trustingEnv {}
  kv
    | .mailbox _ => some ⟨⟨Shard.letters 64, none, [], 0, none, .arr []⟩, none⟩
    | _ => none

/-- The request to the shard at one URL is lost. -/
def losing (url : JString) : Net where
  fate u := if u = url then .lost else .heard 0 none
  fault := js "timeout"
  text _ := []

/-- The same user, with another secret. -/
def secondRegistration : Router.RegisterRequest :=
  { Router.zeroRegistration with
    readSecret := List.replicate 32 7
    capNonce := List.replicate 16 7 }

theorem zeros_hex : isHexOf 128 128 (List.replicate 128 48) = true := by decide +kernel

theorem zero_digits : isDigits (js "0") = true := by decide

/-- The fields of this registration once they are checked. -/
def zeroFields : Router.RegisterFields where
  pubkey := { val := Router.zeroKey, isString := true }
  timestamp := { val := ⟨js "0", zero_digits⟩, isString := true }
  signature := { val := ⟨List.replicate 128 48, zeros_hex⟩, isString := true }
  requestId := none

theorem second_admitted : Admitted twoShards 0 secondRegistration zeroFields Router.zeroKey where
  fields := rfl
  text := rfl
  signed := rfl
  skew := by decide +kernel

theorem twoShards_durable : Router.Durable fun _ => none := fun _ _ _ h => by cases h

theorem twoShards_urls : Router.shardUrlsOf twoShards (fun _ => none) ≠ [] := by decide +kernel

theorem twoShards_replicas : Router.replicasOf twoShards Router.zeroKey
    (Router.Era.current twoShards_urls) = [js "http://b", js "http://a"] := by decide +kernel

/-- What a shard gets. -/
theorem create_received (env : Router.Env) (t₀ : ℕ) (rq : Router.RegisterRequest)
    (pubkey : HexStr 64 64) (replicas : List JString) (n : Node) (t : ℕ) (ip : Option JString) :
    let body := Router.createBody env t₀ rq pubkey replicas
    n.create body t ip =
      ((Shard.handle n.env t (.create ⟨ip, some body.toJson⟩) n.kv).1,
        { n with kv := (Shard.handle n.env t (.create ⟨ip, some body.toJson⟩) n.kv).2 }) := by
  intro body
  have hbody : Json.received body.toJson.stringify = some body.toJson :=
    Combined.received_bodyText
  unfold Node.create
  rw [hbody]

/-- Without its first shard the registration fails. -/
theorem lost_primary_fails (s : Shards) :
    ((losing (js "http://b")).register twoShards 0 secondRegistration
      ((fun _ => none), s)).1.status ≠ 200 := by
  obtain ⟨-, hstatus⟩ := register_admitted (losing (js "http://b")) twoShards 0
    secondRegistration (fun _ => none) s second_admitted twoShards_durable twoShards_urls
  rw [ne_eq, hstatus, twoShards_replicas]
  rintro ⟨⟨_, ⟨⟩, hok⟩, -⟩
  exact absurd hok (by simp [Net.post, losing, Net.failed])

/-- **Locked out.**  The request to the first shard is lost, the second shard takes the
    body, and the registration fails. -/
theorem lost_primary_locks_out :
    ¬ KeepsSecrets (losing (js "http://b")) twoShards 0 secondRegistration (fun _ => none)
      fun _ => registered := by
  intro hkeeps
  obtain ⟨hstate, -⟩ := register_admitted (losing (js "http://b")) twoShards 0
    secondRegistration (fun _ => none) (fun _ => registered) second_admitted twoShards_durable
    twoShards_urls
  have hkept := hkeeps (lost_primary_fails fun _ => registered)
  rw [hstate, twoShards_replicas] at hkept
  have hsets : (losing (js "http://b")).Sets (Router.createBody twoShards 0 secondRegistration
      Router.zeroKey [js "http://b", js "http://a"]) := createBody_sets _ twoShards 0 rfl _ _
  have huntaken := (postAll_keeps_iff hsets [js "http://b", js "http://a"] fun _ => registered).1
    hkept
  have hother : (losing (js "http://b")).asked (Router.createBody twoShards 0 secondRegistration
      Router.zeroKey [js "http://b", js "http://a"]) (js "http://b") (fun _ => registered)
      (js "http://a") = registered := asked_other _ (by decide)
  have htakes := huntaken.2.1
  rw [hother] at htakes
  have hsame := htakes (by
    show (registered.create _ 0 none).1.status = 200
    rw [create_received]
    decide +kernel)
  exact absurd hsame (by decide +kernel)

/-! ## A registration that is repeated -/

/-- What the Router posts to both shards. -/
def secondBody : Router.CreateBody :=
  Router.createBody twoShards 0 secondRegistration Router.zeroKey [js "http://b", js "http://a"]

/-- A shard where the mailbox has the read secret of the body already. -/
def repeated : Node where
  env := Shard.trustingEnv {}
  kv
    | .mailbox _ => some ⟨⟨secondBody.readSecretHash, none, [], 0, none, .arr []⟩, none⟩
    | _ => none

theorem repeated_takes :
    (losing (js "http://b")).Takes secondBody (js "http://a") repeated := by
  show (repeated.create _ 0 none).1.status = 200
  rw [secondBody, create_received]
  decide +kernel

/-- The registration fails, although the second shard takes the body, and no read secret
    changes. -/
theorem repeated_registration_keeps :
    (losing (js "http://b")).Takes secondBody (js "http://a") repeated ∧
      ((losing (js "http://b")).register twoShards 0 secondRegistration
        ((fun _ => none), fun _ => repeated)).1.status ≠ 200 ∧
      KeepsSecrets (losing (js "http://b")) twoShards 0 secondRegistration (fun _ => none)
        fun _ => repeated := by
  refine ⟨repeated_takes, lost_primary_fails _,
    (lockout_iff (losing (js "http://b")) twoShards 0 secondRegistration
      (fun _ => none) (fun _ => repeated) twoShards_durable rfl).2 fun f pubkey hurls h => Or.inr ?_⟩
  obtain rfl := Except.ok.inj (second_admitted.fields.symm.trans h.fields)
  obtain rfl := Option.some.inj (second_admitted.text.symm.trans h.text)
  rw [twoShards_replicas]
  refine ⟨fun _ => rfl, fun _ => ?_, trivial⟩
  rw [asked_other _ (by decide)]
  rfl

end Agreement
