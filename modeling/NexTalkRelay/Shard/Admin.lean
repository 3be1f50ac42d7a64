/-
  The endpoints of a shard that touch no mailbox, and its jobs: liveness, the
  handshake, the operator's endpoints, and the registration with the Router.

  * `A` is the type of a program that may also call the Router;
  * `ensureSelfRegistered` is the job that every request and every cron tick
    leaves behind; an exception ends it without a word;
  * `Endpoint` is anything that a shard can be asked or left to do, and
    `perform` does it at one instant.
-/
import NexTalkRelay.Shard.Spec

open Effect Js

namespace Shard

/-- The environment of a shard that may know its Router and its operator. -/
structure AdminEnv extends Env where
  routerUrl : Option JString := none
  routerSharedSecret : Option JString := none

/-! ## Calls to the Router -/

/-- `fetch` of the Router: a `GET` without a body, else a `POST`. -/
structure RouterCall where
  url : JString
  body : Option Json

/-- A response; `json` is empty where its text is no JSON. -/
structure RouterReply where
  ok : Bool
  status : ℕ
  text : JString
  json : Option Json

/-- The answer to a call: a response, or the text of the exception. -/
@[reducible] def RouterCall.Res (_ : RouterCall) : Type := Except JString RouterReply

/-- Programs that may call the Router. -/
abbrev A (α : Type) :=
  Prog (KvOp Key Val (Service ⊕ RouterCall)) (KvOp.Res (Sum.elim Service.Res RouterCall.Res)) α

/-- A `fetch` to the Router, with its answer or why it failed. -/
def fetchRouter (url : JString) (body : Option Json) : A (Except JString RouterReply) :=
  Prog.perform (KvOp.call (Sum.inr (RouterCall.mk url body)))

/-- `DATA.delete`. -/
def kvDelete (k : Key) : M Unit := Prog.perform (KvOp.delete k)

/-- `String(Date.now())` -/
def timestampNow : M JString := do return digits (← dateNow)

/-! ## The operator -/

/-- The response of an administrative endpoint. -/
structure AdminResponse where
  status : ℕ
  body : Json

/-- `json(data)` with the default status. -/
def adminOk (body : Json) : AdminResponse := { status := 200, body }

/-- `err(msg, status)`. -/
def adminErr (message : JString) (status : ℕ := 400) : AdminResponse :=
  { status, body := .obj [(js "error", .str message)] }

/-- The group of `/^Bearer\s+(.+)$/i`. -/
def bearer (authorization : Option JString) : Option JString :=
  let header := authorization.getD []
  let rest := header.drop 6
  if toLowerCase (header.take 6) = js "bearer" then
    match rest.takeWhile isSpace, rest.dropWhile isSpace with
    | [], _ => none
    | _ :: spaces, [] => spaces.getLast?.map fun c => [c]
    | _, token => some token
  else none

/-- The shared secret, where there is one, is missing. -/
def isUnauthorized (env : AdminEnv) (authorization : Option JString) : Bool :=
  match nonEmpty env.routerSharedSecret with
  | none => false
  | some secret =>
    match bearer authorization with
    | none => true
    | some token => !constantTimeEqual token secret

/-- What a request without the admin token gets. -/
def unauthorized : AdminResponse := adminErr (js "Unauthorized") 401

/-- `url.replace(/\/$/, "")` -/
def dropSlash (url : JString) : JString := if url.getLast? = some 47 then url.dropLast else url

/-- `GET /health`; its read of the store is not looked at. -/
def handleHealth (env : AdminEnv) (authorization : Option JString) : M AdminResponse := do
  if isUnauthorized env authorization then return unauthorized
  else
    let now ← dateNow
    return adminOk (.obj [(js "status", .str (js "ok")), (js "time", .num (.ofInt now))])

/-- `GET /admin/shard_info` -/
def handleAdminShardInfo (env : AdminEnv) (authorization : Option JString) (fresh : Identity) :
    M AdminResponse := do
  if isUnauthorized env authorization then return unauthorized
  else
    let identity ← ensureShardIdentity fresh
    let orNull (s : Option JString) : Json := ((nonEmpty s).map .str).getD .null
    return adminOk (.obj [(js "shard_pubkey", .str identity.publicKeyHex),
      (js "router_url", orNull env.routerUrl), (js "self_url", orNull env.selfUrl)])

/-! ## `POST /server_hello` -/

/-- The checks of `/server_hello`, with the nonce and the protocol that pass them. -/
def helloFields (body : Option Json) : Check AdminResponse (JString × JString) := do
  let body ← Check.orAnswer body (adminErr (js "Request body must be valid JSON"))
  let nonce ← Check.orAnswer
    ((strField (body.field (js "nonce"))).filter fun s => 8 ≤ s.length && s.length ≤ 256)
    (adminErr (js "nonce must be a non-empty string (8–256 chars)") 400)
  let protocol ← Check.orAnswer
    ((Json.asStr? ((body.field (js "protocol")).or (some (.str (js "nextalk/v1"))))).filter
      fun s => s.length ≤ 32)
    (adminErr (js "protocol must be a short identifier string") 400)
  return (nonce, protocol)

/-- `handleServerHello`: signs the nonce and the protocol of the client. -/
def handleServerHello (body : Option Json) (fresh : Identity) : M AdminResponse :=
  guarded (helloFields body) fun (nonce, protocol) => do
    let identity ← ensureShardIdentity fresh
    let timestamp ← timestampNow
    let signedPayload := js "NexTalk Server Authentication:" ++ protocol ++ js ":" ++ nonce ++
      js ":" ++ identity.publicKeyHex ++ js ":" ++ timestamp
    let signature ← signWithShardKey identity.privateKeyPkcs8Base64 signedPayload
    return adminOk (.obj [(js "version", .num (.ofInt 1)), (js "type", .str (js "server_hello")),
      (js "protocol", .str protocol), (js "server_public_key", .str identity.publicKeyHex),
      (js "challenge", .str nonce), (js "timestamp", .str timestamp),
      (js "signature", .str signature)])

/-! ## Registration with the Router -/

/-- The text that a shard signs to register. -/
def registerShardText (selfUrl publicKeyHex timestamp : JString) : JString :=
  js "register_shard:" ++ selfUrl ++ js ":" ++ publicKeyHex ++ js ":" ++ timestamp

/-- The body of `POST /register_shard`; a missing nonce has no property. -/
def registerShardBody (selfUrl publicKeyHex : JString) (nonce : Option Json)
    (solution timestamp signature : JString) : Json :=
  .obj ([(js "shard_url", .str selfUrl), (js "shard_pubkey", .str publicKeyHex)] ++
    (nonce.map fun v => (js "nonce", v)).toList ++
    [(js "solution", .str solution), (js "timestamp", .str timestamp),
      (js "signature", .str signature)])

theorem registerShardBody_pubkey (selfUrl key : JString) (nonce : Option Json)
    (solution timestamp signature : JString) :
    (registerShardBody selfUrl key nonce solution timestamp signature).field (js "shard_pubkey") =
      some (.str key) := by
  have hne : (js "shard_url" == js "shard_pubkey") = false := by decide
  simp [registerShardBody, Json.field, hne]

/-- Register the shard under a proof of work; `identity` is what it read before. -/
def postRegistration (routerUrl selfUrl : JString) (identity : Identity) (nonce : Option Json)
    (solution : JString) : A (Except JString RouterReply) := do
  let timestamp ← timestampNow
  let signature ← signWithShardKey identity.privateKeyPkcs8Base64
    (registerShardText selfUrl identity.publicKeyHex timestamp)
  fetchRouter (routerUrl ++ js "/register_shard")
    (some (registerShardBody selfUrl identity.publicKeyHex nonce solution timestamp signature))

/-- Remember that the shard has registered just now. -/
def markRegistered : M Unit := do
  let now ← dateNow
  kvPutForever .selfRegistration now

/-- The first solution, in the order in which they are tried. -/
def solvePow (c : Crypto) (nonce shardUrl : JString) (difficulty : Number) : Option JString :=
  ((List.range 8000000).map digits).find? fun solution =>
    difficulty.le (.ofInt
      (leadingZeroBits (c.sha256 (encode (nonce ++ js ":" ++ shardUrl ++ js ":" ++ solution))).1))

/-- The nonce and the difficulty in the answer to `/pow_challenge`. -/
def challengeOf (reply : RouterReply) : Option (Option Json × Number) :=
  match reply.json with
  | none | some .null => none
  | some v => (numberOf (v.field (js "difficulty"))).map fun d => (v.field (js "nonce"), d)

/-- Registration is due: there is none of the last twelve hours. -/
def registrationDue : M Bool := do
  match ← kvGet .selfRegistration with
  | none => return true
  | some last =>
    let now ← dateNow
    return !decide ((now : ℤ) - last < 12 * 60 * 60 * 1000)

/-- `ensureSelfRegistered`: registers the shard when that is due and it has not been done.
    -/
def ensureSelfRegistered (env : AdminEnv) (fresh : Identity) : A Unit :=
  match nonEmpty env.routerUrl, nonEmpty env.selfUrl with
  | some routerUrl, some selfUrl => do
    if ← registrationDue then
      let identity ← ensureShardIdentity fresh
      match encodeURIComponent selfUrl with
      | none => .throw
      | some component =>
        match ← fetchRouter (routerUrl ++ js "/pow_challenge?shard_url=" ++ component) none with
        | .error _ => .throw
        | .ok challengeResp =>
          if !challengeResp.ok then .throw
          else match challengeOf challengeResp with
            | none => .throw
            | some (nonce, difficulty) =>
              match (templateText nonce).bind fun text =>
                  solvePow env.crypto text selfUrl difficulty with
              | none => .throw
              | some solution =>
                match ← postRegistration routerUrl selfUrl identity nonce solution with
                | .error _ => .throw
                | .ok regResp => if !regResp.ok then return else markRegistered
    else return
  | _, _ => return

/-- The Router that `/admin/register` calls. -/
def targetRouter (env : AdminEnv) (routerUrl : Option Json) : Check AdminResponse JString :=
  if Json.truthy routerUrl then Check.orCrash ((Json.asStr? routerUrl).map dropSlash)
  else .ok (dropSlash (env.routerUrl.getD []))

/-- The checks of `/admin/register`: nonce, solution, Router URL and own URL. -/
def adminRegisterFields (env : AdminEnv) (body : Option Json) :
    Check AdminResponse (JString × JString × JString × JString) := do
  let body ← Check.orAnswer body (adminErr (js "Request body must be valid JSON"))
  let nonce ← Check.orAnswer (strField (body.field (js "nonce"))) (adminErr (js "nonce is required"))
  let solution ← Check.orAnswer (strField (body.field (js "solution")))
    (adminErr (js "solution is required"))
  let router ← targetRouter env (body.field (js "router_url"))
  Check.require (!router.isEmpty)
    (adminErr (js "router_url is required (or set ROUTER_URL in wrangler.toml)"))
  let selfUrl ← Check.orAnswer (nonEmpty env.selfUrl)
    (adminErr (js "SELF_URL is not configured on this shard"))
  return (nonce, solution, router, selfUrl)

/-- `POST /admin/register` -/
def handleAdminRegister (env : AdminEnv) (authorization : Option JString) (body : Option Json)
    (fresh : Identity) : A AdminResponse :=
  if isUnauthorized env authorization then return unauthorized
  else guarded (adminRegisterFields env body) fun (nonce, solution, router, selfUrl) => do
    let identity ← ensureShardIdentity fresh
    match ← postRegistration router selfUrl identity (some (.str nonce)) solution with
    | .error e => return adminErr (js "Could not reach Router: " ++ e) 502
    | .ok regResp =>
      if !regResp.ok then
        return adminErr (js "Router rejected registration (" ++ digits regResp.status ++ js "): " ++
          regResp.text) 502
      else
        markRegistered
        return adminOk (.obj [(js "registered", .bool true),
          (js "router_response", regResp.json.getD (.obj []))])

/-! ## `POST /admin/rotate_key` -/

/-- What the old key signs in a rotation. -/
def migrationText (selfUrl oldPubkey newPubkey timestamp : JString) : JString :=
  js "key_rotation:" ++ selfUrl ++ js ":" ++ oldPubkey ++ js ":" ++ newPubkey ++ js ":" ++ timestamp

/-- What the new key signs in a rotation. -/
def acceptText (selfUrl oldPubkey newPubkey timestamp : JString) : JString :=
  js "key_rotation_accept:" ++ selfUrl ++ js ":" ++ oldPubkey ++ js ":" ++ newPubkey ++ js ":" ++
    timestamp

/-- The body of `/rotate_shard_key`. -/
def rotationBody (selfUrl oldPubkey newPubkey timestamp oldSig newSig : JString) : Json :=
  .obj [(js "shard_url", .str selfUrl), (js "old_pubkey", .str oldPubkey),
    (js "new_pubkey", .str newPubkey), (js "timestamp", .str timestamp),
    (js "old_signature", .str oldSig), (js "new_signature", .str newSig)]

/-- The answer of a rotation, with what came of the notice to the Router. -/
def rotationResult (oldPubkey newPubkey : JString) (notice : Option (Except JString RouterReply)) :
    AdminResponse :=
  let result (notified : Bool) (response : Json) : List (JString × Json) :=
    [(js "rotated", .bool true), (js "old_pubkey", .str oldPubkey), (js "new_pubkey", .str newPubkey),
      (js "router_notified", .bool notified), (js "router_response", response)]
  match notice with
  | none => adminOk (.obj (result false .null))
  | some (.error e) => adminOk (.obj (result false .null ++ [(js "router_error", .str e)]))
  | some (.ok regResp) =>
    adminOk (.obj (result regResp.ok (regResp.json.getD (.obj [])) ++
      if regResp.ok then []
      else [(js "router_error", .str (js "Router returned " ++ digits regResp.status))]))

/-- The new key pair is stored before the Router hears of it. -/
def rotateKey (env : AdminEnv) (selfUrl : JString) (fresh newIdentity : Identity) :
    A AdminResponse := do
  let identity ← ensureShardIdentity fresh
  let oldPubkey := identity.publicKeyHex
  let newPubkey := newIdentity.publicKeyHex
  let timestamp ← timestampNow
  let oldSig ← signWithShardKey identity.privateKeyPkcs8Base64
    (migrationText selfUrl oldPubkey newPubkey timestamp)
  let newSig ← signWithShardKey newIdentity.privateKeyPkcs8Base64
    (acceptText selfUrl oldPubkey newPubkey timestamp)
  kvPutForever .shardIdentity newIdentity
  kvDelete .selfRegistration
  let router := dropSlash (env.routerUrl.getD [])
  if router.isEmpty then return rotationResult oldPubkey newPubkey none
  else
    let notice ← fetchRouter (router ++ js "/rotate_shard_key")
      (some (rotationBody selfUrl oldPubkey newPubkey timestamp oldSig newSig))
    return rotationResult oldPubkey newPubkey (some notice)

/-- `handleAdminRotateKey`: installs the new key once the Router has taken it. -/
def handleAdminRotateKey (env : AdminEnv) (authorization : Option JString)
    (fresh newIdentity : Identity) : A AdminResponse :=
  if isUnauthorized env authorization then return unauthorized
  else match nonEmpty env.selfUrl with
    | none => return adminErr (js "SELF_URL is not configured on this shard") 500
    | some selfUrl => rotateKey env selfUrl fresh newIdentity

/-! ## Everything a shard does -/

/-- A request, or a job that an earlier request or the cron has left, with the
    key pairs drawn in its handling. -/
inductive Endpoint where
  | core (rq : Request)
  | health (authorization : Option JString)
  | serverHello (body : Option Json) (fresh : Identity)
  | shardInfo (authorization : Option JString) (fresh : Identity)
  | register (authorization : Option JString) (body : Option Json) (fresh : Identity)
  | rotateKey (authorization : Option JString) (fresh newIdentity : Identity)
  | selfRegister (fresh : Identity)
  | fanOut (job : FanOut) (fresh : Identity)

/-- The response of a shard. -/
inductive Answer where
  | core (r : Response)
  | admin (r : AdminResponse)
  /-- What a job ends with. -/
  | none

/-- The answers of the services, those of the Router given. -/
def allServices (c : Crypto) (router : RouterCall → Except JString RouterReply) :
    Prog.Handler (Service ⊕ RouterCall) (Sum.elim Service.Res RouterCall.Res) (List Service)
  | .inl e, log => services c e log
  | .inr call, log => (some (router call), log)

/-- The response to an exception in a handler. -/
def adminCrashed : AdminResponse := adminErr (js "Internal server error: ") 500

/-- Do what an endpoint asks for at the instant `t`, while the Router answers as
    given. -/
def perform (env : AdminEnv) (router : RouterCall → Except JString RouterReply) (t : ℕ)
    (e : Endpoint) (kv : Kv) : Answer × Kv :=
  let admin (p : A AdminResponse) : Answer × Kv :=
    let r := p.run (KvOp.exec t (allServices env.crypto router)) (kv, [])
    (.admin (r.1.getD adminCrashed), r.2.1)
  let job (p : A Unit) : Answer × Kv :=
    (.none, (p.run (KvOp.exec t (allServices env.crypto router)) (kv, [])).2.1)
  match e with
  | .core rq => (.core (handle env.toEnv t rq kv).1, (handle env.toEnv t rq kv).2)
  | .health authorization => admin (KvOp.widen (handleHealth env authorization))
  | .serverHello body fresh => admin (KvOp.widen (handleServerHello body fresh))
  | .shardInfo authorization fresh => admin (KvOp.widen (handleAdminShardInfo env authorization fresh))
  | .register authorization body fresh => admin (handleAdminRegister env authorization body fresh)
  | .rotateKey authorization fresh newIdentity =>
    admin (handleAdminRotateKey env authorization fresh newIdentity)
  | .selfRegister fresh => job (ensureSelfRegistered env fresh)
  | .fanOut work fresh => job (KvOp.widen (replicateToSiblings env.toEnv fresh work))

/-! ## What the operator and the jobs write -/

/-- The keys outside the mailboxes: the identity and the marker. -/
def Ops : Key → Prop
  | .selfRegistration | .shardIdentity => True
  | _ => False

section
variable (env : AdminEnv)

theorem widen_ops {α : Type} {p : M α} (hp : p.Only (KvOp.Writes Ops)) :
    (liftM p : A α).Only (KvOp.Writes Ops) := KvOp.widen_writes hp

theorem fetchRouter_writes (url : JString) (body : Option Json) :
    (fetchRouter url body).Only (KvOp.Writes Ops) := ⟨trivial, fun _ => trivial⟩

theorem timestampNow_writes : timestampNow.Only (KvOp.Writes Ops) :=
  (KvOp.only_now Ops _).2 fun _ => trivial

theorem sign_writes (key message : JString) :
    (signWithShardKey key message).Only (KvOp.Writes Ops) := ⟨trivial, fun _ => trivial⟩

theorem identity_writes (fresh : Identity) : (ensureShardIdentity fresh).Only (KvOp.Writes Ops) :=
  ensureShardIdentity_writes (S := Ops) trivial fresh

theorem handleHealth_writes (authorization : Option JString) :
    (handleHealth env authorization).Only (KvOp.Writes Ops) := by
  unfold handleHealth
  split
  · trivial
  · exact (KvOp.only_now Ops _).2 fun _ => trivial

theorem handleAdminShardInfo_writes (authorization : Option JString) (fresh : Identity) :
    (handleAdminShardInfo env authorization fresh).Only (KvOp.Writes Ops) := by
  unfold handleAdminShardInfo
  split
  · trivial
  · exact (identity_writes fresh).bind fun _ => trivial

theorem handleServerHello_writes (body : Option Json) (fresh : Identity) :
    (handleServerHello body fresh).Only (KvOp.Writes Ops) := by
  refine guarded_only fun p _ => (identity_writes fresh).bind fun identity => ?_
  exact timestampNow_writes.bind fun _ => (sign_writes _ _).bind fun _ => trivial

theorem postRegistration_writes (routerUrl selfUrl : JString) (identity : Identity)
    (nonce : Option Json) (solution : JString) :
    (postRegistration routerUrl selfUrl identity nonce solution).Only (KvOp.Writes Ops) := by
  refine (widen_ops timestampNow_writes).bind fun timestamp => ?_
  refine (widen_ops (sign_writes _ _)).bind fun signature => ?_
  exact fetchRouter_writes _ _

theorem markRegistered_writes : markRegistered.Only (KvOp.Writes Ops) :=
  (KvOp.only_now Ops _).2 fun _ => (KvOp.only_put Ops _ _ _ _).2 ⟨trivial, trivial⟩

theorem registrationDue_writes : registrationDue.Only (KvOp.Writes Ops) := by
  refine (KvOp.only_get Ops _ _).2 fun last => ?_
  cases last with
  | none => trivial
  | some last => exact (KvOp.only_now Ops _).2 fun _ => trivial

theorem ensureSelfRegistered_writes (fresh : Identity) :
    (ensureSelfRegistered env fresh).Only (KvOp.Writes Ops) := by
  unfold ensureSelfRegistered
  split
  · refine (widen_ops registrationDue_writes).bind fun due => ?_
    split
    · refine (widen_ops (identity_writes fresh)).bind fun identity => ?_
      split
      · trivial
      · refine (fetchRouter_writes _ _).bind fun reply => ?_
        split
        · trivial
        · split
          · trivial
          · split
            · trivial
            · split
              · trivial
              · refine (postRegistration_writes _ _ _ _ _).bind fun reg => ?_
                split
                · trivial
                · split
                  · trivial
                  · exact widen_ops markRegistered_writes
    · trivial
  · trivial

theorem handleAdminRegister_writes (authorization : Option JString) (body : Option Json)
    (fresh : Identity) :
    (handleAdminRegister env authorization body fresh).Only (KvOp.Writes Ops) := by
  unfold handleAdminRegister
  split
  · trivial
  · refine guarded_only fun p _ => (widen_ops (identity_writes fresh)).bind fun identity => ?_
    refine (postRegistration_writes _ _ _ _ _).bind fun reg => ?_
    split
    · trivial
    · split
      · trivial
      · exact (widen_ops markRegistered_writes).bind fun _ => trivial

theorem rotateKey_writes (selfUrl : JString) (fresh newIdentity : Identity) :
    (rotateKey env selfUrl fresh newIdentity).Only (KvOp.Writes Ops) := by
  refine (widen_ops (identity_writes fresh)).bind fun identity => ?_
  refine (widen_ops timestampNow_writes).bind fun timestamp => ?_
  refine (widen_ops (sign_writes _ _)).bind fun oldSig => ?_
  refine (widen_ops (sign_writes _ _)).bind fun newSig => ?_
  refine (KvOp.only_put Ops _ _ _ _).2 ⟨trivial, (KvOp.only_delete Ops _ _).2 ⟨trivial, ?_⟩⟩
  dsimp only [KvOp.widen, Prog.bind]
  split
  · trivial
  · exact (fetchRouter_writes _ _).bind fun _ => trivial

theorem handleAdminRotateKey_writes (authorization : Option JString)
    (fresh newIdentity : Identity) :
    (handleAdminRotateKey env authorization fresh newIdentity).Only (KvOp.Writes Ops) := by
  unfold handleAdminRotateKey
  split
  · trivial
  · split
    · trivial
    · exact rotateKey_writes env _ fresh newIdentity

theorem forM_writes {α : Type} (xs : List α) {f : α → M Unit}
    (hf : ∀ x, (f x).Only (KvOp.Writes Ops)) : (xs.forM f).Only (KvOp.Writes Ops) := by
  induction xs with
  | nil => trivial
  | cons x xs ih => exact (hf x).bind fun _ => ih

theorem replicateToSiblings_writes (env : Env) (fresh : Identity) (job : FanOut) :
    (replicateToSiblings env fresh job).Only (KvOp.Writes Ops) := by
  unfold replicateToSiblings
  dsimp only
  split
  · trivial
  · refine (identity_writes fresh).bind fun identity => (KvOp.only_now Ops _).2 fun now => ?_
    refine (sign_writes _ _).bind fun signature => forM_writes _ fun url => ?_
    split
    · exact ⟨trivial, fun _ => trivial⟩
    · trivial

/-- **No endpoint but a request writes anything else.** -/
theorem perform_outside (router : RouterCall → Except JString RouterReply) (t : ℕ) {e : Endpoint}
    (he : ∀ rq, e ≠ .core rq) (kv : Kv) {k : Key} (hk : ¬ Ops k) :
    (perform env router t e kv).2 k = kv k := by
  have hrun {α : Type} {p : A α} (hp : p.Only (KvOp.Writes Ops)) :
      (p.run (KvOp.exec t (allServices env.crypto router)) (kv, [])).2.1 k = kv k :=
    KvOp.run_outside hk hp t _ (kv, [])
  cases e with
  | core rq => exact absurd rfl (he rq)
  | health authorization => exact hrun (widen_ops (handleHealth_writes env authorization))
  | serverHello body fresh => exact hrun (widen_ops (handleServerHello_writes body fresh))
  | shardInfo authorization fresh =>
    exact hrun (widen_ops (handleAdminShardInfo_writes env authorization fresh))
  | register authorization body fresh =>
    exact hrun (handleAdminRegister_writes env authorization body fresh)
  | rotateKey authorization fresh newIdentity =>
    exact hrun (handleAdminRotateKey_writes env authorization fresh newIdentity)
  | selfRegister fresh => exact hrun (ensureSelfRegistered_writes env fresh)
  | fanOut job fresh => exact hrun (widen_ops (replicateToSiblings_writes env.toEnv fresh job))

theorem perform_same (router : RouterCall → Except JString RouterReply) (t : ℕ) {e : Endpoint}
    (he : ∀ rq, e ≠ .core rq) (kv : Kv) : SameMailboxes kv (perform env router t e kv).2 :=
  fun _ => perform_outside env router t he kv id

end

/-- Something that happens at a shard; `router` is how the Router would answer. -/
structure Event where
  time : ℕ
  router : RouterCall → Except JString RouterReply
  endpoint : Endpoint

/-- The answer to an event and the store after it. -/
def AdminEnv.happen (env : AdminEnv) (e : Event) (kv : Kv) : Answer × Kv :=
  perform env e.router e.time e.endpoint kv

end Shard
