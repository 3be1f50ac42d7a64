/-
  The handlers of the Router for its clients: `/register`, `/resolve`,
  `/server_hello` and `/routing_table.json`, and the dispatch of requests.

  * `capText`, `responseText` and `helloText` are the texts that the Router
    signs for them, next to the routing table;
  * `probe` is the walk of `/resolve` over the eras;
  * `fetch` dispatches a request, `handle` answers it at an instant and turns
    exceptions into responses.
-/
import NexTalkRelay.Router.Mesh

open Effect Js

namespace Router

/-! ## Signed texts -/

/-- The text of a capability. -/
def capText (mailboxId clientPubkey : JString) (capExp : ℕ) (capNonce : JString) : JString :=
  js "cap:v2:" ++ mailboxId ++ js ":" ++ clientPubkey ++ js ":mailbox.create:" ++ digits capExp ++
    js ":" ++ capNonce

/-- What is signed of a response. -/
def responseText (requestId : JString) (status : ℕ) (timestamp bodyHash : JString) : JString :=
  requestId ++ js ":" ++ digits status ++ js ":" ++ timestamp ++ js ":" ++ bodyHash

/-- What is signed in a `/server_hello`. -/
def helloText (protocol nonce serverPublicKey timestamp : JString) : JString :=
  js "NexTalk Server Authentication:" ++ protocol ++ js ":" ++ nonce ++ js ":" ++ serverPublicKey ++
    js ":" ++ timestamp

/-- `buildSignedResponse`: the body in an envelope; a request id without a text
    throws. -/
def buildSignedResponse (env : Env) (requestId : Json) (status : ℕ) (body : Registration) :
    M Response := do
  let timestamp := digits (← dateNow)
  let bodyHash := env.crypto.sha256Hex body.toJson.stringify
  match requestId.toStr with
  | none => .throw
  | some requestText =>
    let signature ← signHex .buildSignedResponse env.routerSigningKey
      (responseText requestText status timestamp bodyHash)
    return { jsonOk (.registered body) with
      envelope := some
        { requestId, timestamp, bodyHash, serverPublicKey := env.routerSigningPublic, signature } }

/-! ## `GET /routing_table.json` -/

/-- The document of the routing table before it is signed. -/
def tableBody (env : Env) (shardUrls : List JString) (priorCounts : List Json) (version : Number)
    (registered : List Registered) (now : ℕ) : List (JString × Json) :=
  [(js "version", .num version), (js "generated_at", .num (.ofInt now)),
    (js "expires_at", .num (.ofInt (now + 3600 * 1000))),
    (js "algorithm", .str (js "sha256-hashpoint-modn-era-fallback-v1")),
    (js "shard_urls", .arr (shardUrls.map .str)),
    (js "shards", .arr (shardUrls.map fun url => .obj
      [(js "url", .str url), (js "pubkey", ((pubkeyOf registered url).map .str).getD .null)])),
    (js "replication_factor", .num (replicationFactor env shardUrls.length)),
    (js "prior_shard_counts", .arr priorCounts),
    (js "router_public_key", .str env.routerSigningPublic)]

/-- The routing table with its signature. -/
def buildSignedRoutingTable (env : Env) : M Json := do
  let shardUrls ← getShardUrls env
  let priorCounts ← getPriorShardCounts env
  let version ← getRoutingTableVersion env
  let registered ← getRegisteredShards env
  let now ← dateNow
  let body := tableBody env shardUrls priorCounts version registered now
  let signature ← signHex .buildSignedRoutingTable env.routerSigningKey (Json.obj body).stringify
  return .obj (body ++ [(js "signature", .str signature)])

/-- `GET /routing_table.json` -/
def handleRoutingTable (env : Env) : M Response := do
  return jsonOk (.table (← buildSignedRoutingTable env))

/-! ## `POST /register` -/

/-- A request to `/register`, with the random bytes drawn in its handling. -/
structure RegisterRequest where
  body : Option Json
  readSecret : Bytes
  capNonce : Bytes

/-- What `/register` reads from its body. -/
structure RegisterFields where
  pubkey : Tested (HexStr 64 64)
  timestamp : Tested DigitStr
  signature : Tested (HexStr 128 128)
  requestId : Option Json

/-- The checks of the body of `/register`, in their order. -/
def registerFields (body : Option Json) : Check Response RegisterFields := do
  let body ← Check.orAnswer body notJson
  let pubkey ← testedField (HexStr.parse 64 64) (body.field (js "pubkey"))
    (jsonErr (js "pubkey must be 64-char hex") 400)
  let timestamp ← testedField DigitStr.parse (body.field (js "timestamp"))
    (jsonErr (js "timestamp required") 400)
  let signature ← testedField (HexStr.parse 128 128) (body.field (js "signature"))
    (jsonErr (js "signature must be 128-char hex") 400)
  return { pubkey, timestamp, signature, requestId := body.field (js "request_id") }

/-- What the client has signed. -/
def registerMessage (f : RegisterFields) (pubkey : HexStr 64 64) : JString :=
  js "register:" ++ pubkey.lower ++ js ":" ++ f.timestamp.val.1

/-- The instant and the signature of a registration. -/
def registerGate (env : Env) (f : RegisterFields) : M (Option Response) := do
  let now ← dateNow
  if (Number.ofInt 30000).lt (clockSkew now f.timestamp.val) then
    return some (jsonErr (js "timestamp outside allowed skew") 401)
  else match f.pubkey.str? with
    | none => .throw
    | some pubkey =>
      if !verifyEd25519 env.crypto pubkey (registerMessage f pubkey) f.signature then
        return some (jsonErr (js "signature verification failed") 401)
      else return none

/-- The mailbox of a key. -/
def mailboxIdOf (env : Env) (pubkey : HexStr 64 64) : JString :=
  env.crypto.hmacHex pubkey.lower env.serverSecret

/-- A fresh capability, in the body for the shards. -/
def mint (env : Env) (rq : RegisterRequest) (pubkey : HexStr 64 64) (replicas : List JString) :
    M CreateBody := do
  let mailboxId := mailboxIdOf env pubkey
  let readSecretHash := env.crypto.sha256Hex (bytesToHex rq.readSecret)
  let capExp := (← dateNow) + 31536000 * 1000
  let capNonce := bytesToHex rq.capNonce
  let capSig ← signHex .handleRegister env.routerSigningKey
    (capText mailboxId pubkey.lower capExp capNonce)
  return { mailboxId, readSecretHash, capExp, capSig, replicaShardUrls := replicas
           clientPubkey := pubkey.lower, capNonce }

/-- The same body to one shard after the other. -/
def createAll (body : CreateBody) : List JString → M (List Created)
  | [] => return []
  | url :: urls => do
    let created ← createAt url body
    return created :: (← createAll body urls)

/-- The answer of `/register` to a client whose mailbox has been created. -/
def confirm (env : Env) (requestId : Option Json) (response : Registration) : M Response :=
  match requestId.filter fun v => Json.truthy (some v) with
  | none => return jsonOk (.registered response)
  | some requestId => buildSignedResponse env requestId 200 response

/-- Without replicas, `createResults[0].ok` throws. -/
def register (env : Env) (rq : RegisterRequest) (f : RegisterFields) {shardUrls : List JString}
    (current : Era shardUrls) : M Response := do
  match f.pubkey.str? with
  | none => .throw
  | some pubkey =>
    let replicas := replicasForEra env.crypto pubkey.1 current (replicationFactor env current.1)
    let body ← mint env rq pubkey replicas
    let createResults ← createAll body replicas
    match replicas, createResults with
    | shardUrl :: _, primary :: _ =>
      if !primary.ok then
        return jsonErr (js "Failed to create mailbox on primary shard (" ++ digits primary.status ++
          js ": " ++ primary.text.take 200 ++ js ")") 502
      else
        let tableVersion ← getRoutingTableVersion env
        confirm env f.requestId
          { mailboxId := body.mailboxId, readSecret := bytesToHex rq.readSecret, shardUrl
            replicaShardUrls := replicas, expiresAt := body.capExp, tableVersion }
    | _, _ => .throw

/-- `POST /register` -/
def handleRegister (env : Env) (rq : RegisterRequest) {shardUrls : List JString}
    (current : Era shardUrls) : M Response :=
  guarded (registerFields rq.body) fun f => gated (registerGate env f) (register env rq f current)

/-! ## `GET /resolve` -/

/-- The first era whose shard has the mailbox; the probe of no shard fails. -/
def probe (env : Env) (pubkey : HexStr 64 64) {shardUrls : List JString} :
    List (Era shardUrls) → M (Option (Era shardUrls))
  | [] => return none
  | n :: eras => do
    match (replicasForEra env.crypto pubkey.1 n (replicationFactor env n.1)).head? with
    | none => probe env pubkey eras
    | some shardUrl =>
      if ← existsAt shardUrl (mailboxIdOf env pubkey) then return some n
      else probe env pubkey eras

/-- The answer of `/resolve` for an era. -/
def resolution (env : Env) (pubkey : HexStr 64 64) {shardUrls : List JString} (n : Era shardUrls)
    (confirmed : Bool) : M Response := do
  let replicas := replicasForEra env.crypto pubkey.1 n (replicationFactor env n.1)
  let tableVersion ← getRoutingTableVersion env
  return jsonOk (.resolved
    { mailboxId := mailboxIdOf env pubkey, shardUrl := replicas.head?, replicaShardUrls := replicas
      era := n.1, tableVersion, confirmed })

/-- `GET /resolve` -/
def handleResolve (env : Env) (pubkey : Option JString) {shardUrls : List JString}
    (current : Era shardUrls) : M Response :=
  match pubkey.bind (HexStr.parse 64 64) with
  | none => return jsonErr (js "pubkey (64-char hex) query param required") 400
  | some pubkey => do
    let priorCounts ← getPriorShardCounts env
    match ← probe env pubkey (eraCountsDescending shardUrls priorCounts) with
    | some n => resolution env pubkey n true
    | none => resolution env pubkey current false

/-! ## `POST /server_hello` -/

/-- The checks of the body of `/server_hello`. -/
def helloFields (body : Option Json) : Check Response (JString × JString) := do
  let body ← Check.orAnswer body notJson
  let nonce ← Check.orAnswer
    ((Json.asStr? (body.field (js "nonce"))).filter fun s => 8 ≤ s.length && s.length ≤ 256)
    (jsonErr (js "nonce must be a non-empty string (8–256 chars)") 400)
  let protocol ← Check.orAnswer
    ((Json.asStr? ((body.field (js "protocol")).or (some (.str (js "nextalk/v1"))))).filter
      fun s => s.length ≤ 32)
    (jsonErr (js "protocol must be a short identifier string") 400)
  return (nonce, protocol)

/-- `POST /server_hello` -/
def handleServerHello (env : Env) (body : Option Json) : M Response :=
  guarded (helloFields body) fun (nonce, protocol) => do
    let timestamp := digits (← dateNow)
    let signature ← signHex .handleServerHello env.routerSigningKey
      (helloText protocol nonce env.routerSigningPublic timestamp)
    return jsonOk (.serverHello protocol env.routerSigningPublic nonce timestamp signature)

/-! ## Dispatch -/

/-- The requests to the Router. -/
inductive Request where
  | routingTable
  | register (rq : RegisterRequest)
  | resolve (pubkey : Option JString)
  | serverHello (body : Option Json)
  | powChallenge (rq : ChallengeRequest)
  | registerShard (rq : RegisterShardRequest)
  | rotateShardKey (body : Option Json)

/-- The handler that `fetch` chooses, given the current era. -/
def serve (env : Env) {shardUrls : List JString} (current : Era shardUrls) : Request → M Response
  | .routingTable => handleRoutingTable env
  | .register rq => handleRegister env rq current
  | .resolve pubkey => handleResolve env pubkey current
  | .serverHello body => handleServerHello env body
  | .powChallenge rq => handlePowChallenge env rq
  | .registerShard rq => handleRegisterShard env rq
  | .rotateShardKey body => handleRotateShardKey env body

/-- Without a shard the Router answers no request. -/
def fetch (env : Env) (rq : Request) : M Response := do
  let shardUrls ← getShardUrls env
  if h : shardUrls ≠ [] then serve env (Era.current h) rq
  else return jsonErr (js "Router misconfiguration") 500

/-- The administration store and the outside. -/
abbrev State := Kv × World

/-- Answer a request at the instant `t`; an exception is answered too. -/
def handle (env : Env) (answer : JString → CreateBody → Created) (t : ℕ) (rq : Request)
    (s : State) : Response × State :=
  let r := (fetch env rq).run (KvOp.exec t (services env.crypto answer)) s
  (r.1.getD crashed, r.2)

end Router
