/-
  The handlers of a shard: `/create`, `/exists`, `/send`, `/read` and
  `/internal/replicate` on a mailbox, and the cached routing table.

  Every mailbox handler tests the fields of its request (`…Fields`), then asks whether
  the request may pass (`…Gate`: authentication, replay, shape and rate
  limits), and then reads and writes the mailbox (`…Mailbox`).

  * `replicateToSiblings` is the job that `/send` leaves for after its response;
  * `fetch` dispatches a request, `handle` answers it at an instant and turns
    exceptions into responses.
-/
import NexTalkRelay.Shard.Auth

open Effect Js

namespace Shard

/-- The answer of a gate that a request did not pass. -/
abbrev Verdict := Option Response

/-- Pass on if the bucket has room for one more request in this minute. -/
def limited (bucketKey : JString) (limit : Number) (message : JString) (next : M Verdict) :
    M Verdict := do
  if ← rateLimit bucketKey limit 60 then next
  else return some (err message 429 (some (js "60")))

/-- Forget a backlog that has outlived `TTL_SECONDS`. -/
def clearStale (env : Env) (stored : Mailbox) : M Mailbox := do
  if ← isBacklogStale stored.messagesEnqueuedAt env.cfg.ttlSeconds then
    return { stored with messages := [], messagesEnqueuedAt := none }
  else return stored

/-- Queue an entry; the first one starts the clock of the backlog. -/
def pushEntry (stored : Mailbox) (entry : Entry) : M Mailbox := do
  let stored := { stored with messages := stored.messages ++ [entry] }
  match stored.messagesEnqueuedAt with
  | some _ => return stored
  | none =>
    let now ← dateNow
    return { stored with messagesEnqueuedAt := some now }

/-- Write the record back, with a fresh lifetime. -/
def putMailbox (env : Env) (id : JString) (stored : Mailbox) : M Unit :=
  kvPut (.mailbox id) stored env.cfg.mailboxTtlSeconds

/-! ## `POST /create` -/

/-- What `/create` reads. -/
structure CreateRequest where
  ip : Option JString
  body : Option Json

/-- The two formats of a capability. -/
inductive Cap where
  | v1
  | v2 (clientPubkey : Tested (HexStr 64 64)) (nonce : JString)

/-- The fields of `/create` once they are checked. -/
structure CreateFields where
  mailboxId : HexStr 16 128
  readSecretHash : HexStr 64 64
  capExp : Number
  capSig : JString
  cap : Cap
  replicas : List JString

/-- The strings of an array, `safeReplicas`. -/
def safeReplicas (v : Option Json) : List JString :=
  match Json.asArr? v with
  | some xs => xs.filterMap fun x => Json.asStr? (some x)
  | none => []

/-- What a body that is not JSON gets. -/
def notJson : Response := err (js "Request body must be valid JSON")

/-- A non-empty string field. -/
def strField (v : Option Json) : Option JString := (Json.asStr? v).filter fun s => !s.isEmpty

/-- `Number(x)` of a field; the number of a missing field is `NaN`. -/
def numberOf (v : Option Json) : Option Number :=
  match v with
  | some v => v.toNumber
  | none => some .nan

/-- The checks of `/create` on the body. -/
def createFields (body : Option Json) : Check Response CreateFields := do
  let body ← Check.orAnswer body notJson
  let mailboxId ← Check.orAnswer (hexField 16 128 (body.field (js "mailbox_id")))
    (err (js "mailbox_id must be a hex string"))
  let readSecretHash ← Check.orAnswer (hexField 64 64 (body.field (js "read_secret_hash")))
    (err (js "read_secret_hash must be a 64-char hex SHA-256 digest"))
  Check.require (Json.truthy (body.field (js "cap_exp"))) (err (js "cap_exp is required"))
  let capExp ← Check.orCrash (numberOf (body.field (js "cap_exp")))
  Check.require capExp.isFinite (err (js "cap_exp is required"))
  let capSig ← Check.orAnswer (strField (body.field (js "cap_sig"))) (err (js "cap_sig is required"))
  let capVersion ← Check.orCrash (numberOf (body.field (js "cap_version")))
  let replicas := safeReplicas (body.field (js "replica_shard_urls"))
  if capVersion = .ofInt 2 then
    let clientPubkey ← testedField (HexStr.parse 64 64) (body.field (js "client_pubkey"))
      (err (js "client_pubkey must be 64-char hex for v2 capability"))
    let nonce ← Check.orAnswer (strField (body.field (js "cap_nonce")))
      (err (js "cap_nonce is required for v2 capability"))
    return { mailboxId, readSecretHash, capExp, capSig, cap := .v2 clientPubkey nonce, replicas }
  else return { mailboxId, readSecretHash, capExp, capSig, cap := .v1, replicas }

/-- The Router's signature on the capability verifies. -/
def capOk (env : Env) (f : CreateFields) : M Bool :=
  match f.cap with
  | .v2 clientPubkey nonce =>
    verifyCapabilityV2 env f.mailboxId.lower clientPubkey.str? (js "mailbox.create") f.capExp nonce
      f.capSig
  | .v1 => verifyCapability env f.mailboxId.lower f.readSecretHash.lower f.capExp f.capSig

/-- The capability, then the rate limit. -/
def createGate (env : Env) (ip : Option JString) (f : CreateFields) : M Verdict := do
  if !(← capOk env f) then return some (err (js "invalid or expired Router capability") 401)
  else
    limited (js "create-ip:" ++ clientIp ip) env.cfg.maxCreatesPerIp
      (js "Too many create requests, slow down") (return none)

/-- The client that a record is bound to: the one of a v2 capability. -/
def CreateFields.clientPubkey (f : CreateFields) : Option JString :=
  match f.cap with
  | .v2 clientPubkey _ => clientPubkey.str?.map HexStr.lower
  | .v1 => none

/-- The record of a repeated registration. -/
def CreateFields.refresh (f : CreateFields) (stored : Mailbox) : Mailbox :=
  { stored with
    readSecretHash := f.readSecretHash.lower
    clientPubkey := match f.clientPubkey with
      | some pk => some pk
      | none => stored.clientPubkey
    replicaShardUrls :=
      if f.replicas.isEmpty then stored.replicaShardUrls else .arr (f.replicas.map .str) }

/-- The record of a first registration. -/
def CreateFields.fresh (f : CreateFields) (now : ℕ) : Mailbox :=
  { readSecretHash := f.readSecretHash.lower
    clientPubkey := f.clientPubkey
    messages := []
    createdAt := now
    messagesEnqueuedAt := none
    replicaShardUrls := .arr (f.replicas.map .str) }

/-- An existing mailbox is refreshed, a missing one is created. -/
def createMailbox (env : Env) (f : CreateFields) : M Response := do
  match ← kvGet (.mailbox f.mailboxId.lower) with
  | some stored =>
    putMailbox env f.mailboxId.lower (f.refresh stored)
    return json (.created f.mailboxId.lower env.cfg.mailboxTtlSeconds false)
  | none =>
    let now ← dateNow
    putMailbox env f.mailboxId.lower (f.fresh now)
    return json (.created f.mailboxId.lower env.cfg.mailboxTtlSeconds true)

/-- `handleCreate`. -/
def handleCreate (env : Env) (rq : CreateRequest) : M Response :=
  guarded (createFields rq.body) fun f => gated (createGate env rq.ip f) (createMailbox env f)

/-! ## `GET /exists` -/

/-- What `/exists` reads. -/
structure ExistsRequest where
  ip : Option JString
  mailboxId : Option JString

/-- The check of `/exists` on the mailbox id. -/
def existsFields (rq : ExistsRequest) : Check Response (HexStr 16 128) :=
  Check.orAnswer (rq.mailboxId.bind (HexStr.parse 16 128)) (err (js "mailbox_id required") 400)

/-- The rate limit of `/exists`. -/
def existsGate (ip : Option JString) : M Verdict :=
  limited (js "exists-ip:" ++ clientIp ip) (.ofInt 300) (js "Too many requests") (return none)

/-- Whether there is a record. -/
def existsMailbox (id : HexStr 16 128) : M Response := do
  match ← kvGet (.mailbox id.lower) with
  | none => return err (js "not found") 404
  | some _ => return json .exists_

/-- `handleExists`. -/
def handleExists (rq : ExistsRequest) : M Response :=
  guarded (existsFields rq) fun id => gated (existsGate rq.ip) (existsMailbox id)

/-! ## `POST /send` -/

/-- A request to `/send`, with the random draws of its handling: `entryId` for
    `randomHex(8)` and the key pair of a shard that has none. -/
structure SendRequest where
  ip : Option JString
  body : Option Json
  entryId : Bytes
  freshIdentity : Identity

/-- The fields of `/send` once they are checked. -/
structure SendFields where
  mailboxId : HexStr 16 128
  message : JString
  sender : Option Json
  senderPubkey : HexStr 64 64
  requestId : Option JString

/-- The checks of `/send` on the body, in the order of the source. -/
def sendFields (env : Env) (body : Option Json) : Check Response SendFields := do
  let body ← Check.orAnswer body notJson
  let mailboxId ← Check.orAnswer (hexField 16 128 (body.field (js "mailbox_id")))
    (err (js "mailbox_id must be a hex string"))
  let message ← Check.orAnswer (strField (body.field (js "message")))
    (err (js "message is required and must be a string"))
  Check.require (!env.cfg.maxMsgBytes.lt (.ofInt (encode message).length))
    (err (js "message exceeds " ++ env.cfg.maxMsgBytes.text ++ js " byte limit"))
  let sender := body.field (js "sender")
  let senderPubkey ← Check.orAnswer (hexField 64 64 (fieldOf sender "pubkey"))
    (err (js "sender.pubkey must be a 64-char lowercase hex Ed25519 public key"))
  return { mailboxId, message, sender, senderPubkey, requestId := strField (body.field (js "request_id")) }

/-- The text of a value in a template; a missing one reads `undefined`. -/
def templateText (v : Option Json) : Option JString :=
  match v with
  | some v => v.toStr
  | none => some (js "undefined")

/-- The text that the sender signs. -/
def sendSignedMessage (c : Crypto) (f : SendFields) (senderTimestamp : JString) : JString :=
  js "send:" ++ f.senderPubkey.lower ++ js ":" ++ f.mailboxId.lower ++ js ":" ++ senderTimestamp ++
    js ":" ++ c.sha256Hex f.message

/-- The rate limits of `/send` and the shape of its message. -/
def sendLimits (env : Env) (ip : Option JString) (f : SendFields) : M Verdict :=
  limited (js "send-sender:" ++ f.senderPubkey.lower) env.cfg.maxSendsPerSender
      (js "Too many messages sent from this identity, slow down") <|
    limited (js "send-target:" ++ f.mailboxId.lower) env.cfg.maxSendsPerTarget
      (js "Too many messages to this recipient, slow down") <|
    limited (js "send-ip:" ++ clientIp ip) env.cfg.maxSendsPerIp
      (js "Too many send requests, slow down") <|
    -- a message that is no JSON is opaque ciphertext, which is fine
    return ((Json.parse f.message).bind validateEnvelopeShape).map fun e => err e

/-- The sender's signature and the two rate limits. -/
def sendGate (env : Env) (ip : Option JString) (f : SendFields) : M Verdict :=
  match templateText (fieldOf f.sender "timestamp") with
  | none => .throw
  | some senderTimestamp => do
    match ← verifySenderAuth env f.sender env.cfg.maxClockSkew
        (sendSignedMessage env.crypto f senderTimestamp) with
    | some authError => return some (err (js "sender auth failed: " ++ authError) 401)
    | none => sendLimits env ip f

/-- The queued form of a message. -/
def newEntry (f : SendFields) (entryId : Bytes) (time : ℕ) : Entry where
  json := .obj [(js "id", .str (bytesToHex entryId)), (js "time", .num (.ofInt time)),
    (js "message", .str f.message), (js "senderPubkey", .str f.senderPubkey.lower)]
  id := bytesToHex entryId
  message := f.message
  hasId := rfl
  hasMessage := rfl

/-- Wrap the body of a success if the request asks for it. -/
def respond (env : Env) (fresh : Identity) (requestId : Option JString) (body : Payload) :
    M Response :=
  match requestId with
  | some requestId => buildShardSignedResponse env fresh requestId body
  | none => return json body

/-- Schedule the copies of a message, unless there is a single shard. -/
def fanOut (id : JString) (entry : Entry) (replicaShardUrls : Json) : M Unit :=
  match Json.asArr? (some replicaShardUrls) with
  | some urls => if 1 < urls.length then waitUntil ⟨id, entry, urls⟩ else return
  | none => return

/-- The quota and the queue; a stored message is pushed to the replicas. -/
def sendMailbox (env : Env) (rq : SendRequest) (f : SendFields) : M Response := do
  match ← kvGet (.mailbox f.mailboxId.lower) with
  | none => return err (js "Mailbox not found or expired") 404
  | some stored =>
    let stored ← clearStale env stored
    if env.cfg.maxMessages.le (.ofInt stored.messages.length) then
      return err (js "Mailbox is full (limit: " ++ env.cfg.maxMessages.text ++ js " messages)") 429
        (some (js "3600"))
    else
      let time ← dateNow
      let entry := newEntry f rq.entryId time
      let stored ← pushEntry stored entry
      putMailbox env f.mailboxId.lower stored
      fanOut f.mailboxId.lower entry stored.replicaShardUrls
      respond env rq.freshIdentity f.requestId (.sent stored.messages.length)

/-- `handleSend`. -/
def handleSend (env : Env) (rq : SendRequest) : M Response :=
  guarded (sendFields env rq.body) fun f => gated (sendGate env rq.ip f) (sendMailbox env rq f)

/-- The body of a replicate push without its signature. -/
def replicatePayload (job : FanOut) (originPubkey timestamp : JString) : List (JString × Json) :=
  [(js "mailbox_id", .str job.mailboxId), (js "entry", job.entry.json),
    (js "replica_shard_urls", .arr job.replicaShardUrls),
    (js "origin_shard_pubkey", .str originPubkey), (js "timestamp", .str timestamp)]

/-- Push a message to every sibling; `none` is a URL without a text. -/
def replicateToSiblings (env : Env) (fresh : Identity) (job : FanOut) : M Unit := do
  let isSelf (u : Json) : Bool := match u with
    | .str s => env.selfUrl == some s
    | _ => false
  let siblings := job.replicaShardUrls.filter fun u => !isSelf u
  if siblings.isEmpty then return
  else
    let identity ← ensureShardIdentity fresh
    let timestamp := (Number.ofInt (← dateNow)).text
    let payload := replicatePayload job identity.publicKeyHex timestamp
    let canonical := (Json.obj payload).stringify
    let signature ← signWithShardKey identity.privateKeyPkcs8Base64 (js "replicate:" ++ canonical)
    let body := Json.obj (payload ++ [(js "signature", .str signature)])
    siblings.forM fun u => match u.toStr with
      | some url => post (url ++ js "/internal/replicate") body
      | none => .throw

/-! ## `GET /read` -/

/-- What `/read` reads. -/
structure ReadRequest where
  ip : Option JString
  mailboxId : Option JString
  readSecret : Option JString
  peek : Option JString
  requestId : Option JString
  freshIdentity : Identity

/-- The fields of `/read` once they are checked. -/
structure ReadFields where
  mailboxId : HexStr 16 128
  readSecret : JString
  peek : Bool
  requestId : Option JString

/-- A text that JavaScript takes for true. -/
def nonEmpty (s : Option JString) : Option JString := s.filter fun s => !s.isEmpty

/-- The checks of `/read` on its parameters. -/
def readFields (rq : ReadRequest) : Check Response ReadFields := do
  let mailboxId ← Check.orAnswer (rq.mailboxId.bind (HexStr.parse 16 128))
    (err (js "mailbox_id required") 400)
  let readSecret ← Check.orAnswer (nonEmpty rq.readSecret) (err (js "read_secret required") 400)
  return { mailboxId, readSecret, peek := rq.peek == some (js "1"), requestId := nonEmpty rq.requestId }

/-- The rate limit of `/read`. -/
def readGate (ip : Option JString) : M Verdict :=
  limited (js "read-ip:" ++ clientIp ip) (.ofInt 300) (js "Too many read requests, slow down")
    (return none)

/-- The secret, then the oldest message; it is taken out unless this is a peek. -/
def readMailbox (env : Env) (rq : ReadRequest) (f : ReadFields) : M Response := do
  match ← kvGet (.mailbox f.mailboxId.lower) with
  | none => return err (js "Mailbox not found or expired") 404
  | some stored =>
    if !constantTimeEqual (env.crypto.sha256Hex f.readSecret) stored.readSecretHash then
      return err (js "invalid read_secret") 401
    else
      let stored ← clearStale env stored
      let messagesToReturn := stored.messages
      let stored := if f.peek then stored
        else { stored with messages := [], messagesEnqueuedAt := none }
      putMailbox env f.mailboxId.lower stored
      respond env rq.freshIdentity f.requestId (.read messagesToReturn stored.createdAt !f.peek)

/-- `handleRead`. -/
def handleRead (env : Env) (rq : ReadRequest) : M Response :=
  guarded (readFields rq) fun f => gated (readGate rq.ip) (readMailbox env rq f)

/-! ## `POST /internal/replicate` -/

/-- What `/replicate` reads. -/
structure ReplicateRequest where
  body : Option Json

/-- The fields of `/replicate` once they are checked. -/
structure ReplicateFields where
  mailboxId : HexStr 16 128
  entry : Entry
  replicaShardUrls : Option Json
  originPubkey : Tested (HexStr 64 64)
  timestamp : DigitStr
  signature : Tested (HexStr 128 128)
  unsigned : Json

/-- An object with a string `id` and a string `message`. -/
def entryField (v : Option Json) : Option Entry :=
  v.bind fun v =>
    match hid : v.field (js "id"), hm : v.field (js "message") with
    | some (.str id), some (.str message) =>
      some { json := v, id, message, hasId := hid, hasMessage := hm }
    | _, _ => none

/-- The other properties of an object, `const { key: _, ...rest } = v`. -/
def without (key : JString) (v : Json) : Json :=
  match v with
  | .obj ps => .obj (ps.filter fun p => p.1 != key)
  | _ => .obj []

/-- The checks of `/replicate` on the body. -/
def replicateFields (body : Option Json) : Check Response ReplicateFields := do
  let body ← Check.orAnswer body notJson
  let mailboxId ← Check.orAnswer (hexField 16 128 (body.field (js "mailbox_id")))
    (err (js "mailbox_id must be a hex string"))
  let entry ← Check.orAnswer (entryField (body.field (js "entry")))
    (err (js "entry must include id and message"))
  let originPubkey ← testedField (HexStr.parse 64 64) (body.field (js "origin_shard_pubkey"))
    (err (js "origin_shard_pubkey must be 64-char hex"))
  let timestamp ← testedField DigitStr.parse (body.field (js "timestamp"))
    (err (js "timestamp required"))
  let signature ← testedField (HexStr.parse 128 128) (body.field (js "signature"))
    (err (js "signature must be 128-char hex"))
  return {
    mailboxId, entry, originPubkey, signature
    replicaShardUrls := body.field (js "replica_shard_urls")
    timestamp := timestamp.val
    unsigned := without (js "signature") body }

/-- `shards.find(s => s.pubkey && s.pubkey.toLowerCase() === originPubkey)`;
    `none` where the search throws. -/
def findShard (originPubkey : JString) : List Json → Option Bool
  | [] => some false
  | .null :: _ => none
  | s :: ss =>
    match s.field (js "pubkey") with
    | some (.str pubkey) =>
      if !pubkey.isEmpty && toLowerCase pubkey == originPubkey then some true
      else findShard originPubkey ss
    | v => if Json.truthy v then none else findShard originPubkey ss

/-- The origin is among the shards of the cached routing table. -/
def knownShard (originPubkey : JString) (cachedTable : Option Json) : Option Bool :=
  match fieldOf cachedTable "shards" with
  | none | some .null => some false
  | some (.arr shards) => findShard originPubkey shards
  | some _ => none

/-- The signature of a push, over its body without the signature; one that is
    no string has an odd length. -/
def replicateSigOk (env : Env) (f : ReplicateFields) (originPubkey : HexStr 64 64) : Bool :=
  match f.signature.str? with
  | some signature =>
    verifyEd25519Message env.crypto originPubkey.1 (js "replicate:" ++ f.unsigned.stringify)
      signature.1
  | none => false

/-- The origin is known and has signed the push. -/
def replicateAuth (env : Env) (f : ReplicateFields) (originPubkey : HexStr 64 64) : M Verdict := do
  match knownShard originPubkey.lower (← kvGet .routingTable) with
  | none => .throw
  | some false => return some (err (js "origin shard is not a Router-recognized identity") 401)
  | some true =>
    if !replicateSigOk env f originPubkey then
      return some (err (js "replicate signature verification failed") 401)
    else return none

/-- The skew, the rate limit of the origin, the table and the signature. -/
def replicateGate (env : Env) (f : ReplicateFields) : M Verdict := do
  let now ← dateNow
  if (Number.ofInt 60000).lt (clockSkew now f.timestamp) then
    return some (err (js "timestamp outside allowed skew") 401)
  else match f.originPubkey.str? with
    | none => .throw
    | some originPubkey =>
      limited (js "replicate-origin:" ++ originPubkey.lower) env.cfg.maxReplicatesPerOrigin
        (js "Too many replicate requests from this origin, slow down")
        (replicateAuth env f originPubkey)

/-- The record built for a mailbox that saw no `/create`. -/
def shellRecord (f : ReplicateFields) (now : ℕ) : Mailbox :=
  { readSecretHash := []
    clientPubkey := none
    messages := []
    createdAt := now
    messagesEnqueuedAt := none
    replicaShardUrls := (f.replicaShardUrls.filter fun v => Json.truthy (some v)).getD (.arr []) }

/-- Queue the entry, unless one with its id is there already. -/
def replicateInto (env : Env) (f : ReplicateFields) (stored : Mailbox) : M Response :=
  -- a repeated push is answered without a write
  if stored.messages.any fun m => m.id == f.entry.id then return json (.replicated true)
  else do
    let stored ← pushEntry stored f.entry
    putMailbox env f.mailboxId.lower stored
    return json (.replicated false)

/-- A push into a mailbox that the shard has, or for one that it lacks. -/
def replicateMailbox (env : Env) (f : ReplicateFields) : M Response := do
  match ← kvGet (.mailbox f.mailboxId.lower) with
  | some stored => replicateInto env f stored
  | none =>
    let now ← dateNow
    replicateInto env f (shellRecord f now)

/-- `handleReplicate`. -/
def handleReplicate (env : Env) (rq : ReplicateRequest) : M Response :=
  guarded (replicateFields rq.body) fun f => gated (replicateGate env f) (replicateMailbox env f)

/-! ## The cached routing table -/

/-- `/internal/routing_table`: cache a table that the Router signed. -/
def handleRoutingTablePush (env : Env) (body : Option Json) : M Response :=
  guarded (do
    let body ← Check.orAnswer body notJson
    let unsigned := without (js "signature") body
    let signature ← Check.orAnswer (hexField 128 128 (body.field (js "signature")))
      (err (js "signature must be a 128-char hex Ed25519 signature") 400)
    Check.require (((Json.asArr? (unsigned.field (js "shard_urls"))).map fun us => !us.isEmpty).getD false)
      (err (js "shard_urls must be a non-empty array") 400)
    let expiresAt ← Check.orCrash (numberOf (unsigned.field (js "expires_at")))
    Check.require expiresAt.isFinite (err (js "expires_at is required") 400)
    return (body, unsigned, signature, expiresAt))
  fun (body, unsigned, signature, expiresAt) => do
    if !verifyEd25519Message env.crypto env.routerSigningPublic unsigned.stringify signature.1 then
      return err (js "routing table signature verification failed") 401
    else
      let now ← dateNow
      if expiresAt.lt (.ofInt now) then
        return err (js "pushed routing table is already expired") 400
      else
        kvPutForever .routingTable body
        return json (.cached (unsigned.field (js "version")))

/-- `handleRoutingTableServe`: the cached table, if there is one. -/
def handleRoutingTableServe : M Response := do
  match ← kvGet .routingTable with
  | none =>
    return err
      (js "no routing table cached on this shard yet — fall back to the Router's /routing_table.json")
      503 (some (js "30"))
  | some cached => return json (.table cached)

/-! ## Dispatch -/

/-- A request to one of the endpoints. -/
inductive Request where
  | create (rq : CreateRequest)
  | exists_ (rq : ExistsRequest)
  | send (rq : SendRequest)
  | read (rq : ReadRequest)
  | replicate (rq : ReplicateRequest)
  | routingTablePush (body : Option Json)
  | routingTableServe

/-- The handler that `fetch` chooses. -/
def fetch (env : Env) : Request → M Response
  | .create rq => handleCreate env rq
  | .exists_ rq => handleExists rq
  | .send rq => handleSend env rq
  | .read rq => handleRead env rq
  | .replicate rq => handleReplicate env rq
  | .routingTablePush body => handleRoutingTablePush env body
  | .routingTableServe => handleRoutingTableServe

/-- Answer a request at the instant `t`; an exception is answered too. -/
def handle (env : Env) (t : ℕ) (rq : Request) (kv : Kv) : Response × Kv :=
  let r := runAt env.crypto t (fetch env rq) kv
  (r.1.getD crashed, r.2)

end Shard
