/-
  The data of a mailbox shard: what `MAILBOX_KV` holds, the configuration, the
  responses, and the operations of a handler.

  * `Mailbox` is the record stored under `mailbox:<id>`; an `Entry` is one of
    its queued messages, an object with a string `id` and a string `message`;
  * `Key` lists the keys of the store, `Key.text` writes them as the program
    does, and `Key.text_injective` says that no two of them clash;
  * `M` is the type of a handler's programs; `kvPut` throws on a lifetime that
    is no whole number of seconds, as the platform does.
-/
import NexTalkRelay.Js.Crypto
import NexTalkRelay.Js.Fields
import NexTalkRelay.Lib.Delim
import NexTalkRelay.Lib.Store

open Effect Js

namespace Shard

/-! ## Configuration -/

/-- The limits of a shard; the default values are `DEFAULTS`. -/
structure Cfg where
  maxMessages : Number := .ofInt 50
  maxMsgBytes : Number := .ofInt 32768
  ttlSeconds : Number := .ofInt 1209600
  mailboxTtlSeconds : Number := .ofInt 31536000
  maxClockSkew : Number := .ofInt 30000
  maxSendsPerSender : Number := .ofInt 30
  maxSendsPerTarget : Number := .ofInt 60
  maxSendsPerIp : Number := .ofInt 120
  maxCreatesPerIp : Number := .ofInt 20
  maxReplicatesPerOrigin : Number := .ofInt 200

/-- A key pair of the shard: the public half in hexadecimal, the private half
    as base64 text. -/
structure Identity where
  publicKeyHex : JString
  privateKeyPkcs8Base64 : JString

/-- The environment of a shard.  `fetch` answers nothing but a `500` while
    `ROUTER_SIGNING_PUBLIC` is not set. -/
structure Env where
  cfg : Cfg
  routerSigningPublic : JString
  isSet : routerSigningPublic ≠ []
  selfUrl : Option JString := none
  crypto : Crypto

/-- A shard on which every signature verifies. -/
def trustingEnv (cfg : Cfg) : Env where
  cfg
  routerSigningPublic := js "00"
  isSet := by decide
  crypto := Crypto.trusting

/-- A text of letters `a`, which is also a hexadecimal number. -/
def letters (n : ℕ) : JString := List.replicate n 97

/-! ## The stored record -/

/-- A queued message: any object with a string `id` and a string `message`. -/
structure Entry where
  json : Json
  id : JString
  message : JString
  hasId : json.field (js "id") = some (.str id)
  hasMessage : json.field (js "message") = some (.str message)

/-- The record of a mailbox. -/
structure Mailbox where
  readSecretHash : JString
  clientPubkey : Option JString
  messages : List Entry
  createdAt : ℕ
  messagesEnqueuedAt : Option ℕ
  replicaShardUrls : Json

/-! ## Keys of the store -/

/-- The keys of the KV namespace. -/
inductive Key where
  | mailbox (id : JString)
  | replay (digest : Digest)
  | rl (bucketKey : JString) (window : ℕ)
  | selfRegistration
  | shardIdentity
  | routingTable
deriving DecidableEq

/-- What is stored under a key, where the program writes it as text: `"1"` for
    a seen request, a decimal counter, JSON for the rest. -/
@[reducible] def Val : Key → Type
  | .mailbox _ => Mailbox
  | .replay _ => Unit
  | .rl _ _ => ℕ
  | .selfRegistration => ℕ
  | .shardIdentity => Identity
  | .routingTable => Json

/-- The text of a key. -/
def Key.text : Key → JString
  | mailbox id => js "mailbox:" ++ id
  | replay digest => js "replay:" ++ bytesToHex digest.1
  | rl bucketKey window => js "rl:" ++ bucketKey ++ colon :: digits window
  | selfRegistration => js "shard_self_registration"
  | shardIdentity => js "shard_identity"
  | routingTable => js "routing_table_cache"

/-- **Keys do not clash.** -/
theorem Key.text_injective : Function.Injective Key.text := by
  have hm : js "mailbox:" = 109 :: [97, 105, 108, 98, 111, 120, 58] := by decide
  have hp : js "replay:" = 114 :: 101 :: [112, 108, 97, 121, 58] := by decide
  have hr : js "rl:" = 114 :: 108 :: [58] := by decide
  have hs : js "shard_self_registration" = 115 :: js "hard_self_registration" := by decide
  have hi : js "shard_identity" = 115 :: js "hard_identity" := by decide
  have hsi : js "hard_self_registration" ≠ js "hard_identity" := by decide
  have ht : js "routing_table_cache" = 114 :: 111 :: js "uting_table_cache" := by decide
  intro k k' h
  cases k with
  | mailbox id =>
    cases k' with
    | mailbox id' => exact congrArg mailbox (List.append_cancel_left h)
    | _ => simp [text, hm, hp, hr, hs, hi, ht] at h
  | replay d =>
    cases k' with
    | replay d' =>
      exact congrArg replay (Subtype.ext (bytesToHex_injective (List.append_cancel_left h)))
    | _ => simp [text, hm, hp, hr, hs, hi, ht] at h
  | rl b w =>
    cases k' with
    | rl b' w' =>
      -- the window is what comes after the last `:`
      have hcut := Delim.cut_last (colon_notMem_of_isDigits (isDigits_digits w))
        (colon_notMem_of_isDigits (isDigits_digits w')) h
      rw [List.append_cancel_left hcut.1, digits_injective hcut.2]
    | _ => simp [text, hm, hp, hr, hs, hi, ht] at h
  | selfRegistration =>
    cases k' with
    | selfRegistration => rfl
    | _ => simp [text, hm, hp, hr, hs, hi, ht, hsi] at h
  | shardIdentity =>
    cases k' with
    | shardIdentity => rfl
    | _ => simp [text, hm, hp, hr, hs, hi, ht, hsi.symm] at h
  | routingTable =>
    cases k' with
    | routingTable => rfl
    | _ => simp [text, hm, hp, hr, hs, hi, ht] at h

/-! ## Responses -/

/-- The body of a response, before it is wrapped in a signed envelope. -/
inductive Payload where
  | error (message : JString)
  /-- `Internal server error: …`, followed by the text of the exception. -/
  | crashed
  | created (mailboxId : JString) (expiresIn : Number) (isNew : Bool)
  | exists_
  | sent (queued : ℕ)
  | replicated (deduped : Bool)
  | read (messages : List Entry) (createdAt : ℕ) (consumed : Bool)
  | cached (version : Option Json)
  | table (table : Json)

/-- What `buildShardSignedResponse` puts around a body. -/
structure Envelope where
  requestId : JString
  timestamp : JString
  bodyHash : JString
  serverPublicKey : JString
  signature : JString

/-- A response, with the envelope that a read hands out. -/
structure Response where
  status : ℕ
  body : Payload
  retryAfter : Option JString := none
  envelope : Option Envelope := none

/-- `json(data)` with the default status. -/
def json (body : Payload) : Response := { status := 200, body }

/-- `err(msg, status)`. -/
def err (message : JString) (status : ℕ := 400) (retryAfter : Option JString := none) : Response :=
  { status, body := .error message, retryAfter }

/-- The response of `fetch` to an exception in a handler. -/
def crashed : Response := { status := 500, body := .crashed }

/-! ## Programs of a shard -/

/-- A message to be copied to the other shards of its mailbox. -/
structure FanOut where
  mailboxId : JString
  entry : Entry
  replicaShardUrls : List Json

/-- The services that a shard calls. -/
inductive Service where
  /-- Sign with the shard's key: `importShardPrivateKey`, `signWithShardKey`. -/
  | sign (key message : JString)
  /-- Leave a job to be done after the response. -/
  | waitUntil (job : FanOut)
  /-- Send a body to a sibling; its answer is not looked at. -/
  | post (url : JString) (body : Json)

/-- What a service returns. -/
@[reducible] def Service.Res : Service → Type
  | sign .. => JString
  | waitUntil _ | post .. => Unit

/-- Programs of a shard. -/
abbrev M (α : Type) := Prog (KvOp Key Val Service) (KvOp.Res Service.Res) α

/-- `DATA.get`. -/
def kvGet (k : Key) : M (Option (Val k)) := Prog.perform (KvOp.get k)

/-- `Date.now()` -/
def dateNow : M ℕ := Prog.perform KvOp.now

/-- `MAILBOX_KV.put` with an `expirationTtl`. -/
def kvPut (k : Key) (v : Val k) (expirationTtl : Number) : M Unit :=
  match expirationTtl.toInt? with
  | some n => Prog.perform (KvOp.put k v (some n))
  | none => .throw

/-- `MAILBOX_KV.put` without an `expirationTtl`. -/
def kvPutForever (k : Key) (v : Val k) : M Unit := Prog.perform (KvOp.put k v none)

/-- `signWithShardKey`. -/
def signWithShardKey (key message : JString) : M JString :=
  Prog.perform (KvOp.call (Service.sign key message))

/-- `ctx.waitUntil`. -/
def waitUntil (job : FanOut) : M Unit := Prog.perform (KvOp.call (Service.waitUntil job))

/-- One `POST` of the fan-out. -/
def post (url : JString) (body : Json) : M Unit := Prog.perform (KvOp.call (Service.post url body))

/-- The answers of the services; the state lists the calls made. -/
def services (c : Crypto) : Prog.Handler Service Service.Res (List Service)
  | .sign key message, log => (some (c.signHex key message), log ++ [.sign key message])
  | .waitUntil job, log => (some (), log ++ [.waitUntil job])
  | .post url body, log => (some (), log ++ [.post url body])

/-- The KV namespace of a shard. -/
abbrev Kv := Store Key Val

/-- A program run at the instant `t`. -/
def runAt {α : Type} (c : Crypto) (t : ℕ) (p : M α) (kv : Kv) : Option α × Kv :=
  ((p.run (KvOp.exec t (services c)) (kv, [])).1, (p.run (KvOp.exec t (services c)) (kv, [])).2.1)

end Shard
