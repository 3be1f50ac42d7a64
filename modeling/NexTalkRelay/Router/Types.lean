/-
  The data of the Router: its environment, the records of its administration
  store, its responses, and the operations of a handler.

  * `Registered` is a record of the key `registered_shards`, `Challenge` one of
    a key `pow_nonce:<nonce>`, and `CreateBody` the body that `/register` sends
    to a shard;
  * `Key.text` writes the keys as the program does, and `Key.text_injective`
    says that no two of them clash;
  * `World` is what the outside has seen of the Router: the requests to the
    shards, the mailboxes created there, and the texts that were signed.
-/
import NexTalkRelay.Js.Crypto
import NexTalkRelay.Js.Fields
import NexTalkRelay.Lib.Delim
import NexTalkRelay.Lib.Store

open Effect Js

namespace Router

/-! ## Environment -/

/-- The environment of the Router, its numbers and lists after parsing.
    `fetch` answers nothing but a `500` while one of the three secrets is not
    set. -/
structure Env where
  serverSecret : JString
  routerSigningKey : JString
  routerSigningPublic : JString
  isSet : serverSecret ≠ [] ∧ routerSigningKey ≠ [] ∧ routerSigningPublic ≠ []
  /-- `ROUTER_ADMIN_KV` is bound. -/
  adminKv : Bool := true
  shardUrls : List JString := []
  priorShardCounts : List Json := []
  routingTableVersion : Number := .ofInt 1
  replicationFactor : Number := .ofInt 1
  shardPowDifficultyBits : Number := .ofInt 20
  maxRegisteredShards : Number := .ofInt 200
  crypto : Crypto

/-! ## Stored records -/

/-- A shard that has registered itself. -/
structure Registered where
  url : JString
  pubkey : JString
  registeredAt : ℕ
  updatedAt : Option ℕ := none
  previousPubkey : Option JString := none
deriving DecidableEq

/-- A proof-of-work challenge; a difficulty that is not finite is stored as
    `null`. -/
structure Challenge where
  difficulty : Json
  expiresAt : ℕ

/-- The keys of `ROUTER_ADMIN_KV`. -/
inductive Key where
  | shardUrls
  | priorShardCounts
  | routingTableVersion
  | registeredShards
  | powNonce (nonce : JString)
  | rl (bucketKey : JString) (window : ℕ)
deriving DecidableEq

/-- What is stored under a key, after parsing. -/
@[reducible] def Val : Key → Type
  | .shardUrls => List JString
  | .priorShardCounts => List Json
  | .routingTableVersion => JString
  | .registeredShards => List Registered
  | .powNonce _ => Challenge
  | .rl _ _ => ℕ

/-- The text of a key. -/
def Key.text : Key → JString
  | shardUrls => js "shard_urls"
  | priorShardCounts => js "prior_shard_counts"
  | routingTableVersion => js "routing_table_version"
  | registeredShards => js "registered_shards"
  | powNonce nonce => js "pow_nonce:" ++ nonce
  | rl bucketKey window => js "rl:" ++ bucketKey ++ colon :: digits window

/-- **Keys do not clash.** -/
theorem Key.text_injective : Function.Injective Key.text := by
  have hs : js "shard_urls" = 115 :: js "hard_urls" := by decide
  have hp : js "prior_shard_counts" = 112 :: 114 :: js "ior_shard_counts" := by decide
  have hv : js "routing_table_version" = 114 :: 111 :: js "uting_table_version" := by decide
  have hg : js "registered_shards" = 114 :: 101 :: js "gistered_shards" := by decide
  have hn : js "pow_nonce:" = 112 :: 111 :: js "w_nonce:" := by decide
  have hr : js "rl:" = 114 :: 108 :: [58] := by decide
  intro k k' h
  cases k with
  | powNonce n =>
    cases k' with
    | powNonce n' => exact congrArg powNonce (List.append_cancel_left h)
    | _ => simp [text, hs, hp, hv, hg, hn, hr] at h
  | rl b w =>
    cases k' with
    | rl b' w' =>
      -- the window is what comes after the last `:`
      have hcut := Delim.cut_last (colon_notMem_of_isDigits (isDigits_digits w))
        (colon_notMem_of_isDigits (isDigits_digits w')) h
      rw [List.append_cancel_left hcut.1, digits_injective hcut.2]
    | _ => simp [text, hs, hp, hv, hg, hn, hr] at h
  | _ =>
    cases k' with
    | powNonce n => simp [text, hs, hp, hv, hg, hn] at h
    | rl b w => simp [text, hs, hp, hv, hg, hr] at h
    | _ => first | rfl | simp [text, hs, hp, hv, hg] at h

/-! ## Requests to the shards -/

/-- The body of `POST /create` on a shard. -/
structure CreateBody where
  mailboxId : JString
  readSecretHash : JString
  capExp : ℕ
  capSig : JString
  replicaShardUrls : List JString
  clientPubkey : JString
  capNonce : JString

/-- The body of a `/create` as it is sent. -/
def CreateBody.toJson (b : CreateBody) : Json :=
  .obj [(js "mailbox_id", .str b.mailboxId), (js "read_secret_hash", .str b.readSecretHash),
    (js "cap_exp", .num (.ofInt b.capExp)), (js "cap_sig", .str b.capSig),
    (js "replica_shard_urls", .arr (b.replicaShardUrls.map .str)),
    (js "cap_version", .num (.ofInt 2)), (js "client_pubkey", .str b.clientPubkey),
    (js "cap_nonce", .str b.capNonce)]

/-- The answer of a shard to `/create`; an unreachable shard answers `0`. -/
structure Created where
  ok : Bool
  status : ℕ
  text : JString

/-! ## Responses -/

/-- What `/register` answers. -/
structure Registration where
  mailboxId : JString
  readSecret : JString
  shardUrl : JString
  replicaShardUrls : List JString
  expiresAt : ℕ
  tableVersion : Number

/-- The body of this answer. -/
def Registration.toJson (r : Registration) : Json :=
  .obj [(js "mailbox_id", .str r.mailboxId), (js "read_secret", .str r.readSecret),
    (js "shard_url", .str r.shardUrl), (js "replica_shard_urls", .arr (r.replicaShardUrls.map .str)),
    (js "expires_at", .num (.ofInt r.expiresAt)), (js "table_version", .num r.tableVersion)]

/-- The answer of `/resolve`; it is not `confirmed` when it has the note that
    the mailbox is not confirmed to exist. -/
structure Resolution where
  mailboxId : JString
  shardUrl : Option JString
  replicaShardUrls : List JString
  era : ℕ
  tableVersion : Number
  confirmed : Bool

/-- The body of a response, before it is wrapped in a signed envelope. -/
inductive Payload where
  | error (message : JString)
  | registered (r : Registration)
  | resolved (r : Resolution)
  | challenge (nonce : JString) (difficulty : Number) (expiresAt : ℕ)
  | shardRegistered (shardUrl : JString) (shardCount : ℕ) (tableVersion : Number)
  | rotated (shardUrl newPubkey : JString) (tableVersion : Number)
  | serverHello (protocol serverPublicKey challenge timestamp signature : JString)
  | table (signed : Json)

/-- What `buildSignedResponse` puts around a body. -/
structure Envelope where
  requestId : Json
  timestamp : JString
  bodyHash : JString
  serverPublicKey : JString
  signature : JString

/-- A response; the envelope is there if one was asked for. -/
structure Response where
  status : ℕ
  body : Payload
  envelope : Option Envelope := none

/-- A success. -/
def jsonOk (body : Payload) : Response := { status := 200, body }

/-- A refusal with a text. -/
def jsonErr (message : JString) (status : ℕ) : Response := { status, body := .error message }

/-- The response of `fetch` to an exception in a handler. -/
def crashed : Response := jsonErr (js "Internal router error") 500

/-! ## Programs of the Router -/

/-- The functions that sign with the key of the Router. -/
inductive Site where
  | handleRegister
  | buildSignedResponse
  | handleServerHello
  | buildSignedRoutingTable
deriving DecidableEq

/-- The services that the Router calls. -/
inductive Service where
  /-- Sign with the Router's key: `importSigningKey`, `signHex`. -/
  | sign (site : Site) (key message : JString)
  /-- `POST <url>/create` -/
  | create (url : JString) (body : CreateBody)
  /-- `GET <url>/exists?mailbox_id=<mailboxId>`: the response is `ok`. -/
  | exists_ (url mailboxId : JString)

/-- The answer of a service. -/
@[reducible] def Service.Res : Service → Type
  | sign .. => JString
  | create .. => Created
  | exists_ .. => Bool

/-- Programs of the Router. -/
abbrev M (α : Type) := Prog (KvOp Key Val Service) (KvOp.Res Service.Res) α

/-- `KV.get` -/
def kvGet (k : Key) : M (Option (Val k)) := Prog.perform (KvOp.get k)

/-- `KV.put` without a lifetime. -/
def kvPut (k : Key) (v : Val k) : M Unit := Prog.perform (KvOp.put k v none)

/-- `put` with an `expirationTtl`. -/
def kvPutFor (k : Key) (v : Val k) (expirationTtl : ℕ) : M Unit :=
  Prog.perform (KvOp.put k v (some expirationTtl))

/-- `KV.delete` -/
def kvDelete (k : Key) : M Unit := Prog.perform (KvOp.delete k)

/-- `Date.now()` -/
def dateNow : M ℕ := Prog.perform KvOp.now

/-- Sign a text with the key of the Router. -/
def signHex (site : Site) (key message : JString) : M JString :=
  Prog.perform (KvOp.call (Service.sign site key message))

/-- `POST <url>/create` -/
def createAt (url : JString) (body : CreateBody) : M Created :=
  Prog.perform (KvOp.call (Service.create url body))

/-- `GET <url>/exists` -/
def existsAt (url mailboxId : JString) : M Bool :=
  Prog.perform (KvOp.call (Service.exists_ url mailboxId))

/-! ## The outside -/

/-- The `/create` requests that the Router made, those that shards accepted, and
    the texts that the Router signed, the last ones first. -/
structure World where
  posted : List (JString × CreateBody) := []
  created : List (JString × CreateBody) := []
  signed : List (Site × JString) := []

/-- The shard at `url` holds the mailbox. -/
def World.holds (w : World) (url mailboxId : JString) : Bool :=
  w.created.any fun p => p.1 == url && p.2.mailboxId == mailboxId

/-- The answers of the services: shards that answer `/create` as `answer` says
    and `/exists` truthfully, and never lose a mailbox. -/
def services (c : Crypto) (answer : JString → CreateBody → Created) :
    Prog.Handler Service Service.Res World
  | .sign site key message, w =>
    (some (c.signHex key message), { w with signed := (site, message) :: w.signed })
  | .create url body, w =>
    (some (answer url body),
      { w with
        posted := (url, body) :: w.posted
        created := if (answer url body).ok then (url, body) :: w.created else w.created })
  | .exists_ url mailboxId, w => (some (w.holds url mailboxId), w)

/-- The store of the Router. -/
abbrev Kv := Store Key Val

end Router
