/-
  What the handlers of a shard share: capabilities, sender authentication with
  replay protection, rate limits, the shape of a message, and signed responses.

  * `constantTimeEqual_iff`: the padded comparison is equality of the bytes;
  * `verifySenderAuth` answers `none` when the sender is authentic, and an
    error text otherwise;
-/
import Mathlib.Data.Nat.Bitwise
import NexTalkRelay.Shard.Types

open Effect Js

namespace Shard

/-! ## Encoding helpers -/

/-- `hexToBytes`; an odd length throws. -/
def hexToBytes (hex : JString) : Option Bytes :=
  if hex.length % 2 ≠ 0 then none else some (hexPairs hex)

theorem hexToBytes_bytesToHex (bytes : Bytes) : hexToBytes (bytesToHex bytes) = some bytes := by
  unfold hexToBytes
  rw [length_bytesToHex, hexPairs_bytesToHex, if_neg (by omega)]

/-- The bytes padded by zeros to the length `len`. -/
def padTo (len : ℕ) (b : Bytes) : Bytes := b ++ List.replicate (len - b.length) 0

/-- `constantTimeEqual`: the two texts as bytes, padded to one length. -/
def constantTimeEqual (a b : JString) : Bool :=
  let aBytes := encode a
  let bBytes := encode b
  let len := max (max aBytes.length bBytes.length) 32
  let diff := (List.zip (padTo len aBytes) (padTo len bBytes)).foldl
    (fun d p => d ||| (p.1 ^^^ p.2).toNat) (aBytes.length ^^^ bBytes.length)
  diff == 0

theorem foldl_or_eq_zero (ps : List (UInt8 × UInt8)) (d : ℕ) :
    ps.foldl (fun d p => d ||| (p.1 ^^^ p.2).toNat) d = 0 ↔ d = 0 ∧ ∀ p ∈ ps, p.1 = p.2 := by
  induction ps generalizing d with
  | nil => simp
  | cons p ps ih =>
    rw [List.foldl_cons, ih, Nat.or_eq_zero_iff]
    simp only [List.forall_mem_cons, and_assoc]
    have : (p.1 ^^^ p.2).toNat = 0 ↔ p.1 = p.2 := by
      rw [← UInt8.toNat_zero, UInt8.toNat_inj, UInt8.xor_eq_zero_iff]
    rw [this]

theorem eq_of_zip {a b : Bytes} (hl : a.length = b.length) (h : ∀ p ∈ a.zip b, p.1 = p.2) :
    a = b := by
  induction a generalizing b with
  | nil => exact (List.eq_nil_of_length_eq_zero hl.symm).symm
  | cons x a ih =>
    cases b with
    | nil => cases hl
    | cons y b =>
      rw [List.zip_cons_cons, List.forall_mem_cons] at h
      exact congrArg₂ List.cons h.1 (ih (Nat.succ.inj hl) h.2)

/-- **The padded comparison is equality of the encoded texts.** -/
theorem constantTimeEqual_iff {a b : JString} :
    constantTimeEqual a b = true ↔ encode a = encode b := by
  simp only [constantTimeEqual, beq_iff_eq, foldl_or_eq_zero, Nat.xor_eq_zero_iff]
  constructor
  · rintro ⟨hl, hz⟩
    have hpad := eq_of_zip (by simp [padTo, hl]) hz
    exact (List.append_inj hpad hl).1
  · intro h
    refine ⟨congrArg List.length h, fun p hp => ?_⟩
    rw [h] at hp
    obtain ⟨i, hi, rfl⟩ := List.getElem_of_mem hp
    simp

/-! ## Capabilities -/

/-- `verifyEd25519Message`; what cannot be decoded does not verify. -/
def verifyEd25519Message (c : Crypto) (pubkeyHex signedMessage sigHex : JString) : Bool :=
  match hexToBytes pubkeyHex, hexToBytes sigHex with
  | some pubkeyBytes, some sigBytes => c.verify pubkeyBytes sigBytes (encode signedMessage)
  | _, _ => false

/-- The text of a capability of the first format. -/
def capText (mailboxId readSecretHash : JString) (capExp : Number) : JString :=
  js "cap:" ++ mailboxId ++ js ":" ++ readSecretHash ++ js ":" ++ capExp.text

/-- The text of a capability of the second format. -/
def capTextV2 (mailboxId clientPubkey scope : JString) (capExp : Number) (nonce : JString) : JString :=
  js "cap:v2:" ++ mailboxId ++ js ":" ++ clientPubkey ++ js ":" ++ scope ++ js ":" ++ capExp.text ++
    js ":" ++ nonce

/-- `verifyCapability`, the first form: mailbox, hash and expiry. -/
def verifyCapability (env : Env) (mailboxId readSecretHash : JString) (capExp : Number)
    (capSig : JString) : M Bool := do
  let now ← dateNow
  if capExp.lt (.ofInt now) then return false
  return verifyEd25519Message env.crypto env.routerSigningPublic
    (capText mailboxId readSecretHash capExp) capSig

/-- `clientPubkey` is empty where `clientPubkey.toLowerCase()` throws. -/
def verifyCapabilityV2 (env : Env) (mailboxId : JString) (clientPubkey : Option (HexStr 64 64))
    (scope : JString) (capExp : Number) (nonce capSig : JString) : M Bool := do
  let now ← dateNow
  if capExp.lt (.ofInt now) then return false
  match clientPubkey with
  | none => .throw
  | some clientPubkey =>
    return verifyEd25519Message env.crypto env.routerSigningPublic
      (capTextV2 mailboxId clientPubkey.lower scope capExp nonce) capSig

/-! ## Sender authentication -/

/-- A field of a destructured object; missing and null objects have none. -/
def fieldOf (v : Option Json) (key : String) : Option Json := v.bind fun v => v.field (js key)

/-- The key under which a verified request is remembered. -/
@[reducible] def replayKey (c : Crypto) (pubkey : HexStr 64 64) (timestamp : DigitStr)
    (signature : HexStr 128 128) : Key :=
  .replay (c.sha256 (encode (pubkey.lower ++ js ":" ++ timestamp.1 ++ js ":" ++ signature.lower)))

/-- The lifetime of a replay entry in seconds. -/
def replayTtl (maxSkewMs : Number) : Number := (Number.ofInt 60).max maxSkewMs.divThousand.ceil

/-- The three fields of `sender`, or the text of the first error. -/
def authFields (auth : Option Json) :
    Except JString (HexStr 64 64 × DigitStr × HexStr 128 128) :=
  match hexField 64 64 (fieldOf auth "pubkey") with
  | none => .error (js "sender.pubkey must be a 64-char lowercase hex Ed25519 public key")
  | some pubkey =>
    match (Json.asStr? (fieldOf auth "timestamp")).bind DigitStr.parse with
    | none => .error (js "sender.timestamp must be a unix millisecond timestamp string")
    | some timestamp =>
      match hexField 128 128 (fieldOf auth "signature") with
      | none => .error (js "sender.signature must be a 128-char lowercase hex Ed25519 signature")
      | some signature => .ok (pubkey, timestamp, signature)

/-- `verifySenderAuth`: why the sender is refused, if it is. -/
def verifySenderAuth (env : Env) (auth : Option Json) (maxSkewMs : Number) (signedMessage : JString) :
    M (Option JString) :=
  match authFields auth with
  | .error e => return some e
  | .ok (pubkey, timestamp, signature) => do
    let now ← dateNow
    if maxSkewMs.lt (clockSkew now timestamp) then
      return some (js "timestamp is outside the ±" ++ maxSkewMs.text ++
        js "ms window (clock skew or replay)")
    else
      let key := replayKey env.crypto pubkey timestamp signature
      let alreadySeen ← kvGet key
      if alreadySeen.isSome then return some (js "request already used (replay detected)")
      else if !verifyEd25519Message env.crypto pubkey.1 signedMessage signature.1 then
        return some (js "signature verification failed")
      else do
        kvPut key () (replayTtl maxSkewMs)
        return none

/-! ## Rate limits -/

/-- Count a request of the bucket; the answer is whether it is allowed. -/
def rateLimit (bucketKey : JString) (limit : Number) (windowSeconds : ℕ) : M Bool := do
  let now ← dateNow
  let key := Key.rl bucketKey (now / (windowSeconds * 1000))
  let current := (← kvGet key).getD 0
  if limit.le (.ofInt (current : ℕ)) then return false
  else do
    kvPut key (current + 1 : ℕ) (.ofInt (windowSeconds + 5))
    return true

/-- The address that a request comes from. -/
def clientIp (ip : Option JString) : JString :=
  match ip with
  | some (c :: s) => c :: s
  | _ => js "unknown"

/-! ## The shape of a message -/

/-- `MAX_JSON_DEPTH`. -/
def maxJsonDepth : ℕ := 8

mutual
/-- `jsonDepth(value, depth)` -/
def jsonDepth (value : Json) (depth : ℕ) : ℕ :=
  if maxJsonDepth < depth then depth
  else match value with
    | .arr xs => elemsDepth xs depth depth
    | .obj ps => propsDepth ps depth depth
    | _ => depth

/-- The loop over the elements of an array. -/
def elemsDepth (xs : List Json) (depth max : ℕ) : ℕ :=
  match xs with
  | [] => max
  | x :: xs =>
    let d := jsonDepth x (depth + 1)
    let max := if max < d then d else max
    if maxJsonDepth < max then max else elemsDepth xs depth max

/-- The loop over the values of an object. -/
def propsDepth (ps : List (JString × Json)) (depth max : ℕ) : ℕ :=
  match ps with
  | [] => max
  | p :: ps =>
    let d := jsonDepth p.2 (depth + 1)
    let max := if max < d then d else max
    if maxJsonDepth < max then max else propsDepth ps depth max
end

/-- `ALLOWED_ENVELOPE_TYPES`. -/
def allowedEnvelopeTypes : List JString := [js "offer", js "answer", js "message", js "finish"]

/-- The text of the error in the shape of a message that is JSON. -/
def validateEnvelopeShape (parsed : Json) : Option JString :=
  let depthError : Option JString :=
    if maxJsonDepth < jsonDepth parsed 0 then
      some (js "envelope exceeds max nesting depth (" ++ digits maxJsonDepth ++ js ")")
    else none
  match parsed with
  | .arr _ => depthError
  | .obj _ =>
    match Json.asStr? (parsed.field (js "type")) with
    | some type =>
      if allowedEnvelopeTypes.contains type then depthError
      else some (js "envelope type '" ++ type ++ js "' is not recognized")
    | none => depthError
  | _ => some (js "message must decode to a JSON object")

/-! ## Backlog -/

/-- `isBacklogStale(enqueuedAt, ttlSeconds)` -/
def isBacklogStale (enqueuedAt : Option ℕ) (ttlSeconds : Number) : M Bool :=
  match enqueuedAt with
  | none => return false
  | some enqueuedAt => do
    let now ← dateNow
    return ttlSeconds.le (.ofInt (((now : ℤ) - enqueuedAt) / 1000))

/-! ## Signed responses -/

/-- The shard's key pair; `fresh` is the pair drawn when there is none yet. -/
def ensureShardIdentity (fresh : Identity) : M Identity := do
  match ← kvGet .shardIdentity with
  | some identity => return identity
  | none =>
    kvPutForever .shardIdentity fresh
    return fresh

/-- The JSON of a response body. -/
def Payload.toJson : Payload → Json
  | error message => .obj [(js "error", .str message)]
  | crashed => .obj [(js "error", .str (js "Internal server error: "))]
  | created mailboxId expiresIn isNew =>
    .obj [(js "mailbox_id", .str mailboxId), (js "expires_in", .num expiresIn),
      (js "created", .bool isNew)]
  | exists_ => .obj [(js "exists", .bool true)]
  | sent queued => .obj [(js "success", .bool true), (js "queued", .num (.ofInt queued))]
  | replicated deduped =>
    .obj ((js "replicated", .bool true) :: if deduped then [(js "deduped", .bool true)] else [])
  | read messages createdAt consumed =>
    .obj [(js "messages", .arr (messages.map Entry.json)),
      (js "count", .num (.ofInt messages.length)), (js "createdAt", .num (.ofInt createdAt)),
      (js "consumed", .bool consumed)]
  | cached version =>
    .obj ((js "cached", .bool true) :: match version with
      | some v => [(js "version", v)]
      | none => [])
  | table t => t

/-- `json(buildShardSignedResponse(env, requestId, 200, body))` -/
def buildShardSignedResponse (env : Env) (fresh : Identity) (requestId : JString) (body : Payload) :
    M Response := do
  let identity ← ensureShardIdentity fresh
  let timestamp := (Number.ofInt (← dateNow)).text
  let bodyHash := env.crypto.sha256Hex body.toJson.stringify
  let signedData := requestId ++ js ":" ++ js "200" ++ js ":" ++ timestamp ++ js ":" ++ bodyHash
  let signature ← signWithShardKey identity.privateKeyPkcs8Base64 signedData
  return { json body with
    envelope := some { requestId, timestamp, bodyHash, serverPublicKey := identity.publicKeyHex,
                       signature } }

end Shard
