/-
  Self-registration of shards: `/pow_challenge`, `/register_shard` and
  `/rotate_shard_key`.

  A handler tests the fields of its request (`…Fields`), asks whether the
  request may pass (`…Gate`: rate limit, proof of work and signatures), and
  then rewrites the list of registered shards.

  * `upsert` and `replaceKey` are the two ways in which the list is rewritten.
-/
import NexTalkRelay.Router.Config

open Effect Js

namespace Router

/-- The refusal of a body that is not JSON. -/
def notJson : Response := jsonErr (js "Request body must be valid JSON") 400

/-- A non-empty string field. -/
def strField (v : Option Json) : Option JString := (Json.asStr? v).filter fun s => !s.isEmpty

/-- The bytes of a signature; what is no string has none. -/
def sigBytes (sigHex : Tested (HexStr 128 128)) : Bytes :=
  match sigHex.str? with
  | some s => hexPairs s.1
  | none => []

/-- Check a hexadecimal signature. -/
def verifyEd25519 (c : Crypto) (pubkeyHex : HexStr 64 64) (message : JString)
    (sigHex : Tested (HexStr 128 128)) : Bool :=
  c.verify (hexPairs pubkeyHex.1) (sigBytes sigHex) (encode message)

/-- The address that a request comes from. -/
def clientIp (ip : Option JString) : JString :=
  match ip with
  | some (c :: s) => c :: s
  | _ => js "unknown"

/-- The refusal of a Router without a store for its configuration. -/
def noAdminKv : Response :=
  jsonErr (js "shard self-registration is disabled on this Router (no ROUTER_ADMIN_KV bound)") 501

/-! ## `GET /pow_challenge` -/

/-- A request for a challenge, with the random bytes of its nonce. -/
structure ChallengeRequest where
  ip : Option JString
  nonce : Bytes

/-- `GET /pow_challenge` -/
def handlePowChallenge (env : Env) (rq : ChallengeRequest) : M Response := do
  if !env.adminKv then return noAdminKv
  else if !(← adminRateLimit env (js "pow-challenge-ip:" ++ clientIp rq.ip) 30 3600) then
    return jsonErr (js "too many challenge requests, slow down") 429
  else
    let nonce := bytesToHex rq.nonce
    let difficulty := env.shardPowDifficultyBits
    let now ← dateNow
    let expiresAt := now + 120 * 1000
    let stored : Challenge :=
      { difficulty := if difficulty.isFinite then .num difficulty else .null, expiresAt }
    kvPutFor (.powNonce nonce) stored 125
    return jsonOk (.challenge nonce difficulty expiresAt)

/-! ## `POST /register_shard` -/

/-- A request to `/register_shard`. -/
structure RegisterShardRequest where
  ip : Option JString
  body : Option Json

/-- What `/register_shard` reads from its body. -/
structure RegisterShardFields where
  shardUrl : JString
  shardPubkey : Tested (HexStr 64 64)
  nonce : JString
  solution : JString
  timestamp : Tested DigitStr
  signature : Tested (HexStr 128 128)

/-- The checks of the body of `/register_shard`, in their order. -/
def registerShardFields (body : Option Json) : Check Response RegisterShardFields := do
  let body ← Check.orAnswer body notJson
  let shardUrl ← Check.orAnswer
    ((strField (body.field (js "shard_url"))).filter fun s => isHttpUrl s)
    (jsonErr (js "shard_url must be a valid http(s) URL") 400)
  let shardPubkey ← testedField (HexStr.parse 64 64) (body.field (js "shard_pubkey"))
    (jsonErr (js "shard_pubkey must be 64-char hex") 400)
  let nonce ← Check.orAnswer (strField (body.field (js "nonce")))
    (jsonErr (js "nonce is required") 400)
  let solution ← Check.orAnswer (strField (body.field (js "solution")))
    (jsonErr (js "solution is required") 400)
  let timestamp ← testedField DigitStr.parse (body.field (js "timestamp"))
    (jsonErr (js "timestamp required") 400)
  let signature ← testedField (HexStr.parse 128 128) (body.field (js "signature"))
    (jsonErr (js "signature must be 128-char hex") 400)
  return { shardUrl, shardPubkey, nonce, solution, timestamp, signature }

theorem strField_eq_some {v : Option Json} {s : JString} :
    strField v = some s ↔ v = some (.str s) ∧ s ≠ [] := by
  unfold strField Json.asStr?
  split
  · simp [Option.filter_eq_some_iff]
  · next hv => simpa using fun h => absurd h (hv s)

/-- What the checks of a registration ask for. -/
theorem registerShardFields_eq_ok {body : Json} {f : RegisterShardFields} :
    registerShardFields (some body) = .ok f ↔
      (body.field (js "shard_url") = some (.str f.shardUrl) ∧ isHttpUrl f.shardUrl = true) ∧
      testedField (HexStr.parse 64 64) (body.field (js "shard_pubkey"))
        (jsonErr (js "shard_pubkey must be 64-char hex") 400) = .ok f.shardPubkey ∧
      (body.field (js "nonce") = some (.str f.nonce) ∧ f.nonce ≠ []) ∧
      (body.field (js "solution") = some (.str f.solution) ∧ f.solution ≠ []) ∧
      testedField DigitStr.parse (body.field (js "timestamp"))
        (jsonErr (js "timestamp required") 400) = .ok f.timestamp ∧
      testedField (HexStr.parse 128 128) (body.field (js "signature"))
        (jsonErr (js "signature must be 128-char hex") 400) = .ok f.signature := by
  unfold registerShardFields
  constructor
  · intro h
    obtain ⟨_, ⟨⟩, h⟩ := Check.orAnswer_bind.1 h
    obtain ⟨url, hurl, h⟩ := Check.orAnswer_bind.1 h
    obtain ⟨pk, hpk, h⟩ := Check.bind_eq_ok.1 h
    obtain ⟨nonce, hnonce, h⟩ := Check.orAnswer_bind.1 h
    obtain ⟨solution, hsolution, h⟩ := Check.orAnswer_bind.1 h
    obtain ⟨ts, hts, h⟩ := Check.bind_eq_ok.1 h
    obtain ⟨signature, hsignature, ⟨⟩⟩ := Check.bind_eq_ok.1 h
    obtain ⟨hurl, hhttp⟩ := Option.filter_eq_some_iff.1 hurl
    exact ⟨⟨(strField_eq_some.1 hurl).1, hhttp⟩, hpk, strField_eq_some.1 hnonce,
      strField_eq_some.1 hsolution, hts, hsignature⟩
  · rintro ⟨⟨hurl, hhttp⟩, hpk, hnonce, hsolution, hts, hsignature⟩
    have hne : f.shardUrl ≠ [] := by
      intro h
      rw [h] at hhttp
      cases hhttp
    refine Check.orAnswer_bind.2 ⟨body, rfl, Check.orAnswer_bind.2 ⟨_,
      Option.filter_eq_some_iff.2 ⟨strField_eq_some.2 ⟨hurl, hne⟩, hhttp⟩, ?_⟩⟩
    refine Check.bind_eq_ok.2 ⟨_, hpk, Check.orAnswer_bind.2 ⟨_, strField_eq_some.2 hnonce, ?_⟩⟩
    refine Check.orAnswer_bind.2 ⟨_, strField_eq_some.2 hsolution, ?_⟩
    exact Check.bind_eq_ok.2 ⟨_, hts, Check.bind_eq_ok.2 ⟨_, hsignature, rfl⟩⟩

/-- `sha256(nonce:shard_url:solution)` has fewer leading zero bits than asked
    for; a difficulty that is `null` counts as zero. -/
def powFails (c : Crypto) (f : RegisterShardFields) (challenge : Challenge) : Bool :=
  let powDigest := c.sha256 (encode (f.nonce ++ js ":" ++ f.shardUrl ++ js ":" ++ f.solution))
  (Number.ofInt (leadingZeroBits powDigest.1)).lt (challenge.difficulty.toNumber.getD .nan)

/-- What the shard has signed. -/
def registerShardMessage (f : RegisterShardFields) (shardPubkey : HexStr 64 64) : JString :=
  js "register_shard:" ++ f.shardUrl ++ js ":" ++ shardPubkey.lower ++ js ":" ++ f.timestamp.val.1

/-- The bucket of the address of a registration. -/
def registerBucket (ip : Option JString) : JString := js "register-shard-ip:" ++ clientIp ip

/-- The checks that need the store: rate, challenge, work, instant and signature. -/
def registerShardGate (env : Env) (ip : Option JString) (f : RegisterShardFields) :
    M (Option Response) := do
  if !(← adminRateLimit env (registerBucket ip) 6 3600) then
    return some (jsonErr (js "too many shard registration attempts from this IP, slow down") 429)
  else match ← kvGet (.powNonce f.nonce) with
    | none => return some (jsonErr
        (js "unknown, expired, or already-used nonce — request a fresh /pow_challenge") 401)
    | some challenge =>
      let now ← dateNow
      if challenge.expiresAt < now then return some (jsonErr (js "PoW challenge expired") 401)
      else if powFails env.crypto f challenge then
        return some (jsonErr (js "proof-of-work does not meet required difficulty") 401)
      else
        kvDelete (.powNonce f.nonce)
        let now ← dateNow
        if (Number.ofInt 60000).lt (clockSkew now f.timestamp.val) then
          return some (jsonErr (js "timestamp outside allowed skew") 401)
        else match f.shardPubkey.str? with
          | none => .throw
          | some shardPubkey =>
            if !verifyEd25519 env.crypto shardPubkey (registerShardMessage f shardPubkey) f.signature
            then return some (jsonErr (js "self-signature verification failed") 401)
            else return none

/-- The list with a new record, or with a new key in the records of the URL. -/
def upsert (existing : List Registered) (url pubkey : JString) (now : ℕ) : List Registered :=
  if existing.any fun s => s.url == url then
    existing.map fun s =>
      if s.url = url then { url, pubkey, registeredAt := s.registeredAt, updatedAt := some now } else s
  else existing ++ [{ url, pubkey, registeredAt := now }]

/-- Write the list of registered shards and count up the version of the table. -/
def putRegistered (env : Env) (updated : List Registered) : M Number := do
  kvPut .registeredShards updated
  let currentVersion ← getRoutingTableVersion env
  kvPut .routingTableVersion (currentVersion.add (.ofInt 1)).text
  return currentVersion.add (.ofInt 1)

/-- The mesh has room for the URL. -/
def roomFor (env : Env) (existing : List Registered) (url : JString) : Bool :=
  (existing.any fun s => s.url == url) || !env.maxRegisteredShards.le (.ofInt existing.length)

/-- Write the shard into the list, if there is room, and count the version up. -/
def registerShard (env : Env) (f : RegisterShardFields) : M Response := do
  let existing ← getRegisteredShards env
  if !roomFor env existing f.shardUrl then
    return jsonErr (js "mesh is at capacity (" ++ env.maxRegisteredShards.text ++
      js " shards) — contact the Router operator") 403
  else match f.shardPubkey.str? with
    | none => .throw
    | some shardPubkey =>
      let now ← dateNow
      let updated := upsert existing f.shardUrl shardPubkey.lower now
      let tableVersion ← putRegistered env updated
      return jsonOk (.shardRegistered f.shardUrl updated.length tableVersion)

/-- `POST /register_shard` -/
def handleRegisterShard (env : Env) (rq : RegisterShardRequest) : M Response :=
  if !env.adminKv then return noAdminKv
  else guarded (registerShardFields rq.body) fun f =>
    gated (registerShardGate env rq.ip f) (registerShard env f)

/-! ## `POST /rotate_shard_key` -/

/-- What `/rotate_shard_key` reads from its body. -/
structure RotateFields where
  shardUrl : JString
  oldPubkey : HexStr 64 64
  newPubkey : HexStr 64 64
  timestamp : Tested DigitStr
  oldSig : Tested (HexStr 128 128)
  newSig : Tested (HexStr 128 128)

/-- The checks of the body of `/rotate_shard_key`, in their order. -/
def rotateFields (body : Option Json) : Check Response RotateFields := do
  let body ← Check.orAnswer body notJson
  let shardUrl ← Check.orAnswer
    ((strField (body.field (js "shard_url"))).filter fun s => isHttpUrl s)
    (jsonErr (js "shard_url must be a valid http(s) URL") 400)
  let oldPubkey ← testedField (HexStr.parse 64 64) (body.field (js "old_pubkey"))
    (jsonErr (js "old_pubkey must be 64-char hex") 400)
  let newPubkey ← testedField (HexStr.parse 64 64) (body.field (js "new_pubkey"))
    (jsonErr (js "new_pubkey must be 64-char hex") 400)
  let oldPubkey ← Check.orCrash oldPubkey.str?
  let newPubkey ← Check.orCrash newPubkey.str?
  Check.require (oldPubkey.lower != newPubkey.lower)
    (jsonErr (js "new_pubkey must differ from old_pubkey") 400)
  let timestamp ← testedField DigitStr.parse (body.field (js "timestamp"))
    (jsonErr (js "timestamp required") 400)
  let oldSig ← testedField (HexStr.parse 128 128) (body.field (js "old_signature"))
    (jsonErr (js "old_signature must be 128-char hex") 400)
  let newSig ← testedField (HexStr.parse 128 128) (body.field (js "new_signature"))
    (jsonErr (js "new_signature must be 128-char hex") 400)
  return { shardUrl, oldPubkey, newPubkey, timestamp, oldSig, newSig }

/-- The text that a key signs for a rotation, under the given purpose. -/
def rotationMessage (purpose : JString) (f : RotateFields) : JString :=
  purpose ++ js ":" ++ f.shardUrl ++ js ":" ++ f.oldPubkey.lower ++ js ":" ++ f.newPubkey.lower ++
    js ":" ++ f.timestamp.val.1

/-- What the old key signs. -/
def migrationMsg (f : RotateFields) : JString := rotationMessage (js "key_rotation") f

/-- What the new key signs. -/
def acceptMsg (f : RotateFields) : JString := rotationMessage (js "key_rotation_accept") f

/-- The list with the new key in the records of the URL. -/
def replaceKey (existing : List Registered) (f : RotateFields) (now : ℕ) : List Registered :=
  existing.map fun s =>
    if s.url = f.shardUrl then
      { url := f.shardUrl, pubkey := f.newPubkey.lower, registeredAt := s.registeredAt
        updatedAt := some now, previousPubkey := some f.oldPubkey.lower }
    else s

/-- Replace the key of a registered shard, if both keys have signed. -/
def rotateShardKey (env : Env) (f : RotateFields) : M Response := do
  let now ← dateNow
  if (Number.ofInt 60000).lt (clockSkew now f.timestamp.val) then
    return jsonErr (js "timestamp outside allowed skew") 401
  else
    let existing ← getRegisteredShards env
    match existing.find? fun s => s.url == f.shardUrl with
    | none => return jsonErr (js "shard not found in registered shards") 404
    | some record =>
      if toLowerCase record.pubkey ≠ f.oldPubkey.lower then
        return jsonErr (js "old_pubkey does not match current shard identity") 401
      else if !verifyEd25519 env.crypto f.oldPubkey (migrationMsg f) f.oldSig then
        return jsonErr (js "old key signature verification failed") 401
      else if !verifyEd25519 env.crypto f.newPubkey (acceptMsg f) f.newSig then
        return jsonErr (js "new key self-signature verification failed") 401
      else
        let now ← dateNow
        let tableVersion ← putRegistered env (replaceKey existing f now)
        return jsonOk (.rotated f.shardUrl f.newPubkey.lower tableVersion)

/-- `POST /rotate_shard_key` -/
def handleRotateShardKey (env : Env) (body : Option Json) : M Response :=
  if !env.adminKv then return jsonErr (js "shard key rotation requires ROUTER_ADMIN_KV") 501
  else guarded (rotateFields body) fun f => rotateShardKey env f

end Router
