/-
  The combined worker as one of its own replicas.

  When a replica of a mailbox is the worker itself, it does not call its own
  `/create` and `/exists`: it parses the body it would have sent and goes to the
  store.

  * `localCreateText` is the shortcut on the values of the parsed body, and
    `createOnReplica` and `existsOnReplica` the replica calls to the worker's own
    URL;
  * `createFields_createBody`: what `/create` reads from such a body;
  * `shortcut_is_network`: both ways report the same, and leave the same
    mailboxes.
-/
import NexTalkRelay.Js.Wire
import NexTalkRelay.Router.Placement
import NexTalkRelay.Combined.DropIn

open Effect Js Shard

namespace Combined

/-! ## The shortcut -/

/-- The client of the options; an empty one counts as none. -/
def clientOf (v2opts : Option (JString × JString)) : Option JString :=
  (v2opts.filter fun o => !o.1.isEmpty).map fun o => toLowerCase o.1

section
variable (env : Shard.Env) (mailboxId readSecretHash : JString) (capExp : Number)
  (capSig : JString) (replicas : List JString) (v2opts : Option (JString × JString))

/-- The Router's signature on the capability verifies; `v2opts` has the client
    and the nonce of one of the second format. -/
def localCapOkText : Shard.M Bool := do
  let now ← dateNow
  if capExp.lt (.ofInt now) then return false
  return verifyEd25519Message env.crypto env.routerSigningPublic
    (match v2opts with
      | some (clientPubkey, capNonce) =>
        capTextV2 (toLowerCase mailboxId) (toLowerCase clientPubkey) (js "mailbox.create") capExp
          capNonce
      | none => capText (toLowerCase mailboxId) (toLowerCase readSecretHash) capExp) capSig

/-- Write the record; the answer is whether it is new. -/
def localRecordText : Shard.M Bool := do
  match ← kvGet (.mailbox (toLowerCase mailboxId)) with
  | some stored =>
    putMailbox env (toLowerCase mailboxId) { stored with
      readSecretHash := toLowerCase readSecretHash
      clientPubkey := match clientOf v2opts with
        | some pk => some pk
        | none => stored.clientPubkey
      replicaShardUrls :=
        if replicas.isEmpty then stored.replicaShardUrls else .arr (replicas.map .str) }
    return false
  | none =>
    let now ← dateNow
    putMailbox env (toLowerCase mailboxId)
      { readSecretHash := toLowerCase readSecretHash
        clientPubkey := clientOf v2opts
        messages := []
        createdAt := now
        messagesEnqueuedAt := none
        replicaShardUrls := .arr (replicas.map .str) }
    return true

/-- `localCreate` on the values of a body; `none` is a capability that does not
    verify. -/
def localCreateText : Shard.M (Option Bool) := do
  if !(← localCapOkText env mailboxId readSecretHash capExp capSig v2opts) then return none
  else return some (← localRecordText env mailboxId readSecretHash replicas v2opts)

end

/-- `v2opts` of a parsed body. -/
def v2optsText (parsed : Json) : Option (Option (JString × JString)) :=
  match parsed.field (js "cap_version") with
  | some (.num version) =>
    if version = .ofInt 2 then do
      let clientPubkey ← Json.asStr? (parsed.field (js "client_pubkey"))
      let capNonce ← Json.asStr? (parsed.field (js "cap_nonce"))
      return some (clientPubkey, capNonce)
    else some none
  | _ => some none

/-- The shortcut; a field that is no string throws, and none of a body of
    `handleRegister` is. -/
def createHere (env : Shard.Env) (createBody : JString) : Shard.M Bool :=
  match Json.parse createBody with
  | none => .throw
  | some parsed =>
    let text (key : String) : Option JString := Json.asStr? (parsed.field (js key))
    match text "mailbox_id", text "read_secret_hash", numberOf (parsed.field (js "cap_exp")),
      text "cap_sig", v2optsText parsed with
    | some mailboxId, some readSecretHash, some capExp, some capSig, some v2opts => do
      let res ← localCreateText env mailboxId readSecretHash capExp capSig
        (safeReplicas (parsed.field (js "replica_shard_urls"))) v2opts
      return res.isSome
    | _, _, _, _, _ => .throw

/-- What the calls to other nodes report: `resp.ok`, or `false` where the call
    fails. -/
structure Peers where
  create : (url body : JString) → Bool
  exists_ : (url mailboxId : JString) → Bool

/-- `resp.ok` -/
def respOk (r : Shard.Response) : Bool := decide (200 ≤ r.status ∧ r.status < 300)

/-- `createOnReplica`: in this worker, or over the network. -/
def createOnReplica (env : Shard.Env) (peers : Peers) (replicaUrl createBody : JString) :
    Shard.M Bool :=
  if env.selfUrl = some replicaUrl then createHere env createBody
  else return peers.create replicaUrl createBody

/-- `existsOnReplica`: in this worker, or over the network. -/
def existsOnReplica (env : Shard.Env) (peers : Peers) (replicaUrl mailboxId : JString) :
    Shard.M Bool := do
  if env.selfUrl = some replicaUrl then
    return (← kvGet (.mailbox (toLowerCase mailboxId))).isSome
  else return peers.exists_ replicaUrl mailboxId

/-- On fields that passed the checks of `/create`, this is its `localCreate`. -/
theorem localCreateText_eq (env : Shard.Env) (f : CreateFields) (o : Option V2Opts) :
    localCreateText env f.mailboxId.1 f.readSecretHash.1 f.capExp f.capSig f.replicas
      (o.map fun o => (o.clientPubkey.1, o.capNonce)) = localCreate env f o := by
  have hclient : clientOf (o.map fun o => (o.clientPubkey.1, o.capNonce)) =
      o.map fun o => o.clientPubkey.lower := by
    cases o with
    | none => rfl
    | some o =>
      have hlen := (isHexOf_iff.1 o.clientPubkey.2).1
      have hne : o.clientPubkey.1 ≠ [] := by
        intro h
        rw [h] at hlen
        cases hlen
      simp [clientOf, hne, HexStr.lower]
  have hcap : localCapOkText env f.mailboxId.1 f.readSecretHash.1 f.capExp f.capSig
      (o.map fun o => (o.clientPubkey.1, o.capNonce)) = localCapOk env f o := by
    cases o <;> rfl
  have hrecord : localRecordText env f.mailboxId.1 f.readSecretHash.1 f.replicas
      (o.map fun o => (o.clientPubkey.1, o.capNonce)) = localRecord env f o := by
    unfold localRecordText localRecord
    rw [hclient]
    refine congrArg (Prog.op _) (funext fun found => ?_)
    cases found <;> cases o <;> rfl
  unfold localCreateText localCreate
  rw [hcap, hrecord]

/-! ## The body of a registration -/

section
variable (renv : Router.Env) (t₀ : ℕ) (reg : Router.RegisterRequest) (pubkey : HexStr 64 64)
  (replicas : List JString)

theorem isHexOf_mailboxIdOf : isHexOf 16 128 (Router.mailboxIdOf renv pubkey) = true := by
  have hhex : isHexOf 64 64 (Router.mailboxIdOf renv pubkey) = true :=
    renv.crypto.isHexOf_hmacHex _ _
  obtain ⟨hlo, hhi, hhex⟩ := isHexOf_iff.1 hhex
  exact isHexOf_iff.2 ⟨by omega, by omega, hhex⟩

theorem isHexOf_secretHash :
    isHexOf 64 64 (renv.crypto.sha256Hex (bytesToHex reg.readSecret)) = true :=
  renv.crypto.isHexOf_sha256Hex _

theorem isHexOf_pubkey : isHexOf 64 64 pubkey.lower = true := pubkey.isHexOf_lower

/-- What `/create` reads from the body that `handleRegister` builds. -/
def bodyFields : CreateFields where
  mailboxId := ⟨Router.mailboxIdOf renv pubkey, isHexOf_mailboxIdOf renv pubkey⟩
  readSecretHash := ⟨renv.crypto.sha256Hex (bytesToHex reg.readSecret),
    isHexOf_secretHash renv reg⟩
  capExp := .ofInt (t₀ + 31536000 * 1000 : ℕ)
  capSig := (Router.createBody renv t₀ reg pubkey replicas).capSig
  cap := .v2 { val := ⟨pubkey.lower, isHexOf_pubkey pubkey⟩, isString := true }
    (bytesToHex reg.capNonce)
  replicas := replicas

/-- The text of the body that `handleRegister` builds. -/
def bodyText : JString := (Router.createBody renv t₀ reg pubkey replicas).toJson.stringify

variable {renv t₀ reg pubkey replicas}

theorem bodyKeys_spec : [js "mailbox_id", js "read_secret_hash", js "cap_exp", js "cap_sig",
      js "replica_shard_urls", js "cap_version", js "client_pubkey", js "cap_nonce"].Nodup ∧
    ∀ k ∈ [js "mailbox_id", js "read_secret_hash", js "cap_exp", js "cap_sig",
      js "replica_shard_urls", js "cap_version", js "client_pubkey", js "cap_nonce"],
      Json.isIndex k = false := by decide

theorem proper_createBody (b : Router.CreateBody) : b.toJson.Proper := by
  refine .obj bodyKeys_spec.1 fun p hp => ?_
  simp only [List.mem_cons, List.not_mem_nil, or_false] at hp
  rcases hp with rfl | rfl | rfl | rfl | rfl | rfl | rfl | rfl
  · exact .str _
  · exact .str _
  · exact .num _
  · exact .str _
  · refine .arr fun x hx => ?_
    obtain ⟨url, -, rfl⟩ := List.mem_map.1 hx
    exact .str url
  · exact .num _
  · exact .str _
  · exact .str _

theorem canon_createBody (b : Router.CreateBody) : b.toJson.canon = b.toJson := by
  have hshards : (Json.arr (b.replicaShardUrls.map .str)).canon =
      .arr (b.replicaShardUrls.map .str) := by
    rw [Json.canon_arr, List.map_map]
    rfl
  unfold Router.CreateBody.toJson
  rw [Json.canon_named fun p hp => bodyKeys_spec.2 p.1 (List.mem_map_of_mem hp)]
  simp only [List.map_cons, List.map_nil, hshards]
  rfl

/-- The body is read as it was written, here and over the network. -/
theorem parse_bodyText : Json.parse (bodyText renv t₀ reg pubkey replicas) =
    some (Router.createBody renv t₀ reg pubkey replicas).toJson := by
  rw [bodyText, Json.parse_stringify (proper_createBody _), canon_createBody]

theorem received_bodyText : Json.received (bodyText renv t₀ reg pubkey replicas) =
    some (Router.createBody renv t₀ reg pubkey replicas).toJson := by
  rw [bodyText, Json.received_stringify (proper_createBody _), canon_createBody]

theorem safeReplicas_strings (urls : List JString) :
    safeReplicas (some (.arr (urls.map .str))) = urls := by
  unfold safeReplicas Json.asArr?
  dsimp only
  rw [List.filterMap_map]
  exact List.filterMap_some

theorem truthy_ofInt {n : ℕ} (hn : 0 < n) : Json.truthy (some (.num (.ofInt n))) = true := by
  have hval : (Dec.ofDigits n 0).val ≠ 0 := by
    rw [Dec.val_ofDigits]
    simpa using hn.ne'
  have hmant : (Dec.ofDigits n 0).mant ≠ 0 := fun h => hval (Dec.val_eq_zero.2 h)
  simpa [Json.truthy, Number.truthy, Number.ofInt] using hmant

/-- The body passes the checks of `/create`. -/
theorem createFields_createBody (hnonce : reg.capNonce ≠ []) :
    createFields (some (Router.createBody renv t₀ reg pubkey replicas).toJson) =
      .ok (bodyFields renv t₀ reg pubkey replicas) := by
  have hsig : (Router.createBody renv t₀ reg pubkey replicas).capSig ≠ [] :=
    HexStr.ne_nil (by decide : 0 < 128) (⟨_, renv.crypto.isHexOf_signHex _ _⟩ : HexStr 128 128)
  have hfilled {s : JString} (hs : s ≠ []) : strField (some (.str s)) = some s :=
    Option.filter_eq_some_iff.2 ⟨rfl, by simpa using hs⟩
  have hpk : testedField (HexStr.parse 64 64) (some (.str pubkey.lower))
      (err (js "client_pubkey must be 64-char hex for v2 capability")) =
        .ok { val := ⟨pubkey.lower, isHexOf_pubkey pubkey⟩, isString := true } :=
    testedField_hex (by decide) ⟨pubkey.lower, pubkey.isHexOf_lower⟩ _
  have hnonce' : bytesToHex reg.capNonce ≠ [] := by
    intro h
    have hlen := length_bytesToHex reg.capNonce
    rw [h] at hlen
    exact hnonce (List.eq_nil_of_length_eq_zero (by simpa using hlen.symm))
  simp only [createFields, Check.orAnswer_bind, Check.orCrash_bind, Check.require_bind]
  refine ⟨_, rfl, ⟨Router.mailboxIdOf renv pubkey, isHexOf_mailboxIdOf renv pubkey⟩,
    hexField_eq_some.2 rfl, ⟨renv.crypto.sha256Hex (bytesToHex reg.readSecret),
      renv.crypto.isHexOf_sha256Hex _⟩, hexField_eq_some.2 rfl,
    @truthy_ofInt (t₀ + 31536000 * 1000) (by omega), .ofInt (t₀ + 31536000 * 1000 : ℕ), rfl, rfl,
    _, hfilled hsig, .ofInt 2, rfl, ?_⟩
  rw [if_pos rfl]
  refine Check.bind_eq_ok.2 ⟨_, hpk, Check.orAnswer_bind.2 ⟨_, hfilled hnonce', ?_⟩⟩
  rw [show (Router.createBody renv t₀ reg pubkey replicas).toJson.field (js "replica_shard_urls") =
    some (.arr (replicas.map .str)) from rfl, safeReplicas_strings]
  rfl

end

/-! ## What the shortcut does -/

section
variable {env : Shard.Env} {t : ℕ} {f : CreateFields} {o : Option V2Opts} {life : ℤ} (kv : Kv)
  (log : List Service)

theorem localCapOk_run (ho : v2opts f = some o) :
    ∃ ok, (localCapOk env f o).run (KvOp.exec t (services env.crypto)) (kv, log) =
      (some ok, (kv, log)) ∧ (ok = true ↔ Verified env t f) := by
  obtain ⟨r, hrun, hiff⟩ := capOk_run env t kv log f
  rw [← localCapOk_eq ho] at hrun
  cases r with
  | some ok => exact ⟨ok, hrun, by simpa using hiff⟩
  | none =>
    -- with its options at hand the check does not throw
    cases o <;>
    · simp only [localCapOk, verifyCapability, verifyCapabilityV2, dateNow, Prog.bind_eq,
        Prog.perform_bind, KvOp.run_now] at hrun
      split at hrun <;> cases hrun

/-- A capability that does not verify is refused. -/
theorem localCreate_refused (ho : v2opts f = some o) (hv : ¬ Verified env t f) :
    (localCreate env f o).run (KvOp.exec t (services env.crypto)) (kv, log) =
      (some none, (kv, log)) := by
  obtain ⟨ok, hrun, hiff⟩ := localCapOk_run kv log ho
  cases ok with
  | true => exact absurd (hiff.1 rfl) hv
  | false =>
    unfold localCreate
    rw [Prog.bind_eq, Prog.run_bind_some hrun]
    rfl

/-- The record is written, unless the configured lifetime is no number. -/
theorem localRecord_run (ho : v2opts f = some o) :
    (localRecord env f o).run (KvOp.exec t (services env.crypto)) (kv, log) =
      match env.cfg.mailboxTtlSeconds.toInt? with
      | some life => (some (kv.get t (.mailbox f.mailboxId.lower)).isNone,
          (kv.put t (.mailbox f.mailboxId.lower)
            (f.record (kv.get t (.mailbox f.mailboxId.lower)) t) (some life), log))
      | none => (none, (kv, log)) := by
  simp only [localRecord, kvGet, dateNow, Prog.bind_eq, Prog.perform_bind, KvOp.run_get]
  cases hstored : kv.get t (.mailbox f.mailboxId.lower) with
  | none =>
    rw [CreateFields.record, fresh_eq ho]
    simp only [putMailbox, kvPut, KvOp.run_now]
    cases env.cfg.mailboxTtlSeconds.toInt? <;> rfl
  | some stored =>
    rw [CreateFields.record, refresh_eq stored ho]
    simp only [putMailbox, kvPut]
    cases env.cfg.mailboxTtlSeconds.toInt? <;> rfl

/-- With a verified capability the record is written. -/
theorem localCreate_verified (ho : v2opts f = some o) (hv : Verified env t f) :
    (localCreate env f o).run (KvOp.exec t (services env.crypto)) (kv, log) =
      match env.cfg.mailboxTtlSeconds.toInt? with
      | some life => (some (some (kv.get t (.mailbox f.mailboxId.lower)).isNone),
          (kv.put t (.mailbox f.mailboxId.lower)
            (f.record (kv.get t (.mailbox f.mailboxId.lower)) t) (some life), log))
      | none => (none, (kv, log)) := by
  obtain ⟨ok, hrun, hiff⟩ := localCapOk_run kv log ho
  obtain rfl := hiff.2 hv
  unfold localCreate
  rw [Prog.bind_eq, Prog.run_bind_some hrun]
  simp only [Bool.not_true, Bool.false_eq_true, if_false, Prog.bind_eq]
  rw [Prog.run_bind, localRecord_run kv log ho]
  cases env.cfg.mailboxTtlSeconds.toInt? <;> rfl

end

/-! ## The shortcut and the network -/

section
variable {env : Shard.Env} {t : ℕ} {kv : Kv}

/-- The shortcut for the body of a registration. -/
theorem createHere_bodyText (env : Shard.Env) (renv : Router.Env) (t₀ : ℕ)
    {reg : Router.RegisterRequest} (hnonce : reg.capNonce ≠ []) (pubkey : HexStr 64 64)
    (replicas : List JString) : ∃ f o, v2opts f = some o ∧
      createFields (Json.received (bodyText renv t₀ reg pubkey replicas)) = .ok f ∧
      createHere env (bodyText renv t₀ reg pubkey replicas) =
        (localCreate env f o).bind fun res => .ret res.isSome := by
  let pk : HexStr 64 64 := ⟨pubkey.lower, pubkey.isHexOf_lower⟩
  have hlower : (⟨pk.lower, pk.isHexOf_lower⟩ : HexStr 64 64) = pk :=
    Subtype.ext pubkey.toLowerCase_lower
  refine ⟨bodyFields renv t₀ reg pubkey replicas,
    some ⟨pk, bytesToHex reg.capNonce⟩, ?_, ?_, ?_⟩
  · exact congrArg (fun x => some (some (V2Opts.mk x (bytesToHex reg.capNonce)))) hlower
  · rw [received_bodyText, createFields_createBody hnonce]
  · have hopts : v2optsText (Router.createBody renv t₀ reg pubkey replicas).toJson =
        some (some (pubkey.lower, bytesToHex reg.capNonce)) := by
      unfold v2optsText
      rw [show (Router.createBody renv t₀ reg pubkey replicas).toJson.field (js "cap_version") =
        some (.num (.ofInt 2)) from rfl]
      exact if_pos rfl
    have hreplicas : safeReplicas ((Router.createBody renv t₀ reg pubkey replicas).toJson.field
        (js "replica_shard_urls")) = replicas := safeReplicas_strings replicas
    rw [← localCreateText_eq, createHere, parse_bodyText]
    dsimp only
    rw [hopts, hreplicas]
    rfl

/-- A call reports what the endpoint answers, throws only where that crashes, and
    leaves the same mailboxes. -/
structure Reports (here : Option Bool × Kv) (posted : Shard.Response × Kv) : Prop where
  ok : ∀ ok, here.1 = some ok → ok = respOk posted.1
  crash : here.1 = none → posted.1 = shardCrashed
  mailboxes : ∀ id, here.2 (.mailbox id) = posted.2 (.mailbox id)

theorem createHere_posted {rq : CreateRequest} {f : CreateFields} {o : Option V2Opts}
    (ho : v2opts f = some o) (hf : createFields rq.body = .ok f)
    (hrate : env.cfg.maxCreatesPerIp.le (.ofInt (bucketCount kv t (createBucket rq))) = false) :
    Reports (runAt env.crypto t ((localCreate env f o).bind fun res => .ret res.isSome) kv)
      (handleShard env t (.create rq) kv) := by
  have hget (id : JString) : countCreate t rq kv (.mailbox id) = kv (.mailbox id) :=
    Store.put_other _ _ (by simp) _ _
  have hposted : (handleCreate env rq).run (KvOp.exec t (services env.crypto)) (kv, []) =
      ((localCreate env f o).bind fun r => .ret (created env f r)).run
        (KvOp.exec t (services env.crypto)) (countCreate t rq kv, []) := by
    rw [handleCreate_run hf, if_neg (by simp [hrate]), ho]
  unfold handleShard runAt
  dsimp only [fetchShard]
  rw [hposted, Prog.run_bind, Prog.run_bind]
  by_cases hv : Verified env t f
  · rw [localCreate_verified _ _ ho hv, localCreate_verified _ _ ho hv]
    cases env.cfg.mailboxTtlSeconds.toInt? with
    | none =>
      constructor
      · intro ok hok
        cases hok
      · exact fun _ => rfl
      · exact fun id => (hget id).symm
    | some life =>
      constructor
      · rintro ok ⟨⟩
        rfl
      · intro hnone
        cases hnone
      · intro id
        rw [Store.get_congr (hget f.mailboxId.lower)]
        exact Store.put_congr t (hget id).symm _ _
  · rw [localCreate_refused _ _ ho hv, localCreate_refused _ _ ho hv]
    constructor
    · rintro ok ⟨⟩
      rfl
    · intro hnone
      cases hnone
    · exact fun id => (hget id).symm

/-- The answer of `/exists` below the rate of its address. -/
theorem handleExists_run (ip : Option JString) (id : HexStr 16 128)
    (hrate : bucketCount kv t (js "exists-ip:" ++ Shard.clientIp ip) < 300) :
    ((Shard.handleExists ⟨ip, some id.1⟩).run (KvOp.exec t (services env.crypto)) (kv, [])).1 =
      some (if (kv.get t (.mailbox id.lower)).isSome then Shard.json .exists_
        else Shard.err (js "not found") 404) := by
  have hid : existsFields ⟨ip, some id.1⟩ = .ok id := by
    unfold existsFields
    rw [Option.bind_some, HexStr.parse_eq_some.2 rfl]
    rfl
  have hlimit : ¬ (Number.ofInt 300).le
      (.ofInt (bucketCount kv t (js "exists-ip:" ++ Shard.clientIp ip))) = true := by
    rw [Number.ofInt_le_ofInt]
    omega
  unfold Shard.handleExists guarded gated existsGate
  rw [hid]
  dsimp only
  rw [Prog.bind_eq, Prog.run_bind, limited_run, if_neg hlimit, Prog.pure_eq, Prog.run_ret]
  dsimp only
  rw [existsMailbox_run, Store.get_put_other _ _ (by simp)]
  cases kv.get t (.mailbox id.lower) <;> rfl

theorem existsOnReplica_here {peers : Peers} {url : JString} (hself : env.selfUrl = some url)
    (ip : Option JString) (id : HexStr 16 128)
    (hrate : bucketCount kv t (js "exists-ip:" ++ Shard.clientIp ip) < 300) :
    (runAt env.crypto t (existsOnReplica env peers url id.1) kv).1 =
      some (respOk (handleShard env t (.exists_ ⟨ip, some id.1⟩) kv).1) := by
  unfold handleShard existsOnReplica runAt
  rw [if_pos hself]
  dsimp only [fetchShard]
  rw [handleExists_run ip id hrate]
  simp only [kvGet, Prog.bind_eq, Prog.perform_bind, KvOp.run_get]
  cases hstored : kv.get t (.mailbox id.lower) with
  | none =>
    rw [show toLowerCase id.1 = id.lower from rfl, hstored]
    rfl
  | some m =>
    rw [show toLowerCase id.1 = id.lower from rfl, hstored]
    rfl

/-- **The shortcut is the network path**: the calls to the worker's own URL report
    what its endpoints answer, and leave the same mailboxes. -/
theorem shortcut_is_network (env : Shard.Env) (peers : Peers) (renv : Router.Env) (t t₀ : ℕ)
    (reg : Router.RegisterRequest) (pubkey : HexStr 64 64) (replicas : List JString)
    (ip : Option JString) (kv : Kv) (id : HexStr 16 128) {url : JString}
    (hself : env.selfUrl = some url) (hnonce : reg.capNonce.length = 16)
    (hcreates : env.cfg.maxCreatesPerIp.le
      (.ofInt (bucketCount kv t (js "create-ip:" ++ Shard.clientIp ip))) = false)
    (hexists : bucketCount kv t (js "exists-ip:" ++ Shard.clientIp ip) < 300) :
    Reports
        (runAt env.crypto t
          (createOnReplica env peers url (bodyText renv t₀ reg pubkey replicas)) kv)
        (handleShard env t
          (.create ⟨ip, Json.received (bodyText renv t₀ reg pubkey replicas)⟩) kv) ∧
      (runAt env.crypto t (existsOnReplica env peers url id.1) kv).1 =
        some (respOk (handleShard env t (.exists_ ⟨ip, some id.1⟩) kv).1) := by
  refine ⟨?_, existsOnReplica_here hself ip id hexists⟩
  have hne : reg.capNonce ≠ [] := by
    intro h
    rw [h] at hnonce
    cases hnonce
  obtain ⟨f, o, ho, hf, hhere⟩ := createHere_bodyText env renv t₀ hne pubkey replicas
  unfold createOnReplica
  rw [if_pos hself, hhere]
  exact createHere_posted ho hf hcreates

end

/-! ## A worker that places a mailbox on itself -/

/-- A worker on a platform that trusts every signature. -/
def aloneEnv : Shard.Env := { trustingEnv {} with selfUrl := some (js "http://a") }

/-- Every call to another node fails. -/
def silent : Peers := ⟨fun _ _ => false, fun _ _ => false⟩

/-- A registration with one secret. -/
def firstRegistration : Router.RegisterRequest where
  body := none
  readSecret := List.replicate 32 7
  capNonce := List.replicate 16 7

theorem first_registration_is_network :
    Reports
        (runAt aloneEnv.crypto 5 (createOnReplica aloneEnv silent (js "http://a") (bodyText
          Router.meshEnv 5 firstRegistration (hexLetters 64 (by omega)) [js "http://a"]))
          (fun _ => none))
        (handleShard aloneEnv 5 (.create ⟨none, Json.received (bodyText Router.meshEnv 5
          firstRegistration (hexLetters 64 (by omega)) [js "http://a"])⟩) (fun _ => none)) ∧
      (runAt aloneEnv.crypto 5 (existsOnReplica aloneEnv silent (js "http://a") (letters 16))
        (fun _ => none)).1 =
        some (respOk (handleShard aloneEnv 5 (.exists_ ⟨none, some (letters 16)⟩)
          (fun _ => none)).1) :=
  shortcut_is_network aloneEnv silent Router.meshEnv 5 5 firstRegistration
    (hexLetters 64 (by omega)) [js "http://a"] none (fun _ => none) (hexLetters 16 (by omega)) rfl
    rfl (by decide +kernel) (by decide +kernel)

end Combined
