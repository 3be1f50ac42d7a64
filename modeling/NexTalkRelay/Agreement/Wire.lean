/-
  Signed documents on their way.

  The Router signs the text of its routing table, and a shard the text of a copy
  that it pushes to its siblings.  The document is sent with the signature as a
  last property; the receiver parses it, drops the signature, and writes it
  again.

  * `signed_arrives`: what it writes is the text that was signed;
  * `TableSurvives` and `CopySurvives` say what this means for a routing table
    and for a pushed copy;
  * `documents_survive`: both hold for all contents.
-/
import NexTalkRelay.Js.Wire
import NexTalkRelay.Router.Topology
import NexTalkRelay.Shard.Jobs

open Effect Js Shard

namespace Agreement

/-! ## Signed documents -/

/-- A document with its signature as the last property. -/
def withSignature (ps : List (JString × Json)) (signature : JString) : Json :=
  .obj (ps ++ [(js "signature", .str signature)])

/-- What the private key signs, the public key verifies. -/
def KeyPair (c : Crypto) (publicHex key : JString) : Prop :=
  ∃ bytes, hexToBytes publicHex = some bytes ∧
    ∀ message, c.verify bytes (c.sign key message).1 message = true

section
variable {c : Crypto} {ps : List (JString × Json)} {signature : JString}

theorem KeyPair.verify {publicHex key : JString} (h : KeyPair c publicHex key) (message : JString) :
    verifyEd25519Message c publicHex message (c.signHex key message) = true := by
  obtain ⟨bytes, hbytes, hverify⟩ := h
  unfold verifyEd25519Message
  rw [hbytes, Crypto.signHex, hexToBytes_bytesToHex]
  exact hverify _

theorem proper_withSignature (signature : JString) (h : (Json.obj ps).Proper)
    (hsig : js "signature" ∉ ps.map Prod.fst) :
    (withSignature ps signature).Proper := by
  cases h with
  | obj hnodup hps =>
    refine .obj ?_ fun p hp => ?_
    · rw [List.map_append, List.nodup_append]
      refine ⟨hnodup, List.nodup_singleton _, ?_⟩
      intro k hk k' hk' heq
      rw [List.map_singleton, List.mem_singleton] at hk'
      exact hsig ((show k = js "signature" from heq.trans hk') ▸ hk)
    · rcases List.mem_append.1 hp with hp | hp
      · exact hps p hp
      · rw [List.mem_singleton.1 hp]
        exact .str _

theorem isIndex_signature : Json.isIndex (js "signature") = false := by decide

/-- Without its signature, the document that arrives is the one that was signed. -/
theorem unsigned_canon (hsig : js "signature" ∉ ps.map Prod.fst) :
    unsigned (withSignature ps signature).canon = (Json.obj ps).canon := by
  have hnamed : ∀ q ∈ [(js "signature", Json.str signature)], Json.isIndex q.1 = false := by
    intro q hq
    rw [List.mem_singleton.1 hq]
    exact isIndex_signature
  have hother : ∀ q ∈ (Json.inOrder ps).map fun p => (p.1, p.2.canon),
      (q.1 != js "signature") = true := by
    intro q hq
    obtain ⟨p, hp, rfl⟩ := List.mem_map.1 hq
    have hne : p.1 ≠ js "signature" := fun heq =>
      hsig (heq ▸ List.mem_map_of_mem (Json.mem_inOrder.1 hp))
    simpa using hne
  rw [withSignature, Json.canon_obj, Json.inOrder_append_named _ hnamed, List.map_append,
    Json.canon_obj]
  unfold unsigned without
  dsimp only
  rw [List.filter_append, List.filter_eq_self.2 hother]
  simp

/-- **A signed document survives the wire**: it arrives, and its text without the
    signature is the one that was signed. -/
theorem signed_arrives (signature : JString) (h : (Json.obj ps).Proper)
    (hsig : js "signature" ∉ ps.map Prod.fst) :
    Json.received (withSignature ps signature).stringify = some (withSignature ps signature).canon ∧
      (unsigned (withSignature ps signature).canon).stringify = (Json.obj ps).stringify ∧
      (withSignature ps signature).canon.field (js "signature") = some (.str signature) := by
  have hproper := proper_withSignature signature h hsig
  refine ⟨Json.received_stringify hproper, ?_, ?_⟩
  · rw [unsigned_canon hsig, Json.stringify_canon h]
  · have hfind : ps.find? (fun p => p.1 == js "signature") = none := by
      refine List.find?_eq_none.2 fun p hp heq => hsig ?_
      rw [← eq_of_beq heq]
      exact List.mem_map_of_mem hp
    rw [Json.field_canon hproper]
    simp only [withSignature, Json.field, List.find?_append, hfind]
    rfl

end

/-! ## The routing table -/

section
variable {urls : List JString} {counts : List Json} {version : Number}
  {registered : List Router.Registered} {now : ℕ}

/-- The keys of a routing table. -/
def tableKeys : List JString :=
  [js "version", js "generated_at", js "expires_at", js "algorithm", js "shard_urls", js "shards",
    js "replication_factor", js "prior_shard_counts", js "router_public_key"]

theorem tableBody_keys (env : Router.Env) :
    (Router.tableBody env urls counts version registered now).map Prod.fst = tableKeys := rfl

theorem tableKeys_spec : tableKeys.Nodup ∧ js "signature" ∉ tableKeys := by decide

theorem proper_strs (ss : List JString) : (Json.arr (ss.map .str)).Proper := by
  refine .arr fun x hx => ?_
  obtain ⟨s, -, rfl⟩ := List.mem_map.1 hx
  exact .str s

theorem proper_tableBody (env : Router.Env) (hcounts : ∀ x ∈ counts, x.Proper) :
    (Json.obj (Router.tableBody env urls counts version registered now)).Proper := by
  have hshards : (Json.arr (urls.map fun url => Json.obj [(js "url", .str url),
      (js "pubkey", ((Router.pubkeyOf registered url).map .str).getD .null)])).Proper := by
    refine .arr fun x hx => ?_
    obtain ⟨url, -, rfl⟩ := List.mem_map.1 hx
    refine .obj (show [js "url", js "pubkey"].Nodup by decide) fun p hp => ?_
    simp only [List.mem_cons, List.not_mem_nil, or_false] at hp
    rcases hp with rfl | rfl
    · exact .str url
    · cases Router.pubkeyOf registered url with
      | none => exact .null
      | some key => exact .str key
  refine .obj (tableKeys_spec.1) fun p hp => ?_
  simp only [Router.tableBody, List.mem_cons, List.not_mem_nil, or_false] at hp
  rcases hp with rfl | rfl | rfl | rfl | rfl | rfl | rfl | rfl | rfl
  · exact .num _
  · exact .num _
  · exact .num _
  · exact .str _
  · exact proper_strs urls
  · exact hshards
  · exact .num _
  · exact .arr hcounts
  · exact .str _

variable {env : Router.Env} {t : ℕ} {kv : Router.Kv} {w : Router.World}
  {h : Prog.Handler Router.Service Router.Service.Res Router.World}

/-- A value of the administration store at an instant. -/
def adminValue (env : Router.Env) (t : ℕ) (kv : Router.Kv) (k : Router.Key) :
    Option (Router.Val k) := if env.adminKv then kv.get t k else none

theorem adminGet_value (k : Router.Key) :
    (Router.adminGet env k).run (KvOp.exec t h) (kv, w) = (some (adminValue env t kv k), (kv, w)) := by
  unfold Router.adminGet adminValue
  split
  · rfl
  · rfl

/-- The registered shards at an instant. -/
def registeredAt (env : Router.Env) (t : ℕ) (kv : Router.Kv) : List Router.Registered :=
  (adminValue env t kv .registeredShards).getD []

/-- The shard list of the configuration at an instant. -/
def shardUrlsAt (env : Router.Env) (t : ℕ) (kv : Router.Kv) : List JString :=
  Merge.pushAbsent (Router.baseUrls env (adminValue env t kv .shardUrls))
    ((registeredAt env t kv).map (·.url))

theorem getRegisteredShards_value :
    (Router.getRegisteredShards env).run (KvOp.exec t h) (kv, w) =
      (some (registeredAt env t kv), (kv, w)) := by
  unfold Router.getRegisteredShards
  rw [Prog.bind_eq, Prog.run_bind_some (adminGet_value .registeredShards)]
  rfl

theorem getShardUrls_value :
    (Router.getShardUrls env).run (KvOp.exec t h) (kv, w) =
      (some (shardUrlsAt env t kv), (kv, w)) := by
  unfold Router.getShardUrls
  rw [Prog.bind_eq, Prog.run_bind_some (adminGet_value .shardUrls), Prog.bind_eq,
    Prog.run_bind_some getRegisteredShards_value]
  rfl

/-- A list that `JSON.parse` has read. -/
def Parsed (xs : List Json) : Prop := ∃ text, Json.parse text = some (.arr xs)

theorem Parsed.proper {xs : List Json} (h : Parsed xs) : ∀ x ∈ xs, x.Proper := by
  obtain ⟨text, htext⟩ := h
  cases Json.proper_of_parse htext with
  | arr hxs => exact hxs

/-- The counts of earlier eras in the configuration are a list that `JSON.parse`
    has read, in the administration store or in the variable. -/
def ParsedCounts (env : Router.Env) (t : ℕ) (kv : Router.Kv) : Prop :=
  Parsed ((adminValue env t kv .priorShardCounts).getD env.priorShardCounts)

/-- A run of the Router that builds and signs the table of its shard list. -/
theorem buildSignedRoutingTable_run (hcounts : ParsedCounts env t kv)
    (answer : JString → Router.CreateBody → Router.Created) :
    ∃ counts version, (∀ x ∈ counts, x.Proper) ∧
      let body := Router.tableBody env (shardUrlsAt env t kv) counts version (registeredAt env t kv) t
      (Router.buildSignedRoutingTable env).run (KvOp.exec t (Router.services env.crypto answer))
          (kv, w) =
        (some (withSignature body (env.crypto.signHex env.routerSigningKey
            (Json.obj body).stringify)),
          (kv, { w with
            signed := (.buildSignedRoutingTable, (Json.obj body).stringify) :: w.signed })) := by
  obtain ⟨version, hversion⟩ := Router.getRoutingTableVersion_run env t kv w
    (Router.services env.crypto answer)
  refine ⟨_, version, hcounts.proper, ?_⟩
  unfold Router.buildSignedRoutingTable Router.getPriorShardCounts
  rw [Prog.bind_eq, Prog.run_bind_some getShardUrls_value, Prog.bind_eq, Prog.bind_eq,
    Prog.bind_assoc, Prog.run_bind_some (adminGet_value .priorShardCounts), Prog.pure_eq,
    Prog.ret_bind, Prog.bind_eq, Prog.run_bind_some hversion, Prog.bind_eq,
    Prog.run_bind_some getRegisteredShards_value]
  rfl

end

/-- What a shard makes of the routing table for a shard list that was built at the instant
    `now`: it arrives with the text that was signed, so that its signature verifies; if
    the list is not empty, it is cached until it expires; and what is served from there
    arrives as the same document. -/
def TableSurvives (env : Router.Env) (urls : List JString) (now : ℕ) (signed : Json)
    (text : JString) : Prop :=
  signed.field (js "shard_urls") = some (.arr (urls.map .str)) ∧
  ∃ doc, Json.received signed.stringify = some doc ∧ (unsigned doc).stringify = text ∧
    Json.received doc.stringify = some doc ∧
    ∀ shard : Shard.Env, shard.crypto = env.crypto →
      KeyPair env.crypto shard.routerSigningPublic env.routerSigningKey →
      RouterSigned shard doc ∧
        (urls ≠ [] → ∀ t ≤ now + 3600 * 1000, ∀ kv log,
          (handleRoutingTablePush shard (some doc)).run (KvOp.exec t (services shard.crypto))
              (kv, log) =
            (some (json (.cached ((unsigned doc).field (js "version")))),
              (kv.put t .routingTable doc none, log)) ∧
          ∀ t' log', handleRoutingTableServe.run (KvOp.exec t' (services shard.crypto))
              (kv.put t .routingTable doc none, log') =
            (some (json (.table doc)), (kv.put t .routingTable doc none, log')))

section
variable {env : Router.Env} {urls : List JString} {counts : List Json} {version : Number}
  {registered : List Router.Registered} {now : ℕ}

/-- The fields of the table that arrives. -/
theorem unsigned_field (hcounts : ∀ x ∈ counts, x.Proper) (signature : JString) (k : JString) :
    (unsigned (withSignature (Router.tableBody env urls counts version registered now)
        signature).canon).field k =
      ((Json.obj (Router.tableBody env urls counts version registered now)).field k).map
        Json.canon := by
  rw [unsigned_canon ((tableBody_keys env).symm ▸ tableKeys_spec.2),
    Json.field_canon (proper_tableBody env hcounts)]

/-- The table does not expire within an hour. -/
theorem unexpired_table (hcounts : ∀ x ∈ counts, x.Proper) (signature : JString) {t : ℕ}
    (ht : t ≤ now + 3600 * 1000) :
    Unexpired t (withSignature (Router.tableBody env urls counts version registered now)
      signature).canon := by
  refine ⟨.ofInt (now + 3600 * 1000), ?_, rfl, ?_⟩
  · unfold expiresAt
    rw [unsigned_field hcounts]
    rfl
  · rw [← Bool.not_eq_true, Number.ofInt_lt_ofInt]
    omega

theorem table_urls (hcounts : ∀ x ∈ counts, x.Proper) (signature : JString) (hurls : urls ≠ []) :
    ∃ us, Json.asArr? ((unsigned (withSignature
      (Router.tableBody env urls counts version registered now) signature).canon).field
        (js "shard_urls")) = some us ∧ us ≠ [] := by
  rw [unsigned_field hcounts]
  refine ⟨(urls.map Json.str).map Json.canon, ?_, by simpa using hurls⟩
  change Json.asArr? (some (Json.arr (urls.map Json.str)).canon) = _
  rw [Json.canon_arr]
  rfl

/-- **A routing table survives the wire.** -/
theorem tableSurvives (hcounts : ∀ x ∈ counts, x.Proper) :
    TableSurvives env urls now
      (withSignature (Router.tableBody env urls counts version registered now)
        (env.crypto.signHex env.routerSigningKey
          (Json.obj (Router.tableBody env urls counts version registered now)).stringify))
      (Json.obj (Router.tableBody env urls counts version registered now)).stringify := by
  set text := (Json.obj (Router.tableBody env urls counts version registered now)).stringify with htext
  set signature := env.crypto.signHex env.routerSigningKey text with hsignature
  have hkeys : js "signature" ∉
      (Router.tableBody env urls counts version registered now).map Prod.fst :=
    (tableBody_keys env).symm ▸ tableKeys_spec.2
  have hproper : (Json.obj (Router.tableBody env urls counts version registered now)).Proper :=
    proper_tableBody env hcounts
  obtain ⟨harrives, hrebuilt, hfield⟩ := signed_arrives signature hproper hkeys
  have hsigned := proper_withSignature signature hproper hkeys
  refine ⟨rfl, _, harrives, hrebuilt, ?_, fun shard hcrypto hpair => ?_⟩
  · rw [Json.received_stringify (Json.proper_canon hsigned), Json.canon_canon hsigned]
  have hrouter : RouterSigned shard (withSignature
      (Router.tableBody env urls counts version registered now) signature).canon := by
    refine ⟨⟨signature, Crypto.isHexOf_signHex _ _ _⟩, hexField_eq_some.2 hfield, ?_⟩
    rw [hrebuilt, hcrypto]
    exact hpair.verify text
  refine ⟨hrouter, fun hurls t ht kv log => ?_⟩
  have haccepts : Accepts shard t (withSignature
      (Router.tableBody env urls counts version registered now) signature).canon :=
    { signed := hrouter
      urls := table_urls hcounts signature hurls
      unexpired := unexpired_table hcounts signature ht }
  constructor
  · obtain ⟨o, kv', hrun, ⟨doc, hdoc, -, rfl, rfl⟩ | ⟨hno, -⟩⟩ := handleRoutingTablePush_run shard t kv
      log (some (withSignature (Router.tableBody env urls counts version registered now)
        signature).canon)
    · cases hdoc
      exact hrun
    · exact absurd haccepts (hno _ rfl)
  · intro t' log'
    unfold handleRoutingTableServe
    rw [Prog.bind_eq, kvGet, Prog.perform_bind, KvOp.run_get, Store.get_put_none]
    rfl

end

/-! ## Copies of messages -/

/-- An identity as a shard draws it. -/
structure Genuine (c : Crypto) (identity : Identity) : Prop where
  key : isHexOf 64 64 identity.publicKeyHex = true
  pair : KeyPair c identity.publicKeyHex identity.privateKeyPkcs8Base64

/-- A job of a shard that has accepted the message; the clock of the platform
    ends long before `10^21` milliseconds. -/
structure Honest (env : Shard.Env) (fresh : Identity) (job : FanOut) (t : ℕ) (kv : Shard.Kv) :
    Prop where
  mailboxId : isHexOf 16 128 job.mailboxId = true
  entry : job.entry.json.Proper
  replicas : Parsed job.replicaShardUrls
  fresh : Genuine env.crypto fresh
  identity : ∀ identity, kv.get t .shardIdentity = some identity → Genuine env.crypto identity
  clock : t < 10 ^ 21

/-- The identity that the shard signs with, its own or a fresh one. -/
theorem Honest.genuine {env : Shard.Env} {fresh : Identity} {job : FanOut} {t : ℕ} {kv : Shard.Kv}
    (h : Honest env fresh job t kv) :
    Genuine env.crypto ((kv.get t .shardIdentity).getD fresh) := by
  cases hstored : kv.get t .shardIdentity with
  | none => exact h.fresh
  | some identity => exact h.identity identity hstored

/-- What a sibling reads in a copy that has arrived; its text without the signature is
    the one that the primary signed. -/
structure CopyRead (c : Crypto) (identity : Identity) (job : FanOut) (t : ℕ) (doc : Json)
    (f : ReplicateFields) (pk : HexStr 64 64) : Prop where
  arrives : Json.received (signedCopy c job identity t).stringify = some doc
  fields : replicateFields (some doc) = .ok f
  mailboxId : f.mailboxId.1 = job.mailboxId
  id : f.entry.id = job.entry.id
  entry : f.entry.json = job.entry.json.canon
  timestamp : f.timestamp.1 = (Number.ofInt t).text
  origin : f.originPubkey.str? = some pk
  key : pk.1 = identity.publicKeyHex
  text : f.unsigned.stringify = copyText job identity t
  verified : ∀ sibling : Shard.Env, sibling.crypto = c → replicateSigOk sibling f pk = true

/-- What a sibling makes of a pushed copy: its text without the signature is one
    that the primary signed, all its fields pass, and the signature verifies. -/
def CopySurvives (c : Crypto) (log : List Shard.Service) (entry : Json) (body : Json) : Prop :=
  ∃ key text doc f pk, Shard.Service.sign key (js "replicate:" ++ text) ∈ log ∧
    Json.received body.stringify = some doc ∧ replicateFields (some doc) = .ok f ∧
    f.unsigned.stringify = text ∧ f.entry.json = entry.canon ∧ f.originPubkey.str? = some pk ∧
    ∀ sibling : Shard.Env, sibling.crypto = c → replicateSigOk sibling f pk = true

section
variable {env : Shard.Env} {fresh : Identity} {job : FanOut} {t : ℕ} {kv : Shard.Kv}
  {identity : Identity} {timestamp : JString}

/-- The members of a push besides its signature. -/
def payloadKeys : List JString :=
  [js "mailbox_id", js "entry", js "replica_shard_urls", js "origin_shard_pubkey", js "timestamp"]

theorem payloadKeys_spec : payloadKeys.Nodup ∧ js "signature" ∉ payloadKeys := by decide

theorem proper_replicatePayload (hentry : job.entry.json.Proper)
    (hreplicas : ∀ u ∈ job.replicaShardUrls, u.Proper) (publicKeyHex : JString) :
    (Json.obj (replicatePayload job publicKeyHex timestamp)).Proper := by
  refine .obj payloadKeys_spec.1 fun p hp => ?_
  simp only [replicatePayload, List.mem_cons, List.not_mem_nil, or_false] at hp
  rcases hp with rfl | rfl | rfl | rfl | rfl
  · exact .str _
  · exact hentry
  · exact .arr hreplicas
  · exact .str _
  · exact .str _

/-- The text of the clock is a text of digits. -/
theorem isDigits_clock (ht : t < 10 ^ 21) : isDigits (Number.ofInt t).text = true :=
  (Dec.text_nat (a := Dec.ofDigits t 0) (n := t) (by simp) ht).1

/-- The entry that arrives. -/
def arrived (e : Entry) (h : e.json.Proper) : Entry where
  json := e.json.canon
  id := e.id
  message := e.message
  hasId := by rw [Json.field_canon h, e.hasId]; rfl
  hasMessage := by rw [Json.field_canon h, e.hasMessage]; rfl

/-- A body with strings in all fields that `/internal/replicate` tests. -/
theorem replicateFields_ok {doc : Json} {m : HexStr 16 128} {e : Entry} {p : HexStr 64 64}
    {d : DigitStr} {s : HexStr 128 128} (hm : doc.field (js "mailbox_id") = some (.str m.1))
    (he : doc.field (js "entry") = some e.json)
    (hp : doc.field (js "origin_shard_pubkey") = some (.str p.1))
    (hd : doc.field (js "timestamp") = some (.str d.1))
    (hs : doc.field (js "signature") = some (.str s.1)) :
    replicateFields (some doc) = .ok
      { mailboxId := m, entry := e, originPubkey := ⟨p, true⟩, timestamp := d, signature := ⟨s, true⟩
        replicaShardUrls := doc.field (js "replica_shard_urls"), unsigned := unsigned doc } := by
  simp only [replicateFields, Check.orAnswer_bind]
  refine ⟨_, rfl, m, hexField_eq_some.2 hm, e, he ▸ entryField_eq e, ?_⟩
  rw [hp, hd, hs]
  refine Check.bind_eq_ok.2 ⟨_, testedField_hex (by decide) p _, ?_⟩
  refine Check.bind_eq_ok.2 ⟨_, testedField_timestamp d _, ?_⟩
  exact Check.bind_eq_ok.2 ⟨_, testedField_hex (by decide) s _, rfl⟩

/-- A pushed copy is read as it was written. -/
theorem copyRead {c : Crypto} (hmailboxId : isHexOf 16 128 job.mailboxId = true)
    (hentry : job.entry.json.Proper) (hreplicas : ∀ u ∈ job.replicaShardUrls, u.Proper)
    (hidentity : Genuine c identity) (ht : t < 10 ^ 21) :
    ∃ doc f pk, CopyRead c identity job t doc f pk := by
  have hkeys : js "signature" ∉
      (replicatePayload job identity.publicKeyHex (Number.ofInt t).text).map Prod.fst :=
    payloadKeys_spec.2
  have hproper : (Json.obj
      (replicatePayload job identity.publicKeyHex (Number.ofInt t).text)).Proper :=
    proper_replicatePayload hentry hreplicas identity.publicKeyHex
  set signature := c.signHex identity.privateKeyPkcs8Base64
    (js "replicate:" ++ copyText job identity t) with hsignature
  obtain ⟨harrives, hrebuilt, hfield⟩ := signed_arrives signature hproper hkeys
  have hread (k : JString) := Json.field_canon (proper_withSignature signature hproper hkeys) k
  refine ⟨_, _, ⟨identity.publicKeyHex, hidentity.key⟩,
    { arrives := harrives
      fields := replicateFields_ok (m := ⟨job.mailboxId, hmailboxId⟩) (e := arrived job.entry hentry)
        (p := ⟨identity.publicKeyHex, hidentity.key⟩) (d := ⟨_, isDigits_clock ht⟩)
        (s := ⟨signature, Crypto.isHexOf_signHex _ _ _⟩) (hread _) (hread _) (hread _) (hread _) hfield
      mailboxId := rfl
      id := rfl
      entry := rfl
      timestamp := rfl
      origin := rfl
      key := rfl
      text := hrebuilt
      verified := fun sibling hsibling => ?_ }⟩
  change verifyEd25519Message sibling.crypto identity.publicKeyHex (js "replicate:" ++
    (unsigned (withSignature _ signature).canon).stringify) signature = true
  rw [hrebuilt, hsibling]
  exact hidentity.pair.verify _

/-- **A pushed copy survives the wire.** -/
theorem copySurvives (hmailboxId : isHexOf 16 128 job.mailboxId = true)
    (hentry : job.entry.json.Proper) (hreplicas : ∀ u ∈ job.replicaShardUrls, u.Proper)
    (hidentity : Genuine env.crypto identity) (ht : t < 10 ^ 21) {log : List Shard.Service}
    (hlog : Shard.Service.sign identity.privateKeyPkcs8Base64
      (js "replicate:" ++ copyText job identity t) ∈ log) :
    CopySurvives env.crypto log job.entry.json (signedCopy env.crypto job identity t) := by
  obtain ⟨doc, f, pk, h⟩ := copyRead hmailboxId hentry hreplicas hidentity ht
  exact ⟨_, _, doc, f, pk, hlog, h.arrives, h.fields, h.text, h.entry, h.origin, h.verified⟩

/-- Every copy that an honest primary pushes survives. -/
theorem replicateToSiblings_survives (h : Honest env fresh job t kv) {url : JString} {body : Json}
    (hpost : Shard.Service.post url body ∈ ((replicateToSiblings env fresh job).run
      (KvOp.exec t (services env.crypto)) (kv, [])).2.2) :
    CopySurvives env.crypto ((replicateToSiblings env fresh job).run
      (KvOp.exec t (services env.crypto)) (kv, [])).2.2 job.entry.json body := by
  obtain ⟨kv', log, hrun, -, hlog⟩ := replicateToSiblings_run env t fresh job kv
  rw [hrun] at hpost ⊢
  rcases hlog with rfl | ⟨identity, posts, rfl, rfl, hposts⟩
  · cases hpost
  · rcases List.mem_cons.1 hpost with heq | hpost
    · cases heq
    · obtain ⟨url', heq⟩ := hposts _ hpost
      cases heq
      exact copySurvives h.mailboxId h.entry h.replicas.proper h.genuine h.clock List.mem_cons_self

end

/-- **Signed documents survive the wire**: the routing table of every
    configuration, and the copy of every message that an honest primary has
    accepted, are rebuilt by the shards into the texts that were signed. -/
theorem documents_survive :
    (∀ (env : Router.Env) (answer : JString → Router.CreateBody → Router.Created) (t : ℕ)
        (kv : Router.Kv) (w : Router.World), ParsedCounts env t kv →
      ∃ signed text,
        (Router.buildSignedRoutingTable env).run (KvOp.exec t (Router.services env.crypto answer))
            (kv, w) =
          (some signed, (kv, { w with signed := (.buildSignedRoutingTable, text) :: w.signed })) ∧
        TableSurvives env (shardUrlsAt env t kv) t signed text) ∧
    ∀ (env : Shard.Env) (fresh : Identity) (job : FanOut) (t : ℕ) (kv : Shard.Kv),
      Honest env fresh job t kv → ∀ url body,
        Shard.Service.post url body ∈ ((replicateToSiblings env fresh job).run
          (KvOp.exec t (services env.crypto)) (kv, [])).2.2 →
        CopySurvives env.crypto ((replicateToSiblings env fresh job).run
          (KvOp.exec t (services env.crypto)) (kv, [])).2.2 job.entry.json body := by
  constructor
  · intro env answer t kv w hcounts
    obtain ⟨counts, version, hproper, hrun⟩ := buildSignedRoutingTable_run (w := w) hcounts answer
    exact ⟨_, _, hrun, tableSurvives hproper⟩
  · intro env fresh job t kv h url body hpost
    exact replicateToSiblings_survives h hpost

/-! ### Odd contents -/

/-- A Router whose replication factor is no number. -/
def oddRouter : Router.Env where
  serverSecret := js "s"
  routerSigningKey := js "k"
  routerSigningPublic := js "00"
  isSet := ⟨by simp [js, units], by simp [js, units], by simp [js, units]⟩
  shardUrls := [js "a"]
  priorShardCounts := [.num (.ofInt 1)]
  replicationFactor := .nan
  crypto := Crypto.trusting

/-- A message with a quote, a control character and an unpaired surrogate. -/
def oddJob : FanOut where
  mailboxId := letters 16
  entry :=
    { json := .obj [(js "id", .str []), (js "message", .str [34, 0, 0xD800])]
      id := []
      message := [34, 0, 0xD800]
      hasId := rfl
      hasMessage := rfl }
  replicaShardUrls := [.str (js "a"), .str (js "b")]

/-- The key pair `aa…a`. -/
def plainIdentity : Identity where
  publicKeyHex := letters 64
  privateKeyPkcs8Base64 := []

theorem honest_oddJob : Honest (trustingEnv {}) plainIdentity oddJob 0 fun _ => none := by
  have hgenuine : Genuine Crypto.trusting plainIdentity :=
    ⟨by decide +kernel, ⟨_, rfl, fun _ => rfl⟩⟩
  refine ⟨by decide +kernel, .obj (by decide) ?_, ?_, hgenuine, ?_, by norm_num⟩
  · simp only [List.mem_cons, List.not_mem_nil, or_false]
    rintro p (rfl | rfl)
    · exact .str _
    · exact .str _
  · exact ⟨_, Json.parse_stringify (proper_strs [js "a", js "b"])⟩
  · intro identity hidentity
    cases hidentity

/-- The table is cached an hour later and served. -/
theorem documents_survive_oddly :
    (∃ signed text doc, (Router.buildSignedRoutingTable oddRouter).run
        (KvOp.exec 0 (Router.services Crypto.trusting fun _ _ => ⟨true, 200, []⟩))
          (fun _ => none, {}) =
        (some signed, (fun _ => none, { signed := [(.buildSignedRoutingTable, text)] })) ∧
      Json.received signed.stringify = some doc ∧ (unsigned doc).stringify = text ∧
      (handleRoutingTablePush (trustingEnv {}) (some doc)).run
          (KvOp.exec (3600 * 1000) (services Crypto.trusting)) (fun _ => none, []) =
        (some (json (.cached ((unsigned doc).field (js "version")))),
          (Store.put (fun _ => none) (3600 * 1000) .routingTable doc none, [])) ∧
      handleRoutingTableServe.run (KvOp.exec (3600 * 1000) (services Crypto.trusting))
          (Store.put (fun _ => none) (3600 * 1000) .routingTable doc none, []) =
        (some (json (.table doc)),
          (Store.put (fun _ => none) (3600 * 1000) .routingTable doc none, []))) ∧
    ∃ url body log, ((replicateToSiblings (trustingEnv {}) plainIdentity oddJob).run
        (KvOp.exec 0 (services Crypto.trusting)) (fun _ => none, [])).2.2 = log ∧
      Shard.Service.post url body ∈ log ∧
      CopySurvives Crypto.trusting log oddJob.entry.json body := by
  constructor
  · have hproper : (Json.arr [.num (.ofInt 1)]).Proper := .arr fun x hx => by
      rw [List.mem_singleton.1 hx]
      exact .num _
    obtain ⟨signed, text, hrun, -, doc, hdoc, htext, -, hshard⟩ :=
      documents_survive.1 oddRouter (fun _ _ => ⟨true, 200, []⟩) 0 (fun _ => none) {}
        ⟨_, Json.parse_stringify hproper⟩
    obtain ⟨-, hcaches⟩ := hshard (trustingEnv {}) rfl ⟨_, rfl, fun _ => rfl⟩
    obtain ⟨hpush, hserve⟩ := hcaches (by decide) (3600 * 1000) (by omega) (fun _ => none) []
    exact ⟨signed, text, doc, hrun, hdoc, htext, hpush, hserve _ _⟩
  · have hpost : Shard.Service.post (js "b" ++ js "/internal/replicate") (withSignature
        (replicatePayload oddJob plainIdentity.publicKeyHex (Number.ofInt 0).text)
          (Crypto.trusting.signHex plainIdentity.privateKeyPkcs8Base64 (js "replicate:" ++ (Json.obj
            (replicatePayload oddJob plainIdentity.publicKeyHex (Number.ofInt 0).text)).stringify))) ∈
        ((replicateToSiblings (trustingEnv {}) plainIdentity oddJob).run
          (KvOp.exec 0 (services Crypto.trusting)) (fun _ => none, [])).2.2 :=
      List.mem_cons_of_mem _ (List.mem_cons_of_mem _ List.mem_cons_self)
    exact ⟨_, _, _, rfl, hpost,
      documents_survive.2 (trustingEnv {}) plainIdentity oddJob 0 _ honest_oddJob _ _ hpost⟩

end Agreement
