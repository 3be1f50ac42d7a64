/-
  A frame on its way through a shard.

  The bridge posts the base64 text of a frame and later reads it back.  The
  shard takes a message for JSON if it parses as JSON, and then refuses what is
  neither an object nor an array.

  * `Sends` collects what a send needs of the shard, and `sent` what it does
    then: unless the text is JSON, the frame is queued;
  * `Reads` is a consuming read of the mailbox as the send has left it;
  * `frame_survives_iff`: the frame comes back exactly if its text is no JSON,
    and the bridge can read the messages queued before it.
-/
import NexTalkRelay.Bridge.Rpc
import NexTalkRelay.Bridge.Relay
import NexTalkRelay.Shard.Inert
import NexTalkRelay.Shard.Queue

open Effect Js Shard

namespace Bridge

/-! ## Base64 texts that are JSON -/

/-- A text without quotes and brackets is no string, array or object. -/
theorem parseValue_opaque {fuel : ℕ} {s r : JString} {v : Json}
    (h : ∀ c ∈ s, c ≠ 34 ∧ c ≠ 91 ∧ c ≠ 123) (hv : Json.parseValue fuel s = some (v, r)) :
    v = .null ∨ (∃ b, v = .bool b) ∨ ∃ n, v = .num n := by
  have hskip : ∀ c ∈ Json.skipSpace s, c ≠ 34 ∧ c ≠ 91 ∧ c ≠ 123 := fun c hc =>
    h c ((List.dropWhile_sublist _).subset hc)
  cases fuel with
  | zero => cases hv
  | succ fuel =>
    unfold Json.parseValue at hv
    split at hv
    · obtain ⟨_, -, heq⟩ := Option.map_eq_some_iff.1 hv
      cases heq
      exact Or.inl rfl
    · obtain ⟨_, -, heq⟩ := Option.map_eq_some_iff.1 hv
      cases heq
      exact Or.inr (Or.inl ⟨true, rfl⟩)
    · obtain ⟨_, -, heq⟩ := Option.map_eq_some_iff.1 hv
      cases heq
      exact Or.inr (Or.inl ⟨false, rfl⟩)
    · next hs => exact absurd rfl (hskip 34 (hs ▸ List.mem_cons_self)).1
    · next hs => exact absurd rfl (hskip 91 (hs ▸ List.mem_cons_self)).2.1
    · next hs => exact absurd rfl (hskip 123 (hs ▸ List.mem_cons_self)).2.2
    · obtain ⟨_, -, heq⟩ := Option.map_eq_some_iff.1 hv
      cases heq
      exact Or.inr (Or.inr ⟨_, rfl⟩)

theorem opaque_encodeToString (bytes : Bytes) :
    ∀ c ∈ encodeToString bytes, c ≠ 34 ∧ c ≠ 91 ∧ c ≠ 123 := by
  have hdigit : ∀ n < 64, base64Digit n ≠ 34 ∧ base64Digit n ≠ 91 ∧ base64Digit n ≠ 123 := by decide
  intro c hc
  rcases mem_encodeToString hc with ⟨n, hn, rfl⟩ | rfl
  · exact hdigit n hn
  · decide

/-- **The shard refuses a frame whose text is JSON**, and takes any other for
    opaque. -/
theorem shape_encodeToString (frame : Bytes) :
    (Json.parse (encodeToString frame)).bind validateEnvelopeShape = none ↔
      Json.parse (encodeToString frame) = none := by
  cases hv : Json.parse (encodeToString frame) with
  | none => simp
  | some v =>
    unfold Json.parse at hv
    simp only [Option.bind_eq_bind, Option.bind_eq_some_iff] at hv
    obtain ⟨⟨w, r⟩, hread, hend⟩ := hv
    dsimp only at hend
    split at hend
    · cases hend
      rcases parseValue_opaque (opaque_encodeToString frame) hread with rfl | ⟨b, rfl⟩ | ⟨n, rfl⟩
      · simp [validateEnvelopeShape]
      · simp [validateEnvelopeShape]
      · simp [validateEnvelopeShape]
    · cases hend

/-! ## The request of the bridge -/

section Request

variable {c : Crypto} (courier : Courier c) (now : ℕ) (id : HexStr 16 128) (frame : Bytes)

theorem Courier.isHexOf_pub : isHexOf 64 64 (bytesToHex courier.pub) = true := by
  have h := isHexOf_bytesToHex courier.pub
  rwa [courier.size] at h

/-- The public key of the courier. -/
def Courier.key : HexStr 64 64 := ⟨bytesToHex courier.pub, courier.isHexOf_pub⟩

/-- The instant as a field of a signed request. -/
def stamp : DigitStr := ⟨digits now, isDigits_digits now⟩

/-- The signature of the courier on a send. -/
def Courier.signature : HexStr 128 128 :=
  ⟨(buildSenderAuth courier now id.1 (encodeToString frame)).signature,
    c.isHexOf_signHex courier.priv _⟩

/-- The fields of the request, as the shard reads them. -/
def sentFields : SendFields where
  mailboxId := ⟨id.lower, id.isHexOf_lower⟩
  message := encodeToString frame
  sender := some (buildSenderAuth courier now id.1 (encodeToString frame)).toJson
  senderPubkey := courier.key
  requestId := none

/-- The members of a `sender`. -/
def authKeys : List JString := [js "pubkey", js "timestamp", js "signature"]

/-- The members of the body of a `/send`. -/
def sendKeys : List JString := [js "mailbox_id", js "message", js "sender"]

theorem keys_spec : (∀ k ∈ authKeys ++ sendKeys, Json.isIndex k = false) ∧ authKeys.Nodup ∧
    sendKeys.Nodup := by decide

theorem canon_sendJson : (sendJson courier now id.1 frame).canon = sendJson courier now id.1 frame := by
  have hauth (a : SenderAuth) : a.toJson.canon = a.toJson := Json.canon_named fun p hp =>
    keys_spec.1 p.1 (List.mem_append_left _ (List.mem_map_of_mem hp))
  rw [sendJson, Json.canon_named fun p hp =>
    keys_spec.1 p.1 (List.mem_append_right _ (List.mem_map_of_mem hp))]
  simp only [List.map_cons, List.map_nil, hauth]
  rfl

theorem proper_sendJson : (sendJson courier now id.1 frame).Proper := by
  have hauth (a : SenderAuth) : a.toJson.Proper := .obj keys_spec.2.1 (by
    intro p hp
    simp only [List.mem_cons, List.not_mem_nil, or_false] at hp
    rcases hp with rfl | rfl | rfl <;> exact .str _)
  refine .obj keys_spec.2.2 fun p hp => ?_
  simp only [List.mem_cons, List.not_mem_nil, or_false] at hp
  rcases hp with rfl | rfl | rfl
  · exact .str _
  · exact .str _
  · exact hauth _

theorem received_sendRequest :
    Json.received (sendRequest courier now id.1 frame) = some (sendJson courier now id.1 frame) := by
  rw [sendRequest_eq courier now id.2, Json.received_stringify (proper_sendJson courier now id frame),
    canon_sendJson]

theorem encodeToString_ne_nil (h : frame ≠ []) : encodeToString frame ≠ [] := by
  intro hnil
  have hback := frameOf_encodeToString frame
  rw [hnil] at hback
  exact h hback.symm

/-- The request passes the tests of its fields. -/
theorem sendFields_sendJson {env : Env} (hframe : frame ≠ [])
    (hshort : env.cfg.maxMsgBytes.lt (.ofInt (encode (encodeToString frame)).length) = false) :
    sendFields env (some (sendJson courier now id.1 frame)) = .ok (sentFields courier now id frame) := by
  have hne : (encodeToString frame).isEmpty = false := by
    simpa using encodeToString_ne_nil frame hframe
  simp only [sendFields, Check.orAnswer_bind, Check.require_bind]
  refine ⟨_, rfl, ⟨id.lower, id.isHexOf_lower⟩, hexField_eq_some.2 rfl, encodeToString frame, ?_, ?_,
    courier.key, hexField_eq_some.2 rfl, rfl⟩
  · exact Option.filter_eq_some_iff.2 ⟨rfl, by simp [hne]⟩
  · rw [hshort]
    rfl

theorem authFields_sent : authFields (sentFields courier now id frame).sender =
    .ok (courier.key, stamp now, courier.signature now id frame) := by
  have hkey : hexField 64 64 (fieldOf (sentFields courier now id frame).sender "pubkey") =
      some courier.key := hexField_eq_some.2 rfl
  have hstamp : (Json.asStr? (fieldOf (sentFields courier now id frame).sender "timestamp")).bind
      DigitStr.parse = some (stamp now) := DigitStr.parse_eq_some.2 rfl
  have hsig : hexField 128 128 (fieldOf (sentFields courier now id frame).sender "signature") =
      some (courier.signature now id frame) := hexField_eq_some.2 rfl
  unfold authFields
  rw [hkey, hstamp, hsig]

/-- **The shard rebuilds the text that the courier has signed.** -/
theorem signature_verifies : verifyEd25519Message c courier.key.1
    (sendSignedMessage c (sentFields courier now id frame) (digits now))
    (courier.signature now id frame).1 = true := by
  have htext : sendSignedMessage c (sentFields courier now id frame) (digits now) =
      signedText c (bytesToHex courier.pub) id.1 (digits now) (encodeToString frame) := by
    unfold sendSignedMessage signedText
    rw [show (sentFields courier now id frame).senderPubkey.lower = bytesToHex courier.pub from
        toLowerCase_bytesToHex _,
      show (sentFields courier now id frame).mailboxId.lower = toLowerCase id.1 from
        id.toLowerCase_lower]
    rfl
  rw [htext]
  unfold verifyEd25519Message
  rw [show hexToBytes courier.key.1 = some courier.pub from hexToBytes_bytesToHex _,
    show hexToBytes (courier.signature now id frame).1 = _ from hexToBytes_bytesToHex _]
  exact courier.pair _

end Request

/-! ## The send -/

/-- The last instant of a `Date` of JavaScript. -/
def maxTime : ℕ := 8640000000000000

/-- The length of the longest array of JavaScript. -/
def maxArray : ℕ := 2 ^ 32 - 1

/-- What a send of a frame needs of the shard: the text is short enough, the
    clocks agree, the signature is new, no quota is used up, and the mailbox is
    there with room for one more message.  The stored entries are values that
    JSON can express. -/
structure Sends (env : Env) (t : ℕ) (kv : Kv) (courier : Courier env.crypto) (now : ℕ)
    (id : HexStr 16 128) (frame : Bytes) (rq : SendRequest) (stored : Mailbox) : Prop where
  body : rq.body = Json.received (sendRequest courier now id.1 frame)
  short : env.cfg.maxMsgBytes.lt (.ofInt (encode (encodeToString frame)).length) = false
  fresh : env.cfg.maxClockSkew.lt (clockSkew t (stamp now)) = false
  unseen : kv.get t (replayKey env.crypto courier.key (stamp now)
    (courier.signature now id frame)) = none
  sender : env.cfg.maxSendsPerSender.le
    (.ofInt (bucketCount kv t (js "send-sender:" ++ courier.key.lower))) = false
  target : env.cfg.maxSendsPerTarget.le
    (.ofInt (bucketCount kv t (js "send-target:" ++ id.lower))) = false
  ip : env.cfg.maxSendsPerIp.le (.ofInt (bucketCount kv t (js "send-ip:" ++ clientIp rq.ip))) = false
  found : kv.get t (.mailbox id.lower) = some stored
  room : env.cfg.maxMessages.le
    (.ofInt (stored.cleared env.cfg.ttlSeconds t).messages.length) = false
  replays : (replayTtl env.cfg.maxClockSkew).toInt?.isSome
  lifetime : env.cfg.mailboxTtlSeconds.toInt?.isSome
  dates : t ≤ maxTime ∧ stored.createdAt ≤ maxTime
  array : stored.messages.length < maxArray
  entries : ∀ e ∈ stored.messages, e.json.Proper

section Send

variable {env : Env} {t : ℕ} {kv : Kv} {courier : Courier env.crypto} {now : ℕ} {id : HexStr 16 128}
  {frame : Bytes} {rq : SendRequest} {stored : Mailbox}

/-- A bucket is not counted in another one. -/
theorem bucketCount_put {b b' : JString} (hne : b' ≠ b) (kv : Kv) (n : ℕ) :
    bucketCount (kv.put t (.rl b (t / (60 * 1000))) n (some 65)) t b' = bucketCount kv t b' := by
  have hkey : Key.rl b' (t / (60 * 1000)) ≠ .rl b (t / (60 * 1000)) := fun h =>
    hne (Key.rl.inj h).1
  exact congrArg (fun o => Option.getD o 0) (Store.get_put_other kv t hkey n (some 65) t)

/-- **The sender is authentic.** -/
theorem Sends.authentic (h : Sends env t kv courier now id frame rq stored) (log : List Service) :
    ∃ n, (verifySenderAuth env (sentFields courier now id frame).sender env.cfg.maxClockSkew
        (sendSignedMessage env.crypto (sentFields courier now id frame) (digits now))).run
        (KvOp.exec t (services env.crypto)) (kv, log) =
      (some none, (kv.put t (replayKey env.crypto courier.key (stamp now)
        (courier.signature now id frame)) () (some n), log)) := by
  obtain ⟨n, hn⟩ := Option.isSome_iff_exists.1 h.replays
  refine ⟨n, ?_⟩
  unfold verifySenderAuth
  rw [authFields_sent]
  simp only [dateNow, kvGet, Prog.bind_eq, Prog.perform_bind, KvOp.run_now]
  rw [if_neg (by simp [h.fresh]), KvOp.run_get, h.unseen, if_neg (by simp), signature_verifies,
    if_neg (by simp), kvPut, hn]
  rfl

/-- **The gate of a send** leaves only the shape of the message to be checked. -/
theorem Sends.gate (h : Sends env t kv courier now id frame rq stored) :
    ∃ s, (sendGate env rq.ip (sentFields courier now id frame)).run
        (KvOp.exec t (services env.crypto)) (kv, []) =
      (some (((Json.parse (encodeToString frame)).bind validateEnvelopeShape).map fun e => err e), s) ∧
      SameMailboxes kv s.1 := by
  obtain ⟨n, hauth⟩ := h.authentic []
  have hcount (b : JString) : bucketCount (kv.put t (replayKey env.crypto courier.key (stamp now)
      (courier.signature now id frame)) () (some n)) t b = bucketCount kv t b := by
    have hkey : Key.rl b (t / (60 * 1000)) ≠ replayKey env.crypto courier.key (stamp now)
        (courier.signature now id frame) := by simp
    exact congrArg (fun o => Option.getD o 0) (Store.get_put_other kv t hkey () (some n) t)
  -- the buckets differ in the sixth letter
  have htarget (x y : JString) : js "send-target:" ++ x ≠ js "send-sender:" ++ y := fun heq => by
    have hsix := congrArg (List.take 6) heq
    rw [show List.take 6 (js "send-target:" ++ x) = js "send-t" from rfl,
      show List.take 6 (js "send-sender:" ++ y) = js "send-s" from rfl] at hsix
    exact absurd hsix (by decide)
  have hip (x y : JString) {other : String} (hother : other = "send-sender:" ∨ other = "send-target:") :
      js "send-ip:" ++ x ≠ js other ++ y := fun heq => by
    have hsix := congrArg (List.take 6) heq
    rcases hother with rfl | rfl
    · rw [show List.take 6 (js "send-ip:" ++ x) = js "send-i" from rfl,
        show List.take 6 (js "send-sender:" ++ y) = js "send-s" from rfl] at hsix
      exact absurd hsix (by decide)
    · rw [show List.take 6 (js "send-ip:" ++ x) = js "send-i" from rfl,
        show List.take 6 (js "send-target:" ++ y) = js "send-t" from rfl] at hsix
      exact absurd hsix (by decide)
  have hid : (sentFields courier now id frame).mailboxId.lower = id.lower := id.toLowerCase_lower
  have hsender := h.sender
  have htargeted := h.target
  have hips := h.ip
  have hstamp : templateText (fieldOf (sentFields courier now id frame).sender "timestamp") =
      some (digits now) := rfl
  have hkey : (sentFields courier now id frame).senderPubkey = courier.key := rfl
  unfold sendGate
  rw [hstamp]
  dsimp only
  rw [Prog.bind_eq, Prog.run_bind_some hauth]
  dsimp only
  unfold sendLimits
  rw [hkey, hid, limited_run, hcount, if_neg (by simp [hsender]), limited_run,
    bucketCount_put (htarget _ _), hcount, if_neg (by simp [htargeted]), limited_run,
    bucketCount_put (hip _ _ (Or.inr rfl)), bucketCount_put (hip _ _ (Or.inl rfl)), hcount,
    if_neg (by simp [hips])]
  refine ⟨_, rfl, fun i => ?_⟩
  simp [Store.put_other]

section

variable {α : Type} {check : Check Response α} {gate : α → M Verdict} {act : α → M Response} {a : α}
  {r : Response} {s s' : Kv × List Service}

/-- The answer of a gate is that of the handler. -/
theorem runAt_refused (act : α → M Response) (hcheck : check = .ok a)
    (hgate : (gate a).run (KvOp.exec t (services env.crypto)) (kv, []) = (some (some r), s)) :
    runAt env.crypto t (guarded check fun a => gated (gate a) (act a)) kv = (some r, s.1) := by
  subst hcheck
  unfold runAt guarded gated
  dsimp only
  rw [Prog.bind_eq, Prog.run_bind_some hgate]
  rfl

/-- Behind a gate that is passed, the action runs. -/
theorem runAt_passed (gate : α → M Verdict) (hcheck : check = .ok a)
    (hgate : (gate a).run (KvOp.exec t (services env.crypto)) (kv, []) = (some none, s))
    (hact : (act a).run (KvOp.exec t (services env.crypto)) s = (some r, s')) :
    runAt env.crypto t (guarded check fun a => gated (gate a) (act a)) kv = (some r, s'.1) := by
  subst hcheck
  unfold runAt guarded gated
  dsimp only
  rw [Prog.bind_eq, Prog.run_bind_some hgate]
  dsimp only
  rw [hact]

end

/-- The fields of the request. -/
theorem Sends.fields (h : Sends env t kv courier now id frame rq stored) (hframe : frame ≠ []) :
    sendFields env rq.body = .ok (sentFields courier now id frame) := by
  rw [h.body, received_sendRequest, sendFields_sendJson courier now id frame hframe h.short]

/-- A frame whose text is JSON is refused. -/
theorem Sends.refused (h : Sends env t kv courier now id frame rq stored) (hframe : frame ≠ [])
    (hjson : Json.parse (encodeToString frame) ≠ none) :
    (handle env t (.send rq) kv).1.status = 400 := by
  obtain ⟨s, hgate, -⟩ := h.gate
  obtain ⟨e, he⟩ := Option.ne_none_iff_exists'.1 (mt (shape_encodeToString frame).1 hjson)
  rw [he] at hgate
  have hrun := runAt_refused (sendMailbox env rq) (h.fields hframe) hgate
  exact congrArg (fun p => (p.1.getD crashed).status) hrun

/-- What a send queues. -/
def queuedEntry (courier : Courier env.crypto) (now : ℕ) (id : HexStr 16 128) (frame : Bytes)
    (rq : SendRequest) (t : ℕ) : Entry := newEntry (sentFields courier now id frame) rq.entryId t

/-- **Any other frame is queued.** -/
theorem Sends.queued (h : Sends env t kv courier now id frame rq stored) (hframe : frame ≠ [])
    (hplain : Json.parse (encodeToString frame) = none) :
    (handle env t (.send rq) kv).1.bare =
        json (.sent ((stored.cleared env.cfg.ttlSeconds t).messages.length + 1)) ∧
      Wrote env t kv id.lower
        ((stored.cleared env.cfg.ttlSeconds t).pushed (queuedEntry courier now id frame rq t) t)
        (handle env t (.send rq) kv).2 := by
  obtain ⟨s, hgate, hsame⟩ := h.gate
  obtain ⟨life, hlife⟩ := Option.isSome_iff_exists.1 h.lifetime
  rw [hplain] at hgate
  have hid : (sentFields courier now id frame).mailboxId.lower = id.lower := id.toLowerCase_lower
  have hfound : s.1.get t (.mailbox (sentFields courier now id frame).mailboxId.lower) =
      some stored := by
    rw [hid, Store.get_congr (hsame id.lower), h.found]
  obtain ⟨r, s', hrun, hbare, hput⟩ := sendMailbox_run s.1 s.2 hlife rq
    (sentFields courier now id frame) hfound h.room
  have hhandle : handle env t (.send rq) kv = (r, s'.1) :=
    congrArg (fun p => (p.1.getD crashed, p.2)) (runAt_passed (sendGate env rq.ip) (h.fields hframe) hgate hrun)
  rw [hhandle]
  refine ⟨hbare, Wrote.congr hsame ⟨life, hlife, ?_⟩⟩
  rw [← hid]
  exact hput

end Send

/-! ## What the bridge reads -/

section Decode

theorem goInt64_ofInt {n : ℤ} (h : -2 ^ 63 ≤ n ∧ n < 2 ^ 63) :
    goInt64 [.num (.ofInt n)] = some n := by
  simp only [goInt64, List.foldlM_cons, List.foldlM_nil, Number.toInt?_ofInt]
  rw [Option.filter_some, if_pos (by simpa using h)]
  rfl

/-- An object whose keys are names arrives with its properties in their order. -/
theorem received_named (ps : List (JString × Json))
    (hkeys : (ps.map Prod.fst).Nodup ∧ ∀ k ∈ ps.map Prod.fst, Json.isIndex k = false)
    (hproper : ∀ p ∈ ps, p.2.Proper) :
    Json.received (Json.obj ps).stringify = some (.obj (ps.map fun p => (p.1, p.2.canon))) := by
  rw [Json.received_stringify (.obj hkeys.1 hproper),
    Json.canon_named fun p hp => hkeys.2 p.1 (List.mem_map_of_mem hp)]

theorem sentKeys_spec : [js "success", js "queued"].Nodup ∧
    ∀ k ∈ [js "success", js "queued"], Json.isIndex k = false := by decide

theorem readKeys_spec : [js "messages", js "count", js "createdAt", js "consumed"].Nodup ∧
    ∀ k ∈ [js "messages", js "count", js "createdAt", js "consumed"], Json.isIndex k = false := by
  decide

theorem entryKeys_spec : [js "id", js "time", js "message", js "senderPubkey"].Nodup ∧
    ∀ k ∈ [js "id", js "time", js "message", js "senderPubkey"], Json.isIndex k = false := by
  decide

/-- A response that says how many messages are queued is a success. -/
theorem accepted_sent {r : Response} {n : ℕ} (hr : r.bare = json (.sent n)) (hn : n < 2 ^ 63) :
    accepted r = true := by
  have hstatus : r.status = 200 := congrArg Response.status hr
  have hbody : r.body = .sent n := congrArg Response.body hr
  obtain ⟨v, hv⟩ : ∃ v, v = Json.obj [(js "success", .bool true), (js "queued", .num (.ofInt n))] :=
    ⟨_, rfl⟩
  have harrived : bodyOf r = some v := by
    rw [bodyOf, hbody, hv]
    refine received_named _ sentKeys_spec fun p hp => ?_
    simp only [List.mem_cons, List.not_mem_nil, or_false] at hp
    rcases hp with rfl | rfl
    · exact .bool true
    · exact .num _
  have hsuccess : goField v "success" = [.bool true] := by rw [hv]; rfl
  have hqueued : goField v "queued" = [.num (.ofInt n)] := by rw [hv]; rfl
  unfold accepted
  rw [harrived, hv]
  dsimp only
  rw [← hv, hsuccess, hqueued, goInt64_ofInt (by omega), hstatus]
  rfl

/-- The texts of the entries, as the bridge reads them. -/
def textsOf (entries : List Entry) : Option (List JString) :=
  entries.mapM fun e => messageOf e.json.canon

/-- **What the bridge makes of a response to `/read`.** -/
theorem readFromShard_read {r : Response} {entries : List Entry} {createdAt : ℕ} {consumed : Bool}
    (hr : r.bare = json (.read entries createdAt consumed)) (hproper : ∀ e ∈ entries, e.json.Proper)
    (hcount : entries.length < 2 ^ 63) (hcreated : createdAt < 2 ^ 63) :
    readFromShard r = (textsOf entries).map (List.map frameOf) := by
  have hstatus : r.status = 200 := congrArg Response.status hr
  have hbody : r.body = .read entries createdAt consumed := congrArg Response.body hr
  obtain ⟨v, hv⟩ : ∃ v, v = Json.obj [(js "messages", .arr (entries.map fun e => e.json.canon)),
      (js "count", .num (.ofInt entries.length)), (js "createdAt", .num (.ofInt createdAt)),
      (js "consumed", .bool consumed)] := ⟨_, rfl⟩
  have harrived : bodyOf r = some v := by
    rw [bodyOf, hbody, hv]
    refine (received_named [(js "messages", .arr (entries.map Entry.json)),
      (js "count", .num (.ofInt entries.length)), (js "createdAt", .num (.ofInt createdAt)),
      (js "consumed", .bool consumed)] readKeys_spec fun p hp => ?_).trans ?_
    · simp only [List.mem_cons, List.not_mem_nil, or_false] at hp
      rcases hp with rfl | rfl | rfl | rfl
      · refine .arr fun x hx => ?_
        obtain ⟨e, he, rfl⟩ := List.mem_map.1 hx
        exact hproper e he
      · exact .num _
      · exact .num _
      · exact .bool consumed
    · simp only [List.map_cons, List.map_nil, Json.canon_arr, List.map_map]
      rfl
  have hmessages : goField v "messages" = [.arr (entries.map fun e => e.json.canon)] := by rw [hv]; rfl
  have hcounted : goField v "count" = [.num (.ofInt entries.length)] := by rw [hv]; rfl
  have hcreatedAt : goField v "createdAt" = [.num (.ofInt createdAt)] := by rw [hv]; rfl
  have hconsumed : goField v "consumed" = [.bool consumed] := by rw [hv]; rfl
  have htexts : messagesOf [.arr (entries.map fun e => e.json.canon)] = textsOf entries := by
    simp only [messagesOf, List.foldlM_cons, List.foldlM_nil, List.mapM_map, bind_pure]
    rfl
  unfold readFromShard
  rw [if_neg (by rw [hstatus]; decide), if_neg (by rw [hstatus]; decide), harrived, Option.bind_some]
  unfold framesOf
  rw [hv]
  dsimp only
  rw [← hv, hmessages, htexts, hcounted, hcreatedAt, hconsumed, goInt64_ofInt (by omega),
    goInt64_ofInt (by omega)]
  cases textsOf entries with
  | none => rfl
  | some texts => rfl

theorem canon_newEntry (f : SendFields) (entryId : Bytes) (t : ℕ) :
    (newEntry f entryId t).json.canon = (newEntry f entryId t).json :=
  Json.canon_named fun p hp => entryKeys_spec.2 p.1 (List.mem_map_of_mem hp)

/-- **The bridge reads the message of an entry.** -/
theorem messageOf_newEntry (f : SendFields) (entryId : Bytes) {t : ℕ} (ht : t < 2 ^ 63) :
    messageOf (newEntry f entryId t).json.canon = some f.message := by
  obtain ⟨v, hv⟩ : ∃ v, v = Json.obj [(js "id", .str (bytesToHex entryId)),
      (js "time", .num (.ofInt t)), (js "message", .str f.message),
      (js "senderPubkey", .str f.senderPubkey.lower)] := ⟨_, rfl⟩
  have hcanon : (newEntry f entryId t).json.canon = v := by
    rw [hv]
    exact canon_newEntry f entryId t
  have hid : goField v "id" = [.str (bytesToHex entryId)] := by rw [hv]; rfl
  have htime : goField v "time" = [.num (.ofInt t)] := by rw [hv]; rfl
  have hmessage : goField v "message" = [.str f.message] := by rw [hv]; rfl
  have hsender : goField v "senderPubkey" = [.str f.senderPubkey.lower] := by rw [hv]; rfl
  unfold messageOf
  rw [hcanon, hv]
  dsimp only
  rw [← hv, hid, htime, hmessage, hsender, goInt64_ofInt (by omega)]
  rfl

/-- The texts of a queue with one more entry. -/
theorem textsOf_append {entries : List Entry} {e : Entry} {text : JString}
    (he : messageOf e.json.canon = some text) :
    textsOf (entries ++ [e]) = (textsOf entries).map fun texts => texts ++ [text] := by
  unfold textsOf
  simp only [List.mapM_append, List.mapM_cons, List.mapM_nil, he]
  cases entries.mapM fun e => messageOf e.json.canon with
  | none => rfl
  | some texts => rfl

theorem textsOf_isSome {entries : List Entry} :
    (textsOf entries).isSome ↔ ∀ e ∈ entries, (messageOf e.json.canon).isSome := by
  induction entries with
  | nil => simp [textsOf]
  | cons e entries ih =>
    unfold textsOf at ih ⊢
    rw [List.forall_mem_cons, ← ih, List.mapM_cons]
    cases messageOf e.json.canon with
    | none => simp
    | some text =>
      cases entries.mapM fun e => messageOf e.json.canon with
      | none => simp
      | some texts => simp

theorem length_textsOf {entries : List Entry} {texts : List JString}
    (h : textsOf entries = some texts) : texts.length = entries.length := by
  induction entries generalizing texts with
  | nil =>
    cases h
    rfl
  | cons e entries ih =>
    unfold textsOf at ih h
    rw [List.mapM_cons] at h
    simp only [Option.bind_eq_bind, Option.bind_eq_some_iff, Option.pure_def] at h
    obtain ⟨text, -, rest, hrest, heq⟩ := h
    cases heq
    rw [List.length_cons, List.length_cons, ih hrest]

end Decode

/-! ## The way of a frame -/

theorem cleared_createdAt (m : Mailbox) (ttl : Number) (t : ℕ) :
    (m.cleared ttl t).createdAt = m.createdAt := by
  unfold Mailbox.cleared
  split
  · rfl
  · split <;> rfl

theorem length_cleared (m : Mailbox) (ttl : Number) (t : ℕ) :
    (m.cleared ttl t).messages.length ≤ m.messages.length := by
  unfold Mailbox.cleared
  split
  · exact Nat.le_refl _
  · split
    · exact Nat.zero_le _
    · exact Nat.le_refl _

theorem proper_newEntry (f : SendFields) (entryId : Bytes) (t : ℕ) :
    (newEntry f entryId t).json.Proper := by
  refine .obj entryKeys_spec.1 fun p hp => ?_
  simp only [List.mem_cons, List.not_mem_nil, or_false] at hp
  rcases hp with rfl | rfl | rfl | rfl
  · exact .str _
  · exact .num _
  · exact .str _
  · exact .str _

/-- A consuming read of the mailbox by the bridge: the secret is right, no quota
    is used up, and neither the record nor its backlog has expired. -/
structure Reads (env : Env) (t : ℕ) (kv : Kv) (id : HexStr 16 128) (rq : ReadRequest)
    (stored : Mailbox) : Prop where
  mailboxId : ∃ query : HexStr 16 128, rq.mailboxId = some query.1 ∧ query.lower = id.lower
  secret : ∃ secret, rq.readSecret = some secret ∧ secret ≠ [] ∧
    constantTimeEqual (env.crypto.sha256Hex secret) stored.readSecretHash = true
  consuming : rq.peek = none ∧ rq.requestId = none
  ip : (Number.ofInt 300).le (.ofInt (bucketCount kv t (js "read-ip:" ++ clientIp rq.ip))) = false
  found : kv.get t (.mailbox id.lower) = some stored
  kept : stored.cleared env.cfg.ttlSeconds t = stored
  lifetime : env.cfg.mailboxTtlSeconds.toInt?.isSome

/-- **A consuming read answers the backlog.** -/
theorem Reads.answer {env : Env} {t : ℕ} {kv : Kv} {id : HexStr 16 128} {rq : ReadRequest}
    {stored : Mailbox} (h : Reads env t kv id rq stored) :
    (handle env t (.read rq) kv).1.bare = json (.read stored.messages stored.createdAt true) := by
  obtain ⟨query, hquery, hid⟩ := h.mailboxId
  obtain ⟨secret, hsecret, hne, hequal⟩ := h.secret
  obtain ⟨life, hlife⟩ := Option.isSome_iff_exists.1 h.lifetime
  have hfields : readFields rq = .ok ⟨query, secret, false, none⟩ := by
    have hfull : secret.isEmpty = false := by simpa using hne
    simp only [readFields, Check.orAnswer_bind]
    refine ⟨query, ?_, secret, ?_, ?_⟩
    · rw [hquery]
      exact HexStr.parse_eq_some.2 rfl
    · rw [hsecret]
      exact Option.filter_eq_some_iff.2 ⟨rfl, by simp [hfull]⟩
    · rw [h.consuming.1, h.consuming.2]
      rfl
  obtain ⟨s, hgate⟩ : ∃ s, (readGate rq.ip).run (KvOp.exec t (services env.crypto)) (kv, []) =
      (some none, s) := by
    have hip := h.ip
    unfold readGate
    rw [limited_run, if_neg (by simp [hip])]
    exact ⟨_, rfl⟩
  have hsame := gate_same (readGate_writes rq.ip) env.crypto t (kv, [])
  rw [hgate] at hsame
  have hfound : s.1.get t (.mailbox query.lower) = some stored := by
    rw [hid, Store.get_congr (hsame id.lower), h.found]
  obtain ⟨r, s', hrun, hbare, -⟩ :=
    readMailbox_run s.1 s.2 hlife rq ⟨query, secret, false, none⟩ hfound hequal
  have hhandle : handle env t (.read rq) kv = (r, s'.1) :=
    congrArg (fun p => (p.1.getD crashed, p.2))
      (runAt_passed (fun _ => readGate rq.ip) hfields hgate hrun)
  rw [hhandle, hbare, h.kept]
  rfl

section Way

variable {env : Env} {t : ℕ} {kv : Kv} {courier : Courier env.crypto} {now : ℕ} {id : HexStr 16 128}
  {frame : Bytes} {rq : SendRequest} {stored : Mailbox} {t' : ℕ} {kv' : Kv} {rq' : ReadRequest}
  {stored' : Mailbox}

/-- A read after the send returns what was there before, and the frame. -/
theorem Sends.read_back (h : Sends env t kv courier now id frame rq stored) (hframe : frame ≠ [])
    (hplain : Json.parse (encodeToString frame) = none)
    (hleft : kv' (.mailbox id.lower) = (handle env t (.send rq) kv).2 (.mailbox id.lower))
    (hread : Reads env t' kv' id rq' stored') :
    readFromShard (handle env t' (.read rq') kv').1 =
      (textsOf (stored.cleared env.cfg.ttlSeconds t).messages).map fun texts =>
        texts.map frameOf ++ [frame] := by
  obtain ⟨-, hwrote⟩ := h.queued hframe hplain
  obtain ⟨expires, hslot⟩ := hwrote.own
  have hstored : stored' =
      (stored.cleared env.cfg.ttlSeconds t).pushed (queuedEntry courier now id frame rq t) t := by
    obtain ⟨e, he, -, rfl⟩ := Store.get_eq_some.1 hread.found
    rw [hleft, hslot] at he
    exact (congrArg Slot.val (Option.some.inj he)).symm
  have hmessages : stored'.messages = (stored.cleared env.cfg.ttlSeconds t).messages ++
      [queuedEntry courier now id frame rq t] := hstored ▸ rfl
  have hcreated : stored'.createdAt = stored.createdAt := by
    rw [hstored]
    exact cleared_createdAt stored env.cfg.ttlSeconds t
  have hlength := length_cleared stored env.cfg.ttlSeconds t
  have harray := h.array
  have hdates := h.dates
  have hlimits : maxArray < 2 ^ 63 ∧ maxTime < 2 ^ 63 := by decide
  have hmessage : messageOf (queuedEntry courier now id frame rq t).json.canon =
      some (encodeToString frame) :=
    messageOf_newEntry (sentFields courier now id frame) rq.entryId (by omega)
  rw [readFromShard_read hread.answer, hmessages, textsOf_append hmessage, Option.map_map]
  · refine congrArg (fun f => Option.map f _) (funext fun texts => ?_)
    simp only [Function.comp_apply, List.map_append, List.map_cons, List.map_nil,
      frameOf_encodeToString]
  · intro e he
    rw [hmessages] at he
    rcases List.mem_append.1 he with he | he
    · exact h.entries e (cleared_sub _ _ _ e he)
    · rw [List.mem_singleton.1 he]
      exact proper_newEntry (sentFields courier now id frame) rq.entryId t
  · rw [hmessages, List.length_append, List.length_singleton]
    omega
  · rw [hcreated]
    omega

/-- A request that is refused is no success. -/
theorem Sends.not_accepted (h : Sends env t kv courier now id frame rq stored) (hframe : frame ≠ [])
    (hjson : Json.parse (encodeToString frame) ≠ none) :
    accepted (handle env t (.send rq) kv).1 = false := by
  unfold accepted
  rw [h.refused hframe hjson]
  rfl

theorem frame_ne_nil {np : NanoPack} {payload : Bytes} {req : SendReq}
    (h : unmarshalSend np payload = .ok req) : req.frame ≠ [] := by
  unfold unmarshalSend at h
  cases hfields : np.decodeID payload with
  | error e =>
    rw [hfields] at h
    cases h
  | ok fields =>
    rw [hfields] at h
    simp only [bind, Except.bind] at h
    split at h
    · cases h
    · next hbounds =>
      cases h
      intro hnil
      exact hbounds (Or.inl (congrArg List.length hnil))

/-- **A frame survives the relay** exactly if its base64 text is no JSON, and the
    bridge can read the messages that were queued before. -/
theorem frame_survives_iff {np : NanoPack} {payload : Bytes} {req : SendReq}
    (hreq : unmarshalSend np payload = .ok req)
    (hsend : Sends env t kv courier now id req.frame rq stored)
    (hleft : kv' (.mailbox id.lower) = (handle env t (.send rq) kv).2 (.mailbox id.lower))
    (hread : Reads env t' kv' id rq' stored') :
    (accepted (handle env t (.send rq) kv).1 = true ∧ ∃ earlier,
        earlier.length = (stored.cleared env.cfg.ttlSeconds t).messages.length ∧
        readFromShard (handle env t' (.read rq') kv').1 = some (earlier ++ [req.frame])) ↔
      Json.parse (encodeToString req.frame) = none ∧
        ∀ e ∈ (stored.cleared env.cfg.ttlSeconds t).messages, (messageOf e.json.canon).isSome := by
  have hframe := frame_ne_nil hreq
  rw [← textsOf_isSome]
  constructor
  · rintro ⟨haccepted, earlier, -, hback⟩
    have hplain : Json.parse (encodeToString req.frame) = none := by
      by_contra hjson
      rw [hsend.not_accepted hframe hjson] at haccepted
      cases haccepted
    refine ⟨hplain, ?_⟩
    rw [hsend.read_back hframe hplain hleft hread] at hback
    obtain ⟨texts, htexts, -⟩ := Option.map_eq_some_iff.1 hback
    rw [htexts]
    rfl
  · rintro ⟨hplain, hbacklog⟩
    obtain ⟨texts, htexts⟩ := Option.isSome_iff_exists.1 hbacklog
    obtain ⟨hbare, -⟩ := hsend.queued hframe hplain
    refine ⟨accepted_sent hbare ?_, texts.map frameOf, ?_, ?_⟩
    · have hlength := length_cleared stored env.cfg.ttlSeconds t
      have harray := hsend.array
      have hlimit : maxArray < 2 ^ 63 := by decide
      omega
    · rw [List.length_map, length_textsOf htexts]
    · rw [hsend.read_back hframe hplain hleft hread, htexts]
      rfl

end Way

/-! ### A frame that is taken for JSON -/

theorem plainCourier_size : (List.replicate 32 (0 : UInt8)).length = 32 := List.length_replicate

/-- A courier on a platform where every signature verifies. -/
def plainCourier : Courier (trustingEnv {}).crypto where
  pub := List.replicate 32 0
  priv := []
  size := plainCourier_size
  pair _ := rfl

/-- The platform of `trustingEnv` hashes every secret to zeros. -/
def emptyMailbox : Mailbox where
  readSecretHash := bytesToHex (List.replicate 32 0)
  clientPubkey := none
  messages := []
  createdAt := 0
  messagesEnqueuedAt := none
  replicaShardUrls := .arr []

/-- A store in which every mailbox is there, and empty. -/
def emptyMailboxes : Kv := fun k => match k with
  | .mailbox _ => some ⟨emptyMailbox, none⟩
  | _ => none

/-- The `/send` of a frame. -/
def plainSend (frame : Bytes) : SendRequest where
  ip := none
  body := Json.received (sendRequest plainCourier 0 (letters 16) frame)
  entryId := [1]
  freshIdentity := ⟨[], []⟩

/-- The `/read` that fetches it. -/
def plainRead : ReadRequest where
  ip := none
  mailboxId := some (letters 16)
  readSecret := some (js "s")
  peek := none
  requestId := none
  freshIdentity := ⟨[], []⟩

theorem plainSend_sends {frame : Bytes} (h : (encode (encodeToString frame)).length ≤ 32768) :
    Sends (trustingEnv {}) 0 emptyMailboxes plainCourier 0 (hexLetters 16 (by decide)) frame
      (plainSend frame) emptyMailbox where
  body := rfl
  short := by
    rw [← Bool.not_eq_true]
    intro hlong
    exact absurd (Number.ofInt_lt_ofInt.1 hlong) (by omega)
  fresh := by decide +kernel
  unseen := rfl
  sender := by decide +kernel
  target := by decide +kernel
  ip := (by decide +kernel : (Number.ofInt 120).le
    (.ofInt (bucketCount emptyMailboxes 0 (js "send-ip:" ++ js "unknown"))) = false)
  found := rfl
  room := by decide +kernel
  replays := by decide +kernel
  lifetime := by decide +kernel
  dates := by decide
  array := by decide
  entries := by simp [emptyMailbox]

theorem plainRead_reads :
    Reads (trustingEnv {}) 0 (handle (trustingEnv {}) 0 (.send (plainSend [1, 2, 3])) emptyMailboxes).2
      (hexLetters 16 (by decide)) plainRead
      ((emptyMailbox.cleared (.ofInt 1209600) 0).pushed
        (queuedEntry plainCourier 0 (hexLetters 16 (by decide)) [1, 2, 3] (plainSend [1, 2, 3]) 0) 0)
    where
  mailboxId := ⟨hexLetters 16 (by decide), rfl, rfl⟩
  secret := ⟨js "s", rfl, by decide, by decide +kernel⟩
  consuming := ⟨rfl, rfl⟩
  ip := by decide +kernel
  found := by
    have hsend : Sends (trustingEnv {}) 0 emptyMailboxes plainCourier 0 (hexLetters 16 (by decide))
        [1, 2, 3] (plainSend [1, 2, 3]) emptyMailbox := plainSend_sends (by decide)
    obtain ⟨life, hlife, hslot⟩ := (hsend.queued (by decide) (by decide)).2.slot
    obtain rfl : 31536000 = life := Option.some.inj ((Number.toInt?_ofInt _).symm.trans hlife)
    exact Store.get_live hslot rfl
  kept := rfl
  lifetime := by decide +kernel

/-- The body of an `opSend` with a frame. -/
def plainPayload (frame : Bytes) : Bytes := tagged.bytes [⟨1, frame⟩]

theorem unmarshalSend_plain {frame : Bytes} (h : 0 < frame.length ∧ frame.length ≤ maxFrameBytes) :
    unmarshalSend tagged (plainPayload frame) = .ok ⟨frame, [], [], []⟩ := by
  have hfields : tagged.decodeID (plainPayload frame) = .ok [⟨1, frame⟩] := by
    refine tagged.lossless _ fun f hf => ?_
    rw [List.mem_singleton.1 hf]
    have hlimit : maxFrameBytes < 2 ^ 32 := by decide
    exact ⟨show 1 < 2 ^ 8 by decide, show frame.length < 2 ^ 32 by omega⟩
  unfold unmarshalSend
  rw [hfields]
  exact if_neg (show ¬ (frame.length = 0 ∨ maxFrameBytes < frame.length) by omega)

theorem frame_survives_plainly :
    accepted (handle (trustingEnv {}) 0 (.send (plainSend [1, 2, 3])) emptyMailboxes).1 = true ∧
      ∃ earlier, earlier.length = 0 ∧
        readFromShard (handle (trustingEnv {}) 0 (.read plainRead)
          (handle (trustingEnv {}) 0 (.send (plainSend [1, 2, 3])) emptyMailboxes).2).1 =
        some (earlier ++ [[1, 2, 3]]) :=
  (frame_survives_iff (unmarshalSend_plain (by decide)) (plainSend_sends (by decide)) rfl
    plainRead_reads).2 ⟨by decide, by simp [emptyMailbox, Mailbox.cleared]⟩

/-- The base64 text of the frame is `true`, and the shard refuses it. -/
theorem json_frame_refused :
    ¬ ∀ (np : NanoPack) (payload : Bytes) (req : SendReq) (env : Env) (t : ℕ) (kv : Kv)
      (courier : Courier env.crypto) (now : ℕ) (id : HexStr 16 128) (rq : SendRequest)
      (stored : Mailbox), unmarshalSend np payload = .ok req →
      Sends env t kv courier now id req.frame rq stored →
      accepted (handle env t (.send rq) kv).1 = true := by
  intro h
  have hrefused := h tagged (plainPayload [0xb6, 0xbb, 0x9e]) _ (trustingEnv {}) 0 emptyMailboxes
    plainCourier 0 (hexLetters 16 (by decide)) _ _ (unmarshalSend_plain (by decide))
    (plainSend_sends (by decide))
  revert hrefused
  decide +kernel

end Bridge
