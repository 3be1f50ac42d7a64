/-
  The texts that one key of the Router signs: capabilities, response envelopes,
  server greetings and routing tables.

  A shard rebuilds the text of a capability from the fields of `/create`.  A
  greeting and a table are never such a text; an envelope starts with a text of
  the client, which may be the stem of a capability.

  * `Stem` are the request ids that are, and `response_collides_iff` says that
    they are the exact ones;
  * `capabilities_minted`: in a run without stems, what a shard accepts was
    minted for a key that signed its registration.
-/
import NexTalkRelay.Router.Signed
import NexTalkRelay.Shard.Create

open Effect Js Runs

namespace Capability

/-! ## Capability texts -/

/-- A capability of the second format up to its nonce. -/
def capStem (mailboxId : HexStr 16 128) (clientPubkey : HexStr 64 64) (capExp : Number) : JString :=
  js "cap:v2:" ++ mailboxId.lower ++ js ":" ++ clientPubkey.lower ++ js ":mailbox.create:" ++
    capExp.text ++ js ":"

theorem capTextV2_eq (mailboxId : HexStr 16 128) (clientPubkey : HexStr 64 64) (capExp : Number)
    (nonce : JString) :
    Shard.capTextV2 mailboxId.lower clientPubkey.lower (js "mailbox.create") capExp nonce =
      capStem mailboxId clientPubkey capExp ++ nonce := by
  have hscope : js ":mailbox.create:" = js ":" ++ (js "mailbox.create" ++ js ":") := by decide
  unfold Shard.capTextV2 capStem
  rw [hscope]
  simp only [List.append_assoc]

/-- A text that a shard rebuilds for the fields of some `/create` at some
    instant, before the capability expires. -/
def Reconstructs (message : JString) : Prop :=
  ∃ body f, ∃ t : ℕ, Shard.createFields body = .ok f ∧ f.capExp.lt (.ofInt t) = false ∧
    f.message = some message

theorem createFields_spec {body : Option Json} {f : Shard.CreateFields}
    (h : Shard.createFields body = .ok f) :
    f.capExp.isFinite = true ∧ ∀ clientPubkey nonce, f.cap = .v2 clientPubkey nonce → nonce ≠ [] := by
  simp only [Shard.createFields, Check.orAnswer_bind, Check.orCrash_bind, Check.require_bind] at h
  obtain ⟨body, -, mailboxId, -, hash, -, -, capExp, -, hfin, capSig, -, version, -, h⟩ := h
  split at h
  · obtain ⟨clientPubkey, -, h⟩ := Check.bind_eq_ok.1 h
    obtain ⟨nonce, hnonce, h⟩ := Check.orAnswer_bind.1 h
    cases h
    refine ⟨hfin, ?_⟩
    rintro _ _ ⟨⟩ rfl
    cases (Option.filter_eq_some_iff.1 hnonce).2
  · cases h
    refine ⟨hfin, ?_⟩
    rintro _ _ ⟨⟩

/-- The two formats of a capability. -/
theorem message_cases {f : Shard.CreateFields} {message : JString} (h : f.message = some message) :
    (∃ clientPubkey nonce, f.cap = .v2 clientPubkey nonce ∧ ∃ pk : HexStr 64 64,
        clientPubkey.str? = some pk ∧ message = capStem f.mailboxId pk f.capExp ++ nonce) ∨
      f.cap = .v1 ∧ message = Shard.capText f.mailboxId.lower f.readSecretHash.lower f.capExp := by
  unfold Shard.CreateFields.message at h
  cases hc : f.cap with
  | v1 =>
    rw [hc] at h
    exact Or.inr ⟨rfl, (Option.some.inj h).symm⟩
  | v2 clientPubkey nonce =>
    rw [hc] at h
    obtain ⟨pk, hpk, rfl⟩ := Option.map_eq_some_iff.1 h
    exact Or.inl ⟨clientPubkey, nonce, rfl, pk, hpk, capTextV2_eq _ _ _ _⟩

theorem ascii_js_cap : Ascii (js "cap:v2:") ∧ Ascii (js ":mailbox.create:") ∧ Ascii (js ":") ∧
    Ascii (js "cap:") :=
  ⟨ascii_of_all (by decide), ascii_of_all (by decide), ascii_of_all (by decide),
    ascii_of_all (by decide)⟩

theorem ascii_capStem (mailboxId : HexStr 16 128) (clientPubkey : HexStr 64 64) (d : Dec) :
    Ascii (capStem mailboxId clientPubkey (.fin d)) := by
  obtain ⟨h1, h2, h3, -⟩ := ascii_js_cap
  simp only [capStem, ascii_append]
  exact ⟨⟨⟨⟨⟨⟨h1, ascii_of_isHexOf mailboxId.isHexOf_lower⟩, h3⟩,
    ascii_of_isHexOf clientPubkey.isHexOf_lower⟩, h2⟩, d.ascii_text⟩, h3⟩

theorem ascii_capText (mailboxId : HexStr 16 128) (hash : HexStr 64 64) (d : Dec) :
    Ascii (Shard.capText mailboxId.lower hash.lower (.fin d)) := by
  obtain ⟨-, -, h3, h4⟩ := ascii_js_cap
  simp only [Shard.capText, ascii_append]
  exact ⟨⟨⟨⟨⟨h4, ascii_of_isHexOf mailboxId.isHexOf_lower⟩, h3⟩,
    ascii_of_isHexOf hash.isHexOf_lower⟩, h3⟩, d.ascii_text⟩

/-- Every capability text starts with `c`. -/
theorem encode_message_head {f : Shard.CreateFields} {message : JString}
    (h : f.message = some message) : ∃ r, encode message = 99 :: r := by
  have hcap : js "cap:" = 99 :: js "ap:" := by decide
  have hcap2 : js "cap:v2:" = 99 :: js "ap:v2:" := by decide
  rcases message_cases h with ⟨-, nonce, -, pk, -, rfl⟩ | ⟨-, rfl⟩
  · simp only [capStem, hcap2, List.cons_append]
    exact ⟨_, encode_cons_ascii (by decide) _⟩
  · simp only [Shard.capText, hcap, List.cons_append]
    exact ⟨_, encode_cons_ascii (by decide) _⟩

/-! ## Greetings, tables and envelopes -/

theorem hello_separate (protocol nonce serverPublicKey timestamp : JString) {message : JString}
    (h : Reconstructs message) :
    encode (Router.helloText protocol nonce serverPublicKey timestamp) ≠ encode message := by
  obtain ⟨_, f, _, -, -, hm⟩ := h
  obtain ⟨r, hr⟩ := encode_message_head hm
  have hhead : js "NexTalk Server Authentication:" = 78 :: js "exTalk Server Authentication:" := by
    decide
  simp only [Router.helloText, hhead, List.cons_append]
  rw [encode_cons_ascii (by decide), hr]
  intro he
  exact absurd (List.cons.inj he).1 (by decide)

theorem table_separate (ps : List (JString × Json)) {message : JString} (h : Reconstructs message) :
    encode (Json.obj ps).stringify ≠ encode message := by
  obtain ⟨_, f, _, -, -, hm⟩ := h
  obtain ⟨r, hr⟩ := encode_message_head hm
  have hhead : js "\x7b" = [123] := by decide
  simp only [Json.stringify, hhead, List.cons_append]
  rw [encode_cons_ascii (by decide), hr]
  intro he
  exact absurd (List.cons.inj he).1 (by decide)

/-- A request id that, followed by the status, starts with a capability of the
    second format up to its nonce, for an instant that a clock can show. -/
def Stem (requestId : JString) : Prop :=
  ∃ mailboxId clientPubkey, ∃ capExp : Number, capExp.isFinite = true ∧
    capExp.lt (.ofInt 0) = false ∧
      capStem mailboxId clientPubkey capExp <+: requestId ++ js ":200:"

theorem responseText_eq (requestId timestamp bodyHash : JString) :
    Router.responseText requestId 200 timestamp bodyHash =
      (requestId ++ js ":200:") ++ (timestamp ++ js ":" ++ bodyHash) := by
  have h200 : js ":200:" = js ":" ++ (digits 200 ++ js ":") := by decide
  simp only [Router.responseText, h200, List.append_assoc]

/-- The stem of a capability that starts an envelope ends before its timestamp. -/
theorem stem_of_prefix {requestId timestamp bodyHash : JString} (ht : isDigits timestamp = true)
    (hb : isHexOf 64 64 bodyHash = true) {mailboxId : HexStr 16 128} {clientPubkey : HexStr 64 64}
    {capExp : Number}
    (h : capStem mailboxId clientPubkey capExp <+:
      Router.responseText requestId 200 timestamp bodyHash) :
    capStem mailboxId clientPubkey capExp <+: requestId ++ js ":200:" := by
  have hc : js ":" = [colon] := by decide
  have hexp : colon ∉ capExp.text := capExp.colon_notMem_text
  have htime := colon_notMem_of_isDigits ht
  unfold capStem at h ⊢
  rw [responseText_eq, hc, List.append_assoc timestamp, List.singleton_append] at h
  rw [hc]
  refine (Delim.prefix_cases htime (colon_notMem_of_isHexOf hb) h).resolve_right fun hlate => ?_
  -- the scope would be the status
  have hscope : js ":mailbox.create:" = (colon :: js "mailbox.create") ++ [colon] := by decide
  have h200 : js ":200:" = (colon :: js "200") ++ [colon] := by decide
  have hlate' : (js "cap:v2:" ++ mailboxId.lower ++ [colon] ++ clientPubkey.lower ++
      colon :: js "mailbox.create") ++ colon :: capExp.text =
      (requestId ++ colon :: js "200") ++ colon :: timestamp := by
    simpa only [hscope, h200, List.append_assoc, List.singleton_append, List.cons_append,
      List.nil_append] using hlate
  obtain ⟨hfront, -⟩ := Delim.cut_last hexp htime hlate'
  have hword := (Delim.cut_last (by decide) (by decide) hfront).2
  exact absurd hword (by decide)

/-- An envelope ends with a hash, which is too long for an expiry. -/
theorem envelope_ne_capText (requestId : JString) (timestamp : JString) {bodyHash : JString}
    (hb : isHexOf 64 64 bodyHash = true) (mailboxId hash : JString) (d : Dec) :
    Router.responseText requestId 200 timestamp bodyHash ≠
      Shard.capText mailboxId hash (.fin d) := by
  have hc : js ":" = [colon] := by decide
  intro h
  unfold Router.responseText Shard.capText at h
  rw [hc] at h
  simp only [List.append_assoc, List.singleton_append] at h
  have hlast : (requestId ++ colon :: (digits 200 ++ colon :: timestamp)) ++ colon :: bodyHash =
      (js "cap:" ++ (mailboxId ++ colon :: hash)) ++ colon :: (Number.fin d).text := by
    simpa only [List.append_assoc, List.cons_append] using h
  have hd : bodyHash = d.text :=
    (Delim.cut_last (colon_notMem_of_isHexOf hb) (Number.colon_notMem_text _) hlast).2
  obtain ⟨hlo, -, hhex⟩ := isHexOf_iff.1 hb
  have hshort := Dec.length_text_le (a := d) (hd ▸ hhex)
  rw [← hd] at hshort
  omega

/-- A body of `/create` with the given capability. -/
def forgedBody (mailboxId : HexStr 16 128) (clientPubkey : HexStr 64 64) (capExp : Number)
    (nonce : JString) : Json :=
  .obj [(js "mailbox_id", .str mailboxId.1), (js "read_secret_hash", .str clientPubkey.1),
    (js "cap_exp", if capExp.truthy then .num capExp else .str (js "0")), (js "cap_sig", .str (js "s")),
    (js "cap_version", .num (.ofInt 2)), (js "client_pubkey", .str clientPubkey.1),
    (js "cap_nonce", .str nonce)]

/-- What a shard reads from it. -/
def forgedFields (mailboxId : HexStr 16 128) (clientPubkey : HexStr 64 64) (capExp : Number)
    (nonce : JString) : Shard.CreateFields where
  mailboxId
  readSecretHash := clientPubkey
  capExp
  capSig := js "s"
  cap := .v2 { val := clientPubkey, isString := true } nonce
  replicas := []

theorem forgedBody_fields (mailboxId : HexStr 16 128) (clientPubkey : HexStr 64 64) (d : Dec)
    {nonce : JString} (hn : nonce ≠ []) :
    Shard.createFields (some (forgedBody mailboxId clientPubkey (.fin d) nonce)) =
      .ok (forgedFields mailboxId clientPubkey (.fin d) nonce) := by
  have hexp : ∃ v, (forgedBody mailboxId clientPubkey (.fin d) nonce).field (js "cap_exp") = some v ∧
      Json.truthy (some v) = true ∧ v.toNumber = some (.fin d) := by
    cases htruthy : (Number.fin d).truthy with
    | true => exact ⟨.num (.fin d), by simp only [forgedBody, htruthy]; rfl, htruthy, rfl⟩
    | false =>
      have hzero : d = Dec.ofDigits 0 0 := by
        have hm : d.mant = 0 := by simpa [Number.truthy] using htruthy
        obtain ⟨m, e, hcanon⟩ := d
        dsimp only at hm
        subst hm
        obtain h | ⟨-, rfl⟩ := hcanon
        · exact absurd rfl h
        · rfl
      refine ⟨.str (js "0"), by simp only [forgedBody, htruthy]; rfl, by decide, ?_⟩
      rw [hzero]
      decide
  obtain ⟨v, hv, htruthy, hnumber⟩ := hexp
  simp only [Shard.createFields, Check.orAnswer_bind, Check.orCrash_bind, Check.require_bind]
  refine ⟨_, rfl, mailboxId, hexField_eq_some.2 rfl, clientPubkey, hexField_eq_some.2 rfl, ?_⟩
  rw [hv]
  refine ⟨htruthy, .fin d, hnumber, rfl, js "s", rfl, .ofInt 2, rfl, ?_⟩
  rw [if_pos rfl]
  refine Check.bind_eq_ok.2 ⟨_, testedField_hex (by decide) clientPubkey _, ?_⟩
  refine Check.orAnswer_bind.2 ⟨nonce, Option.filter_eq_some_iff.2 ⟨rfl, ?_⟩, rfl⟩
  cases nonce with
  | nil => exact absurd rfl hn
  | cons c s => rfl

/-- **Envelopes collide with capabilities exactly when the request id is a stem.** -/
theorem response_collides_iff (requestId : JString) {timestamp bodyHash : JString}
    (ht : isDigits timestamp = true) (hb : isHexOf 64 64 bodyHash = true) :
    (∃ message, Reconstructs message ∧
      encode (Router.responseText requestId 200 timestamp bodyHash) = encode message) ↔
        Stem requestId := by
  constructor
  · rintro ⟨message, ⟨body, f, t, hf, hexp, hm⟩, he⟩
    obtain ⟨hfin, -⟩ := createFields_spec hf
    obtain ⟨d, hd⟩ := Number.isFinite_iff.1 hfin
    rcases message_cases hm with ⟨-, nonce, -, pk, -, rfl⟩ | ⟨-, rfl⟩
    · rw [hd] at he
      obtain ⟨rest, hrest, -⟩ := encode_eq_ascii_append (ascii_capStem f.mailboxId pk d)
        (he.trans (encode_ascii_append (ascii_capStem f.mailboxId pk d) nonce))
      refine ⟨f.mailboxId, pk, f.capExp, hfin, ?_, ?_⟩
      · rw [hd] at hexp ⊢
        rw [← Bool.not_eq_true, Number.lt_ofInt, not_lt] at hexp ⊢
        exact le_trans (by positivity) hexp
      · rw [hd]
        exact stem_of_prefix ht hb ⟨rest, hrest.symm⟩
    · rw [hd] at he
      exact absurd (encode_eq_ascii (ascii_capText _ _ d) he) (envelope_ne_capText _ _ hb _ _ d)
  · rintro ⟨mailboxId, clientPubkey, capExp, hfin, hexp, nonce, hstem⟩
    obtain ⟨d, rfl⟩ := Number.isFinite_iff.1 hfin
    have htext : Router.responseText requestId 200 timestamp bodyHash =
        capStem mailboxId clientPubkey (.fin d) ++ (nonce ++ (timestamp ++ js ":" ++ bodyHash)) := by
      rw [responseText_eq, ← hstem, List.append_assoc]
    have hne : nonce ++ (timestamp ++ js ":" ++ bodyHash) ≠ [] := by
      simp [show js ":" = [58] by decide]
    have hm (n : JString) : (forgedFields mailboxId clientPubkey (.fin d) n).message =
        some (capStem mailboxId clientPubkey (.fin d) ++ n) := congrArg some (capTextV2_eq _ _ _ _)
    exact ⟨_, ⟨_, _, 0, forgedBody_fields mailboxId clientPubkey d hne, hexp, hm _⟩,
      by rw [htext]⟩

/-! ## Minted capabilities -/

theorem ascii_minted (env : Router.Env) (pubkey : HexStr 64 64) (capExp : ℕ) (nonce : Bytes) :
    Ascii (Router.capText (Router.mailboxIdOf env pubkey) pubkey.lower capExp (bytesToHex nonce)) := by
  obtain ⟨h1, h2, h3, -⟩ := ascii_js_cap
  simp only [Router.capText, ascii_append]
  exact ⟨⟨⟨⟨⟨⟨⟨h1, ascii_of_isHexOf (env.crypto.isHexOf_hmacHex _ _)⟩, h3⟩,
    ascii_of_isHexOf pubkey.isHexOf_lower⟩, h2⟩, ascii_digits capExp⟩, h3⟩,
    ascii_of_isHexOf (isHexOf_bytesToHex nonce)⟩

/-- A shard that rebuilds the text of a minted capability was given its mailbox
    and its client, in the second format. -/
theorem minted_fields (env : Router.Env) {pubkey : HexStr 64 64} {capExp : ℕ} {nonce : Bytes}
    {f : Shard.CreateFields} (h : f.message = some (Router.capText (Router.mailboxIdOf env pubkey)
      pubkey.lower capExp (bytesToHex nonce))) :
    f.mailboxId.lower = Router.mailboxIdOf env pubkey ∧ f.clientPubkey = some pubkey.lower := by
  have hc : js ":" = [colon] := by decide
  have hid : colon ∉ Router.mailboxIdOf env pubkey :=
    colon_notMem_of_isHexOf (env.crypto.isHexOf_hmacHex _ _)
  have hscope : js ":mailbox.create:" = colon :: js "mailbox.create:" := by decide
  rcases message_cases h with ⟨clientPubkey, n, hcap, pk, hpk, htext⟩ | ⟨-, htext⟩
  · unfold Router.capText capStem at htext
    rw [hc, hscope] at htext
    simp only [List.append_assoc, List.cons_append, List.append_cancel_left_eq] at htext
    obtain ⟨hmailbox, hrest⟩ := Delim.cut hid f.mailboxId.colon_notMem_lower htext
    obtain ⟨hclient, -⟩ := Delim.cut pubkey.colon_notMem_lower pk.colon_notMem_lower hrest
    refine ⟨hmailbox.symm, ?_⟩
    unfold Shard.CreateFields.clientPubkey
    rw [hcap, hclient]
    exact congrArg (Option.map HexStr.lower) hpk
  · -- in the first format the mailbox would be `v2`
    have hv2 : js "cap:v2:" = js "cap:" ++ (js "v2" ++ [colon]) := by decide
    unfold Router.capText Shard.capText at htext
    rw [hc, hv2] at htext
    simp only [List.append_assoc, List.singleton_append, List.append_cancel_left_eq] at htext
    have hmailbox := (Delim.cut (by decide) f.mailboxId.colon_notMem_lower htext).1
    have hlen := (isHexOf_iff.1 f.mailboxId.isHexOf_lower).1
    rw [← hmailbox] at hlen
    exact absurd hlen (by decide)

/-! ## Runs of the Router -/

/-- The request does not ask for an envelope under a stem. -/
def Plain : Router.Request → Prop
  | .register rq => ∀ f, Router.registerFields rq.body = .ok f → ∀ id ∈ f.requestId,
      ∀ text ∈ id.toStr, ¬ Stem text
  | _ => True

/-- What the Router signed outside of `/register`'s capabilities is no text that a
    shard rebuilds, not even by its bytes. -/
def Separated (w : Router.World) : Prop :=
  ∀ p ∈ w.signed, p.1 ≠ .handleRegister → ∀ message, Reconstructs message →
    encode p.2 ≠ encode message

/-- Under the key of the Router only what it signed verifies. -/
def Unforgeable (env : Router.Env) (w : Router.World) : Prop :=
  ∀ pub sig m, Shard.hexToBytes env.routerSigningPublic = some pub →
    env.crypto.verify pub sig m = true → ∃ p ∈ w.signed, m = encode p.2

/-- The capability belongs to a registration of the run, signed by the key that
    it names, and to the mailbox of that key. -/
def Owned (env : Router.Env) (run : List (ℕ × Router.Request)) (f : Shard.CreateFields) : Prop :=
  ∃ t r g pubkey, (t, Router.Request.register r) ∈ run ∧ Router.Registers env r g pubkey ∧
    f.mailboxId.lower = Router.mailboxIdOf env pubkey ∧ f.clientPubkey = some pubkey.lower

section
variable {env : Router.Env} {t : ℕ} {rq : Router.Request} {p : Router.Site × JString}

/-- **Step lemma.** -/
theorem separated_of_maySign (hplain : Plain rq) (h : Router.MaySign env t rq p)
    (hsite : p.1 ≠ .handleRegister) {message : JString} (hm : Reconstructs message) :
    encode p.2 ≠ encode message := by
  cases rq with
  | routingTable =>
    obtain ⟨ps, rfl⟩ := h
    exact table_separate ps hm
  | serverHello body =>
    obtain ⟨protocol, nonce, now, rfl⟩ := h
    exact hello_separate _ _ _ _ hm
  | register rq =>
    obtain ⟨f, pubkey, hreg, rfl | ⟨id, hid, text, htext, now, bodyHash, hb, rfl⟩⟩ := h
    · exact absurd rfl hsite
    · intro he
      exact hplain f hreg.fields id hid text htext
        ((response_collides_iff text (isDigits_digits now) hb).1 ⟨message, hm, he⟩)
  | _ => exact h.elim

theorem registers_of_maySign (h : Router.MaySign env t rq p) (hsite : p.1 = .handleRegister) :
    ∃ r g pubkey, rq = .register r ∧ Router.Registers env r g pubkey ∧
      p.2 = Router.capText (Router.mailboxIdOf env pubkey) pubkey.lower (t + 31536000 * 1000)
        (bytesToHex r.capNonce) := by
  cases rq with
  | routingTable => obtain ⟨ps, rfl⟩ := h; cases hsite
  | serverHello body => obtain ⟨protocol, nonce, now, rfl⟩ := h; cases hsite
  | register rq =>
    obtain ⟨f, pubkey, hreg, rfl | ⟨id, hid, text, htext, now, bodyHash, hb, rfl⟩⟩ := h
    · exact ⟨rq, f, pubkey, rfl, hreg, rfl⟩
    · cases hsite
  | _ => exact h.elim

end

/-- **Capabilities are minted by `/register` alone, where no request id is a
    stem.**  Over any run of requests from a Router that has signed nothing, no
    other signed text is one that a shard rebuilds; and if only what the Router
    signed verifies under its key, every `/create` that a shard accepts presents
    the mailbox of a key that signed its registration in the run. -/
theorem capabilities_minted (env : Router.Env)
    (answer : JString → Router.CreateBody → Router.Created) {s : Router.State}
    (hclean : s.2.signed = []) {run : List (ℕ × Router.Request)} (hplain : ∀ e ∈ run, Plain e.2)
    {w : Router.World} (hw : (after (Router.serveStep env answer) s run).2 = w) :
    Separated w ∧ (Unforgeable env w → ∀ senv : Shard.Env, senv.crypto = env.crypto →
      senv.routerSigningPublic = env.routerSigningPublic → ∀ t rq kv,
        (Shard.handle senv t (.create rq) kv).1.status = 200 →
          ∃ f, Shard.createFields rq.body = .ok f ∧ Owned env run f) := by
  have hsigned (p : Router.Site × JString) (hp : p ∈ w.signed) :
      ∃ e ∈ run, Router.MaySign env e.1 e.2 p := by
    rw [← hw] at hp
    refine (Router.run_signed hp).resolve_left ?_
    rw [hclean]
    exact List.not_mem_nil
  have hseparated : Separated w := by
    intro p hp hsite message hm
    obtain ⟨e, he, hsign⟩ := hsigned p hp
    exact separated_of_maySign (hplain e he) hsign hsite hm
  refine ⟨hseparated, fun hideal senv hcrypto hpublic t rq kv hok => ?_⟩
  obtain ⟨f, -, hf, ⟨hexp, message, hm, hverify⟩, -⟩ := Shard.create_accepted hok
  refine ⟨f, hf, ?_⟩
  rw [hcrypto, hpublic] at hverify
  unfold Shard.verifyEd25519Message at hverify
  split at hverify
  · next pub sig hpub _ =>
    obtain ⟨p, hp, hencode⟩ := hideal pub sig _ hpub hverify
    have hsite : p.1 = .handleRegister := by
      by_contra hsite
      exact hseparated p hp hsite message ⟨rq.body, f, t, hf, hexp, hm⟩ hencode.symm
    obtain ⟨e, he, hsign⟩ := hsigned p hp
    obtain ⟨r, g, pubkey, hreq, hreg, htext⟩ := registers_of_maySign hsign hsite
    rw [htext] at hencode
    rw [encode_eq_ascii (ascii_minted env pubkey _ _) hencode] at hm
    exact ⟨e.1, r, g, pubkey, hreq ▸ he, hreg, minted_fields env hm⟩
  · cases hverify

/-! ## Two runs -/

/-- The registration of the key `00…0`, with a nonce. -/
def honestRegistration : Router.RegisterRequest := { Router.zeroRegistration with capNonce := [7] }

/-- A platform on which the key `00` of the Router verifies one text only. -/
def onlyVerifies (message : JString) : Crypto :=
  { Crypto.trusting with verify := fun pub _ m => pub != [0] || m == encode message }

/-- A Router whose signature verifies for one capability only. -/
def honestEnv : Router.Env :=
  { Router.meshEnv with
    routerSigningPublic := js "00"
    isSet := by decide
    crypto := onlyVerifies (Router.capText (List.replicate 64 48) Router.zeroKey.lower
      (31536000 * 1000) (bytesToHex [7])) }

/-- A shard that trusts this Router. -/
def honestShard : Shard.Env where
  cfg := {}
  routerSigningPublic := js "00"
  isSet := List.cons_ne_nil _ _
  crypto := honestEnv.crypto

theorem honest_registration_minted :
    ∃ f, Shard.createFields (some (Router.createBody honestEnv 0 honestRegistration Router.zeroKey
        [js "http://a"]).toJson) = .ok f ∧
      Owned honestEnv [(0, .register honestRegistration)] f := by
  refine (capabilities_minted honestEnv Router.up (s := Router.fresh) rfl ?_ rfl).2 ?_ honestShard
    rfl rfl 0 { ip := none, body := some (Router.createBody honestEnv 0 honestRegistration
      Router.zeroKey [js "http://a"]).toJson } (fun _ => none) (by decide +kernel)
  · intro e he
    obtain rfl := List.mem_singleton.1 he
    intro f hf id hid
    cases hf
    cases hid
  · intro pub sig m hpub hverify
    cases hpub
    have hm : m = encode _ := eq_of_beq hverify
    exact ⟨_, List.mem_singleton.2 rfl, hm⟩

/-- The id of a mailbox, for the capability of another client. -/
def forgedStem : JString :=
  capStem ⟨List.replicate 64 48, by decide⟩ Router.zeroKey (.ofInt 9999999999999) ++ js "x"

/-- A registration of the key `00…0` that asks for an envelope under a stem. -/
def forgingRegistration : Router.RegisterRequest where
  body := some (.obj [(js "pubkey", .str Router.zeroKey.1), (js "timestamp", .str (js "0")),
    (js "signature", .str (List.replicate 128 48)), (js "request_id", .str forgedStem)])
  readSecret := []
  capNonce := [7]

theorem envelope_is_capability : ¬ Separated (after (Router.serveStep Router.meshEnv Router.up)
    Router.fresh [(0, .register forgingRegistration)]).2 := by
  intro h
  have hstem : Stem forgedStem :=
    ⟨⟨List.replicate 64 48, by decide⟩, Router.zeroKey, .ofInt 9999999999999, rfl, by decide +kernel,
      by decide +kernel⟩
  have hhash : isHexOf 64 64 (List.replicate 64 48) = true := by decide
  obtain ⟨message, hm, he⟩ :=
    (response_collides_iff forgedStem (isDigits_digits 0) hhash).2 hstem
  exact h (.buildSignedResponse, Router.responseText forgedStem 200 (digits 0) (List.replicate 64 48))
    (by decide +kernel) nofun message hm he

end Capability
