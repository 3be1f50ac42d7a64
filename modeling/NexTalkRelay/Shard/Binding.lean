/-
  What the signature of `/send` binds.

  A sender signs the hash of the bytes of its message.  The bytes are those of
  `TextEncoder`, which writes U+FFFD for every unpaired surrogate, while the shard
  stores the message as it came.

  * `SendTuple` is what is signed, and `Unforgeable` says that texts of `/send`
    verify only if their tuples were signed;
  * `send_accepted` says what an accepted request has passed and written;
  * `message_bound_iff`: the stored message is the signed one, whoever signed,
    exactly for the messages that their bytes determine.
-/
import NexTalkRelay.Js.Utf8
import NexTalkRelay.Shard.Inert
import NexTalkRelay.Shard.Replay

open Effect Js

namespace Shard

/-! ## Signed tuples -/

/-- What a sender signs. -/
structure SendTuple where
  sender : JString
  mailboxId : JString
  timestamp : JString
  message : JString

/-- The text that is signed for a tuple. -/
def SendTuple.text (c : Crypto) (T : SendTuple) : JString :=
  js "send:" ++ toLowerCase T.sender ++ js ":" ++ toLowerCase T.mailboxId ++ js ":" ++ T.timestamp ++
    js ":" ++ c.sha256Hex T.message

/-- The tuples agree but for the message, up to the case of letters. -/
structure SendTuple.Alike (T U : SendTuple) : Prop where
  sender : toLowerCase T.sender = toLowerCase U.sender
  mailboxId : toLowerCase T.mailboxId = toLowerCase U.mailboxId
  timestamp : T.timestamp = U.timestamp

/-- The tuple of a request. -/
def SendFields.tuple (f : SendFields) (timestamp : JString) : SendTuple where
  sender := f.senderPubkey.1
  mailboxId := f.mailboxId.1
  timestamp := timestamp
  message := f.message

section
variable (c : Crypto) (signed : Bytes → SendTuple → Prop)

/-- A text of `/send` verifies only if the holder of the key has signed its tuple. -/
def Unforgeable : Prop :=
  ∀ pub sig bytes, c.verify pub sig bytes = true → encode (js "send:") <+: bytes →
    ∃ T, signed pub T ∧ bytes = encode (T.text c)

/-- No signed message has the hash of this one by a collision. -/
def CollisionFree (message : JString) : Prop :=
  ∀ pub T, signed pub T → c.sha256 (encode T.message) = c.sha256 (encode message) →
    encode T.message = encode message

end

/-! ## The text and its fields -/

section
variable {c : Crypto}

theorem SendTuple.text_eq (T : SendTuple) :
    T.text c = js "send:" ++ Delim.fields colon
      [toLowerCase T.sender, toLowerCase T.mailboxId, T.timestamp] (c.sha256Hex T.message) := by
  have hc : js ":" = [colon] := by decide
  unfold SendTuple.text Delim.fields
  simp only [hc, List.append_assoc, List.foldr_cons, List.foldr_nil, List.cons_append,
    List.nil_append]

theorem ascii_sendText (f : SendFields) (ts : DigitStr) : Ascii ((f.tuple ts.1).text c) := by
  have hsend : Ascii (js "send:") := ascii_of_all (by decide)
  have hc : Ascii (js ":") := ascii_of_all (by decide)
  simp only [SendTuple.text, ascii_append]
  exact ⟨⟨⟨⟨⟨⟨⟨hsend, ascii_of_isHexOf f.senderPubkey.isHexOf_lower⟩, hc⟩,
    ascii_of_isHexOf f.mailboxId.isHexOf_lower⟩, hc⟩, ascii_of_isDigits ts.2⟩, hc⟩,
    ascii_of_isHexOf (c.isHexOf_sha256Hex _)⟩

/-- **Equal texts are those of equal fields**, up to the hash of the message. -/
theorem alike_of_text {T : SendTuple} {f : SendFields} {ts : DigitStr}
    (h : encode (T.text c) = encode ((f.tuple ts.1).text c)) :
    T.Alike (f.tuple ts.1) ∧ c.sha256 (encode T.message) = c.sha256 (encode f.message) := by
  have htext := encode_eq_ascii (ascii_sendText f ts) h
  rw [SendTuple.text_eq, SendTuple.text_eq, List.append_cancel_left_eq] at htext
  have hfree : ∀ g ∈ [f.senderPubkey.lower, f.mailboxId.lower, ts.1], colon ∉ g := by
    intro g hg
    simp only [List.mem_cons, List.not_mem_nil, or_false] at hg
    rcases hg with rfl | rfl | rfl
    · exact f.senderPubkey.colon_notMem_lower
    · exact f.mailboxId.colon_notMem_lower
    · exact ts.colon_notMem
  obtain ⟨hfields, hhash⟩ := Delim.fields_injective hfree
    (colon_notMem_of_isHexOf (c.isHexOf_sha256Hex f.message)) (by rfl) htext
  simp only [List.cons.injEq, and_true] at hfields
  obtain ⟨hsender, hmailbox, htimestamp⟩ := hfields
  exact ⟨⟨hsender, hmailbox, htimestamp⟩, Subtype.ext (bytesToHex_injective hhash)⟩

end

/-! ## Accepted requests -/

section
variable {env : Env} {t : ℕ} {kv : Kv} {rq : SendRequest}

/-- **An accepted message** was verified, and is the last one of its mailbox. -/
theorem send_accepted (h : (handle env t (.send rq) kv).1.status = 200) :
    ∃ f m, sendFields env rq.body = .ok f ∧ SenderAuthentic env t kv f ∧
      (∃ expires, (handle env t (.send rq) kv).2 (.mailbox f.mailboxId.lower) = some ⟨m, expires⟩) ∧
      m.messages.getLast? = some (newEntry f rq.entryId t) := by
  have hmoves := handle_moves env t kv (.send rq)
  obtain ⟨o, s', hrun, hcases⟩ := guarded_cases (sendMailbox env rq)
    (sendFields_answers refusal_bad env rq.body) (sendGate_writes env rq.ip)
    (sendGate_post env rq.ip) env t kv
  have hhandle : handle env t (.send rq) kv = (o.getD crashed, s'.1) := by
    simp only [handle, runAt, fetch, handleSend, hrun]
  have hauthentic : ∃ f, sendFields env rq.body = .ok f ∧ SenderAuthentic env t kv f := by
    rcases hcases with ⟨-, hrefusal⟩ | ⟨f, s₁, hf, hgate, -, -⟩
    · rw [hhandle] at h
      cases o with
      | none => cases h
      | some r => exact absurd h (hrefusal r rfl).1
    · refine ⟨f, hf, ?_⟩
      by_contra hno
      exact (sendGate_same hno).1 (by rw [hgate])
  obtain ⟨f, hf, hauth⟩ := hauthentic
  generalize handle env t (.send rq) kv = p at h hmoves ⊢
  obtain ⟨r, kv'⟩ := p
  cases hmoves with
  | idle _ hinert _ => cases hinert h
  | send hf' _ _ _ hwrote =>
    obtain rfl := Except.ok.inj (hf.symm.trans hf')
    exact ⟨f, _, hf, hauth, hwrote.own, List.getLast?_concat⟩

theorem sendFields_pubkey {body : Option Json} {f : SendFields}
    (h : sendFields env body = .ok f) :
    hexField 64 64 (fieldOf f.sender "pubkey") = some f.senderPubkey := by
  simp only [sendFields, Check.orAnswer_bind, Check.require_bind] at h
  obtain ⟨_, -, _, -, _, -, -, _, hpk, hret⟩ := h
  cases hret
  exact hpk

theorem authFields_ok {auth : Option Json} {pk : HexStr 64 64} {ts : DigitStr}
    {sig : HexStr 128 128} (h : authFields auth = .ok (pk, ts, sig)) :
    hexField 64 64 (fieldOf auth "pubkey") = some pk ∧
      fieldOf auth "timestamp" = some (.str ts.1) := by
  unfold authFields at h
  cases hpk : hexField 64 64 (fieldOf auth "pubkey") with
  | none => rw [hpk] at h; cases h
  | some pk' =>
    rw [hpk] at h
    cases hts : (Json.asStr? (fieldOf auth "timestamp")).bind DigitStr.parse with
    | none => rw [hts] at h; cases h
    | some ts' =>
      rw [hts] at h
      cases hsig : hexField 128 128 (fieldOf auth "signature") with
      | none => rw [hsig] at h; cases h
      | some sig' =>
        rw [hsig] at h
        cases h
        obtain ⟨s, hs, hparse⟩ := Option.bind_eq_some_iff.1 hts
        rw [DigitStr.parse_eq_some] at hparse
        subst hparse
        refine ⟨rfl, ?_⟩
        cases hv : fieldOf auth "timestamp" with
        | none => rw [hv] at hs; cases hs
        | some v =>
          rw [hv] at hs
          cases v with
          | str s => exact congrArg (some ∘ Json.str) (Option.some.inj hs)
          | _ => cases hs

theorem hexToBytes_eq {s : JString} {b : Bytes} (h : hexToBytes s = some b) : hexPairs s = b := by
  unfold hexToBytes at h
  split at h
  · cases h
  · exact Option.some.inj h

/-- What is verified of an authentic sender. -/
theorem SenderAuthentic.verified {f : SendFields} (hf : sendFields env rq.body = .ok f)
    (h : SenderAuthentic env t kv f) :
    ∃ (ts : DigitStr) (sig : Bytes), fieldOf f.sender "timestamp" = some (.str ts.1) ∧
      env.crypto.verify (hexPairs f.senderPubkey.1) sig
        (encode ((f.tuple ts.1).text env.crypto)) = true := by
  obtain ⟨senderTimestamp, htext, hok⟩ := h
  obtain ⟨pk, ts, sig, n, hauth, -, -, hverify, -, -⟩ := verifySenderAuth_accepts hok
  obtain ⟨hpk, hts⟩ := authFields_ok hauth
  rw [sendFields_pubkey hf] at hpk
  obtain rfl := Option.some.inj hpk
  rw [hts] at htext
  obtain rfl : ts.1 = senderTimestamp := Option.some.inj htext
  refine ⟨ts, hexPairs sig.1, hts, ?_⟩
  unfold verifyEd25519Message at hverify
  split at hverify
  · next pub sig' hpub hsig =>
    obtain rfl := hexToBytes_eq hpub
    obtain rfl := hexToBytes_eq hsig
    exact hverify
  · cases hverify

end

/-! ## Exact binding -/

section
variable {env : Env} {t : ℕ} {kv : Kv} {rq : SendRequest}

/-- The tuple with the message `m'` in the place of `m`. -/
def SendTuple.swap (m m' : JString) (T : SendTuple) : SendTuple :=
  { T with message := if T.message = m then m' else T.message }

/-- The same tuples, but for one message. -/
def swapped (signed : Bytes → SendTuple → Prop) (m m' : JString) (pub : Bytes) (T : SendTuple) : Prop :=
  ∃ U, signed pub U ∧ T = U.swap m m'

section
variable {c : Crypto} {signed : Bytes → SendTuple → Prop} {m m' : JString}

theorem SendTuple.encode_swap (hbytes : encode m' = encode m) (T : SendTuple) :
    encode (T.swap m m').message = encode T.message := by
  unfold SendTuple.swap
  dsimp only
  split
  · next heq => rw [hbytes, heq]
  · rfl

theorem unforgeable_swapped (hbytes : encode m' = encode m) (h : Unforgeable c signed) :
    Unforgeable c (swapped signed m m') := by
  intro pub sig bytes hverify hprefix
  obtain ⟨T, hT, rfl⟩ := h pub sig bytes hverify hprefix
  refine ⟨T.swap m m', ⟨T, hT, rfl⟩, ?_⟩
  unfold SendTuple.text Crypto.sha256Hex
  rw [T.encode_swap hbytes]
  rfl

theorem collisionFree_swapped {message : JString} (hbytes : encode m' = encode m)
    (h : CollisionFree c signed message) : CollisionFree c (swapped signed m m') message := by
  rintro pub _ ⟨T, hT, rfl⟩ hhash
  rw [T.encode_swap hbytes] at hhash ⊢
  exact h pub T hT hhash

end

/-- **The signature binds the bytes of the message**, and the message itself for
    all signers that have signed what verifies iff its bytes determine it. -/
theorem message_bound_iff (hok : (handle env t (.send rq) kv).1.status = 200)
    {f : SendFields} (hf : sendFields env rq.body = .ok f)
    {signed : Bytes → SendTuple → Prop} (hideal : Unforgeable env.crypto signed)
    (hfree : CollisionFree env.crypto signed f.message) :
    ∃ (ts : DigitStr) (m : Mailbox) (expires : Option ℤ),
      fieldOf f.sender "timestamp" = some (.str ts.1) ∧
      (handle env t (.send rq) kv).2 (.mailbox f.mailboxId.lower) = some ⟨m, expires⟩ ∧
      m.messages.getLast?.map Entry.message = some f.message ∧
      (∃ T, signed (hexPairs f.senderPubkey.1) T ∧ T.Alike (f.tuple ts.1) ∧
        encode T.message = encode f.message) ∧
      ((∀ signed', Unforgeable env.crypto signed' → CollisionFree env.crypto signed' f.message →
        ∃ T, signed' (hexPairs f.senderPubkey.1) T ∧ T.Alike (f.tuple ts.1) ∧
          T.message = f.message) ↔ Paired f.message ∧ 0xFFFD ∉ f.message) := by
  obtain ⟨f', m, hf', hauth, ⟨expires, hslot⟩, hlast⟩ := send_accepted hok
  obtain rfl := Except.ok.inj (hf.symm.trans hf')
  obtain ⟨ts, sig, hts, hverify⟩ := hauth.verified hf
  have hprefix : encode (js "send:") <+: encode ((f.tuple ts.1).text env.crypto) := by
    have hsend : Ascii (js "send:") := ascii_of_all (by decide)
    have hword := encode_ascii_append hsend []
    rw [List.append_nil] at hword
    rw [SendTuple.text_eq, encode_ascii_append hsend, hword]
    exact List.prefix_append _ _
  have hsigned {signed' : Bytes → SendTuple → Prop} (hideal' : Unforgeable env.crypto signed')
      (hfree' : CollisionFree env.crypto signed' f.message) :
      ∃ T, signed' (hexPairs f.senderPubkey.1) T ∧ T.Alike (f.tuple ts.1) ∧
        encode T.message = encode f.message := by
    obtain ⟨T, hT, htext⟩ := hideal' _ _ _ hverify hprefix
    obtain ⟨halike, hhash⟩ := alike_of_text htext.symm
    exact ⟨T, hT, halike, hfree' _ T hT hhash⟩
  refine ⟨ts, m, expires, hts, hslot, ?_, hsigned hideal hfree, ?_⟩
  · rw [hlast]
    rfl
  rw [← encode_determines_iff]
  constructor
  · intro hall m' hbytes
    by_contra hne
    obtain ⟨T, ⟨U, hU, rfl⟩, -, hmessage⟩ := hall (swapped signed f.message m')
      (unforgeable_swapped hbytes hideal) (collisionFree_swapped hbytes hfree)
    unfold SendTuple.swap at hmessage
    dsimp only at hmessage
    split at hmessage
    · exact hne hmessage
    · next hother => exact hother hmessage
  · intro hdetermines signed' hideal' hfree'
    obtain ⟨T, hT, halike, hbytes⟩ := hsigned hideal' hfree'
    exact ⟨T, hT, halike, hdetermines _ hbytes⟩

end

/-! ### A surrogate in the place of U+FFFD -/

/-- A store in which every mailbox is there, and empty. -/
def openMailboxes : Kv := fun k => match k with
  | .mailbox _ => some ⟨{ readSecretHash := letters 64
                          clientPubkey := none
                          messages := []
                          createdAt := 0
                          messagesEnqueuedAt := none
                          replicaShardUrls := .arr [] }, none⟩
  | _ => none

/-- What a sender signs for the message. -/
def signedTuple (message : JString) : SendTuple := ⟨letters 64, letters 16, js "0", message⟩

/-- A shard on which one text verifies. -/
def signerEnv (message : JString) : Env :=
  { trustingEnv {} with
    crypto :=
      { Crypto.trusting with
        verify := fun _ _ bytes => bytes == encode ((signedTuple message).text Crypto.trusting) } }

/-- The `/send` that carries it. -/
def tupleSend (message : JString) : SendRequest where
  ip := none
  body := some (.obj [(js "mailbox_id", .str (letters 16)), (js "message", .str message),
    (js "sender", .obj [(js "pubkey", .str (letters 64)), (js "timestamp", .str (js "0")),
      (js "signature", .str (letters 128))])])
  entryId := [1]
  freshIdentity := ⟨[], []⟩

theorem signerEnv_unforgeable (message : JString) :
    Unforgeable (signerEnv message).crypto fun _ T => T = signedTuple message := by
  intro pub sig bytes hverify _
  exact ⟨_, rfl, eq_of_beq hverify⟩

theorem plain_message_bound :
    ∃ f, sendFields (signerEnv (js "hi")) (tupleSend (js "hi")).body = .ok f ∧
      ∃ T, T = signedTuple (js "hi") ∧ T.message = f.message := by
  have hok : (handle (signerEnv (js "hi")) 0 (.send (tupleSend (js "hi"))) openMailboxes).1.status =
      200 := by decide +kernel
  refine ⟨_, rfl, ?_⟩
  obtain ⟨ts, m, expires, -, -, -, -, hiff⟩ := message_bound_iff hok rfl
    (signerEnv_unforgeable (js "hi")) (by rintro _ _ rfl _; rfl)
  obtain ⟨T, hT, -, hmessage⟩ := hiff.2 ⟨paired_of_ascii (ascii_of_all (by decide)), by decide⟩ _
    (signerEnv_unforgeable (js "hi")) (by rintro _ _ rfl _; rfl)
  exact ⟨T, hT, hmessage⟩

/-- A sender signs U+FFFD, and an unpaired surrogate is stored in its name. -/
theorem surrogate_stored_unsigned :
    Unforgeable (signerEnv [0xFFFD]).crypto (fun _ T => T = signedTuple [0xFFFD]) ∧
      CollisionFree (signerEnv [0xFFFD]).crypto (fun _ T => T = signedTuple [0xFFFD]) [0xD800] ∧
      (handle (signerEnv [0xFFFD]) 0 (.send (tupleSend [0xD800])) openMailboxes).1.status = 200 ∧
      (∃ m expires, (handle (signerEnv [0xFFFD]) 0 (.send (tupleSend [0xD800])) openMailboxes).2
          (.mailbox (letters 16)) = some ⟨m, expires⟩ ∧
        m.messages.map Entry.message = [[0xD800]]) ∧
      ¬ ∃ T, T = signedTuple [0xFFFD] ∧ T.message = [0xD800] := by
  refine ⟨signerEnv_unforgeable _, ?_, by decide +kernel, ⟨_, _, rfl, by decide +kernel⟩, ?_⟩
  · rintro _ _ rfl _
    decide
  · rintro ⟨_, rfl, hmessage⟩
    exact absurd hmessage (by decide)

end Shard
