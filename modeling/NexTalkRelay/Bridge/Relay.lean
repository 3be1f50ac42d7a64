/-
  The HTTP client of the bridge, as far as it speaks to a shard.

  A frame crosses the relay as the base64 text of its bytes.

  * `encodeToString` and `decodeString` are the standard base64 of Go, and
    `decodeString_encodeToString` their round trip;
  * `sendRequest` is the body that `sendToShard` posts; `sendRequest_eq`: it is
    the text of a JSON object of strings;
  * `accepted` and `readFromShard` are what the bridge makes of the response of a
    shard.
-/
import NexTalkRelay.Js.Wire
import NexTalkRelay.Shard.Auth

open Js

namespace Bridge

/-! ## Base64 -/

/-- The character of six bits. -/
def base64Digit (n : ℕ) : UInt16 :=
  UInt16.ofNat (if n < 26 then 65 + n else if n < 52 then 71 + n else if n < 62 then n - 4
    else if n = 62 then 43 else 47)

/-- The six bits of a character. -/
def base64Value (c : UInt16) : Option ℕ :=
  if 65 ≤ c && c ≤ 90 then some (c.toNat - 65)
  else if 97 ≤ c && c ≤ 122 then some (c.toNat - 71)
  else if 48 ≤ c && c ≤ 57 then some (c.toNat + 4)
  else if c = 43 then some 62
  else if c = 47 then some 63
  else none

/-- `base64.StdEncoding.EncodeToString` -/
def encodeToString : Bytes → JString
  | a :: b :: c :: bytes =>
    let n := a.toNat * 2 ^ 16 + b.toNat * 2 ^ 8 + c.toNat
    base64Digit (n / 2 ^ 18) :: base64Digit (n / 2 ^ 12 % 2 ^ 6) ::
      base64Digit (n / 2 ^ 6 % 2 ^ 6) :: base64Digit (n % 2 ^ 6) :: encodeToString bytes
  | [a, b] =>
    let n := a.toNat * 2 ^ 8 + b.toNat
    [base64Digit (n / 2 ^ 10), base64Digit (n / 2 ^ 4 % 2 ^ 6), base64Digit (n % 2 ^ 4 * 2 ^ 2), 61]
  | [a] => [base64Digit (a.toNat / 2 ^ 2), base64Digit (a.toNat % 2 ^ 2 * 2 ^ 4), 61, 61]
  | [] => []

/-- Groups of four characters, the last one with its padding; the bits behind the
    last byte are not looked at. -/
def decodeGroups : JString → Option Bytes
  | [] => some []
  | [a, b, 61, 61] => do
    let a ← base64Value a
    let b ← base64Value b
    return [UInt8.ofNat ((a * 2 ^ 6 + b) / 2 ^ 4)]
  | [a, b, c, 61] => do
    let a ← base64Value a
    let b ← base64Value b
    let c ← base64Value c
    let n := (a * 2 ^ 6 + b) * 2 ^ 6 + c
    return [UInt8.ofNat (n / 2 ^ 10), UInt8.ofNat (n / 2 ^ 2 % 2 ^ 8)]
  | a :: b :: c :: d :: s => do
    let a ← base64Value a
    let b ← base64Value b
    let c ← base64Value c
    let d ← base64Value d
    let n := ((a * 2 ^ 6 + b) * 2 ^ 6 + c) * 2 ^ 6 + d
    let bytes ← decodeGroups s
    return UInt8.ofNat (n / 2 ^ 16) :: UInt8.ofNat (n / 2 ^ 8 % 2 ^ 8) :: UInt8.ofNat (n % 2 ^ 8) ::
      bytes
  | _ => none

/-- `base64.StdEncoding.DecodeString`, which skips line breaks. -/
def decodeString (s : JString) : Option Bytes := decodeGroups (s.filter fun c => c != 13 && c != 10)

theorem base64Digit_spec : ∀ n < 64, base64Value (base64Digit n) = some n ∧ base64Digit n ≠ 61 := by
  decide

theorem base64Value_digit {n : ℕ} (h : n < 64) : base64Value (base64Digit n) = some n :=
  (base64Digit_spec n h).1

/-- The characters of base64. -/
theorem mem_encodeToString {bytes : Bytes} {c : UInt16} (h : c ∈ encodeToString bytes) :
    (∃ n < 64, c = base64Digit n) ∨ c = 61 := by
  induction bytes using encodeToString.induct with
  | case1 a b c' bytes ih =>
    have ha := a.toNat_lt
    have hb := b.toNat_lt
    have hc := c'.toNat_lt
    simp only [encodeToString, List.mem_cons] at h
    rcases h with rfl | rfl | rfl | rfl | h
    · exact Or.inl ⟨_, by omega, rfl⟩
    · exact Or.inl ⟨_, by omega, rfl⟩
    · exact Or.inl ⟨_, by omega, rfl⟩
    · exact Or.inl ⟨_, by omega, rfl⟩
    · exact ih h
  | case2 a b =>
    have ha := a.toNat_lt
    have hb := b.toNat_lt
    simp only [encodeToString, List.mem_cons, List.not_mem_nil, or_false] at h
    rcases h with rfl | rfl | rfl | rfl
    · exact Or.inl ⟨_, by omega, rfl⟩
    · exact Or.inl ⟨_, by omega, rfl⟩
    · exact Or.inl ⟨_, by omega, rfl⟩
    · exact Or.inr rfl
  | case3 a =>
    have ha := a.toNat_lt
    simp only [encodeToString, List.mem_cons, List.not_mem_nil, or_false] at h
    rcases h with rfl | rfl | rfl | rfl
    · exact Or.inl ⟨_, by omega, rfl⟩
    · exact Or.inl ⟨_, by omega, rfl⟩
    · exact Or.inr rfl
    · exact Or.inr rfl
  | case4 => cases h

theorem ofNat_toNat_of_eq {b : UInt8} {n : ℕ} (h : n = b.toNat) : UInt8.ofNat n = b := by
  rw [h, UInt8.ofNat_toNat]

/-- **Base64 round trip.** -/
theorem decodeGroups_encodeToString (bytes : Bytes) :
    decodeGroups (encodeToString bytes) = some bytes := by
  induction bytes using encodeToString.induct with
  | case1 a b c bytes ih =>
    have ha := a.toNat_lt
    have hb := b.toNat_lt
    have hc := c.toNat_lt
    obtain ⟨n, hn⟩ : ∃ n, n = a.toNat * 2 ^ 16 + b.toNat * 2 ^ 8 + c.toNat := ⟨_, rfl⟩
    have hd : base64Digit (n % 2 ^ 6) ≠ 61 := (base64Digit_spec _ (by omega)).2
    simp only [encodeToString, ← hn]
    rw [decodeGroups]
    · rw [base64Value_digit (by omega), base64Value_digit (by omega), base64Value_digit (by omega),
        base64Value_digit (by omega), ih]
      simp only [Option.bind_eq_bind, Option.bind_some, Option.pure_def]
      rw [ofNat_toNat_of_eq (b := a) (by omega), ofNat_toNat_of_eq (b := b) (by omega),
        ofNat_toNat_of_eq (b := c) (by omega)]
    · intro _ h
      exact absurd h hd
    · intro h
      exact absurd h hd
  | case2 a b =>
    have ha := a.toNat_lt
    have hb := b.toNat_lt
    obtain ⟨n, hn⟩ : ∃ n, n = a.toNat * 2 ^ 8 + b.toNat := ⟨_, rfl⟩
    have hc : base64Digit (n % 2 ^ 4 * 2 ^ 2) ≠ 61 := (base64Digit_spec _ (by omega)).2
    simp only [encodeToString, ← hn]
    rw [decodeGroups]
    · rw [base64Value_digit (by omega), base64Value_digit (by omega), base64Value_digit (by omega)]
      simp only [Option.bind_eq_bind, Option.bind_some, Option.pure_def]
      rw [ofNat_toNat_of_eq (b := a) (by omega), ofNat_toNat_of_eq (b := b) (by omega)]
    · intro h
      exact absurd h hc
  | case3 a =>
    have ha := a.toNat_lt
    simp only [encodeToString]
    rw [decodeGroups, base64Value_digit (by omega), base64Value_digit (by omega)]
    simp only [Option.bind_eq_bind, Option.bind_some, Option.pure_def]
    rw [ofNat_toNat_of_eq (b := a) (by omega)]
  | case4 => rfl

/-- A printable ASCII character that neither JSON nor HTML treats specially. -/
def Plain (c : UInt16) : Prop :=
  32 ≤ c.toNat ∧ c.toNat ≤ 122 ∧ c ≠ 34 ∧ c ≠ 92 ∧ c ≠ 60 ∧ c ≠ 62 ∧ c ≠ 38

instance (c : UInt16) : Decidable (Plain c) := by unfold Plain; infer_instance

theorem plain_base64Digit : ∀ n < 64, Plain (base64Digit n) := by decide

theorem plain_encodeToString (bytes : Bytes) : ∀ c ∈ encodeToString bytes, Plain c := by
  intro c hc
  rcases mem_encodeToString hc with ⟨n, hn, rfl⟩ | rfl
  · exact plain_base64Digit n hn
  · decide

theorem decodeString_encodeToString (bytes : Bytes) :
    decodeString (encodeToString bytes) = some bytes := by
  have hkeep : ∀ c ∈ encodeToString bytes, (c != 13 && c != 10) = true := by
    intro c hc
    obtain ⟨hlow, -⟩ := plain_encodeToString bytes c hc
    simp only [Bool.and_eq_true, bne_iff_ne, ne_eq, ← UInt16.toNat_inj]
    simp only [UInt16.reduceToNat]
    omega
  rw [decodeString, List.filter_eq_self.2 hkeep, decodeGroups_encodeToString]

/-! ## `sendToShard` -/

/-- The key pair of the courier: what it signs verifies. -/
structure Courier (c : Crypto) where
  pub : Bytes
  priv : JString
  size : pub.length = 32
  pair : ∀ message, c.verify pub (c.sign priv message).1 message = true

/-- The member `sender` of a `/send`. -/
structure SenderAuth where
  pubKey : JString
  timestamp : JString
  signature : JString

/-- The text that the courier signs. -/
def signedText (c : Crypto) (senderHex mailboxID timestamp message : JString) : JString :=
  js "send:" ++ senderHex ++ js ":" ++ toLowerCase mailboxID ++ js ":" ++ timestamp ++ js ":" ++
    c.sha256Hex message

/-- `buildSenderAuth` at the instant `now`. -/
def buildSenderAuth {c : Crypto} (courier : Courier c) (now : ℕ) (mailboxID message : JString) :
    SenderAuth :=
  let senderHex := bytesToHex courier.pub
  let timestamp := digits now
  { pubKey := senderHex
    timestamp
    signature := c.signHex courier.priv (signedText c senderHex mailboxID timestamp message) }

/-- A character of a string in the output of `json.Marshal`. -/
def marshalUnit (c : UInt16) : JString :=
  if c = 34 then js "\\\""
  else if c = 92 then js "\\\\"
  else if c = 8 then js "\\b"
  else if c = 9 then js "\\t"
  else if c = 10 then js "\\n"
  else if c = 12 then js "\\f"
  else if c = 13 then js "\\r"
  -- the characters of HTML, and two line separators, are escaped too
  else if c < 32 || [60, 62, 38, 0x2028, 0x2029].contains c then
    js "\\u" ++ hexByte (UInt8.ofNat (c.toNat / 256)) ++ hexByte (UInt8.ofNat (c.toNat % 256))
  else [c]

/-- `json.Marshal` of a string. -/
def marshalString (s : JString) : JString := js "\"" ++ s.flatMap marshalUnit ++ js "\""

/-- `json.Marshal` of a `sender`. -/
def marshalSenderAuth (a : SenderAuth) : JString :=
  js "\x7b\"pubkey\":" ++ marshalString a.pubKey ++ js ",\"timestamp\":" ++
    marshalString a.timestamp ++ js ",\"signature\":" ++ marshalString a.signature ++ js "\x7d"

/-- `json.Marshal` of the body of a `/send`. -/
def marshalSendBody (mailboxID message : JString) (sender : SenderAuth) : JString :=
  js "\x7b\"mailbox_id\":" ++ marshalString mailboxID ++ js ",\"message\":" ++
    marshalString message ++ js ",\"sender\":" ++ marshalSenderAuth sender ++ js "\x7d"

/-- The body that `sendToShard` posts. -/
def sendRequest {c : Crypto} (courier : Courier c) (now : ℕ) (mailboxID : JString) (frame : Bytes) :
    JString :=
  let encoded := encodeToString frame
  marshalSendBody (toLowerCase mailboxID) encoded (buildSenderAuth courier now mailboxID encoded)

/-! ### The text as a JSON object -/

/-- The sender as a JSON object. -/
def SenderAuth.toJson (a : SenderAuth) : Json :=
  .obj [(js "pubkey", .str a.pubKey), (js "timestamp", .str a.timestamp),
    (js "signature", .str a.signature)]

/-- The body as a JSON object. -/
def sendJson {c : Crypto} (courier : Courier c) (now : ℕ) (mailboxID : JString) (frame : Bytes) :
    Json :=
  let encoded := encodeToString frame
  .obj [(js "mailbox_id", .str (toLowerCase mailboxID)), (js "message", .str encoded),
    (js "sender", (buildSenderAuth courier now mailboxID encoded).toJson)]

theorem Plain.units {c : UInt16} (h : Plain c) : marshalUnit c = [c] ∧ Json.quoteUnit c = [c] ∧
    isHighSurrogate c = false := by
  obtain ⟨hlow, hhigh, h1, h2, h3, h4, h5⟩ := h
  have hne {d : UInt16} (hd : d.toNat < 32 ∨ 122 < d.toNat) : c ≠ d := by
    rintro rfl
    omega
  have hlt : ¬ c < 32 := by
    rw [UInt16.lt_iff_toNat_lt]
    simp only [UInt16.reduceToNat]
    omega
  have hsur : isHighSurrogate c = false ∧ isLowSurrogate c = false :=
    Bool.or_eq_false_iff.1 (isSurrogate_eq_false.2 (Or.inl (by omega)))
  refine ⟨?_, ?_, hsur.1⟩
  · unfold marshalUnit
    rw [if_neg h1, if_neg h2, if_neg (hne (by decide)), if_neg (hne (by decide)),
      if_neg (hne (by decide)), if_neg (hne (by decide)), if_neg (hne (by decide)), if_neg]
    simp [hlt, h3, h4, h5, hne (d := 0x2028) (by decide), hne (d := 0x2029) (by decide)]
  · unfold Json.quoteUnit
    rw [if_neg h1, if_neg h2, if_neg (hne (by decide)), if_neg (hne (by decide)),
      if_neg (hne (by decide)), if_neg (hne (by decide)), if_neg (hne (by decide)), if_neg]
    simp [hlt, hsur.1, hsur.2]

theorem quoteUnits_plain {s : JString} (h : ∀ c ∈ s, Plain c) : Json.quoteUnits s = s := by
  induction s with
  | nil => rfl
  | cons c s ih =>
    have hc := (h c List.mem_cons_self).units
    have hs := ih fun d hd => h d (List.mem_cons_of_mem c hd)
    cases s with
    | nil => exact hc.2.1
    | cons d s =>
      rw [Json.quoteUnits, if_neg (by simp [hc.2.2]), hc.2.1, hs]
      rfl

/-- A plain text is written alike by Go and by JavaScript. -/
theorem marshalString_plain {s : JString} (h : ∀ c ∈ s, Plain c) : marshalString s = Json.quote s := by
  have hunits : s.flatMap marshalUnit = s := by
    induction s with
    | nil => rfl
    | cons c s ih =>
      rw [List.flatMap_cons, (h c List.mem_cons_self).units.1,
        ih fun d hd => h d (List.mem_cons_of_mem c hd)]
      rfl
  rw [marshalString, Json.quote, hunits, quoteUnits_plain h]

theorem plain_of_isHexDigit {c : UInt16} (h : isHexDigit c = true) : Plain c := by
  simp only [isHexDigit, isDigit, Bool.or_eq_true, Bool.and_eq_true, decide_eq_true_eq,
    UInt16.le_iff_toNat_le] at h
  simp only [UInt16.reduceToNat] at h
  simp only [Plain, ne_eq, ← UInt16.toNat_inj]
  simp only [UInt16.reduceToNat]
  omega

theorem plain_of_isHexOf {lo hi : ℕ} {s : JString} (h : isHexOf lo hi s = true) :
    ∀ c ∈ s, Plain c := fun c hc => plain_of_isHexDigit ((isHexOf_iff.1 h).2.2 c hc)

/-- The text of an object with three properties whose keys are names. -/
theorem stringify_three {k₁ k₂ k₃ : JString} (v₁ v₂ v₃ : Json)
    (h : ∀ k ∈ [k₁, k₂, k₃], Json.isIndex k = false) :
    (Json.obj [(k₁, v₁), (k₂, v₂), (k₃, v₃)]).stringify =
      123 :: (Json.quote k₁ ++ 58 :: (v₁.stringify ++ 44 :: (Json.quote k₂ ++ 58 :: (v₂.stringify ++
        44 :: (Json.quote k₃ ++ 58 :: (v₃.stringify ++ [125])))))) := by
  rw [Json.stringify_obj, Json.inOrder_named fun p hp => h p.1 (List.mem_map_of_mem hp)]
  simp only [List.map_cons, List.map_nil, Json.join, Json.memberText, show js ":" = [58] from rfl,
    show js "," = [44] from rfl, List.append_assoc, List.cons_append, List.nil_append]

theorem marshalSenderAuth_eq {a : SenderAuth} (hpub : ∀ c ∈ a.pubKey, Plain c)
    (htime : ∀ c ∈ a.timestamp, Plain c) (hsig : ∀ c ∈ a.signature, Plain c) :
    marshalSenderAuth a = a.toJson.stringify := by
  have h₁ : js "\x7b\"pubkey\":" = 123 :: (Json.quote (js "pubkey") ++ [58]) := by decide
  have h₂ : js ",\"timestamp\":" = 44 :: (Json.quote (js "timestamp") ++ [58]) := by decide
  have h₃ : js ",\"signature\":" = 44 :: (Json.quote (js "signature") ++ [58]) := by decide
  rw [SenderAuth.toJson, stringify_three _ _ _ (by decide), marshalSenderAuth,
    marshalString_plain hpub, marshalString_plain htime, marshalString_plain hsig, h₁, h₂, h₃]
  simp only [List.append_assoc, List.cons_append, List.nil_append]
  rfl

/-- **The body of a send is the text of a JSON object** whose values are strings. -/
theorem sendRequest_eq {c : Crypto} (courier : Courier c) (now : ℕ) {mailboxID : JString} {lo hi : ℕ}
    (hid : isHexOf lo hi mailboxID = true) (frame : Bytes) :
    sendRequest courier now mailboxID frame = (sendJson courier now mailboxID frame).stringify := by
  have h₁ : js "\x7b\"mailbox_id\":" = 123 :: (Json.quote (js "mailbox_id") ++ [58]) := by decide
  have h₂ : js ",\"message\":" = 44 :: (Json.quote (js "message") ++ [58]) := by decide
  have h₃ : js ",\"sender\":" = 44 :: (Json.quote (js "sender") ++ [58]) := by decide
  have htime : ∀ d ∈ digits now, Plain d := fun d hd =>
    plain_of_isHexDigit (isHexDigit_of_isDigit (mem_digits hd))
  rw [sendRequest, sendJson, stringify_three _ _ _ (by decide), marshalSendBody,
    marshalString_plain (plain_of_isHexOf (isHexOf_toLowerCase hid)),
    marshalString_plain (plain_encodeToString frame),
    marshalSenderAuth_eq (plain_of_isHexOf (isHexOf_bytesToHex courier.pub)) htime
      (plain_of_isHexOf (isHexOf_bytesToHex _)), h₁, h₂, h₃]
  simp only [List.append_assoc, List.cons_append, List.nil_append]
  rfl

/-! ## Responses -/

/-- The key of a property names this field of a Go structure: the letter case
    does not matter, and two letters of Unicode count as `s` and `k`. -/
def namesField (field : String) (key : JString) : Bool :=
  let fold (c : UInt16) : UInt16 := if c = 0x17F then 115 else if c = 0x212A then 107 else c
  toLowerCase (key.map fold) == toLowerCase (js field)

/-- The values for a field, in the order of the text; all of them are assigned. -/
def goField (v : Json) (field : String) : List Json :=
  match v with
  | .obj ps => (ps.filter fun p => namesField field p.1).map Prod.snd
  | _ => []

/-- A field of type `string`, `int64` or `bool`: `null` is not assigned, and a
    value of another type is an error. -/
def goString (vs : List Json) : Option JString :=
  vs.foldlM (fun s v => match v with
    | .null => some s
    | .str t => some t
    | _ => none) []

/-- Decode into an `int64`: the last number counts, and `null` changes nothing. -/
def goInt64 (vs : List Json) : Option ℤ :=
  vs.foldlM (fun n v => match v with
    | .null => some n
    | .num m => m.toInt?.filter fun k => decide (-2 ^ 63 ≤ k ∧ k < 2 ^ 63)
    | _ => none) 0

/-- Decode into a `bool`. -/
def goBool (vs : List Json) : Option Bool :=
  vs.foldlM (fun b v => match v with
    | .null => some b
    | .bool c => some c
    | _ => none) false

/-- The text of an entry of a response, if all its fields have their types. -/
def messageOf (v : Json) : Option JString :=
  match v with
  | .null => some []
  | .obj _ => do
    let _ ← goString (goField v "id")
    let _ ← goInt64 (goField v "time")
    let message ← goString (goField v "message")
    let _ ← goString (goField v "senderPubkey")
    return message
  | _ => none

/-- The bytes of a message; one that is no base64 passes as it is. -/
def frameOf (message : JString) : Bytes := (decodeString message).getD (encode message)

/-- The texts of a list of entries. -/
def messagesOf (vs : List Json) : Option (List JString) :=
  vs.foldlM (fun messages v => match v with
    | .null => some messages
    | .arr xs => xs.mapM messageOf
    | _ => none) []

/-- The frames in the body of a response to `/read`. -/
def framesOf (v : Json) : Option (List Bytes) :=
  match v with
  | .null => some []
  | .obj _ => do
    let messages ← messagesOf (goField v "messages")
    let _ ← goInt64 (goField v "count")
    let _ ← goInt64 (goField v "createdAt")
    let _ ← goBool (goField v "consumed")
    return messages.map frameOf
  | _ => none

/-- What arrives of a body; the bridge names no request, so that no response is
    wrapped. -/
def bodyOf (r : Shard.Response) : Option Json := Json.received r.body.toJson.stringify

/-- `sendToShard` returns no error for this response. -/
def accepted (r : Shard.Response) : Bool :=
  r.status == 200 && match bodyOf r with
    | some (.obj ps) => goBool (goField (.obj ps) "success") == some true &&
        (goInt64 (goField (.obj ps) "queued")).isSome
    | _ => false

/-- What `readFromShard` returns for this response. -/
def readFromShard (r : Shard.Response) : Option (List Bytes) :=
  if r.status = 404 then some []
  else if r.status ≠ 200 then none
  else (bodyOf r).bind framesOf

theorem frameOf_encodeToString (bytes : Bytes) : frameOf (encodeToString bytes) = bytes := by
  rw [frameOf, decodeString_encodeToString]
  rfl

end Bridge
