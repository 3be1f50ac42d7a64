/-
  The RPC codec of the bridge.

  Every body is a list of fields in the format of NanoPack, which is a library:
  `NanoPack` collects what the bridge uses of it, with what it relies on.

  * `marshalEnvelope` and `unmarshalEnvelope` wrap a request or a reply, and
    `frameMessage` puts its length in front;
  * the other functions are the bodies of the operations;
  * `unmarshalEnvelope_iff`: an envelope is read back exactly if it is not too
    long.
-/
import Mathlib.Tactic.Ring
import NexTalkRelay.Js.Utf8

open Js

namespace Bridge

/-- The bytes of a text of the source. -/
def txt (s : String) : Bytes := encode (js s)

/-! ## NanoPack -/

/-- A field: its number and its bytes. -/
structure Field where
  id : ℕ
  data : Bytes

/-- The bytes of the data of all fields. -/
def dataSize (fields : List Field) : ℕ := (fields.map fun f => f.data.length).sum

/-- The library: fields whose numbers fit into 8 bits and whose lengths fit into
    32 bits are read as they were written, and their data is part of the encoding. -/
structure NanoPack where
  bytes : List Field → Bytes
  decodeID : Bytes → Except Bytes (List Field)
  errShortBody : Bytes
  lossless : ∀ fields, (∀ f ∈ fields, f.id < 2 ^ 8 ∧ f.data.length < 2 ^ 32) →
    decodeID (bytes fields) = .ok fields
  dataSize_le : ∀ fields, dataSize fields ≤ (bytes fields).length

variable (np : NanoPack)

/-- What an encoding has besides the data. -/
def NanoPack.overhead (fields : List Field) : ℕ := (np.bytes fields).length - dataSize fields

theorem NanoPack.length_bytes (fields : List Field) :
    (np.bytes fields).length = np.overhead fields + dataSize fields :=
  (Nat.sub_add_cancel (np.dataSize_le fields)).symm

/-! ## Envelopes -/

/-- The longest frame that is sent. -/
def maxFrameBytes : ℕ := 40 * 1024

/-- The longest body of an envelope that is read. -/
def maxRPCBytes : ℕ := 2 * 2 ^ 20

/-- `binary.BigEndian.PutUint32` -/
def putUint32 (n : UInt32) : Bytes :=
  [UInt8.ofNat (n.toNat / 2 ^ 24), UInt8.ofNat (n.toNat / 2 ^ 16 % 2 ^ 8),
    UInt8.ofNat (n.toNat / 2 ^ 8 % 2 ^ 8), UInt8.ofNat (n.toNat % 2 ^ 8)]

/-- `binary.BigEndian.Uint32` -/
def uint32 (b : Bytes) : UInt32 := UInt32.ofNat (b.foldl (fun n b => n * 2 ^ 8 + b.toNat) 0)

/-- A request or a reply. -/
structure Envelope where
  op : UInt8 := 0
  reqID : UInt32 := 0
  payload : Bytes := []
deriving DecidableEq

/-- The fields of an envelope. -/
def envelopeFields (op : UInt8) (reqID : UInt32) (payload : Bytes) : List Field :=
  [⟨1, [op]⟩, ⟨2, putUint32 reqID⟩, ⟨3, payload⟩]

/-- The body of an envelope; its length is not checked. -/
def marshalEnvelope (op : UInt8) (reqID : UInt32) (payload : Bytes) : Bytes :=
  np.bytes (envelopeFields op reqID payload)

/-- One field of an envelope; others than the three are skipped. -/
def envelopeField (out : Envelope) (f : Field) : Except Bytes Envelope :=
  if f.id = 1 then
    match f.data with
    | [op] => .ok { out with op }
    | _ => .error (txt "rpc: bad op")
  else if f.id = 2 then
    if f.data.length = 4 then .ok { out with reqID := uint32 f.data } else .error np.errShortBody
  else if f.id = 3 then .ok { out with payload := f.data }
  else .ok out

/-- Read an envelope, if its length is within the limit. -/
def unmarshalEnvelope (body : Bytes) : Except Bytes Envelope :=
  if body.length = 0 ∨ maxRPCBytes < body.length then .error (txt "rpc: bad envelope length")
  else do
    let fields ← np.decodeID body
    fields.foldlM (envelopeField np) {}

/-- A body after its length. -/
def frameMessage (body : Bytes) : Bytes := putUint32 (UInt32.ofNat body.length) ++ body

/-! ## Requests -/

/-- The data of the last field with this number. -/
def lastField (id : ℕ) (fields : List Field) : Bytes :=
  ((fields.reverse.find? fun f => f.id == id).map (·.data)).getD []

/-- The body of `opInitialize`. -/
structure Initialize where
  transportID : Bytes
  apiVersion : UInt8
  config : Bytes

/-- Read an `opInitialize`; the version must be one byte. -/
def unmarshalInitialize (body : Bytes) : Except Bytes Initialize := do
  let fields ← np.decodeID body
  if fields.any fun f => f.id == 2 && f.data.length != 1 then .error np.errShortBody
  else return {
    transportID := lastField 1 fields
    apiVersion := (lastField 2 fields).headD 0
    config := lastField 3 fields }

/-- The body of `opSend`. -/
structure SendReq where
  frame : Bytes
  recipientPub : Bytes
  mailboxID : Bytes
  shardURL : Bytes

/-- Read an `opSend`; the frame must neither be empty nor too long. -/
def unmarshalSend (body : Bytes) : Except Bytes SendReq := do
  let fields ← np.decodeID body
  let out : SendReq :=
    { frame := lastField 1 fields
      recipientPub := lastField 2 fields
      mailboxID := lastField 4 fields
      shardURL := lastField 5 fields }
  if out.frame.length = 0 ∨ maxFrameBytes < out.frame.length then
    .error (txt "rpc: frame out of bounds")
  else return out

/-- The body of `opAttach`. -/
structure AttachReq where
  mailboxID : Bytes
  readSecret : Bytes
  shardURL : Bytes
  routerURL : Bytes

/-- Read an `opAttach`; it must name an alias, a secret and a shard. -/
def unmarshalAttach (body : Bytes) : Except Bytes AttachReq := do
  let fields ← np.decodeID body
  let out : AttachReq :=
    { mailboxID := lastField 1 fields
      readSecret := lastField 2 fields
      shardURL := lastField 3 fields
      routerURL := lastField 4 fields }
  if out.mailboxID.length ≠ 16 ∨ out.readSecret.length ≠ 32 ∨ out.shardURL = [] then
    .error (txt "rpc: bad attach")
  else return out

/-- Read the alias of an `opDetach`. -/
def unmarshalDetach (body : Bytes) : Except Bytes Bytes := do
  let fields ← np.decodeID body
  match fields.find? fun f => f.id == 1 with
  | some f => if f.data.length = 16 then return f.data else .error (txt "rpc: bad detach")
  | none => .error (txt "rpc: bad detach")

/-- A poll; its limit is read, but not applied. -/
structure PollReq where
  limit : UInt8
  mailboxID : Bytes

/-- Read an `opPoll`; its fields may be missing. -/
def unmarshalPoll (body : Bytes) : Except Bytes PollReq := do
  let fields ← np.decodeID body
  if fields.any fun f => f.id == 1 && f.data.length != 1 then .error np.errShortBody
  else
    let limit := (lastField 1 fields).headD 0
    return { limit := if limit = 0 then 32 else limit, mailboxID := lastField 2 fields }

/-- Read the action of an `opStartStop`. -/
def unmarshalStartStop (body : Bytes) : Except Bytes UInt8 := do
  let fields ← np.decodeID body
  match fields.find? fun f => f.id == 1 && f.data.length == 1 with
  | some f => return f.data.headD 0
  | none => .error (txt "rpc: missing action")

/-- The body of `opRegister`. -/
structure RegisterReq where
  userTag : Bytes
  routerURL : Bytes

/-- Read an `opRegister`; it must name a user. -/
def unmarshalRegisterReq (body : Bytes) : Except Bytes RegisterReq := do
  let fields ← np.decodeID body
  let out : RegisterReq := { userTag := lastField 1 fields, routerURL := lastField 2 fields }
  if out.userTag = [] then .error (txt "rpc: bad register") else return out

/-- The body of `opResolve`. -/
structure ResolveReq where
  recipientPub : Bytes
  routerURL : Bytes

/-- Read an `opResolve`; the public key must have 32 bytes. -/
def unmarshalResolveReq (body : Bytes) : Except Bytes ResolveReq := do
  let fields ← np.decodeID body
  let out : ResolveReq := { recipientPub := lastField 1 fields, routerURL := lastField 2 fields }
  if out.recipientPub.length ≠ 32 then .error (txt "rpc: bad resolve") else return out

/-! ## Replies -/

/-- A truth value as one byte. -/
def flag (ok : Bool) : Bytes := [if ok then 1 else 0]

/-- The reply to `opInitialize`. -/
def marshalInitResult (ok : Bool) (detail : Bytes) (api : UInt8) : Bytes :=
  np.bytes [⟨1, flag ok⟩, ⟨2, detail⟩, ⟨3, [api]⟩]

/-- The reply that something was done. -/
def marshalAck (ok : Bool) (detail : Bytes) : Bytes := np.bytes [⟨1, flag ok⟩, ⟨2, detail⟩]

/-- The reply to `opStatus`. -/
def marshalStatus (running : Bool) (detail : Bytes) : Bytes :=
  np.bytes [⟨1, flag running⟩, ⟨2, detail⟩]

/-- The frames of a batch, each after its length. -/
def blob (frames : List Bytes) : Bytes :=
  frames.flatMap fun f => putUint32 (UInt32.ofNat f.length) ++ f

/-- The fields of a batch: the frames, and their number. -/
def pollFields (frames : List Bytes) : List Field :=
  [⟨1, blob frames⟩, ⟨2, putUint32 (UInt32.ofNat frames.length)⟩]

/-- The reply to `opPoll`. -/
def marshalPollResult (frames : List Bytes) : Bytes := np.bytes (pollFields frames)

/-- The transport that the host must ask for. -/
def bridgeID : Bytes := txt "nextalk-relay"

/-- The version of the bridge. -/
def bridgeVersion : Bytes := txt "1.0.0"

/-- The only capability, after its length, and who the bridge is. -/
def capsFields : List Field :=
  let cap := txt "message"
  [⟨1, UInt8.ofNat (cap.length / 2 ^ 8) :: UInt8.ofNat cap.length :: cap⟩, ⟨2, bridgeID⟩,
    ⟨3, bridgeVersion⟩]

/-- The reply to `opCapabilities`. -/
def marshalCaps : Bytes := np.bytes capsFields

/-- The reply that refuses a request. -/
def errPayload (code : UInt32) (detail : Bytes) : Bytes :=
  np.bytes [⟨1, putUint32 code⟩, ⟨2, detail⟩]

/-- The reply to `opRegister`; `mailboxID` is the alias. -/
def marshalRegisterResult (mailboxID readSecret shardURL routerURL : Bytes) : Bytes :=
  np.bytes [⟨1, mailboxID⟩, ⟨2, readSecret⟩, ⟨3, shardURL⟩, ⟨4, routerURL⟩]

/-- The reply to `opResolve`; `mailboxID` is the alias. -/
def marshalResolveResult (mailboxID shardURL : Bytes) : Bytes :=
  np.bytes [⟨1, mailboxID⟩, ⟨2, shardURL⟩]

/-! ## Round trip of envelopes -/

@[simp] theorem length_putUint32 (n : UInt32) : (putUint32 n).length = 4 := rfl

theorem uint32_putUint32 (n : UInt32) : uint32 (putUint32 n) = n := by
  have hn := n.toNat_lt
  have hbyte {k : ℕ} (hk : k < 2 ^ 8) : (UInt8.ofNat k).toNat = k := UInt8.toNat_ofNat_of_lt hk
  simp only [uint32, putUint32, List.foldl_cons, List.foldl_nil,
    hbyte (show n.toNat / 2 ^ 24 < 2 ^ 8 by omega), hbyte (show n.toNat / 2 ^ 16 % 2 ^ 8 < 2 ^ 8 by omega),
    hbyte (show n.toNat / 2 ^ 8 % 2 ^ 8 < 2 ^ 8 by omega),
    hbyte (show n.toNat % 2 ^ 8 < 2 ^ 8 by omega)]
  rw [show ((((0 * 2 ^ 8 + n.toNat / 2 ^ 24) * 2 ^ 8 + n.toNat / 2 ^ 16 % 2 ^ 8) * 2 ^ 8 +
    n.toNat / 2 ^ 8 % 2 ^ 8) * 2 ^ 8 + n.toNat % 2 ^ 8) = n.toNat by omega, UInt32.ofNat_toNat]

/-- The size of an envelope. -/
theorem length_marshalEnvelope (op : UInt8) (reqID : UInt32) (payload : Bytes) :
    (marshalEnvelope np op reqID payload).length =
      np.overhead (envelopeFields op reqID payload) + 5 + payload.length := by
  rw [marshalEnvelope, np.length_bytes]
  simp only [dataSize, envelopeFields, List.map_cons, List.map_nil, List.sum_cons, List.sum_nil,
    length_putUint32, List.length_cons, List.length_nil]
  omega

/-- **An envelope is read back exactly if it is not too long.** -/
theorem unmarshalEnvelope_iff (op : UInt8) (reqID : UInt32) (payload : Bytes) :
    unmarshalEnvelope np (marshalEnvelope np op reqID payload) = .ok { op, reqID, payload } ↔
      (marshalEnvelope np op reqID payload).length ≤ maxRPCBytes := by
  have hlen := length_marshalEnvelope np op reqID payload
  unfold unmarshalEnvelope
  constructor
  · intro h
    by_contra hlong
    rw [if_pos (Or.inr (Nat.lt_of_not_le hlong))] at h
    cases h
  · intro h
    rw [if_neg (by omega), marshalEnvelope, np.lossless]
    · change Except.ok (ε := Bytes) ({ op, reqID := uint32 (putUint32 reqID), payload } : Envelope) = _
      rw [uint32_putUint32]
    · intro f hf
      have h32 : maxRPCBytes < 2 ^ 32 := by decide
      simp only [envelopeFields, List.mem_cons, List.not_mem_nil, or_false] at hf
      rcases hf with rfl | rfl | rfl
      · exact ⟨show 1 < 2 ^ 8 by decide, by simp⟩
      · exact ⟨show 2 < 2 ^ 8 by decide, by simp⟩
      · refine ⟨show 3 < 2 ^ 8 by decide, ?_⟩
        dsimp only
        omega

/-! ## A codec -/

/-- Fields with their number in one byte and their length in four. -/
def tag (f : Field) : Bytes :=
  UInt8.ofNat f.id :: putUint32 (UInt32.ofNat f.data.length) ++ f.data

/-- Read such fields. -/
def untag : ℕ → Bytes → Except Bytes (List Field)
  | _, [] => .ok []
  | fuel + 1, id :: a :: b :: c :: d :: bytes => do
    let size := (uint32 [a, b, c, d]).toNat
    if bytes.length < size then .error []
    else
      let fields ← untag fuel (bytes.drop size)
      return ⟨id.toNat, bytes.take size⟩ :: fields
  | _, _ => .error []

theorem untag_tag (fields : List Field) (fuel : ℕ)
    (h : ∀ f ∈ fields, f.id < 2 ^ 8 ∧ f.data.length < 2 ^ 32) (hfuel : fields.length ≤ fuel) :
    untag fuel (fields.flatMap tag) = .ok fields := by
  induction fields generalizing fuel with
  | nil => cases fuel <;> rfl
  | cons f fields ih =>
    obtain ⟨hid, hsize⟩ := h f List.mem_cons_self
    obtain ⟨n, rfl⟩ : ∃ n, fuel = n + 1 := Nat.exists_eq_succ_of_ne_zero (by
      simp only [List.length_cons] at hfuel
      omega)
    have hrest := ih n (fun g hg => h g (List.mem_cons_of_mem f hg)) (Nat.le_of_succ_le_succ hfuel)
    have hlen : (uint32 (putUint32 (UInt32.ofNat f.data.length))).toNat = f.data.length := by
      rw [uint32_putUint32, UInt32.toNat_ofNat_of_lt' hsize]
    have hnum : (UInt8.ofNat f.id).toNat = f.id := UInt8.toNat_ofNat_of_lt hid
    simp only [List.flatMap_cons, tag, putUint32, List.cons_append, List.nil_append] at hlen ⊢
    simp only [untag, hlen, hnum]
    rw [if_neg (by simp), List.drop_left, List.take_left, hrest]
    rfl

theorem dataSize_tag (fields : List Field) :
    (fields.flatMap tag).length = 5 * fields.length + dataSize fields := by
  induction fields with
  | nil => rfl
  | cons f fields ih =>
    rw [List.flatMap_cons, List.length_append, ih]
    simp only [tag, dataSize, List.length_cons, List.length_append, length_putUint32, List.map_cons,
      List.sum_cons]
    omega

/-- A codec that keeps all fields, as NanoPack does. -/
def tagged : NanoPack where
  bytes fields := fields.flatMap tag
  decodeID bytes := untag bytes.length bytes
  errShortBody := txt "short body"
  lossless fields h := untag_tag fields _ h (by rw [dataSize_tag]; omega)
  dataSize_le fields := by rw [dataSize_tag]; omega

end Bridge
