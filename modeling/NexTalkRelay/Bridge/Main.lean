/-
  The bridge: a process that answers one request after the other.

  Strings of Go are byte texts.  A handler first looks at the request and at its
  state (`…Plan`, which may refuse), then calls the relay, and answers with a
  `Reply`.

  * `Call` lists the calls to the relay and to the key store, with their answers;
  * `candidateShardURLs` and `deliver` are the failover of a send, `drain` is the
    loop of a poll;
  * `dispatch` answers a request, and `serve` is one round of the loop.
-/
import NexTalkRelay.Bridge.Relay
import NexTalkRelay.Bridge.Rpc
import NexTalkRelay.Lib.Prog

open Effect Js

namespace Bridge

/-! ## State -/

/-- The operation of a reply that refuses its request. -/
def opError : UInt8 := 0

/-- Hand over the configuration. -/
def opInitialize : UInt8 := 1

/-- Start or stop the courier. -/
def opStartStop : UInt8 := 2

/-- Send a frame to an address or to a public key. -/
def opSend : UInt8 := 3

/-- Read a mailbox from now on. -/
def opAttach : UInt8 := 4

/-- Read a mailbox no more. -/
def opDetach : UInt8 := 5

/-- Fetch the frames of the attached mailboxes. -/
def opPoll : UInt8 := 6

/-- Ask whether the courier is running. -/
def opStatus : UInt8 := 7

/-- Ask what the bridge can transport. -/
def opCapabilities : UInt8 := 8

/-- Register a mailbox for a user. -/
def opRegister : UInt8 := 9

/-- Find the mailbox of a public key. -/
def opResolve : UInt8 := 10

/-- The action of `opStartStop` that starts; every other one stops. -/
def actionStart : UInt8 := 1

/-- The version of the protocol between host and bridge. -/
def transportAPIVer : UInt8 := 1

/-- The code of an unknown operation. -/
def errUnsupported : UInt32 := 2

/-- The code of a request to a bridge that is stopped. -/
def errNotReady : UInt32 := 3

/-- The code of everything else that goes wrong. -/
def errTransport : UInt32 := 4

/-- What is known of a mailbox; the secret and the Router may be missing. -/
structure Binding where
  mailboxID : Bytes
  readSecret : Bytes := []
  shardURL : Bytes
  routerURL : Bytes

/-- The state of the bridge.  A map is the list of its entries, in the order in
    which Go happens to visit them; its keys are hexadecimal aliases. -/
structure BridgeState where
  running : Bool := false
  routerURL : Bytes := []
  aliases : List (JString × Binding) := []
  attached : List (JString × Binding) := []

/-- `m[key] = value` -/
def mapSet (m : List (JString × Binding)) (key : JString) (value : Binding) :
    List (JString × Binding) :=
  if m.any fun e => e.1 == key then m.map fun e => if e.1 == key then (key, value) else e
  else m ++ [(key, value)]

/-- `m[key]` -/
def mapGet (m : List (JString × Binding)) (key : JString) : Option Binding :=
  (m.find? fun e => e.1 == key).map Prod.snd

/-- `hex.DecodeString` -/
def hexDecode (s : Bytes) : Option Bytes :=
  let units := s.map fun b => UInt16.ofNat b.toNat
  if units.length % 2 = 0 ∧ units.all isHexDigit then some (hexPairs units) else none

/-- `hex.EncodeToString` -/
def hexEncode (b : Bytes) : Bytes := encode (bytesToHex b)

/-- The alias of a full mailbox id. -/
def aliasFor (c : Crypto) (fullMailboxID : Bytes) : Bytes := (c.sha256 fullMailboxID).1.take 16

/-- The map is also saved to a file, which is read at the next start. -/
def BridgeState.recordAlias (b : BridgeState) (aliasID : Bytes) (bind : Binding) : BridgeState :=
  { b with aliases := mapSet b.aliases (bytesToHex aliasID) bind }

/-- The mailbox of an alias. -/
def BridgeState.expandAlias (b : BridgeState) (aliasID : Bytes) : Except Bytes Binding :=
  match mapGet b.aliases (bytesToHex aliasID) with
  | some bind => .ok bind
  | none => .error (txt "unknown mailbox alias (re-run register/resolve for this bridge)")

/-- The configured Router, or one that an attachment or an alias names. -/
def BridgeState.effectiveRouter (b : BridgeState) : Bytes :=
  let named (m : List (JString × Binding)) : Option Bytes :=
    (m.find? fun e => e.2.routerURL ≠ []).map fun e => e.2.routerURL
  if b.routerURL ≠ [] then b.routerURL else ((named b.attached).orElse fun _ => named b.aliases).getD []

/-! ## Calls -/

/-- What the Router answers to `/resolve`. -/
structure Resolution where
  mailboxID : Bytes
  shardURL : Bytes
  replicaShardURLs : List Bytes

/-- What the Router answers to `/register`. -/
structure Capability where
  mailboxID : Bytes
  readSecret : Bytes
  shardURL : Bytes

/-- The calls of a handler; an answer may be the text of an error. -/
inductive Call where
  | sendToShard (shardURL mailboxID frame : Bytes)
  | readFromShard (shardURL mailboxID readSecret : Bytes)
  /-- A resolution with a note, where the Router only guesses, is an error. -/
  | resolve (routerURL recipientPub : Bytes)
  /-- Load or mint the key of a user tag. -/
  | scopedKey (userTag : Bytes)
  | register (routerURL priv : Bytes)

/-- The answer to a call. -/
@[reducible] def Call.Res : Call → Type
  | sendToShard .. => Except Bytes Unit
  | readFromShard .. => Except Bytes (List Bytes)
  | resolve .. => Except Bytes Resolution
  | scopedKey _ => Except Bytes Bytes
  | register .. => Except Bytes Capability

/-- The calls of a run with their answers. -/
abbrev Transcript := List ((o : Call) × o.Res)

/-- Programs of the bridge. -/
abbrev P (α : Type) := Prog Call Call.Res α

/-- One call to the relay or to the key store. -/
def call (o : Call) : P o.Res := Prog.perform o

/-! ## Replies -/

/-- What the handlers marshal. -/
inductive Reply where
  | initResult (ok : Bool) (detail : Bytes)
  | caps
  | ack (op : UInt8)
  | status (running : Bool) (detail : Bytes)
  | poll (frames : List Bytes)
  | registered (mailboxID readSecret shardURL routerURL : Bytes)
  | resolved (mailboxID shardURL : Bytes)
  | error (code : UInt32) (detail : Bytes)

/-- The operation of a reply. -/
def Reply.op : Reply → UInt8
  | initResult .. => opInitialize
  | caps => opCapabilities
  | ack op => op
  | status .. => opStatus
  | poll _ => opPoll
  | registered .. => opRegister
  | resolved .. => opResolve
  | error .. => opError

/-- The payload of a reply. -/
def Reply.payload (np : NanoPack) : Reply → Bytes
  | initResult ok detail => marshalInitResult np ok detail transportAPIVer
  | caps => marshalCaps np
  | ack _ => marshalAck np true []
  | status running detail => marshalStatus np running detail
  | poll frames => marshalPollResult np frames
  | registered mailboxID readSecret shardURL routerURL =>
    marshalRegisterResult np mailboxID readSecret shardURL routerURL
  | resolved mailboxID shardURL => marshalResolveResult np mailboxID shardURL
  | error code detail => errPayload np code detail

/-- `errPayload(errTransport, …)` -/
def transport (detail : Bytes) : Reply := .error errTransport detail

variable (np : NanoPack) (c : Crypto) (b : BridgeState) (payload : Bytes)

/-! ## Handlers without calls -/

/-- The `router_url` of a configuration, if that is JSON of the right types.  Unlike
    `decode`, `json.Unmarshal` does not drop a byte order mark: it is no JSON. -/
def configRouter (config : Bytes) : Option Bytes :=
  match Json.parse (Decoder.run {} config) with
  | some .null => some []
  | some (.obj ps) => do
    let routerURL ← goString (goField (.obj ps) "router_url")
    let _ ← goString (goField (.obj ps) "shard_url")
    return encode routerURL
  | _ => none

/-- `opInitialize`: check who is meant, and take the Router from the configuration. -/
def onInitialize : Reply × BridgeState :=
  match unmarshalInitialize np payload with
  | .error e => (.initResult false e, b)
  | .ok init =>
    if init.transportID ≠ bridgeID then (.initResult false (txt "transport id mismatch"), b)
    else if init.apiVersion ≠ transportAPIVer then
      (.initResult false (txt "api version mismatch"), b)
    else if init.config = [] then (.initResult true [], b)
    else match configRouter init.config with
      -- an invalid configuration is logged and ignored
      | none => (.initResult true [], b)
      | some routerURL => (.initResult true [], { b with routerURL })

/-- `opStartStop`: whether the courier runs from now on. -/
def onStartStop : Reply × BridgeState :=
  match unmarshalStartStop np payload with
  | .error e => (transport e, b)
  | .ok action => (.ack opStartStop, { b with running := action == actionStart })

/-- The bridge has been started. -/
def BridgeState.requireRunning : Except Reply Unit :=
  if b.running then .ok () else .error (.error errNotReady (txt "not started"))

/-- A step of a plan; its error becomes the reply. -/
def orRefuse {α : Type} (r : Except Bytes α) : Except Reply α := r.mapError transport

/-- `opAttach`: an alias that is known is attached, and recorded again with the secret. -/
def onAttach : Reply × BridgeState :=
  match (do
    b.requireRunning
    let req ← orRefuse (unmarshalAttach np payload)
    let bind ← orRefuse (b.expandAlias req.mailboxID)
    return (req, bind) : Except Reply (AttachReq × Binding)) with
  | .error r => (r, b)
  | .ok (req, bind) =>
    let attachment : Binding :=
      { mailboxID := bind.mailboxID
        readSecret := hexEncode req.readSecret
        shardURL := req.shardURL
        routerURL := req.routerURL }
    let b := { b with attached := mapSet b.attached (bytesToHex req.mailboxID) attachment }
    let b := if b.routerURL = [] ∧ req.routerURL ≠ [] then { b with routerURL := req.routerURL } else b
    (.ack opAttach, b.recordAlias req.mailboxID attachment)

/-- `opDetach`: the mailbox is no longer polled; its alias stays known. -/
def onDetach : Reply × BridgeState :=
  match unmarshalDetach np payload with
  | .error e => (transport e, b)
  | .ok id =>
    (.ack opDetach, { b with attached := b.attached.filter fun e => !(e.1 == bytesToHex id) })

/-- `opStatus`: whether the courier runs, also in words. -/
def onStatus : Reply :=
  if b.running then .status true (txt "relay courier running") else .status false (txt "stopped")

/-! ## Send -/

/-- Where a frame goes: to an address that the recipient has shared, or to the
    mailbox of a public key. -/
inductive SendPlan where
  | address (shardURL mailboxID frame : Bytes)
  | pubkey (routerURL recipientPub frame : Bytes)

/-- What a send does, if its checks pass. -/
def sendPlan : Except Reply SendPlan := do
  b.requireRunning
  let req ← orRefuse (unmarshalSend np payload)
  if req.mailboxID.length = 16 ∧ req.shardURL ≠ [] then
    let bind ← orRefuse (b.expandAlias req.mailboxID)
    return .address req.shardURL bind.mailboxID req.frame
  else if req.recipientPub.length ≠ 32 then
    .error (transport (txt "recipient_pub must be 32 bytes (or pass mailbox+shard)"))
  else if b.effectiveRouter = [] then
    .error (transport (txt "no router_url: set via config or attach first"))
  else return .pubkey b.effectiveRouter req.recipientPub req.frame

/-- The replicas other than those in `seen`, each once. -/
def otherShardURLs (seen : List Bytes) : List Bytes → List Bytes
  | [] => []
  | u :: us =>
    if u = [] ∨ u ∈ seen then otherShardURLs seen us else u :: otherShardURLs (u :: seen) us

/-- The primary, then the other replicas. -/
def candidateShardURLs (primary : Bytes) (replicas : List Bytes) : List Bytes :=
  primary :: otherShardURLs [primary] replicas

/-- Try the shards one after the other until one has taken the frame. -/
def deliver (mailboxID frame lastErr : Bytes) : List Bytes → P (Except Bytes Unit)
  | [] => return .error lastErr
  | shardURL :: urls => do
    match ← call (.sendToShard shardURL mailboxID frame) with
    | .ok () => return .ok ()
    | .error e => deliver mailboxID frame e urls

/-- The mailbox of a peer is remembered under its alias. -/
def BridgeState.remember (res : Resolution) (routerURL : Bytes) : BridgeState :=
  match hexDecode res.mailboxID with
  | some full =>
    if full.length = 32 then
      b.recordAlias (aliasFor c full)
        { mailboxID := res.mailboxID, shardURL := res.shardURL, routerURL }
    else b
  | none => b

/-- The reply to a send. -/
def sendReply : Except Bytes Unit → Reply
  | .ok () => .ack opSend
  | .error e => transport e

/-- `opSend`: to an address at once, to a public key after its mailbox was resolved. -/
def onSend : P (Reply × BridgeState) :=
  match sendPlan np b payload with
  | .error r => return (r, b)
  | .ok (.address shardURL mailboxID frame) => do
    let sent ← call (.sendToShard shardURL mailboxID frame)
    return (sendReply sent, b)
  | .ok (.pubkey routerURL recipientPub frame) => do
    match ← call (.resolve routerURL recipientPub) with
    | .error e => return (transport e, b)
    | .ok res =>
      let b := b.remember c res routerURL
      let sent ← deliver res.mailboxID frame [] (candidateShardURLs res.shardURL res.replicaShardURLs)
      return (sendReply sent, b)

/-! ## Poll -/

/-- The mailboxes to be read. -/
def pollPlan : Except Reply (List Binding) := do
  b.requireRunning
  let req ← orRefuse (unmarshalPoll np payload)
  if req.mailboxID.length = 16 then return (mapGet b.attached (bytesToHex req.mailboxID)).toList
  else return b.attached.map Prod.snd

/-- Read one mailbox after the other; a failure does not end the loop. -/
def drain (frames : List Bytes) (firstErr : Option Bytes) :
    List Binding → P (List Bytes × Option Bytes)
  | [] => return (frames, firstErr)
  | mb :: targets => do
    match ← call (.readFromShard mb.shardURL mb.mailboxID mb.readSecret) with
    | .error e => drain frames (firstErr.orElse fun _ => some e) targets
    | .ok got => drain (frames ++ got) firstErr targets

/-- The reply to a poll: an error only if there is nothing to return. -/
def pollReply (frames : List Bytes) (firstErr : Option Bytes) : Reply :=
  match firstErr with
  | some e => if frames = [] then transport e else .poll frames
  | none => .poll frames

/-- `opPoll`: the whole backlog of each mailbox is returned. -/
def onPoll : P (Reply × BridgeState) :=
  match pollPlan np b payload with
  | .error r => return (r, b)
  | .ok targets => do
    let (frames, firstErr) ← drain [] none targets
    return (pollReply frames firstErr, b)

/-! ## Register and resolve -/

/-- The Router and the user tag of a registration. -/
def registerPlan : Except Reply (Bytes × Bytes) := do
  let req ← orRefuse (unmarshalRegisterReq np payload)
  let routerURL := if req.routerURL = [] then b.effectiveRouter else req.routerURL
  if routerURL = [] then .error (transport (txt "no router_url"))
  else return (routerURL, req.userTag)

/-- The alias and the secret of a capability, or the reply that it is malformed. -/
def registered (routerURL : Bytes) (cap : Capability) : Reply × BridgeState :=
  match (hexDecode cap.mailboxID).filter fun id => id.length == 32 with
  | none => (transport (txt "relay returned bad mailbox_id"), b)
  | some fullID =>
    match (hexDecode cap.readSecret).filter fun secret => secret.length == 32 with
    | none => (transport (txt "relay returned bad read_secret"), b)
    | some secret =>
      (.registered (aliasFor c fullID) secret cap.shardURL routerURL,
        b.recordAlias (aliasFor c fullID)
          { mailboxID := cap.mailboxID
            readSecret := cap.readSecret
            shardURL := cap.shardURL
            routerURL })

/-- `opRegister`: a mailbox for the key of the user; its alias is recorded with the secret. -/
def onRegister : P (Reply × BridgeState) :=
  match registerPlan np b payload with
  | .error r => return (r, b)
  | .ok (routerURL, userTag) => do
    match ← call (.scopedKey userTag) with
    | .error e => return (transport e, b)
    | .ok priv =>
      match ← call (.register routerURL priv) with
      | .error e => return (transport e, b)
      | .ok cap => return registered c b routerURL cap

/-- The Router and the public key of a resolution. -/
def resolvePlan : Except Reply (Bytes × Bytes) := do
  let req ← orRefuse (unmarshalResolveReq np payload)
  let routerURL := if req.routerURL = [] then b.effectiveRouter else req.routerURL
  if routerURL = [] then .error (transport (txt "no router_url"))
  else return (routerURL, req.recipientPub)

/-- The alias of a resolution, or the reply that it is malformed. -/
def resolved (routerURL : Bytes) (res : Resolution) : Reply × BridgeState :=
  match (hexDecode res.mailboxID).filter fun id => id.length == 32 with
  | none => (transport (txt "relay returned bad mailbox_id"), b)
  | some fullID =>
    (.resolved (aliasFor c fullID) res.shardURL,
      b.recordAlias (aliasFor c fullID)
        { mailboxID := res.mailboxID, shardURL := res.shardURL, routerURL })

/-- `opResolve`: the mailbox of a peer; its alias is recorded without a secret. -/
def onResolve : P (Reply × BridgeState) :=
  match resolvePlan np b payload with
  | .error r => return (r, b)
  | .ok (routerURL, recipientPub) => do
    match ← call (.resolve routerURL recipientPub) with
    | .error e => return (transport e, b)
    | .ok res => return resolved c b routerURL res

/-! ## The loop -/

/-- The reply to a request and the next state. -/
def dispatch (op : UInt8) : P (Reply × BridgeState) :=
  if op = opInitialize then return onInitialize np b payload
  else if op = opCapabilities then return (.caps, b)
  else if op = opStartStop then return onStartStop np b payload
  else if op = opSend then onSend np c b payload
  else if op = opAttach then return onAttach np b payload
  else if op = opDetach then return onDetach np b payload
  else if op = opPoll then onPoll np b payload
  else if op = opStatus then return (onStatus b, b)
  else if op = opRegister then onRegister np c b payload
  else if op = opResolve then onResolve np c b payload
  else return (.error errUnsupported (txt "unknown op"), b)

/-- One round of `serveLoop`: the body that is written, framed, to the output, and
    the next state. -/
def serve (env : Envelope) : P (Bytes × BridgeState) := do
  let (reply, b) ← dispatch np c b env.payload env.op
  return (marshalEnvelope np reply.op env.reqID (reply.payload np), b)

end Bridge
