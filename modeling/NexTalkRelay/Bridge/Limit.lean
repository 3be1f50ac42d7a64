/-
  What a reply must find room for.

  The size of a reply is known from what the bridge has received: the request, the
  answers of the relay to its calls, and what its state has kept of earlier ones.

  * `Room`: a reply with this much data is within `maxRPCBytes`;
  * `PollFits` and its siblings say, for one kind of request each, what is handed
    over: for a poll every drained frame, with four bytes for its length;
  * `reply_fits_iff`: the other side reads the reply exactly if all that fits.
-/
import NexTalkRelay.Bridge.Reply

open Effect Js

namespace Bridge

section Received

variable (np : NanoPack) (c : Crypto) (b : BridgeState) (env : Envelope) (l : Transcript)

/-! ## Room in a reply -/

/-- A reply with these fields, `size` bytes of data in all, is within the limit.  The
    envelope adds 5 bytes, and NanoPack what it adds to the fields of both. -/
def Room (op : UInt8) (fields : List Field) (size : ℕ) : Prop :=
  np.overhead (envelopeFields op env.reqID (np.bytes fields)) + 5 + (np.overhead fields + size) ≤
    maxRPCBytes

/-- Room for an error with this text. -/
def TextFits (code : UInt32) (detail : Bytes) : Prop :=
  Room np env opError [⟨1, putUint32 code⟩, ⟨2, detail⟩] (detail.length + 4)

/-- Room for an acknowledgement. -/
def AckFits (op : UInt8) : Prop := Room np env op [⟨1, flag true⟩, ⟨2, []⟩] 1

/-- Room for the mail of a poll: each frame, 4 bytes for its length, and 4 for the number
    of the frames. -/
def MailFits (frames : List Bytes) : Prop :=
  Room np env opPoll (pollFields frames) ((frames.map fun f => f.length + 4).sum + 4)

/-- Room for the result of an initialization. -/
def ResultFits (ok : Bool) (detail : Bytes) : Prop :=
  Room np env opInitialize [⟨1, flag ok⟩, ⟨2, detail⟩, ⟨3, [transportAPIVer]⟩] (detail.length + 2)

/-- Room for what follows a check, or for the text with which the check fails. -/
def Checked {α : Type} (r : Except Bytes α) (rest : α → Prop) : Prop :=
  match r with
  | .ok a => rest a
  | .error e => TextFits np env errTransport e

/-- The same for the check that the bridge has been started. -/
def Started (rest : Prop) : Prop :=
  if b.running then rest else TextFits np env errNotReady (txt "not started")

/-! ## What the requests hand over -/

/-- `opInitialize` hands over the text with which the request could not be read. -/
def InitializeFits : Prop :=
  match unmarshalInitialize np env.payload with
  | .error e => ResultFits np env false e
  | .ok init =>
    if init.transportID ≠ bridgeID then ResultFits np env false (txt "transport id mismatch")
    else if init.apiVersion ≠ transportAPIVer then
      ResultFits np env false (txt "api version mismatch")
    else ResultFits np env true []

/-- `opCapabilities` hands over the three names of the bridge. -/
def CapabilitiesFit : Prop := Room np env opCapabilities capsFields 27

/-- `opStartStop` hands over nothing but an acknowledgement. -/
def StartStopFits : Prop :=
  Checked np env (unmarshalStartStop np env.payload) fun _ => AckFits np env opStartStop

/-- What a frame that was sent comes to: the last error, if no shard has taken it. -/
def SentFits : Prop :=
  if delivered l then AckFits np env opSend else TextFits np env errTransport (lastFailure l)

/-- `opSend` hands over an acknowledgement, or why nothing was sent. -/
def SendFits : Prop :=
  Started np b env <| Checked np env (unmarshalSend np env.payload) fun req =>
    if req.mailboxID.length = 16 ∧ req.shardURL ≠ [] then
      Checked np env (b.expandAlias req.mailboxID) fun _ => SentFits np env l
    else if req.recipientPub.length ≠ 32 then
      TextFits np env errTransport (txt "recipient_pub must be 32 bytes (or pass mailbox+shard)")
    else if b.effectiveRouter = [] then
      TextFits np env errTransport (txt "no router_url: set via config or attach first")
    else SentFits np env l

/-- `opAttach` hands over an acknowledgement, or why the alias cannot be attached. -/
def AttachFits : Prop :=
  Started np b env <| Checked np env (unmarshalAttach np env.payload) fun req =>
    Checked np env (b.expandAlias req.mailboxID) fun _ => AckFits np env opAttach

/-- `opDetach` hands over nothing but an acknowledgement. -/
def DetachFits : Prop :=
  Checked np env (unmarshalDetach np env.payload) fun _ => AckFits np env opDetach

/-- All mail that was drained; if there is none, the first error. -/
def DrainedFits : Prop :=
  match (failures l).head? with
  | some e => if drained l = [] then TextFits np env errTransport e else MailFits np env (drained l)
  | none => MailFits np env (drained l)

/-- `opPoll` hands over what was drained. -/
def PollFits : Prop :=
  Started np b env <| Checked np env (unmarshalPoll np env.payload) fun _ => DrainedFits np env l

/-- `opStatus` hands over one of two texts. -/
def StatusFits : Prop :=
  let detail := if b.running then txt "relay courier running" else txt "stopped"
  Room np env opStatus [⟨1, flag b.running⟩, ⟨2, detail⟩] (detail.length + 1)

/-- The Router that a request is for must be known. -/
def RouterFits (routerURL : Bytes) (rest : Bytes → Prop) : Prop :=
  let routerURL := if routerURL = [] then b.effectiveRouter else routerURL
  if routerURL = [] then TextFits np env errTransport (txt "no router_url") else rest routerURL

/-- `opRegister` hands over an alias of 16 bytes, a secret of 32 bytes, and the URLs of
    the shard and of the Router. -/
def RegisterFits : Prop :=
  Checked np env (unmarshalRegisterReq np env.payload) fun req =>
    RouterFits np b env req.routerURL fun routerURL =>
      match capability l with
      | none => TextFits np env errTransport (lastFailure l)
      | some cap =>
        match (hexDecode cap.mailboxID).filter fun id => id.length == 32 with
        | none => TextFits np env errTransport (txt "relay returned bad mailbox_id")
        | some fullID =>
          match (hexDecode cap.readSecret).filter fun secret => secret.length == 32 with
          | none => TextFits np env errTransport (txt "relay returned bad read_secret")
          | some secret =>
            Room np env opRegister
              [⟨1, aliasFor c fullID⟩, ⟨2, secret⟩, ⟨3, cap.shardURL⟩, ⟨4, routerURL⟩]
              (16 + 32 + cap.shardURL.length + routerURL.length)

/-- `opResolve` hands over an alias of 16 bytes and the URL of the shard. -/
def ResolveFits : Prop :=
  Checked np env (unmarshalResolveReq np env.payload) fun req =>
    RouterFits np b env req.routerURL fun _ =>
      match resolution l with
      | none => TextFits np env errTransport (lastFailure l)
      | some res =>
        match (hexDecode res.mailboxID).filter fun id => id.length == 32 with
        | none => TextFits np env errTransport (txt "relay returned bad mailbox_id")
        | some fullID =>
          Room np env opResolve [⟨1, aliasFor c fullID⟩, ⟨2, res.shardURL⟩] (16 + res.shardURL.length)

/-- **What has been received fits into a reply.** -/
def ReceivedFits : Prop :=
  if env.op = opInitialize then InitializeFits np env
  else if env.op = opCapabilities then CapabilitiesFit np env
  else if env.op = opStartStop then StartStopFits np env
  else if env.op = opSend then SendFits np b env l
  else if env.op = opAttach then AttachFits np b env
  else if env.op = opDetach then DetachFits np env
  else if env.op = opPoll then PollFits np b env l
  else if env.op = opStatus then StatusFits np b env
  else if env.op = opRegister then RegisterFits np c b env l
  else if env.op = opResolve then ResolveFits np c b env l
  else TextFits np env errUnsupported (txt "unknown op")

end Received

/-! ## The reply that is due -/

section Due

variable {np : NanoPack} {c : Crypto} {b : BridgeState} {env : Envelope} {l : Transcript}

theorem length_aliasFor (c : Crypto) (full : Bytes) : (aliasFor c full).length = 16 := by
  rw [aliasFor, List.length_take, (c.sha256 full).2]
  rfl

theorem initializeFits_iff : InitializeFits np env ↔
    load np env.reqID (onInitialize np b env.payload).1 ≤ maxRPCBytes := by
  unfold InitializeFits onInitialize
  cases unmarshalInitialize np env.payload with
  | error e => exact Iff.rfl
  | ok init =>
    dsimp only
    by_cases hid : init.transportID ≠ bridgeID
    · rw [if_pos hid, if_pos hid]
      exact Iff.rfl
    by_cases hversion : init.apiVersion ≠ transportAPIVer
    · rw [if_neg hid, if_neg hid, if_pos hversion, if_pos hversion]
      exact Iff.rfl
    rw [if_neg hid, if_neg hid, if_neg hversion, if_neg hversion]
    split
    · exact Iff.rfl
    · split <;> exact Iff.rfl

theorem startStopFits_iff : StartStopFits np env ↔
    load np env.reqID (onStartStop np b env.payload).1 ≤ maxRPCBytes := by
  unfold StartStopFits Checked onStartStop
  cases unmarshalStartStop np env.payload <;> exact Iff.rfl

theorem sentFits_iff : SentFits np env l ↔
    load np env.reqID (if delivered l then .ack opSend else transport (lastFailure l)) ≤
      maxRPCBytes := by
  unfold SentFits
  split <;> exact Iff.rfl

theorem sendFits_iff : SendFits np b env l ↔
    load np env.reqID (due np c b env.payload opSend l) ≤ maxRPCBytes := by
  simp +decide only [due, ↓reduceIte]
  unfold SendFits Started sendPlan BridgeState.requireRunning
  cases b.running with
  | false => exact Iff.rfl
  | true =>
    cases unmarshalSend np env.payload with
    | error e => exact Iff.rfl
    | ok req =>
      simp only [Checked, orRefuse, Except.mapError, bind, Except.bind, if_true]
      by_cases haddress : req.mailboxID.length = 16 ∧ req.shardURL ≠ []
      · rw [if_pos haddress, if_pos haddress]
        cases b.expandAlias req.mailboxID with
        | error e => exact Iff.rfl
        | ok bind => exact sentFits_iff
      rw [if_neg haddress, if_neg haddress]
      by_cases hpub : req.recipientPub.length ≠ 32
      · rw [if_pos hpub, if_pos hpub]
        exact Iff.rfl
      rw [if_neg hpub, if_neg hpub]
      by_cases hrouter : b.effectiveRouter = []
      · rw [if_pos hrouter, if_pos hrouter]
        exact Iff.rfl
      rw [if_neg hrouter, if_neg hrouter]
      exact sentFits_iff

theorem attachFits_iff : AttachFits np b env ↔
    load np env.reqID (onAttach np b env.payload).1 ≤ maxRPCBytes := by
  unfold AttachFits Started onAttach BridgeState.requireRunning
  cases b.running with
  | false => exact Iff.rfl
  | true =>
    cases unmarshalAttach np env.payload with
    | error e => exact Iff.rfl
    | ok req =>
      simp only [Checked, orRefuse, Except.mapError, bind, Except.bind, if_true]
      cases b.expandAlias req.mailboxID <;> exact Iff.rfl

theorem detachFits_iff : DetachFits np env ↔
    load np env.reqID (onDetach np b env.payload).1 ≤ maxRPCBytes := by
  unfold DetachFits Checked onDetach
  cases unmarshalDetach np env.payload <;> exact Iff.rfl

theorem drainedFits_iff : DrainedFits np env l ↔
    load np env.reqID (pollReply (drained l) (failures l).head?) ≤ maxRPCBytes := by
  unfold DrainedFits pollReply
  cases (failures l).head? with
  | none => exact Iff.rfl
  | some e =>
    dsimp only
    split <;> exact Iff.rfl

/-- **A poll finds room exactly if the sum over the drained frames does.** -/
theorem pollFits_iff : PollFits np b env l ↔
    load np env.reqID (due np c b env.payload opPoll l) ≤ maxRPCBytes := by
  simp +decide only [due, ↓reduceIte]
  unfold PollFits Started pollPlan BridgeState.requireRunning
  cases b.running with
  | false => exact Iff.rfl
  | true =>
    cases unmarshalPoll np env.payload with
    | error e => exact Iff.rfl
    | ok req =>
      simp only [Checked, orRefuse, Except.mapError, bind, Except.bind, if_true]
      by_cases hone : req.mailboxID.length = 16
      · rw [if_pos hone]
        exact drainedFits_iff
      · rw [if_neg hone]
        exact drainedFits_iff

theorem statusFits_iff : StatusFits np b env ↔
    load np env.reqID (onStatus b) ≤ maxRPCBytes := by
  unfold StatusFits onStatus
  cases b.running <;> exact Iff.rfl

/-- A member that must be 32 bytes in hexadecimal, and is. -/
theorem length_of_filter {s full : Bytes}
    (h : (hexDecode s).filter (fun id => id.length == 32) = some full) : full.length = 32 := by
  have hlen := (Option.filter_eq_some_iff.1 h).2
  exact beq_iff_eq.1 hlen

theorem registerFits_iff : RegisterFits np c b env l ↔
    load np env.reqID (due np c b env.payload opRegister l) ≤ maxRPCBytes := by
  simp +decide only [due, ↓reduceIte]
  unfold RegisterFits registerPlan
  cases unmarshalRegisterReq np env.payload with
  | error e => exact Iff.rfl
  | ok req =>
    simp only [Checked, RouterFits, orRefuse, Except.mapError, bind, Except.bind]
    generalize (if req.routerURL = [] then b.effectiveRouter else req.routerURL) = routerURL
    by_cases hrouter : routerURL = []
    · rw [if_pos hrouter, if_pos hrouter]
      exact Iff.rfl
    rw [if_neg hrouter, if_neg hrouter]
    cases capability l with
    | none => exact Iff.rfl
    | some cap =>
      simp only [pure, Except.pure, registered]
      cases hid : (hexDecode cap.mailboxID).filter fun id => id.length == 32 with
      | none => exact Iff.rfl
      | some fullID =>
        cases hsecret : (hexDecode cap.readSecret).filter fun secret => secret.length == 32 with
        | none => exact Iff.rfl
        | some secret =>
          simp only [load, Reply.weight, length_aliasFor, length_of_filter hsecret]
          exact Iff.rfl

theorem resolveFits_iff : ResolveFits np c b env l ↔
    load np env.reqID (due np c b env.payload opResolve l) ≤ maxRPCBytes := by
  simp +decide only [due, ↓reduceIte]
  unfold ResolveFits resolvePlan
  cases unmarshalResolveReq np env.payload with
  | error e => exact Iff.rfl
  | ok req =>
    simp only [Checked, RouterFits, orRefuse, Except.mapError, bind, Except.bind]
    generalize (if req.routerURL = [] then b.effectiveRouter else req.routerURL) = routerURL
    by_cases hrouter : routerURL = []
    · rw [if_pos hrouter, if_pos hrouter]
      exact Iff.rfl
    rw [if_neg hrouter, if_neg hrouter]
    cases resolution l with
    | none => exact Iff.rfl
    | some res =>
      simp only [pure, Except.pure, resolved]
      cases hid : (hexDecode res.mailboxID).filter fun id => id.length == 32 with
      | none => exact Iff.rfl
      | some fullID =>
        simp only [load, Reply.weight, length_aliasFor]
        exact Iff.rfl

theorem fits_ite {p : Prop} [Decidable p] {P Q : Prop} {r r' : Reply}
    (hP : P ↔ load np env.reqID r ≤ maxRPCBytes) (hQ : Q ↔ load np env.reqID r' ≤ maxRPCBytes) :
    (if p then P else Q) ↔ load np env.reqID (if p then r else r') ≤ maxRPCBytes := by
  split
  · exact hP
  · exact hQ

/-- **The size of the reply that is due is that of what has been received.** -/
theorem receivedFits_iff : ReceivedFits np c b env l ↔
    load np env.reqID (due np c b env.payload env.op l) ≤ maxRPCBytes := by
  unfold ReceivedFits due
  refine fits_ite initializeFits_iff ?_
  refine fits_ite Iff.rfl ?_
  refine fits_ite startStopFits_iff ?_
  refine fits_ite (sendFits_iff (c := c)) ?_
  refine fits_ite attachFits_iff ?_
  refine fits_ite detachFits_iff ?_
  refine fits_ite (pollFits_iff (c := c)) ?_
  refine fits_ite statusFits_iff ?_
  refine fits_ite registerFits_iff ?_
  exact fits_ite resolveFits_iff Iff.rfl

end Due

/-! ## The limit -/

section Limit

variable {np : NanoPack} {c : Crypto} {b b' : BridgeState} {env : Envelope} {l : Transcript}
  {body : Bytes}

/-- **A reply is read exactly if what has been received fits**: only then the other side
    gets the operation, the request and the payload that were put in. -/
theorem reply_fits_iff (h : (serve np c b env).Yields l (body, b')) :
    (body.length ≤ maxRPCBytes ∧ unmarshalEnvelope np body = .ok
        { op := (due np c b env.payload env.op l).op
          reqID := env.reqID
          payload := (due np c b env.payload env.op l).payload np }) ↔
      ReceivedFits np c b env l := by
  rw [serve_due h, unmarshalEnvelope_iff, and_self, length_reply, receivedFits_iff]

/-- Two frames of one byte: 14 bytes of mail. -/
theorem small_reply_fits : ReceivedFits tagged Crypto.trusting twoAttached pollBoth
      (bothFull [[1]]) ∧
    (marshalEnvelope tagged opPoll 0 (marshalPollResult tagged ([] ++ [[1]] ++ [[1]]))).length ≤
      maxRPCBytes ∧
    unmarshalEnvelope tagged (marshalEnvelope tagged opPoll 0 (marshalPollResult tagged
        ([] ++ [[1]] ++ [[1]]))) =
      .ok { op := opPoll, reqID := 0, payload := marshalPollResult tagged [[1], [1]] } :=
  have hfits : ReceivedFits tagged Crypto.trusting twoAttached pollBoth (bothFull [[1]]) :=
    receivedFits_iff.2 (by decide)
  ⟨hfits, (reply_fits_iff (serve_bothFull Crypto.trusting [[1]])).2 hfits⟩

/-- Every mailbox has returned a backlog within the default limits of a shard. -/
def WithinLimits (l : Transcript) : Prop :=
  ∀ shardURL mailboxID readSecret frames,
    ⟨.readFromShard shardURL mailboxID readSecret, .ok frames⟩ ∈ l →
      frames.length ≤ 50 ∧ ∀ f ∈ frames, (encodeToString f).length ≤ 32768

theorem length_encodeToString (bytes : Bytes) :
    (encodeToString bytes).length = 4 * ((bytes.length + 2) / 3) := by
  induction bytes using encodeToString.induct with
  | case1 a b c bytes ih =>
    simp only [encodeToString, List.length_cons, ih]
    omega
  | case2 a b => simp [encodeToString]
  | case3 a => simp [encodeToString]
  | case4 => rfl

/-- The frames of two full mailboxes have been drained, and the reply with them is
    too long to be read. -/
theorem two_full_mailboxes_exceed_limit :
    ¬ ∀ (np : NanoPack) (c : Crypto) (b b' : BridgeState) (env : Envelope) (l : Transcript)
      (body : Bytes), WithinLimits l → (serve np c b env).Yields l (body, b') →
      body.length ≤ maxRPCBytes := by
  intro h
  have hwithin : WithinLimits (bothFull fullBacklog) := by
    intro url id secret frames hmem
    have hframes : frames = fullBacklog := by
      rcases List.mem_cons.1 hmem with heq | hmem
      · cases heq
        rfl
      · cases List.mem_singleton.1 hmem
        rfl
    refine ⟨by rw [hframes, fullBacklog, List.length_replicate], fun f hf => ?_⟩
    rw [hframes] at hf
    rw [List.eq_of_mem_replicate hf, length_encodeToString, List.length_replicate]
  have hfits := h tagged Crypto.trusting twoAttached twoAttached pollBoth _ _ hwithin
    (serve_bothFull Crypto.trusting fullBacklog)
  have hload := limit_lt_load_bothFull 0
  rw [← length_reply] at hload
  exact absurd hfits (Nat.not_le_of_lt hload)

end Limit

end Bridge
