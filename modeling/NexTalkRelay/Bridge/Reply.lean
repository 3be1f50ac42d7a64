/-
  The size of a reply.

  `serveLoop` writes a reply of any size, while `unmarshalEnvelope`, with which
  the other side reads it, takes at most `maxRPCBytes`.

  * `due` is the reply to a request as a function of what the calls have
    answered, and `dispatch_due`: it is the reply that the handlers give;
  * `Reply.weight` is the data in a reply, and `load` the size of the body;
  * `limit_lt_load_bothFull`: two full mailboxes do not fit into one reply.
-/
import NexTalkRelay.Bridge.Main

open Effect Js

namespace Bridge

/-! ## What the calls have answered -/

/-- The frames that were read from the shards. -/
def drained : Transcript → List Bytes
  | [] => []
  | ⟨.readFromShard .., .ok frames⟩ :: l => frames ++ drained l
  | _ :: l => drained l

/-- The text of an error. -/
def Call.failure : (o : Call) → o.Res → Option Bytes
  | .sendToShard .., .error e => some e
  | .readFromShard .., .error e => some e
  | .resolve .., .error e => some e
  | .scopedKey .., .error e => some e
  | .register .., .error e => some e
  | _, _ => none

/-- The errors in their order. -/
def failures (l : Transcript) : List Bytes := l.filterMap fun e => e.1.failure e.2

/-- The last error. -/
def lastFailure (l : Transcript) : Bytes := (failures l).getLastD []

/-- A shard has answered success to a send. -/
def delivered (l : Transcript) : Bool := l.any fun
  | ⟨.sendToShard .., .ok ()⟩ => true
  | _ => false

/-- The resolution or the capability that the Router has answered. -/
def resolution (l : Transcript) : Option Resolution := l.findSome? fun
  | ⟨.resolve .., .ok res⟩ => some res
  | _ => none

/-- The capability that the Router has answered. -/
def capability (l : Transcript) : Option Capability := l.findSome? fun
  | ⟨.register .., .ok cap⟩ => some cap
  | _ => none

section Due

variable (np : NanoPack) (c : Crypto) (b : BridgeState) (payload : Bytes)

/-- The reply to a request, by what the calls have answered. -/
def due (op : UInt8) (l : Transcript) : Reply :=
  if op = opInitialize then (onInitialize np b payload).1
  else if op = opCapabilities then .caps
  else if op = opStartStop then (onStartStop np b payload).1
  else if op = opSend then
    match sendPlan np b payload with
    | .error r => r
    | .ok _ => if delivered l then .ack opSend else transport (lastFailure l)
  else if op = opAttach then (onAttach np b payload).1
  else if op = opDetach then (onDetach np b payload).1
  else if op = opPoll then
    match pollPlan np b payload with
    | .error r => r
    | .ok _ => pollReply (drained l) (failures l).head?
  else if op = opStatus then onStatus b
  else if op = opRegister then
    match registerPlan np b payload with
    | .error r => r
    | .ok (routerURL, _) => match capability l with
      | some cap => (registered c b routerURL cap).1
      | none => transport (lastFailure l)
  else if op = opResolve then
    match resolvePlan np b payload with
    | .error r => r
    | .ok (routerURL, _) => match resolution l with
      | some res => (resolved c b routerURL res).1
      | none => transport (lastFailure l)
  else .error errUnsupported (txt "unknown op")

end Due

/-! ## The loops -/

theorem failures_cons (o : Call) (r : o.Res) (l : Transcript) :
    failures (⟨o, r⟩ :: l) = (o.failure r).toList ++ failures l := by
  unfold failures
  rw [List.filterMap_cons]
  cases o.failure r <;> rfl

/-- **What the loop of a poll collects.** -/
theorem drain_yields {targets : List Binding} {frames got : List Bytes}
    {firstErr err : Option Bytes} {l : Transcript}
    (h : (drain frames firstErr targets).Yields l (got, err)) :
    got = frames ++ drained l ∧ err = firstErr.or (failures l).head? := by
  induction targets generalizing frames firstErr l with
  | nil =>
    obtain ⟨rfl, heq⟩ := h
    cases heq
    exact ⟨(List.append_nil _).symm, Option.or_none.symm⟩
  | cons mb targets ih =>
    obtain ⟨r, l', rfl, hrest⟩ := h
    cases r with
    | error e =>
      obtain ⟨hgot, herr⟩ := ih hrest
      refine ⟨hgot, ?_⟩
      rw [herr, failures_cons]
      cases firstErr <;> rfl
    | ok read =>
      obtain ⟨hgot, herr⟩ := ih hrest
      refine ⟨?_, ?_⟩
      · rw [hgot, List.append_assoc]
        rfl
      · rw [herr, failures_cons]
        rfl

/-- **What the failover of a send returns.** -/
theorem deliver_yields {mailboxID frame lastErr : Bytes} {urls : List Bytes} {l : Transcript}
    {sent : Except Bytes Unit} (h : (deliver mailboxID frame lastErr urls).Yields l sent) :
    sendReply sent = if delivered l then .ack opSend else transport ((failures l).getLastD lastErr) := by
  induction urls generalizing lastErr l with
  | nil =>
    obtain ⟨rfl, rfl⟩ := h
    rfl
  | cons url urls ih =>
    obtain ⟨r, l', rfl, hrest⟩ := h
    cases r with
    | error e =>
      rw [ih hrest, failures_cons]
      change _ = if delivered l' then _ else transport ((e :: failures l').getLastD lastErr)
      rw [List.getLastD_cons]
    | ok u =>
      obtain ⟨rfl, rfl⟩ := hrest
      rfl

/-! ## The reply that is due -/

section Dispatch

variable {np : NanoPack} {c : Crypto} {b b' : BridgeState} {payload : Bytes} {l : Transcript}
  {reply : Reply}

theorem onSend_due (h : (onSend np c b payload).Yields l (reply, b')) :
    reply = due np c b payload opSend l := by
  change reply = match sendPlan np b payload with
    | .error r => r
    | .ok _ => if delivered l then .ack opSend else transport (lastFailure l)
  unfold onSend at h
  cases hplan : sendPlan np b payload with
  | error r =>
    rw [hplan] at h
    obtain ⟨-, heq⟩ := h
    cases heq
    rfl
  | ok plan =>
    rw [hplan] at h
    cases plan with
    | address shardURL mailboxID frame =>
      obtain ⟨sent, _, rfl, rfl, heq⟩ := h
      cases heq
      cases sent <;> rfl
    | pubkey routerURL recipientPub frame =>
      obtain ⟨answer, l', rfl, hrest⟩ := h
      cases answer with
      | error e =>
        obtain ⟨rfl, heq⟩ := hrest
        cases heq
        rfl
      | ok res =>
        have hbind : ((deliver res.mailboxID frame []
            (candidateShardURLs res.shardURL res.replicaShardURLs)).bind fun sent =>
            .ret (sendReply sent, b.remember c res routerURL)).Yields l' (reply, b') := hrest
        obtain ⟨l₁, _, sent, rfl, hdeliver, rfl, heq⟩ := Prog.yields_bind.1 hbind
        cases heq
        rw [List.append_nil]
        have hsent := deliver_yields hdeliver
        exact hsent

theorem onPoll_due (h : (onPoll np b payload).Yields l (reply, b')) :
    reply = due np c b payload opPoll l := by
  change reply = match pollPlan np b payload with
    | .error r => r
    | .ok _ => pollReply (drained l) (failures l).head?
  unfold onPoll at h
  cases hplan : pollPlan np b payload with
  | error r =>
    rw [hplan] at h
    obtain ⟨-, heq⟩ := h
    cases heq
    rfl
  | ok targets =>
    rw [hplan] at h
    obtain ⟨l₁, _, ⟨frames, err⟩, rfl, hdrain, rfl, heq⟩ := Prog.yields_bind.1 h
    cases heq
    obtain ⟨rfl, rfl⟩ := drain_yields hdrain
    rw [List.append_nil]
    rfl

theorem onRegister_due (h : (onRegister np c b payload).Yields l (reply, b')) :
    reply = due np c b payload opRegister l := by
  change reply = match registerPlan np b payload with
    | .error r => r
    | .ok (routerURL, _) => match capability l with
      | some cap => (registered c b routerURL cap).1
      | none => transport (lastFailure l)
  unfold onRegister at h
  cases hplan : registerPlan np b payload with
  | error r =>
    rw [hplan] at h
    obtain ⟨-, heq⟩ := h
    cases heq
    rfl
  | ok plan =>
    rw [hplan] at h
    obtain ⟨key, l', rfl, hrest⟩ := h
    cases key with
    | error e =>
      obtain ⟨rfl, heq⟩ := hrest
      cases heq
      rfl
    | ok priv =>
      obtain ⟨answer, l', rfl, hrest⟩ := hrest
      cases answer with
      | error e =>
        obtain ⟨rfl, heq⟩ := hrest
        cases heq
        rfl
      | ok cap =>
        obtain ⟨rfl, heq⟩ := hrest
        exact (congrArg Prod.fst heq).symm

theorem onResolve_due (h : (onResolve np c b payload).Yields l (reply, b')) :
    reply = due np c b payload opResolve l := by
  change reply = match resolvePlan np b payload with
    | .error r => r
    | .ok (routerURL, _) => match resolution l with
      | some res => (resolved c b routerURL res).1
      | none => transport (lastFailure l)
  unfold onResolve at h
  cases hplan : resolvePlan np b payload with
  | error r =>
    rw [hplan] at h
    obtain ⟨-, heq⟩ := h
    cases heq
    rfl
  | ok plan =>
    rw [hplan] at h
    obtain ⟨answer, l', rfl, hrest⟩ := h
    cases answer with
    | error e =>
      obtain ⟨rfl, heq⟩ := hrest
      cases heq
      rfl
    | ok res =>
      obtain ⟨rfl, heq⟩ := hrest
      exact (congrArg Prod.fst heq).symm

/-- A handler without calls. -/
theorem fst_of_yields {x : Reply × BridgeState} (h : (.ret x : P _).Yields l (reply, b')) :
    reply = x.1 := (congrArg Prod.fst h.2).symm

/-- **The reply that the handlers give is the one that is due.** -/
theorem dispatch_due {op : UInt8} (h : (dispatch np c b payload op).Yields l (reply, b')) :
    reply = due np c b payload op l := by
  unfold dispatch at h
  unfold due
  by_cases hop : op = opInitialize
  · rw [if_pos hop] at h ⊢
    exact fst_of_yields h
  rw [if_neg hop] at h ⊢
  by_cases hop : op = opCapabilities
  · rw [if_pos hop] at h ⊢
    exact fst_of_yields h
  rw [if_neg hop] at h ⊢
  by_cases hop : op = opStartStop
  · rw [if_pos hop] at h ⊢
    exact fst_of_yields h
  rw [if_neg hop] at h ⊢
  by_cases hop : op = opSend
  · rw [if_pos hop] at h ⊢
    exact onSend_due h
  rw [if_neg hop] at h ⊢
  by_cases hop : op = opAttach
  · rw [if_pos hop] at h ⊢
    exact fst_of_yields h
  rw [if_neg hop] at h ⊢
  by_cases hop : op = opDetach
  · rw [if_pos hop] at h ⊢
    exact fst_of_yields h
  rw [if_neg hop] at h ⊢
  by_cases hop : op = opPoll
  · rw [if_pos hop] at h ⊢
    exact onPoll_due (c := c) h
  rw [if_neg hop] at h ⊢
  by_cases hop : op = opStatus
  · rw [if_pos hop] at h ⊢
    exact fst_of_yields h
  rw [if_neg hop] at h ⊢
  by_cases hop : op = opRegister
  · rw [if_pos hop] at h ⊢
    exact onRegister_due h
  rw [if_neg hop] at h ⊢
  by_cases hop : op = opResolve
  · rw [if_pos hop] at h ⊢
    exact onResolve_due h
  rw [if_neg hop] at h ⊢
  exact fst_of_yields h

end Dispatch

/-! ## Sizes -/

/-- The data in a reply. -/
def Reply.weight : Reply → ℕ
  | .initResult _ detail => detail.length + 2
  | .caps => 27
  | .ack _ => 1
  | .status _ detail => detail.length + 1
  -- each frame with its length, and the number of the frames
  | .poll frames => (frames.map fun f => f.length + 4).sum + 4
  | .registered mailboxID readSecret shardURL routerURL =>
    mailboxID.length + readSecret.length + shardURL.length + routerURL.length
  | .resolved mailboxID shardURL => mailboxID.length + shardURL.length
  | .error _ detail => detail.length + 4

/-- The fields of a reply. -/
def Reply.fields : Reply → List Field
  | .initResult ok detail => [⟨1, flag ok⟩, ⟨2, detail⟩, ⟨3, [transportAPIVer]⟩]
  | .caps => capsFields
  | .ack _ => [⟨1, flag true⟩, ⟨2, []⟩]
  | .status running detail => [⟨1, flag running⟩, ⟨2, detail⟩]
  | .poll frames => pollFields frames
  | .registered mailboxID readSecret shardURL routerURL =>
    [⟨1, mailboxID⟩, ⟨2, readSecret⟩, ⟨3, shardURL⟩, ⟨4, routerURL⟩]
  | .resolved mailboxID shardURL => [⟨1, mailboxID⟩, ⟨2, shardURL⟩]
  | .error code detail => [⟨1, putUint32 code⟩, ⟨2, detail⟩]

theorem length_blob (frames : List Bytes) :
    (blob frames).length = (frames.map fun f => f.length + 4).sum := by
  induction frames with
  | nil => rfl
  | cons f frames ih =>
    have hcons : blob (f :: frames) =
        (putUint32 (UInt32.ofNat f.length) ++ f) ++ blob frames := List.flatMap_cons
    rw [hcons, List.length_append, List.length_append, length_putUint32, ih, List.map_cons,
      List.sum_cons]
    omega

theorem Reply.dataSize_fields (r : Reply) : dataSize r.fields = r.weight := by
  have hflag (ok : Bool) : (flag ok).length = 1 := rfl
  cases r with
  | caps => decide
  | poll frames =>
    simp only [fields, weight, dataSize, pollFields, List.map_cons, List.map_nil, List.sum_cons,
      List.sum_nil, length_blob, length_putUint32, Nat.add_zero]
  | _ =>
    simp only [fields, weight, dataSize, List.map_cons, List.map_nil, List.sum_cons, List.sum_nil,
      hflag, length_putUint32, List.length_cons, List.length_nil]
    omega

/-- The size of the body of a reply: its data, and what NanoPack adds to the reply
    and to the envelope. -/
def load (np : NanoPack) (reqID : UInt32) (r : Reply) : ℕ :=
  np.overhead (envelopeFields r.op reqID (r.payload np)) + 5 + (np.overhead r.fields + r.weight)

theorem length_reply (np : NanoPack) (reqID : UInt32) (r : Reply) :
    (marshalEnvelope np r.op reqID (r.payload np)).length = load np reqID r := by
  have hpayload : r.payload np = np.bytes r.fields := by cases r <;> rfl
  rw [length_marshalEnvelope, load, hpayload, np.length_bytes, r.dataSize_fields]

/-! ## The limit -/

section Limit

variable {np : NanoPack} {c : Crypto} {b b' : BridgeState} {env : Envelope} {l : Transcript}
  {body : Bytes}

/-- What is written is the reply that is due. -/
theorem serve_due (h : (serve np c b env).Yields l (body, b')) :
    body = marshalEnvelope np (due np c b env.payload env.op l).op env.reqID
      ((due np c b env.payload env.op l).payload np) := by
  have hbind : ((dispatch np c b env.payload env.op).bind fun p =>
      .ret (marshalEnvelope np p.1.op env.reqID (p.1.payload np), p.2)).Yields l (body, b') := h
  obtain ⟨l₁, _, ⟨reply, b₁⟩, rfl, hreply, rfl, heq⟩ := Prog.yields_bind.1 hbind
  rw [List.append_nil, ← dispatch_due hreply]
  exact (congrArg Prod.fst heq).symm

end Limit

/-! ### Two full mailboxes -/

/-- A backlog at the limits of a mailbox. -/
def fullBacklog : List Bytes := List.replicate 50 (List.replicate 24576 0)

theorem sum_replicate (n size : ℕ) :
    ((List.replicate n (List.replicate size (0 : UInt8))).map fun f => f.length + 4).sum =
      n * (size + 4) := by
  rw [List.map_replicate, List.sum_replicate_nat, List.length_replicate]

theorem sum_fullBacklog : (fullBacklog.map fun f => f.length + 4).sum = 1229000 :=
  sum_replicate 50 24576

/-- A bridge with two attached mailboxes. -/
def twoAttached : BridgeState where
  running := true
  attached := [(js "00", { mailboxID := [], shardURL := [1], routerURL := [] }),
    (js "01", { mailboxID := [], shardURL := [2], routerURL := [] })]

/-- A poll of all attached mailboxes. -/
def pollBoth : Envelope := { op := opPoll }

/-- Both reads return a full backlog. -/
def bothFull (backlog : List Bytes) : Transcript :=
  [⟨.readFromShard [1] [] [], .ok backlog⟩, ⟨.readFromShard [2] [] [], .ok backlog⟩]

theorem serve_bothFull (c : Crypto) (backlog : List Bytes) :
    (serve tagged c twoAttached pollBoth).Yields (bothFull backlog)
      (marshalEnvelope tagged opPoll 0 (marshalPollResult tagged ([] ++ backlog ++ backlog)),
        twoAttached) :=
  ⟨.ok backlog, _, rfl, .ok backlog, _, rfl, rfl, rfl⟩

theorem limit_lt_load_bothFull (reqID : UInt32) :
    maxRPCBytes < load tagged reqID (.poll ([] ++ fullBacklog ++ fullBacklog)) := by
  have hsum : ((([] : List Bytes) ++ fullBacklog ++ fullBacklog).map fun f => f.length + 4).sum =
      2458000 := by
    rw [List.nil_append, List.map_append, List.sum_append, sum_fullBacklog]
  have hload : 2458000 ≤ load tagged reqID (.poll ([] ++ fullBacklog ++ fullBacklog)) := by
    rw [load, Reply.weight, hsum]
    omega
  exact Nat.lt_of_lt_of_le (by decide) hload

end Bridge
