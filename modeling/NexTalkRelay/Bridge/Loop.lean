/-
  The loop on the standard streams.

  * `serveLoop` reads one frame after the other, over as many reads as it takes, and
    writes the replies; `serveLoop_eq`: it is one `serve` for each request at the
    front of the stream, and then it stops;
  * `Round` is a request with the state that it met and the answers of the relay, and
    `Rounds` a sequence of them;
  * `serveLoop_serves`: in every run one frame is written for each request, in their
    order, with its id and with its operation or `opError`;
  * `OneForOne`: the other side also reads these frames as what was dispatched;
    `one_for_one_iff`: it does exactly if no reply is too large.
-/
import NexTalkRelay.Bridge.Delivery
import NexTalkRelay.Bridge.Life
import NexTalkRelay.Lib.Chunks

open Effect Js Chunks

namespace Bridge

/-! ## `serveLoop` -/

section

variable (np : NanoPack) (c : Crypto)

/-- A frame from the standard input; `none` where the loop returns. -/
def readRequest (stdin : List Bytes) : Option (Envelope × List Bytes) := do
  let (hdr, stdin) ← readFull 4 stdin
  let n := (uint32 hdr).toNat
  if n = 0 ∨ maxRPCBytes < n then none
  else
    let (body, stdin) ← readFull n stdin
    let env ← (unmarshalEnvelope np body).toOption
    return (env, stdin)

/-- At most `fuel` turns of the loop: what is written, and the last state. -/
def serveFrom : ℕ → BridgeState → List Bytes → P (List Bytes × BridgeState)
  | 0, b, _ => return ([], b)
  | fuel + 1, b, stdin =>
    match readRequest np stdin with
    | none => return ([], b)
    | some (env, stdin) => do
      let (rbody, b) ← serve np c b env
      let (out, b) ← serveFrom fuel b stdin
      return (frameMessage rbody :: out, b)

/-- Every turn takes some bytes from the input. -/
def serveLoop (b : BridgeState) (stdin : List Bytes) : P (List Bytes × BridgeState) :=
  serveFrom np c (stdin.flatten.length + 1) b stdin

/-! ## The requests -/

/-- The frame at the front of a stream: complete, of a length in bounds, and with an
    envelope that decodes. -/
def nextRequest (s : Bytes) : Option (Envelope × Bytes) :=
  let n := (uint32 (s.take 4)).toNat
  if s.length < 4 ∨ n = 0 ∨ maxRPCBytes < n ∨ s.length < 4 + n then none
  else (unmarshalEnvelope np ((s.drop 4).take n)).toOption.map fun env => (env, s.drop (4 + n))

/-- The requests before the first frame that is malformed or truncated. -/
def Requests : Bytes → List Envelope → Prop := Parsed (nextRequest np)

/-- One `serve` for each request. -/
def serveAll : BridgeState → List Envelope → P (List Bytes × BridgeState)
  | b, [] => return ([], b)
  | b, env :: envs => do
    let (rbody, b) ← serve np c b env
    let (out, b) ← serveAll b envs
    return (frameMessage rbody :: out, b)

end

section

variable {np : NanoPack} {c : Crypto}

theorem nextRequest_less {s rest : Bytes} {env : Envelope} (h : nextRequest np s = some (env, rest)) :
    rest.length < s.length := by
  unfold nextRequest at h
  dsimp only at h
  split at h
  · cases h
  · obtain ⟨_, -, heq⟩ := Option.map_eq_some_iff.1 h
    cases heq
    rw [List.length_drop]
    omega

/-- **The split into reads does not matter.** -/
theorem readRequest_flatten (stdin : List Bytes) :
    (readRequest np stdin).map (fun p => (p.1, p.2.flatten)) = nextRequest np stdin.flatten := by
  unfold readRequest nextRequest
  dsimp only
  cases hhdr : readFull 4 stdin with
  | none =>
    rw [if_pos (Or.inl (readFull_eq_none.1 hhdr))]
    rfl
  | some p =>
    obtain ⟨hdr, stdin'⟩ := p
    obtain ⟨hle, rfl, hrest⟩ := readFull_eq_some hhdr
    simp only [Option.bind_eq_bind, Option.bind_some]
    generalize (uint32 (stdin.flatten.take 4)).toNat = n
    by_cases hn : n = 0 ∨ maxRPCBytes < n
    · rw [if_pos hn, if_pos (by tauto)]
      rfl
    · rw [if_neg hn]
      cases hbody : readFull n stdin' with
      | none =>
        have hshort := readFull_eq_none.1 hbody
        rw [hrest, List.length_drop] at hshort
        rw [if_pos (by omega)]
        rfl
      | some p =>
        obtain ⟨body, stdin''⟩ := p
        obtain ⟨hlen, rfl, hrest'⟩ := readFull_eq_some hbody
        rw [hrest, List.length_drop] at hlen
        rw [if_neg (by omega), ← List.drop_drop, ← hrest, ← hrest']
        simp only [Option.bind_some]
        cases (unmarshalEnvelope np (stdin'.flatten.take n)).toOption <;> rfl

theorem serveFrom_eq {fuel : ℕ} {stdin : List Bytes} {envs : List Envelope} (b : BridgeState)
    (h : Requests np stdin.flatten envs) (hfuel : stdin.flatten.length < fuel) :
    serveFrom np c fuel b stdin = serveAll np c b envs := by
  induction fuel generalizing stdin envs b with
  | zero => cases hfuel
  | succ fuel ih =>
    have hread := @readRequest_flatten np stdin
    rw [serveFrom]
    generalize hs : stdin.flatten = s at h hread hfuel
    cases h with
    | stop hnone =>
      rw [hnone, Option.map_eq_none_iff] at hread
      rw [hread]
      rfl
    | @item _ rest env envs hsome hrest =>
      rw [hsome] at hread
      obtain ⟨⟨env', stdin'⟩, hsome', heq⟩ := Option.map_eq_some_iff.1 hread
      obtain ⟨rfl, rfl⟩ := Prod.mk.inj heq
      have hless : stdin'.flatten.length < s.length := nextRequest_less hsome
      have hnext (b : BridgeState) : serveFrom np c fuel b stdin' = serveAll np c b envs :=
        ih b hrest (by omega)
      rw [hsome', serveAll]
      simp only [hnext]

/-- **The loop serves the requests at the front of the stream, and stops.** -/
theorem serveLoop_eq {stdin : List Bytes} {envs : List Envelope} (b : BridgeState)
    (h : Requests np stdin.flatten envs) : serveLoop np c b stdin = serveAll np c b envs :=
  serveFrom_eq b h (Nat.lt_succ_self _)

theorem requests_exists (s : Bytes) : ∃ envs, Requests np s envs := by
  obtain ⟨envs, henvs, -⟩ := parsed_exists (fun _ _ _ => @nextRequest_less np _ _ _) s
  exact ⟨envs, henvs⟩

end

/-! ## Rounds -/

/-- A request, the state that it meets, and what the calls for it have answered. -/
structure Round where
  request : Envelope
  state : BridgeState
  answers : Transcript

section

variable (np : NanoPack) (c : Crypto)

/-- The reply that is due in a round. -/
def Round.due (r : Round) : Reply :=
  Bridge.due np c r.state r.request.payload r.request.op r.answers

/-- The reply that is due, as the other side should read it. -/
def Round.reply (r : Round) : Envelope where
  op := (r.due np c).op
  reqID := r.request.reqID
  payload := (r.due np c).payload np

/-- The body that is written for it. -/
def Round.body (r : Round) : Bytes :=
  marshalEnvelope np (r.due np c).op r.request.reqID ((r.due np c).payload np)

/-- Rounds from the first state to the last: each is dispatched in the state that the
    ones before have left. -/
inductive Rounds : BridgeState → List Round → BridgeState → Prop
  | nil {b : BridgeState} : Rounds b [] b
  | cons {r : Round} {rs : List Round} {b b' : BridgeState}
      (dispatched : (dispatch np c r.state r.request.payload r.request.op).Yields r.answers
        (r.due np c, b))
      (others : Rounds b rs b') : Rounds r.state (r :: rs) b'

end

section

variable {np : NanoPack} {c : Crypto}

/-- A round is determined by the state, the request and what is answered. -/
theorem Rounds.unique {b b₁ b₂ : BridgeState} {rs rs' : List Round} {l l' : Transcript}
    (h : Rounds np c b rs b₁) (h' : Rounds np c b rs' b₂)
    (hrequests : rs.map Round.request = rs'.map Round.request)
    (hanswers : rs.flatMap Round.answers ++ l = rs'.flatMap Round.answers ++ l') :
    rs = rs' ∧ b₁ = b₂ := by
  induction h generalizing rs' with
  | nil =>
    cases h' with
    | nil => exact ⟨rfl, rfl⟩
    | cons _ _ => cases hrequests
  | @cons r rs b b₁ hr _ ih =>
    generalize hb : r.state = state at h'
    cases h' with
    | nil => cases hrequests
    | @cons r' rs' b' _ hr' hrest' =>
      obtain ⟨hrequest, hothers⟩ := List.cons.inj hrequests
      simp only [List.flatMap_cons, List.append_assoc] at hanswers
      rw [hb, hrequest] at hr
      obtain ⟨hsame, hpair, hrest⟩ := hr.unique hr' hanswers
      obtain rfl := (Prod.mk.inj hpair).2
      have heq : r = r' := by
        obtain ⟨request, state, answers⟩ := r
        obtain ⟨request', state', answers'⟩ := r'
        cases hrequest
        cases hb
        cases hsame
        rfl
      obtain ⟨rfl, rfl⟩ := ih hrest' hothers hrest
      exact ⟨by rw [heq], rfl⟩

/-- **The transcripts of the loop are those of its rounds.** -/
theorem serveAll_yields {b b' : BridgeState} {envs : List Envelope} {l : Transcript}
    {out : List Bytes} (h : (serveAll np c b envs).Yields l (out, b')) :
    ∃ rs, Rounds np c b rs b' ∧ rs.map Round.request = envs ∧ rs.flatMap Round.answers = l ∧
      out = rs.map fun r => frameMessage (r.body np c) := by
  induction envs generalizing b l out with
  | nil =>
    obtain ⟨rfl, heq⟩ := h
    cases heq
    exact ⟨[], .nil, rfl, rfl, rfl⟩
  | cons env envs ih =>
    obtain ⟨l₁, l₂, ⟨body, b₁⟩, rfl, hserve, hrest⟩ := Prog.yields_bind.1 h
    obtain ⟨l₂, _, ⟨others, b₂⟩, rfl, hothers, rfl, heq⟩ := Prog.yields_bind.1 hrest
    cases heq
    have hbind : ((dispatch np c b env.payload env.op).bind fun p =>
        .ret (marshalEnvelope np p.1.op env.reqID (p.1.payload np), p.2)).Yields l₁ (body, b₁) :=
      hserve
    obtain ⟨l₁, _, ⟨reply, b₁⟩, rfl, hreply, rfl, heq⟩ := Prog.yields_bind.1 hbind
    cases heq
    obtain ⟨rs, hrounds, rfl, rfl, rfl⟩ := ih hothers
    have hdue := dispatch_due hreply
    refine ⟨⟨env, b, l₁⟩ :: rs, .cons (r := ⟨env, b, l₁⟩) (hdue ▸ hreply) hrounds, rfl, ?_, ?_⟩
    · rw [List.flatMap_cons, List.append_nil, List.append_nil]
    · rw [List.map_cons, hdue]
      rfl

/-- The loop goes through any rounds. -/
theorem Rounds.yields {b b' : BridgeState} {rs : List Round} (h : Rounds np c b rs b') :
    (serveAll np c b (rs.map Round.request)).Yields (rs.flatMap Round.answers)
      (rs.map (fun r => frameMessage (r.body np c)), b') := by
  induction h with
  | nil => exact ⟨rfl, rfl⟩
  | @cons r rs b b' hr _ ih =>
    have hserve : (serve np c r.state r.request).Yields r.answers (r.body np c, b) := by
      refine Prog.yields_bind.2 ⟨r.answers, [], _, (List.append_nil _).symm, hr, rfl, rfl⟩
    refine Prog.yields_bind.2 ⟨r.answers, _, _, List.flatMap_cons, hserve, ?_⟩
    exact Prog.yields_bind.2 ⟨_, [], _, (List.append_nil _).symm, ih, rfl, rfl⟩

end

/-! ## The operation of a reply -/

section

variable {np : NanoPack} {b : BridgeState} {payload : Bytes} {r : Reply}

theorem Reply.IsError.op (h : r.IsError) : r.op = opError := by
  cases r with
  | error => rfl
  | _ => exact h.elim

theorem pollPlan_error (h : pollPlan np b payload = .error r) : r.IsError := by
  refine bind_error (fun _ => requireRunning_error) (fun _ r => ?_) h
  refine bind_error (fun _ => orRefuse_error) fun req r h => ?_
  split at h <;> cases h

theorem registerPlan_error (h : registerPlan np b payload = .error r) : r.IsError := by
  refine bind_error (fun _ => orRefuse_error) (fun req r h => ?_) h
  dsimp only at h
  split at h
  · split at h <;> cases h
    trivial
  · cases h

theorem resolvePlan_error (h : resolvePlan np b payload = .error r) : r.IsError := by
  refine bind_error (fun _ => orRefuse_error) (fun req r h => ?_) h
  dsimp only at h
  split at h
  · split at h <;> cases h
    trivial
  · cases h

theorem attachPlan_error (h : attachPlan np b payload = .error r) : r.IsError := by
  refine bind_error (fun _ => requireRunning_error) (fun _ r => ?_) h
  refine bind_error (fun _ => orRefuse_error) fun req r h => ?_
  exact bind_error (fun _ => orRefuse_error) (fun _ _ => by rintro ⟨⟩) h

end

section

variable (np : NanoPack) (c : Crypto) (b : BridgeState) (payload : Bytes) (l : Transcript)

theorem onInitialize_op : (onInitialize np b payload).1.op = opInitialize := by
  unfold onInitialize
  split
  · rfl
  · split
    · rfl
    · split
      · rfl
      · split
        · rfl
        · split <;> rfl

theorem onStartStop_op : (onStartStop np b payload).1.op = opStartStop ∨
    (onStartStop np b payload).1.op = opError := by
  unfold onStartStop
  split
  · exact Or.inr rfl
  · exact Or.inl rfl

theorem onAttach_op : (onAttach np b payload).1.op = opAttach ∨
    (onAttach np b payload).1.op = opError := by
  rw [onAttach_eq]
  split
  · next h => exact Or.inr (attachPlan_error h).op
  · exact Or.inl rfl

theorem onDetach_op : (onDetach np b payload).1.op = opDetach ∨
    (onDetach np b payload).1.op = opError := by
  unfold onDetach
  split
  · exact Or.inr rfl
  · exact Or.inl rfl

theorem pollReply_op (frames : List Bytes) (firstErr : Option Bytes) :
    (pollReply frames firstErr).op = opPoll ∨ (pollReply frames firstErr).op = opError := by
  unfold pollReply
  split
  · split
    · exact Or.inr rfl
    · exact Or.inl rfl
  · exact Or.inl rfl

theorem registered_op (routerURL : Bytes) (cap : Capability) :
    (registered c b routerURL cap).1.op = opRegister ∨
      (registered c b routerURL cap).1.op = opError := by
  unfold registered
  split
  · exact Or.inr rfl
  · split
    · exact Or.inr rfl
    · exact Or.inl rfl

theorem resolved_op (routerURL : Bytes) (res : Resolution) :
    (resolved c b routerURL res).1.op = opResolve ∨
      (resolved c b routerURL res).1.op = opError := by
  unfold resolved
  split
  · exact Or.inr rfl
  · exact Or.inl rfl

theorem onStatus_op : (onStatus b).op = opStatus := by
  unfold onStatus
  split <;> rfl

/-- **A reply has the operation of its request, or is an error.** -/
theorem due_op (op : UInt8) : (due np c b payload op l).op = op ∨
    (due np c b payload op l).op = opError := by
  unfold due
  by_cases hop : op = opInitialize
  · rw [if_pos hop, hop]
    exact Or.inl (onInitialize_op np b payload)
  rw [if_neg hop]
  by_cases hop : op = opCapabilities
  · rw [if_pos hop, hop]
    exact Or.inl rfl
  rw [if_neg hop]
  by_cases hop : op = opStartStop
  · rw [if_pos hop, hop]
    exact onStartStop_op np b payload
  rw [if_neg hop]
  by_cases hop : op = opSend
  · rw [if_pos hop, hop]
    split
    · next h => exact Or.inr (sendPlan_error h).op
    · split
      · exact Or.inl rfl
      · exact Or.inr rfl
  rw [if_neg hop]
  by_cases hop : op = opAttach
  · rw [if_pos hop, hop]
    exact onAttach_op np b payload
  rw [if_neg hop]
  by_cases hop : op = opDetach
  · rw [if_pos hop, hop]
    exact onDetach_op np b payload
  rw [if_neg hop]
  by_cases hop : op = opPoll
  · rw [if_pos hop, hop]
    split
    · next h => exact Or.inr (pollPlan_error h).op
    · exact pollReply_op _ _
  rw [if_neg hop]
  by_cases hop : op = opStatus
  · rw [if_pos hop, hop]
    exact Or.inl (onStatus_op b)
  rw [if_neg hop]
  by_cases hop : op = opRegister
  · rw [if_pos hop, hop]
    split
    · next h => exact Or.inr (registerPlan_error h).op
    · split
      · exact registered_op c b _ _
      · exact Or.inr rfl
  rw [if_neg hop]
  by_cases hop : op = opResolve
  · rw [if_pos hop, hop]
    split
    · next h => exact Or.inr (resolvePlan_error h).op
    · split
      · exact resolved_op c b _ _
      · exact Or.inr rfl
  rw [if_neg hop]
  exact Or.inr rfl

end

/-! ## One reply for each request -/

section

variable (np : NanoPack) (c : Crypto) (b : BridgeState) (stdin : List Bytes) (l : Transcript)

/-- The rounds are those of the requests at the front of the stream, each in the state
    that the one before has left, and the reply has the operation of the request or is an
    error. -/
structure Served (b' : BridgeState) (rs : List Round) : Prop where
  requests : Requests np stdin.flatten (rs.map Round.request)
  rounds : Rounds np c b rs b'
  answers : rs.flatMap Round.answers = l
  ops : ∀ r ∈ rs, (r.reply np c).op = r.request.op ∨ (r.reply np c).op = opError

/-- One reply was written for each request, and the other side reads it as what was
    dispatched. -/
structure OneForOne (out : List Bytes) (b' : BridgeState) (rs : List Round) : Prop
    extends Served np c b stdin l b' rs where
  frames : out.map (fun frame => unmarshalEnvelope np (frame.drop 4)) =
    rs.map fun r => .ok (r.reply np c)
  stream : Requests np out.flatten (rs.map (Round.reply np c))

/-- No reply that is due in one of the rounds is too large. -/
def RepliesFit : Prop :=
  ∀ rs b', Requests np stdin.flatten (rs.map Round.request) → Rounds np c b rs b' →
    rs.flatMap Round.answers = l →
    ∀ r ∈ rs, load np r.request.reqID (r.due np c) ≤ maxRPCBytes

end

section

variable {np : NanoPack} {c : Crypto}

theorem Round.fits_iff (r : Round) :
    unmarshalEnvelope np (r.body np c) = .ok (r.reply np c) ↔
      load np r.request.reqID (r.due np c) ≤ maxRPCBytes := by
  rw [← length_reply]
  exact unmarshalEnvelope_iff np _ _ _

/-- A frame at the front of a stream is read. -/
theorem nextRequest_frame {body rest : Bytes} {env : Envelope} (hpos : 0 < body.length)
    (hle : body.length ≤ maxRPCBytes) (hbody : unmarshalEnvelope np body = .ok env) :
    nextRequest np (frameMessage body ++ rest) = some (env, rest) := by
  have hlimit : maxRPCBytes = 2097152 := rfl
  have hsize : (uint32 (putUint32 (UInt32.ofNat body.length))).toNat = body.length := by
    rw [uint32_putUint32, UInt32.toNat_ofNat_of_lt' (by change body.length < 4294967296; omega)]
  have hlen : (frameMessage body ++ rest).length = 4 + body.length + rest.length := by
    rw [frameMessage, List.length_append, List.length_append, length_putUint32]
  have htake : (frameMessage body ++ rest).take 4 = putUint32 (UInt32.ofNat body.length) := by
    rw [frameMessage, List.append_assoc]
    exact List.take_left' rfl
  have hdrop : (frameMessage body ++ rest).drop 4 = body ++ rest := by
    rw [frameMessage, List.append_assoc]
    exact List.drop_left' rfl
  unfold nextRequest
  dsimp only
  rw [htake, hsize, if_neg (by omega), ← List.drop_drop, hdrop, List.take_left, List.drop_left, hbody]
  rfl

/-- Frames of envelopes that fit are read as these. -/
theorem requests_frames {envs : List Envelope}
    (h : ∀ env ∈ envs, (marshalEnvelope np env.op env.reqID env.payload).length ≤ maxRPCBytes) :
    Requests np (envs.map fun env =>
      frameMessage (marshalEnvelope np env.op env.reqID env.payload)).flatten envs := by
  induction envs with
  | nil => exact .stop rfl
  | cons env envs ih =>
    obtain ⟨henv, hothers⟩ := List.forall_mem_cons.1 h
    refine .item (nextRequest_frame ?_ henv ((unmarshalEnvelope_iff np _ _ _).2 henv)) (ih hothers)
    rw [length_marshalEnvelope]
    omega

/-- **One frame for each request**, of any size: the loop serves the requests before the
    first malformed or truncated frame in their order, and writes nothing else.  There are
    no other rounds. -/
theorem serveLoop_serves {b b' : BridgeState} {stdin : List Bytes} {l : Transcript}
    {out : List Bytes} (h : (serveLoop np c b stdin).Yields l (out, b')) :
    ∃ rs, Served np c b stdin l b' rs ∧ out = rs.map (fun r => frameMessage (r.body np c)) ∧
      ∀ rs' b₁, Requests np stdin.flatten (rs'.map Round.request) → Rounds np c b rs' b₁ →
        rs'.flatMap Round.answers = l → rs' = rs := by
  obtain ⟨envs, henvs⟩ := @requests_exists np stdin.flatten
  rw [serveLoop_eq b henvs] at h
  obtain ⟨rs, hrounds, rfl, rfl, rfl⟩ := serveAll_yields h
  refine ⟨rs, ⟨henvs, hrounds, rfl, fun r _ => due_op _ _ _ _ _ _⟩, rfl,
    fun rs' b₁ hrequests hrounds' hanswers => ?_⟩
  exact (hrounds'.unique hrounds (hrequests.unique henvs) (congrArg (· ++ []) hanswers)).1

/-- If the other side reads the replies, they fit. -/
theorem OneForOne.fits {b b' : BridgeState} {stdin : List Bytes} {l : Transcript} {rs : List Round}
    (h : OneForOne np c b stdin l (rs.map fun r => frameMessage (r.body np c)) b' rs) :
    ∀ r ∈ rs, load np r.request.reqID (r.due np c) ≤ maxRPCBytes := by
  intro r hr
  have hframes := h.frames
  rw [List.map_map, List.map_inj_left] at hframes
  have hframe := hframes r hr
  simp only [Function.comp_apply, frameMessage, List.drop_left' (length_putUint32 _)] at hframe
  exact r.fits_iff.1 hframe

/-- **One for one.**  Whatever stands on the input, in whatever reads it comes and
    whatever the relay answers: the loop serves the requests before the first malformed
    or truncated frame, and the other side reads one reply for each, with its id and its
    operation or an error, exactly if no reply that is due is too large. -/
theorem one_for_one_iff {b b' : BridgeState} {stdin : List Bytes} {l : Transcript}
    {out : List Bytes} (h : (serveLoop np c b stdin).Yields l (out, b')) :
    (∃ rs, OneForOne np c b stdin l out b' rs) ↔ RepliesFit np c b stdin l := by
  obtain ⟨rs, hserved, rfl, honly⟩ := serveLoop_serves h
  constructor
  · rintro ⟨rs', hone⟩ rs'' b₁ hrequests' hrounds' hanswers'
    obtain rfl := honly rs' b' hone.requests hone.rounds hone.answers
    obtain rfl := honly rs'' b₁ hrequests' hrounds' hanswers'
    exact hone.fits
  · intro hfit
    have hloads := hfit rs b' hserved.requests hserved.rounds hserved.answers
    refine ⟨rs, hserved, ?_, ?_⟩
    · rw [List.map_map, List.map_inj_left]
      intro r hr
      simp only [Function.comp_apply, frameMessage, List.drop_left' (length_putUint32 _)]
      exact r.fits_iff.2 (hloads r hr)
    · have hread := @requests_frames np (rs.map (Round.reply np c)) fun env henv => by
        obtain ⟨r, hr, rfl⟩ := List.mem_map.1 henv
        exact (length_reply np _ _).trans_le (hloads r hr)
      rwa [List.map_map] at hread

end

/-! ### Two full mailboxes -/

/-- Two mailboxes are known by their aliases. -/
def known : BridgeState where
  aliases := [(bytesToHex (List.replicate 16 1),
      { mailboxID := hexEncode (List.replicate 32 1), shardURL := txt "http://a", routerURL := [] }),
    (bytesToHex (List.replicate 16 2),
      { mailboxID := hexEncode (List.replicate 32 2), shardURL := txt "http://a", routerURL := [] })]

/-- The request that starts the bridge. -/
def startRequest : Envelope := { op := opStartStop, payload := tagged.bytes [⟨1, [actionStart]⟩] }

/-- The request that attaches the mailbox with the alias `aa…a`. -/
def attachRequest (a : UInt8) : Envelope where
  op := opAttach
  payload := tagged.bytes [⟨1, List.replicate 16 a⟩, ⟨2, List.replicate 32 a⟩, ⟨3, txt "http://a"⟩]

section

variable (c : Crypto)

/-- The bridge is started and both mailboxes are attached, and then polled. -/
def started : BridgeState := (onStartStop tagged known startRequest.payload).2

/-- The bridge with the first mailbox attached. -/
def attachedOne : BridgeState := (onAttach tagged started (attachRequest 1).payload).2

/-- The bridge with both mailboxes attached. -/
def attachedBoth : BridgeState := (onAttach tagged attachedOne (attachRequest 2).payload).2

/-- The call that reads the mailbox `aa…a`. -/
def reading (a : UInt8) : Call :=
  .readFromShard (txt "http://a") (hexEncode (List.replicate 32 a)) (hexEncode (List.replicate 32 a))

/-- A poll of both mailboxes, each of which returns the backlog. -/
def pollRound (backlog : List Bytes) : Round where
  request := pollBoth
  state := attachedBoth
  answers := [⟨reading 1, .ok backlog⟩, ⟨reading 2, .ok backlog⟩]

/-- The four rounds of the run. -/
def bothRounds (backlog : List Bytes) : List Round :=
  [⟨startRequest, known, []⟩, ⟨attachRequest 1, started, []⟩, ⟨attachRequest 2, attachedOne, []⟩,
    pollRound backlog]

theorem due_pollRound (backlog : List Bytes) :
    (pollRound backlog).due tagged c = .poll ([] ++ backlog ++ backlog) := by
  change Reply.poll (backlog ++ (backlog ++ [])) = .poll ([] ++ backlog ++ backlog)
  rw [List.append_nil, List.nil_append]

theorem rounds_both (backlog : List Bytes) :
    Rounds tagged c known (bothRounds backlog) attachedBoth := by
  have hpoll : Rounds tagged c attachedBoth [pollRound backlog] attachedBoth := by
    refine .cons (r := pollRound backlog) ?_ .nil
    rw [due_pollRound]
    exact ⟨.ok backlog, _, rfl, .ok backlog, _, rfl, rfl, rfl⟩
  have htwo := @Rounds.cons tagged c ⟨attachRequest 2, attachedOne, []⟩ _ _ _ ⟨rfl, rfl⟩ hpoll
  have hone := @Rounds.cons tagged c ⟨attachRequest 1, started, []⟩ _ _ _ ⟨rfl, rfl⟩ htwo
  exact .cons (r := ⟨startRequest, known, []⟩) ⟨rfl, rfl⟩ hone

/-- The four requests on the input. -/
def bothRequests : List Envelope := [startRequest, attachRequest 1, attachRequest 2, pollBoth]

/-- Each request is one read. -/
@[irreducible] def bothInput : List Bytes := bothRequests.map fun env =>
  frameMessage (marshalEnvelope tagged env.op env.reqID env.payload)

theorem requests_bothInput : Requests tagged bothInput.flatten bothRequests := by
  unfold bothInput
  exact requests_frames (by decide +kernel)

theorem serveLoop_both (backlog : List Bytes) : (serveLoop tagged c known bothInput).Yields
    [⟨reading 1, .ok backlog⟩, ⟨reading 2, .ok backlog⟩]
    ((bothRounds backlog).map (fun r => frameMessage (r.body tagged c)), attachedBoth) := by
  rw [serveLoop_eq known requests_bothInput]
  exact (rounds_both c backlog).yields

/-- These rounds are the only ones. -/
theorem bothRounds_only {backlog : List Bytes} {rs : List Round} {b : BridgeState}
    (hrequests : Requests tagged bothInput.flatten (rs.map Round.request))
    (hrounds : Rounds tagged c known rs b)
    (hanswers : rs.flatMap Round.answers = (bothRounds backlog).flatMap Round.answers) :
    rs = bothRounds backlog :=
  (hrounds.unique (rounds_both c backlog) (hrequests.unique requests_bothInput)
    (congrArg (· ++ []) hanswers)).1

end

theorem loads_small : ∀ r ∈ bothRounds [[1]],
    load tagged r.request.reqID (r.due tagged Crypto.trusting) ≤ maxRPCBytes := by
  decide +kernel

/-- With short backlogs, each of the four requests is answered. -/
theorem four_requests_answered :
    ∃ rs, OneForOne tagged Crypto.trusting known bothInput
      [⟨reading 1, .ok [[1]]⟩, ⟨reading 2, .ok [[1]]⟩]
      ((bothRounds [[1]]).map fun r => frameMessage (r.body tagged Crypto.trusting)) attachedBoth rs := by
  have hiff := one_for_one_iff (serveLoop_both Crypto.trusting [[1]])
  refine hiff.2 ?_
  intro rs b hrequests hrounds hanswers
  obtain rfl := bothRounds_only Crypto.trusting hrequests hrounds hanswers
  exact loads_small

/-- If the reply to the poll is read, it fits. -/
theorem poll_fits {backlog : List Bytes} (h : ∃ rs, OneForOne tagged Crypto.trusting known bothInput
      [⟨reading 1, .ok backlog⟩, ⟨reading 2, .ok backlog⟩]
      ((bothRounds backlog).map fun r => frameMessage (r.body tagged Crypto.trusting))
      attachedBoth rs) :
    load tagged 0 (.poll ([] ++ backlog ++ backlog)) ≤ maxRPCBytes := by
  obtain ⟨rs, hone⟩ := h
  obtain rfl := bothRounds_only _ hone.requests hone.rounds hone.answers
  have hfits := hone.fits (pollRound backlog) (by simp [bothRounds])
  rw [due_pollRound] at hfits
  exact hfits

theorem unanswered_of_lt {backlog : List Bytes}
    (hlarge : maxRPCBytes < load tagged 0 (.poll ([] ++ backlog ++ backlog))) :
    ¬ ∀ (np : NanoPack) (c : Crypto) (b b' : BridgeState) (stdin : List Bytes) (l : Transcript)
      (out : List Bytes), (serveLoop np c b stdin).Yields l (out, b') →
        ∃ rs, OneForOne np c b stdin l out b' rs := by
  intro h
  have hone := h _ _ _ _ _ _ _ (serveLoop_both Crypto.trusting backlog)
  have hfits := poll_fits hone
  exact absurd hfits (Nat.not_le_of_lt hlarge)

/-- The poll drains two full mailboxes, and its reply is too large to be read. -/
theorem two_full_mailboxes_unanswered :
    ¬ ∀ (np : NanoPack) (c : Crypto) (b b' : BridgeState) (stdin : List Bytes) (l : Transcript)
      (out : List Bytes), (serveLoop np c b stdin).Yields l (out, b') →
        ∃ rs, OneForOne np c b stdin l out b' rs :=
  unanswered_of_lt (limit_lt_load_bothFull 0)

end Bridge
