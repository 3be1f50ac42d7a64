/-
  What a poll returns.

  A poll drains the mailboxes one after the other and answers with a batch, in
  which each frame stands behind its length.

  * `frames` is the rule by which a host splits a batch, and
    `frames_blob_iff`: it takes exactly the batches whose frames are neither
    empty nor too long;
  * `batch_parses_iff`: so a backlog is taken unless one of its messages is made
    of line breaks only, or too long;
  * `poll_loses_nothing`: each requested mailbox is read once, and the reply is
    an error exactly if a read has failed and no frame was drained.
-/
import NexTalkRelay.Bridge.Frames
import NexTalkRelay.Bridge.Reply
import NexTalkRelay.Lib.Runs

open Effect Js Shard Runs

namespace Bridge

/-! ## The split of a batch -/

/-- `MAX_FRAME` -/
def maxFrame : ℕ := 40 * 1024

/-- The length in front of a frame. -/
def frameLength (w x y z : UInt8) : ℕ := (uint32 [w, x, y, z]).toNat

theorem frameLength_putUint32 (n : UInt32) :
    ∃ w x y z, putUint32 n = [w, x, y, z] ∧ frameLength w x y z = n.toNat :=
  ⟨_, _, _, _, rfl, congrArg UInt32.toNat (uint32_putUint32 n)⟩

/-- The frames in the bytes of a batch, or none if a length is out of bounds.  A
    frame takes more than one byte, so that the fuel need not exceed the length. -/
def framesFrom : ℕ → Bytes → Option (List Bytes)
  | _, [] => some []
  | fuel + 1, w :: x :: y :: z :: b =>
    if 0 < frameLength w x y z ∧ frameLength w x y z ≤ maxFrame ∧ frameLength w x y z ≤ b.length then
      (framesFrom fuel (b.drop (frameLength w x y z))).map fun frames =>
        b.take (frameLength w x y z) :: frames
    else none
  | _, _ => none

/-- `frames` of a host. -/
def frames (b : Bytes) : Option (List Bytes) := framesFrom b.length b

/-- A frame of a size that a host takes. -/
def InBounds (f : Bytes) : Prop := 0 < f.length ∧ f.length ≤ maxFrame

theorem inBounds_of_framesFrom {fuel : ℕ} {b : Bytes} {fs : List Bytes}
    (h : framesFrom fuel b = some fs) : ∀ f ∈ fs, InBounds f := by
  induction fuel, b using framesFrom.induct generalizing fs with
  | case1 fuel =>
    unfold framesFrom at h
    cases h
    simp
  | case2 fuel w x y z b hbounds ih =>
    rw [framesFrom, if_pos hbounds] at h
    obtain ⟨rest, hrest, rfl⟩ := Option.map_eq_some_iff.1 h
    intro f hf
    rcases List.mem_cons.1 hf with rfl | hf
    · rw [InBounds, List.length_take, Nat.min_eq_left hbounds.2.2]
      exact ⟨hbounds.1, hbounds.2.1⟩
    · exact ih hrest f hf
  | case3 fuel w x y z b hbounds =>
    rw [framesFrom, if_neg hbounds] at h
    cases h
  | case4 fuel b hnil hcons =>
    rw [framesFrom] at h
    · cases h
    · exact hnil
    · exact hcons

theorem framesFrom_blob {fs : List Bytes} (h : ∀ f ∈ fs, InBounds f) {fuel : ℕ}
    (hfuel : fs.length ≤ fuel) : framesFrom fuel (blob fs) = some fs := by
  induction fs generalizing fuel with
  | nil => cases fuel <;> rfl
  | cons f fs ih =>
    obtain ⟨k, rfl⟩ : ∃ k, fuel = k + 1 := Nat.exists_eq_succ_of_ne_zero (by
      simp only [List.length_cons] at hfuel
      omega)
    obtain ⟨hpos, hle⟩ := h f List.mem_cons_self
    have hrest := ih (fun g hg => h g (List.mem_cons_of_mem f hg)) (Nat.le_of_succ_le_succ hfuel)
    have hsize : f.length < 2 ^ 32 := lt_of_le_of_lt hle (by decide)
    obtain ⟨w, x, y, z, hput, hlen⟩ := frameLength_putUint32 (UInt32.ofNat f.length)
    rw [UInt32.toNat_ofNat_of_lt' hsize] at hlen
    have hblob : blob (f :: fs) = w :: x :: y :: z :: (f ++ blob fs) := by
      simp [blob, hput]
    rw [hblob, framesFrom, hlen]
    rw [if_pos ⟨hpos, hle, by simp⟩, List.drop_left, List.take_left, hrest]
    rfl

/-- **A host takes a batch exactly if every frame has a size that it takes.** -/
theorem frames_blob_iff (fs : List Bytes) : frames (blob fs) = some fs ↔ ∀ f ∈ fs, InBounds f := by
  constructor
  · exact inBounds_of_framesFrom
  · intro h
    refine framesFrom_blob h ?_
    rw [length_blob]
    clear h
    induction fs with
    | nil => simp
    | cons f fs ih =>
      simp only [List.length_cons, List.map_cons, List.sum_cons]
      omega

/-! ## The size of a frame -/

/-- Not a line break, which the decoder of base64 skips. -/
def Substantial (c : UInt16) : Prop := c ≠ 13 ∧ c ≠ 10

theorem length_decodeGroups {s : JString} {b : Bytes} (h : decodeGroups s = some b) :
    b.length ≤ s.length ∧ (b = [] → s = []) := by
  induction s using decodeGroups.induct generalizing b with
  | case1 =>
    cases h
    simp
  | case2 x y =>
    simp only [decodeGroups, Option.bind_eq_bind, Option.bind_eq_some_iff, Option.pure_def] at h
    obtain ⟨_, -, _, -, heq⟩ := h
    cases heq
    simp
  | case3 x y z hz =>
    rw [decodeGroups] at h
    · simp only [Option.bind_eq_bind, Option.bind_eq_some_iff, Option.pure_def] at h
      obtain ⟨_, -, _, -, _, -, heq⟩ := h
      cases heq
      simp
    · exact hz
  | case4 x y z w s hpad hlast ih =>
    rw [decodeGroups] at h
    · simp only [Option.bind_eq_bind, Option.bind_eq_some_iff, Option.pure_def] at h
      obtain ⟨_, -, _, -, _, -, _, -, bytes, hbytes, heq⟩ := h
      cases heq
      have hrest := (ih hbytes).1
      simp only [List.length_cons]
      constructor
      · omega
      · intro hnil
        cases hnil
    · exact hpad
    · exact hlast
  | case5 s h1 h2 h3 h4 =>
    rw [decodeGroups] at h
    · cases h
    · exact h1
    · exact h2
    · exact h3
    · exact h4

theorem length_le_encode (s : JString) : s.length ≤ (encode s).length := by
  have hunit (c : UInt16) : 1 ≤ (encodeUnit c).length := by
    unfold encodeUnit
    split
    · simp
    · split
      · simp
      · split <;> simp
  induction s using encode.induct with
  | case1 => simp
  | case2 c => exact hunit c
  | case3 c d s hcd ih =>
    rw [encode, if_pos hcd, List.length_append]
    simp only [List.length_cons, encodePair, List.length_nil]
    omega
  | case4 c d s hcd ih =>
    rw [encode, if_neg hcd, List.length_append]
    have hc := hunit c
    simp only [List.length_cons] at ih ⊢
    omega

/-- A frame is not longer than the text of its message. -/
theorem length_frameOf (message : JString) :
    (frameOf message).length ≤ (encode message).length := by
  unfold frameOf
  cases h : decodeString message with
  | none => simp
  | some b =>
    have hgroups := (length_decodeGroups h).1
    have hfilter := List.length_filter_le (fun c => c != 13 && c != 10) message
    have hencode := length_le_encode message
    rw [Option.getD_some]
    omega

/-- **A frame is empty exactly if its message is made of line breaks.** -/
theorem frameOf_eq_nil (message : JString) :
    frameOf message = [] ↔ ¬ ∃ c ∈ message, Substantial c := by
  have hfilter : (message.filter fun c => c != 13 && c != 10) = [] ↔
      ¬ ∃ c ∈ message, Substantial c := by
    rw [List.filter_eq_nil_iff]
    simp [Substantial]
  constructor
  · intro h
    rw [← hfilter]
    unfold frameOf at h
    cases hdecode : decodeString message with
    | none =>
      rw [hdecode, Option.getD_none] at h
      rw [encode_eq_nil h]
      rfl
    | some b =>
      rw [hdecode, Option.getD_some] at h
      exact (length_decodeGroups hdecode).2 h
  · intro h
    unfold frameOf decodeString
    rw [hfilter.2 h]
    rfl

/-! ## The backlog of a mailbox -/

section Backlog

variable {env : Env}

/-- An entry that the shard queues for a message of a send. -/
def Posted (env : Env) (e : Entry) : Prop :=
  ∃ body f entryId t, sendFields env body = .ok f ∧ t ≤ maxTime ∧ e = newEntry f entryId t

theorem textsOf_posted {entries : List Entry} (h : ∀ e ∈ entries, Posted env e) :
    textsOf entries = some (entries.map Entry.message) := by
  induction entries with
  | nil => rfl
  | cons e entries ih =>
    obtain ⟨⟨body, f, entryId, t, -, ht, rfl⟩, hrest⟩ := List.forall_mem_cons.1 h
    have hlimit : maxTime < 2 ^ 63 := by decide
    unfold textsOf at ih ⊢
    rw [List.mapM_cons, messageOf_newEntry f entryId (by omega), ih hrest]
    rfl

/-- A message within a limit of a shard that is within that of a host. -/
theorem Posted.short {e : Entry} (h : Posted env e)
    (hlimit : env.cfg.maxMsgBytes.le (.ofInt maxFrame) = true) :
    (frameOf e.message).length ≤ maxFrame := by
  obtain ⟨body, f, entryId, t, hfields, -, rfl⟩ := h
  have hlt : env.cfg.maxMsgBytes.lt (.ofInt (encode f.message).length) = false := by
    unfold sendFields at hfields
    simp only [Check.orAnswer_bind, Check.require_bind] at hfields
    obtain ⟨_, -, _, -, message, -, hshort, _, -, heq⟩ := hfields
    cases heq
    simpa using hshort
  have hmessage : (encode f.message).length ≤ maxFrame := by
    cases hmax : env.cfg.maxMsgBytes with
    | nan =>
      rw [hmax] at hlimit
      cases hlimit
    | inf neg =>
      rw [hmax] at hlimit hlt
      cases hlimit.symm.trans hlt
    | fin d =>
      rw [hmax] at hlimit hlt
      rw [Number.le_ofInt] at hlimit
      rw [← Bool.not_eq_true, Number.lt_ofInt, not_lt] at hlt
      exact_mod_cast hlt.trans hlimit
  exact (length_frameOf f.message).trans hmessage

/-- **A host takes the batch of a mailbox unless one of its messages is made of
    line breaks only, or is too long**; the latter cannot be where `MAX_MSG_BYTES`
    is within the limit of a host. -/
theorem batch_parses_iff {t : ℕ} {kv : Kv} {id : HexStr 16 128} {rq : ReadRequest} {stored : Mailbox}
    (hread : Reads env t kv id rq stored) (hposted : ∀ e ∈ stored.messages, Posted env e)
    (harray : stored.messages.length ≤ maxArray) (hdate : stored.createdAt ≤ maxTime) :
    ∃ fs, fs = stored.messages.map (fun e => frameOf e.message) ∧
      readFromShard (handle env t (.read rq) kv).1 = some fs ∧
      (frames (blob fs) = some fs ↔ ∀ e ∈ stored.messages, (∃ c ∈ e.message, Substantial c) ∧
        (env.cfg.maxMsgBytes.le (.ofInt maxFrame) = true ∨
          (frameOf e.message).length ≤ maxFrame)) := by
  have hlimits : maxArray < 2 ^ 63 ∧ maxTime < 2 ^ 63 := by decide
  have hproper : ∀ e ∈ stored.messages, e.json.Proper := by
    intro e he
    obtain ⟨body, f, entryId, t, -, -, rfl⟩ := hposted e he
    exact proper_newEntry f entryId t
  refine ⟨_, rfl, ?_, ?_⟩
  · rw [readFromShard_read hread.answer hproper (by omega) (by omega), textsOf_posted hposted,
      Option.map_some, List.map_map]
    rfl
  · rw [frames_blob_iff, List.forall_mem_map]
    refine forall₂_congr fun e he => ?_
    have hshort := (hposted e he).short
    rw [InBounds, List.length_pos_iff, ne_eq, frameOf_eq_nil, not_not]
    tauto

end Backlog

/-! ### A message of one line break -/

/-- A message of the sender of `plainSend`. -/
def textSend (now : ℕ) (message : JString) : SendRequest where
  ip := none
  body := some (.obj [(js "mailbox_id", .str (letters 16)), (js "message", .str message),
    (js "sender", (buildSenderAuth plainCourier now (letters 16) message).toJson)])
  entryId := [2]
  freshIdentity := ⟨[], []⟩

theorem plain_batch_parses :
    ∃ fs, fs = [frameOf (encodeToString [1, 2, 3])] ∧
      readFromShard (handle (trustingEnv {}) 0 (.read plainRead)
        (handle (trustingEnv {}) 0 (.send (plainSend [1, 2, 3])) emptyMailboxes).2).1 = some fs ∧
      (frames (blob fs) = some fs ↔ ∀ e ∈ [queuedEntry plainCourier 0 (hexLetters 16 (by decide))
        [1, 2, 3] (plainSend [1, 2, 3]) 0], (∃ c ∈ e.message, Substantial c) ∧
          ((trustingEnv {}).cfg.maxMsgBytes.le (.ofInt maxFrame) = true ∨
            (frameOf e.message).length ≤ maxFrame)) := by
  refine batch_parses_iff plainRead_reads (fun e he => ?_) (by decide) (by decide)
  rw [List.mem_singleton.1 he]
  have hsend : Sends (trustingEnv {}) 0 emptyMailboxes plainCourier 0 (hexLetters 16 (by decide))
      [1, 2, 3] (plainSend [1, 2, 3]) emptyMailbox := plainSend_sends (by decide)
  exact ⟨_, _, _, 0, hsend.fields (by decide), by decide, rfl⟩

/-- The shard accepts a line break as a message; the host refuses the batch, and
    the other message in it is gone. -/
theorem line_break_spoils_batch :
    let kv₁ := (handle (trustingEnv {}) 0 (.send (textSend 0 (js "\n"))) emptyMailboxes).2
    let kv₂ := (handle (trustingEnv {}) 10000000 (.send (textSend 10000000 (js "AQID"))) kv₁).2
    let kv₃ := (handle (trustingEnv {}) 10000000 (.read plainRead) kv₂).2
    (handle (trustingEnv {}) 0 (.send (textSend 0 (js "\n"))) emptyMailboxes).1.status = 200 ∧
      (handle (trustingEnv {}) 10000000
        (.send (textSend 10000000 (js "AQID"))) kv₁).1.status = 200 ∧
      readFromShard (handle (trustingEnv {}) 10000000 (.read plainRead) kv₂).1 =
        some [[], [1, 2, 3]] ∧
      frames (blob [[], [1, 2, 3]]) = none ∧
      readFromShard (handle (trustingEnv {}) 10000000 (.read plainRead) kv₃).1 = some [] := by
  decide +kernel

/-! ## The loop of a poll -/

section Poll

variable {np : NanoPack} {c : Crypto} {b b' : BridgeState} {payload : Bytes} {req : PollReq}
  {l : Transcript} {reply : Reply}

/-- The call that reads an attached mailbox. -/
def readCall (mb : Binding) : Call := .readFromShard mb.shardURL mb.mailboxID mb.readSecret

/-- The mailboxes that a poll asks for: the one under an alias, or all of them. -/
def requested (b : BridgeState) (req : PollReq) : List Binding :=
  if req.mailboxID = [] then b.attached.map Prod.snd
  else (mapGet b.attached (bytesToHex req.mailboxID)).toList

/-- The reads of these mailboxes with their outcomes. -/
def readings (targets : List Binding) (outcomes : List (Except Bytes (List Bytes))) : Transcript :=
  List.zipWith (fun mb outcome => ⟨readCall mb, outcome⟩) targets outcomes

/-- The frames of the successful reads, and the errors of the others. -/
def framesRead (outcomes : List (Except Bytes (List Bytes))) : List Bytes :=
  outcomes.flatMap fun outcome => match outcome with
    | .ok got => got
    | .error _ => []

/-- The errors of the reads that have failed. -/
def errorsRead (outcomes : List (Except Bytes (List Bytes))) : List Bytes :=
  outcomes.filterMap fun outcome => match outcome with
    | .ok _ => none
    | .error e => some e

/-- **The runs of the loop**: one read for each mailbox, in their order, whatever
    the outcomes are. -/
theorem drain_yields_iff {targets : List Binding} {got : List Bytes} {firstErr : Option Bytes}
    {r : List Bytes × Option Bytes} :
    (drain got firstErr targets).Yields l r ↔
      ∃ outcomes, outcomes.length = targets.length ∧ l = readings targets outcomes ∧
        r = (got ++ framesRead outcomes, firstErr.or (errorsRead outcomes).head?) := by
  induction targets generalizing got firstErr l with
  | nil =>
    constructor
    · rintro ⟨rfl, rfl⟩
      exact ⟨[], rfl, rfl, by simp [framesRead, errorsRead]⟩
    · rintro ⟨outcomes, hlength, rfl, rfl⟩
      obtain rfl := List.length_eq_zero_iff.1 hlength
      exact ⟨rfl, by simp [framesRead, errorsRead]⟩
  | cons mb targets ih =>
    constructor
    · rintro ⟨outcome, l', rfl, hrest⟩
      cases outcome with
      | error e =>
        obtain ⟨outcomes, hlength, rfl, rfl⟩ := ih.1 hrest
        refine ⟨.error e :: outcomes, congrArg (· + 1) hlength, rfl, ?_⟩
        cases firstErr <;> simp [framesRead, errorsRead]
      | ok read =>
        obtain ⟨outcomes, hlength, rfl, rfl⟩ := ih.1 hrest
        refine ⟨.ok read :: outcomes, congrArg (· + 1) hlength, rfl, ?_⟩
        simp [framesRead, errorsRead]
    · rintro ⟨outcomes, hlength, rfl, rfl⟩
      obtain ⟨outcome, outcomes, rfl⟩ := List.exists_of_length_succ _ hlength
      refine ⟨outcome, readings targets outcomes, rfl, ?_⟩
      have hrest := Nat.succ_injective hlength
      cases outcome with
      | error e =>
        refine ih.2 ⟨outcomes, hrest, rfl, ?_⟩
        cases firstErr <;> simp [framesRead, errorsRead]
      | ok read =>
        refine ih.2 ⟨outcomes, hrest, rfl, ?_⟩
        simp [framesRead, errorsRead]

theorem pollPlan_requested (hrun : b.running = true) (hreq : unmarshalPoll np payload = .ok req)
    (hid : req.mailboxID = [] ∨ req.mailboxID.length = 16) :
    pollPlan np b payload = .ok (requested b req) := by
  unfold pollPlan requested BridgeState.requireRunning orRefuse
  rw [hrun, hreq]
  rcases hid with hid | hid
  · simp [hid, Except.mapError, bind, Except.bind, pure, Except.pure]
  · have hne : req.mailboxID ≠ [] := by
      rintro heq
      rw [heq] at hid
      cases hid
    simp [hid, hne, Except.mapError, bind, Except.bind, pure, Except.pure]

/-- **The runs of a poll.** -/
theorem onPoll_yields_iff (hrun : b.running = true) (hreq : unmarshalPoll np payload = .ok req)
    (hid : req.mailboxID = [] ∨ req.mailboxID.length = 16) :
    (onPoll np b payload).Yields l (reply, b') ↔
      ∃ outcomes, outcomes.length = (requested b req).length ∧
        l = readings (requested b req) outcomes ∧
        reply = pollReply (framesRead outcomes) (errorsRead outcomes).head? ∧ b' = b := by
  unfold onPoll
  rw [pollPlan_requested hrun hreq hid]
  constructor
  · intro h
    obtain ⟨l₁, _, r, rfl, hdrain, rfl, heq⟩ := Prog.yields_bind.1 h
    cases heq
    obtain ⟨outcomes, hlength, rfl, rfl⟩ := drain_yields_iff.1 hdrain
    exact ⟨outcomes, hlength, List.append_nil _, rfl, rfl⟩
  · rintro ⟨outcomes, hlength, rfl, rfl, rfl⟩
    refine Prog.yields_bind.2 ⟨_, [], _, (List.append_nil _).symm,
      drain_yields_iff.2 ⟨outcomes, hlength, rfl, rfl⟩, rfl, rfl⟩

/-- The reply is an error exactly if a read has failed and nothing was drained. -/
theorem pollReply_cases (fs : List Bytes) (errors : List Bytes) :
    ((errors ≠ [] ∧ fs = []) ∧ ∃ e, pollReply fs errors.head? = transport e) ∨
      (¬ (errors ≠ [] ∧ fs = []) ∧ pollReply fs errors.head? = .poll fs) := by
  cases errors with
  | nil => exact Or.inr ⟨by simp, rfl⟩
  | cons e errors =>
    by_cases hfs : fs = []
    · exact Or.inl ⟨⟨by simp, hfs⟩, e, if_pos hfs⟩
    · exact Or.inr ⟨fun h => hfs h.2, if_neg hfs⟩

theorem errorsRead_ne_nil {outcomes : List (Except Bytes (List Bytes))} :
    errorsRead outcomes ≠ [] ↔ ∃ e, Except.error e ∈ outcomes := by
  unfold errorsRead
  rw [ne_eq, List.filterMap_eq_nil_iff]
  push Not
  constructor
  · rintro ⟨outcome, hmem, h⟩
    cases outcome with
    | error e => exact ⟨e, hmem⟩
    | ok got => exact absurd rfl h
  · rintro ⟨e, hmem⟩
    exact ⟨_, hmem, by simp⟩

/-- **A batch tells its frames apart.** -/
theorem blob_injective {fs gs : List Bytes} (hfs : ∀ f ∈ fs, f.length < 2 ^ 32)
    (hgs : ∀ g ∈ gs, g.length < 2 ^ 32) (h : blob fs = blob gs) : fs = gs := by
  have hblob (f : Bytes) (fs : List Bytes) :
      blob (f :: fs) = putUint32 (UInt32.ofNat f.length) ++ (f ++ blob fs) := by simp [blob]
  induction fs generalizing gs with
  | nil =>
    cases gs with
    | nil => rfl
    | cons g gs =>
      rw [hblob] at h
      cases h
  | cons f fs ih =>
    cases gs with
    | nil =>
      rw [hblob] at h
      cases h
    | cons g gs =>
      obtain ⟨hf, hfs'⟩ := List.forall_mem_cons.1 hfs
      obtain ⟨hg, hgs'⟩ := List.forall_mem_cons.1 hgs
      rw [hblob, hblob] at h
      obtain ⟨hput, hrest⟩ := List.append_inj h rfl
      have hlength : f.length = g.length := by
        have hword := congrArg (fun word => (uint32 word).toNat) hput
        simpa only [uint32_putUint32, UInt32.toNat_ofNat_of_lt' hf, UInt32.toNat_ofNat_of_lt' hg]
          using hword
      obtain ⟨rfl, hblobs⟩ := List.append_inj hrest hlength
      rw [ih hfs' hgs' hblobs]

/-- What the other side reads of a batch: the bytes of its frames and of no other
    list, and their number. -/
structure Batch (np : NanoPack) (body : Bytes) (fs : List Bytes) : Prop where
  fields : ∃ count, np.decodeID body = .ok [⟨1, blob fs⟩, ⟨2, count⟩] ∧
    (uint32 count).toNat = fs.length
  only : ∀ gs, (∀ g ∈ gs, g.length < 2 ^ 32) → blob gs = blob fs → gs = fs

/-- A batch that fits into a field of NanoPack. -/
theorem batch_poll {fs : List Bytes} (h : (blob fs).length < 2 ^ 32) :
    Batch np ((Reply.poll fs).payload np) fs := by
  have hsum : fs.length ≤ (blob fs).length ∧ ∀ f ∈ fs, f.length ≤ (blob fs).length := by
    rw [length_blob]
    clear h
    induction fs with
    | nil => simp
    | cons f fs ih =>
      obtain ⟨hlength, hall⟩ := ih
      simp only [List.length_cons, List.map_cons, List.sum_cons, List.forall_mem_cons]
      refine ⟨by omega, by omega, fun g hg => ?_⟩
      have hg' := hall g hg
      omega
  constructor
  · refine ⟨putUint32 (UInt32.ofNat fs.length), np.lossless _ fun f hf => ?_, ?_⟩
    · simp only [pollFields, List.mem_cons, List.not_mem_nil, or_false] at hf
      rcases hf with rfl | rfl
      · exact ⟨show 1 < 2 ^ 8 by decide, h⟩
      · exact ⟨show 2 < 2 ^ 8 by decide, show 4 < 2 ^ 32 by decide⟩
    · rw [uint32_putUint32, UInt32.toNat_ofNat_of_lt' (lt_of_le_of_lt hsum.1 h)]
  · intro gs hgs heq
    exact blob_injective hgs (fun f hf => lt_of_le_of_lt (hsum.2 f hf) h) heq

/-- **A poll loses nothing that it has drained.**  Whatever the outcomes of the reads
    are, each requested mailbox is read once; the reply is an error exactly if a
    read has failed and no frame was drained, and else a batch of all frames of
    the successful reads.  The limit has no influence. -/
theorem poll_loses_nothing (hrun : b.running = true) (hreq : unmarshalPoll np payload = .ok req)
    (hid : req.mailboxID = [] ∨ req.mailboxID.length = 16) :
    (∀ outcomes, outcomes.length = (requested b req).length →
      ∃ reply, (onPoll np b payload).Yields (readings (requested b req) outcomes) (reply, b)) ∧
    (∀ l reply b', (onPoll np b payload).Yields l (reply, b') → b' = b ∧ ∃ outcomes,
      outcomes.length = (requested b req).length ∧ l = readings (requested b req) outcomes ∧
      (reply.op = opError ↔ (∃ e, Except.error e ∈ outcomes) ∧ framesRead outcomes = []) ∧
      (reply.op ≠ opError → reply = .poll (framesRead outcomes) ∧
        ((blob (framesRead outcomes)).length < 2 ^ 32 →
          Batch np (reply.payload np) (framesRead outcomes)))) ∧
    ∀ payload' limit, unmarshalPoll np payload' = .ok { req with limit } →
      onPoll np b payload' = onPoll np b payload := by
  refine ⟨fun outcomes hlength => ?_, fun l reply b' h => ?_, fun payload' limit hreq' => ?_⟩
  · exact ⟨_, (onPoll_yields_iff hrun hreq hid).2 ⟨outcomes, hlength, rfl, rfl, rfl⟩⟩
  · obtain ⟨outcomes, hlength, rfl, rfl, rfl⟩ := (onPoll_yields_iff hrun hreq hid).1 h
    refine ⟨rfl, outcomes, hlength, rfl, ?_⟩
    rw [← errorsRead_ne_nil]
    rcases pollReply_cases (framesRead outcomes) (errorsRead outcomes) with
      ⟨hfailed, e, hreply⟩ | ⟨hfailed, hreply⟩
    · rw [hreply]
      exact ⟨iff_of_true rfl hfailed, fun hop => absurd rfl hop⟩
    · rw [hreply]
      refine ⟨iff_of_false ?_ hfailed, fun _ => ⟨rfl, batch_poll⟩⟩
      show ¬ opPoll = opError
      decide
  · have hplan := pollPlan_requested hrun hreq' hid
    have hsame : requested b { req with limit } = requested b req := rfl
    unfold onPoll
    rw [hplan, hsame, pollPlan_requested hrun hreq hid]

end Poll

/-! ### Two mailboxes -/

/-- A poll of all mailboxes; the limit is 1. -/
def pollOne : Bytes := tagged.bytes [⟨1, [1]⟩]

theorem two_mailboxes_polled :
    (∀ l reply b', (onPoll tagged twoAttached pollOne).Yields l (reply, b') → b' = twoAttached ∧
      ∃ outcomes, outcomes.length = 2 ∧ l = readings (requested twoAttached ⟨1, []⟩) outcomes ∧
      (reply.op = opError ↔ (∃ e, Except.error e ∈ outcomes) ∧ framesRead outcomes = []) ∧
      (reply.op ≠ opError → reply = .poll (framesRead outcomes) ∧
        ((blob (framesRead outcomes)).length < 2 ^ 32 →
          Batch tagged (reply.payload tagged) (framesRead outcomes)))) ∧
    ∀ payload' limit, unmarshalPoll tagged payload' = .ok ⟨limit, []⟩ →
      onPoll tagged twoAttached payload' = onPoll tagged twoAttached pollOne :=
  (poll_loses_nothing (show twoAttached.running = true from rfl)
    (show unmarshalPoll tagged pollOne = .ok ⟨1, []⟩ from rfl) (Or.inl rfl)).2

/-- A bridge that was stopped refuses to read its mailboxes. -/
theorem stopped_bridge_refuses_poll :
    ¬ ∀ (np : NanoPack) (b b' : BridgeState) (payload : Bytes) (req : PollReq) (l : Transcript)
      (reply : Reply), unmarshalPoll np payload = .ok req → req.mailboxID = [] →
      (onPoll np b payload).Yields l (reply, b') → reply.op = opError → failures l ≠ [] := by
  intro h
  exact h tagged { twoAttached with running := false } _ pollOne ⟨1, []⟩ [] _ rfl rfl ⟨rfl, rfl⟩ rfl rfl

end Bridge
