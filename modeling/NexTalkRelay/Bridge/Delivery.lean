/-
  One send of the bridge among shards that copy messages to each other.

  The bridge tries one shard after the other until one has told it of success.  A
  shard that queues the frame leaves a job, which pushes the entry to its
  siblings; a sibling queues it unless an entry with its id is there.  Attempts,
  replies and pushes may get lost.

  * `Network` fixes the shards and the courier, `Transit` is the state of all
    parties with the jobs and pushes that are under way, `Event` is what may
    happen, in any order;
  * `Heard`: no attempt that a shard has answered with success leaves the bridge
    without that answer;
  * `Inv`: every entry with the frame has one and the same id, which is also the
    id of what is under way;
  * `delivered_once`: then no queue ever holds the frame twice, and the bridge
    acknowledges exactly a send that some shard has answered with success.
-/
import NexTalkRelay.Bridge.Frames
import NexTalkRelay.Bridge.Main
import NexTalkRelay.Lib.Interleave
import NexTalkRelay.Shard.Jobs

open Effect Js Runs Shard

namespace Bridge

/-- The shards by their URLs, and the courier of the bridge. -/
structure Network (S : Type) where
  shard : S → Shard.Env
  host : Bytes → Option S
  /-- The shard that a push reaches. -/
  site : JString → Option S
  crypto : Crypto
  courier : Courier crypto

/-- The stores of the shards, the jobs that they have left and the pushes that
    these have made, the rest of the bridge's program, and whether some shard has
    answered an attempt with success. -/
structure Transit (S : Type) where
  stores : S → Kv
  jobs : List (S × FanOut)
  pushes : List (JString × Json)
  bridge : P (Reply × BridgeState)
  answered : Bool

/-- An attempt that reaches its shard at the instant `t`.  Where its reply is not
    heard, the bridge sees the error `failure`. -/
structure Attempt where
  t : ℕ
  now : ℕ
  ip : Option JString
  entryId : Bytes
  freshIdentity : Identity
  heard : Bool
  failure : Bytes

/-- A job may be run, and a push may arrive, at any time or never. -/
inductive Event (S : Type) where
  | resolved (answer : Except Bytes Resolution)
  /-- The attempt is lost before a shard has seen it. -/
  | lost (failure : Bytes)
  | attempt (a : Attempt)
  | job (n t : ℕ) (fresh : Identity)
  | push (n t : ℕ)
  /-- A request of somebody else. -/
  | other (i : S) (t : ℕ) (rq : Shard.Request)

/-- A send has begun. -/
def Transit.start {S : Type} (stores : S → Kv) (bridge : P (Reply × BridgeState)) : Transit S where
  stores
  jobs := []
  pushes := []
  bridge
  answered := false

/-- What the bridge makes of the response to an attempt. -/
def Attempt.told (a : Attempt) (r : Response) : Except Bytes Unit :=
  if a.heard && accepted r then .ok () else .error a.failure

/-- The entry carries the frame. -/
def carries (frame : Bytes) (e : Entry) : Bool := frameOf e.message == frame

/-- How often the frame is queued for a mailbox. -/
def copies (frame : Bytes) (kv : Kv) (id : JString) : ℕ := (queue kv id).countP (carries frame)

namespace Network

variable {S : Type} (net : Network S)

/-- The shard that the next attempt of the bridge would reach, its request, and
    how the bridge goes on. -/
def attempt (a : Attempt) (w : Transit S) :
    Option (S × SendRequest × (Except Bytes Unit → P (Reply × BridgeState))) :=
  match w.bridge with
  | .op (.sendToShard shardURL mailboxID frame) k => (net.host shardURL).map fun i =>
    (i, { ip := a.ip
          body := Json.received (sendRequest net.courier a.now (decode mailboxID) frame)
          entryId := a.entryId
          freshIdentity := a.freshIdentity }, k)
  | _ => none

/-- The answer of a shard and its store after a request. -/
def answer (w : Transit S) (i : S) (t : ℕ) (rq : Shard.Request) : Response × Kv :=
  handle (net.shard i) t rq (w.stores i)

variable [DecidableEq S]

/-- One step of the bridge or of a shard. -/
def step (e : Event S) (w : Transit S) : Transit S :=
  match e with
  | .resolved answer => match w.bridge with
    | .op (.resolve _ _) k => { w with bridge := k answer }
    | _ => w
  | .lost failure => match w.bridge with
    | .op (.sendToShard _ _ _) k => { w with bridge := k (.error failure) }
    | _ => w
  | .attempt a => match net.attempt a w with
    | some (i, rq, k) =>
      { stores := Function.update w.stores i (net.answer w i a.t (.send rq)).2
        jobs := w.jobs ++ (scheduled (net.shard i) a.t (.send rq) (w.stores i)).map fun job => (i, job)
        pushes := w.pushes
        bridge := k (a.told (net.answer w i a.t (.send rq)).1)
        answered := w.answered || (net.answer w i a.t (.send rq)).1.status == 200 }
    | none => w
  | .job n t fresh => match w.jobs[n]? with
    | some (i, job) =>
      { w with
        stores := Function.update w.stores i (runJob (net.shard i) t fresh job (w.stores i)).2
        pushes := w.pushes ++ (runJob (net.shard i) t fresh job (w.stores i)).1 }
    | none => w
  | .push n t => match w.pushes[n]? with
    | some (url, body) => match net.site url with
      -- the sibling reads what has been written
      | some i => { w with
          stores := Function.update w.stores i (net.answer w i t (.replicate ⟨some body.canon⟩)).2 }
      | none => w
    | none => w
  | .other i t rq => { w with stores := Function.update w.stores i (net.answer w i t rq).2 }

/-- Nobody else sends the frame. -/
def Foreign (frame : Bytes) (w : Transit S) : Event S → Prop
  | .other i t rq => ∀ id e, Brings (net.shard i) t (w.stores i) rq id e → carries frame e = false
  | _ => True

/-- The bridge is told of the success of an attempt. -/
def Heard (w : Transit S) : Event S → Prop
  | .attempt a => ∀ i rq k, net.attempt a w = some (i, rq, k) →
    (net.answer w i a.t (.send rq)).1.status = 200 →
      a.told (net.answer w i a.t (.send rq)).1 = .ok ()
  | _ => True

end Network

/-- No queue holds the frame twice, and a send that has ended is acknowledged
    exactly if some shard has answered it with success. -/
def OneDelivery {S : Type} (frame : Bytes) (w : Transit S) : Prop :=
  (∀ i id, copies frame (w.stores i) id ≤ 1) ∧
    ∀ reply b, w.bridge = .ret (reply, b) → (reply = .ack opSend ↔ w.answered = true)

/-! ## The program of the bridge -/

/-- The bridge remembers whether it was told of success. -/
def noteSend (m : Bool) : (o : Call) → o.Res → Bool
  | .sendToShard _ _ _, r => m || r.isOk
  | _, _ => m

/-- After a success the bridge tries no other shard. -/
def MaySend (m : Bool) : Call → Prop
  | .sendToShard _ _ _ => m = false
  | .resolve _ _ => True
  | _ => False

/-- The reply to a send says what the bridge was told. -/
def RepliesSend (m : Bool) (a : Reply × BridgeState) : Prop := a.1 = .ack opSend ↔ m = true

theorem sendReply_ack (r : Except Bytes Unit) : sendReply r = .ack opSend ↔ r.isOk = true := by
  cases r <;> simp [sendReply, transport, Except.isOk, Except.toBool]

theorem deliver_follows (mailboxID frame lastErr : Bytes) (urls : List Bytes) :
    (deliver mailboxID frame lastErr urls).Follows noteSend MaySend
      (fun m r => r.isOk = true ↔ m = true) false := by
  induction urls generalizing lastErr with
  | nil => simp [deliver, Except.isOk, Except.toBool]
  | cons url urls ih =>
    refine ⟨rfl, fun r => ?_⟩
    cases r with
    | ok u => exact iff_of_true rfl rfl
    | error e => exact ih e

section
variable {α β : Type} {np : NanoPack} {b : BridgeState} {payload : Bytes}

/-- The reply that refuses a request. -/
def Reply.IsError : Reply → Prop
  | .error _ _ => True
  | _ => False

theorem orRefuse_error {r : Except Bytes α} {reply : Reply} (h : orRefuse r = .error reply) :
    reply.IsError := by
  cases r with
  | ok a => cases h
  | error e => cases h; trivial

theorem bind_error {x : Except Reply α} {f : α → Except Reply β}
    (hx : ∀ r, x = .error r → r.IsError) (hf : ∀ a r, f a = .error r → r.IsError) {reply : Reply}
    (h : x >>= f = .error reply) : reply.IsError := by
  cases x with
  | error r => cases h; exact hx _ rfl
  | ok a => exact hf a reply h

theorem requireRunning_error {reply : Reply} (h : b.requireRunning = .error reply) : reply.IsError := by
  unfold BridgeState.requireRunning at h
  split at h
  · cases h
  · cases h
    trivial

theorem sendPlan_error {reply : Reply} (h : sendPlan np b payload = .error reply) : reply.IsError := by
  refine bind_error (fun _ => requireRunning_error) (fun _ r => ?_) h
  refine bind_error (fun _ => orRefuse_error) fun req r h => ?_
  split at h
  · exact bind_error (fun _ => orRefuse_error) (fun _ _ => by rintro ⟨⟩) h
  · split at h
    · cases h
      trivial
    · split at h
      · cases h
        trivial
      · cases h

theorem onSend_follows (c : Crypto) : (onSend np c b payload).Follows noteSend MaySend RepliesSend
    false := by
  unfold onSend
  split
  · next reply hplan =>
    have herror := sendPlan_error hplan
    refine ⟨fun hack => ?_, fun hm => absurd hm (by simp)⟩
    change reply = .ack opSend at hack
    rw [hack] at herror
    exact herror.elim
  · exact ⟨rfl, fun r => (sendReply_ack r).trans (by rw [noteSend, Bool.false_or])⟩
  · refine ⟨trivial, fun answer => ?_⟩
    cases answer with
    | error e => exact iff_of_false (by simp [transport]) (by simp [noteSend])
    | ok res =>
      exact (deliver_follows _ _ _ _).bind fun m r hr => (sendReply_ack r).trans hr

end

/-! ## The invariant -/

/-- Every entry with the frame, and everything that is under way, has this id; no
    queue holds the frame twice. -/
structure OneId {S : Type} (frame : Bytes) (id : JString) (w : Transit S) : Prop where
  queued : ∀ i m, ∀ e ∈ queue (w.stores i) m, carries frame e = true → e.id = id
  once : ∀ i m, copies frame (w.stores i) m ≤ 1
  jobs : ∀ p ∈ w.jobs, p.2.entry.json.canon.field (js "id") = some (.str id)
  pushes : ∀ p ∈ w.pushes, ∀ f, replicateFields (some p.2.canon) = .ok f → f.entry.id = id

/-- As long as no attempt was answered with success, nothing carries the frame: any
    id is the id of all that does. -/
structure Inv {S : Type} (frame : Bytes) (w : Transit S) : Prop where
  before : w.answered = false → ∀ id, OneId frame id w
  id : ∃ id, OneId frame id w
  bridge : w.bridge.Follows noteSend MaySend RepliesSend w.answered

section
variable {S : Type} {frame : Bytes} {w : Transit S}

/-- Nothing has two ids. -/
theorem unsent_of_any (h : ∀ id, OneId frame id w) :
    (∀ i m, ∀ e ∈ queue (w.stores i) m, carries frame e = false) ∧ w.jobs = [] ∧
      ∀ p ∈ w.pushes, ∀ f, replicateFields (some p.2.canon) ≠ .ok f := by
  refine ⟨fun i m e he => ?_, List.eq_nil_iff_forall_not_mem.2 fun p hp => ?_, fun p hp f hf => ?_⟩
  · by_contra hc
    rw [Bool.not_eq_false] at hc
    have h₁ := (h []).queued i m e he hc
    have h₂ := (h [0]).queued i m e he hc
    cases h₁.symm.trans h₂
  · cases ((h []).jobs p hp).symm.trans ((h [0]).jobs p hp)
  · cases ((h []).pushes p hp f hf).symm.trans ((h [0]).pushes p hp f hf)

theorem Inv.oneDelivery (h : Inv frame w) : OneDelivery frame w := by
  obtain ⟨id, hid⟩ := h.id
  refine ⟨hid.once, fun reply b hret => ?_⟩
  have hfollows := h.bridge
  rw [hret] at hfollows
  exact hfollows

/-- Nobody has sent the frame before. -/
theorem Inv.start {stores : S → Kv} {np : NanoPack} {c : Crypto} {b : BridgeState} {payload : Bytes}
    (hnew : ∀ i m, ∀ e ∈ queue (stores i) m, carries frame e = false) :
    Inv frame (.start stores (onSend np c b payload)) := by
  have hone (id : JString) : OneId frame id (.start stores (onSend np c b payload)) := by
    refine ⟨fun i m e he hcarries => ?_, fun i m => ?_, fun p hp => ?_, fun p hp => ?_⟩
    · rw [hnew i m e he] at hcarries
      cases hcarries
    · have hzero : copies frame (stores i) m = 0 :=
        List.countP_eq_zero.2 fun e he hcarries => by
          rw [hnew i m e he] at hcarries
          cases hcarries
      exact hzero.le.trans (Nat.zero_le 1)
    · cases hp
    · cases hp
  exact ⟨fun _ => hone, ⟨[], hone []⟩, onSend_follows c⟩

/-- The bridge is at an attempt. -/
theorem bridge_of_attempt {net : Network S} {a : Attempt} {i : S} {rq : SendRequest} {k}
    (h : net.attempt a w = some (i, rq, k)) :
    ∃ shardURL mailboxID frame, w.bridge = .op (.sendToShard shardURL mailboxID frame) k := by
  unfold Network.attempt at h
  split at h
  · next shardURL mailboxID frame k' hbridge =>
    obtain ⟨_, _, heq⟩ := Option.map_eq_some_iff.1 h
    cases heq
    exact ⟨shardURL, mailboxID, frame, hbridge⟩
  · cases h

/-- The bridge goes on as its rules say. -/
theorem Inv.bridge_attempt {net : Network S} (h : Inv frame w) {a : Attempt} {i : S} {rq : SendRequest} {k}
    (hattempt : net.attempt a w = some (i, rq, k)) : w.answered = false ∧
      ∀ r, (k r).Follows noteSend MaySend RepliesSend r.isOk := by
  obtain ⟨shardURL, mailboxID, frame, hbridge⟩ := bridge_of_attempt hattempt
  have hfollows := h.bridge
  rw [hbridge] at hfollows
  obtain ⟨hanswered, hrest⟩ := hfollows
  have hanswered : w.answered = false := hanswered
  refine ⟨hanswered, fun r => ?_⟩
  have hr := hrest r
  rw [hanswered] at hr
  exact hr

/-! ## Steps -/

variable [DecidableEq S] {net : Network S} {id : JString}

/-- **A request keeps the id**: it brings nothing with the frame, or an entry with
    this id, which is pushed, or comes where there is no other. -/
theorem OneId.answer (h : OneId frame id w) (net : Network S) (i : S) (t : ℕ) (rq : Shard.Request)
    (hb : ∀ m e, Brings (net.shard i) t (w.stores i) rq m e → carries frame e = false ∨
      e.id = id ∧ ((∃ push, rq = .replicate push) ∨
        ∀ m, ∀ x ∈ queue (w.stores i) m, carries frame x = false)) (j : S) (m : JString) :
    (∀ e ∈ queue (Function.update w.stores i (net.answer w i t rq).2 j) m,
        carries frame e = true → e.id = id) ∧
      copies frame (Function.update w.stores i (net.answer w i t rq).2 j) m ≤ 1 := by
  by_cases hj : j = i
  · subst hj
    rw [Function.update_self]
    obtain ⟨kept, hsub, hafter⟩ := handle_extends (net.shard j) t (w.stores j) rq m
    have hkept : kept.countP (carries frame) ≤ 1 := (hsub.countP_le).trans (h.once j m)
    unfold copies Network.answer
    rcases hafter with hafter | ⟨e, hbrings, hafter, hnew⟩
    · rw [hafter]
      exact ⟨fun x hx => h.queued j m x (hsub.subset hx), hkept⟩
    · rw [hafter]
      rcases hb m e hbrings with hc | ⟨hid, hfirst⟩
      · refine ⟨fun x hx hcarries => ?_, ?_⟩
        · rcases List.mem_append.1 hx with hx | hx
          · exact h.queued j m x (hsub.subset hx) hcarries
          · rw [List.mem_singleton.1 hx, hc] at hcarries
            cases hcarries
        · rw [List.countP_append, List.countP_singleton, hc]
          exact hkept
      · have hnone : kept.countP (carries frame) = 0 := by
          refine List.countP_eq_zero.2 fun x hx hcarries => ?_
          rcases hfirst with ⟨push, hpush⟩ | hfirst
          · exact hnew push hpush x hx ((h.queued j m x (hsub.subset hx) hcarries).trans hid.symm)
          · rw [hfirst m x (hsub.subset hx)] at hcarries
            cases hcarries
        refine ⟨fun x hx hcarries => ?_, ?_⟩
        · rcases List.mem_append.1 hx with hx | hx
          · exact h.queued j m x (hsub.subset hx) hcarries
          · rw [List.mem_singleton.1 hx, hid]
        · rw [List.countP_append, List.countP_singleton, hnone]
          split <;> omega
  · rw [Function.update_of_ne hj]
    exact ⟨h.queued j m, h.once j m⟩

/-- A store with the same mailboxes. -/
theorem OneId.same (h : OneId frame id w) {i : S} {kv : Kv} (hsame : SameMailboxes (w.stores i) kv)
    (j : S) (m : JString) :
    (∀ e ∈ queue (Function.update w.stores i kv j) m, carries frame e = true → e.id = id) ∧
      copies frame (Function.update w.stores i kv j) m ≤ 1 := by
  by_cases hj : j = i
  · subst hj
    rw [Function.update_self, copies, queue_same hsame]
    exact ⟨h.queued j m, h.once j m⟩
  · rw [Function.update_of_ne hj]
    exact ⟨h.queued j m, h.once j m⟩

/-- A send that is not answered with success leaves the mailboxes alone. -/
theorem send_refused_same {env : Shard.Env} {t : ℕ} {kv : Kv} {rq : SendRequest}
    (h : (handle env t (.send rq) kv).1.status ≠ 200) :
    SameMailboxes kv (handle env t (.send rq) kv).2 := by
  have hmoves := handle_moves env t kv (.send rq)
  generalize handle env t (.send rq) kv = p at h hmoves ⊢
  obtain ⟨r, kv'⟩ := p
  cases hmoves with
  | idle _ _ hsame => exact hsame
  | send _ _ _ hbare _ => exact absurd (congrArg Response.status hbare) h

/-- The entry that a copy brings has the id of its job. -/
theorem signedCopy_id {c : Crypto} {job : FanOut} {identity : Identity} {t : ℕ}
    (hjob : job.entry.json.canon.field (js "id") = some (.str id)) {f : ReplicateFields}
    (hf : replicateFields (some (signedCopy c job identity t).canon) = .ok f) : f.entry.id = id := by
  have hid := f.entry.hasId
  rw [signedCopy_entry hf, hjob] at hid
  exact (Json.str.inj (Option.some.inj hid)).symm

/-- **What keeps an id**: every step but an attempt that is answered with success. -/
theorem OneId.step (h : OneId frame id w) {e : Event S} (hforeign : net.Foreign frame w e)
    (hrefused : ∀ a i rq k, e = .attempt a → net.attempt a w = some (i, rq, k) →
      (net.answer w i a.t (.send rq)).1.status ≠ 200) : OneId frame id (net.step e w) := by
  unfold Network.step
  cases e with
  | resolved answer =>
    dsimp only
    split
    · exact ⟨h.queued, h.once, h.jobs, h.pushes⟩
    · exact h
  | lost failure =>
    dsimp only
    split
    · exact ⟨h.queued, h.once, h.jobs, h.pushes⟩
    · exact h
  | attempt a =>
    dsimp only
    split
    · next i rq k hattempt =>
      have hstatus := hrefused a i rq k rfl hattempt
      have hstores := h.same (send_refused_same hstatus)
      have hnone : scheduled (net.shard i) a.t (.send rq) (w.stores i) = [] :=
        List.eq_nil_iff_forall_not_mem.2 fun job hjob => hstatus (send_scheduled hjob).1
      refine ⟨fun j m => (hstores j m).1, fun j m => (hstores j m).2, ?_, h.pushes⟩
      rw [hnone, List.map_nil, List.append_nil]
      exact h.jobs
    · exact h
  | job n t fresh =>
    dsimp only
    split
    · next i job hget =>
      have hstores := h.same (runJob_same (net.shard i) t fresh job (w.stores i))
      refine ⟨fun j m => (hstores j m).1, fun j m => (hstores j m).2, h.jobs, fun p hp f hf => ?_⟩
      rcases List.mem_append.1 hp with hp | hp
      · exact h.pushes p hp f hf
      · have hbody := runJob_pushes hp
        rw [hbody] at hf
        exact signedCopy_id (h.jobs _ (List.mem_of_getElem? hget)) hf
    · exact h
  | push n t =>
    dsimp only
    split
    · next url body hget =>
      split
      · next i _ =>
        have hstores := h.answer net i t (.replicate ⟨some body.canon⟩)
          fun m e hb => by
            cases hb with
            | replicate hq =>
              exact Or.inr ⟨h.pushes _ (List.mem_of_getElem? hget) _ hq.fields, Or.inl ⟨_, rfl⟩⟩
        exact ⟨fun j m => (hstores j m).1, fun j m => (hstores j m).2, h.jobs, h.pushes⟩
      · exact h
    · exact h
  | other i t rq =>
    have hstores := h.answer net i t rq
      fun m e hb => Or.inl (hforeign m e hb)
    exact ⟨fun j m => (hstores j m).1, fun j m => (hstores j m).2, h.jobs, h.pushes⟩

theorem step_attempt {a : Attempt} {i : S} {rq : SendRequest} {k}
    (h : net.attempt a w = some (i, rq, k)) : net.step (.attempt a) w =
      { stores := Function.update w.stores i (net.answer w i a.t (.send rq)).2
        jobs := w.jobs ++ (scheduled (net.shard i) a.t (.send rq) (w.stores i)).map fun job => (i, job)
        pushes := w.pushes
        bridge := k (a.told (net.answer w i a.t (.send rq)).1)
        answered := w.answered || (net.answer w i a.t (.send rq)).1.status == 200 } := by
  unfold Network.step
  dsimp only
  rw [h]

/-- **The first success** fixes the id of the frame. -/
theorem OneId.first (h : ∀ id, OneId frame id w) {a : Attempt} {i : S} {rq : SendRequest} {k}
    (hattempt : net.attempt a w = some (i, rq, k)) :
    OneId frame (bytesToHex rq.entryId) (net.step (.attempt a) w) := by
  obtain ⟨hqueues, hjobs, hpushes⟩ := unsent_of_any h
  have hstores := (h (bytesToHex rq.entryId)).answer net i a.t (.send rq)
    fun m e hb => by
      cases hb with
      | send hf => exact Or.inr ⟨rfl, Or.inr (hqueues i)⟩
  rw [step_attempt hattempt]
  refine ⟨fun j m => (hstores j m).1, fun j m => (hstores j m).2, fun p hp => ?_,
    fun p hp f hf => absurd hf (hpushes p hp f)⟩
  dsimp only at hp
  rw [hjobs, List.nil_append] at hp
  obtain ⟨job, hjob, rfl⟩ := List.mem_map.1 hp
  obtain ⟨-, f, hentry⟩ := send_scheduled hjob
  dsimp only
  rw [hentry, canon_newEntry]
  rfl

/-- An error is what the bridge hears of a failure. -/
theorem Attempt.told_error {a : Attempt} {r : Response} (h : r.status ≠ 200) :
    (a.told r).isOk = false := by
  have hno : accepted r = false := by simp [accepted, h]
  unfold Attempt.told
  rw [hno, Bool.and_false]
  rfl

/-- A success that the bridge is told of. -/
theorem Inv.step_success (h : Inv frame w) {a : Attempt} {i : S} {rq : SendRequest} {k}
    (hattempt : net.attempt a w = some (i, rq, k))
    (hstatus : (net.answer w i a.t (.send rq)).1.status = 200)
    (htold : a.told (net.answer w i a.t (.send rq)).1 = .ok ()) :
    Inv frame (net.step (.attempt a) w) := by
  obtain ⟨hanswered, hrest⟩ := h.bridge_attempt hattempt
  have hafter : (net.step (.attempt a) w).answered = true := by
    rw [step_attempt hattempt]
    simp [hstatus]
  refine ⟨fun hno => ?_, ⟨_, OneId.first (h.before hanswered) hattempt⟩, ?_⟩
  · rw [hafter] at hno
    cases hno
  · rw [hafter, step_attempt hattempt]
    have hgo := hrest (a.told (net.answer w i a.t (.send rq)).1)
    rw [htold] at hgo ⊢
    exact hgo

/-- Any other step. -/
theorem Inv.step_quiet (h : Inv frame w) {e : Event S} (hforeign : net.Foreign frame w e)
    (hrefused : ∀ a i rq k, e = .attempt a → net.attempt a w = some (i, rq, k) →
      (net.answer w i a.t (.send rq)).1.status ≠ 200) : Inv frame (net.step e w) := by
  have hstep {id : JString} (hid : OneId frame id w) : OneId frame id (net.step e w) :=
    hid.step hforeign hrefused
  have hbridge : (net.step e w).answered = w.answered ∧
      (net.step e w).bridge.Follows noteSend MaySend RepliesSend w.answered := by
    have hfollows := h.bridge
    cases e with
    | resolved answer =>
      unfold Network.step
      dsimp only
      split
      · next hb =>
        rw [hb] at hfollows
        exact ⟨rfl, hfollows.2 answer⟩
      · exact ⟨rfl, hfollows⟩
    | lost failure =>
      unfold Network.step
      dsimp only
      split
      · next hb =>
        rw [hb] at hfollows
        have hgo := hfollows.2 (.error failure)
        rw [noteSend, show (Except.error failure : Except Bytes Unit).isOk = false from rfl,
          Bool.or_false] at hgo
        exact ⟨rfl, hgo⟩
      · exact ⟨rfl, hfollows⟩
    | attempt a =>
      cases hattempt : net.attempt a w with
      | none =>
        unfold Network.step
        dsimp only
        rw [hattempt]
        exact ⟨rfl, hfollows⟩
      | some p =>
        obtain ⟨i, rq, k⟩ := p
        have hstatus := hrefused a i rq k rfl hattempt
        obtain ⟨hanswered, hrest⟩ := h.bridge_attempt hattempt
        rw [step_attempt hattempt]
        refine ⟨by simp [hstatus], ?_⟩
        have hgo := hrest (a.told (net.answer w i a.t (.send rq)).1)
        rw [Attempt.told_error hstatus, ← hanswered] at hgo
        exact hgo
    | job n t fresh =>
      unfold Network.step
      dsimp only
      split <;> exact ⟨rfl, hfollows⟩
    | push n t =>
      unfold Network.step
      dsimp only
      split
      · split <;> exact ⟨rfl, hfollows⟩
      · exact ⟨rfl, hfollows⟩
    | other i t rq => exact ⟨rfl, hfollows⟩
  obtain ⟨id, hid⟩ := h.id
  refine ⟨fun hno id => hstep (h.before (hbridge.1.symm.trans hno) id), ⟨id, hstep hid⟩, ?_⟩
  rw [hbridge.1]
  exact hbridge.2

/-- **Step lemma.** -/
theorem Inv.step (h : Inv frame w) {e : Event S} (hforeign : net.Foreign frame w e)
    (hheard : net.Heard w e) : Inv frame (net.step e w) := by
  by_cases hsent : ∃ a i rq k, e = .attempt a ∧ net.attempt a w = some (i, rq, k) ∧
      (net.answer w i a.t (.send rq)).1.status = 200
  · obtain ⟨a, i, rq, k, rfl, hattempt, hstatus⟩ := hsent
    exact h.step_success hattempt hstatus (hheard i rq k hattempt hstatus)
  · refine h.step_quiet hforeign fun a i rq k he hattempt hstatus => ?_
    exact hsent ⟨a, i, rq, k, he, hattempt, hstatus⟩

end

/-! ## Runs -/

/-- **One send, one delivery**: if the bridge is told of every success, whatever
    else is lost, and in whatever order the pushes arrive. -/
theorem delivered_once {S : Type} [DecidableEq S] (net : Network S) (stores : S → Kv) (np : NanoPack)
    (c : Crypto) (b : BridgeState) (payload frame : Bytes)
    (hnew : ∀ i m, ∀ e ∈ queue (stores i) m, carries frame e = false) (run : List (Event S))
    (hrun : Always net.step (fun w e => net.Foreign frame w e ∧ net.Heard w e)
      (.start stores (onSend np c b payload)) run) :
    OneDelivery frame (after net.step (.start stores (onSend np c b payload)) run) :=
  (hrun.inv (fun _ _ h he => h.step he.1 he.2) (Inv.start hnew)).oneDelivery

/-! ### Two shards -/

theorem routerKey_isSet : js "00" ≠ [] := by decide

/-- A shard that knows its own URL. -/
def shardAt (selfUrl : JString) : Shard.Env where
  cfg := {}
  routerSigningPublic := js "00"
  isSet := routerKey_isSet
  selfUrl := some selfUrl
  crypto := Crypto.trusting

/-- The shards at `http://a` and `http://b`. -/
def twoShards : Network Bool where
  shard i := shardAt (if i then js "http://b" else js "http://a")
  host url :=
    if url = txt "http://a" then some false else if url = txt "http://b" then some true else none
  site url :=
    if url = js "http://a/internal/replicate" then some false
    else if url = js "http://b/internal/replicate" then some true
    else none
  crypto := Crypto.trusting
  courier := plainCourier

/-- Both know each other, and have every mailbox. -/
def pairedStore : Kv := fun k => match k with
  | .mailbox _ => some ⟨{ emptyMailbox with
      replicaShardUrls := .arr [.str (js "http://a"), .str (js "http://b")] }, none⟩
  | .routingTable => some ⟨siblingTable, none⟩
  | .shardIdentity => some ⟨⟨letters 64, []⟩, none⟩
  | _ => none

/-- A send to a public key whose mailbox is on two shards. -/
def pairedStart : Transit Bool :=
  .start (fun _ => pairedStore) (onSend tagged Crypto.trusting
    { running := true, routerURL := txt "http://r" }
    (tagged.bytes [⟨1, [1, 2, 3]⟩, ⟨2, List.replicate 32 0⟩]))

/-- The Router names both shards. -/
def bothReplicas : Event Bool :=
  .resolved (.ok ⟨txt "aaaaaaaaaaaaaaaa", txt "http://a", [txt "http://a", txt "http://b"]⟩)

/-- A post at the instant `t`, whose answer is heard or not. -/
def attemptAt (t : ℕ) (entryId : Bytes) (heard : Bool) : Attempt where
  t
  now := t
  ip := none
  entryId
  freshIdentity := ⟨[], []⟩
  heard
  failure := txt "timeout"

/-- The first attempt is lost, the second one is heard, and its push arrives. -/
def secondReplica : List (Event Bool) :=
  [bothReplicas, .lost (txt "timeout"), .attempt (attemptAt 0 [1] true), .job 0 1 ⟨[], []⟩, .push 0 2]

theorem pairedStart_new : ∀ i m, ∀ e ∈ queue (pairedStart.stores i) m, carries [1, 2, 3] e = false := by
  intro i m e he
  cases he

theorem second_replica_delivers : OneDelivery [1, 2, 3] (after twoShards.step pairedStart secondReplica) := by
  have haccepted : (twoShards.attempt (attemptAt 0 [1] true)
      (after twoShards.step pairedStart (secondReplica.take 2))).map (fun p =>
        accepted (twoShards.answer (after twoShards.step pairedStart (secondReplica.take 2)) p.1 0
          (.send p.2.1)).1) = some true := by
    decide +kernel
  refine delivered_once twoShards _ _ _ _ _ _ pairedStart_new secondReplica
    ⟨⟨trivial, trivial⟩, ⟨trivial, trivial⟩, ⟨trivial, ?_⟩, ⟨trivial, trivial⟩, ⟨trivial, trivial⟩,
      trivial⟩
  intro i rq k hattempt hstatus
  have htold := haccepted
  rw [show twoShards.attempt (attemptAt 0 [1] true)
      (after twoShards.step pairedStart (secondReplica.take 2)) = some (i, rq, k) from hattempt,
    Option.map_some, Option.some.injEq] at htold
  exact if_pos htold

/-- The first shard queues the frame and its reply is lost, the second one queues
    it as well, and the push of the first arrives. -/
def lostReply : List (Event Bool) :=
  [bothReplicas, .attempt (attemptAt 0 [1] false), .attempt (attemptAt 1 [2] true),
    .job 0 2 ⟨[], []⟩, .push 0 3]

theorem lost_reply_delivers_twice :
    Always twoShards.step (twoShards.Foreign [1, 2, 3]) pairedStart lostReply ∧
      ¬ OneDelivery [1, 2, 3] (after twoShards.step pairedStart lostReply) := by
  have htwice : copies [1, 2, 3] ((after twoShards.step pairedStart lostReply).stores true)
      (letters 16) = 2 := by
    decide +kernel
  refine ⟨⟨trivial, trivial, trivial, trivial, trivial, trivial⟩, fun h => ?_⟩
  have hone := h.1 true (letters 16)
  omega

end Bridge
