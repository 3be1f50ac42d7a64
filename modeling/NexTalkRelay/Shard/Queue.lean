/-
  How one request changes the mailboxes of a shard.

  * `Request.target` is the mailbox that a request is addressed to, and
    `handle_frame` says that it changes the record of no other;
  * `queue kv id` is what is queued for the mailbox `id`;
  * `Brings` says which entry a request adds: the new one of a `/send`, or that
    of a push that is queued;
  * `handle_queue`: a request leaves every queue but one alone, adds to it at
    most what it brings, answers with entries that were there, and leaves it
    empty if it consumes them;
  * `handle_extends`: the order stays, and what comes in comes in at the end.
-/
import NexTalkRelay.Shard.Push

open Effect Js

namespace Shard

/-! ## Addresses -/

/-- The mailbox that a body names. -/
def bodyTarget (body : Option Json) : Option JString :=
  (hexField 16 128 (fieldOf body "mailbox_id")).map HexStr.lower

/-- The mailbox that a query names. -/
def queryTarget (mailboxId : Option JString) : Option JString :=
  (mailboxId.bind (HexStr.parse 16 128)).map HexStr.lower

/-- The mailbox that a request is addressed to. -/
def Request.target : Request → Option JString
  | .create rq => bodyTarget rq.body
  | .exists_ rq => queryTarget rq.mailboxId
  | .send rq => bodyTarget rq.body
  | .read rq => queryTarget rq.mailboxId
  | .replicate rq => bodyTarget rq.body
  | .routingTablePush _ | .routingTableServe => none

section
variable {body : Option Json}

theorem createFields_target {f : CreateFields} (h : createFields body = .ok f) :
    bodyTarget body = some f.mailboxId.lower := by
  simp only [createFields, Check.orAnswer_bind, Check.require_bind, Check.orCrash_bind] at h
  obtain ⟨v, rfl, id, hid, _, _, _, _, _, _, _, _, _, _, h⟩ := h
  have hf : f.mailboxId = id := by
    split at h
    · obtain ⟨_, _, h⟩ := Check.bind_eq_ok.1 h
      obtain ⟨_, _, h⟩ := Check.bind_eq_ok.1 h
      cases h
      rfl
    · cases h
      rfl
  rw [hf]
  exact congrArg (Option.map HexStr.lower) hid

theorem sendFields_target {env : Env} {f : SendFields} (h : sendFields env body = .ok f) :
    bodyTarget body = some f.mailboxId.lower := by
  simp only [sendFields, Check.orAnswer_bind, Check.require_bind] at h
  obtain ⟨v, rfl, id, hid, _, _, _, _, _, h⟩ := h
  cases h
  exact congrArg (Option.map HexStr.lower) hid

theorem replicateFields_target {f : ReplicateFields} (h : replicateFields body = .ok f) :
    bodyTarget body = some f.mailboxId.lower := by
  simp only [replicateFields, Check.orAnswer_bind] at h
  obtain ⟨v, rfl, id, hid, _, _, h⟩ := h
  obtain ⟨_, _, h⟩ := Check.bind_eq_ok.1 h
  obtain ⟨_, _, h⟩ := Check.bind_eq_ok.1 h
  obtain ⟨_, _, h⟩ := Check.bind_eq_ok.1 h
  cases h
  exact congrArg (Option.map HexStr.lower) hid

theorem readFields_target {rq : ReadRequest} {f : ReadFields} (h : readFields rq = .ok f) :
    queryTarget rq.mailboxId = some f.mailboxId.lower := by
  simp only [readFields, Check.orAnswer_bind] at h
  obtain ⟨id, hid, _, _, h⟩ := h
  cases h
  exact congrArg (Option.map HexStr.lower) hid

end

/-- **A request changes no record but that of the mailbox it is addressed to.** -/
theorem handle_frame (env : Env) (t : ℕ) (kv : Kv) {rq : Request} {id : JString}
    (h : rq.target ≠ some id) : (handle env t rq kv).2 (.mailbox id) = kv (.mailbox id) := by
  have hmoves := handle_moves env t kv rq
  generalize handle env t rq kv = p at hmoves ⊢
  obtain ⟨r, kv'⟩ := p
  have hne {id' : JString} (ht : rq.target = some id') : id ≠ id' := by
    rintro rfl
    exact h ht
  cases hmoves with
  | idle _ _ hsame => exact hsame id
  | create hf _ hw => exact hw.other (hne (createFields_target hf))
  | send hf _ _ _ hw => exact hw.other (hne (sendFields_target hf))
  | read hf _ _ _ hw => exact hw.other (hne (readFields_target hf))
  | replicate hf _ _ hw => exact hw.other (hne (replicateFields_target hf))

/-! ## Queues -/

/-- The entries queued for a mailbox. -/
def queue (kv : Kv) (id : JString) : List Entry :=
  match kv (.mailbox id) with
  | some slot => slot.val.messages
  | none => []

/-- The entries in a response. -/
def Response.entries (r : Response) : List Entry :=
  match r.body with
  | .read messages _ _ => messages
  | _ => []

/-- The entries that a response has consumed. -/
def Response.consumed (r : Response) : List Entry :=
  match r.body with
  | .read messages _ true => messages
  | _ => []

/-- The request adds the entry to the queue of the mailbox. -/
inductive Brings (env : Env) (t : ℕ) (kv : Kv) : Request → JString → Entry → Prop
  | send {rq : SendRequest} {f : SendFields} (fields : sendFields env rq.body = .ok f) :
      Brings env t kv (.send rq) f.mailboxId.lower (newEntry f rq.entryId t)
  | replicate {rq : ReplicateRequest} {f : ReplicateFields} (queued : Queued env t kv rq f) :
      Brings env t kv (.replicate rq) f.mailboxId.lower f.entry

/-- The change of the queues: only that of `id`, which was `old`. -/
structure QueueStep (kv : Kv) (r : Response) (kv' : Kv) (id : JString) (brought : Entry → Prop) :
    Prop where
  others : ∀ id', id' ≠ id → queue kv' id' = queue kv id'
  own : ∀ e ∈ queue kv' id, e ∈ queue kv id ∨ brought e
  shown : ∀ e ∈ r.entries, e ∈ queue kv id
  burnt : r.consumed ≠ [] → queue kv' id = []

section
variable {env : Env} {t : ℕ} {kv kv' : Kv}

theorem consumed_sub {r : Response} {e : Entry} (h : e ∈ r.consumed) : e ∈ r.entries := by
  unfold Response.consumed at h
  unfold Response.entries
  split at h
  · next hbody => rw [hbody]; exact h
  · cases h

theorem entries_idle {r : Response} (h : r.body.idle = true) : r.entries = [] ∧ r.consumed = [] := by
  unfold Response.entries Response.consumed
  split
  · next hbody => rw [hbody] at h; cases h
  · refine ⟨rfl, ?_⟩
    split
    · next hbody => rw [hbody] at h; cases h
    · rfl

theorem body_of_bare {r : Response} {body : Payload} (h : r.bare = json body) : r.body = body :=
  congrArg Response.body h

theorem queue_same (h : SameMailboxes kv kv') (id : JString) : queue kv' id = queue kv id := by
  unfold queue
  rw [h id]

theorem queue_get {id : JString} {m : Mailbox} (h : kv.get t (.mailbox id) = some m) :
    queue kv id = m.messages := by
  obtain ⟨slot, hslot, -, rfl⟩ := Store.get_eq_some.1 h
  unfold queue
  rw [hslot]

theorem Wrote.queue_own {id : JString} {m : Mailbox} (h : Wrote env t kv id m kv') :
    queue kv' id = m.messages := by
  obtain ⟨expires, hown⟩ := h.own
  unfold queue
  rw [hown]

theorem Wrote.queue_other {id id' : JString} {m : Mailbox} (h : Wrote env t kv id m kv')
    (hne : id' ≠ id) : queue kv' id' = queue kv id' := by
  unfold queue
  rw [h.other hne]

theorem cleared_sublist (m : Mailbox) (ttl : Number) (t : ℕ) :
    (m.cleared ttl t).messages.Sublist m.messages := by
  unfold Mailbox.cleared
  split
  · exact List.Sublist.refl _
  · split
    · exact List.nil_sublist _
    · exact List.Sublist.refl _

theorem cleared_sub (m : Mailbox) (ttl : Number) (t : ℕ) :
    ∀ e ∈ (m.cleared ttl t).messages, e ∈ m.messages :=
  fun _ he => (cleared_sublist m ttl t).subset he

theorem cleared_hash (m : Mailbox) (ttl : Number) (t : ℕ) :
    (m.cleared ttl t).readSecretHash = m.readSecretHash := by
  unfold Mailbox.cleared
  split
  · rfl
  · split <;> rfl

/-- A write that answers with nothing of the queue. -/
theorem Wrote.queueStep {id : JString} {m : Mailbox} {r : Response} {brought : Entry → Prop}
    (h : Wrote env t kv id m kv') (hr : r.entries = [] ∧ r.consumed = [])
    (hm : ∀ e ∈ m.messages, e ∈ queue kv id ∨ brought e) : QueueStep kv r kv' id brought where
  others id' hne := h.queue_other hne
  own e he := by rw [h.queue_own] at he; exact hm e he
  shown e he := by rw [hr.1] at he; cases he
  burnt hne := absurd hr.2 hne

end

/-- **The queues after a request.** -/
theorem handle_queue (env : Env) (t : ℕ) (kv : Kv) (rq : Request) :
    ∃ id, QueueStep kv (handle env t rq kv).1 (handle env t rq kv).2 id (Brings env t kv rq id) := by
  have hmoves := handle_moves env t kv rq
  generalize handle env t rq kv = p at hmoves ⊢
  obtain ⟨r, kv'⟩ := p
  cases hmoves with
  | idle hbody _ hsame =>
    obtain ⟨hentries, hconsumed⟩ := entries_idle hbody
    refine ⟨[], fun id' _ => queue_same hsame id', fun e he => ?_, fun e he => ?_, fun hne => ?_⟩
    · rw [queue_same hsame] at he; exact Or.inl he
    · rw [hentries] at he; cases he
    · exact absurd hconsumed hne
  | @create _ f _ _ hf hv hw =>
    refine ⟨f.mailboxId.lower, hw.queueStep ⟨rfl, rfl⟩ fun e he => ?_⟩
    unfold CreateFields.record at he
    split at he
    · next hm => rw [queue_get hm]; exact Or.inl he
    · cases he
  | @send rq f m _ _ hf hm _ hbare hw =>
    have hbody := body_of_bare hbare
    refine ⟨f.mailboxId.lower, hw.queueStep ?_ fun e he => ?_⟩
    · unfold Response.entries Response.consumed
      rw [hbody]
      exact ⟨rfl, rfl⟩
    · rcases List.mem_append.1 he with he | he
      · rw [queue_get hm]; exact Or.inl (cleared_sub m _ t e he)
      · rw [List.mem_singleton.1 he]; exact Or.inr (.send hf)
  | @read rq f m _ _ hf hm _ hbare hw =>
    have hbody := body_of_bare hbare
    refine ⟨f.mailboxId.lower, fun id' hne => hw.queue_other hne, fun e he => ?_, fun e he => ?_,
      fun hne => ?_⟩
    · rw [hw.queue_own] at he
      unfold Mailbox.afterRead at he
      split at he
      · rw [queue_get hm]; exact Or.inl (cleared_sub m _ t e he)
      · cases he
    · unfold Response.entries at he
      rw [hbody] at he
      rw [queue_get hm]
      exact cleared_sub m _ t e he
    · rw [hw.queue_own]
      unfold Response.consumed at hne
      rw [hbody] at hne
      unfold Mailbox.afterRead
      cases hp : f.peek with
      | true => rw [hp] at hne; exact absurd rfl hne
      | false => rfl
  | @replicate rq f _ hf hp hq hw =>
    obtain ⟨life, hlife, -⟩ := id hw
    have hqueued : Queued env t kv rq f := ⟨hf, hp, hq, by rw [hlife]; rfl⟩
    refine ⟨f.mailboxId.lower, hw.queueStep ⟨rfl, rfl⟩ fun e he => ?_⟩
    rcases List.mem_append.1 he with he | he
    · unfold ReplicateFields.stored at he
      cases hm : kv.get t (.mailbox f.mailboxId.lower) with
      | none => rw [hm] at he; cases he
      | some m => rw [hm] at he; rw [queue_get hm]; exact Or.inl he
    · rw [List.mem_singleton.1 he]; exact Or.inr (.replicate hqueued)

/-- What becomes of a queue: some of what was there, in its order, and behind it at
    most one entry that the request brings.  A push brings none whose id is still
    there. -/
def Extends (env : Env) (t : ℕ) (kv : Kv) (rq : Request) (id : JString) (after : List Entry) : Prop :=
  ∃ kept, kept.Sublist (queue kv id) ∧ (after = kept ∨ ∃ e, Brings env t kv rq id e ∧
    after = kept ++ [e] ∧ ∀ push, rq = .replicate push → ∀ m ∈ kept, m.id ≠ e.id)

/-- **A queue after a request.** -/
theorem handle_extends (env : Env) (t : ℕ) (kv : Kv) (rq : Request) (id : JString) :
    Extends env t kv rq id (queue (handle env t rq kv).2 id) := by
  have hmoves := handle_moves env t kv rq
  generalize handle env t rq kv = p at hmoves ⊢
  obtain ⟨r, kv'⟩ := p
  have hsame {id' : JString} (hq : queue kv' id' = queue kv id') :
      Extends env t kv rq id' (queue kv' id') := ⟨_, List.Sublist.refl _, Or.inl hq⟩
  have hwrote {m : Mailbox} {id' : JString} (hw : Wrote env t kv id' m kv')
      (hown : Extends env t kv rq id' m.messages) : Extends env t kv rq id (queue kv' id) := by
    by_cases hid : id = id'
    · subst hid
      rw [hw.queue_own]
      exact hown
    · exact hsame (hw.queue_other hid)
  cases hmoves with
  | idle _ _ hidle => exact hsame (queue_same hidle id)
  | @create _ f _ _ _ _ hw =>
    refine hwrote hw ?_
    unfold CreateFields.record
    split
    · next hm => exact ⟨_, List.Sublist.refl _, Or.inl (queue_get hm).symm⟩
    · exact ⟨[], List.nil_sublist _, Or.inl rfl⟩
  | @send rq f m _ _ hf hm _ _ hw =>
    refine hwrote hw ⟨(m.cleared env.cfg.ttlSeconds t).messages, ?_, Or.inr ?_⟩
    · rw [queue_get hm]
      exact cleared_sublist m _ t
    · exact ⟨_, .send hf, rfl, by rintro _ ⟨⟩⟩
  | @read rq f m _ _ _ hm _ _ hw =>
    refine hwrote hw ⟨(m.afterRead env.cfg.ttlSeconds t f.peek).messages, ?_, Or.inl rfl⟩
    rw [queue_get hm]
    unfold Mailbox.afterRead
    split
    · exact cleared_sublist m _ t
    · exact List.nil_sublist _
  | @replicate rq f _ hf hp hq hw =>
    obtain ⟨life, hlife, -⟩ := hw.slot
    refine hwrote hw ⟨(f.stored (kv.get t (.mailbox f.mailboxId.lower)) t).messages, ?_, Or.inr ?_⟩
    · unfold ReplicateFields.stored
      cases hm : kv.get t (.mailbox f.mailboxId.lower) with
      | none => exact List.nil_sublist _
      | some m => rw [queue_get hm]; exact List.Sublist.refl _
    · refine ⟨f.entry, .replicate ⟨hf, hp, hq, by rw [hlife]; rfl⟩, rfl, fun _ _ x hx heq => ?_⟩
      have hqueues : (f.stored (kv.get t (.mailbox f.mailboxId.lower)) t).queues f.entry.id = true :=
        List.any_eq_true.2 ⟨x, hx, beq_iff_eq.2 heq⟩
      exact absurd (hq.symm.trans hqueues) (by simp)

theorem replicateInto_post (env : Env) (f : ReplicateFields) (m : Mailbox) :
    (replicateInto env f m).Post fun r => r.body = .replicated true → m.queues f.entry.id = true := by
  unfold replicateInto
  split
  · next hq => exact fun _ => hq
  · refine (Prog.post_true _).bind fun m' _ => (Prog.post_true _).bind fun _ _ => ?_
    rintro ⟨⟩

/-- A push is answered as a repetition only if an entry with its id is queued. -/
theorem replicate_deduped {env : Env} {t : ℕ} {kv : Kv} {rq : ReplicateRequest}
    (h : (handle env t (.replicate rq) kv).1.body = .replicated true) :
    ∃ f m, replicateFields rq.body = .ok f ∧ kv.get t (.mailbox f.mailboxId.lower) = some m ∧
      m.queues f.entry.id = true := by
  obtain ⟨o, s', hrun, hcases⟩ := guarded_cases (replicateMailbox env)
    (replicateFields_answers refusal_bad rq.body) (replicateGate_writes env) (replicateGate_post env) env t kv
  have hhandle : handle env t (.replicate rq) kv = (o.getD crashed, s'.1) := by
    simp only [handle, runAt, fetch, handleReplicate, hrun]
  rw [hhandle] at h
  cases o with
  | none => cases h
  | some r =>
    rcases hcases with ⟨-, hrefusal⟩ | ⟨f, s₁, hf, -, hsame, hact⟩
    · obtain ⟨-, message, hbody⟩ := hrefusal r rfl
      cases hbody.symm.trans h
    · obtain ⟨kv₁, log₁⟩ := s₁
      rw [replicateMailbox_run, Store.get_congr (hsame _) t] at hact
      have hqueues := (replicateInto_post env f _).run (congrArg Prod.fst hact) h
      cases hm : kv.get t (.mailbox f.mailboxId.lower) with
      | none => rw [hm] at hqueues; cases hqueues
      | some m => rw [hm] at hqueues; exact ⟨f, m, hf, hm, hqueues⟩

end Shard
