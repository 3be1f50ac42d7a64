/-
  What the mailbox part of a handler does when it runs at one instant.

  * `Mailbox.cleared` and `Mailbox.pushed` are the effects of clearing a stale
    backlog and of queueing an entry;
  * the `…_run` lemmas give the answer of each mailbox part and what it leaves
    under the keys of the mailboxes; signing a response touches no mailbox.
-/
import NexTalkRelay.Shard.Frame

open Effect Js

namespace Shard

/-- The record without a backlog that has outlived `ttlSeconds`. -/
def Mailbox.cleared (m : Mailbox) (ttlSeconds : Number) (t : ℕ) : Mailbox :=
  match m.messagesEnqueuedAt with
  | none => m
  | some u =>
    if ttlSeconds.le (.ofInt (((t : ℤ) - u) / 1000)) then
      { m with messages := [], messagesEnqueuedAt := none }
    else m

/-- The record with one more entry. -/
def Mailbox.pushed (m : Mailbox) (e : Entry) (t : ℕ) : Mailbox :=
  { m with
    messages := m.messages ++ [e]
    messagesEnqueuedAt := some (m.messagesEnqueuedAt.getD t) }

/-- The record without its backlog. -/
def Mailbox.drained (m : Mailbox) : Mailbox := { m with messages := [], messagesEnqueuedAt := none }

/-- The response without its signed envelope. -/
def Response.bare (r : Response) : Response := { r with envelope := none }

/-- An error with a status of its own. -/
def Response.Refusal (r : Response) : Prop := r.status ≠ 200 ∧ ∃ message, r.body = .error message

theorem refusal_err (message : JString) {status : ℕ} (h : status ≠ 200) (retryAfter : Option JString) :
    (err message status retryAfter).Refusal := ⟨h, message, rfl⟩

theorem refusal_bad (message : JString) : (err message).Refusal := refusal_err message (by decide) none

/-- The two stores agree on the mailboxes. -/
def SameMailboxes (kv kv' : Kv) : Prop := ∀ id, kv' (.mailbox id) = kv (.mailbox id)

/-- A gate leaves the mailboxes alone. -/
theorem gate_same {α : Type} {gate : M α} (hg : gate.Only (KvOp.Writes Gate)) (c : Crypto) (t : ℕ)
    (s : Kv × List Service) : SameMailboxes s.1 (gate.run (KvOp.exec t (services c)) s).2.1 := by
  intro id
  refine KvOp.run_spares (Prog.Only.mono (fun o ho => KvOp.Writes.mono ?_ ho) hg) t _ s
  rintro k hk rfl
  exact hk

section
variable {env : Env} {t : ℕ} (kv : Kv) (log : List Service)

theorem clearStale_run (m : Mailbox) :
    (clearStale env m).run (KvOp.exec t (services env.crypto)) (kv, log) =
      (some (m.cleared env.cfg.ttlSeconds t), (kv, log)) := by
  unfold clearStale isBacklogStale Mailbox.cleared
  cases m.messagesEnqueuedAt with
  | none => rfl
  | some u =>
    simp only [dateNow, Prog.bind_eq, Prog.perform_bind, Prog.op_bind, KvOp.run_now,
      Prog.pure_eq, Prog.ret_bind]
    split <;> rfl

theorem pushEntry_run (m : Mailbox) (e : Entry) :
    (pushEntry m e).run (KvOp.exec t (services env.crypto)) (kv, log) =
      (some (m.pushed e t), (kv, log)) := by
  unfold pushEntry Mailbox.pushed
  cases m.messagesEnqueuedAt with
  | none => rfl
  | some u => rfl

theorem putMailbox_run {life : ℤ} (hlife : env.cfg.mailboxTtlSeconds.toInt? = some life)
    (id : JString) (m : Mailbox) :
    (putMailbox env id m).run (KvOp.exec t (services env.crypto)) (kv, log) =
      (some (), (kv.put t (.mailbox id) m (some life), log)) := by
  unfold putMailbox kvPut
  rw [hlife]
  rfl

theorem fanOut_run (env : Env) (t : ℕ) (id : JString) (e : Entry) (urls : Json) :
    ∃ log', (fanOut id e urls).run (KvOp.exec t (services env.crypto)) (kv, log) =
      (some (), (kv, log')) := by
  unfold fanOut
  split
  · split
    · exact ⟨_, rfl⟩
    · exact ⟨_, rfl⟩
  · exact ⟨_, rfl⟩

/-- A success is answered with the given body, signed or not. -/
theorem respond_run (env : Env) (t : ℕ) (fresh : Identity) (requestId : Option JString) (body : Payload) :
    ∃ r s', (respond env fresh requestId body).run (KvOp.exec t (services env.crypto)) (kv, log) =
      (some r, s') ∧ r.bare = json body ∧ SameMailboxes kv s'.1 := by
  unfold respond
  cases requestId with
  | none => exact ⟨_, _, rfl, rfl, fun _ => rfl⟩
  | some requestId =>
    have hid : ∃ i s', (ensureShardIdentity fresh).run (KvOp.exec t (services env.crypto)) (kv, log)
        = (some i, s') ∧ SameMailboxes kv s'.1 := by
      simp only [ensureShardIdentity, kvGet, Prog.bind_eq, Prog.perform_bind, KvOp.run_get]
      cases kv.get t .shardIdentity with
      | some i => exact ⟨i, _, rfl, fun _ => rfl⟩
      | none =>
        exact ⟨fresh, _, rfl, fun id =>
          Store.put_other kv t (by simp : Key.mailbox id ≠ .shardIdentity) fresh none⟩
    obtain ⟨i, ⟨kv', log'⟩, hrun, hsame⟩ := hid
    simp only [buildShardSignedResponse, Prog.bind_eq]
    rw [Prog.run_bind_some hrun]
    exact ⟨_, _, rfl, rfl, hsame⟩

/-! ## The mailbox parts -/

theorem createMailbox_run {life : ℤ} (hlife : env.cfg.mailboxTtlSeconds.toInt? = some life)
    (f : CreateFields) :
    (createMailbox env f).run (KvOp.exec t (services env.crypto)) (kv, log) =
      match kv.get t (.mailbox f.mailboxId.lower) with
      | some m =>
        (some (json (.created f.mailboxId.lower env.cfg.mailboxTtlSeconds false)),
          (kv.put t (.mailbox f.mailboxId.lower) (f.refresh m) (some life), log))
      | none =>
        (some (json (.created f.mailboxId.lower env.cfg.mailboxTtlSeconds true)),
          (kv.put t (.mailbox f.mailboxId.lower) (f.fresh t) (some life), log)) := by
  simp only [createMailbox, kvGet, dateNow, Prog.bind_eq, Prog.perform_bind, KvOp.run_get]
  cases kv.get t (.mailbox f.mailboxId.lower) with
  | some m =>
    dsimp only
    rw [Prog.run_bind_some (putMailbox_run kv log hlife _ _)]
    rfl
  | none =>
    simp only [KvOp.run_now]
    rw [Prog.run_bind_some (putMailbox_run kv log hlife _ _)]
    rfl

theorem existsMailbox_run (env : Env) (t : ℕ) (id : HexStr 16 128) :
    (existsMailbox id).run (KvOp.exec t (services env.crypto)) (kv, log) =
      (some (match kv.get t (.mailbox id.lower) with
        | some _ => json .exists_
        | none => err (js "not found") 404), (kv, log)) := by
  simp only [existsMailbox, kvGet, Prog.bind_eq, Prog.perform_bind, KvOp.run_get]
  cases kv.get t (.mailbox id.lower) <;> rfl

/-- The answer of `/send` for a full mailbox. -/
def mailboxFull (env : Env) : Response :=
  err (js "Mailbox is full (limit: " ++ env.cfg.maxMessages.text ++ js " messages)") 429
    (some (js "3600"))

/-- How `/send` leaves a mailbox that it finds. -/
theorem sendMailbox_run {life : ℤ} (hlife : env.cfg.mailboxTtlSeconds.toInt? = some life)
    (rq : SendRequest) (f : SendFields) {m : Mailbox}
    (hm : kv.get t (.mailbox f.mailboxId.lower) = some m)
    (hroom : env.cfg.maxMessages.le (.ofInt (m.cleared env.cfg.ttlSeconds t).messages.length) = false) :
    ∃ r s', (sendMailbox env rq f).run (KvOp.exec t (services env.crypto)) (kv, log) = (some r, s') ∧
      r.bare = json (.sent ((m.cleared env.cfg.ttlSeconds t).messages.length + 1)) ∧
      SameMailboxes (kv.put t (.mailbox f.mailboxId.lower)
        ((m.cleared env.cfg.ttlSeconds t).pushed (newEntry f rq.entryId t) t) (some life)) s'.1 := by
  simp only [sendMailbox, kvGet, dateNow, Prog.bind_eq, Prog.perform_bind, KvOp.run_get, hm]
  rw [Prog.run_bind_some (clearStale_run kv log m), if_neg (by simp [hroom]), KvOp.run_now,
    Prog.run_bind_some (pushEntry_run kv log _ _),
    Prog.run_bind_some (putMailbox_run kv log hlife _ _)]
  obtain ⟨log', hfan⟩ := fanOut_run
    (kv.put t (.mailbox f.mailboxId.lower)
      ((m.cleared env.cfg.ttlSeconds t).pushed (newEntry f rq.entryId t) t) (some life)) log env t
    f.mailboxId.lower (newEntry f rq.entryId t)
    ((m.cleared env.cfg.ttlSeconds t).pushed (newEntry f rq.entryId t) t).replicaShardUrls
  rw [Prog.run_bind_some hfan]
  obtain ⟨r, s', hrun, hbare, hsame⟩ := respond_run
    (kv.put t (.mailbox f.mailboxId.lower)
      ((m.cleared env.cfg.ttlSeconds t).pushed (newEntry f rq.entryId t) t) (some life)) log' env t
    rq.freshIdentity f.requestId
    (.sent ((m.cleared env.cfg.ttlSeconds t).pushed (newEntry f rq.entryId t) t).messages.length)
  exact ⟨r, s', hrun, by rw [hbare]; simp [Mailbox.pushed], hsame⟩

theorem sendMailbox_run_full (rq : SendRequest) (f : SendFields) {m : Mailbox}
    (hm : kv.get t (.mailbox f.mailboxId.lower) = some m)
    (hroom : env.cfg.maxMessages.le (.ofInt (m.cleared env.cfg.ttlSeconds t).messages.length) = true) :
    (sendMailbox env rq f).run (KvOp.exec t (services env.crypto)) (kv, log) =
      (some (mailboxFull env), (kv, log)) := by
  simp only [sendMailbox, kvGet, Prog.bind_eq, Prog.perform_bind, KvOp.run_get, hm]
  rw [Prog.run_bind_some (clearStale_run kv log m), if_pos hroom]
  rfl

theorem sendMailbox_run_none (rq : SendRequest) (f : SendFields)
    (hm : kv.get t (.mailbox f.mailboxId.lower) = none) :
    (sendMailbox env rq f).run (KvOp.exec t (services env.crypto)) (kv, log) =
      (some (err (js "Mailbox not found or expired") 404), (kv, log)) := by
  simp only [sendMailbox, kvGet, Prog.bind_eq, Prog.perform_bind, KvOp.run_get, hm]
  rfl

/-- The record that `/read` writes back. -/
def Mailbox.afterRead (m : Mailbox) (ttlSeconds : Number) (t : ℕ) (peek : Bool) : Mailbox :=
  if peek then m.cleared ttlSeconds t else (m.cleared ttlSeconds t).drained

/-- How `/read` leaves a mailbox whose secret it was given. -/
theorem readMailbox_run {life : ℤ} (hlife : env.cfg.mailboxTtlSeconds.toInt? = some life)
    (rq : ReadRequest) (f : ReadFields) {m : Mailbox}
    (hm : kv.get t (.mailbox f.mailboxId.lower) = some m)
    (hsecret : constantTimeEqual (env.crypto.sha256Hex f.readSecret) m.readSecretHash = true) :
    ∃ r s', (readMailbox env rq f).run (KvOp.exec t (services env.crypto)) (kv, log) = (some r, s') ∧
      r.bare = json (.read (m.cleared env.cfg.ttlSeconds t).messages m.createdAt !f.peek) ∧
      SameMailboxes (kv.put t (.mailbox f.mailboxId.lower)
        (m.afterRead env.cfg.ttlSeconds t f.peek) (some life)) s'.1 := by
  simp only [readMailbox, kvGet, Prog.bind_eq, Prog.perform_bind, KvOp.run_get, hm]
  rw [if_neg (by simp [hsecret]), Prog.run_bind_some (clearStale_run kv log m),
    Prog.run_bind_some (putMailbox_run kv log hlife _ _)]
  obtain ⟨r, s', hrun, hbare, hsame⟩ := respond_run
    (kv.put t (.mailbox f.mailboxId.lower) (m.afterRead env.cfg.ttlSeconds t f.peek) (some life))
    log env t rq.freshIdentity f.requestId
    (.read (m.cleared env.cfg.ttlSeconds t).messages
      (m.afterRead env.cfg.ttlSeconds t f.peek).createdAt !f.peek)
  refine ⟨r, s', hrun, ?_, hsame⟩
  have hc : (m.cleared env.cfg.ttlSeconds t).createdAt = m.createdAt := by
    unfold Mailbox.cleared; split <;> [rfl; (split <;> rfl)]
  have hc' : (m.afterRead env.cfg.ttlSeconds t f.peek).createdAt = m.createdAt := by
    unfold Mailbox.afterRead; split <;> exact hc
  rw [hbare, hc']

theorem readMailbox_run_none (rq : ReadRequest) (f : ReadFields)
    (hm : kv.get t (.mailbox f.mailboxId.lower) = none) :
    (readMailbox env rq f).run (KvOp.exec t (services env.crypto)) (kv, log) =
      (some (err (js "Mailbox not found or expired") 404), (kv, log)) := by
  simp only [readMailbox, kvGet, Prog.bind_eq, Prog.perform_bind, KvOp.run_get, hm]
  rfl

theorem readMailbox_run_wrong (rq : ReadRequest) (f : ReadFields) {m : Mailbox}
    (hm : kv.get t (.mailbox f.mailboxId.lower) = some m)
    (hsecret : constantTimeEqual (env.crypto.sha256Hex f.readSecret) m.readSecretHash = false) :
    (readMailbox env rq f).run (KvOp.exec t (services env.crypto)) (kv, log) =
      (some (err (js "invalid read_secret") 401), (kv, log)) := by
  simp only [readMailbox, kvGet, Prog.bind_eq, Prog.perform_bind, KvOp.run_get, hm]
  rw [if_pos (by simp [hsecret])]
  rfl

end

end Shard
