/-
  Requests that meet a failing operation.

  Any call of the store and any signature may throw; the handler is then cut
  short and the request is answered by a `500`.  A verification that throws
  counts as failed, which is an answer of `Crypto.verify`.

  * `handleFailing` answers a request whose `n`-th operation throws if `fails n`;
  * `error_keeps_records_iff`: an error leaves the records as they were, unless
    the request asks for a signed response and a call throws after its record,
    changed, has been written.
-/
import NexTalkRelay.Lib.Faults
import NexTalkRelay.Shard.Moves

open Effect Js

namespace Shard

/-- The operations that may throw: neither reading the clock nor leaving a job
    does. -/
def failable : KvOp Key Val Service → Bool
  | .get _ | .put .. | .delete _ | .call (.sign ..) => true
  | .now | .call (.waitUntil _) | .call (.post ..) => false

/-- The answers to the operations at the instant `t`, some of which fail. -/
abbrev failing (env : Env) (t : ℕ) (fails : ℕ → Bool) :
    Prog.Handler (KvOp Key Val Service) (KvOp.Res Service.Res) ((Kv × List Service) × ℕ) :=
  Prog.faulty failable fails (KvOp.exec t (services env.crypto))

/-- Answer a request whose `n`-th operation throws if `fails n`. -/
def handleFailing (env : Env) (t : ℕ) (fails : ℕ → Bool) (rq : Request) (kv : Kv) : Response × Kv :=
  let r := (fetch env rq).run (failing env t fails) ((kv, []), 0)
  (r.1.getD crashed, r.2.1.1)

/-- The operation writes the record of a mailbox. -/
def WritesRecord : KvOp Key Val Service → Prop
  | .put (.mailbox _) _ _ | .delete (.mailbox _) => True
  | _ => False

/-- The record of a mailbox. -/
def recordOf (kv : Kv) (id : JString) : Option Mailbox := (kv (.mailbox id)).map Slot.val

/-- The request asks for a signed response. -/
def Request.asksSignature (env : Env) : Request → Bool
  | .send rq =>
    match sendFields env rq.body with
    | .ok f => f.requestId.isSome
    | .error _ => false
  | .read rq =>
    match readFields rq with
    | .ok f => f.requestId.isSome
    | .error _ => false
  | _ => false

/-- The record that the request writes is not the one that it finds. -/
def Changes (env : Env) (t : ℕ) (kv : Kv) : Request → Prop
  | .send rq => ∃ f m, sendFields env rq.body = .ok f ∧
      kv.get t (.mailbox f.mailboxId.lower) = some m ∧
      (m.cleared env.cfg.ttlSeconds t).pushed (newEntry f rq.entryId t) t ≠ m
  | .read rq => ∃ f m, readFields rq = .ok f ∧ kv.get t (.mailbox f.mailboxId.lower) = some m ∧
      m.afterRead env.cfg.ttlSeconds t f.peek ≠ m
  | _ => False

/-- A call throws after the record has been written. -/
def FailsWritten (env : Env) (t : ℕ) (fails : ℕ → Bool) (rq : Request) (kv : Kv) : Prop :=
  (fetch env rq).FailsAfter WritesRecord (failing env t fails) ((kv, []), 0)

/-! ## Without faults -/

/-! ## Operations that write no record -/

section
variable {S : Key → Prop}

theorem not_writesRecord (hS : ∀ id, ¬ S (.mailbox id)) {o : KvOp Key Val Service}
    (ho : o.Writes S) : ¬ WritesRecord o := by
  cases o with
  | get k | now | call e => exact id
  | put k v ttl => cases k <;> first | exact fun _ => hS _ ho | exact id
  | delete k => cases k <;> first | exact fun _ => hS _ ho | exact id

theorem only_not_writesRecord (hS : ∀ id, ¬ S (.mailbox id)) {α : Type} {p : M α}
    (hp : p.Only (KvOp.Writes S)) : p.Only fun o => ¬ WritesRecord o :=
  hp.mono fun _ => not_writesRecord hS

end

/-- The states with the same mailboxes as `kv`. -/
def Keeps (kv : Kv) (x : (Kv × List Service) × ℕ) : Prop := SameMailboxes kv x.1.1

section
variable {env : Env} {t : ℕ} {fails : ℕ → Bool} {kv : Kv}

theorem exec_keeps (o : KvOp Key Val Service) (s : Kv × List Service) (ho : ¬ WritesRecord o)
    (hs : SameMailboxes kv s.1) :
    SameMailboxes kv (KvOp.exec t (services env.crypto) o s).2.1 := by
  intro id
  refine (KvOp.exec_spares (k := .mailbox id) ?_ t _ s).trans (hs id)
  cases o with
  | get k | now | call e => trivial
  | put k v ttl =>
    rintro rfl
    exact ho trivial
  | delete k =>
    rintro rfl
    exact ho trivial

theorem failing_keeps (o : KvOp Key Val Service) (x : (Kv × List Service) × ℕ)
    (ho : ¬ WritesRecord o) (hx : Keeps kv x) : Keeps kv (failing env t fails o x).2 :=
  Prog.faulty_keeps (P := fun o => ¬ WritesRecord o)
    (I := fun s : Kv × List Service => SameMailboxes kv s.1) exec_keeps o x ho hx

theorem services_answer (e : Service) (log : List Service) :
    ((services env.crypto) e log).1 ≠ none := by
  cases e <;> exact Option.some_ne_none _

theorem exec_answers : Prog.Answering (KvOp.exec (K := Key) (V := Val) t (services env.crypto)) := by
  intro o s
  cases o with
  | get k | put k v ttl | delete k | now => exact Option.some_ne_none _
  | call e => exact services_answer e s.2

theorem failing_throws (o : KvOp Key Val Service) (x : (Kv × List Service) × ℕ)
    (hnone : (failing env t fails o x).1 = none) (hx : Keeps kv x) :
    Keeps kv (failing env t fails o x).2 := by
  have hinert : Prog.Inert (KvOp.exec (K := Key) (V := Val) t (services env.crypto)) :=
    fun o s h => absurd h (exec_answers o s)
  unfold Keeps
  rw [hinert.faulty hnone]
  exact hx

end

/-! ## After the record -/

theorem gate_quiet {α : Type} {p : M α} (hp : p.Only (KvOp.Writes Gate)) :
    p.Only fun o => ¬ WritesRecord o := only_not_writesRecord (fun _ => id) hp

section
variable {env : Env} {N : M Response → Prop}

theorem guarded_then {α : Type} {c : Check Response α} {gate : α → M Verdict}
    {act : α → M Response} (hg : ∀ a, (gate a).Only (KvOp.Writes Gate))
    (hact : ∀ a, c = .ok a → (act a).Then WritesRecord N) :
    (guarded c fun a => gated (gate a) (act a)).Then WritesRecord N := by
  cases c with
  | error e => cases e <;> trivial
  | ok a =>
    refine Prog.Then.bind (gate_quiet (hg a)) fun v => ?_
    cases v with
    | some r => trivial
    | none => exact hact a rfl

/-- The record is written, and the program goes on. -/
theorem putMailbox_then {id : JString} {m : Mailbox} {next : M Response} (hnext : N next) :
    ((putMailbox env id m).bind fun _ => next).Then WritesRecord N := by
  unfold putMailbox kvPut
  split
  · exact fun _ => ⟨fun _ => hnext, fun hw => absurd trivial hw⟩
  · trivial

theorem sendMailbox_then {rq : SendRequest} {f : SendFields}
    (hN : ∀ id entry urls body,
      N ((fanOut id entry urls).bind fun _ => respond env rq.freshIdentity f.requestId body)) :
    (sendMailbox env rq f).Then WritesRecord N := by
  refine fun found => ⟨fun hw => hw.elim, fun _ => ?_⟩
  cases found with
  | none => trivial
  | some stored =>
    dsimp only [Prog.ret_bind]
    refine Prog.Then.bind (gate_quiet (clearStale_writes env stored)) fun m => ?_
    split
    · trivial
    · refine fun time => ⟨fun hw => hw.elim, fun _ => ?_⟩
      dsimp only [Prog.ret_bind]
      exact Prog.Then.bind (gate_quiet (pushEntry_writes m _)) fun m => putMailbox_then (hN ..)

theorem readMailbox_then {rq : ReadRequest} {f : ReadFields}
    (hN : ∀ body, N (respond env rq.freshIdentity f.requestId body)) :
    (readMailbox env rq f).Then WritesRecord N := by
  refine fun found => ⟨fun hw => hw.elim, fun _ => ?_⟩
  cases found with
  | none => trivial
  | some stored =>
    dsimp only [Prog.ret_bind]
    split
    · trivial
    · exact Prog.Then.bind (gate_quiet (clearStale_writes env stored)) fun m =>
        putMailbox_then (hN _)

theorem replicateInto_then (f : ReplicateFields) (m : Mailbox)
    (hret : ∀ r : Response, r.status = 200 → N (.ret r)) :
    (replicateInto env f m).Then WritesRecord N := by
  unfold replicateInto
  split
  · trivial
  · exact Prog.Then.bind (gate_quiet (pushEntry_writes _ _)) fun m => putMailbox_then (hret _ rfl)

theorem cacheTable_writes (p : Json × HexStr 128 128 × Number) :
    (cacheTable env p).Only (KvOp.Writes (· = .routingTable)) := by
  unfold cacheTable
  split
  · trivial
  · refine ⟨trivial, fun now => ?_⟩
    dsimp only [Prog.ret_bind]
    split
    · trivial
    · exact ⟨rfl, fun _ => trivial⟩

/-- **How a request goes on after its record.** -/
theorem fetch_then (rq : Request) (hret : ∀ r : Response, r.status = 200 → N (.ret r))
    (hsend : ∀ srq f, rq = .send srq → sendFields env srq.body = .ok f → ∀ id entry urls body,
      N ((fanOut id entry urls).bind fun _ => respond env srq.freshIdentity f.requestId body))
    (hread : ∀ rrq f, rq = .read rrq → readFields rrq = .ok f → ∀ body,
      N (respond env rrq.freshIdentity f.requestId body)) :
    (fetch env rq).Then WritesRecord N := by
  cases rq with
  | create rq =>
    refine guarded_then (createGate_writes env rq.ip) fun f _ found => ⟨fun hw => hw.elim, fun _ => ?_⟩
    cases found with
    | none => exact fun now => ⟨fun hw => hw.elim, fun _ => putMailbox_then (hret _ rfl)⟩
    | some stored => exact putMailbox_then (hret _ rfl)
  | exists_ rq =>
    exact guarded_then (fun _ => existsGate_writes rq.ip) fun id _ =>
      Prog.then_of_only (gate_quiet (existsMailbox_writes id))
  | send rq =>
    exact guarded_then (sendGate_writes env rq.ip) fun f hf => sendMailbox_then (hsend rq f rfl hf)
  | read rq =>
    exact guarded_then (fun _ => readGate_writes rq.ip) fun f hf => readMailbox_then (hread rq f rfl hf)
  | replicate rq =>
    refine guarded_then (replicateGate_writes env) fun f _ found => ⟨fun hw => hw.elim, fun _ => ?_⟩
    cases found with
    | none => exact fun now => ⟨fun hw => hw.elim, fun _ => replicateInto_then f _ hret⟩
    | some stored => exact replicateInto_then f stored hret
  | routingTablePush body =>
    unfold fetch
    dsimp only
    rw [handleRoutingTablePush_eq]
    refine Prog.then_of_only (only_not_writesRecord (S := (· = .routingTable)) (by simp) ?_)
    exact guarded_only fun p _ => cacheTable_writes p
  | routingTableServe =>
    refine fun table => ⟨fun hw => hw.elim, fun _ => ?_⟩
    cases table <;> trivial

end

theorem fanOut_returns (fails : KvOp Key Val Service → Bool)
    (hwait : ∀ job, fails (.call (.waitUntil job)) = false) (id : JString) (e : Entry) (urls : Json) :
    (fanOut id e urls).Returns fails := by
  unfold fanOut
  split
  · split
    · exact ⟨hwait _, fun _ => trivial⟩
    · trivial
  · trivial

theorem respond_post (env : Env) (fresh : Identity) (requestId : Option JString) (body : Payload) :
    (respond env fresh requestId body).Post fun r => r.status = 200 := by
  unfold respond
  split
  · exact (Prog.post_true _).bind fun identity _ => fun now => fun signature => rfl
  · exact rfl

theorem respond_returns (env : Env) (fresh : Identity) (requestId : Option JString) (body : Payload) :
    (respond env fresh requestId body).Returns fun _ => false := by
  unfold respond
  split
  · have hidentity : (ensureShardIdentity fresh).Returns fun _ => false := by
      refine ⟨rfl, fun found => ?_⟩
      cases found with
      | some identity => trivial
      | none => exact ⟨rfl, fun _ => trivial⟩
    exact hidentity.bind fun identity => ⟨rfl, fun now => ⟨rfl, fun signature => trivial⟩⟩
  · trivial

/-- Only a success is answered after the record is written. -/
theorem fetch_post (env : Env) (rq : Request) :
    (fetch env rq).Then WritesRecord (Prog.Post fun r => r.status = 200) :=
  fetch_then rq (fun _ => id)
    (fun _ _ _ _ _ _ _ _ => (Prog.post_true _).bind fun _ _ => respond_post env _ _ _)
    fun _ _ _ _ _ => respond_post env _ _ _

/-- The record is the last one written, and without faults a success follows. -/
theorem fetch_ends (env : Env) (rq : Request) :
    (fetch env rq).Then WritesRecord fun q => q.Only (fun o => ¬ WritesRecord o) ∧
      q.Returns (fun _ => false) ∧ q.Post fun r => r.status = 200 := by
  have hquiet (fresh : Identity) (requestId : Option JString) (body : Payload) :
      (respond env fresh requestId body).Only fun o => ¬ WritesRecord o :=
    only_not_writesRecord (S := (· = .shardIdentity)) (by simp)
      (respond_writes env (S := (· = .shardIdentity)) rfl _ _ _)
  refine fetch_then rq (fun r hr => ⟨trivial, trivial, hr⟩) ?_ ?_
  · rintro srq f - - id entry urls body
    exact ⟨(gate_quiet (fanOut_writes _ _ _)).bind fun _ => hquiet _ _ _,
      (fanOut_returns _ (fun _ => rfl) _ _ _).bind fun _ => respond_returns env _ _ _,
      (Prog.post_true _).bind fun _ _ => respond_post env _ _ _⟩
  · rintro rrq f - - body
    exact ⟨hquiet _ _ _, respond_returns env _ _ _, respond_post env _ _ _⟩

/-- **A request without a signed response does all or nothing.** -/
theorem fetch_returns {env : Env} {rq : Request} (hplain : rq.asksSignature env = false) :
    (fetch env rq).Then WritesRecord (Prog.Returns failable) := by
  refine fetch_then rq (fun _ _ => trivial) ?_ ?_
  · rintro srq f rfl hf id entry urls body
    refine (fanOut_returns failable (fun _ => rfl) id entry urls).bind fun _ => ?_
    have hnone : f.requestId = none := by simpa [Request.asksSignature, hf] using hplain
    rw [hnone]
    trivial
  · rintro rrq f rfl hf body
    have hnone : f.requestId = none := by simpa [Request.asksSignature, hf] using hplain
    rw [hnone]
    trivial

/-! ## The record of a request that is cut short -/

section
variable {env : Env} {t : ℕ} {fails : ℕ → Bool} {kv : Kv}

/-- **A request that is cut short after its record** would have been a success,
    and leaves the mailboxes as that success does. -/
theorem failsWritten_clean {rq : Request} (h : FailsWritten env t fails rq kv) :
    (handle env t rq kv).1.status = 200 ∧
      SameMailboxes (handle env t rq kv).2 (handleFailing env t fails rq kv).2 := by
  let view (s : Kv × List Service) (id : JString) : Option (Slot Mailbox) := s.1 (.mailbox id)
  have hview (o : KvOp Key Val Service) (s : Kv × List Service) (ho : ¬ WritesRecord o) :
      view (KvOp.exec t (services env.crypto) o s).2 = view s :=
    funext fun id => exec_keeps o s ho (fun _ => rfl) id
  obtain ⟨⟨r, hr, hstatus⟩, hview⟩ :=
    Prog.FailsAfter.clean hview exec_answers (fetch_ends env rq) h
  refine ⟨?_, fun id => congrFun hview id⟩
  unfold handle runAt
  rw [hr]
  exact hstatus

/-- What is written is the record of an accepted `/send` or `/read`. -/
theorem Changes.wrote {rq : Request} (h : FailsWritten env t fails rq kv)
    (hasks : rq.asksSignature env = true) :
    Changes env t kv rq ↔
      ¬ ∀ id, recordOf (handleFailing env t fails rq kv).2 id = recordOf kv id := by
  obtain ⟨hstatus, hsame⟩ := failsWritten_clean h
  have hrecord (id : JString) : recordOf (handleFailing env t fails rq kv).2 id =
      recordOf (handle env t rq kv).2 id := congrArg (Option.map Slot.val) (hsame id)
  simp only [hrecord]
  have hmoves := handle_moves env t kv rq
  generalize handle env t rq kv = p at hmoves hstatus
  obtain ⟨r, kv'⟩ := p
  have hwrote {id : JString} {m m' : Mailbox} (hm : kv.get t (.mailbox id) = some m)
      (hw : Wrote env t kv id m' kv') :
      (∀ id', recordOf kv' id' = recordOf kv id') ↔ m' = m := by
    obtain ⟨x, hx⟩ := hw.own
    obtain ⟨e, he, -, rfl⟩ := Store.get_eq_some.1 hm
    have hafter : recordOf kv' id = some m' := by
      unfold recordOf
      rw [hx]
      rfl
    have hbefore : recordOf kv id = some e.val := by
      unfold recordOf
      rw [he]
      rfl
    constructor
    · intro hall
      exact Option.some.inj (hafter.symm.trans ((hall id).trans hbefore))
    · intro heq id'
      by_cases hid : id' = id
      · subst hid
        rw [hafter, hbefore, heq]
      · exact congrArg (Option.map Slot.val) (hw.other hid)
  cases hmoves with
  | idle hbody hidle hsame =>
    cases rq with
    | send _ | read _ => cases hidle hstatus
    | _ => cases hasks
  | create _ _ _ => cases hasks
  | replicate _ _ _ _ => cases hasks
  | @send srq f m r kv' hf hm hroom hbare hw =>
    rw [hwrote hm hw]
    constructor
    · rintro ⟨f', m', hf', hm', hne⟩
      obtain rfl : f = f' := Except.ok.inj (hf.symm.trans hf')
      obtain rfl : m = m' := Option.some.inj (hm.symm.trans hm')
      exact hne
    · exact fun hne => ⟨f, m, hf, hm, hne⟩
  | @read rrq f m r kv' hf hm hsecret hbare hw =>
    rw [hwrote hm hw]
    constructor
    · rintro ⟨f', m', hf', hm', hne⟩
      obtain rfl : f = f' := Except.ok.inj (hf.symm.trans hf')
      obtain rfl : m = m' := Option.some.inj (hm.symm.trans hm')
      exact hne
    · exact fun hne => ⟨f, m, hf, hm, hne⟩

/-! ## Errors -/

/-- **Errors do not half-apply**, exactly if it is not so that the request asks
    for a signed response and a call throws after its changed record is written. -/
theorem error_keeps_records_iff (env : Env) (t : ℕ) (fails : ℕ → Bool) (rq : Request) (kv : Kv) :
    ((handleFailing env t fails rq kv).1.status ≠ 200 →
        ∀ id, recordOf (handleFailing env t fails rq kv).2 id = recordOf kv id) ↔
      ¬ (rq.asksSignature env = true ∧ Changes env t kv rq ∧ FailsWritten env t fails rq kv) := by
  constructor
  · rintro hkeeps ⟨hasks, hchanges, hfails⟩
    refine (Changes.wrote hfails hasks).1 hchanges (hkeeps ?_)
    unfold handleFailing
    dsimp only
    rw [Prog.failsAfter_throws hfails]
    decide
  · intro hno hstatus
    have hsame (h : Keeps kv ((fetch env rq).run (failing env t fails) ((kv, []), 0)).2) (id : JString) :
        recordOf (handleFailing env t fails rq kv).2 id = recordOf kv id :=
      congrArg (Option.map Slot.val) (h id)
    have hstart : Keeps kv (((kv, []), 0) : (Kv × List Service) × ℕ) := fun _ => rfl
    cases hrun : ((fetch env rq).run (failing env t fails) ((kv, []), 0)).1 with
    | some r =>
      -- an error that the handler returns comes before its record
      refine hsame (Prog.Then.run failing_keeps (fetch_post env rq) hstart hrun fun hr => hstatus ?_)
      unfold handleFailing
      dsimp only
      rw [hrun]
      exact hr
    | none =>
      by_cases hfails : FailsWritten env t fails rq kv
      · by_cases hasks : rq.asksSignature env = true
        · by_contra hchanged
          exact hno ⟨hasks, (Changes.wrote hfails hasks).2 hchanged, hfails⟩
        · exact absurd hfails
            ((fetch_returns (Bool.eq_false_iff.2 hasks)).not_failsAfter exec_answers _ _)
      · exact hsame (Prog.run_throws failing_keeps failing_throws hstart hrun hfails)

end

/-! ## A message that is lost -/

/-- A mailbox with one queued message. -/
def oneMessage : Kv :=
  (handle (trustingEnv {}) 0 (.send
    { ip := none
      body := some (.obj [(js "mailbox_id", .str (letters 16)), (js "message", .str (js "m")),
        (js "sender", .obj [(js "pubkey", .str (letters 64)), (js "timestamp", .str (js "0")),
          (js "signature", .str (letters 128))])])
      entryId := [1]
      freshIdentity := ⟨[], []⟩ })
    (handle (trustingEnv {}) 0 (.create
      { ip := none
        body := some (.obj [(js "mailbox_id", .str (letters 16)),
          (js "read_secret_hash", .str (List.replicate 64 48)), (js "cap_exp", .num (.ofInt 9)),
          (js "cap_sig", .str (letters 128))]) }) fun _ => none).2).2

/-- Its reader asks for a signed response. -/
def signedRead : Request :=
  .read { ip := none, mailboxId := some (letters 16), readSecret := some (js "s"), peek := none
          requestId := some (js "r"), freshIdentity := ⟨[], []⟩ }

/-- The identity of the shard cannot be read: the answer is a `500`, and the
    message is gone. -/
theorem signed_read_loses_message :
    ¬ ∀ (env : Env) (t : ℕ) (fails : ℕ → Bool) (rq : Request) (kv : Kv),
      (handleFailing env t fails rq kv).1.status ≠ 200 →
        ∀ id, recordOf (handleFailing env t fails rq kv).2 id = recordOf kv id := by
  intro h
  have hsame := h (trustingEnv {}) 0 (· == 6) signedRead oneMessage (by decide +kernel) (letters 16)
  have hcount : (recordOf (handleFailing (trustingEnv {}) 0 (· == 6) signedRead oneMessage).2
      (letters 16)).map (fun m => m.messages.length) = some 0 := by decide +kernel
  have hbefore : (recordOf oneMessage (letters 16)).map (fun m => m.messages.length) = some 1 := by
    decide +kernel
  rw [hsame, hbefore] at hcount
  cases hcount

end Shard
