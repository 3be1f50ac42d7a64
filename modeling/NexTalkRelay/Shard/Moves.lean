/-
  What one request does to the mailboxes of a shard.

  * `Wrote kv id m kv'`: the record `m` was written for the mailbox `id`, and
    the other mailboxes are as before;
  * `Moves kv rq r kv'` lists the ways in which a request can go: it writes no
    mailbox, or it is an accepted `/create`, `/send`, `/read` or replicate push,
    with what its gate has verified and the record it writes;
  * `handle_moves`: every request goes one of these ways.
-/
import NexTalkRelay.Shard.Create
import NexTalkRelay.Shard.Table

open Effect Js

namespace Shard

/-! ## Refusals -/

section
variable {Q : Response → Prop} (hbad : ∀ message, Q (err message))
include hbad

theorem existsFields_answers (rq : ExistsRequest) : (existsFields rq).Answers Q :=
  Check.answers_orAnswer (hbad _) _

theorem sendFields_answers (env : Env) (body : Option Json) : (sendFields env body).Answers Q := by
  refine (Check.answers_orAnswer (hbad _) _).bind fun body => ?_
  refine (Check.answers_orAnswer (hbad _) _).bind fun mailboxId => ?_
  refine (Check.answers_orAnswer (hbad _) _).bind fun message => ?_
  refine (Check.answers_require (hbad _) _).bind fun _ => ?_
  exact (Check.answers_orAnswer (hbad _) _).bind fun senderPubkey => Check.answers_ok Q _

theorem readFields_answers (rq : ReadRequest) : (readFields rq).Answers Q := by
  refine (Check.answers_orAnswer (hbad _) _).bind fun mailboxId => ?_
  exact (Check.answers_orAnswer (hbad _) _).bind fun readSecret => Check.answers_ok Q _

theorem replicateFields_answers (body : Option Json) : (replicateFields body).Answers Q := by
  refine (Check.answers_orAnswer (hbad _) _).bind fun body => ?_
  refine (Check.answers_orAnswer (hbad _) _).bind fun mailboxId => ?_
  refine (Check.answers_orAnswer (hbad _) _).bind fun entry => ?_
  refine (testedField_answers (hbad _) _ _).bind fun originPubkey => ?_
  refine (testedField_answers (hbad _) _ _).bind fun timestamp => ?_
  exact (testedField_answers (hbad _) _ _).bind fun signature => Check.answers_ok Q _

end

section
variable (env : Env) (ip : Option JString)

theorem existsGate_post : (existsGate ip).Post fun v => ∀ r ∈ v, r.Refusal :=
  limited_post _ _ _ (refusal_err _ (by decide) _) (by rintro _ ⟨⟩)

theorem readGate_post : (readGate ip).Post fun v => ∀ r ∈ v, r.Refusal :=
  limited_post _ _ _ (refusal_err _ (by decide) _) (by rintro _ ⟨⟩)

theorem sendLimits_post (f : SendFields) :
    (sendLimits env ip f).Post fun v => ∀ r ∈ v, r.Refusal := by
  have hslow (message : JString) : (err message 429 (some (js "60"))).Refusal :=
    refusal_err message (by decide) _
  refine limited_post _ _ _ (hslow _) (limited_post _ _ _ (hslow _) (limited_post _ _ _ (hslow _) ?_))
  intro r hr
  obtain ⟨e, -, rfl⟩ := Option.map_eq_some_iff.1 hr
  exact refusal_err e (by decide) none

theorem sendGate_post (f : SendFields) :
    (sendGate env ip f).Post fun v => ∀ r ∈ v, r.Refusal := by
  unfold sendGate
  split
  · trivial
  · refine (Prog.post_true _).bind fun authError _ => ?_
    cases authError with
    | some e => rintro r ⟨⟩; exact refusal_err _ (by decide) none
    | none => exact sendLimits_post env ip f

theorem replicateAuth_post (f : ReplicateFields) (originPubkey : HexStr 64 64) :
    (replicateAuth env f originPubkey).Post fun v => ∀ r ∈ v, r.Refusal := by
  intro table
  simp only [Prog.ret_bind]
  split
  · trivial
  · rintro r ⟨⟩; exact refusal_err _ (by decide) none
  · split
    · rintro r ⟨⟩; exact refusal_err _ (by decide) none
    · rintro r ⟨⟩

theorem replicateGate_post (f : ReplicateFields) :
    (replicateGate env f).Post fun v => ∀ r ∈ v, r.Refusal := by
  intro now
  simp only [Prog.ret_bind]
  split
  · rintro r ⟨⟩; exact refusal_err _ (by decide) none
  · split
    · trivial
    · exact limited_post _ _ _ (refusal_err _ (by decide) _) (replicateAuth_post env f _)

end

/-! ## A check, a gate and an action -/

/-- **A request is refused, or its action runs on the mailboxes as they were.** -/
theorem guarded_cases {α : Type} {c : Check Response α} {gate : α → M Verdict}
    (act : α → M Response) (hc : c.Answers Response.Refusal)
    (hg : ∀ a, (gate a).Only (KvOp.Writes Gate))
    (hq : ∀ a, (gate a).Post fun v => ∀ r ∈ v, r.Refusal) (env : Env) (t : ℕ) (kv : Kv) :
    ∃ o s', (guarded c fun a => gated (gate a) (act a)).run (KvOp.exec t (services env.crypto))
        (kv, []) = (o, s') ∧
      (SameMailboxes kv s'.1 ∧ (∀ r ∈ o, r.Refusal) ∨
        ∃ a s₁, c = .ok a ∧
          (gate a).run (KvOp.exec t (services env.crypto)) (kv, []) = (some none, s₁) ∧
          SameMailboxes kv s₁.1 ∧
          (act a).run (KvOp.exec t (services env.crypto)) s₁ = (o, s')) := by
  cases hca : c with
  | error e =>
    cases e with
    | answer r =>
      refine ⟨some r, (kv, []), rfl, Or.inl ⟨fun _ => rfl, ?_⟩⟩
      rintro _ ⟨⟩
      exact hc r hca
    | crash => exact ⟨none, (kv, []), rfl, Or.inl ⟨fun _ => rfl, by rintro _ ⟨⟩⟩⟩
  | ok a =>
    have hsame := gate_same (hg a) env.crypto t (kv, [])
    have hpost (v : Verdict) (hv : ((gate a).run (KvOp.exec t (services env.crypto))
        (kv, [])).1 = some v) : ∀ r ∈ v, r.Refusal := (hq a).run hv
    rcases hrun : (gate a).run (KvOp.exec t (services env.crypto)) (kv, []) with ⟨v, s₁⟩
    rw [hrun] at hsame hpost
    unfold guarded gated
    dsimp only
    rw [Prog.bind_eq, Prog.run_bind, hrun]
    rcases v with _ | _ | r
    · exact ⟨none, s₁, rfl, Or.inl ⟨hsame, by rintro _ ⟨⟩⟩⟩
    · exact ⟨_, _, rfl, Or.inr ⟨a, s₁, rfl, hrun, hsame, rfl⟩⟩
    · refine ⟨some r, s₁, rfl, Or.inl ⟨hsame, ?_⟩⟩
      rintro _ ⟨⟩
      exact hpost (some r) rfl r rfl

/-! ## The ways of a request -/

/-- The record of the mailbox `id` was written, and no other. -/
def Wrote (env : Env) (t : ℕ) (kv : Kv) (id : JString) (m : Mailbox) (kv' : Kv) : Prop :=
  ∃ life, env.cfg.mailboxTtlSeconds.toInt? = some life ∧
    SameMailboxes (kv.put t (.mailbox id) m (some life)) kv'

theorem Wrote.slot {env : Env} {t : ℕ} {kv kv' : Kv} {id : JString} {m : Mailbox}
    (h : Wrote env t kv id m kv') : ∃ life, env.cfg.mailboxTtlSeconds.toInt? = some life ∧
      kv' (.mailbox id) = some ⟨m, some ((t : ℤ) + 1000 * life)⟩ := by
  obtain ⟨life, hlife, hsame⟩ := h
  exact ⟨life, hlife, (hsame id).trans (Store.put_same kv t (k := .mailbox id) m (some life))⟩

theorem Wrote.own {env : Env} {t : ℕ} {kv kv' : Kv} {id : JString} {m : Mailbox}
    (h : Wrote env t kv id m kv') : ∃ expires, kv' (.mailbox id) = some ⟨m, expires⟩ := by
  obtain ⟨life, -, hslot⟩ := h.slot
  exact ⟨_, hslot⟩

theorem Wrote.other {env : Env} {t : ℕ} {kv kv' : Kv} {id id' : JString} {m : Mailbox}
    (h : Wrote env t kv id m kv') (hne : id' ≠ id) : kv' (.mailbox id') = kv (.mailbox id') := by
  obtain ⟨life, -, hsame⟩ := h
  have hk : Key.mailbox id' ≠ .mailbox id := fun hk => hne (Key.mailbox.inj hk)
  exact (hsame id').trans (Store.put_other kv t hk m (some life))

theorem Wrote.congr {env : Env} {t : ℕ} {kv kv₁ kv' : Kv} {id : JString} {m : Mailbox}
    (hsame : SameMailboxes kv kv₁) (h : Wrote env t kv₁ id m kv') : Wrote env t kv id m kv' := by
  obtain ⟨life, hlife, hput⟩ := h
  refine ⟨life, hlife, fun id' => (hput id').trans ?_⟩
  by_cases hid : id' = id
  · subst hid
    exact (Store.put_same kv₁ t (k := .mailbox id') m (some life)).trans
      (Store.put_same kv t (k := .mailbox id') m (some life)).symm
  · have hk : Key.mailbox id' ≠ .mailbox id := fun hk => hid (Key.mailbox.inj hk)
    exact (Store.put_other kv₁ t hk m (some life)).trans
      ((hsame id').trans (Store.put_other kv t hk m (some life)).symm)

/-- The fields of a replicate push pass its gate. -/
def Passed (env : Env) (t : ℕ) (kv : Kv) (f : ReplicateFields) : Prop :=
  (runAt env.crypto t (replicateGate env f) kv).1 = some none

/-- The record that a push finds, or the shell that it builds. -/
def ReplicateFields.stored (f : ReplicateFields) (found : Option Mailbox) (t : ℕ) : Mailbox :=
  found.getD (shellRecord f t)

/-- An entry with the same id is queued. -/
def Mailbox.queues (m : Mailbox) (id : JString) : Bool := m.messages.any fun e => e.id == id

/-- The body is none of those that come with a written mailbox. -/
def Payload.idle : Payload → Bool
  | created .. | sent _ | read .. | replicated false => false
  | _ => true

/-- The request answers a success of its own without writing its mailbox. -/
def Request.inert : Request → Bool
  | create _ | send _ | read _ => false
  | _ => true

/-- The ways in which a request can go, where `P` says which pushes may pass. -/
inductive Moves (env : Env) (t : ℕ) (P : ReplicateFields → Prop) (kv : Kv) :
    Request → Response → Kv → Prop
  | idle {rq : Request} {r : Response} {kv' : Kv} (body : r.body.idle = true)
      (status : r.status = 200 → rq.inert = true) (same : SameMailboxes kv kv') : Moves env t P kv rq r kv'
  | create {rq : CreateRequest} {f : CreateFields} {isNew : Bool} {kv' : Kv}
      (fields : createFields rq.body = .ok f) (verified : Verified env t f)
      (wrote : Wrote env t kv f.mailboxId.lower
        (f.record (kv.get t (.mailbox f.mailboxId.lower)) t) kv') :
      Moves env t P kv (.create rq)
        (json (.created f.mailboxId.lower env.cfg.mailboxTtlSeconds isNew)) kv'
  | send {rq : SendRequest} {f : SendFields} {m : Mailbox} {r : Response} {kv' : Kv}
      (fields : sendFields env rq.body = .ok f)
      (found : kv.get t (.mailbox f.mailboxId.lower) = some m)
      (room : env.cfg.maxMessages.le
        (.ofInt (m.cleared env.cfg.ttlSeconds t).messages.length) = false)
      (bare : r.bare = json (.sent ((m.cleared env.cfg.ttlSeconds t).messages.length + 1)))
      (wrote : Wrote env t kv f.mailboxId.lower
        ((m.cleared env.cfg.ttlSeconds t).pushed (newEntry f rq.entryId t) t) kv') :
      Moves env t P kv (.send rq) r kv'
  | read {rq : ReadRequest} {f : ReadFields} {m : Mailbox} {r : Response} {kv' : Kv}
      (fields : readFields rq = .ok f)
      (found : kv.get t (.mailbox f.mailboxId.lower) = some m)
      (secret : constantTimeEqual (env.crypto.sha256Hex f.readSecret) m.readSecretHash = true)
      (bare : r.bare =
        json (.read (m.cleared env.cfg.ttlSeconds t).messages m.createdAt !f.peek))
      (wrote : Wrote env t kv f.mailboxId.lower (m.afterRead env.cfg.ttlSeconds t f.peek) kv') :
      Moves env t P kv (.read rq) r kv'
  | replicate {rq : ReplicateRequest} {f : ReplicateFields} {kv' : Kv}
      (fields : replicateFields rq.body = .ok f) (passed : P f)
      (absent : (f.stored (kv.get t (.mailbox f.mailboxId.lower)) t).queues f.entry.id = false)
      (wrote : Wrote env t kv f.mailboxId.lower
        ((f.stored (kv.get t (.mailbox f.mailboxId.lower)) t).pushed f.entry t) kv') :
      Moves env t P kv (.replicate rq) (json (.replicated false)) kv'

/-! ## The mailbox parts -/

section
variable {env : Env} {t : ℕ} {P : ReplicateFields → Prop} {kv : Kv}

/-- An exception is answered without a word on any mailbox. -/
theorem Moves.crash {rq : Request} {kv' : Kv} (h : SameMailboxes kv kv') :
    Moves env t P kv rq crashed kv' := .idle rfl (by rintro ⟨⟩) h

theorem Response.Refusal.moves {rq : Request} {r : Response} {kv' : Kv} (hr : r.Refusal)
    (h : SameMailboxes kv kv') : Moves env t P kv rq r kv' := by
  obtain ⟨hstatus, message, hbody⟩ := hr
  exact .idle (by rw [hbody]; rfl) (fun h => absurd h hstatus) h

/-- Without a lifetime for records, nothing is written. -/
theorem putMailbox_crash (hlife : env.cfg.mailboxTtlSeconds.toInt? = none) (id : JString)
    (m : Mailbox) : putMailbox env id m = .throw := by
  unfold putMailbox kvPut
  rw [hlife]

variable (P kv) (log : List Service)

theorem createMailbox_moves {rq : CreateRequest} {f : CreateFields}
    (hf : createFields rq.body = .ok f) (hv : Verified env t f) :
    ∃ o s', (createMailbox env f).run (KvOp.exec t (services env.crypto)) (kv, log) = (o, s') ∧
      Moves env t P kv (.create rq) (o.getD crashed) s'.1 := by
  cases hlife : env.cfg.mailboxTtlSeconds.toInt? with
  | none =>
    refine ⟨none, (kv, log), ?_, .crash fun _ => rfl⟩
    simp only [createMailbox, kvGet, dateNow, Prog.bind_eq, Prog.perform_bind, KvOp.run_get,
      putMailbox_crash hlife, Prog.throw_bind]
    cases kv.get t (.mailbox f.mailboxId.lower) <;> rfl
  | some life =>
    have hrun := createMailbox_run (t := t) kv log hlife f
    have hmove (isNew : Bool) : Moves env t P kv (.create rq)
        (json (.created f.mailboxId.lower env.cfg.mailboxTtlSeconds isNew))
        (kv.put t (.mailbox f.mailboxId.lower)
          (f.record (kv.get t (.mailbox f.mailboxId.lower)) t) (some life)) :=
      .create hf hv ⟨life, hlife, fun _ => rfl⟩
    cases hm : kv.get t (.mailbox f.mailboxId.lower) with
    | none => rw [hm] at hrun hmove; exact ⟨_, _, hrun, hmove true⟩
    | some m => rw [hm] at hrun hmove; exact ⟨_, _, hrun, hmove false⟩

theorem sendMailbox_moves {rq : SendRequest} {f : SendFields} (hf : sendFields env rq.body = .ok f) :
    ∃ o s', (sendMailbox env rq f).run (KvOp.exec t (services env.crypto)) (kv, log) = (o, s') ∧
      Moves env t P kv (.send rq) (o.getD crashed) s'.1 := by
  cases hm : kv.get t (.mailbox f.mailboxId.lower) with
  | none =>
    exact ⟨_, _, sendMailbox_run_none kv log rq f hm,
      (refusal_err _ (by decide) none).moves fun _ => rfl⟩
  | some m =>
    cases hroom : env.cfg.maxMessages.le
      (.ofInt (m.cleared env.cfg.ttlSeconds t).messages.length) with
    | true =>
      exact ⟨_, _, sendMailbox_run_full kv log rq f hm hroom,
        (refusal_err _ (by decide) _).moves fun _ => rfl⟩
    | false =>
      cases hlife : env.cfg.mailboxTtlSeconds.toInt? with
      | none =>
        refine ⟨none, (kv, log), ?_, .crash fun _ => rfl⟩
        simp only [sendMailbox, kvGet, dateNow, Prog.bind_eq, Prog.perform_bind, KvOp.run_get, hm,
          putMailbox_crash hlife, Prog.throw_bind]
        rw [Prog.run_bind_some (clearStale_run kv log m), if_neg (by simp [hroom]), KvOp.run_now,
          Prog.run_bind_some (pushEntry_run kv log _ _)]
        rfl
      | some life =>
        obtain ⟨r, s', hrun, hbare, hput⟩ := sendMailbox_run kv log hlife rq f hm hroom
        exact ⟨some r, s', hrun, .send hf hm hroom hbare ⟨life, hlife, hput⟩⟩

theorem readMailbox_moves {rq : ReadRequest} {f : ReadFields} (hf : readFields rq = .ok f) :
    ∃ o s', (readMailbox env rq f).run (KvOp.exec t (services env.crypto)) (kv, log) = (o, s') ∧
      Moves env t P kv (.read rq) (o.getD crashed) s'.1 := by
  cases hm : kv.get t (.mailbox f.mailboxId.lower) with
  | none =>
    exact ⟨_, _, readMailbox_run_none kv log rq f hm,
      (refusal_err _ (by decide) none).moves fun _ => rfl⟩
  | some m =>
    cases hsecret : constantTimeEqual (env.crypto.sha256Hex f.readSecret) m.readSecretHash with
    | false =>
      exact ⟨_, _, readMailbox_run_wrong kv log rq f hm hsecret,
        (refusal_err _ (by decide) none).moves fun _ => rfl⟩
    | true =>
      cases hlife : env.cfg.mailboxTtlSeconds.toInt? with
      | none =>
        refine ⟨none, (kv, log), ?_, .crash fun _ => rfl⟩
        simp only [readMailbox, kvGet, Prog.bind_eq, Prog.perform_bind, KvOp.run_get, hm,
          putMailbox_crash hlife, Prog.throw_bind]
        rw [if_neg (by simp [hsecret]), Prog.run_bind_some (clearStale_run kv log m)]
        rfl
      | some life =>
        obtain ⟨r, s', hrun, hbare, hput⟩ := readMailbox_run kv log hlife rq f hm hsecret
        exact ⟨some r, s', hrun, .read hf hm hsecret hbare ⟨life, hlife, hput⟩⟩

/-- A push leaves its entry in the record, unless it is there already. -/
theorem replicateMailbox_run (f : ReplicateFields) :
    (replicateMailbox env f).run (KvOp.exec t (services env.crypto)) (kv, log) =
      (replicateInto env f (f.stored (kv.get t (.mailbox f.mailboxId.lower)) t)).run
        (KvOp.exec t (services env.crypto)) (kv, log) := by
  simp only [replicateMailbox, kvGet, dateNow, Prog.bind_eq, Prog.perform_bind, KvOp.run_get]
  cases kv.get t (.mailbox f.mailboxId.lower) <;> rfl

theorem replicateMailbox_moves {rq : ReplicateRequest} {f : ReplicateFields}
    (hf : replicateFields rq.body = .ok f) (hp : P f) :
    ∃ o s', (replicateMailbox env f).run (KvOp.exec t (services env.crypto)) (kv, log) = (o, s') ∧
      Moves env t P kv (.replicate rq) (o.getD crashed) s'.1 := by
  have hinto (m : Mailbox) : replicateInto env f m =
      if m.queues f.entry.id then .ret (json (.replicated true))
      else (pushEntry m f.entry).bind fun m => (putMailbox env f.mailboxId.lower m).bind fun _ =>
        .ret (json (.replicated false)) := rfl
  rw [replicateMailbox_run, hinto]
  cases hq : (f.stored (kv.get t (.mailbox f.mailboxId.lower)) t).queues f.entry.id with
  | true => exact ⟨_, _, rfl, .idle rfl (fun _ => rfl) fun _ => rfl⟩
  | false =>
    rw [if_neg (by simp), Prog.run_bind_some (pushEntry_run kv log _ _)]
    cases hlife : env.cfg.mailboxTtlSeconds.toInt? with
    | none =>
      rw [putMailbox_crash hlife]
      exact ⟨none, (kv, log), rfl, .crash fun _ => rfl⟩
    | some life =>
      rw [Prog.run_bind_some (putMailbox_run kv log hlife _ _)]
      exact ⟨_, _, rfl, .replicate hf hp hq ⟨life, hlife, fun _ => rfl⟩⟩

end

/-! ## Every request -/

section
variable {env : Env} {t : ℕ} {P : ReplicateFields → Prop} {kv : Kv}

/-- What a request does after its gate depends on the mailboxes only. -/
theorem Moves.congr {kv₁ : Kv} (hsame : SameMailboxes kv kv₁) {rq : Request} {r : Response}
    {kv' : Kv} (h : Moves env t P kv₁ rq r kv') : Moves env t P kv rq r kv' := by
  have hget (id : JString) : kv₁.get t (.mailbox id) = kv.get t (.mailbox id) :=
    Store.get_congr (hsame id) t
  cases h with
  | idle hbody hstatus h => exact .idle hbody hstatus fun id => (h id).trans (hsame id)
  | create hf hv hw => rw [hget] at hw; exact .create hf hv (hw.congr hsame)
  | send hf hm hroom hbare hw => rw [hget] at hm; exact .send hf hm hroom hbare (hw.congr hsame)
  | read hf hm hs hbare hw => rw [hget] at hm; exact .read hf hm hs hbare (hw.congr hsame)
  | replicate hf hp hq hw =>
    rw [hget] at hq hw
    exact .replicate hf hp hq (hw.congr hsame)

/-- A request whose action moves as `Moves` says, whenever its gate lets it pass. -/
theorem guarded_moves {α : Type} {c : Check Response α} {gate : α → M Verdict}
    {act : α → M Response} {rq : Request} (hc : c.Answers Response.Refusal)
    (hg : ∀ a, (gate a).Only (KvOp.Writes Gate))
    (hq : ∀ a, (gate a).Post fun v => ∀ r ∈ v, r.Refusal)
    (hfetch : fetch env rq = guarded c fun a => gated (gate a) (act a))
    (hact : ∀ a s₁, c = .ok a →
      (gate a).run (KvOp.exec t (services env.crypto)) (kv, []) = (some none, s₁) →
      ∃ o s', (act a).run (KvOp.exec t (services env.crypto)) s₁ = (o, s') ∧
        Moves env t P s₁.1 rq (o.getD crashed) s'.1) :
    Moves env t P kv rq (handle env t rq kv).1 (handle env t rq kv).2 := by
  obtain ⟨o, s', hrun, hcases⟩ := guarded_cases act hc hg hq env t kv
  have hhandle : handle env t rq kv = (o.getD crashed, s'.1) := by
    simp only [handle, runAt, hfetch, hrun]
  rw [hhandle]
  rcases hcases with ⟨hsame, hrefusal⟩ | ⟨a, s₁, hca, hgate, hsame, hrest⟩
  · cases o with
    | none => exact .crash hsame
    | some r => exact (hrefusal r rfl).moves hsame
  · obtain ⟨o', s'', hrun', hmoves⟩ := hact a s₁ hca hgate
    obtain ⟨rfl, rfl⟩ := Prod.mk.inj (hrest.symm.trans hrun')
    exact hmoves.congr hsame

end

section
variable (env : Env) (t : ℕ) (kv : Kv)

/-- **Inversion of one request.** -/
theorem handle_moves (rq : Request) :
    Moves env t (Passed env t kv) kv rq (handle env t rq kv).1 (handle env t rq kv).2 := by
  cases rq with
  | create rq =>
    refine guarded_moves (createFields_answers refusal_bad rq.body) (createGate_writes env rq.ip)
      (createGate_post env rq.ip) rfl fun f s₁ hf hgate => ?_
    exact createMailbox_moves _ s₁.1 s₁.2 hf (createGate_verified hgate)
  | exists_ rq =>
    refine guarded_moves (existsFields_answers refusal_bad rq) (fun _ => existsGate_writes rq.ip)
      (fun _ => existsGate_post rq.ip) rfl fun id s₁ _ _ => ?_
    refine ⟨_, _, existsMailbox_run s₁.1 s₁.2 env t id, .idle ?_ (fun _ => rfl) fun _ => rfl⟩
    cases s₁.1.get t (.mailbox id.lower) <;> rfl
  | send rq =>
    refine guarded_moves (sendFields_answers refusal_bad env rq.body) (sendGate_writes env rq.ip)
      (sendGate_post env rq.ip) rfl fun f s₁ hf _ => ?_
    exact sendMailbox_moves _ s₁.1 s₁.2 hf
  | read rq =>
    refine guarded_moves (readFields_answers refusal_bad rq) (fun _ => readGate_writes rq.ip)
      (fun _ => readGate_post rq.ip) rfl fun f s₁ hf _ => ?_
    exact readMailbox_moves _ s₁.1 s₁.2 hf
  | replicate rq =>
    refine guarded_moves (replicateFields_answers refusal_bad rq.body) (replicateGate_writes env)
      (replicateGate_post env) rfl fun f s₁ hf hgate => ?_
    refine replicateMailbox_moves _ s₁.1 s₁.2 hf ?_
    unfold Passed runAt
    rw [hgate]
  | routingTablePush body =>
    obtain ⟨o, kv', hrun, hcases⟩ := handleRoutingTablePush_run env t kv [] body
    have hhandle : handle env t (.routingTablePush body) kv = (o.getD crashed, kv') := by
      simp only [handle, runAt, fetch, hrun]
    rw [hhandle]
    rcases hcases with ⟨doc, -, -, rfl, rfl⟩ | ⟨-, rfl, hrefusal⟩
    · refine .idle rfl (fun _ => rfl) fun id => ?_
      exact Store.put_other kv t (by simp : Key.mailbox id ≠ .routingTable) doc none
    · cases o with
      | none => exact .crash fun _ => rfl
      | some r => exact (hrefusal r rfl).moves fun _ => rfl
  | routingTableServe =>
    refine .idle ?_ (fun _ => rfl) ?_ <;>
      simp only [handle, runAt, fetch, handleRoutingTableServe, kvGet, Prog.bind_eq,
        Prog.perform_bind, KvOp.run_get]
    · cases kv.get t .routingTable <;> rfl
    · cases kv.get t .routingTable <;> exact fun _ => rfl

/-- A pushed table leaves the mailboxes alone. -/
theorem handle_table_same (body : Option Json) :
    SameMailboxes kv (handle env t (.routingTablePush body) kv).2 := by
  have hmoves := handle_moves env t kv (.routingTablePush body)
  generalize handle env t (.routingTablePush body) kv = p at hmoves ⊢
  obtain ⟨r, kv'⟩ := p
  cases hmoves with
  | idle _ _ hsame => exact hsame

end

end Shard
