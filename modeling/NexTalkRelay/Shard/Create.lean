/-
  What a shard accepts under `/create`.

  * `CreateFields.message` is the text whose signature is verified, and
    `Verified` says that the signature of the Router on it verifies, in time;
  * `create_accepted`: a request that is answered with success is `Verified`,
    and its record is written.
-/
import NexTalkRelay.Shard.Spec

open Effect Js

namespace Shard

/-- The text of the capability that a request presents; `none` where the check
    throws. -/
def CreateFields.message (f : CreateFields) : Option JString :=
  match f.cap with
  | .v2 clientPubkey nonce => clientPubkey.str?.map fun clientPubkey =>
    capTextV2 f.mailboxId.lower clientPubkey.lower (js "mailbox.create") f.capExp nonce
  | .v1 => some (capText f.mailboxId.lower f.readSecretHash.lower f.capExp)

/-- The capability has not expired and its signature verifies. -/
def Verified (env : Env) (t : ℕ) (f : CreateFields) : Prop :=
  f.capExp.lt (.ofInt t) = false ∧ ∃ message, f.message = some message ∧
    verifyEd25519Message env.crypto env.routerSigningPublic message f.capSig = true

/-- The record that `/create` writes over what is stored. -/
def CreateFields.record (f : CreateFields) (stored : Option Mailbox) (t : ℕ) : Mailbox :=
  match stored with
  | some m => f.refresh m
  | none => f.fresh t

/-! ## Refusals -/

theorem createFields_answers {Q : Response → Prop} (hbad : ∀ message, Q (err message))
    (body : Option Json) : (createFields body).Answers Q := by
  refine (Check.answers_orAnswer (hbad _) _).bind fun body => ?_
  refine (Check.answers_orAnswer (hbad _) _).bind fun mailboxId => ?_
  refine (Check.answers_orAnswer (hbad _) _).bind fun readSecretHash => ?_
  refine (Check.answers_require (hbad _) _).bind fun _ => ?_
  refine (Check.answers_orCrash Q _).bind fun capExp => ?_
  refine (Check.answers_require (hbad _) _).bind fun _ => ?_
  refine (Check.answers_orAnswer (hbad _) _).bind fun capSig => ?_
  refine (Check.answers_orCrash Q _).bind fun capVersion => ?_
  dsimp only
  split
  · refine (testedField_answers (hbad _) _ _).bind fun clientPubkey => ?_
    exact (Check.answers_orAnswer (hbad _) _).bind fun nonce => Check.answers_ok Q _
  · exact Check.answers_ok Q _

section
variable {Q : Response → Prop}

/-- A rate limit refuses with a `429`. -/
theorem limited_post (bucketKey : JString) (limit : Number) (message : JString)
    (h : Q (err message 429 (some (js "60")))) {next : M Verdict}
    (hnext : next.Post fun v => ∀ r ∈ v, Q r) :
    (limited bucketKey limit message next).Post fun v => ∀ r ∈ v, Q r := by
  refine (Prog.post_true _).bind fun ok _ => ?_
  cases ok with
  | true => exact hnext
  | false => rintro r ⟨⟩; exact h

theorem createGate_post (env : Env) (ip : Option JString) (f : CreateFields) :
    (createGate env ip f).Post fun v => ∀ r ∈ v, r.Refusal := by
  refine (Prog.post_true _).bind fun ok _ => ?_
  cases ok with
  | true => exact limited_post _ _ _ (refusal_err _ (by decide) _) (by rintro _ ⟨⟩)
  | false => rintro r ⟨⟩; exact refusal_err _ (by decide) none

end

/-! ## Acceptance -/

section
variable {env : Env} {t : ℕ} {kv : Kv} {log : List Service}

theorem capOk_run (env : Env) (t : ℕ) (kv : Kv) (log : List Service) (f : CreateFields) :
    ∃ o, (capOk env f).run (KvOp.exec t (services env.crypto)) (kv, log) = (o, (kv, log)) ∧
      (o = some true ↔ Verified env t f) := by
  unfold Verified CreateFields.message capOk
  cases f.cap with
  | v1 =>
    simp only [verifyCapability, dateNow, Prog.bind_eq, Prog.perform_bind, KvOp.run_now]
    split
    · next h => exact ⟨_, rfl, by simp [h]⟩
    · next h => exact ⟨_, rfl, by simp [h]⟩
  | v2 clientPubkey nonce =>
    simp only [verifyCapabilityV2, dateNow, Prog.bind_eq, Prog.perform_bind, KvOp.run_now]
    split
    · next h => exact ⟨_, rfl, by simp [h]⟩
    · next h =>
      cases clientPubkey.str? with
      | none => exact ⟨_, rfl, by simp⟩
      | some clientPubkey => exact ⟨_, rfl, by simp [h]⟩

/-- The gate lets only verified capabilities pass. -/
theorem createGate_verified {ip : Option JString} {f : CreateFields} {s' : Kv × List Service}
    (h : (createGate env ip f).run (KvOp.exec t (services env.crypto)) (kv, log) =
      (some none, s')) : Verified env t f := by
  obtain ⟨ok, s₁, hcap, hnext⟩ := Prog.run_bind_eq_some h
  obtain ⟨o, hrun, hiff⟩ := capOk_run env t kv log f
  rw [hrun] at hcap
  obtain ⟨rfl, rfl⟩ := Prod.mk.inj hcap
  cases ok with
  | true => exact hiff.1 rfl
  | false => cases hnext

/-- A success has written its record. -/
theorem createMailbox_put {f : CreateFields} {r : Response} {s' : Kv × List Service}
    (h : (createMailbox env f).run (KvOp.exec t (services env.crypto)) (kv, log) = (some r, s')) :
    ∃ expires, s'.1 (.mailbox f.mailboxId.lower) =
      some ⟨f.record (kv.get t (.mailbox f.mailboxId.lower)) t, expires⟩ := by
  have hwrite (m : Mailbox) (r' : Response)
      (hr : ((putMailbox env f.mailboxId.lower m).bind fun _ => Prog.ret r').run
        (KvOp.exec t (services env.crypto)) (kv, log) = (some r, s')) :
      ∃ expires, s'.1 (.mailbox f.mailboxId.lower) = some ⟨m, expires⟩ := by
    unfold putMailbox kvPut at hr
    cases hlife : env.cfg.mailboxTtlSeconds.toInt? with
    | none => rw [hlife] at hr; cases hr
    | some life =>
      rw [hlife] at hr
      obtain ⟨-, rfl⟩ := Prod.mk.inj hr
      exact ⟨_, Store.put_same kv t (k := .mailbox f.mailboxId.lower) m (some life)⟩
  simp only [createMailbox, kvGet, dateNow, Prog.bind_eq, Prog.perform_bind, KvOp.run_get] at h
  unfold CreateFields.record
  cases hm : kv.get t (.mailbox f.mailboxId.lower) with
  | none => rw [hm] at h; exact hwrite _ _ h
  | some m => rw [hm] at h; exact hwrite _ _ h

/-- **An accepted request is verified, and its record is written.** -/
theorem create_accepted {rq : CreateRequest}
    (h : (handle env t (.create rq) kv).1.status = 200) :
    ∃ f expires, createFields rq.body = .ok f ∧ Verified env t f ∧
      (handle env t (.create rq) kv).2 (.mailbox f.mailboxId.lower) =
        some ⟨f.record (kv.get t (.mailbox f.mailboxId.lower)) t, expires⟩ := by
  unfold handle runAt at h ⊢
  dsimp only [fetch, handleCreate, guarded] at h ⊢
  cases hf : createFields rq.body with
  | error e =>
    rw [hf] at h
    cases e with
    | answer r =>
      exact absurd h (createFields_answers refusal_bad rq.body r hf).1
    | crash => cases h
  | ok f =>
    rw [hf] at h
    dsimp only at h ⊢
    rcases hrun : (gated (createGate env rq.ip f) (createMailbox env f)).run
      (KvOp.exec t (services env.crypto)) (kv, []) with ⟨_ | r, s'⟩
    · rw [hrun] at h; cases h
    · rw [hrun] at h
      rcases gated_run hrun with hgate | ⟨⟨kv₁, log₁⟩, hgate, hact⟩
      · have hr := (createGate_post env rq.ip f).run (by rw [hgate]) r rfl
        exact absurd h hr.1
      · obtain ⟨expires, hput⟩ := createMailbox_put hact
        have hsame : kv₁ (.mailbox f.mailboxId.lower) = kv (.mailbox f.mailboxId.lower) := by
          have := KvOp.run_outside (k := .mailbox f.mailboxId.lower) id
            (createGate_writes env rq.ip f) t (services env.crypto) (kv, [])
          rw [hgate] at this
          exact this
        rw [Store.get_congr hsame t] at hput
        exact ⟨f, expires, rfl, createGate_verified hgate, hput⟩

end

end Shard
