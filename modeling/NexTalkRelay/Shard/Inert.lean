/-
  Requests that fail their authentication.

  * `Authenticated` says that a request passes the authentication of its handler,
    and `Counted` that it is a push that uses up the quota of its origin;
  * `refused_same`: a request that fails its authentication leaves the store as
    it was, unless it is counted;
  * `forged_inert`: whatever follows, deleting such a request changes no
    other response and no record, exactly if it was not counted or the quota of
    an origin has no end.
-/
import NexTalkRelay.Shard.Push

open Effect Js

namespace Shard

/-! ## Authentication -/

/-- The sender of a message is authentic. -/
def SenderAuthentic (env : Env) (t : ℕ) (kv : Kv) (f : SendFields) : Prop :=
  ∃ senderTimestamp, templateText (fieldOf f.sender "timestamp") = some senderTimestamp ∧
    (runAt env.crypto t (verifySenderAuth env f.sender env.cfg.maxClockSkew
      (sendSignedMessage env.crypto f senderTimestamp)) kv).1 = some none

/-- The push is fresh, and its origin is known and has signed it. -/
def OriginAuthentic (env : Env) (t : ℕ) (kv : Kv) (f : ReplicateFields) : Prop :=
  (Number.ofInt 60000).lt (clockSkew t f.timestamp) = false ∧
    ∃ pk, f.originPubkey.str? = some pk ∧
      knownShard pk.lower (kv.get t .routingTable) = some true ∧ replicateSigOk env f pk = true

/-- The request passes the authentication of its handler, if that has one. -/
def Authenticated (env : Env) (t : ℕ) (kv : Kv) : Request → Prop
  | .create rq => ∃ f, createFields rq.body = .ok f ∧ Verified env t f
  | .send rq => ∃ f, sendFields env rq.body = .ok f ∧ SenderAuthentic env t kv f
  | .replicate rq => ∃ f, replicateFields rq.body = .ok f ∧ OriginAuthentic env t kv f
  | .routingTablePush body => ∃ doc, body = some doc ∧ RouterSigned env doc
  | .exists_ _ | .read _ | .routingTableServe => True

/-- A push of `pk` that is well formed, fresh and within the quota of its origin. -/
structure CountedFor (env : Env) (t : ℕ) (kv : Kv) (rq : ReplicateRequest) (f : ReplicateFields)
    (pk : HexStr 64 64) : Prop where
  fields : replicateFields rq.body = .ok f
  fresh : (Number.ofInt 60000).lt (clockSkew t f.timestamp) = false
  origin : f.originPubkey.str? = some pk
  below : env.cfg.maxReplicatesPerOrigin.le (.ofInt (bucketCount kv t (originBucket pk))) = false

/-- The request uses up the quota of the origin that it names. -/
def Counted (env : Env) (t : ℕ) (kv : Kv) : Request → Prop
  | .replicate rq => ∃ f pk, CountedFor env t kv rq f pk
  | _ => False

/-! ## Refused requests -/

section
variable {env : Env} {t : ℕ} {kv : Kv} {log : List Service}

/-- A sender that is not authentic leaves no trace. -/
theorem verifySenderAuth_same {auth : Option Json} {skew : Number} {msg : JString}
    (h : ((verifySenderAuth env auth skew msg).run (KvOp.exec t (services env.crypto))
      (kv, log)).1 ≠ some none) :
    ((verifySenderAuth env auth skew msg).run (KvOp.exec t (services env.crypto))
      (kv, log)).2 = (kv, log) := by
  unfold verifySenderAuth at h ⊢
  split
  · rfl
  · next pubkey timestamp signature hfields =>
    rw [hfields] at h
    simp only [dateNow, kvGet, Prog.bind_eq, Prog.perform_bind, KvOp.run_now] at h ⊢
    split
    · rfl
    · next hskew =>
      rw [if_neg hskew] at h
      simp only [KvOp.run_get] at h ⊢
      split
      · rfl
      · next hseen =>
        rw [if_neg hseen] at h
        split
        · rfl
        · next hvalid =>
          rw [if_neg hvalid] at h
          unfold kvPut at h ⊢
          cases hlife : (replayTtl skew).toInt? with
          | none => rfl
          | some life =>
            rw [hlife] at h
            exact absurd rfl h

theorem sendGate_same {ip : Option JString} {f : SendFields} (h : ¬ SenderAuthentic env t kv f) :
    ((sendGate env ip f).run (KvOp.exec t (services env.crypto)) (kv, [])).1 ≠ some none ∧
      ((sendGate env ip f).run (KvOp.exec t (services env.crypto)) (kv, [])).2 = (kv, []) := by
  unfold sendGate
  cases hts : templateText (fieldOf f.sender "timestamp") with
  | none => exact ⟨by simp, rfl⟩
  | some ts =>
    have hrefused : ((verifySenderAuth env f.sender env.cfg.maxClockSkew
        (sendSignedMessage env.crypto f ts)).run (KvOp.exec t (services env.crypto)) (kv, [])).1 ≠
        some none := fun hok => h ⟨ts, hts, hok⟩
    have hsame := verifySenderAuth_same hrefused
    dsimp only
    rw [Prog.bind_eq, Prog.run_bind]
    rcases hrun : (verifySenderAuth env f.sender env.cfg.maxClockSkew
      (sendSignedMessage env.crypto f ts)).run (KvOp.exec t (services env.crypto)) (kv, []) with
      ⟨_ | _ | e, s'⟩
    · rw [hrun] at hsame
      exact ⟨by simp, hsame⟩
    · rw [hrun] at hrefused
      exact absurd rfl hrefused
    · rw [hrun] at hsame
      exact ⟨by simp, hsame⟩

theorem createGate_same {ip : Option JString} {f : CreateFields} (h : ¬ Verified env t f) :
    ((createGate env ip f).run (KvOp.exec t (services env.crypto)) (kv, [])).1 ≠ some none ∧
      ((createGate env ip f).run (KvOp.exec t (services env.crypto)) (kv, [])).2 = (kv, []) := by
  obtain ⟨o, hrun, hiff⟩ := capOk_run env t kv [] f
  unfold createGate
  rw [Prog.bind_eq, Prog.run_bind, hrun]
  rcases o with _ | _ | _
  · exact ⟨by simp, rfl⟩
  · exact ⟨by simp, rfl⟩
  · exact absurd (hiff.1 rfl) h

/-- A gate that refuses without a trace leaves the store as it was. -/
theorem guarded_same {α : Type} {c : Check Response α} {gate : α → M Verdict} {act : α → M Response}
    (hgate : ∀ a, c = .ok a →
      ((gate a).run (KvOp.exec t (services env.crypto)) (kv, [])).1 ≠ some none ∧
        ((gate a).run (KvOp.exec t (services env.crypto)) (kv, [])).2 = (kv, [])) :
    (runAt env.crypto t (guarded c fun a => gated (gate a) (act a)) kv).2 = kv := by
  unfold runAt
  cases c with
  | error e => cases e <;> rfl
  | ok a =>
    obtain ⟨hne, hsame⟩ := hgate a rfl
    unfold guarded gated
    dsimp only
    rw [Prog.bind_eq, Prog.run_bind]
    rcases hrun : (gate a).run (KvOp.exec t (services env.crypto)) (kv, []) with ⟨_ | _ | r, s'⟩
    · rw [hrun] at hsame
      exact congrArg Prod.fst hsame
    · rw [hrun] at hne
      exact absurd rfl hne
    · rw [hrun] at hsame
      exact congrArg Prod.fst hsame

/-! ## Pushes -/

theorem replicateAuth_same (f : ReplicateFields) (pk : HexStr 64 64) :
    ∃ o, (replicateAuth env f pk).run (KvOp.exec t (services env.crypto)) (kv, log) = (o, (kv, log)) ∧
      ∀ r, o = some (some r) → r.status = 401 := by
  simp only [replicateAuth, kvGet, Prog.bind_eq, Prog.perform_bind, KvOp.run_get]
  cases knownShard pk.lower (kv.get t .routingTable) with
  | none => exact ⟨none, rfl, by rintro r ⟨⟩⟩
  | some known =>
    cases known with
    | false =>
      refine ⟨_, rfl, ?_⟩
      rintro r ⟨⟩
      rfl
    | true =>
      dsimp only
      split
      · refine ⟨_, rfl, ?_⟩
        rintro r ⟨⟩
        rfl
      · exact ⟨some none, rfl, by rintro r ⟨⟩⟩

/-- The store after a push of `pk` has been counted. -/
def countPush (t : ℕ) (pk : HexStr 64 64) (kv : Kv) : Kv :=
  kv.put t (.rl (originBucket pk) (t / (60 * 1000))) (bucketCount kv t (originBucket pk) + 1 : ℕ)
    (some 65)

theorem limited_run (bucketKey : JString) (limit : Number) (message : JString) (next : M Verdict) :
    (limited bucketKey limit message next).run (KvOp.exec t (services env.crypto)) (kv, log) =
      if limit.le (.ofInt (bucketCount kv t bucketKey)) then
        (some (some (err message 429 (some (js "60")))), (kv, log))
      else next.run (KvOp.exec t (services env.crypto))
        (kv.put t (.rl bucketKey (t / (60 * 1000))) (bucketCount kv t bucketKey + 1 : ℕ) (some 65),
          log) := by
  unfold limited
  rw [Prog.bind_eq, Prog.run_bind, rateLimit_run]
  by_cases hfull : limit.le (.ofInt (bucketCount kv t bucketKey)) = true
  · rw [if_pos hfull, if_pos hfull]
    rfl
  · rw [if_neg hfull, if_neg hfull]
    rfl

/-- The gate of a forged push refuses it; unless it counts it, it leaves no trace. -/
theorem replicateGate_forged {rq : ReplicateRequest} {f : ReplicateFields}
    (hf : replicateFields rq.body = .ok f) (hforged : ¬ OriginAuthentic env t kv f) :
    ((replicateGate env f).run (KvOp.exec t (services env.crypto)) (kv, [])).1 ≠ some none ∧
      ((∀ pk, ¬ CountedFor env t kv rq f pk) →
        ((replicateGate env f).run (KvOp.exec t (services env.crypto)) (kv, [])).2 = (kv, [])) ∧
      ∀ pk, CountedFor env t kv rq f pk →
        ((replicateGate env f).run (KvOp.exec t (services env.crypto)) (kv, [])).2 =
            (countPush t pk kv, []) ∧
          ∀ r, ((replicateGate env f).run (KvOp.exec t (services env.crypto)) (kv, [])).1 =
            some (some r) → r.status = 401 := by
  have hpassed : ((replicateGate env f).run (KvOp.exec t (services env.crypto)) (kv, [])).1 ≠
      some none := by
    intro hpass
    obtain ⟨hskew, pk, hpk, -, hknown, hsig⟩ := (passed_iff kv env t f).1 hpass
    exact hforged ⟨hskew, pk, hpk, hknown, hsig⟩
  refine ⟨hpassed, ?_⟩
  simp only [replicateGate, dateNow, Prog.bind_eq, Prog.perform_bind, KvOp.run_now]
  cases hskew : (Number.ofInt 60000).lt (clockSkew t f.timestamp) with
  | true =>
    refine ⟨fun _ => rfl, fun pk hcounted => ?_⟩
    cases hskew.symm.trans hcounted.fresh
  | false =>
    rw [if_neg (by simp)]
    cases horigin : f.originPubkey.str? with
    | none =>
      refine ⟨fun _ => rfl, fun pk hcounted => ?_⟩
      cases horigin.symm.trans hcounted.origin
    | some pk =>
      dsimp only
      rw [limited_run]
      cases hbelow : env.cfg.maxReplicatesPerOrigin.le
          (.ofInt (bucketCount kv t (originBucket pk))) with
      | true =>
        unfold originBucket at hbelow
        rw [if_pos hbelow]
        refine ⟨fun _ => rfl, fun pk' hcounted => ?_⟩
        obtain rfl : pk = pk' := Option.some.inj (horigin.symm.trans hcounted.origin)
        cases hbelow.symm.trans hcounted.below
      | false =>
        refine ⟨fun hno => absurd ⟨hf, hskew, horigin, hbelow⟩ (hno pk), fun pk' hcounted => ?_⟩
        obtain rfl : pk = pk' := Option.some.inj (horigin.symm.trans hcounted.origin)
        unfold originBucket at hbelow
        rw [if_neg (by simp [hbelow])]
        obtain ⟨o, hrun, hstatus⟩ : ∃ o, (replicateAuth env f pk).run
            (KvOp.exec t (services env.crypto)) (countPush t pk kv, []) = (o, (countPush t pk kv, [])) ∧
            ∀ r, o = some (some r) → r.status = 401 := replicateAuth_same f pk
        unfold countPush originBucket at hrun
        rw [hrun]
        exact ⟨rfl, hstatus⟩

end

/-! ## One request -/

section
variable {env : Env} {t : ℕ} {kv : Kv}

/-- **A request that fails its authentication leaves no trace**, unless it is
    counted. -/
theorem refused_same {rq : Request} (hforged : ¬ Authenticated env t kv rq)
    (hfree : ¬ Counted env t kv rq) : (handle env t rq kv).2 = kv := by
  cases rq with
  | create rq =>
    exact guarded_same fun f hf => createGate_same fun hv => hforged ⟨f, hf, hv⟩
  | send rq => exact guarded_same fun f hf => sendGate_same fun hv => hforged ⟨f, hf, hv⟩
  | replicate rq =>
    refine guarded_same fun f hf => ?_
    obtain ⟨hne, hsame, -⟩ := replicateGate_forged hf fun hv => hforged ⟨f, hf, hv⟩
    exact ⟨hne, hsame fun pk hcounted => hfree ⟨f, pk, hcounted⟩⟩
  | routingTablePush body =>
    obtain ⟨o, kv', hrun, ⟨doc, rfl, hacc, -, -⟩ | ⟨-, rfl, -⟩⟩ :=
      handleRoutingTablePush_run env t kv [] body
    · exact absurd ⟨doc, rfl, hacc.signed⟩ hforged
    · simp only [handle, runAt, fetch, hrun]
  | exists_ _ | read _ | routingTableServe => exact absurd trivial hforged

/-- A forged push that is counted changes nothing but the count, and is not
    refused for the rate of its origin. -/
theorem counted_handle {rq : ReplicateRequest} {f : ReplicateFields} {pk : HexStr 64 64}
    (hforged : ¬ Authenticated env t kv (.replicate rq)) (hcounted : CountedFor env t kv rq f pk) :
    (handle env t (.replicate rq) kv).2 = countPush t pk kv ∧
      (handle env t (.replicate rq) kv).1.status ≠ 429 := by
  obtain ⟨hne, -, hcount⟩ := replicateGate_forged hcounted.fields
    fun hv => hforged ⟨f, hcounted.fields, hv⟩
  obtain ⟨hstate, hstatus⟩ := hcount pk hcounted
  unfold handle runAt
  dsimp only [fetch, handleReplicate, guarded, gated]
  rw [hcounted.fields]
  dsimp only
  rw [Prog.bind_eq, Prog.run_bind]
  rcases hrun : (replicateGate env f).run (KvOp.exec t (services env.crypto)) (kv, []) with
    ⟨_ | _ | r, s'⟩
  · rw [hrun] at hstate
    exact ⟨congrArg Prod.fst hstate, show (500 : ℕ) ≠ 429 by decide⟩
  · rw [hrun] at hne
    exact absurd rfl hne
  · rw [hrun] at hstate hstatus
    refine ⟨congrArg Prod.fst hstate, ?_⟩
    have h401 : r.status = 401 := hstatus r rfl
    show r.status ≠ 429
    rw [h401]
    decide

/-- A push that is out of quota is refused for its rate. -/
theorem exhausted_handle {rq : ReplicateRequest} {f : ReplicateFields} {pk : HexStr 64 64}
    (hf : replicateFields rq.body = .ok f)
    (hfresh : (Number.ofInt 60000).lt (clockSkew t f.timestamp) = false)
    (horigin : f.originPubkey.str? = some pk)
    (hfull : env.cfg.maxReplicatesPerOrigin.le
      (.ofInt (bucketCount kv t (originBucket pk))) = true) :
    (handle env t (.replicate rq) kv).1.status = 429 := by
  unfold originBucket at hfull
  unfold handle runAt
  dsimp only [fetch, handleReplicate, guarded, gated]
  rw [hf]
  simp only [replicateGate, dateNow, Prog.bind_eq, Prog.perform_bind, Prog.op_bind, KvOp.run_now]
  rw [if_neg (by simp [hfresh]), horigin]
  dsimp only
  rw [Prog.run_bind, limited_run, if_pos hfull]
  rfl

end

/-! ## Runs -/

/-- The responses to a run of requests, each at its instant. -/
def responses (env : Env) : Kv → List (ℕ × Request) → List Response
  | _, [] => []
  | kv, e :: run => (handle env e.1 e.2 kv).1 :: responses env (handle env e.1 e.2 kv).2 run

/-- The store after a run of requests. -/
def storeAfter (env : Env) : Kv → List (ℕ × Request) → Kv
  | kv, [] => kv
  | kv, e :: run => storeAfter env (handle env e.1 e.2 kv).2 run

section
variable {env : Env} {kv : Kv}

theorem storeAfter_append (run run' : List (ℕ × Request)) :
    storeAfter env kv (run ++ run') = storeAfter env (storeAfter env kv run) run' := by
  induction run generalizing kv with
  | nil => rfl
  | cons e run ih => exact ih

theorem responses_append (run run' : List (ℕ × Request)) :
    responses env kv (run ++ run') =
      responses env kv run ++ responses env (storeAfter env kv run) run' := by
  induction run generalizing kv with
  | nil => rfl
  | cons e run ih => exact congrArg (List.cons _) ih

theorem length_responses (run : List (ℕ × Request)) :
    (responses env kv run).length = run.length := by
  induction run generalizing kv with
  | nil => rfl
  | cons e run ih => exact congrArg Nat.succ ih

/-- Deleting the request `e` after `before` changes no other response, and no
    record, whatever comes after it. -/
def Inert (env : Env) (kv : Kv) (before : List (ℕ × Request)) (e : ℕ × Request) : Prop :=
  ∀ rest, responses env kv (before ++ rest) =
      (responses env kv (before ++ e :: rest)).eraseIdx before.length ∧
    SameMailboxes (storeAfter env kv (before ++ e :: rest)) (storeAfter env kv (before ++ rest))

/-- Deleting a request is starting what follows in the store before it. -/
theorem inert_iff (before : List (ℕ × Request)) (e : ℕ × Request) :
    Inert env kv before e ↔ ∀ rest,
      responses env (storeAfter env kv before) rest =
          responses env (handle env e.1 e.2 (storeAfter env kv before)).2 rest ∧
        SameMailboxes (storeAfter env (handle env e.1 e.2 (storeAfter env kv before)).2 rest)
          (storeAfter env (storeAfter env kv before) rest) := by
  refine forall_congr' fun rest => ?_
  rw [storeAfter_append, storeAfter_append, responses_append, responses_append,
    List.eraseIdx_append_of_length_le (length_responses before).le, length_responses, Nat.sub_self]
  refine and_congr_left' ⟨List.append_cancel_left, congrArg _⟩

/-- Some number of pushes exhausts the quota of an origin. -/
def Cfg.limitsPushes (cfg : Cfg) : Prop := ∃ n : ℕ, cfg.maxReplicatesPerOrigin.le (.ofInt n) = true

theorem storeAfter_replicate_succ (e : ℕ × Request) (k : ℕ) :
    storeAfter env kv (List.replicate (k + 1) e) =
      (handle env e.1 e.2 (storeAfter env kv (List.replicate k e))).2 := by
  rw [List.replicate_succ', storeAfter_append]
  rfl

theorem bucketCount_countPush (t : ℕ) (pk : HexStr 64 64) (kv : Kv) :
    bucketCount (countPush t pk kv) t (originBucket pk) = bucketCount kv t (originBucket pk) + 1 := by
  unfold countPush
  rw [bucketCount, Store.get_put_some, if_pos (by omega)]
  rfl

/-- Counting a push does not make it authentic. -/
theorem authentic_countPush {t : ℕ} {rq : ReplicateRequest} {pk : HexStr 64 64}
    (h : ¬ Authenticated env t kv (.replicate rq)) :
    ¬ Authenticated env t (countPush t pk kv) (.replicate rq) := by
  have htable : (countPush t pk kv).get t .routingTable = kv.get t .routingTable :=
    Store.get_put_other kv t (by simp) _ _ t
  rintro ⟨f, hf, hfresh, pk', horigin, hknown, hsig⟩
  exact h ⟨f, hf, hfresh, pk', horigin, htable ▸ hknown, hsig⟩

/-- A forged push that is inert goes on being counted when it is repeated. -/
theorem counted_again {t : ℕ} {rq : ReplicateRequest} {f : ReplicateFields} {pk : HexStr 64 64}
    (hforged : ¬ Authenticated env t kv (.replicate rq)) (hcounted : CountedFor env t kv rq f pk)
    (hinert : ∀ rest, responses env kv rest =
      responses env (handle env t (.replicate rq) kv).2 rest) (k : ℕ) :
    ¬ Authenticated env t (storeAfter env kv (List.replicate k (t, .replicate rq))) (.replicate rq) ∧
      CountedFor env t (storeAfter env kv (List.replicate k (t, .replicate rq))) rq f pk ∧
      bucketCount (storeAfter env kv (List.replicate k (t, .replicate rq))) t (originBucket pk) =
        bucketCount kv t (originBucket pk) + k := by
  induction k with
  | zero => exact ⟨hforged, hcounted, rfl⟩
  | succ k ih =>
    obtain ⟨hforgedₖ, hcountedₖ, hcountₖ⟩ := ih
    obtain ⟨hstate, hstatus⟩ := counted_handle hforgedₖ hcountedₖ
    -- the response to the repetition does not depend on the first push
    have hsame : (handle env t (.replicate rq)
          (storeAfter env kv (List.replicate k (t, .replicate rq)))).1 =
        (handle env t (.replicate rq)
          (storeAfter env kv (List.replicate (k + 1) (t, .replicate rq)))).1 := by
      have h := hinert (List.replicate k (t, .replicate rq) ++ [(t, .replicate rq)])
      rw [responses_append, responses_append] at h
      exact List.head_eq_of_cons_eq (List.append_inj' h rfl).2
    have hcount : bucketCount (storeAfter env kv (List.replicate (k + 1) (t, .replicate rq))) t
        (originBucket pk) = bucketCount kv t (originBucket pk) + (k + 1) := by
      rw [storeAfter_replicate_succ, hstate, bucketCount_countPush, hcountₖ]
      rfl
    refine ⟨?_, ⟨hcounted.fields, hcounted.fresh, hcounted.origin, ?_⟩, hcount⟩
    · rw [storeAfter_replicate_succ, hstate]
      exact authentic_countPush hforgedₖ
    · by_contra hfull
      refine hstatus (hsame.symm ▸ exhausted_handle hcounted.fields hcounted.fresh hcounted.origin ?_)
      rwa [Bool.not_eq_false] at hfull

/-- **Forged requests are inert** unless they are counted; and where a number of
    pushes exhausts the quota of an origin, only if they are not. -/
theorem forged_inert (env : Env) (kv : Kv) (before : List (ℕ × Request)) (e : ℕ × Request)
    (hforged : ¬ Authenticated env e.1 (storeAfter env kv before) e.2) :
    (¬ Counted env e.1 (storeAfter env kv before) e.2 → Inert env kv before e) ∧
      (env.cfg.limitsPushes → Inert env kv before e →
        ¬ Counted env e.1 (storeAfter env kv before) e.2) := by
  rw [inert_iff]
  obtain ⟨t, rq⟩ := e
  dsimp only at hforged ⊢
  generalize storeAfter env kv before = kv at hforged ⊢
  constructor
  · intro hfree rest
    rw [refused_same hforged hfree]
    exact ⟨rfl, fun _ => rfl⟩
  · rintro ⟨n, hlimit⟩ hinert hcounted
    cases rq with
    | replicate rq =>
      obtain ⟨f, pk, hcounted⟩ := hcounted
      obtain ⟨-, hcountedₙ, hcount⟩ :=
        counted_again hforged hcounted (fun rest => (hinert rest).1) n
      have hbelow := hcountedₙ.below
      rw [hcount, Number.le_ofInt_mono (by omega) hlimit] at hbelow
      cases hbelow
    | _ => exact hcounted

end

/-! ## A quota that is used up by others -/

/-- A shard that takes one push of an origin in a minute; a signature verifies
    if it begins with `aa`. -/
def onePushEnv : Env :=
  { trustingEnv { maxReplicatesPerOrigin := .ofInt 1 } with
    crypto := { Crypto.trusting with verify := fun _ signature _ => signature.head? == some 170 } }

/-- A signature that does not verify. -/
def forgery : JString := js "00" ++ letters 126

/-- A message whose signature does not verify. -/
def forgedSend : SendRequest where
  ip := none
  body := some (.obj [(js "mailbox_id", .str (letters 16)), (js "message", .str (js "m")),
    (js "sender", .obj [(js "pubkey", .str (letters 64)), (js "timestamp", .str (js "0")),
      (js "signature", .str forgery)])])
  entryId := [1]
  freshIdentity := ⟨[], []⟩

theorem forged_send_inert : Inert onePushEnv (fun _ => none) [] (0, .send forgedSend) := by
  refine (forged_inert onePushEnv (fun _ => none) [] (0, .send forgedSend) ?_).1 id
  rintro ⟨f, hf, ts, hts, hok⟩
  obtain rfl := Except.ok.inj ((show sendFields onePushEnv forgedSend.body = .ok _ from rfl).symm.trans hf)
  obtain rfl := Option.some.inj ((show templateText _ = some (js "0") from rfl).symm.trans hts)
  exact absurd hok (by decide +kernel)

/-- A push in the name of the sibling, which the sibling has not signed. -/
def forgedPush : ReplicateRequest where
  body := some (.obj [(js "mailbox_id", .str (letters 16)),
    (js "entry", (siblingEntry (js "0") (js "m")).json),
    (js "origin_shard_pubkey", .str (letters 64)), (js "timestamp", .str (js "0")),
    (js "signature", .str forgery)])

theorem isHexOf_forgery : isHexOf 128 128 forgery = true := by decide +kernel

/-- The fields of a push whose signature does not verify. -/
def forgedFields : ReplicateFields :=
  { siblingFields (js "0") (js "m") with signature := ⟨⟨forgery, isHexOf_forgery⟩, true⟩ }

theorem forgedPush_fields : replicateFields forgedPush.body = .ok forgedFields := rfl

theorem forgedPush_refused {t : ℕ} {kv : Kv} :
    ¬ Authenticated onePushEnv t kv (.replicate forgedPush) := by
  rintro ⟨f, hf, -, pk, hpk, -, hsig⟩
  obtain rfl := Except.ok.inj (forgedPush_fields.symm.trans hf)
  obtain rfl : pk = ⟨letters 64, by decide⟩ := (Option.some.inj hpk).symm
  exact absurd hsig (by decide +kernel)

/-- The forged push is refused, and the sibling's own push then is refused for
    its rate. -/
theorem forged_push_uses_quota :
    ¬ ∀ (env : Env) (kv : Kv) (before : List (ℕ × Request)) (e : ℕ × Request),
      ¬ Authenticated env e.1 (storeAfter env kv before) e.2 → Inert env kv before e := by
  intro h
  have hinert := h onePushEnv (fun _ => none) [(0, .routingTablePush (some siblingTable))]
    (0, .replicate forgedPush) forgedPush_refused
  have hsame := (hinert [(0, .replicate (siblingPush (js "1") (js "m")))]).1
  have hstatus := congrArg (List.map Response.status) hsame
  revert hstatus
  decide +kernel

end Shard
