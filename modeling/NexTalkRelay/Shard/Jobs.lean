/-
  What a shard leaves for after its response.

  A `/send` that is queued schedules the copies of its message; the job runs
  later, on the store as it is then, and pushes them.

  * `scheduled` are the jobs that a request leaves, `runJob` is one of them;
  * `send_scheduled`: a send leaves jobs only if it is answered with success, and
    they copy the entry that it has queued;
  * `runJob_same`, `runJob_pushes`: a job changes no mailbox, and pushes the entry
    that it was left for.
-/
import NexTalkRelay.Js.Wire
import NexTalkRelay.Shard.Moves

open Effect Js

namespace Shard

/-- The jobs among the calls of a program. -/
def jobsIn (log : List Service) : List FanOut :=
  log.filterMap fun s => match s with
    | .waitUntil job => some job
    | _ => none

/-- The pushes among the calls of a program. -/
def postsIn (log : List Service) : List (JString × Json) :=
  log.filterMap fun s => match s with
    | .post url body => some (url, body)
    | _ => none

/-- The jobs that a request leaves for after its response. -/
def scheduled (env : Env) (t : ℕ) (rq : Request) (kv : Kv) : List FanOut :=
  jobsIn ((fetch env rq).run (KvOp.exec t (services env.crypto)) (kv, [])).2.2

/-- The pushes of a job, and the store after it. -/
def runJob (env : Env) (t : ℕ) (fresh : Identity) (job : FanOut) (kv : Kv) :
    List (JString × Json) × Kv :=
  let r := (replicateToSiblings env fresh job).run (KvOp.exec t (services env.crypto)) (kv, [])
  (postsIn r.2.2, r.2.1)

/-! ## Programs that leave no job -/

/-- The service is no job. -/
def Service.NoJob : Service → Prop
  | .waitUntil _ => False
  | _ => True

/-- The program leaves no job. -/
abbrev Jobless {α : Type} (p : M α) : Prop := p.Only (KvOp.Calls Service.NoJob)

@[simp] theorem jobsIn_append (log log' : List Service) :
    jobsIn (log ++ log') = jobsIn log ++ jobsIn log' := List.filterMap_append

theorem Jobless.run {α : Type} {p : M α} (hp : Jobless p) (c : Crypto) (t : ℕ)
    (s : Kv × List Service) : jobsIn (p.run (KvOp.exec t (services c)) s).2.2 = jobsIn s.2 := by
  refine KvOp.run_calls (I := fun log => jobsIn log = jobsIn s.2) (fun e log he hlog => ?_) hp t rfl
  cases e with
  | waitUntil job => exact he.elim
  | sign key message =>
    simp only [services, jobsIn_append, hlog]
    exact List.append_nil _
  | post url body =>
    simp only [services, jobsIn_append, hlog]
    exact List.append_nil _

section
variable (env : Env)

theorem kvPut_jobless (k : Key) (v : Val k) (ttl : Number) : Jobless (kvPut k v ttl) := by
  unfold kvPut
  split
  · exact ⟨trivial, fun _ => trivial⟩
  · trivial

theorem limited_jobless (bucketKey : JString) (limit : Number) (message : JString) {next : M Verdict}
    (hn : Jobless next) : Jobless (limited bucketKey limit message next) := by
  refine Prog.Only.bind ⟨trivial, fun now => ⟨trivial, fun count => ?_⟩⟩ fun b => ?_
  · simp only [Prog.ret_bind]
    split
    · trivial
    · exact (kvPut_jobless _ _ _).bind fun _ => trivial
  · split
    · exact hn
    · trivial

theorem verifySenderAuth_jobless (auth : Option Json) (skew : Number) (msg : JString) :
    Jobless (verifySenderAuth env auth skew msg) := by
  unfold verifySenderAuth
  split
  · trivial
  · refine ⟨trivial, fun now => ?_⟩
    simp only [Prog.ret_bind]
    split
    · trivial
    · refine ⟨trivial, fun seen => ?_⟩
      simp only [Prog.ret_bind]
      split
      · trivial
      · split
        · trivial
        · exact (kvPut_jobless _ _ _).bind fun _ => trivial

theorem sendGate_jobless (ip : Option JString) (f : SendFields) : Jobless (sendGate env ip f) := by
  unfold sendGate
  split
  · trivial
  · refine (verifySenderAuth_jobless env _ _ _).bind fun authError => ?_
    cases authError with
    | some e => trivial
    | none =>
      exact limited_jobless _ _ _ (limited_jobless _ _ _ (limited_jobless _ _ _ trivial))

theorem respond_jobless (fresh : Identity) (requestId : Option JString) (body : Payload) :
    Jobless (respond env fresh requestId body) := by
  unfold respond
  split
  · refine Prog.Only.bind ⟨trivial, fun stored => ?_⟩ fun identity => ?_
    · cases stored with
      | some identity => trivial
      | none => exact ⟨trivial, fun _ => trivial⟩
    · exact ⟨trivial, fun now => ⟨trivial, fun signature => trivial⟩⟩
  · trivial

end

/-! ## The jobs of a send -/

section
variable {env : Env} {t : ℕ} (kv : Kv) (log : List Service)

theorem fanOut_jobs (env : Env) (t : ℕ) (id : JString) (e : Entry) (urls : Json) :
    ∃ log', (fanOut id e urls).run (KvOp.exec t (services env.crypto)) (kv, log) =
        (some (), (kv, log')) ∧ ∀ job ∈ jobsIn log', job ∈ jobsIn log ∨ job.entry = e := by
  unfold fanOut
  split
  · split
    · refine ⟨_, rfl, fun job hjob => ?_⟩
      change job ∈ jobsIn (log ++ [.waitUntil _]) at hjob
      rw [jobsIn_append] at hjob
      rcases List.mem_append.1 hjob with hjob | hjob
      · exact Or.inl hjob
      · exact Or.inr (congrArg FanOut.entry (List.mem_singleton.1 hjob))
    · exact ⟨_, rfl, fun job hjob => Or.inl hjob⟩
  · exact ⟨_, rfl, fun job hjob => Or.inl hjob⟩

theorem respond_jobs (env : Env) (t : ℕ) (fresh : Identity) (requestId : Option JString)
    (body : Payload) :
    ∃ r s', (respond env fresh requestId body).run (KvOp.exec t (services env.crypto)) (kv, log) =
      (some r, s') ∧ r.status = 200 ∧ jobsIn s'.2 = jobsIn log := by
  obtain ⟨r, s', hrun, hbare, -⟩ := respond_run kv log env t fresh requestId body
  refine ⟨r, s', hrun, congrArg Response.status hbare, ?_⟩
  have hquiet := (respond_jobless env fresh requestId body).run env.crypto t (kv, log)
  rw [hrun] at hquiet
  exact hquiet

/-- A job of `/send` comes with a success, and is for the entry that was queued. -/
theorem sendMailbox_jobs (rq : SendRequest) (f : SendFields) {o : Option Response}
    {s' : Kv × List Service} (hrun : (sendMailbox env rq f).run
      (KvOp.exec t (services env.crypto)) (kv, log) = (o, s')) {job : FanOut}
    (hjob : job ∈ jobsIn s'.2) :
    job ∈ jobsIn log ∨ (∃ r, o = some r ∧ r.status = 200) ∧ job.entry = newEntry f rq.entryId t := by
  cases hm : kv.get t (.mailbox f.mailboxId.lower) with
  | none =>
    rw [sendMailbox_run_none kv log rq f hm] at hrun
    cases hrun
    exact Or.inl hjob
  | some m =>
    cases hroom : env.cfg.maxMessages.le
      (.ofInt (m.cleared env.cfg.ttlSeconds t).messages.length) with
    | true =>
      rw [sendMailbox_run_full kv log rq f hm hroom] at hrun
      cases hrun
      exact Or.inl hjob
    | false =>
      simp only [sendMailbox, kvGet, dateNow, Prog.bind_eq, Prog.perform_bind, KvOp.run_get, hm] at hrun
      rw [Prog.run_bind_some (clearStale_run kv log m), if_neg (by simp [hroom]), KvOp.run_now,
        Prog.run_bind_some (pushEntry_run kv log _ _)] at hrun
      cases hlife : env.cfg.mailboxTtlSeconds.toInt? with
      | none =>
        rw [putMailbox_crash hlife, Prog.throw_bind] at hrun
        cases hrun
        exact Or.inl hjob
      | some life =>
        rw [Prog.run_bind_some (putMailbox_run kv log hlife _ _)] at hrun
        obtain ⟨log', hfan, hjobs⟩ := fanOut_jobs _ log env t f.mailboxId.lower
          (newEntry f rq.entryId t)
          ((m.cleared env.cfg.ttlSeconds t).pushed (newEntry f rq.entryId t) t).replicaShardUrls
        rw [Prog.run_bind_some hfan] at hrun
        obtain ⟨r, s, hrespond, hstatus, hquiet⟩ := respond_jobs _ log' env t rq.freshIdentity
          f.requestId (.sent ((m.cleared env.cfg.ttlSeconds t).pushed
            (newEntry f rq.entryId t) t).messages.length)
        rw [hrespond] at hrun
        cases hrun
        rw [hquiet] at hjob
        exact (hjobs job hjob).imp_right fun hentry => ⟨⟨r, rfl, hstatus⟩, hentry⟩

end

section
variable {env : Env} {t : ℕ} {kv : Kv}

/-- **The jobs of a send.** -/
theorem send_scheduled {rq : SendRequest} {job : FanOut} (h : job ∈ scheduled env t (.send rq) kv) :
    (handle env t (.send rq) kv).1.status = 200 ∧ ∃ f, job.entry = newEntry f rq.entryId t := by
  unfold scheduled at h
  unfold handle runAt
  dsimp only [fetch] at h ⊢
  unfold handleSend at h ⊢
  cases hf : sendFields env rq.body with
  | error e =>
    rw [hf] at h
    cases e <;> exact absurd h List.not_mem_nil
  | ok f =>
    rw [hf] at h
    have hquiet := (sendGate_jobless env rq.ip f).run env.crypto t (kv, [])
    unfold guarded gated at h ⊢
    dsimp only at h ⊢
    rw [Prog.bind_eq, Prog.run_bind] at h ⊢
    rcases hgate : (sendGate env rq.ip f).run (KvOp.exec t (services env.crypto)) (kv, [])
      with ⟨_ | _ | r, kv₁, log₁⟩
    · rw [hgate] at h hquiet
      exact absurd (hquiet ▸ h) List.not_mem_nil
    · rw [hgate] at h hquiet
      rcases hact : (sendMailbox env rq f).run (KvOp.exec t (services env.crypto)) (kv₁, log₁)
        with ⟨o, s'⟩
      dsimp only at h ⊢
      rw [hact] at h ⊢
      rcases sendMailbox_jobs kv₁ log₁ rq f hact h with hbefore | ⟨⟨r, rfl, hstatus⟩, hentry⟩
      · exact absurd (hquiet ▸ hbefore) List.not_mem_nil
      · exact ⟨hstatus, f, hentry⟩
    · rw [hgate] at h hquiet
      exact absurd (hquiet ▸ h) List.not_mem_nil

end

/-! ## The pushes of a job -/

/-- The pushes are added to the calls that were made before. -/
theorem forM_post (c : Crypto) (t : ℕ) {body : Json} {f : Json → M Unit}
    (hf : ∀ u, (∃ url, f u = post url body) ∨ f u = .throw) (us : List Json) :
    ∀ (kv : Kv) (log : List Service), ∃ posts,
      ((us.forM f).run (KvOp.exec t (services c)) (kv, log)).2 = (kv, log ++ posts) ∧
        ∀ s ∈ posts, ∃ url, s = Service.post url body := by
  induction us with
  | nil => exact fun kv log => ⟨[], by rw [List.append_nil]; rfl, by simp⟩
  | cons u us ih =>
    intro kv log
    have hcons : (u :: us).forM f = (f u).bind fun _ => us.forM f := rfl
    rw [hcons]
    rcases hf u with ⟨url, hu⟩ | hu
    · obtain ⟨posts, hrun, hposts⟩ := ih kv (log ++ [.post url body])
      rw [hu]
      refine ⟨.post url body :: posts, ?_, fun s hs => ?_⟩
      · exact Eq.trans rfl (hrun.trans (by rw [List.append_assoc]; rfl))
      · rcases List.mem_cons.1 hs with rfl | hs
        · exact ⟨url, rfl⟩
        · exact hposts s hs
    · rw [hu]
      exact ⟨[], by rw [List.append_nil]; rfl, by simp⟩

theorem ensureShardIdentity_value (c : Crypto) (t : ℕ) (kv : Kv) (log : List Service)
    (fresh : Identity) :
    ∃ kv', (ensureShardIdentity fresh).run (KvOp.exec t (services c)) (kv, log) =
        (some ((kv.get t .shardIdentity).getD fresh), (kv', log)) ∧ SameMailboxes kv kv' := by
  simp only [ensureShardIdentity, kvGet, Prog.bind_eq, Prog.perform_bind, KvOp.run_get]
  cases kv.get t .shardIdentity with
  | some identity => exact ⟨kv, rfl, fun _ => rfl⟩
  | none =>
    refine ⟨_, rfl, fun id => ?_⟩
    exact Store.put_other kv t (by simp : Key.mailbox id ≠ .shardIdentity) fresh none

/-- The text that a push signs. -/
def copyText (job : FanOut) (identity : Identity) (t : ℕ) : JString :=
  (Json.obj (replicatePayload job identity.publicKeyHex (Number.ofInt t).text)).stringify

/-- The body of a push. -/
def signedCopy (c : Crypto) (job : FanOut) (identity : Identity) (t : ℕ) : Json :=
  .obj (replicatePayload job identity.publicKeyHex (Number.ofInt t).text ++ [(js "signature",
    .str (c.signHex identity.privateKeyPkcs8Base64 (js "replicate:" ++ copyText job identity t)))])

/-- **The run of a job**: nothing, or a signature and then the pushes. -/
theorem replicateToSiblings_run (env : Env) (t : ℕ) (fresh : Identity) (job : FanOut) (kv : Kv) :
    ∃ kv' log, ((replicateToSiblings env fresh job).run (KvOp.exec t (services env.crypto))
        (kv, [])).2 = (kv', log) ∧ SameMailboxes kv kv' ∧
      (log = [] ∨ ∃ identity posts, identity = (kv.get t .shardIdentity).getD fresh ∧
        log = .sign identity.privateKeyPkcs8Base64
          (js "replicate:" ++ copyText job identity t) :: posts ∧
        ∀ s ∈ posts, ∃ url, s = .post url (signedCopy env.crypto job identity t)) := by
  unfold replicateToSiblings
  dsimp only
  split
  · exact ⟨kv, [], rfl, fun _ => rfl, Or.inl rfl⟩
  · obtain ⟨kv', hrun, hsame⟩ := ensureShardIdentity_value env.crypto t kv [] fresh
    set identity := (kv.get t .shardIdentity).getD fresh with hidentity
    rw [Prog.bind_eq, Prog.run_bind_some hrun]
    simp only [dateNow, Prog.bind_eq, Prog.perform_bind, KvOp.run_now]
    have hsign : (signWithShardKey identity.privateKeyPkcs8Base64
        (js "replicate:" ++ copyText job identity t)).run (KvOp.exec t (services env.crypto)) (kv', []) =
          (some (env.crypto.signHex identity.privateKeyPkcs8Base64
            (js "replicate:" ++ copyText job identity t)),
          (kv', [.sign identity.privateKeyPkcs8Base64
            (js "replicate:" ++ copyText job identity t)])) := rfl
    have hloop {f : Json → M Unit} {us : List Json} (hf : ∀ u,
        (∃ url, f u = post url (signedCopy env.crypto job identity t)) ∨ f u = .throw) :
        ∃ posts, ((us.forM f).run (KvOp.exec t (services env.crypto)) (kv',
          [.sign identity.privateKeyPkcs8Base64 (js "replicate:" ++ copyText job identity t)])).2 =
            (kv', .sign identity.privateKeyPkcs8Base64
              (js "replicate:" ++ copyText job identity t) :: posts) ∧
          ∀ s ∈ posts, ∃ url, s = .post url (signedCopy env.crypto job identity t) :=
      forM_post env.crypto t hf us kv' _
    change ∃ kv₁ log, (((signWithShardKey identity.privateKeyPkcs8Base64
      (js "replicate:" ++ copyText job identity t)).bind _).run _ (kv', [])).2 = (kv₁, log) ∧ _
    rw [Prog.run_bind_some hsign]
    refine (hloop fun u => ?_).elim fun posts h =>
      ⟨kv', _, h.1, hsame, Or.inr ⟨identity, posts, hidentity, rfl, h.2⟩⟩
    cases u.toStr with
    | some url => exact Or.inl ⟨_, rfl⟩
    | none => exact Or.inr rfl

/-- **A job changes no mailbox.** -/
theorem runJob_same (env : Env) (t : ℕ) (fresh : Identity) (job : FanOut) (kv : Kv) :
    SameMailboxes kv (runJob env t fresh job kv).2 := by
  obtain ⟨kv', log, hrun, hsame, -⟩ := replicateToSiblings_run env t fresh job kv
  unfold runJob
  dsimp only
  rw [hrun]
  exact hsame

/-- **A job pushes signed copies of its entry.** -/
theorem runJob_pushes {env : Env} {t : ℕ} {fresh : Identity} {job : FanOut} {kv : Kv} {url : JString}
    {body : Json} (h : (url, body) ∈ (runJob env t fresh job kv).1) :
    body = signedCopy env.crypto job ((kv.get t .shardIdentity).getD fresh) t := by
  obtain ⟨kv', log, hrun, -, hlog⟩ := replicateToSiblings_run env t fresh job kv
  unfold runJob at h
  dsimp only at h
  rw [hrun] at h
  obtain ⟨s, hs, hpost⟩ := List.mem_filterMap.1 h
  rcases hlog with rfl | ⟨identity, posts, rfl, rfl, hall⟩
  · cases hs
  · rcases List.mem_cons.1 hs with rfl | hs
    · cases hpost
    · obtain ⟨url', rfl⟩ := hall s hs
      cases hpost
      rfl

theorem entryField_eq (e : Entry) : entryField (some e.json) = some e := by
  have hid := e.hasId
  have hmessage := e.hasMessage
  unfold entryField
  rw [Option.bind_some]
  split
  · next id message hid' hmessage' =>
    obtain rfl : e.id = id := by simpa using hid.symm.trans hid'
    obtain rfl : e.message = message := by simpa using hmessage.symm.trans hmessage'
    rfl
  · next hno => exact absurd hmessage (hno _ _ hid)

theorem copyKeys_named : ∀ k ∈ [js "mailbox_id", js "entry", js "replica_shard_urls",
    js "origin_shard_pubkey", js "timestamp", js "signature"], Json.isIndex k = false := by decide

/-- **The entry of a push** is the one of the job. -/
theorem signedCopy_entry {c : Crypto} {job : FanOut} {identity : Identity} {t : ℕ}
    {f : ReplicateFields} (h : replicateFields (some (signedCopy c job identity t).canon) = .ok f) :
    f.entry.json = job.entry.json.canon := by
  have hfield : (signedCopy c job identity t).canon.field (js "entry") = some job.entry.json.canon := by
    rw [signedCopy, Json.canon_named fun p hp => copyKeys_named p.1 (List.mem_map_of_mem hp)]
    rfl
  simp only [replicateFields, Check.orAnswer_bind] at h
  obtain ⟨v, hv, id, hid, e, he, h⟩ := h
  obtain ⟨_, _, h⟩ := Check.bind_eq_ok.1 h
  obtain ⟨_, _, h⟩ := Check.bind_eq_ok.1 h
  obtain ⟨_, _, h⟩ := Check.bind_eq_ok.1 h
  cases h
  cases hv
  rw [hfield] at he
  unfold entryField at he
  rw [Option.bind_some] at he
  split at he
  · cases he
    rfl
  · cases he

end Shard
