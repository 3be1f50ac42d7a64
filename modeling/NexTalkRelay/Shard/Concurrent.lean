/-
  Requests that run at the same time.

  A mailbox handler gets the whole record, changes it and puts it back, and
  between the two another handler may do the same.

  * `Hold` is what a process knows of one mailbox: the record that it got, the
    instant at which it looked whether the backlog is stale, and what became of
    the entries when it wrote the record back;
  * `fetch_obeys`: what a handler writes is the queue that it got, without a
    stale backlog, with at most one entry more, or empty, and then the answer
    hands out what was in it;
  * `Conserved` says that no accepted message is lost and none is handed out
    twice, and `deliveries_conserved` that this holds as long as every write
    still finds the queue that its process got and adds no entry that has
    been handed out.
-/
import NexTalkRelay.Lib.Commit
import NexTalkRelay.Shard.Faults
import NexTalkRelay.Shard.Queue

open Effect Js Runs

namespace Shard

/-! ## What a process knows -/

/-- `isBacklogStale` at an instant. -/
def Mailbox.stale (m : Mailbox) (ttlSeconds : Number) (t : ℕ) : Bool :=
  match m.messagesEnqueuedAt with
  | none => false
  | some u => ttlSeconds.le (.ofInt (((t : ℤ) - u) / 1000))

/-- What a process knows of a mailbox: the record it got, the first instant it read off the
    clock since, the entries it wrote, and those it took out of the record, to hand them out
    or because the backlog was stale. -/
structure Hold where
  got : Option Mailbox := none
  clock : Option ℕ := none
  written : List Entry := []
  taken : List Entry := []
  cleared : List Entry := []

namespace Hold

variable (env : Env)

/-- The queue that the process got. -/
def queue (m : Hold) : List Entry :=
  match m.got with
  | some stored => stored.messages
  | none => []

/-- The backlog was stale when the process looked. -/
def stale (m : Hold) : Bool :=
  match m.got, m.clock with
  | some stored, some t => stored.stale env.cfg.ttlSeconds t
  | _, _ => false

/-- The queue without a stale backlog. -/
def kept (m : Hold) : List Entry := if m.stale env then [] else m.queue

/-- The record is written with these entries. -/
def write (m : Hold) (messages : List Entry) : Hold :=
  { m with
    written := messages
    taken := m.taken ++ if messages.isEmpty then m.kept env else []
    cleared := m.cleared ++ if m.stale env then m.queue else [] }

/-- What is known after an operation. -/
def note (id : JString) (m : Hold) (o : KvOp Key Val Service) (r : KvOp.Res Service.Res o) : Hold :=
  match o, r with
  | .get (.mailbox id'), found => if id' = id then { m with got := found, clock := none } else m
  | .now, t => if m.clock.isNone then { m with clock := some t } else m
  | .put (.mailbox id') stored _, _ => if id' = id then m.write env stored.messages else m
  | _, _ => m

end Hold

/-- The answer hands the entry out. -/
def HandsOut (e : Entry) (a : Response) : Prop := a.status = 200 ∧ e ∈ a.consumed

section
variable (env : Env) (id : JString)

/-- What a handler may write over what it got, and how it goes on then. -/
structure Rewrite (m : Hold) (messages : List Entry) (next : M Response) : Prop where
  queue : messages = m.kept env ∨ (∃ e, messages = m.kept env ++ [e]) ∨ messages = []
  handsOut : messages = [] → ∀ e ∈ m.kept env, next.Sure (HandsOut e)

/-- The rules of an operation on the mailbox `id`. -/
def Ruled (m : Hold) (o : KvOp Key Val Service) (k : KvOp.Res Service.Res o → M Response) : Prop :=
  match o, k with
  | .put (.mailbox id') stored _, k => id' = id → Rewrite env m stored.messages (k ())
  | .delete (.mailbox id'), _ => id' ≠ id
  | _, _ => True

/-- What an answer says: a consuming read has taken what it hands out, and a successful send
    has written its entry. -/
structure Says (rq : Request) (m : Hold) (a : Response) : Prop where
  taken : rq.target = some id → ∀ e ∈ a.consumed, e ∈ m.taken
  written : ∀ srq f, rq = .send srq → sendFields env srq.body = .ok f → f.mailboxId.lower = id →
    a.status = 200 → ∃ time, newEntry f srq.entryId time ∈ m.written

/-- The program obeys the rules of the request. -/
abbrev Behaves (rq : Request) (p : M Response) (m : Hold) : Prop :=
  p.Obeys (Hold.note env id) (Ruled env id) (Says env id rq) m

end

theorem Rewrite.keep {env : Env} {m : Hold} {messages : List Entry} {next : M Response}
    (h : messages = m.kept env) : Rewrite env m messages next where
  queue := Or.inl h
  handsOut hnil e he := by rw [← h, hnil] at he; cases he

theorem Rewrite.add {env : Env} {m : Hold} {messages : List Entry} {next : M Response} {e : Entry}
    (h : messages = m.kept env ++ [e]) : Rewrite env m messages next where
  queue := Or.inr (Or.inl ⟨e, h⟩)
  handsOut hnil := by rw [h] at hnil; simp at hnil

/-- An entry of the queue is written again, or taken out. -/
theorem Rewrite.disposed {env : Env} {m : Hold} {messages : List Entry} {next : M Response}
    (h : Rewrite env m messages next) {e : Entry} (he : e ∈ m.queue) :
    e ∈ messages ∨ e ∈ (m.write env messages).taken ∨ e ∈ (m.write env messages).cleared := by
  unfold Hold.write
  dsimp only
  cases hstale : m.stale env with
  | true => exact Or.inr (Or.inr (List.mem_append_right _ (by simpa using he)))
  | false =>
    have hkept : e ∈ m.kept env := by
      rw [Hold.kept, hstale]
      exact he
    rcases h.queue with heq | ⟨_, heq⟩ | heq
    · exact Or.inl (by rw [heq]; exact hkept)
    · exact Or.inl (by rw [heq]; exact List.mem_append_left _ hkept)
    · exact Or.inr (Or.inl (List.mem_append_right _ (by rw [heq]; exact hkept)))

/-! ## Beginnings and ends -/

section
variable {env : Env} {id : JString} {rq : Request}

/-- An answer that hands out nothing and accepts nothing. -/
theorem says_idle {m : Hold} {a : Response} (hconsumed : a.consumed = [])
    (haccepts : a.status = 200 → ∀ srq, rq ≠ .send srq) : Says env id rq m a where
  taken _ e he := by rw [hconsumed] at he; cases he
  written srq _ hrq _ _ h := absurd hrq (haccepts h srq)

/-- Only the answer of a mailbox counts that the request is addressed to. -/
theorem says_elsewhere {m : Hold} {a : Response} (htarget : rq.target ≠ some id) :
    Says env id rq m a where
  taken h := absurd h htarget
  written srq f hrq hf hid _ := by
    subst hrq
    exact absurd ((sendFields_target hf).trans (congrArg some hid)) htarget

theorem says_refusal {m : Hold} {r : Response} (hr : r.Refusal) : Says env id rq m r := by
  obtain ⟨hstatus, message, hbody⟩ := hr
  refine says_idle ?_ fun h => absurd h hstatus
  rw [Response.consumed, hbody]

theorem ruled_spares {m : Hold} {o : KvOp Key Val Service} {k : KvOp.Res Service.Res o → M Response}
    (ho : o.Spares (.mailbox id)) : Ruled env id m o k := by
  unfold Ruled
  split
  · rintro rfl
    exact absurd rfl ho
  · rintro rfl
    exact absurd rfl ho
  · trivial

/-- A program that leaves the record alone. -/
theorem behaves_spares {p : M Response} (hp : p.Only (KvOp.Spares (.mailbox id)))
    (htarget : rq.target ≠ some id) (m : Hold) : Behaves env id rq p m :=
  hp.obeys (I := fun _ => True) (Prog.post_true _) (fun _ _ _ ho _ => ruled_spares ho)
    (fun _ _ _ _ _ => trivial) (fun _ _ _ _ => says_elsewhere htarget) trivial

/-- **A request is refused, or its action behaves.** -/
theorem guarded_behaves {α : Type} {c : Check Response α} {gate : α → M Verdict}
    {act : α → M Response} (hc : c.Answers Response.Refusal)
    (hg : ∀ a, (gate a).Only (KvOp.Writes Gate))
    (hq : ∀ a, (gate a).Post fun v => ∀ r ∈ v, r.Refusal)
    (hact : ∀ a, c = .ok a → ∀ m, Behaves env id rq (act a) m) (m : Hold) :
    Behaves env id rq (guarded c fun a => gated (gate a) (act a)) m := by
  cases hca : c with
  | error e =>
    cases e with
    | answer r => exact says_refusal (hc r hca)
    | crash => trivial
  | ok a =>
    have hspares : (gate a).Only (KvOp.Spares (.mailbox id)) := by
      refine Prog.Only.mono (fun o ho => KvOp.Writes.mono ?_ ho) (hg a)
      rintro k hk rfl
      exact hk
    refine hspares.obeys_bind (I := fun _ => True) (hq a) (fun _ _ _ ho _ => ruled_spares ho)
      (fun _ _ _ _ _ => trivial) (fun m v _ hv => ?_) trivial
    cases v with
    | some r => exact says_refusal (hv r rfl)
    | none => exact hact a hca m

/-- Only a write of the record changes what became of the entries. -/
theorem note_spares (env : Env) (m : Hold) {o : KvOp Key Val Service}
    (ho : o.Spares (.mailbox id)) (r : KvOp.Res Service.Res o) :
    (m.note env id o r).written = m.written ∧ (m.note env id o r).taken = m.taken ∧
      (m.note env id o r).cleared = m.cleared := by
  unfold Hold.note
  split
  · split <;> exact ⟨rfl, rfl, rfl⟩
  · split <;> exact ⟨rfl, rfl, rfl⟩
  · split
    · next h => exact absurd (congrArg Key.mailbox h) ho
    · exact ⟨rfl, rfl, rfl⟩
  · exact ⟨rfl, rfl, rfl⟩

/-- An end that leaves the record alone. -/
theorem behaves_end {p : M Response} {Q : Response → Prop}
    (hp : p.Only (KvOp.Spares (.mailbox id))) (hq : p.Post Q)
    {m : Hold} (hanswer : ∀ m' : Hold, m'.written = m.written → m'.taken = m.taken →
      ∀ a, Q a → Says env id rq m' a) : Behaves env id rq p m := by
  refine hp.obeys (I := fun m' => m'.written = m.written ∧ m'.taken = m.taken) hq
    (fun _ _ _ ho _ => ruled_spares ho) (fun m' o r ho hm => ?_) (fun m' a hm hq => ?_) ⟨rfl, rfl⟩
  · obtain ⟨hwritten, htaken, -⟩ := note_spares env m' ho r
    exact ⟨hwritten.trans hm.1, htaken.trans hm.2⟩
  · exact hanswer m' hm.1 hm.2 a hq

/-- The body is answered, signed or not. -/
theorem respond_body (fresh : Identity) (requestId : Option JString) (body : Payload) :
    (respond env fresh requestId body).Post fun a => a.status = 200 ∧ a.body = body := by
  unfold respond
  split
  · exact (Prog.post_true _).bind fun identity _ => fun now => fun signature => ⟨rfl, rfl⟩
  · exact ⟨rfl, rfl⟩

/-! ## Between the record and its change -/

/-- The process has looked at the backlog, if there is one, and keeps `l`. -/
structure Ready (env : Env) (l : List Entry) (m : Hold) : Prop where
  kept : m.kept env = l
  looked : m.clock = none → ∀ stored, m.got = some stored → stored.messagesEnqueuedAt = none

theorem note_now {m : Hold} (hclock : m.clock = none) (t : ℕ) :
    m.note env id .now t = { m with clock := some t } := by
  unfold Hold.note
  dsimp only
  rw [hclock]
  rfl

theorem Ready.now {l : List Entry} {m : Hold} (h : Ready env l m) (id : JString) (t : ℕ) :
    Ready env l (m.note env id .now t) := by
  cases hclock : m.clock with
  | some u =>
    have hm : m.note env id .now t = m := by
      simp [Hold.note, hclock]
    rw [hm]
    exact h
  | none =>
    rw [note_now hclock]
    refine ⟨?_, fun hnone => by cases hnone⟩
    rw [← h.kept]
    simp only [Hold.kept, Hold.stale, Hold.queue, hclock]
    cases hgot : m.got with
    | none => rfl
    | some stored => simp only [Mailbox.stale, h.looked hclock stored hgot]

theorem clearStale_behaves {stored : Mailbox} {m : Hold} (hgot : m.got = some stored)
    (hclock : m.clock = none) {f : Mailbox → M Response}
    (hf : ∀ b m', Ready env b.messages m' → Behaves env id rq (f b) m') :
    Behaves env id rq ((clearStale env stored).bind f) m := by
  unfold clearStale isBacklogStale
  cases hsince : stored.messagesEnqueuedAt with
  | none =>
    refine hf stored m ⟨?_, fun _ other hother => ?_⟩
    · simp only [Hold.kept, Hold.stale, Hold.queue, hgot, hclock]
      rfl
    · obtain rfl := Option.some.inj (hgot.symm.trans hother)
      exact hsince
  | some u =>
    refine ⟨trivial, fun t => ?_⟩
    have hstale : Hold.stale env { m with clock := some t } =
        env.cfg.ttlSeconds.le (.ofInt (((t : ℤ) - u) / 1000)) := by
      simp [Hold.stale, hgot, Mailbox.stale, hsince]
    rw [note_now hclock]
    dsimp only [Prog.bind_eq, Prog.ret_bind, Prog.pure_eq]
    split
    · next h =>
      refine hf _ _ ⟨?_, fun hnone => by cases hnone⟩
      rw [Hold.kept, hstale, if_pos h]
    · next h =>
      refine hf _ _ ⟨?_, fun hnone => by cases hnone⟩
      rw [Hold.kept, hstale, if_neg h]
      simp only [Hold.queue, hgot]

theorem pushEntry_behaves {stored : Mailbox} {m : Hold} (e : Entry) {l : List Entry}
    (hm : stored.messagesEnqueuedAt = none → Ready env l m) (hkept : m.kept env = l)
    {f : Mailbox → M Response}
    (hf : ∀ b m', b.messages = stored.messages ++ [e] → m'.kept env = l →
      Behaves env id rq (f b) m') :
    Behaves env id rq ((pushEntry stored e).bind f) m := by
  unfold pushEntry
  dsimp only
  cases hsince : stored.messagesEnqueuedAt with
  | some u => exact hf _ m rfl hkept
  | none => exact ⟨trivial, fun t => hf _ _ rfl ((hm hsince).now id t).kept⟩

/-- The record is written, and the program goes on. -/
theorem putMailbox_behaves {stored : Mailbox} {m : Hold} {next : M Response}
    (hrewrite : Rewrite env m stored.messages next)
    (hnext : Behaves env id rq next (m.write env stored.messages)) :
    Behaves env id rq ((putMailbox env id stored).bind fun _ => next) m := by
  unfold putMailbox kvPut
  split
  · next life _ =>
    refine ⟨fun _ => hrewrite, fun r => ?_⟩
    have hm : m.note env id (.put (.mailbox id) stored (some life)) r =
        m.write env stored.messages := if_pos rfl
    rw [hm]
    exact hnext
  · trivial

/-! ## The handlers -/

theorem note_get (m : Hold) (found : Option Mailbox) :
    m.note env id (.get (.mailbox id)) found = { m with got := found, clock := none } := if_pos rfl

theorem createMailbox_behaves {f : CreateFields} (hid : f.mailboxId.lower = id)
    (hrq : ∀ srq, rq ≠ .send srq) (m : Hold) : Behaves env id rq (createMailbox env f) m := by
  subst hid
  refine ⟨trivial, fun found => ?_⟩
  rw [note_get]
  cases found with
  | some stored => exact putMailbox_behaves (.keep rfl) (says_idle rfl fun _ => hrq)
  | none =>
    refine ⟨trivial, fun now => ?_⟩
    rw [note_now rfl]
    exact putMailbox_behaves (.keep rfl) (says_idle rfl fun _ => hrq)

theorem replicateInto_behaves {f : ReplicateFields} (hid : f.mailboxId.lower = id)
    (hrq : ∀ srq, rq ≠ .send srq) {stored : Mailbox} {m : Hold}
    (hm : stored.messagesEnqueuedAt = none → Ready env stored.messages m)
    (hkept : m.kept env = stored.messages) : Behaves env id rq (replicateInto env f stored) m := by
  subst hid
  unfold replicateInto
  split
  · exact says_idle rfl fun _ => hrq
  · refine pushEntry_behaves f.entry hm hkept fun b m' hb hm' => ?_
    exact putMailbox_behaves (.add (hb.trans (congrArg (· ++ [f.entry]) hm'.symm)))
      (says_idle rfl fun _ => hrq)

theorem replicateMailbox_behaves {f : ReplicateFields} (hid : f.mailboxId.lower = id)
    (hrq : ∀ srq, rq ≠ .send srq) (m : Hold) : Behaves env id rq (replicateMailbox env f) m := by
  subst hid
  refine ⟨trivial, fun found => ?_⟩
  rw [note_get]
  cases found with
  | some stored =>
    refine replicateInto_behaves rfl hrq (fun hnone => ⟨rfl, fun _ other hother => ?_⟩) rfl
    obtain rfl := Option.some.inj hother
    exact hnone
  | none =>
    refine ⟨trivial, fun now => ?_⟩
    rw [note_now rfl]
    exact replicateInto_behaves rfl hrq (fun _ => ⟨rfl, fun hnone => by cases hnone⟩) rfl

theorem sendMailbox_behaves {srq : SendRequest} {f : SendFields}
    (hf : sendFields env srq.body = .ok f) (hid : f.mailboxId.lower = id) (m : Hold) :
    Behaves env id (.send srq) (sendMailbox env srq f) m := by
  subst hid
  refine ⟨trivial, fun found => ?_⟩
  rw [note_get]
  cases found with
  | none => exact says_idle rfl (by simp [err])
  | some stored =>
    refine clearStale_behaves rfl rfl fun b m₁ h₁ => ?_
    split
    · exact says_idle rfl (by simp [err])
    · refine ⟨trivial, fun time => ?_⟩
      have h₂ := h₁.now f.mailboxId.lower time
      refine pushEntry_behaves _ (fun _ => h₂) h₂.kept fun b' m₃ hb h₃ => ?_
      refine putMailbox_behaves (.add (hb.trans (congrArg (· ++ [_]) h₃.symm))) ?_
      refine behaves_end ((fanOut_writes _ _ _).bind fun _ => respond_writes _ (by simp) _ _ _)
        ((Prog.post_true _).bind fun _ _ => respond_body _ _ _) fun m₄ hwritten _ a ha => ?_
      refine ⟨fun _ e he => ?_, fun srq' f' heq hf' _ _ => ⟨time, ?_⟩⟩
      · rw [Response.consumed, ha.2] at he
        cases he
      · obtain rfl := Request.send.inj heq
        obtain rfl := Except.ok.inj (hf.symm.trans hf')
        rw [hwritten]
        show _ ∈ b'.messages
        rw [hb]
        exact List.mem_append_right _ (List.mem_singleton.2 rfl)

theorem readMailbox_behaves {rrq : ReadRequest} {f : ReadFields} (hid : f.mailboxId.lower = id)
    (m : Hold) : Behaves env id (.read rrq) (readMailbox env rrq f) m := by
  subst hid
  refine ⟨trivial, fun found => ?_⟩
  rw [note_get]
  cases found with
  | none => exact says_idle rfl (by simp [err])
  | some stored =>
    dsimp only [Prog.bind_eq, Prog.ret_bind]
    split
    · exact says_idle rfl (by simp [err])
    · refine clearStale_behaves rfl rfl fun b m₁ h₁ => ?_
      have hquiet (body : Payload) : (respond env rrq.freshIdentity f.requestId body).Only
          (KvOp.Spares (.mailbox f.mailboxId.lower)) := respond_writes _ (by simp) _ _ _
      cases hpeek : f.peek with
      | true =>
        refine putMailbox_behaves (.keep h₁.kept.symm) ?_
        refine behaves_end (hquiet _) (respond_body _ _ _) fun m₂ _ _ a ha => says_idle ?_ (by simp)
        rw [Response.consumed, ha.2]
        rfl
      | false =>
        refine putMailbox_behaves ⟨Or.inr (Or.inr rfl), fun _ e he => ?_⟩ ?_
        · rw [h₁.kept] at he
          refine Prog.sure_of_returns (respond_returns _ _ _ _) (respond_body _ _ _) fun a ha =>
            ⟨ha.1, ?_⟩
          rw [Response.consumed, ha.2]
          exact he
        · refine behaves_end (hquiet _) (respond_body _ _ _) fun m₂ _ htaken a ha => ⟨?_, ?_⟩
          · rintro - e he
            rw [Response.consumed, ha.2] at he
            rw [htaken]
            refine List.mem_append_right _ ?_
            rw [h₁.kept]
            exact he
          · simp

/-- A part of a handler that writes its own mailbox. -/
theorem own_behaves {p : M Response} {id' : JString} (hp : p.Only (KvOp.Writes (Own id')))
    (htarget : rq.target = some id') (hown : id' = id → ∀ m, Behaves env id rq p m) (m : Hold) :
    Behaves env id rq p m := by
  by_cases hid : id' = id
  · exact hown hid m
  · refine behaves_spares (Prog.Only.mono (fun o ho => KvOp.Writes.mono ?_ ho) hp) ?_ m
    · rintro k hk rfl
      exact hid hk.symm
    · rw [htarget]
      exact fun h => hid (Option.some.inj h)

/-- **Every handler behaves.** -/
theorem fetch_behaves (env : Env) (id : JString) (rq : Request) (m : Hold) :
    Behaves env id rq (fetch env rq) m := by
  cases rq with
  | create rq =>
    refine guarded_behaves (createFields_answers refusal_bad rq.body) (createGate_writes env rq.ip)
      (createGate_post env rq.ip) (fun f hf => ?_) m
    exact own_behaves (createMailbox_writes env f) (createFields_target hf) fun hid =>
      createMailbox_behaves hid (by simp)
  | exists_ rq =>
    refine guarded_behaves (existsFields_answers refusal_bad rq) (fun _ => existsGate_writes rq.ip)
      (fun _ => existsGate_post rq.ip) (fun f _ m => ?_) m
    refine ⟨trivial, fun found => ?_⟩
    cases found <;> exact says_idle rfl (by simp)
  | send rq =>
    refine guarded_behaves (sendFields_answers refusal_bad env rq.body) (sendGate_writes env rq.ip)
      (sendGate_post env rq.ip) (fun f hf => ?_) m
    exact own_behaves (sendMailbox_writes env rq f) (sendFields_target hf) fun hid =>
      sendMailbox_behaves hf hid
  | read rq =>
    refine guarded_behaves (readFields_answers refusal_bad rq) (fun _ => readGate_writes rq.ip)
      (fun _ => readGate_post rq.ip) (fun f hf => ?_) m
    exact own_behaves (readMailbox_writes env rq f) (readFields_target hf) fun hid =>
      readMailbox_behaves hid
  | replicate rq =>
    refine guarded_behaves (replicateFields_answers refusal_bad rq.body) (replicateGate_writes env)
      (replicateGate_post env) (fun f hf => ?_) m
    exact own_behaves (replicateMailbox_writes env f) (replicateFields_target hf) fun hid =>
      replicateMailbox_behaves hid (by simp)
  | routingTablePush body =>
    refine behaves_spares ?_ (by simp [Request.target]) m
    unfold fetch
    dsimp only
    rw [handleRoutingTablePush_eq]
    refine guarded_only fun p _ => Prog.Only.mono (fun o ho => KvOp.Writes.mono ?_ ho)
      (cacheTable_writes p)
    rintro k rfl
    simp
  | routingTableServe =>
    refine behaves_spares ?_ (by simp [Request.target]) m
    refine ⟨trivial, fun found => ?_⟩
    cases found <;> trivial

end

/-! ## Processes on one store -/

/-- A shard that answers requests at the same time. -/
abbrev Crowd (ι : Type) := Pool ι (KvOp Key Val Service) (KvOp.Res Service.Res) Response
  (Kv × List Service) Hold

section
variable {ι : Type} (env : Env) (id : JString)

/-- The requests, sent to a shard with the store `kv`. -/
def crowd (kv : Kv) (requests : ι → Request) : Crowd ι :=
  Pool.start (kv, []) (fun i => fetch env (requests i)) {}

/-- One operation of one process, at an instant. -/
def crowdStep [DecidableEq ι] (e : ι × ℕ) (P : Crowd ι) : Crowd ι :=
  Pool.step (Hold.note env id) (fun t => KvOp.exec t (services env.crypto)) e P

/-- A process that writes the record still finds the queue that it got, and an entry that it
    adds has no id that a consuming read has taken out. -/
def InTurn (P : Crowd ι) (e : ι × ℕ) : Prop :=
  ∀ stored ttl, (P.prog e.1).next = some (.put (.mailbox id) stored ttl) →
    queue P.shared.1 id = (P.memory e.1).queue ∧
      ∀ new ∈ stored.messages, new ∉ queue P.shared.1 id →
        ∀ j, ∀ old ∈ (P.memory j).taken, old.id ≠ new.id

/-- An entry that is accounted for: it is in the stored record, or the answer of a consuming
    read hands it out, or it was cleared with a stale backlog. -/
def Accounted (t : ℕ) (P : Crowd ι) (e : Entry) : Prop :=
  (∃ stored, P.shared.1.get t (.mailbox id) = some stored ∧ e ∈ stored.messages) ∨
    (∃ j, (P.prog j).Sure (HandsOut e)) ∨ ∃ j, e ∈ (P.memory j).cleared

/-- **Nothing is lost, and nothing is delivered twice**, at an instant. -/
structure Conserved (requests : ι → Request) (t : ℕ) (P : Crowd ι) : Prop where
  accounted : ∀ i srq f a, requests i = .send srq → sendFields env srq.body = .ok f →
    f.mailboxId.lower = id → (P.prog i).value = some a → a.status = 200 →
      ∃ time, Accounted id t P (newEntry f srq.entryId time)
  once : ∀ i j a b, i ≠ j → (requests i).target = some id → (requests j).target = some id →
    (P.prog i).value = some a → (P.prog j).value = some b →
      ∀ e ∈ a.consumed, ∀ e' ∈ b.consumed, e.id ≠ e'.id

/-- The entries that were taken out are handed out, once, and every entry that was ever written
    is accounted for. -/
structure Careful (P : Crowd ι) : Prop where
  sure : ∀ i, ∀ e ∈ (P.memory i).taken, (P.prog i).Sure (HandsOut e)
  gone : ∀ i, ∀ e ∈ (P.memory i).taken, ∀ e' ∈ queue P.shared.1 id, e.id ≠ e'.id
  apart : ∀ i j, i ≠ j → ∀ e ∈ (P.memory i).taken, ∀ e' ∈ (P.memory j).taken, e.id ≠ e'.id
  accounted : ∀ i, ∀ e ∈ (P.memory i).written, e ∈ queue P.shared.1 id ∨
    (∃ j, e ∈ (P.memory j).taken) ∨ ∃ j, e ∈ (P.memory j).cleared

/-- The processes behave. -/
abbrev Orderly (requests : ι → Request) (P : Crowd ι) : Prop :=
  P.Obey (Hold.note env id) (fun _ => Ruled env id) fun i => Says env id (requests i)

theorem crowd_orderly (kv : Kv) (requests : ι → Request) :
    Orderly env id requests (crowd env kv requests) :=
  Pool.start_obey fun i => fetch_behaves env id (requests i) {}

theorem crowd_careful (kv : Kv) (requests : ι → Request) :
    Careful id (crowd env kv requests) where
  sure _ _ he := absurd he List.not_mem_nil
  gone _ _ he := absurd he List.not_mem_nil
  apart _ _ _ _ he := absurd he List.not_mem_nil
  accounted _ _ he := absurd he List.not_mem_nil

/-- The record has not outlived its own time. -/
def Lasts (t : ℕ) (P : Crowd ι) : Prop :=
  ∀ slot, P.shared.1 (.mailbox id) = some slot → slot.live t = true

theorem stored_of_queue {t : ℕ} {P : Crowd ι} (hlasts : Lasts id t P) {e : Entry}
    (he : e ∈ queue P.shared.1 id) :
    ∃ stored, P.shared.1.get t (.mailbox id) = some stored ∧ e ∈ stored.messages := by
  unfold queue at he
  split at he
  · next slot hslot => exact ⟨slot.val, Store.get_live hslot (hlasts slot hslot), he⟩
  · cases he

theorem Careful.conserved {requests : ι → Request} {t : ℕ} {P : Crowd ι}
    (hP : Orderly env id requests P) (h : Careful id P) (hlasts : Lasts id t P) :
    Conserved env id requests t P where
  accounted i srq f a hrq hf hid ha hstatus := by
    obtain ⟨time, hwritten⟩ := (hP.value ha).written srq f hrq hf hid hstatus
    refine ⟨time, (h.accounted i _ hwritten).imp (stored_of_queue id hlasts) (Or.imp_left ?_)⟩
    rintro ⟨j, hj⟩
    exact ⟨j, h.sure j _ hj⟩
  once i j a b hij hi hj ha hb e he e' he' :=
    h.apart i j hij e ((hP.value ha).taken hi e he) e' ((hP.value hb).taken hj e' he')

section
variable [DecidableEq ι] {env id} {P : Crowd ι}

theorem kept_sub {m : Hold} {e : Entry} (h : e ∈ m.kept env) : e ∈ m.queue := by
  unfold Hold.kept at h
  split at h
  · cases h
  · exact h

/-- An operation that neither writes the record nor changes what is accounted for. -/
theorem Careful.quiet (h : Careful id P) {i : ι} {next : M Response} {m : Hold}
    {s : Kv × List Service} (hqueue : queue s.1 id = queue P.shared.1 id)
    (hwritten : m.written = (P.memory i).written) (htaken : m.taken = (P.memory i).taken)
    (hcleared : m.cleared = (P.memory i).cleared)
    (hnext : ∀ e, (P.prog i).Sure (HandsOut e) → next.Sure (HandsOut e)) :
    Careful id { shared := s, prog := Function.update P.prog i next,
                 memory := Function.update P.memory i m } := by
  have hmemory (j : ι) : (Function.update P.memory i m j).written = (P.memory j).written ∧
      (Function.update P.memory i m j).taken = (P.memory j).taken ∧
      (Function.update P.memory i m j).cleared = (P.memory j).cleared := by
    by_cases hj : j = i
    · subst hj
      rw [Function.update_self]
      exact ⟨hwritten, htaken, hcleared⟩
    · rw [Function.update_of_ne hj]
      exact ⟨rfl, rfl, rfl⟩
  refine ⟨fun j e he => ?_, fun j e he e' he' => ?_, fun j k hjk e he e' he' => ?_, fun j e he => ?_⟩
  · dsimp only at he ⊢
    rw [(hmemory j).2.1] at he
    by_cases hj : j = i
    · subst hj
      rw [Function.update_self]
      exact hnext e (h.sure j e he)
    · rw [Function.update_of_ne hj]
      exact h.sure j e he
  · dsimp only at he he'
    rw [(hmemory j).2.1] at he
    rw [hqueue] at he'
    exact h.gone j e he e' he'
  · dsimp only at he he'
    rw [(hmemory j).2.1] at he
    rw [(hmemory k).2.1] at he'
    exact h.apart j k hjk e he e' he'
  · dsimp only at he ⊢
    rw [(hmemory j).1] at he
    rw [hqueue]
    rcases h.accounted j e he with hq | ⟨k, hk⟩ | ⟨k, hk⟩
    · exact Or.inl hq
    · exact Or.inr (Or.inl ⟨k, by rw [(hmemory k).2.1]; exact hk⟩)
    · exact Or.inr (Or.inr ⟨k, by rw [(hmemory k).2.2]; exact hk⟩)

/-- The record is written in turn. -/
theorem Careful.write (h : Careful id P) {i : ι} {next : M Response} {messages : List Entry}
    {s : Kv × List Service} (hgot : queue P.shared.1 id = (P.memory i).queue)
    (hnew : ∀ new ∈ messages, new ∉ queue P.shared.1 id →
      ∀ j, ∀ old ∈ (P.memory j).taken, old.id ≠ new.id)
    (hrewrite : Rewrite env (P.memory i) messages next) (hqueue : queue s.1 id = messages)
    (hnext : ∀ e, (P.prog i).Sure (HandsOut e) → next.Sure (HandsOut e)) :
    Careful id { shared := s, prog := Function.update P.prog i next,
                 memory := Function.update P.memory i ((P.memory i).write env messages) } := by
  -- what is taken out was so before, or is the queue that this process empties
  have htaken {j : ι} {e : Entry}
      (he : e ∈ (Function.update P.memory i ((P.memory i).write env messages) j).taken) :
      e ∈ (P.memory j).taken ∨ j = i ∧ messages = [] ∧ e ∈ (P.memory i).kept env := by
    by_cases hj : j = i
    · subst hj
      rw [Function.update_self] at he
      rcases List.mem_append.1 he with he | he
      · exact Or.inl he
      · split at he
        · next hempty => exact Or.inr ⟨rfl, List.isEmpty_iff.1 hempty, he⟩
        · cases he
    · rw [Function.update_of_ne hj] at he
      exact Or.inl he
  have hkeeps {j : ι} {e : Entry} (he : e ∈ (P.memory j).taken) :
      e ∈ (Function.update P.memory i ((P.memory i).write env messages) j).taken := by
    by_cases hj : j = i
    · subst hj
      rw [Function.update_self]
      exact List.mem_append_left _ he
    · rwa [Function.update_of_ne hj]
  have hkeeps' {j : ι} {e : Entry} (he : e ∈ (P.memory j).cleared) :
      e ∈ (Function.update P.memory i ((P.memory i).write env messages) j).cleared := by
    by_cases hj : j = i
    · subst hj
      rw [Function.update_self]
      exact List.mem_append_left _ he
    · rwa [Function.update_of_ne hj]
  refine ⟨fun j e he => ?_, fun j e he e' he' => ?_, fun j k hjk e he e' he' => ?_, fun j e he => ?_⟩
  · dsimp only at he ⊢
    by_cases hj : j = i
    · subst hj
      rw [Function.update_self]
      rcases htaken he with hold | ⟨-, hnil, hkept⟩
      · exact hnext e (h.sure j e hold)
      · exact hrewrite.handsOut hnil e hkept
    · rw [Function.update_of_ne hj]
      rcases htaken he with hold | ⟨hji, -⟩
      · exact h.sure j e hold
      · exact absurd hji hj
  · dsimp only at he he'
    rw [hqueue] at he'
    rcases htaken he with hold | ⟨-, hnil, -⟩
    · by_cases hthere : e' ∈ queue P.shared.1 id
      · exact h.gone j e hold e' hthere
      · exact hnew e' he' hthere j e hold
    · rw [hnil] at he'
      cases he'
  · dsimp only at he he'
    rcases htaken he with hold | ⟨hj, -, hkept⟩
    · rcases htaken he' with hold' | ⟨-, -, hkept'⟩
      · exact h.apart j k hjk e hold e' hold'
      · exact h.gone j e hold e' (by rw [hgot]; exact kept_sub hkept')
    · rcases htaken he' with hold' | ⟨hk, -⟩
      · exact (h.gone k e' hold' e (by rw [hgot]; exact kept_sub hkept)).symm
      · exact absurd (hj.trans hk.symm) hjk
  · dsimp only at he ⊢
    by_cases hj : j = i
    · subst hj
      rw [Function.update_self] at he
      exact Or.inl (by rw [hqueue]; exact he)
    · rw [Function.update_of_ne hj] at he
      rcases h.accounted j e he with hq | ⟨k, hk⟩ | ⟨k, hk⟩
      · rw [hgot] at hq
        rw [hqueue]
        refine (hrewrite.disposed hq).imp_right (Or.imp (fun ht => ⟨i, ?_⟩) fun hc => ⟨i, ?_⟩)
        · rwa [Function.update_self]
        · rwa [Function.update_self]
      · exact Or.inr (Or.inl ⟨k, hkeeps hk⟩)
      · exact Or.inr (Or.inr ⟨k, hkeeps' hk⟩)

/-- **Step lemma.** -/
theorem Careful.step {requests : ι → Request} {e : ι × ℕ} (hP : Orderly env id requests P)
    (h : Careful id P) (hturn : InTurn id P e) :
    Orderly env id requests (crowdStep env id e P) ∧ Careful id (crowdStep env id e P) := by
  obtain ⟨hstep, hcases⟩ := hP.step_cases (h := fun t => KvOp.exec t (services env.crypto))
    (fun t => exec_answers) e
  refine ⟨hstep, ?_⟩
  rcases hcases with heq | ⟨o, k, r, s, hp, hok, ho, heq⟩
  · unfold crowdStep
    rw [heq]
    exact h
  unfold crowdStep
  rw [heq]
  have hnext (x : Entry) (hx : (P.prog e.1).Sure (HandsOut x)) : (k r).Sure (HandsOut x) := by
    rw [hp] at hx
    exact hx r
  by_cases hput : ∃ stored ttl, o = .put (.mailbox id) stored ttl
  · obtain ⟨stored, ttl, rfl⟩ := hput
    obtain ⟨hgot, hnew⟩ := hturn stored ttl (by rw [hp]; rfl)
    obtain ⟨-, rfl⟩ := Prod.mk.inj ho
    have hm : (P.memory e.1).note env id (.put (.mailbox id) stored ttl) r =
        (P.memory e.1).write env stored.messages := if_pos rfl
    rw [hm]
    refine h.write hgot hnew (hok rfl) ?_ hnext
    unfold queue
    dsimp only
    rw [Store.put_same]
  · have hspares : o.Spares (.mailbox id) := by
      cases o with
      | put k' v ttl =>
        rintro rfl
        exact hput ⟨v, ttl, rfl⟩
      | delete k' =>
        rintro rfl
        exact hok rfl
      | _ => trivial
    obtain ⟨hwritten, htaken, hcleared⟩ := note_spares env (P.memory e.1) hspares r
    refine h.quiet ?_ hwritten htaken hcleared hnext
    have hs := KvOp.exec_spares hspares e.2 (services env.crypto) P.shared
    rw [ho] at hs
    unfold queue
    rw [hs]

/-- **Nothing is lost, and nothing is delivered twice**, in every run of requests that a shard
    answers at the same time, as long as each write of the record is made in turn. -/
theorem deliveries_conserved (env : Env) (id : JString) (kv : Kv) (requests : ι → Request)
    (run : List (ι × ℕ)) (t : ℕ)
    (hturns : Always (crowdStep env id) (InTurn id) (crowd env kv requests) run)
    (hlasts : Lasts id t (after (crowdStep env id) (crowd env kv requests) run)) :
    Conserved env id requests t (after (crowdStep env id) (crowd env kv requests) run) := by
  obtain ⟨hP, h⟩ := hturns.inv
    (I := fun P => Orderly env id requests P ∧ Careful id P)
    (fun P e h hturn => h.2.step h.1 hturn)
    ⟨crowd_orderly env id kv requests, crowd_careful env id kv requests⟩
  exact h.conserved env id hP hlasts

end

end

/-! ## A message that is read twice -/

/-- A mailbox with one queued message. -/
def queuedMailbox : Mailbox where
  readSecretHash := List.replicate 64 48
  clientPubkey := none
  messages := [⟨.obj [(js "id", .str (js "1")), (js "message", .str (js "m"))], js "1", js "m", rfl, rfl⟩]
  createdAt := 0
  messagesEnqueuedAt := some 0
  replicaShardUrls := .arr []

/-- A store with one mailbox and one message in it. -/
def queuedKv : Kv := Store.put (fun _ => none) 0 (.mailbox (letters 16)) queuedMailbox none

/-- Two consuming reads. -/
def twoReads (_ : Bool) : Request :=
  .read { ip := none, mailboxId := some (letters 16), readSecret := some (js "s"), peek := none
          requestId := none, freshIdentity := ⟨[], []⟩ }

/-- One after the other, they write the record in turn. -/
theorem reads_in_turn :
    Conserved (trustingEnv {}) (letters 16) twoReads 0
      (after (crowdStep (trustingEnv {}) (letters 16)) (crowd (trustingEnv {}) queuedKv twoReads)
        (List.replicate 6 (false, 0) ++ List.replicate 6 (true, 0))) := by
  refine deliveries_conserved _ _ _ _ _ 0 ⟨?_, ?_, ?_, ?_, ?_, ?_, ?_, ?_, ?_, ?_, ?_, ?_, trivial⟩ ?_
  · rintro stored ttl ⟨⟩
  · rintro stored ttl ⟨⟩
  · rintro stored ttl ⟨⟩
  · rintro stored ttl ⟨⟩
  · rintro stored ttl ⟨⟩
  · rintro stored ttl ⟨⟩
    exact ⟨rfl, fun new hnew => absurd hnew List.not_mem_nil⟩
  · rintro stored ttl ⟨⟩
  · rintro stored ttl ⟨⟩
  · rintro stored ttl ⟨⟩
  · rintro stored ttl ⟨⟩
  · rintro stored ttl ⟨⟩
    exact ⟨rfl, fun new hnew => absurd hnew List.not_mem_nil⟩
  · rintro stored ttl ⟨⟩
  · rintro slot ⟨⟩
    rfl

/-- Both get the record before either writes it, and both hand the message out. -/
theorem reads_overlap :
    ¬ ∀ (env : Env) (id : JString) (kv : Kv) (requests : Bool → Request) (run : List (Bool × ℕ))
      (t : ℕ), Lasts id t (after (crowdStep env id) (crowd env kv requests) run) →
        Conserved env id requests t (after (crowdStep env id) (crowd env kv requests) run) := by
  intro h
  have hconserved := h (trustingEnv {}) (letters 16) queuedKv twoReads
    (List.replicate 5 (false, 0) ++ List.replicate 5 (true, 0) ++ [(false, 0), (true, 0)]) 0
    (by rintro slot ⟨⟩; rfl)
  exact hconserved.once false true _ _ (by decide) rfl rfl rfl rfl _ List.mem_cons_self _
    List.mem_cons_self rfl

end Shard
