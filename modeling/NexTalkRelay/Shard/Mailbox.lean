/-
  A shard refines a FIFO mailbox with exact expiry.

  The code clears a backlog that has outlived `TTL_SECONDS` only when it next
  reads the record.  The abstract mailbox (`Act.spec` over the boxes of
  `ExpiringQueue`) settles every box at the instant of each request.

  * `Call` is a request to `/create`, `/exists`, `/send` or `/read`, and `Act`
    one whose fields are well formed; `given` is the verdict of its gate
    (authentication, replay, shape and rate limits);
  * `boxAt` abstracts a store, and `Sim` relates it to abstract boxes that may
    have been settled earlier;
  * `step_refines` is one request, `run_refines` a whole run.
-/
import NexTalkRelay.Lib.ExpiringQueue
import NexTalkRelay.Shard.Spec

open Effect Js ExpiringQueue

namespace Shard

/-! ## Requests on a mailbox -/

/-- A request of a client on a mailbox. -/
inductive Call where
  | create (rq : CreateRequest)
  | exists_ (rq : ExistsRequest)
  | send (rq : SendRequest)
  | read (rq : ReadRequest)

/-- The request to the shard. -/
def Call.request : Call → Request
  | create rq => .create rq
  | exists_ rq => .exists_ rq
  | send rq => .send rq
  | read rq => .read rq

/-- A call with well-formed fields. -/
inductive Act where
  | create (ip : Option JString) (f : CreateFields)
  | exists_ (ip : Option JString) (id : HexStr 16 128)
  | send (rq : SendRequest) (f : SendFields)
  | read (rq : ReadRequest) (f : ReadFields)

/-- The check of the fields of a call. -/
def Call.act (env : Env) : Call → Check Response Act
  | create rq => (createFields rq.body).map (.create rq.ip)
  | exists_ rq => (existsFields rq).map (.exists_ rq.ip)
  | send rq => (sendFields env rq.body).map (.send rq)
  | read rq => (readFields rq).map (.read rq)

/-- The mailbox that it names. -/
def Act.id : Act → JString
  | create _ f => f.mailboxId.lower
  | exists_ _ id => id.lower
  | send _ f => f.mailboxId.lower
  | read _ f => f.mailboxId.lower

/-- What stands before the mailbox is read. -/
def Act.gate (env : Env) : Act → M Verdict
  | create ip f => createGate env ip f
  | exists_ ip _ => existsGate ip
  | send rq f => sendGate env rq.ip f
  | read rq _ => readGate rq.ip

/-- What is done with the mailbox. -/
def Act.mailbox (env : Env) : Act → M Response
  | create _ f => createMailbox env f
  | exists_ _ id => existsMailbox id
  | send rq f => sendMailbox env rq f
  | read rq f => readMailbox env rq f

theorem guarded_map {ρ α β : Type} {Op : Type} {Res : Op → Type} (c : Check ρ α) (g : α → β)
    (F : β → Prog Op Res ρ) : guarded (c.map g) F = guarded c fun a => F (g a) := by
  cases c with
  | error e => cases e <;> rfl
  | ok a => rfl

/-- Every handler of a mailbox is a check, a gate and an action. -/
theorem fetch_request (env : Env) (call : Call) :
    fetch env call.request = guarded (call.act env) fun a => gated (a.gate env) (a.mailbox env) := by
  cases call <;> rw [Call.act, guarded_map] <;> rfl

theorem Act.gate_writes (env : Env) (a : Act) : (a.gate env).Only (KvOp.Writes Gate) := by
  cases a with
  | create ip f => exact createGate_writes env ip f
  | exists_ ip id => exact existsGate_writes ip
  | send rq f => exact sendGate_writes env rq.ip f
  | read rq f => exact readGate_writes rq.ip

/-! ## The abstract mailbox -/

/-- The boxes of all mailboxes. -/
abbrev Boxes := JString → Option (Box JString Entry)

/-- What an action does to a settled box, and its answer. -/
def Act.spec (env : Env) (life : ℤ) (t : ℕ) :
    Act → Option (Box JString Entry) → Response × Option (Box JString Entry)
  | create _ f, none =>
    (json (.created f.mailboxId.lower env.cfg.mailboxTtlSeconds true),
      some (.new f.readSecretHash.lower life t))
  | create _ f, some b =>
    (json (.created f.mailboxId.lower env.cfg.mailboxTtlSeconds false),
      some ((b.rekey f.readSecretHash.lower).touch life t))
  | exists_ _ _, none => (err (js "not found") 404, none)
  | exists_ _ _, some b => (json .exists_, some b)
  | send _ _, none => (err (js "Mailbox not found or expired") 404, none)
  | send rq f, some b =>
    if env.cfg.maxMessages.le (.ofInt b.queue.length) then (mailboxFull env, some b)
    else (json (.sent (b.queue.length + 1)), some ((b.push (newEntry f rq.entryId t) t).touch life t))
  | read _ _, none => (err (js "Mailbox not found or expired") 404, none)
  | read _ f, some b =>
    if constantTimeEqual (env.crypto.sha256Hex f.readSecret) b.secret then
      (json (.read b.queue b.created !f.peek), some ((if f.peek then b else b.drain).touch life t))
    else (err (js "invalid read_secret") 401, some b)

/-- One request on the abstract mailboxes, given the verdict of its gate; a
    gate without a verdict has thrown an exception. -/
def specStep (env : Env) (ttl life : ℤ) (t : ℕ) (call : Call) (given : Option Verdict) (σ : Boxes) :
    Response × Boxes :=
  let σ' : Boxes := fun id => settle ttl t (σ id)
  match call.act env, given with
  | .error (.answer r), _ => (r, σ')
  | .error .crash, _ => (crashed, σ')
  | .ok _, none => (crashed, σ')
  | .ok _, some (some r) => (r, σ')
  | .ok a, some none =>
    ((a.spec env life t (σ' a.id)).1, Function.update σ' a.id (a.spec env life t (σ' a.id)).2)

/-- The answers of a run of the abstract mailboxes. -/
def specRun (env : Env) (ttl life : ℤ) : Boxes → List (ℕ × Call × Option Verdict) → List Response
  | _, [] => []
  | σ, (t, call, given) :: run =>
    (specStep env ttl life t call given σ).1 ::
      specRun env ttl life (specStep env ttl life t call given σ).2 run

section
variable {env : Env} {life : ℤ} {t : ℕ} {b : Box JString Entry}

theorem spec_send_full {rq : SendRequest} {f : SendFields}
    (h : env.cfg.maxMessages.le (.ofInt b.queue.length) = true) :
    (Act.send rq f).spec env life t (some b) = (mailboxFull env, some b) := if_pos h

theorem spec_send_room {rq : SendRequest} {f : SendFields}
    (h : ¬ env.cfg.maxMessages.le (.ofInt b.queue.length) = true) :
    (Act.send rq f).spec env life t (some b) = (json (.sent (b.queue.length + 1)),
      some ((b.push (newEntry f rq.entryId t) t).touch life t)) := if_neg h

theorem spec_read_ok {rq : ReadRequest} {f : ReadFields}
    (h : constantTimeEqual (env.crypto.sha256Hex f.readSecret) b.secret = true) :
    (Act.read rq f).spec env life t (some b) = (json (.read b.queue b.created !f.peek),
      some ((if f.peek then b else b.drain).touch life t)) := if_pos h

theorem spec_read_wrong {rq : ReadRequest} {f : ReadFields}
    (h : ¬ constantTimeEqual (env.crypto.sha256Hex f.readSecret) b.secret = true) :
    (Act.read rq f).spec env life t (some b) = (err (js "invalid read_secret") 401, some b) :=
  if_neg h

end

/-- An answer other than `200` changes no box. -/
theorem Act.spec_unchanged {env : Env} {life : ℤ} {t : ℕ} {a : Act}
    {o : Option (Box JString Entry)} (h : (a.spec env life t o).1.status ≠ 200) :
    (a.spec env life t o).2 = o := by
  cases a <;> cases o <;> simp only [spec] at h ⊢
  all_goals first | exact absurd rfl h | skip
  · split at h
    · next hfull => rw [if_pos hfull]
    · exact absurd rfl h
  · split at h
    · exact absurd rfl h
    · next hwrong => rw [if_neg hwrong]

/-! ## Abstraction -/

/-- The box of a stored record. -/
def Mailbox.box (m : Mailbox) (expires : Option ℤ) : Box JString Entry :=
  { secret := m.readSecretHash, queue := m.messages, since := m.messagesEnqueuedAt
    created := m.createdAt, expires }

/-- The box stored for a mailbox, before it is settled. -/
def boxAt (kv : Kv) : Boxes := fun id => (kv (.mailbox id)).map fun e => e.val.box e.expires

theorem boxAt_congr {kv kv' : Kv} (h : SameMailboxes kv kv') : boxAt kv' = boxAt kv := by
  funext id
  rw [boxAt, boxAt, h id]

/-- Clearing a stale backlog is expiry at that instant. -/
theorem box_cleared (m : Mailbox) (ttl : ℤ) (t : ℕ) (x : Option ℤ) :
    (m.cleared (.ofInt ttl) t).box x = (m.box x).expire ttl t := by
  obtain ⟨secret, pk, queue, created, since, urls⟩ := m
  cases since with
  | none => rfl
  | some u =>
    unfold Mailbox.cleared Box.expire Box.stale Mailbox.box
    have hiff : ttl ≤ ((t : ℤ) - u) / 1000 ↔ (u : ℤ) + 1000 * ttl ≤ t := by omega
    simp only [Number.ofInt_le_ofInt, decide_eq_true_eq, hiff]
    split <;> rfl

/-- A mailbox that the code finds, settled. -/
theorem settle_boxAt_some {kv : Kv} {t : ℕ} {id : JString} {m : Mailbox}
    (h : kv.get t (.mailbox id) = some m) (ttl : ℤ) :
    ∃ x, settle ttl t (boxAt kv id) = some ((m.cleared (.ofInt ttl) t).box x) := by
  obtain ⟨e, he, hl, rfl⟩ := Store.get_eq_some.1 h
  have halive : (e.val.box e.expires).alive t = true := hl
  exact ⟨e.expires, by rw [box_cleared, boxAt, he, Option.map_some, settle_some_alive halive]⟩

theorem settle_boxAt_none {kv : Kv} {t : ℕ} {id : JString}
    (h : kv.get t (.mailbox id) = none) (ttl : ℤ) : settle ttl t (boxAt kv id) = none := by
  rw [boxAt]
  cases he : kv (.mailbox id) with
  | none => rfl
  | some e =>
    refine settle_some_gone ?_ ttl
    cases hl : e.live t with
    | false => exact hl
    | true => rw [Store.get_live he hl] at h; cases h

/-- The box of a record just written. -/
theorem boxAt_put (kv : Kv) (t : ℕ) (id : JString) (m : Mailbox) (life : ℤ) :
    boxAt (kv.put t (.mailbox id) m (some life)) id = some (m.box (some (t + 1000 * life))) := by
  rw [boxAt, Store.put_same]; rfl

/-- The boxes after an action on `id`: the one of `id` is `o` up to settling,
    the others are as before. -/
structure Moved (ttl : ℤ) (t : ℕ) (id : JString) (o : Option (Box JString Entry)) (kv kv' : Kv) :
    Prop where
  own : settle ttl t (boxAt kv' id) = settle ttl t o
  others : ∀ id', id' ≠ id → boxAt kv' id' = boxAt kv id'

theorem moved_put (ttl : ℤ) {t : ℕ} {id : JString} {m : Mailbox} {life : ℤ} {kv kv' : Kv}
    (h : SameMailboxes (kv.put t (.mailbox id) m (some life)) kv') :
    Moved ttl t id (some (m.box (some (t + 1000 * life)))) kv kv' where
  own := by rw [boxAt_congr h, boxAt_put]
  others id' hid := by
    rw [boxAt_congr h, boxAt, boxAt, Store.put_other]
    exact fun hk => hid (Key.mailbox.inj hk)

/-- A store that is left alone was already settled late. -/
theorem moved_same (ttl : ℤ) (t : ℕ) (id : JString) {kv kv' : Kv} (h : SameMailboxes kv kv') :
    Moved ttl t id (settle ttl t (boxAt kv id)) kv kv' where
  own := by rw [boxAt_congr h, settle_settle le_rfl]
  others id' _ := by rw [boxAt_congr h]

/-! ## One action -/

section
variable {env : Env} {ttl life : ℤ} (t : ℕ) (kv : Kv) (log : List Service)

/-- The program answers as `spec` does on the settled box of `id`, and leaves
    that box. -/
def Refines (env : Env) (ttl : ℤ) (t : ℕ) (kv : Kv) (log : List Service) (p : M Response)
    (id : JString) (spec : Option (Box JString Entry) → Response × Option (Box JString Entry)) :
    Prop :=
  ∃ r s', p.run (KvOp.exec t (services env.crypto)) (kv, log) = (some r, s') ∧
    r.bare = (spec (settle ttl t (boxAt kv id))).1 ∧
    Moved ttl t id (spec (settle ttl t (boxAt kv id))).2 kv s'.1

theorem createMailbox_refines (hlife : env.cfg.mailboxTtlSeconds = .ofInt life)
    (ip : Option JString) (f : CreateFields) :
    Refines env ttl t kv log (createMailbox env f) f.mailboxId.lower
      ((Act.create ip f).spec env life t) := by
  have hrun := createMailbox_run (t := t) kv log (Number.toInt?_of_eq hlife) f
  cases hm : kv.get t (.mailbox f.mailboxId.lower) with
  | none =>
    rw [hm] at hrun
    refine ⟨_, _, hrun, ?_, ?_⟩ <;> rw [settle_boxAt_none hm]
    · rfl
    · have hput : Moved ttl t f.mailboxId.lower ((f.fresh t).box (some (t + 1000 * life))) kv
          (kv.put t (.mailbox f.mailboxId.lower) (f.fresh t) (some life)) :=
        moved_put ttl fun _ => rfl
      exact hput
  | some m =>
    rw [hm] at hrun
    obtain ⟨x, hbox⟩ := settle_boxAt_some hm ttl
    refine ⟨_, _, hrun, ?_, ?_⟩ <;> rw [hbox]
    · rfl
    · -- the code keeps the stale backlog for later
      have hput : Moved ttl t f.mailboxId.lower
          (some ((f.refresh m).box (some (t + 1000 * life)))) kv
          (kv.put t (.mailbox f.mailboxId.lower) (f.refresh m) (some life)) :=
        moved_put ttl fun _ => rfl
      refine ⟨hput.own.trans ?_, hput.others⟩
      have hbox' : (f.refresh m).box (some (t + 1000 * life)) =
          ((m.box x).rekey f.readSecretHash.lower).touch life t := rfl
      have hspec : ((Act.create ip f).spec env life t (some ((m.box x).expire ttl t))).2 =
          some ((((m.box x).rekey f.readSecretHash.lower).touch life t).expire ttl t) := by
        rw [Box.expire_touch, Box.expire_rekey]; rfl
      rw [box_cleared, hspec, settle_expire, hbox']

theorem existsMailbox_refines (ip : Option JString) (id : HexStr 16 128) :
    Refines env ttl t kv log (existsMailbox id) id.lower ((Act.exists_ ip id).spec env life t) := by
  have hrun := existsMailbox_run kv log env t id
  have hsame : Moved ttl t id.lower _ kv kv := moved_same ttl t id.lower fun _ => rfl
  cases hm : kv.get t (.mailbox id.lower) with
  | none =>
    rw [hm] at hrun
    rw [settle_boxAt_none hm] at hsame
    refine ⟨_, _, hrun, ?_, ?_⟩ <;> rw [settle_boxAt_none hm]
    · rfl
    · exact hsame
  | some m =>
    rw [hm] at hrun
    obtain ⟨x, hbox⟩ := settle_boxAt_some hm ttl
    rw [hbox] at hsame
    refine ⟨_, _, hrun, ?_, ?_⟩ <;> rw [hbox]
    · rfl
    · exact hsame

theorem sendMailbox_refines (httl : env.cfg.ttlSeconds = .ofInt ttl)
    (hlife : env.cfg.mailboxTtlSeconds = .ofInt life) (rq : SendRequest) (f : SendFields) :
    Refines env ttl t kv log (sendMailbox env rq f) f.mailboxId.lower
      ((Act.send rq f).spec env life t) := by
  have hsame : Moved ttl t f.mailboxId.lower _ kv kv :=
    moved_same ttl t f.mailboxId.lower fun _ => rfl
  cases hm : kv.get t (.mailbox f.mailboxId.lower) with
  | none =>
    rw [settle_boxAt_none hm] at hsame
    refine ⟨_, _, sendMailbox_run_none kv log rq f hm, ?_, ?_⟩ <;> rw [settle_boxAt_none hm]
    · rfl
    · exact hsame
  | some m =>
    obtain ⟨x, hbox⟩ := settle_boxAt_some hm ttl
    rw [hbox] at hsame
    by_cases hfull :
        env.cfg.maxMessages.le (.ofInt (m.cleared env.cfg.ttlSeconds t).messages.length) = true
    · have hrun := sendMailbox_run_full kv log rq f hm hfull
      rw [httl] at hfull
      refine ⟨_, _, hrun, ?_, ?_⟩ <;>
        rw [hbox, spec_send_full (b := (m.cleared (.ofInt ttl) t).box x) hfull]
      · rfl
      · exact hsame
    · obtain ⟨r, s', hrun, hbare, hput⟩ :=
        sendMailbox_run kv log (Number.toInt?_of_eq hlife) rq f hm (by simpa using hfull)
      rw [httl] at hfull hbare hput
      refine ⟨r, s', hrun, ?_, ?_⟩ <;>
        rw [hbox, spec_send_room (b := (m.cleared (.ofInt ttl) t).box x) hfull]
      · exact hbare
      · exact moved_put ttl hput

theorem readMailbox_refines (httl : env.cfg.ttlSeconds = .ofInt ttl)
    (hlife : env.cfg.mailboxTtlSeconds = .ofInt life) (rq : ReadRequest) (f : ReadFields) :
    Refines env ttl t kv log (readMailbox env rq f) f.mailboxId.lower
      ((Act.read rq f).spec env life t) := by
  have hsame : Moved ttl t f.mailboxId.lower _ kv kv :=
    moved_same ttl t f.mailboxId.lower fun _ => rfl
  cases hm : kv.get t (.mailbox f.mailboxId.lower) with
  | none =>
    rw [settle_boxAt_none hm] at hsame
    refine ⟨_, _, readMailbox_run_none kv log rq f hm, ?_, ?_⟩ <;> rw [settle_boxAt_none hm]
    · rfl
    · exact hsame
  | some m =>
    obtain ⟨x, hbox⟩ := settle_boxAt_some hm ttl
    rw [hbox] at hsame
    have hsecret : ((m.cleared (.ofInt ttl) t).box x).secret = m.readSecretHash := by
      unfold Mailbox.cleared; split <;> [rfl; (split <;> rfl)]
    have hcreated : ((m.cleared (.ofInt ttl) t).box x).created = m.createdAt := by
      unfold Mailbox.cleared; split <;> [rfl; (split <;> rfl)]
    by_cases hok : constantTimeEqual (env.crypto.sha256Hex f.readSecret) m.readSecretHash = true
    · obtain ⟨r, s', hrun, hbare, hput⟩ := readMailbox_run kv log (Number.toInt?_of_eq hlife) rq f hm hok
      rw [httl] at hbare hput
      rw [← hsecret] at hok
      refine ⟨r, s', hrun, ?_, ?_⟩ <;> rw [hbox, spec_read_ok hok]
      · rw [hbare, hcreated]; rfl
      · have hmoved := moved_put ttl hput
        unfold Mailbox.afterRead at hmoved
        cases hp : f.peek <;> rw [hp] at hmoved <;> exact hmoved
    · have hrun := readMailbox_run_wrong kv log rq f hm (by simpa using hok)
      rw [← hsecret] at hok
      refine ⟨_, _, hrun, ?_, ?_⟩ <;> rw [hbox, spec_read_wrong hok]
      · rfl
      · exact hsame

/-- **Step lemma for an action** that passed its gate. -/
theorem Act.mailbox_refines (httl : env.cfg.ttlSeconds = .ofInt ttl)
    (hlife : env.cfg.mailboxTtlSeconds = .ofInt life) (a : Act) :
    Refines env ttl t kv log (a.mailbox env) a.id (a.spec env life t) := by
  cases a with
  | create ip f => exact createMailbox_refines t kv log hlife ip f
  | exists_ ip id => exact existsMailbox_refines t kv log ip id
  | send rq f => exact sendMailbox_refines t kv log httl hlife rq f
  | read rq f => exact readMailbox_refines t kv log httl hlife rq f

end

/-! ## One request -/

/-- The verdict of the gate of a call, when its fields are well formed. -/
def given (env : Env) (t : ℕ) (call : Call) (kv : Kv) : Option Verdict :=
  match call.act env with
  | .ok a => (runAt env.crypto t (a.gate env) kv).1
  | .error _ => none

/-- The boxes `σ` are those of the store, except that some may have been
    settled before `t`. -/
def Sim (ttl : ℤ) (t : ℕ) (kv : Kv) (σ : Boxes) : Prop :=
  ∀ id, settle ttl t (boxAt kv id) = settle ttl t (σ id)

/-- What is visible of a mailbox changes with the clock only forgetfully. -/
theorem Sim.later {ttl : ℤ} {t t' : ℕ} {kv : Kv} {σ : Boxes} (h : Sim ttl t kv σ) (ht : t ≤ t') :
    Sim ttl t' kv σ := by
  intro id
  rw [← settle_settle ht, h id, settle_settle ht]

section
variable {env : Env} {ttl life : ℤ} {t : ℕ} {kv : Kv} {σ : Boxes}

/-- **Step lemma.** A request is answered as on the abstract mailboxes, and
    leaves them related to the store. -/
theorem step_refines (httl : env.cfg.ttlSeconds = .ofInt ttl)
    (hlife : env.cfg.mailboxTtlSeconds = .ofInt life) (hsim : Sim ttl t kv σ) (call : Call) :
    (handle env t call.request kv).1.bare =
        (specStep env ttl life t call (given env t call kv) σ).1.bare ∧
      Sim ttl t (handle env t call.request kv).2
        (specStep env ttl life t call (given env t call kv) σ).2 := by
  have hidle : Sim ttl t kv fun id => settle ttl t (σ id) := fun id => by
    rw [settle_settle le_rfl, hsim id]
  unfold handle runAt given specStep
  rw [fetch_request]
  cases hact : call.act env with
  | error e => cases e <;> exact ⟨rfl, hidle⟩
  | ok a =>
    have hsame := gate_same (a.gate_writes env) env.crypto t (kv, [])
    dsimp only [guarded, gated, runAt]
    rw [Prog.bind_eq, Prog.run_bind]
    rcases hrun : (a.gate env).run (KvOp.exec t (services env.crypto)) (kv, []) with
      ⟨v, kv', log⟩
    rw [hrun] at hsame
    have hboxes : boxAt kv' = boxAt kv := boxAt_congr hsame
    have hidle' : Sim ttl t kv' fun id => settle ttl t (σ id) := fun id => by
      rw [hboxes]; exact hidle id
    cases v with
    | none => exact ⟨rfl, hidle'⟩
    | some v =>
      cases v with
      | some r => exact ⟨rfl, hidle'⟩
      | none =>
        obtain ⟨r, s', hbox, hbare, hown, hothers⟩ :=
          a.mailbox_refines t kv' log httl hlife
        rw [hboxes] at hbare hown hothers
        rw [hsim a.id] at hbare hown
        dsimp only
        rw [hbox]
        refine ⟨?_, fun id => ?_⟩
        · rw [← hbare]; rfl
        · by_cases hid : id = a.id
          · subst hid
            simpa using hown
          · rw [Function.update_of_ne hid, hothers id hid]
            exact hidle id

/-- An abstract answer other than `200` leaves the settled boxes. -/
theorem specStep_unchanged {call : Call} {given : Option Verdict}
    (h : (specStep env ttl life t call given σ).1.status ≠ 200) :
    (specStep env ttl life t call given σ).2 = fun id => settle ttl t (σ id) := by
  unfold specStep at h ⊢
  dsimp only at h ⊢
  split at h
  · rfl
  · rfl
  · rfl
  · rfl
  · rw [Act.spec_unchanged h]
    exact Function.update_eq_self _ _

/-- An answer other than `200` leaves every mailbox as it was. -/
theorem handle_unchanged (httl : env.cfg.ttlSeconds = .ofInt ttl)
    (hlife : env.cfg.mailboxTtlSeconds = .ofInt life) {call : Call}
    (h : (handle env t call.request kv).1.status ≠ 200) (id : JString) :
    settle ttl t (boxAt (handle env t call.request kv).2 id) = settle ttl t (boxAt kv id) := by
  have hrefl : Sim ttl t kv (boxAt kv) := fun _ => rfl
  obtain ⟨hbare, hsim⟩ := step_refines httl hlife hrefl call
  have hstatus := congrArg Response.status hbare
  change (handle env t call.request kv).1.status = _ at hstatus
  rw [hstatus] at h
  rw [hsim id, specStep_unchanged h, settle_settle le_rfl]

end

/-! ## Runs -/

/-- A request that was handled, with the store before and after it. -/
structure Step where
  before : Kv
  instant : ℕ
  call : Call
  response : Response
  after : Kv

/-- The steps of a run of requests at given instants. -/
def steps (env : Env) : Kv → List (ℕ × Call) → List Step
  | _, [] => []
  | kv, (t, call) :: run =>
    { before := kv, instant := t, call, response := (handle env t call.request kv).1
      after := (handle env t call.request kv).2 } ::
      steps env (handle env t call.request kv).2 run

/-- What the abstract mailboxes are given of a step. -/
def Step.input (env : Env) (s : Step) : ℕ × Call × Option Verdict :=
  (s.instant, s.call, given env s.instant s.call s.before)

section
variable {env : Env} {ttl life : ℤ}

/-- **Run lemma.** -/
theorem answers_refine (httl : env.cfg.ttlSeconds = .ofInt ttl)
    (hlife : env.cfg.mailboxTtlSeconds = .ofInt life) (run : List (ℕ × Call)) {t : ℕ} {kv : Kv}
    {σ : Boxes} (hsim : Sim ttl t kv σ) (hclock : (t :: run.map Prod.fst).Pairwise (· ≤ ·)) :
    (steps env kv run).map (·.response.bare) =
      (specRun env ttl life σ ((steps env kv run).map (·.input env))).map Response.bare := by
  induction run generalizing t kv σ with
  | nil => rfl
  | cons x run ih =>
    obtain ⟨u, call⟩ := x
    rw [List.map_cons, List.pairwise_cons] at hclock
    obtain ⟨hbare, hnext⟩ :=
      step_refines httl hlife (hsim.later (hclock.1 u List.mem_cons_self)) call
    simp only [steps, List.map_cons, Step.input, specRun, hbare, List.cons.injEq, true_and]
    exact ih hnext hclock.2

theorem steps_unchanged (httl : env.cfg.ttlSeconds = .ofInt ttl)
    (hlife : env.cfg.mailboxTtlSeconds = .ofInt life) (run : List (ℕ × Call)) {kv : Kv} {s : Step}
    (hs : s ∈ steps env kv run) (hstatus : s.response.status ≠ 200) (id : JString) :
    settle ttl s.instant (boxAt s.after id) = settle ttl s.instant (boxAt s.before id) := by
  induction run generalizing kv with
  | nil => cases hs
  | cons x run ih =>
    obtain ⟨u, call⟩ := x
    rcases List.mem_cons.1 hs with rfl | hs
    · exact handle_unchanged httl hlife hstatus id
    · exact ih hs

/-- **A shard refines a FIFO mailbox with exact expiry.**  From any store and
    for any run on a clock that does not go back, the answers are those of the
    abstract mailboxes, which are settled at every instant; and an answer other
    than `200` changes nothing that is left of any mailbox. -/
theorem shard_refines_mailbox (httl : env.cfg.ttlSeconds = .ofInt ttl)
    (hlife : env.cfg.mailboxTtlSeconds = .ofInt life) (kv : Kv) (run : List (ℕ × Call))
    (hclock : (run.map Prod.fst).Pairwise (· ≤ ·)) :
    (steps env kv run).map (·.response.bare) =
        (specRun env ttl life (boxAt kv) ((steps env kv run).map (·.input env))).map
          Response.bare ∧
      ∀ s ∈ steps env kv run, s.response.status ≠ 200 → ∀ id,
        settle ttl s.instant (boxAt s.after id) = settle ttl s.instant (boxAt s.before id) := by
  refine ⟨answers_refine httl hlife run (t := 0) (fun _ => rfl) ?_, fun s hs => ?_⟩
  · exact List.pairwise_cons.2 ⟨fun u _ => Nat.zero_le u, hclock⟩
  · exact steps_unchanged httl hlife run hs

end

/-- Create a mailbox, peek at it and look for another one. -/
def sampleRun : List (ℕ × Call) :=
  [(0, .create
    { ip := none
      body := some (.obj [(js "mailbox_id", .str (List.replicate 16 97)),
        (js "read_secret_hash", .str (List.replicate 64 48)), (js "cap_exp", .num (.ofInt 9)),
        (js "cap_sig", .str (List.replicate 128 97))]) }),
    (7, .read
      { ip := none, mailboxId := some (List.replicate 16 97), readSecret := some (js "s")
        peek := some (js "1"), requestId := none, freshIdentity := ⟨[], []⟩ }),
    (8, .exists_ { ip := none, mailboxId := some (List.replicate 16 98) })]

theorem default_shard_refines_mailbox :
    (steps (trustingEnv {}) (fun _ => none) sampleRun).map (·.response.bare) =
        (specRun (trustingEnv {}) 1209600 31536000 (boxAt fun _ => none)
          ((steps (trustingEnv {}) (fun _ => none) sampleRun).map
            (·.input (trustingEnv {})))).map Response.bare ∧
      ∀ s ∈ steps (trustingEnv {}) (fun _ => none) sampleRun, s.response.status ≠ 200 → ∀ id,
        settle 1209600 s.instant (boxAt s.after id) =
          settle 1209600 s.instant (boxAt s.before id) :=
  shard_refines_mailbox rfl rfl _ _ (by decide)

example : (steps (trustingEnv {}) (fun _ => none) sampleRun).map (·.response.status) =
    [200, 200, 404] := rfl

end Shard
