/-
  Tenants: who reads a mailbox, what is in it, and who changes its record.

  * `Tenants` is a store with what its requests have been answered: the
    `read_secret_hash` of the last accepted `/create` of each mailbox, forgotten
    when a push builds a shell for it, and the entries queued for it;
  * `Isolated` says of one event that it respects the tenants;
  * `UpToCase` relates requests that differ in the case of hex texts only;
  * `tenants_isolated` is the whole run, over every endpoint.
-/
import NexTalkRelay.Lib.Runs
import NexTalkRelay.Shard.Admin
import NexTalkRelay.Shard.Queue

open Effect Js Runs

namespace Shard

/-! ## Histories -/

/-- The mailbox that an endpoint is addressed to. -/
def Endpoint.target : Endpoint → Option JString
  | .core rq => rq.target
  | _ => none

/-- A store with the answers given so far. -/
structure Tenants where
  kv : Kv
  /-- The `read_secret_hash` of the last accepted `/create`. -/
  hash : JString → Option JString
  /-- What `/send` and `/internal/replicate` have queued. -/
  sent : JString → List Entry

namespace Tenants

/-- Three empty stores. -/
def empty : Tenants := ⟨fun _ => none, fun _ => none, fun _ => []⟩

/-- Note what a request was answered. -/
def noted (env : Env) (t : ℕ) (rq : Request) (r : Response) (s : Tenants) : Tenants :=
  match rq, r.body with
  | .create rq, .created .. =>
    match createFields rq.body with
    | .ok f => { s with
        hash := Function.update s.hash f.mailboxId.lower (some f.readSecretHash.1) }
    | .error _ => s
  | .send rq, .sent _ =>
    match sendFields env rq.body with
    | .ok f => { s with
        sent := Function.update s.sent f.mailboxId.lower
          (s.sent f.mailboxId.lower ++ [newEntry f rq.entryId t]) }
    | .error _ => s
  | .replicate rq, .replicated false =>
    match replicateFields rq.body with
    | .ok f => { s with
        -- a push to a mailbox that is not there builds a shell
        hash := if (s.kv.get t (.mailbox f.mailboxId.lower)).isSome then s.hash
          else Function.update s.hash f.mailboxId.lower none
        sent := Function.update s.sent f.mailboxId.lower
          (s.sent f.mailboxId.lower ++ [f.entry]) }
    | .error _ => s
  | _, _ => s

/-- One event. -/
def step (env : AdminEnv) (e : Event) (s : Tenants) : Tenants :=
  let p := env.happen e s.kv
  match e.endpoint, p.1 with
  | .core rq, .core r => { s.noted env.toEnv e.time rq r with kv := p.2 }
  | _, _ => { s with kv := p.2 }

/-- A successful `/read` shows the secret of the mailbox and only what was
    queued for it; no event changes the record of another mailbox. -/
structure Isolated (env : AdminEnv) (s : Tenants) (e : Event) : Prop where
  secret : ∀ rq r, e.endpoint = .core (.read rq) →
    (env.happen e s.kv).1 = .core r → r.status = 200 →
      ∃ f hash, readFields rq = .ok f ∧ s.hash f.mailboxId.lower = some hash ∧
        toLowerCase hash = env.crypto.sha256Hex f.readSecret ∧
        ∀ entry ∈ r.entries, entry ∈ s.sent f.mailboxId.lower
  frame : ∀ id, e.endpoint.target ≠ some id →
    (env.happen e s.kv).2 (.mailbox id) = s.kv (.mailbox id)

/-! ## The invariant -/

/-- A record carries no hash, or the one of the last accepted `/create`, and
    queues only what was queued for it. -/
structure Inv (s : Tenants) : Prop where
  hash : ∀ id slot, s.kv (.mailbox id) = some slot → slot.val.readSecretHash = [] ∨
    ∃ h, s.hash id = some h ∧ slot.val.readSecretHash = toLowerCase h
  sent : ∀ id, ∀ e ∈ queue s.kv id, e ∈ s.sent id

theorem inv_empty : empty.Inv where
  hash := by rintro id slot ⟨⟩
  sent _ _ he := absurd he List.not_mem_nil

section
variable {env : Env} {t : ℕ} {s s' : Tenants}

/-- Nothing is written and nothing is noted. -/
theorem Inv.same (h : s.Inv) (hkv : SameMailboxes s.kv s'.kv) (hhash : s'.hash = s.hash)
    (hsent : s'.sent = s.sent) : s'.Inv where
  hash id slot hslot := by
    rw [hkv id] at hslot
    rw [hhash]
    exact h.hash id slot hslot
  sent id e he := by
    rw [queue_same hkv] at he
    rw [hsent]
    exact h.sent id e he

/-- One record is written, and only its mailbox is noted. -/
theorem Inv.wrote (h : s.Inv) {id : JString} {m : Mailbox} (hw : Wrote env t s.kv id m s'.kv)
    (hother : ∀ id', id' ≠ id → s'.hash id' = s.hash id' ∧ s'.sent id' = s.sent id')
    (hhash : m.readSecretHash = [] ∨
      ∃ hash, s'.hash id = some hash ∧ m.readSecretHash = toLowerCase hash)
    (hsent : ∀ e ∈ m.messages, e ∈ s'.sent id) : s'.Inv where
  hash id' slot hslot := by
    by_cases hid : id' = id
    · subst hid
      obtain ⟨expires, hown⟩ := hw.own
      obtain rfl := Option.some.inj (hown.symm.trans hslot)
      exact hhash
    · rw [hw.other hid] at hslot
      rw [(hother id' hid).1]
      exact h.hash id' slot hslot
  sent id' e he := by
    by_cases hid : id' = id
    · subst hid
      rw [hw.queue_own] at he
      exact hsent e he
    · rw [hw.queue_other hid] at he
      rw [(hother id' hid).2]
      exact h.sent id' e he

theorem Inv.found (h : s.Inv) {id : JString} {m : Mailbox} (hm : s.kv.get t (.mailbox id) = some m) :
    (m.readSecretHash = [] ∨ ∃ hash, s.hash id = some hash ∧ m.readSecretHash = toLowerCase hash) ∧
      ∀ e ∈ m.messages, e ∈ s.sent id := by
  obtain ⟨slot, hslot, -, rfl⟩ := Store.get_eq_some.1 hm
  refine ⟨h.hash id slot hslot, fun e he => h.sent id e ?_⟩
  rw [queue_get hm]
  exact he

theorem noted_idle {rq : Request} {r : Response} (h : r.body.idle = true) :
    s.noted env t rq r = s := by
  unfold noted
  split
  · next hbody => rw [hbody] at h; cases h
  · next hbody => rw [hbody] at h; cases h
  · next hbody => rw [hbody] at h; cases h
  · rfl

theorem update_other {α : Type} {g : JString → α} {id id' : JString} (h : id' ≠ id) (a : α) :
    Function.update g id a id' = g id' := Function.update_of_ne h a g

/-- **Step lemma, for the requests on mailboxes.** -/
theorem Inv.moves (h : s.Inv) {P : ReplicateFields → Prop} {rq : Request} {r : Response} {kv' : Kv}
    (hmoves : Moves env t P s.kv rq r kv') : Inv { s.noted env t rq r with kv := kv' } := by
  cases hmoves with
  | idle hbody _ hsame =>
    refine h.same hsame ?_ ?_ <;> rw [noted_idle hbody]
  | @create rq f _ _ hf _ hw =>
    refine h.wrote hw (fun id' hid => ?_) (Or.inr ⟨f.readSecretHash.1, ?_, ?_⟩) fun e he => ?_
    · simp only [noted, json, hf, and_true]
      exact update_other hid _
    · simp only [noted, json, hf, Function.update_self]
    · unfold CreateFields.record
      split <;> rfl
    · simp only [noted, json, hf]
      unfold CreateFields.record at he
      split at he
      · next hm => exact (h.found hm).2 e he
      · cases he
  | @send rq f m _ _ hf hm _ hbare hw =>
    have hbody := body_of_bare hbare
    obtain ⟨hhash, hsent⟩ := h.found hm
    refine h.wrote hw (fun id' hid => ?_) ?_ fun e he => ?_
    · simp only [noted, hbody, hf, true_and]
      exact update_other hid _
    · simp only [noted, hbody, hf]
      rw [show (Mailbox.pushed _ _ _).readSecretHash = _ from cleared_hash m env.cfg.ttlSeconds t]
      exact hhash
    · simp only [noted, hbody, hf, Function.update_self]
      refine List.mem_append.2 ((List.mem_append.1 he).imp_left fun he => ?_)
      exact hsent e (cleared_sub m _ t e he)
  | @read rq f m _ _ hf hm _ _ hw =>
    obtain ⟨hhash, hsent⟩ := h.found hm
    have hcases : (m.afterRead env.cfg.ttlSeconds t f.peek).readSecretHash = m.readSecretHash ∧
        ∀ e ∈ (m.afterRead env.cfg.ttlSeconds t f.peek).messages, e ∈ m.messages := by
      unfold Mailbox.afterRead
      split
      · exact ⟨cleared_hash m _ t, cleared_sub m _ t⟩
      · exact ⟨cleared_hash m _ t, fun e he => absurd he List.not_mem_nil⟩
    refine h.wrote hw (fun id' _ => ⟨rfl, rfl⟩) ?_ fun e he => hsent e (hcases.2 e he)
    rw [hcases.1]
    exact hhash
  | @replicate rq f _ hf _ _ hw =>
    refine h.wrote hw (fun id' hid => ?_) ?_ fun e he => ?_
    · simp only [noted, json, hf]
      refine ⟨?_, update_other hid _⟩
      split
      · rfl
      · exact update_other hid _
    · simp only [noted, json, hf]
      cases hm : s.kv.get t (.mailbox f.mailboxId.lower) with
      | none => exact Or.inl rfl
      | some m => exact (h.found hm).1
    · simp only [noted, json, hf, Function.update_self]
      refine List.mem_append.2 ((List.mem_append.1 he).imp_left fun he => ?_)
      unfold ReplicateFields.stored at he
      cases hm : s.kv.get t (.mailbox f.mailboxId.lower) with
      | none => rw [hm] at he; cases he
      | some m => rw [hm] at he; exact (h.found hm).2 e he

end

/-- **Step lemma.** -/
theorem Inv.step {env : AdminEnv} {s : Tenants} (h : s.Inv) (e : Event) : (s.step env e).Inv := by
  obtain ⟨t, router, endpoint⟩ := e
  by_cases he : ∃ rq, endpoint = .core rq
  · obtain ⟨rq, rfl⟩ := he
    exact h.moves (handle_moves env.toEnv t s.kv rq)
  · have hsame := perform_same env router t (fun rq hrq => he ⟨rq, hrq⟩) s.kv
    cases endpoint with
    | core rq => exact absurd ⟨rq, rfl⟩ he
    | _ => exact h.same hsame rfl rfl

/-- **An event respects the tenants.** -/
theorem Inv.isolated {env : AdminEnv} {s : Tenants} (h : s.Inv) (e : Event) :
    Isolated env s e := by
  obtain ⟨t, router, endpoint⟩ := e
  refine ⟨?_, fun id htarget => ?_⟩
  · rintro rq r rfl hr hstatus
    obtain rfl : (handle env.toEnv t (.read rq) s.kv).1 = r := Answer.core.inj hr
    have hmoves := handle_moves env.toEnv t s.kv (.read rq)
    generalize handle env.toEnv t (.read rq) s.kv = p at hmoves hstatus ⊢
    obtain ⟨r, kv'⟩ := p
    cases hmoves with
    | idle _ hidle => cases hidle hstatus
    | @read _ f m _ _ hf hm hsecret hbare hw =>
      have hbody := body_of_bare hbare
      obtain ⟨hhash, hsent⟩ := h.found hm
      have hhex := env.crypto.isHexOf_sha256Hex f.readSecret
      have hencode := constantTimeEqual_iff.1 hsecret
      rcases hhash with hnil | ⟨hash, hash_eq, heq⟩
      · -- the record of a shell matches no digest
        rw [hnil] at hencode
        rw [encode_eq_nil hencode] at hhex
        cases hhex
      · refine ⟨f, hash, hf, hash_eq, ?_, fun entry hentry => ?_⟩
        · rw [← heq]
          exact encode_eq_ascii (ascii_of_isHexOf hhex) hencode.symm
        · unfold Response.entries at hentry
          rw [hbody] at hentry
          exact hsent entry (cleared_sub m _ t entry hentry)
  · by_cases he : ∃ rq, endpoint = .core rq
    · obtain ⟨rq, rfl⟩ := he
      exact handle_frame env.toEnv t s.kv htarget
    · exact perform_same env router t (fun rq hrq => he ⟨rq, hrq⟩) s.kv id

end Tenants

/-! ## Letter case -/

/-- The text in lower case. -/
def foldCase {lo hi : ℕ} (s : HexStr lo hi) : HexStr lo hi := ⟨s.lower, s.isHexOf_lower⟩

@[simp] theorem lower_foldCase {lo hi : ℕ} (s : HexStr lo hi) : (foldCase s).lower = s.lower :=
  s.toLowerCase_lower

/-- The requests differ at most in the case of their mailbox ids and hashes. -/
inductive UpToCase (env : Env) : Request → Request → Prop
  | create {rq rq' : CreateRequest} {f f' : CreateFields} (ip : rq.ip = rq'.ip)
      (fields : createFields rq.body = .ok f) (fields' : createFields rq'.body = .ok f')
      (same : { f with mailboxId := foldCase f.mailboxId,
                       readSecretHash := foldCase f.readSecretHash } =
        { f' with mailboxId := foldCase f'.mailboxId,
                  readSecretHash := foldCase f'.readSecretHash }) :
      UpToCase env (.create rq) (.create rq')
  | exists_ {rq rq' : ExistsRequest} {id id' : HexStr 16 128} (ip : rq.ip = rq'.ip)
      (fields : existsFields rq = .ok id) (fields' : existsFields rq' = .ok id')
      (same : foldCase id = foldCase id') : UpToCase env (.exists_ rq) (.exists_ rq')
  | send {rq rq' : SendRequest} {f f' : SendFields} (ip : rq.ip = rq'.ip)
      (draws : (rq.entryId, rq.freshIdentity) = (rq'.entryId, rq'.freshIdentity))
      (fields : sendFields env rq.body = .ok f) (fields' : sendFields env rq'.body = .ok f')
      (same : { f with mailboxId := foldCase f.mailboxId } =
        { f' with mailboxId := foldCase f'.mailboxId }) : UpToCase env (.send rq) (.send rq')
  | read {rq rq' : ReadRequest} {f f' : ReadFields} (ip : rq.ip = rq'.ip)
      (draws : rq.freshIdentity = rq'.freshIdentity)
      (fields : readFields rq = .ok f) (fields' : readFields rq' = .ok f')
      (same : { f with mailboxId := foldCase f.mailboxId } =
        { f' with mailboxId := foldCase f'.mailboxId }) : UpToCase env (.read rq) (.read rq')

section
variable (env : Env)

/-- What `/create` does is a function of its fields in lower case. -/
theorem create_foldCase (ip : Option JString) (f : CreateFields) :
    gated (createGate env ip f) (createMailbox env f) =
      gated (createGate env ip { f with mailboxId := foldCase f.mailboxId,
                                        readSecretHash := foldCase f.readSecretHash })
        (createMailbox env { f with mailboxId := foldCase f.mailboxId,
                                    readSecretHash := foldCase f.readSecretHash }) := by
  unfold createGate capOk createMailbox CreateFields.refresh CreateFields.fresh
    CreateFields.clientPubkey
  dsimp only
  generalize hid : (foldCase f.mailboxId).lower = id
  generalize hhash : (foldCase f.readSecretHash).lower = hash
  rw [lower_foldCase] at hid hhash
  subst hid hhash
  refine congrArg (gated _) (congrArg _ (funext fun stored => ?_))
  cases stored <;> rfl

theorem send_foldCase (ip : Option JString) (rq : SendRequest) (f : SendFields) :
    gated (sendGate env ip f) (sendMailbox env rq f) =
      gated (sendGate env ip { f with mailboxId := foldCase f.mailboxId })
        (sendMailbox env rq { f with mailboxId := foldCase f.mailboxId }) := by
  unfold sendGate sendLimits sendSignedMessage sendMailbox newEntry
  dsimp only
  generalize hid : (foldCase f.mailboxId).lower = id
  rw [lower_foldCase] at hid
  subst hid
  refine congrArg (gated _) (congrArg _ (funext fun stored => ?_))
  cases stored <;> rfl

theorem read_foldCase (rq : ReadRequest) (f : ReadFields) :
    readMailbox env rq f = readMailbox env rq { f with mailboxId := foldCase f.mailboxId } := by
  unfold readMailbox
  dsimp only
  generalize hid : (foldCase f.mailboxId).lower = id
  rw [lower_foldCase] at hid
  subst hid
  refine congrArg _ (funext fun stored => ?_)
  cases stored <;> rfl

theorem exists_foldCase (id : HexStr 16 128) :
    existsMailbox id = existsMailbox (foldCase id) := by
  unfold existsMailbox
  generalize hid : (foldCase id).lower = lower
  rw [lower_foldCase] at hid
  subst hid
  refine congrArg _ (funext fun stored => ?_)
  cases stored <;> rfl

/-- **Requests up to case are handled alike.** -/
theorem handle_upToCase (t : ℕ) (kv : Kv) {rq rq' : Request} (h : UpToCase env rq rq') :
    handle env t rq kv = handle env t rq' kv := by
  have hfetch : fetch env rq = fetch env rq' := by
    cases h with
    | @create rq rq' f f' hip hf hf' hsame =>
      simp only [fetch, handleCreate, guarded, hf, hf']
      rw [create_foldCase env rq.ip f, create_foldCase env rq'.ip f', hsame, hip]
    | @exists_ rq rq' id id' hip hf hf' hsame =>
      simp only [fetch, handleExists, guarded, hf, hf']
      rw [exists_foldCase id, exists_foldCase id', hsame, hip]
    | @send rq rq' f f' hip hdraws hf hf' hsame =>
      obtain ⟨hid, hfresh⟩ := Prod.mk.inj hdraws
      have hrq (f : SendFields) : sendMailbox env rq f = sendMailbox env rq' f := by
        simp only [sendMailbox, hid, hfresh]
      simp only [fetch, handleSend, guarded, hf, hf']
      rw [send_foldCase env rq.ip rq f, send_foldCase env rq'.ip rq' f', hsame, hip, hrq]
    | @read rq rq' f f' hip hdraws hf hf' hsame =>
      have hrq (f : ReadFields) : readMailbox env rq f = readMailbox env rq' f := by
        simp only [readMailbox, hdraws]
      simp only [fetch, handleRead, guarded, hf, hf']
      rw [read_foldCase env rq f, read_foldCase env rq' f', hsame, hip, hrq]
  unfold handle
  rw [hfetch]

end

/-- **Tenants are isolated.**  In every run of the endpoints of a shard every
    event respects the tenants; keys do not clash, texts in hexadecimal count up
    to case, and the padded comparison is equality of the bytes. -/
theorem tenants_isolated (env : AdminEnv) :
    (∀ run : List Event, Always (Tenants.step env) (Tenants.Isolated env) .empty run) ∧
      Function.Injective Key.text ∧
      (∀ t kv rq rq', UpToCase env.toEnv rq rq' →
        handle env.toEnv t rq kv = handle env.toEnv t rq' kv) ∧
      ∀ a b, constantTimeEqual a b = true ↔ encode a = encode b := by
  refine ⟨fun run => ?_, Key.text_injective, fun t kv rq rq' h => handle_upToCase env.toEnv t kv h,
    fun a b => constantTimeEqual_iff⟩
  have htrue : Always (Tenants.step env) (fun _ _ => True) .empty run := by
    generalize Tenants.empty = s
    induction run generalizing s with
    | nil => trivial
    | cons e run ih => exact ⟨trivial, ih _⟩
  exact htrue.imp (fun s e hs _ => hs.step e) (fun s e hs _ => hs.isolated e) Tenants.inv_empty

end Shard
