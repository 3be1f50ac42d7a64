/-
  The bounds of a mailbox.

  `/send` refuses an entry that is too long or finds no room; a replicate push
  is queued without either test.

  * `Mailbox.Bounded`: at most `MAX_MESSAGES` entries of at most `MAX_MSG_BYTES`
    bytes of UTF-8 each;
  * `PushFits`: a push that is about to be queued finds room and is short enough;
  * `bounded_step_iff` is one request, `mailboxes_bounded_iff` a whole run.
-/
import NexTalkRelay.Lib.Runs
import NexTalkRelay.Shard.Push

open Effect Js Runs

namespace Shard

/-! ## Bounds -/

/-- The limits are meant: a whole number of entries, or no limit, and some
    number of bytes. -/
structure Cfg.Sane (cfg : Cfg) : Prop where
  messages : cfg.maxMessages = .inf false ∨ ∃ n : ℕ, cfg.maxMessages = .ofInt n
  bytes : cfg.maxMsgBytes ≠ .nan

/-- There may be `n` entries. -/
def Cfg.Room (cfg : Cfg) (n : ℕ) : Prop := (Number.ofInt n).le cfg.maxMessages = true

/-- The message is short enough. -/
def Cfg.Short (cfg : Cfg) (message : JString) : Prop :=
  (Number.ofInt (encode message).length).le cfg.maxMsgBytes = true

/-- Neither too many messages, nor one that is too long. -/
structure Mailbox.Bounded (cfg : Cfg) (m : Mailbox) : Prop where
  room : cfg.Room m.messages.length
  short : ∀ e ∈ m.messages, cfg.Short e.message

/-- Every stored record is bounded. -/
def WithinBounds (cfg : Cfg) (kv : Kv) : Prop :=
  ∀ id slot, kv (.mailbox id) = some slot → slot.val.Bounded cfg

section
variable {cfg : Cfg}

theorem Cfg.Sane.zero (h : cfg.Sane) : cfg.Room 0 := by
  rcases h.messages with hm | ⟨n, hm⟩ <;> unfold Cfg.Room <;> rw [hm]
  · rfl
  · simp

/-- Below the limit there is room for one more. -/
theorem Cfg.Sane.succ (h : cfg.Sane) {n : ℕ} (hn : cfg.maxMessages.le (.ofInt n) = false) :
    cfg.Room (n + 1) := by
  unfold Cfg.Room
  rcases h.messages with hm | ⟨k, hm⟩ <;> rw [hm] at hn ⊢
  · rfl
  · have hlt : ¬ ((k : ℤ) ≤ n) := by rw [← Number.ofInt_le_ofInt, hn]; simp
    rw [Number.ofInt_le_ofInt]
    push_cast
    omega

theorem Cfg.Sane.short (h : cfg.Sane) {message : JString}
    (hs : (!cfg.maxMsgBytes.lt (.ofInt (encode message).length)) = true) : cfg.Short message := by
  unfold Cfg.Short
  have hb := h.bytes
  cases hm : cfg.maxMsgBytes with
  | nan => exact absurd hm hb
  | inf s => rw [hm] at hs; cases s <;> simp [Number.lt, Number.le, Number.ofInt] at hs ⊢
  | fin d =>
    rw [hm] at hs
    rw [Number.ofInt_le]
    simpa [Number.lt, Number.ofInt] using hs

variable {m : Mailbox}

theorem bounded_empty (h : cfg.Sane) (hm : m.messages = []) : m.Bounded cfg where
  room := by rw [hm]; exact h.zero
  short := by rw [hm]; exact List.forall_mem_nil _

theorem Mailbox.Bounded.congr {m' : Mailbox} (hm : m.Bounded cfg) (h : m'.messages = m.messages) :
    m'.Bounded cfg where
  room := by rw [h]; exact hm.room
  short := by rw [h]; exact hm.short

theorem Mailbox.Bounded.cleared (h : cfg.Sane) (hm : m.Bounded cfg) (ttl : Number) (t : ℕ) :
    (m.cleared ttl t).Bounded cfg := by
  unfold Mailbox.cleared
  split
  · exact hm
  · split
    · exact bounded_empty h rfl
    · exact hm

theorem Mailbox.Bounded.afterRead (h : cfg.Sane) (hm : m.Bounded cfg) (ttl : Number) (t : ℕ)
    (peek : Bool) : (m.afterRead ttl t peek).Bounded cfg := by
  unfold Mailbox.afterRead
  split
  · exact hm.cleared h ttl t
  · exact bounded_empty h rfl

/-- A bounded record stays bounded exactly if the entry finds room and is short. -/
theorem bounded_pushed_iff (hm : m.Bounded cfg) (e : Entry) (t : ℕ) :
    (m.pushed e t).Bounded cfg ↔ cfg.Room (m.messages.length + 1) ∧ cfg.Short e.message := by
  have hlength : (m.pushed e t).messages.length = m.messages.length + 1 := by
    simp [Mailbox.pushed]
  constructor
  · rintro ⟨hroom, hshort⟩
    rw [hlength] at hroom
    exact ⟨hroom, hshort e (by simp [Mailbox.pushed])⟩
  · rintro ⟨hroom, hshort⟩
    refine ⟨by rw [hlength]; exact hroom, fun e' he' => ?_⟩
    rcases List.mem_append.1 he' with he' | he'
    · exact hm.short e' he'
    · rw [List.mem_singleton.1 he']; exact hshort

theorem WithinBounds.get {kv : Kv} (h : WithinBounds cfg kv) {t : ℕ} {id : JString}
    (hm : kv.get t (.mailbox id) = some m) : m.Bounded cfg := by
  obtain ⟨slot, hslot, -, rfl⟩ := Store.get_eq_some.1 hm
  exact h id slot hslot

theorem WithinBounds.same {kv kv' : Kv} (h : WithinBounds cfg kv) (hsame : SameMailboxes kv kv') :
    WithinBounds cfg kv' := by
  intro id slot hslot
  rw [hsame id] at hslot
  exact h id slot hslot

/-- After a write the bounds hold exactly if they hold of what was written. -/
theorem within_wrote_iff {env : Env} {t : ℕ} {kv kv' : Kv} {id : JString}
    (h : WithinBounds env.cfg kv) (hw : Wrote env t kv id m kv') :
    WithinBounds env.cfg kv' ↔ m.Bounded env.cfg := by
  constructor
  · intro h'
    obtain ⟨expires, hown⟩ := hw.own
    exact h' id _ hown
  · intro hm id' slot hslot
    by_cases hid : id' = id
    · subst hid
      obtain ⟨expires, hown⟩ := hw.own
      obtain rfl := Option.some.inj (hown.symm.trans hslot)
      exact hm
    · rw [hw.other hid] at hslot
      exact h id' slot hslot

end

/-! ## Requests -/

/-- The store after a request. -/
def step (env : Env) (e : ℕ × Request) (kv : Kv) : Kv := (handle env e.1 e.2 kv).2

/-- A push that is about to be queued finds room and is short enough. -/
def PushFits (env : Env) (kv : Kv) (e : ℕ × Request) : Prop :=
  ∀ rq f, e.2 = .replicate rq → Queued env e.1 kv rq f →
    env.cfg.Room ((f.stored (kv.get e.1 (.mailbox f.mailboxId.lower)) e.1).messages.length + 1) ∧
      env.cfg.Short f.entry.message

/-- The message of a well-formed `/send` is short enough. -/
theorem sendFields_short {env : Env} (hcfg : env.cfg.Sane) {body : Option Json} {f : SendFields}
    (hf : sendFields env body = .ok f) : env.cfg.Short f.message := by
  simp only [sendFields, Check.orAnswer_bind, Check.require_bind] at hf
  obtain ⟨body, -, mailboxId, -, message, -, hlen, pk, -, hf⟩ := hf
  cases hf
  exact hcfg.short hlen

/-- **Step lemma.** -/
theorem bounded_step_iff {env : Env} (hcfg : env.cfg.Sane) (kv : Kv) (e : ℕ × Request)
    (h : WithinBounds env.cfg kv) :
    WithinBounds env.cfg (step env e kv) ↔ PushFits env kv e := by
  obtain ⟨t, rq⟩ := e
  have hstored (f : ReplicateFields) :
      (f.stored (kv.get t (.mailbox f.mailboxId.lower)) t).Bounded env.cfg := by
    cases hm : kv.get t (.mailbox f.mailboxId.lower) with
    | none => exact bounded_empty hcfg rfl
    | some m => exact h.get hm
  constructor
  · rintro h' rq f rfl hq
    exact (bounded_pushed_iff (hstored f) _ _).1 ((within_wrote_iff h hq.wrote.2).1 h')
  · intro hfits
    have hmoves := handle_moves env t kv rq
    unfold step
    dsimp only
    generalize handle env t rq kv = p at hmoves ⊢
    obtain ⟨r, kv'⟩ := p
    cases hmoves with
    | idle _ _ hsame => exact h.same hsame
    | create hf hv hw =>
      refine (within_wrote_iff h hw).2 ?_
      unfold CreateFields.record
      split
      · next hm => exact (h.get hm).congr rfl
      · exact bounded_empty hcfg rfl
    | send hf hm hroom _ hw =>
      refine (within_wrote_iff h hw).2 ((bounded_pushed_iff ((h.get hm).cleared hcfg _ t) _ t).2 ?_)
      exact ⟨hcfg.succ hroom, sendFields_short hcfg hf⟩
    | read hf hm _ _ hw => exact (within_wrote_iff h hw).2 ((h.get hm).afterRead hcfg _ t _)
    | replicate hf hp hq hw =>
      refine (within_wrote_iff h hw).2 ((bounded_pushed_iff (hstored _) _ t).2 ?_)
      obtain ⟨life, hlife, -⟩ := hw
      exact hfits _ _ rfl ⟨hf, hp, hq, by rw [hlife]; rfl⟩

/-- **Bounded exactly if the pushes fit.**  In a run from an empty store, every
    record that is ever stored is within the bounds if and only if every
    replicate push that is queued finds room and is short enough. -/
theorem mailboxes_bounded_iff {env : Env} (hcfg : env.cfg.Sane) (run : List (ℕ × Request)) :
    Always (step env) (fun kv e => WithinBounds env.cfg (step env e kv)) (fun _ => none) run ↔
      Always (step env) (PushFits env) (fun _ => none) run := by
  refine always_next_iff (I := fun _ => True) (fun _ _ _ => trivial)
    (fun kv e _ h => bounded_step_iff hcfg kv e h) trivial ?_
  intro id slot hslot
  cases hslot

/-- A `/send` of a short message. -/
def boundedSend : SendRequest where
  ip := none
  body := some (.obj [(js "mailbox_id", .str (letters 16)), (js "message", .str (js "m")),
    (js "sender", .obj [(js "pubkey", .str (letters 64)), (js "timestamp", .str (js "0")),
      (js "signature", .str (letters 128))])])
  entryId := [2]
  freshIdentity := ⟨[], []⟩

/-- A mailbox gets a message and a push. -/
def boundedRun : List (ℕ × Request) :=
  [(0, .routingTablePush (some siblingTable)), (0, .create sampleCreate), (0, .send boundedSend),
    (0, .replicate (siblingPush (js "1") (js "m")))]

theorem default_mailboxes_bounded :
    ((after (step (trustingEnv {})) (fun _ => none) boundedRun (.mailbox (letters 16))).map
      fun slot => slot.val.messages.length) = some 2 ∧
    Always (step (trustingEnv {})) (fun kv e => WithinBounds (trustingEnv {}).cfg
      (step (trustingEnv {}) e kv)) (fun _ => none) boundedRun := by
  have hsane : (trustingEnv {}).cfg.Sane := ⟨Or.inr ⟨50, rfl⟩, fun h => Number.noConfusion h⟩
  refine ⟨by decide +kernel, (mailboxes_bounded_iff hsane boundedRun).2 ?_⟩
  refine ⟨?_, ?_, ?_, ?_, trivial⟩
  · rintro rq f ⟨⟩
  · rintro rq f ⟨⟩
  · rintro rq f ⟨⟩
  · rintro rq f ⟨⟩ hqueued
    have hfields : replicateFields (siblingPush (js "1") (js "m")).body =
        .ok (siblingFields (js "1") (js "m")) := rfl
    obtain rfl := Except.ok.inj (hfields.symm.trans hqueued.fields)
    constructor
    · unfold Cfg.Room
      decide +kernel
    · unfold Cfg.Short
      decide +kernel

/-- A pushed message that is stored within the bounds is short. -/
theorem push_short {message : JString}
    (h : Always (step (trustingEnv {})) (fun kv e => WithinBounds (trustingEnv {}).cfg
        (step (trustingEnv {}) e kv)) (fun _ => none)
        [(0, .routingTablePush (some siblingTable)),
          (0, .replicate (siblingPush (js "1") message))]) :
    (trustingEnv {}).cfg.Short message := by
  obtain ⟨expires, hown⟩ := (sibling_queued (js "1") message).wrote.2.own
  exact (h.2.1 _ _ hown).short (siblingEntry (js "1") message)
    (by simp [Mailbox.pushed, siblingFields])

/-- A sibling stores a message that is one byte longer than the default limit. -/
theorem push_exceeds_bounds :
    ¬ Always (step (trustingEnv {})) (fun kv e => WithinBounds (trustingEnv {}).cfg
        (step (trustingEnv {}) e kv)) (fun _ => none)
        [(0, .routingTablePush (some siblingTable)),
          (0, .replicate (siblingPush (js "1") (letters 32769)))] := by
  intro h
  have hascii : Ascii (letters 32769) := by
    intro c hc
    rw [List.eq_of_mem_replicate hc]
    decide
  have hshort : (Number.ofInt (encode (letters 32769)).length).le (.ofInt 32768) = true :=
    push_short h
  rw [length_encode_ascii hascii, letters, List.length_replicate] at hshort
  have hle := Number.ofInt_le_ofInt.1 hshort
  omega

end Shard
