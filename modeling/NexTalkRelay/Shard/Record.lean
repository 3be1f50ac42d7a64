/-
  What every stored record is like.

  * `Mailbox.Sound`: the clock of the backlog runs exactly if something is queued, the
    entries have distinct ids, and the hash of the read secret is empty or a hash;
  * `Rewrites` lists what the five writers make of the record that they find;
  * `records_sound`: every stored record is sound, keeps the instant of its creation
    as long as it lives, and has a hash from the first `/create` on.
-/
import Mathlib.Data.List.Nodup
import NexTalkRelay.Shard.Bounds
import NexTalkRelay.Shard.Queue

open Effect Js Runs

namespace Shard

/-! ## Sound records -/

/-- 64 lowercase hexadecimal digits. -/
def IsHash (s : JString) : Prop := isHexOf 64 64 s = true ∧ toLowerCase s = s

/-- The backlog has a clock exactly while there is one, no id is queued twice, and the
    hash is empty or 64 digits. -/
structure Mailbox.Sound (m : Mailbox) : Prop where
  clock : m.messagesEnqueuedAt = none ↔ m.messages = []
  ids : (m.messages.map Entry.id).Nodup
  secret : m.readSecretHash = [] ∨ IsHash m.readSecretHash

theorem isHash_lower (s : HexStr 64 64) : IsHash s.lower :=
  ⟨s.isHexOf_lower, toLowerCase_toLowerCase s.1⟩

section

variable {m : Mailbox}

theorem sound_empty (hmessages : m.messages = []) (hclock : m.messagesEnqueuedAt = none)
    (hsecret : m.readSecretHash = [] ∨ IsHash m.readSecretHash) : m.Sound where
  clock := by rw [hmessages, hclock]; exact iff_of_true rfl rfl
  ids := by rw [hmessages]; exact List.nodup_nil
  secret := hsecret

/-- Forgetting a backlog that is too old. -/
theorem Mailbox.Sound.cleared (h : m.Sound) (ttl : Number) (t : ℕ) : (m.cleared ttl t).Sound := by
  unfold Mailbox.cleared
  split
  · exact h
  · split
    · exact sound_empty rfl rfl h.secret
    · exact h

theorem Mailbox.Sound.afterRead (h : m.Sound) (ttl : Number) (t : ℕ) (peek : Bool) :
    (m.afterRead ttl t peek).Sound := by
  unfold Mailbox.afterRead
  split
  · exact h.cleared ttl t
  · exact sound_empty rfl rfl (h.cleared ttl t).secret

/-- One more entry, with an id of its own. -/
theorem Mailbox.Sound.pushed (h : m.Sound) {e : Entry} (hid : ∀ x ∈ m.messages, x.id ≠ e.id)
    (t : ℕ) : (m.pushed e t).Sound where
  clock := by simp [Mailbox.pushed]
  ids := by
    simp only [Mailbox.pushed, List.map_append, List.map_cons, List.map_nil]
    refine List.nodup_append.2 ⟨h.ids, List.nodup_singleton _, ?_⟩
    intro a ha b hb
    obtain ⟨x, hx, rfl⟩ := List.mem_map.1 ha
    rw [List.mem_singleton.1 hb]
    exact hid x hx
  secret := h.secret

end

/-! ## The five writers -/

/-- What a request makes of the record that it finds. -/
inductive Rewrites (env : Env) (t : ℕ) : Request → Option Mailbox → Mailbox → Prop
  | create {rq : CreateRequest} {found : Option Mailbox} (f : CreateFields) :
      Rewrites env t (.create rq) found (f.record found t)
  | send {rq : SendRequest} {m : Mailbox} (f : SendFields) :
      Rewrites env t (.send rq) (some m)
        ((m.cleared env.cfg.ttlSeconds t).pushed (newEntry f rq.entryId t) t)
  | read {rq : ReadRequest} {m : Mailbox} (peek : Bool) :
      Rewrites env t (.read rq) (some m) (m.afterRead env.cfg.ttlSeconds t peek)
  | replicate {rq : ReplicateRequest} {found : Option Mailbox} {f : ReplicateFields}
      (absent : (f.stored found t).queues f.entry.id = false) :
      Rewrites env t (.replicate rq) found ((f.stored found t).pushed f.entry t)

/-- **Inversion of one request, for one record.**  It stays, or is rewritten by a
    request that is addressed to it. -/
theorem handle_record (env : Env) (t : ℕ) (kv : Kv) (rq : Request) (id : JString) :
    (handle env t rq kv).2 (.mailbox id) = kv (.mailbox id) ∨
    ∃ m expires, (handle env t rq kv).2 (.mailbox id) = some ⟨m, expires⟩ ∧
      rq.target = some id ∧ Rewrites env t rq (kv.get t (.mailbox id)) m := by
  by_cases htarget : rq.target = some id
  swap
  · exact Or.inl (handle_frame env t kv htarget)
  have hmoves := handle_moves env t kv rq
  generalize handle env t rq kv = p at hmoves ⊢
  obtain ⟨r, kv'⟩ := p
  cases hmoves with
  | idle _ _ hsame => exact Or.inl (hsame id)
  | @create _ f _ _ hf _ hw =>
    obtain rfl := Option.some.inj ((createFields_target hf).symm.trans htarget)
    obtain ⟨expires, hown⟩ := hw.own
    exact Or.inr ⟨_, expires, hown, htarget, .create f⟩
  | @send _ f _ _ _ hf hm _ _ hw =>
    obtain rfl := Option.some.inj ((sendFields_target hf).symm.trans htarget)
    obtain ⟨expires, hown⟩ := hw.own
    exact Or.inr ⟨_, expires, hown, htarget, by rw [hm]; exact .send f⟩
  | @read _ f _ _ _ hf hm _ _ hw =>
    obtain rfl := Option.some.inj ((readFields_target hf).symm.trans htarget)
    obtain ⟨expires, hown⟩ := hw.own
    exact Or.inr ⟨_, expires, hown, htarget, by rw [hm]; exact .read f.peek⟩
  | replicate hf _ habsent hw =>
    obtain rfl := Option.some.inj ((replicateFields_target hf).symm.trans htarget)
    obtain ⟨expires, hown⟩ := hw.own
    exact Or.inr ⟨_, expires, hown, htarget, .replicate habsent⟩

section

variable {env : Env} {t : ℕ} {rq : Request} {m m' : Mailbox}

theorem cleared_createdAt (m : Mailbox) (ttl : Number) (t : ℕ) :
    (m.cleared ttl t).createdAt = m.createdAt := by
  unfold Mailbox.cleared
  split
  · rfl
  · split <;> rfl

theorem afterRead_createdAt (m : Mailbox) (ttl : Number) (t : ℕ) (peek : Bool) :
    (m.afterRead ttl t peek).createdAt = m.createdAt := by
  unfold Mailbox.afterRead
  split
  · exact cleared_createdAt m ttl t
  · exact cleared_createdAt m ttl t

theorem afterRead_hash (m : Mailbox) (ttl : Number) (t : ℕ) (peek : Bool) :
    (m.afterRead ttl t peek).readSecretHash = m.readSecretHash := by
  unfold Mailbox.afterRead
  split
  · exact cleared_hash m ttl t
  · exact cleared_hash m ttl t

/-- No writer changes the instant of creation. -/
theorem Rewrites.createdAt (h : Rewrites env t rq (some m) m') : m'.createdAt = m.createdAt := by
  cases h with
  | create f => rfl
  | send f => exact cleared_createdAt m _ t
  | read peek => exact afterRead_createdAt m _ t peek
  | replicate habsent => rfl

/-- No writer takes a hash away. -/
theorem Rewrites.hash (h : Rewrites env t rq (some m) m') (hm : IsHash m.readSecretHash) :
    IsHash m'.readSecretHash := by
  cases h with
  | create f => exact isHash_lower f.readSecretHash
  | send f =>
    change IsHash (m.cleared _ t).readSecretHash
    rwa [cleared_hash]
  | read peek => rwa [afterRead_hash]
  | replicate habsent => exact hm

/-- A `/create` stores one. -/
theorem Rewrites.created {rq : CreateRequest} {found : Option Mailbox}
    (h : Rewrites env t (.create rq) found m') : IsHash m'.readSecretHash := by
  cases h with
  | create f => cases found <;> exact isHash_lower f.readSecretHash

/-- The id of the entry of a `/send` is new to the mailbox. -/
def Fresh (kv : Kv) (e : ℕ × Request) : Prop :=
  ∀ rq id m, e.2 = .send rq → e.2.target = some id → kv.get e.1 (.mailbox id) = some m →
    ∀ x ∈ m.messages, x.id ≠ bytesToHex rq.entryId

/-- Every writer leaves a sound record. -/
theorem Rewrites.sound {found : Option Mailbox} (h : Rewrites env t rq found m')
    (hfound : ∀ m, found = some m → m.Sound)
    (hfresh : ∀ s m, rq = .send s → found = some m →
      ∀ x ∈ m.messages, x.id ≠ bytesToHex s.entryId) : m'.Sound := by
  cases h with
  | create f =>
    cases found with
    | none => exact sound_empty rfl rfl (Or.inr (isHash_lower f.readSecretHash))
    | some m => exact ⟨(hfound m rfl).clock, (hfound m rfl).ids, Or.inr (isHash_lower _)⟩
  | @send s m f =>
    refine ((hfound m rfl).cleared _ t).pushed ?_ t
    intro x hx
    exact hfresh s m rfl rfl x (cleared_sub m _ t x hx)
  | read peek => exact (hfound _ rfl).afterRead _ t peek
  | @replicate _ _ f habsent =>
    have hstored : (f.stored found t).Sound := by
      cases found with
      | none => exact sound_empty rfl rfl (Or.inl rfl)
      | some m => exact hfound m rfl
    refine hstored.pushed ?_ t
    intro x hx heq
    have hqueues : (f.stored found t).queues f.entry.id = true :=
      List.any_eq_true.2 ⟨x, hx, beq_iff_eq.2 heq⟩
    rw [hqueues] at habsent
    cases habsent

end

/-! ## Runs -/

section

variable {env : Env}

/-- All stored records are sound. -/
def AllSound (kv : Kv) : Prop := ∀ id slot, kv (.mailbox id) = some slot → slot.val.Sound

theorem AllSound.step {kv : Kv} (h : AllSound kv) {e : ℕ × Request} (hfresh : Fresh kv e) :
    AllSound (step env e kv) := by
  intro id slot hslot
  rcases handle_record env e.1 kv e.2 id with hsame | ⟨m, expires, hown, htarget, hrewrites⟩
  · exact h id slot (hsame.symm.trans hslot)
  · obtain rfl := Option.some.inj (hown.symm.trans hslot)
    refine hrewrites.sound (fun m hm => ?_) fun s m hs hm => hfresh s id m hs htarget hm
    obtain ⟨slot, hslot, -, rfl⟩ := Store.get_eq_some.1 hm
    exact h id slot hslot

/-- The record of `id` has not expired at the instant of any request. -/
def Lives (env : Env) (id : JString) : Kv → List (ℕ × Request) → Prop :=
  Always (step env) fun kv e => (kv.get e.1 (.mailbox id)).isSome = true

/-- **Rule for a record that lives.**  What every writer keeps of the record that it
    finds is kept. -/
theorem Lives.inv {id : JString} {J : Mailbox → Prop}
    (hwriters : ∀ t rq m m', Rewrites env t rq (some m) m' → J m → J m')
    {run : List (ℕ × Request)} {kv : Kv} (hlives : Lives env id kv run)
    (hstart : ∀ slot, kv (.mailbox id) = some slot → J slot.val) :
    ∀ slot, after (step env) kv run (.mailbox id) = some slot → J slot.val := by
  refine Always.inv (I := fun kv => ∀ slot, kv (.mailbox id) = some slot → J slot.val)
    (fun kv e h hlive slot hslot => ?_) hstart hlives
  obtain ⟨m, hm⟩ := Option.isSome_iff_exists.1 hlive
  rcases handle_record env e.1 kv e.2 id with hsame | ⟨m', expires, hown, -, hrewrites⟩
  · exact h slot (hsame.symm.trans hslot)
  · obtain rfl := Option.some.inj (hown.symm.trans hslot)
    rw [hm] at hrewrites
    obtain ⟨old, hold, -, rfl⟩ := Store.get_eq_some.1 hm
    exact hwriters _ _ _ _ hrewrites (h old hold)

/-- The request is a `/create` for `id` that is answered with success. -/
def Creates (env : Env) (id : JString) (e : ℕ × Request) (kv : Kv) : Prop :=
  ∃ life isNew, (handle env e.1 e.2 kv).1.body = .created id life isNew

theorem Creates.hash {id : JString} {e : ℕ × Request} {kv : Kv} (h : Creates env id e kv) :
    ∀ slot, step env e kv (.mailbox id) = some slot → IsHash slot.val.readSecretHash := by
  obtain ⟨t, rq⟩ := e
  obtain ⟨life, isNew, hbody⟩ := h
  have hmoves := handle_moves env t kv rq
  unfold step
  dsimp only at hbody ⊢
  generalize handle env t rq kv = p at hmoves hbody ⊢
  obtain ⟨r, kv'⟩ := p
  dsimp only at hbody ⊢
  intro slot hslot
  cases hmoves with
  | idle hidle =>
    rw [hbody] at hidle
    cases hidle
  | @create rq f _ _ hf _ hw =>
    cases hbody
    obtain ⟨expires, hown⟩ := hw.own
    obtain rfl := Option.some.inj (hown.symm.trans hslot)
    exact (@Rewrites.create env t rq _ f).created
  | send _ _ _ hbare => cases (body_of_bare hbare).symm.trans hbody
  | read _ _ _ hbare => cases (body_of_bare hbare).symm.trans hbody
  | replicate => cases hbody

/-- **Stored records.**  In a run from an empty store in which the ids of sent entries
    are fresh, every stored record is sound.  From any point of the run on, as long as
    the record lives, it keeps the instant of its creation; and if that point is an
    accepted `/create`, its hash is not empty. -/
theorem records_sound {run : List (ℕ × Request)}
    (hfresh : Always (step env) Fresh (fun _ => none) run) {id : JString}
    {slot : Slot Mailbox} (hslot : after (step env) (fun _ => none) run (.mailbox id) = some slot) :
    slot.val.Sound ∧
    ∀ first rest, run = first ++ rest →
      Lives env id (after (step env) (fun _ => none) first) rest →
      (∀ old : Slot Mailbox, after (step env) (fun _ => none) first (.mailbox id) = some old →
        slot.val.createdAt = old.val.createdAt) ∧
      ∀ before e, first = before ++ [e] →
        Creates env id e (after (step env) (fun _ => none) before) →
        IsHash slot.val.readSecretHash := by
  have hsound : AllSound (after (step env) (fun _ => none) run) :=
    Always.inv (fun _ _ h he => AllSound.step h he) (fun _ _ h => by cases h) hfresh
  refine ⟨hsound id slot hslot, ?_⟩
  rintro first rest rfl hlives
  rw [after_append] at hslot
  refine ⟨fun old hold => ?_, ?_⟩
  · refine hlives.inv (J := fun m => m.createdAt = old.val.createdAt)
      (fun t rq m m' h hm => h.createdAt.trans hm) ?_ slot hslot
    intro start hstart
    rw [Option.some.inj (hstart.symm.trans hold)]
  · rintro before e rfl hcreates
    refine hlives.inv (J := fun m => IsHash m.readSecretHash)
      (fun t rq m m' h hm => h.hash hm) ?_ slot hslot
    rw [after_append]
    exact hcreates.hash

end

/-- A table is pushed, a mailbox is created, and a sibling pushes an entry. -/
def createdRun : List (ℕ × Request) :=
  [(0, .routingTablePush (some siblingTable)), (0, .create sampleCreate)]

/-- A run of one push. -/
def pushedRun : List (ℕ × Request) := [(0, .replicate (siblingPush (js "1") (js "m")))]

theorem pushed_record_sound :
    Always (step (trustingEnv {})) Fresh (fun _ => none) (createdRun ++ pushedRun) ∧
    ∃ slot : Slot Mailbox, after (step (trustingEnv {})) (fun _ => none) (createdRun ++ pushedRun)
        (.mailbox (letters 16)) = some slot ∧
      slot.val.messages.length = 1 ∧ slot.val.Sound ∧ slot.val.createdAt = 0 ∧
      IsHash slot.val.readSecretHash := by
  have hfresh : Always (step (trustingEnv {})) Fresh (fun _ => none) (createdRun ++ pushedRun) := by
    refine ⟨?_, ?_, ?_, trivial⟩ <;> rintro rq id m ⟨⟩
  have hcreated : (after (step (trustingEnv {})) (fun _ => none) createdRun
      (.mailbox (letters 16))).map (fun slot => slot.val.createdAt) = some 0 := by
    decide +kernel
  obtain ⟨old, hold, hzero⟩ := Option.map_eq_some_iff.1 hcreated
  have hpushed : (after (step (trustingEnv {})) (fun _ => none) (createdRun ++ pushedRun)
      (.mailbox (letters 16))).map (fun slot => slot.val.messages.length) = some 1 := by
    decide +kernel
  obtain ⟨slot, hslot, hone⟩ := Option.map_eq_some_iff.1 hpushed
  obtain ⟨hsound, hpoint⟩ := records_sound hfresh hslot
  obtain ⟨hsince, hhash⟩ := hpoint createdRun pushedRun rfl ⟨by decide +kernel, trivial⟩
  refine ⟨hfresh, slot, hslot, hone, hsound, (hsince old hold).trans hzero, ?_⟩
  exact hhash [(0, .routingTablePush (some siblingTable))] (0, .create sampleCreate) rfl
    ⟨_, _, rfl⟩

end Shard
