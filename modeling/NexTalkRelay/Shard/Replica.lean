/-
  A mailbox on its primary and on a sibling.

  The primary accepts messages and the sibling accepts the pushes of them, late,
  in any order or repeatedly.  A push is queued behind whatever backlog the
  sibling has, even one that has expired, where `/send` would have cleared it.

  * `Holds`: a shard has a record whose backlog has not expired;
  * `Replication` fixes the two shards and the mailbox, `Pair` is their state
    with the messages accepted and delivered so far, `Traffic` what may happen;
  * `InTime`: a push finds no backlog older than that of the primary, and no
    expired record;
  * `replica_covers`: then a read at the sibling misses nothing.
-/
import NexTalkRelay.Lib.Runs
import NexTalkRelay.Shard.Queue
import NexTalkRelay.Shard.Replay

open Effect Js Runs

namespace Shard

/-! ## What a read finds -/

/-- The backlog has not expired. -/
def Mailbox.Fresh (m : Mailbox) (ttl : Number) (t : ℕ) : Prop :=
  ∀ u, m.messagesEnqueuedAt = some u → ttl.le (.ofInt (((t : ℤ) - u) / 1000)) = false

/-- The shard has the record, and its backlog has not expired. -/
structure Holds (env : Env) (kv : Kv) (t : ℕ) (id : JString) (m : Mailbox) : Prop where
  found : kv.get t (.mailbox id) = some m
  fresh : m.Fresh env.cfg.ttlSeconds t

/-- The answer to a read that has passed its gate. -/
def readAt (env : Env) (t : ℕ) (rq : ReadRequest) (f : ReadFields) (kv : Kv) : Response :=
  (runAt env.crypto t (readMailbox env rq f) kv).1.getD crashed

section
variable {m m' : Mailbox} {ttl : Number} {t t' : ℕ}

/-- A backlog that started later, or is looked at earlier, is fresh as well. -/
theorem Mailbox.Fresh.of_le (h : m.Fresh ttl t) (ht : t' ≤ t)
    (hu : ∀ u', m'.messagesEnqueuedAt = some u' → ∃ u, m.messagesEnqueuedAt = some u ∧ u ≤ u') :
    m'.Fresh ttl t' := by
  intro u' hu'
  obtain ⟨u, hm, hle⟩ := hu u' hu'
  have hdiv : ((t' : ℤ) - u') / 1000 ≤ ((t : ℤ) - u) / 1000 :=
    Int.ediv_le_ediv (by omega) (by omega)
  by_contra hstale
  rw [Bool.not_eq_false] at hstale
  exact absurd ((h u hm).symm.trans (Number.le_ofInt_mono hdiv hstale)) (by simp)

theorem Mailbox.Fresh.earlier (h : m.Fresh ttl t) (ht : t' ≤ t) : m.Fresh ttl t' :=
  h.of_le ht fun u hu => ⟨u, hu, le_rfl⟩

theorem cleared_of_fresh (h : m.Fresh ttl t) : m.cleared ttl t = m := by
  unfold Mailbox.cleared
  split
  · rfl
  · next u hu => rw [if_neg (by simp [h u hu])]

/-- Only a fresh backlog survives. -/
theorem fresh_of_mem_cleared {e : Entry} (h : e ∈ (m.cleared ttl t).messages) : m.Fresh ttl t := by
  intro u hu
  by_contra hstale
  rw [Bool.not_eq_false] at hstale
  unfold Mailbox.cleared at h
  rw [hu] at h
  simp [hstale] at h

theorem Holds.earlier {env : Env} {kv : Kv} {id : JString} (h : Holds env kv t id m) (ht : t' ≤ t) :
    Holds env kv t' id m :=
  ⟨Store.get_of_later ht h.found, h.fresh.earlier ht⟩

/-- **What a read returns.** -/
theorem mem_readAt {env : Env} {rq : ReadRequest} {f : ReadFields} {kv : Kv} {e : Entry} :
    e ∈ (readAt env t rq f kv).entries ↔ ∃ m life, Holds env kv t f.mailboxId.lower m ∧
      env.cfg.mailboxTtlSeconds.toInt? = some life ∧ e ∈ m.messages ∧
      constantTimeEqual (env.crypto.sha256Hex f.readSecret) m.readSecretHash = true := by
  unfold readAt runAt
  cases hm : kv.get t (.mailbox f.mailboxId.lower) with
  | none =>
    rw [readMailbox_run_none kv [] rq f hm]
    constructor
    · rintro ⟨⟩
    · rintro ⟨m, _, hholds, -⟩
      cases hm.symm.trans hholds.found
  | some m =>
    cases hsecret : constantTimeEqual (env.crypto.sha256Hex f.readSecret) m.readSecretHash with
    | false =>
      rw [readMailbox_run_wrong kv [] rq f hm hsecret]
      constructor
      · rintro ⟨⟩
      · rintro ⟨m', _, hholds, -, -, hs⟩
        obtain rfl := Option.some.inj (hm.symm.trans hholds.found)
        cases hsecret.symm.trans hs
    | true =>
      cases hlife : env.cfg.mailboxTtlSeconds.toInt? with
      | none =>
        simp only [readMailbox, kvGet, Prog.bind_eq, Prog.perform_bind, KvOp.run_get, hm,
          putMailbox_crash hlife, Prog.throw_bind]
        rw [if_neg (by simp [hsecret]), Prog.run_bind_some (clearStale_run kv [] m)]
        constructor
        · rintro ⟨⟩
        · rintro ⟨_, _, -, hlife, -⟩
          cases hlife
      | some life =>
        obtain ⟨r, s', hrun, hbare, -⟩ := readMailbox_run kv [] hlife rq f hm hsecret
        have hentries : r.entries = (m.cleared env.cfg.ttlSeconds t).messages := by
          unfold Response.entries
          rw [body_of_bare hbare]
        rw [hrun]
        change e ∈ r.entries ↔ _
        rw [hentries]
        constructor
        · intro he
          have hfresh := fresh_of_mem_cleared he
          rw [cleared_of_fresh hfresh] at he
          exact ⟨m, life, ⟨hm, hfresh⟩, rfl, he, hsecret⟩
        · rintro ⟨m', _, hholds, -, he, -⟩
          obtain rfl := Option.some.inj (hm.symm.trans hholds.found)
          rw [cleared_of_fresh hholds.fresh]
          exact he

end

/-! ## Two shards -/

/-- A mailbox with the same limits and the same secret on two shards. -/
structure Replication where
  primary : Env
  sibling : Env
  mailboxId : JString
  hash : JString
  ttl : sibling.cfg.ttlSeconds = primary.cfg.ttlSeconds
  lifetime : sibling.cfg.mailboxTtlSeconds = primary.cfg.mailboxTtlSeconds
  sha256 : sibling.crypto.sha256 = primary.crypto.sha256

/-- The stores of the two shards, the entries that the primary has accepted and
    those whose push the sibling has answered with success, and whether the
    sibling has accepted a `/create`. -/
structure Pair where
  now : ℕ
  primary : Kv
  sibling : Kv
  accepted : List Entry
  delivered : List Entry
  created : Bool

/-- A request at one of the shards. -/
inductive Traffic where
  | primary (t : ℕ) (rq : Request)
  | sibling (t : ℕ) (rq : Request)

/-- When it arrives. -/
def Traffic.time : Traffic → ℕ
  | primary t _ | sibling t _ => t

namespace Replication

variable (w : Replication)

/-- The entry of the mailbox that the primary has accepted. -/
def accepts (t : ℕ) (rq : Request) (r : Response) : List Entry :=
  match rq, r.body with
  | .send rq, .sent _ =>
    match sendFields w.primary rq.body with
    | .ok f => if f.mailboxId.lower = w.mailboxId then [newEntry f rq.entryId t] else []
    | .error _ => []
  | _, _ => []

/-- The entry of the mailbox whose push the sibling has answered. -/
def delivers (rq : Request) (r : Response) : List Entry :=
  match rq, r.body with
  | .replicate rq, .replicated _ =>
    match replicateFields rq.body with
    | .ok f => if f.mailboxId.lower = w.mailboxId then [f.entry] else []
    | .error _ => []
  | _, _ => []

/-- Whether the response says that the mailbox was created. -/
def creates (r : Response) : Bool :=
  match r.body with
  | .created id _ _ => id == w.mailboxId
  | _ => false

/-- One request to one of the two shards. -/
def step (e : Traffic) (x : Pair) : Pair :=
  match e with
  | .primary t rq => { x with
      now := t
      primary := (handle w.primary t rq x.primary).2
      accepted := x.accepted ++ w.accepts t rq (handle w.primary t rq x.primary).1 }
  | .sibling t rq => { x with
      now := t
      sibling := (handle w.sibling t rq x.sibling).2
      delivered := x.delivered ++ w.delivers rq (handle w.sibling t rq x.sibling).1
      created := x.created || w.creates (handle w.sibling t rq x.sibling).1 }

/-- The primary takes messages for the mailbox, the sibling pushes of accepted
    ones and a `/create` with the same secret; time does not run backwards, and
    other mailboxes and the routing table may change in any way. -/
structure Replicates (x : Pair) (e : Traffic) : Prop where
  later : x.now ≤ e.time
  primary : ∀ t rq, e = .primary t rq → rq.target = some w.mailboxId →
    (∃ send, rq = .send send) ∨ ∃ query, rq = .exists_ query
  sibling : ∀ t rq, e = .sibling t rq → rq.target = some w.mailboxId →
    (∃ create, rq = .create create ∧
        ∀ f, createFields create.body = .ok f → f.readSecretHash.lower = w.hash) ∨
      (∃ push, rq = .replicate push ∧
        ∀ f, replicateFields push.body = .ok f → f.entry ∈ x.accepted) ∨
      ∃ query, rq = .exists_ query

/-- The sibling had a record, which has expired. -/
def Gone (x : Pair) (t : ℕ) : Prop :=
  x.sibling (.mailbox w.mailboxId) ≠ none ∧ x.sibling.get t (.mailbox w.mailboxId) = none

/-- A push is queued for the mailbox at the sibling. -/
def Pushed (x : Pair) (t : ℕ) (e : Traffic) : Prop :=
  ∃ rq f, e = .sibling t (.replicate rq) ∧ Queued w.sibling t x.sibling rq f ∧
    f.mailboxId.lower = w.mailboxId

/-- No id is drawn twice; a push is queued behind no backlog that started before
    that of the primary; the record of the sibling has not expired while the
    primary holds an entry that was delivered, nor when a push would build a
    shell in the place of a created record. -/
structure InTime (x : Pair) (e : Traffic) : Prop where
  drawn : ∀ t rq f, e = .primary t (.send rq) → sendFields w.primary rq.body = .ok f →
    f.mailboxId.lower = w.mailboxId → ∀ a ∈ x.accepted, a.id ≠ bytesToHex rq.entryId
  clock : ∀ t m m', w.Pushed x t e → Holds w.primary x.primary t w.mailboxId m →
    x.sibling.get t (.mailbox w.mailboxId) = some m' →
      ∀ u u', m.messagesEnqueuedAt = some u → m'.messagesEnqueuedAt = some u' → u ≤ u'
  kept : ∀ t rq m, e = .sibling t rq → rq.target = some w.mailboxId → w.Gone x t →
    Holds w.primary x.primary t w.mailboxId m → ∀ a ∈ m.messages, a ∉ x.delivered
  shell : ∀ t, w.Pushed x t e → w.Gone x t → x.created = false

/-- The primary has created the mailbox, or not yet; the sibling has not heard
    of it. -/
structure Start (x : Pair) : Prop where
  empty : ∀ slot, x.primary (.mailbox w.mailboxId) = some slot → slot.val.messages = [] ∧
    slot.val.messagesEnqueuedAt = none ∧ slot.val.readSecretHash = w.hash
  unknown : x.sibling (.mailbox w.mailboxId) = none
  accepted : x.accepted = []
  delivered : x.delivered = []
  created : x.created = false

/-- Once everything is delivered, a read at the sibling returns what one at the
    primary returns. -/
def Mirrors (x : Pair) : Prop :=
  (∀ a ∈ x.accepted, a ∈ x.delivered) → x.created = true →
    ∀ t, x.now ≤ t → ∀ rq rq' f, f.mailboxId.lower = w.mailboxId →
      ∀ a ∈ (readAt w.primary t rq f x.primary).entries,
        a ∈ (readAt w.sibling t rq' f x.sibling).entries

/-! ## The invariant -/

/-- What relates the two records. -/
structure Inv (x : Pair) : Prop where
  ids : ∀ a ∈ x.accepted, ∀ b ∈ x.accepted, a.id = b.id → a = b
  known : ∀ a ∈ x.delivered, a ∈ x.accepted
  /-- The record of the primary. -/
  primary : ∀ slot, x.primary (.mailbox w.mailboxId) = some slot →
    slot.val.readSecretHash = w.hash ∧ (∀ a ∈ slot.val.messages, a ∈ x.accepted) ∧
      (∀ u, slot.val.messagesEnqueuedAt = some u → u ≤ x.now) ∧
      (slot.val.messages = [] ∨ slot.val.messagesEnqueuedAt.isSome = true ∧
        ∃ life expires, w.primary.cfg.mailboxTtlSeconds.toInt? = some life ∧
          slot.expires = some expires ∧ expires ≤ x.now + 1000 * life)
  /-- The record of the sibling. -/
  sibling : ∀ slot, x.sibling (.mailbox w.mailboxId) = some slot →
    (∀ a ∈ slot.val.messages, a ∈ x.delivered) ∧
      (x.created = true → slot.val.readSecretHash = w.hash) ∧
      ∃ life expires, w.primary.cfg.mailboxTtlSeconds.toInt? = some life ∧
        slot.expires = some expires ∧ expires ≤ x.now + 1000 * life
  unknown : x.sibling (.mailbox w.mailboxId) = none → (∀ a, a ∉ x.delivered) ∧ x.created = false
  /-- What is delivered is queued behind a clock that started no earlier. -/
  covered : ∀ m, Holds w.primary x.primary x.now w.mailboxId m → ∀ a ∈ m.messages,
    a ∈ x.delivered → ∃ slot u', x.sibling (.mailbox w.mailboxId) = some slot ∧
      a ∈ slot.val.messages ∧ slot.val.messagesEnqueuedAt = some u' ∧
      ∀ u, m.messagesEnqueuedAt = some u → u ≤ u'
  /-- The record of the sibling outlives that of the primary once the last
      message is delivered. -/
  outlives : ∀ p s, x.primary (.mailbox w.mailboxId) = some p →
    x.sibling (.mailbox w.mailboxId) = some s → ∀ a, p.val.messages.getLast? = some a →
      a ∈ x.delivered → ∃ d d', p.expires = some d ∧ s.expires = some d' ∧ d ≤ d'

theorem Start.inv {w : Replication} {x : Pair} (h : w.Start x) : w.Inv x where
  ids a ha := by rw [h.accepted] at ha; cases ha
  known a ha := by rw [h.delivered] at ha; cases ha
  primary slot hslot := by
    obtain ⟨hm, hu, hhash⟩ := h.empty slot hslot
    refine ⟨hhash, fun a ha => ?_, fun u hu' => ?_, Or.inl hm⟩
    · rw [hm] at ha; cases ha
    · rw [hu] at hu'; cases hu'
  sibling slot hslot := by rw [h.unknown] at hslot; cases hslot
  unknown _ := by
    refine ⟨fun a ha => ?_, h.created⟩
    rw [h.delivered] at ha
    cases ha
  covered m _ a _ ha := by rw [h.delivered] at ha; cases ha
  outlives p s _ hs := by rw [h.unknown] at hs; cases hs

section
variable {w : Replication} {x x' : Pair}

/-- The two records are as before. -/
theorem Inv.same (h : w.Inv x) (hnow : x.now ≤ x'.now)
    (hp : x'.primary (.mailbox w.mailboxId) = x.primary (.mailbox w.mailboxId))
    (hs : x'.sibling (.mailbox w.mailboxId) = x.sibling (.mailbox w.mailboxId))
    (haccepted : x'.accepted = x.accepted) (hdelivered : ∀ a, a ∈ x'.delivered ↔ a ∈ x.delivered)
    (hcreated : x'.created = x.created) : w.Inv x' where
  ids := by rw [haccepted]; exact h.ids
  known a ha := by rw [haccepted]; exact h.known a ((hdelivered a).1 ha)
  primary slot hslot := by
    rw [hp] at hslot
    obtain ⟨hhash, hsub, hu, hrest⟩ := h.primary slot hslot
    refine ⟨hhash, by rw [haccepted]; exact hsub, fun u hu' => (hu u hu').trans hnow, ?_⟩
    rcases hrest with hnil | ⟨hsome, life, expires, hlife, hexp, hle⟩
    · exact Or.inl hnil
    · exact Or.inr ⟨hsome, life, expires, hlife, hexp, hle.trans (by omega)⟩
  sibling slot hslot := by
    rw [hs] at hslot
    obtain ⟨hsub, hhash, life, expires, hlife, hexp, hle⟩ := h.sibling slot hslot
    refine ⟨fun a ha => (hdelivered a).2 (hsub a ha), by rw [hcreated]; exact hhash, life, expires,
      hlife, hexp, hle.trans (by omega)⟩
  unknown hnone := by
    rw [hs] at hnone
    obtain ⟨hd, hc⟩ := h.unknown hnone
    exact ⟨fun a ha => hd a ((hdelivered a).1 ha), by rw [hcreated]; exact hc⟩
  covered m hm a ha hd := by
    rw [hs]
    have hm' : Holds w.primary x.primary x'.now w.mailboxId m :=
      ⟨by rw [← Store.get_congr hp]; exact hm.found, hm.fresh⟩
    exact h.covered m (hm'.earlier hnow) a ha ((hdelivered a).1 hd)
  outlives p s hp' hs' a ha hd := by
    rw [hp] at hp'
    rw [hs] at hs'
    exact h.outlives p s hp' hs' a ha ((hdelivered a).1 hd)

/-- **Once everything is delivered, the sibling mirrors the primary.** -/
theorem Inv.mirrors (h : w.Inv x) : w.Mirrors x := by
  intro hall hcreated t ht rq rq' f hf a ha
  obtain ⟨m, life, hm, hlife, hmem, hsecret⟩ := mem_readAt.1 ha
  rw [hf] at hm
  obtain ⟨p, hp, hplive, rfl⟩ := Store.get_eq_some.1 hm.found
  obtain ⟨hhash, hsub, -, hrest⟩ := h.primary p hp
  obtain ⟨s, u', hs, has, hu', hle⟩ :=
    h.covered p.val (hm.earlier ht) a hmem (hall a (hsub a hmem))
  obtain ⟨-, hshash, -⟩ := h.sibling s hs
  have hne : p.val.messages ≠ [] := List.ne_nil_of_mem hmem
  have hlast := List.getLast?_eq_some_getLast hne
  obtain ⟨d, d', hd, hd', hdd⟩ :=
    h.outlives p s hp hs _ hlast (hall _ (hsub _ (List.getLast_mem hne)))
  have hslive : s.live t = true := by
    unfold Slot.live at hplive ⊢
    rw [hd] at hplive
    rw [hd']
    simp only [decide_eq_true_eq] at hplive ⊢
    omega
  have hfresh : s.val.Fresh w.sibling.cfg.ttlSeconds t := by
    rw [w.ttl]
    refine hm.fresh.of_le le_rfl fun v hv => ?_
    obtain rfl : u' = v := Option.some.inj (hu'.symm.trans hv)
    rcases hrest with hnil | ⟨hsome, -⟩
    · exact absurd hnil hne
    · obtain ⟨u, hu⟩ := Option.isSome_iff_exists.1 hsome
      exact ⟨u, hu, hle u hu⟩
  refine mem_readAt.2 ⟨s.val, life, ⟨?_, hfresh⟩, ?_, has, ?_⟩
  · rw [hf]; exact Store.get_live hs hslive
  · rw [w.lifetime]; exact hlife
  · rw [hshash hcreated, ← hhash]
    unfold Crypto.sha256Hex at hsecret ⊢
    rw [w.sha256]
    exact hsecret

/-- The primary queues one more message. -/
theorem Inv.sent (h : w.Inv x) {t : ℕ} (ht : x.now ≤ t) {m : Mailbox} {e : Entry} {kv' : Kv}
    (hm : x.primary.get t (.mailbox w.mailboxId) = some m) (hid : ∀ a ∈ x.accepted, a.id ≠ e.id)
    (hw : Wrote w.primary t x.primary w.mailboxId
      ((m.cleared w.primary.cfg.ttlSeconds t).pushed e t) kv') :
    w.Inv { x with now := t, primary := kv', accepted := x.accepted ++ [e] } := by
  obtain ⟨life, hlife, hslot⟩ := hw.slot
  obtain ⟨p, hp, -, rfl⟩ := Store.get_eq_some.1 hm
  obtain ⟨hhash, hsub, hu, hrest⟩ := h.primary p hp
  have hnew : e ∉ x.delivered := fun he => hid e (h.known e he) rfl
  have hclear : ∀ u, (p.val.cleared w.primary.cfg.ttlSeconds t).messagesEnqueuedAt = some u →
      u ≤ x.now := by
    intro u
    unfold Mailbox.cleared
    split
    · exact hu u
    · split
      · rintro ⟨⟩
      · exact hu u
  refine ⟨fun a ha b hb hab => ?_, fun a ha => List.mem_append_left _ (h.known a ha),
    fun slot hs => ?_, fun slot hs => ?_, h.unknown, fun m' hm' a ha hd => ?_,
    fun p' s' hp' hs' a ha hd => ?_⟩
  · rcases List.mem_append.1 ha with ha | ha <;> rcases List.mem_append.1 hb with hb | hb
    · exact h.ids a ha b hb hab
    · rw [List.mem_singleton.1 hb] at hab; exact absurd hab (hid a ha)
    · rw [List.mem_singleton.1 ha] at hab; exact absurd hab.symm (hid b hb)
    · rw [List.mem_singleton.1 ha, List.mem_singleton.1 hb]
  · obtain rfl := Option.some.inj (hslot.symm.trans hs)
    refine ⟨(cleared_hash p.val _ t).trans hhash, fun a ha => ?_, fun u hu' => ?_,
      Or.inr ⟨rfl, life, _, hlife, rfl, le_rfl⟩⟩
    · exact List.mem_append.2 ((List.mem_append.1 ha).imp_left fun ha =>
        hsub a (cleared_sub p.val _ t a ha))
    · cases hc : (p.val.cleared w.primary.cfg.ttlSeconds t).messagesEnqueuedAt with
      | none =>
        simp only [Mailbox.pushed, hc, Option.getD_none, Option.some.injEq] at hu'
        exact hu'.symm.le
      | some v =>
        simp only [Mailbox.pushed, hc, Option.getD_some, Option.some.injEq] at hu'
        exact (hu'.symm.le.trans (hclear v hc)).trans ht
  · obtain ⟨hsub', hhash', life', expires, hlife', hexp, hle⟩ := h.sibling slot hs
    exact ⟨hsub', hhash', life', expires, hlife', hexp, hle.trans (by dsimp only; omega)⟩
  · obtain ⟨slot, hs, -, rfl⟩ := Store.get_eq_some.1 hm'.found
    obtain rfl := Option.some.inj (hslot.symm.trans hs)
    rcases List.mem_append.1 ha with ha | ha
    · -- the backlog was not cleared, for `a` is still there
      have hfresh := fresh_of_mem_cleared ha
      rw [cleared_of_fresh hfresh] at ha
      obtain ⟨s, u', hs', has, hu', hle⟩ :=
        h.covered p.val (Holds.earlier ⟨hm, hfresh⟩ ht) a ha hd
      refine ⟨s, u', hs', has, hu', fun u hpu => ?_⟩
      rcases hrest with hnil | ⟨hsome, -⟩
      · rw [hnil] at ha; cases ha
      · obtain ⟨v, hv⟩ := Option.isSome_iff_exists.1 hsome
        rw [cleared_of_fresh hfresh] at hpu
        simp only [Mailbox.pushed, hv, Option.getD_some, Option.some.injEq] at hpu
        exact hpu ▸ hle v hv
    · rw [List.mem_singleton.1 ha] at hd
      exact absurd hd hnew
  · obtain rfl := Option.some.inj (hslot.symm.trans hp')
    simp only [Mailbox.pushed, List.getLast?_append, List.getLast?_singleton, Option.some_or,
      Option.some.injEq] at ha
    exact absurd (ha ▸ hd) hnew

/-- The sibling writes its record. -/
theorem Inv.wrote (h : w.Inv x) {t : ℕ} (ht : x.now ≤ t) {m' : Mailbox} {kv' : Kv}
    {delivered : List Entry} {created : Bool}
    (hw : Wrote w.sibling t x.sibling w.mailboxId m' kv')
    (hsub : ∀ a ∈ m'.messages, a ∈ delivered) (hknown : ∀ a ∈ delivered, a ∈ x.accepted)
    (hhash : created = true → m'.readSecretHash = w.hash)
    (hcovered : ∀ m, Holds w.primary x.primary t w.mailboxId m → ∀ a ∈ m.messages, a ∈ delivered →
      a ∈ m'.messages ∧ ∃ u', m'.messagesEnqueuedAt = some u' ∧
        ∀ u, m.messagesEnqueuedAt = some u → u ≤ u') :
    w.Inv { x with now := t, sibling := kv', delivered := delivered, created := created } := by
  obtain ⟨life, hlife, hslot⟩ := hw.slot
  rw [w.lifetime] at hlife
  refine ⟨h.ids, hknown, fun slot hs => ?_, fun slot hs => ?_, fun hnone => ?_,
    fun m hm a ha hd => ?_, fun p s hp hs a ha hd => ?_⟩
  · obtain ⟨hhash', hsub', hu, hrest⟩ := h.primary slot hs
    refine ⟨hhash', hsub', fun u hu' => (hu u hu').trans ht, hrest.imp_right ?_⟩
    rintro ⟨hsome, life', expires, hlife', hexp, hle⟩
    exact ⟨hsome, life', expires, hlife', hexp, hle.trans (by dsimp only; omega)⟩
  · obtain rfl := Option.some.inj (hslot.symm.trans hs)
    exact ⟨hsub, hhash, life, _, hlife, rfl, le_rfl⟩
  · cases hslot.symm.trans hnone
  · obtain ⟨ham, u', hu', hle⟩ := hcovered m hm a ha hd
    exact ⟨_, u', hslot, ham, hu', hle⟩
  · obtain rfl := Option.some.inj (hslot.symm.trans hs)
    obtain ⟨-, -, -, hrest⟩ := h.primary p hp
    rcases hrest with hnil | ⟨-, life', expires, hlife', hexp, hle⟩
    · rw [hnil] at ha; cases ha
    · obtain rfl := Option.some.inj (hlife.symm.trans hlife')
      exact ⟨expires, _, hexp, rfl, hle.trans (by omega)⟩

/-- Nothing that the primary holds was delivered to a record that is not there. -/
theorem Inv.lost (h : w.Inv x) {t : ℕ}
    (hkept : w.Gone x t → ∀ m, Holds w.primary x.primary t w.mailboxId m →
      ∀ a ∈ m.messages, a ∉ x.delivered)
    (hnone : x.sibling.get t (.mailbox w.mailboxId) = none) {m : Mailbox}
    (hm : Holds w.primary x.primary t w.mailboxId m) : ∀ a ∈ m.messages, a ∉ x.delivered := by
  by_cases hs : x.sibling (.mailbox w.mailboxId) = none
  · exact fun a _ => (h.unknown hs).1 a
  · exact hkept ⟨hs, hnone⟩ m hm

/-- The sibling queues a push. -/
theorem Inv.pushed (h : w.Inv x) {t : ℕ} (ht : x.now ≤ t) {f : ReplicateFields} {kv' : Kv}
    (hknown : f.entry ∈ x.accepted)
    (hclock : ∀ m m', Holds w.primary x.primary t w.mailboxId m →
      x.sibling.get t (.mailbox w.mailboxId) = some m' →
        ∀ u u', m.messagesEnqueuedAt = some u → m'.messagesEnqueuedAt = some u' → u ≤ u')
    (hkept : w.Gone x t → ∀ m, Holds w.primary x.primary t w.mailboxId m →
      ∀ a ∈ m.messages, a ∉ x.delivered)
    (hshell : w.Gone x t → x.created = false)
    (hw : Wrote w.sibling t x.sibling w.mailboxId
      ((f.stored (x.sibling.get t (.mailbox w.mailboxId)) t).pushed f.entry t) kv') :
    w.Inv { x with now := t, sibling := kv', delivered := x.delivered ++ [f.entry] } := by
  have hstart : ∀ m, Holds w.primary x.primary t w.mailboxId m →
      ∀ u, m.messagesEnqueuedAt = some u → u ≤ t := by
    intro m hm u hu
    obtain ⟨p, hp, -, rfl⟩ := Store.get_eq_some.1 hm.found
    exact ((h.primary p hp).2.2.1 u hu).trans ht
  have hdelivered : ∀ a ∈ x.delivered ++ [f.entry], a ∈ x.accepted := by
    intro a ha
    rcases List.mem_append.1 ha with ha | ha
    · exact h.known a ha
    · rw [List.mem_singleton.1 ha]; exact hknown
  have hself (m : Mailbox) : f.entry ∈ (m.pushed f.entry t).messages :=
    List.mem_append_right _ (List.mem_singleton_self _)
  cases hm' : x.sibling.get t (.mailbox w.mailboxId) with
  | none =>
    rw [hm'] at hw
    refine h.wrote ht hw (fun a ha => ?_) hdelivered (fun hc => ?_) fun m hm a ha hd => ?_
    · exact List.mem_append_right _ ha
    · by_cases hs : x.sibling (.mailbox w.mailboxId) = none
      · rw [(h.unknown hs).2] at hc; cases hc
      · rw [hshell ⟨hs, hm'⟩] at hc; cases hc
    · rcases List.mem_append.1 hd with hd | hd
      · exact absurd hd (h.lost hkept hm' hm a ha)
      · rw [List.mem_singleton.1 hd]
        exact ⟨hself _, t, rfl, hstart m hm⟩
  | some m' =>
    rw [hm'] at hw
    obtain ⟨s, hs, -, rfl⟩ := Store.get_eq_some.1 hm'
    obtain ⟨hsub, hhash, -⟩ := h.sibling s hs
    refine h.wrote ht hw (fun a ha => ?_) hdelivered hhash fun m hm a ha hd => ?_
    · exact List.mem_append.2 ((List.mem_append.1 ha).imp_left (hsub a))
    · rcases List.mem_append.1 hd with hd | hd
      · obtain ⟨s', u', hs', has, hu', hle⟩ := h.covered m (hm.earlier ht) a ha hd
        obtain rfl := Option.some.inj (hs.symm.trans hs')
        refine ⟨List.mem_append_left _ has, u', ?_, hle⟩
        simp only [Mailbox.pushed, ReplicateFields.stored, Option.getD_some, hu']
      · rw [List.mem_singleton.1 hd]
        refine ⟨hself _, _, rfl, fun u hu => ?_⟩
        change u ≤ s.val.messagesEnqueuedAt.getD t
        cases hu' : s.val.messagesEnqueuedAt with
        | none => exact hstart m hm u hu
        | some u' => exact hclock m s.val hm hm' u u' hu hu'

/-- The sibling accepts a `/create`. -/
theorem Inv.created (h : w.Inv x) {t : ℕ} (ht : x.now ≤ t) {f : CreateFields} {kv' : Kv}
    (hhash : f.readSecretHash.lower = w.hash)
    (hkept : w.Gone x t → ∀ m, Holds w.primary x.primary t w.mailboxId m →
      ∀ a ∈ m.messages, a ∉ x.delivered)
    (hw : Wrote w.sibling t x.sibling w.mailboxId
      (f.record (x.sibling.get t (.mailbox w.mailboxId)) t) kv') :
    w.Inv { x with now := t, sibling := kv', created := true } := by
  cases hm' : x.sibling.get t (.mailbox w.mailboxId) with
  | none =>
    rw [hm'] at hw
    refine h.wrote ht hw (fun a ha => ?_) h.known (fun _ => hhash) fun m hm a ha hd => ?_
    · cases ha
    · exact absurd hd (h.lost hkept hm' hm a ha)
  | some m' =>
    rw [hm'] at hw
    obtain ⟨s, hs, -, rfl⟩ := Store.get_eq_some.1 hm'
    refine h.wrote ht hw (h.sibling s hs).1 h.known (fun _ => hhash) fun m hm a ha hd => ?_
    obtain ⟨s', u', hs', has, hu', hle⟩ := h.covered m (hm.earlier ht) a ha hd
    obtain rfl := Option.some.inj (hs.symm.trans hs')
    exact ⟨has, u', hu', hle⟩

/-! ## Steps and runs -/

theorem accepts_idle {t : ℕ} {rq : Request} {r : Response} (h : r.body.idle = true) :
    w.accepts t rq r = [] := by
  unfold accepts
  split
  · next hbody => rw [hbody] at h; cases h
  · rfl

theorem accepts_other {t : ℕ} {rq : Request} {r : Response} (h : rq.target ≠ some w.mailboxId) :
    w.accepts t rq r = [] := by
  unfold accepts
  split
  · split
    · next hf => exact if_neg fun hM => h ((sendFields_target hf).trans (congrArg some hM))
    · rfl
  · rfl

theorem mem_delivers {rq : Request} {r : Response} {a : Entry} (h : a ∈ w.delivers rq r) :
    ∃ push f deduped, rq = .replicate push ∧ r.body = .replicated deduped ∧
      replicateFields push.body = .ok f ∧ f.mailboxId.lower = w.mailboxId ∧ a = f.entry := by
  unfold delivers at h
  split at h
  · next push deduped hbody =>
    split at h
    · next f hf =>
      split at h
      · next hM => exact ⟨push, f, deduped, rfl, hbody, hf, hM, List.mem_singleton.1 h⟩
      · cases h
    · cases h
  · cases h

theorem creates_idle {r : Response} (h : r.body.idle = true) : w.creates r = false := by
  unfold creates
  split
  · next hbody => rw [hbody] at h; cases h
  · rfl

/-- A request at the primary. -/
theorem Inv.step_primary (h : w.Inv x) {t : ℕ} {rq : Request} (hr : w.Replicates x (.primary t rq))
    (ht : w.InTime x (.primary t rq)) : w.Inv (w.step (.primary t rq) x) := by
  have hmoves := handle_moves w.primary t x.primary rq
  have hframe (hne : rq.target ≠ some w.mailboxId) := handle_frame w.primary t x.primary hne
  unfold Replication.step
  dsimp only
  generalize handle w.primary t rq x.primary = p at hmoves hframe ⊢
  obtain ⟨r, kv'⟩ := p
  have hidle (hkv : kv' (.mailbox w.mailboxId) = x.primary (.mailbox w.mailboxId))
      (ha : w.accepts t rq r = []) :
      w.Inv { x with now := t, primary := kv', accepted := x.accepted ++ w.accepts t rq r } :=
    h.same hr.later hkv rfl (by dsimp only; rw [ha, List.append_nil]) (fun _ => Iff.rfl) rfl
  by_cases htarget : rq.target = some w.mailboxId
  · cases hmoves with
    | idle hbody _ hsame => exact hidle (hsame _) (accepts_idle hbody)
    | @send rq f m _ _ hf hm _ hbare hw =>
      have hM : f.mailboxId.lower = w.mailboxId :=
        Option.some.inj ((sendFields_target hf).symm.trans htarget)
      have hbody : r.body = .sent _ := body_of_bare hbare
      have hacc : w.accepts t (.send rq) r = [newEntry f rq.entryId t] := by
        simp only [accepts, hbody, hf, hM, if_true]
      rw [hacc]
      rw [hM] at hm hw
      exact h.sent hr.later hm (ht.drawn t rq f rfl hf hM) hw
    | create _ _ _ =>
      rcases hr.primary t _ rfl htarget with ⟨_, hrq⟩ | ⟨_, hrq⟩ <;> cases hrq
    | read _ _ _ _ _ =>
      rcases hr.primary t _ rfl htarget with ⟨_, hrq⟩ | ⟨_, hrq⟩ <;> cases hrq
    | replicate _ _ _ _ =>
      rcases hr.primary t _ rfl htarget with ⟨_, hrq⟩ | ⟨_, hrq⟩ <;> cases hrq
  · exact hidle (hframe htarget) (accepts_other htarget)

/-- A request at the sibling. -/
theorem Inv.step_sibling (h : w.Inv x) {t : ℕ} {rq : Request} (hr : w.Replicates x (.sibling t rq))
    (ht : w.InTime x (.sibling t rq)) : w.Inv (w.step (.sibling t rq) x) := by
  have hmoves := handle_moves w.sibling t x.sibling rq
  have hframe (hne : rq.target ≠ some w.mailboxId) := handle_frame w.sibling t x.sibling hne
  have hdedup : ∀ push, rq = .replicate push →
      (handle w.sibling t rq x.sibling).1.body = .replicated true →
      ∃ f m, replicateFields push.body = .ok f ∧
        x.sibling.get t (.mailbox f.mailboxId.lower) = some m ∧ m.queues f.entry.id = true := by
    rintro push rfl hbody
    exact replicate_deduped hbody
  unfold Replication.step
  dsimp only
  generalize handle w.sibling t rq x.sibling = p at hmoves hframe hdedup ⊢
  obtain ⟨r, kv'⟩ := p
  have hidle (hkv : kv' (.mailbox w.mailboxId) = x.sibling (.mailbox w.mailboxId))
      (hd : ∀ a ∈ w.delivers rq r, a ∈ x.delivered) (hc : w.creates r = false) :
      w.Inv { x with
        now := t, sibling := kv', delivered := x.delivered ++ w.delivers rq r
        created := x.created || w.creates r } := by
    refine h.same hr.later rfl hkv rfl (fun a => ?_) (by dsimp only; rw [hc, Bool.or_false])
    exact ⟨fun ha => (List.mem_append.1 ha).elim id (hd a), List.mem_append_left _⟩
  by_cases htarget : rq.target = some w.mailboxId
  · cases hmoves with
    | idle hbody _ hsame =>
      refine hidle (hsame _) (fun a ha => ?_) (creates_idle hbody)
      obtain ⟨push, f, deduped, rfl, hr', hf, hM, rfl⟩ := mem_delivers ha
      dsimp only at hbody
      rw [hr'] at hbody
      cases deduped with
      | false => cases hbody
      | true =>
        -- the entry that is queued under this id is the same
        obtain ⟨f', m, hf', hm, hqueues⟩ := hdedup push rfl hr'
        obtain rfl : f = f' := Except.ok.inj (hf.symm.trans hf')
        rw [hM] at hm
        obtain ⟨s, hs, -, rfl⟩ := Store.get_eq_some.1 hm
        obtain ⟨b, hb, hid⟩ := List.any_eq_true.1 hqueues
        have hbd := (h.sibling s hs).1 b hb
        rcases hr.sibling t _ rfl htarget with ⟨_, hrq, -⟩ | ⟨_, hrq, hacc⟩ | ⟨_, hrq⟩
        · cases hrq
        · cases hrq
          rw [h.ids f.entry (hacc f hf) b (h.known b hbd) (beq_iff_eq.1 hid).symm]
          exact hbd
        · cases hrq
    | @create rq f isNew _ hf _ hw =>
      have hM : f.mailboxId.lower = w.mailboxId :=
        Option.some.inj ((createFields_target hf).symm.trans htarget)
      have hcreates : w.creates (json (.created f.mailboxId.lower w.sibling.cfg.mailboxTtlSeconds
          isNew)) = true := by
        simp only [creates, json, hM, beq_self_eq_true]
      rcases hr.sibling t _ rfl htarget with ⟨_, hrq, hhash⟩ | ⟨_, hrq, -⟩ | ⟨_, hrq⟩
      · cases hrq
        rw [hM] at hw
        have hinv := h.created hr.later (hhash f hf) (fun hgone m hm =>
          ht.kept t _ m rfl htarget hgone hm) hw
        refine hinv.same le_rfl rfl rfl rfl (fun a => ?_) ?_
        · dsimp only [delivers]
          rw [List.append_nil]
        · exact (congrArg (x.created || ·) hcreates).trans (Bool.or_true _)
      · cases hrq
      · cases hrq
    | @replicate rq f _ hf hp hq hw =>
      have hM : f.mailboxId.lower = w.mailboxId :=
        Option.some.inj ((replicateFields_target hf).symm.trans htarget)
      have hdelivers : w.delivers (.replicate rq) (json (.replicated false)) = [f.entry] := by
        simp only [delivers, json, hf, hM, if_true]
      obtain ⟨life, hlife, -⟩ := id hw
      have hpushed : w.Pushed x t (.sibling t (.replicate rq)) :=
        ⟨rq, f, rfl, ⟨hf, hp, hq, by rw [hlife]; rfl⟩, hM⟩
      rcases hr.sibling t _ rfl htarget with ⟨_, hrq, -⟩ | ⟨_, hrq, hacc⟩ | ⟨_, hrq⟩
      · cases hrq
      · cases hrq
        rw [hM] at hw
        have hinv := h.pushed hr.later (hacc f hf) (fun m m' hm hm' => ht.clock t m m' hpushed hm hm')
          (fun hgone m hm => ht.kept t _ m rfl htarget hgone hm) (ht.shell t hpushed) hw
        refine hinv.same le_rfl rfl rfl rfl (fun a => ?_) ?_
        · change a ∈ x.delivered ++ w.delivers (.replicate rq) (json (.replicated false)) ↔ _
          rw [hdelivers]
        · exact Bool.or_false _
      · cases hrq
    | send _ _ _ _ _ =>
      rcases hr.sibling t _ rfl htarget with ⟨_, hrq, -⟩ | ⟨_, hrq, -⟩ | ⟨_, hrq⟩ <;> cases hrq
    | read _ _ _ _ _ =>
      rcases hr.sibling t _ rfl htarget with ⟨_, hrq, -⟩ | ⟨_, hrq, -⟩ | ⟨_, hrq⟩ <;> cases hrq
  · refine hidle (hframe htarget) (fun a ha => ?_) ?_
    · obtain ⟨push, f, _, rfl, -, hf, hM, -⟩ := mem_delivers ha
      exact absurd ((replicateFields_target hf).trans (congrArg some hM)) htarget
    · cases hmoves with
      | idle hbody _ _ => exact creates_idle hbody
      | create hf _ _ =>
        simp only [creates, beq_eq_false_iff_ne]
        exact fun hM => htarget ((createFields_target hf).trans (congrArg some hM))
      | send _ _ _ hbare _ => simp only [creates, (body_of_bare hbare : r.body = _)]
      | read _ _ _ hbare _ => simp only [creates, (body_of_bare hbare : r.body = _)]
      | replicate _ _ _ _ => rfl

end

/-- **Step lemma.** -/
theorem Inv.step {w : Replication} {x : Pair} (h : w.Inv x) {e : Traffic} (hr : w.Replicates x e)
    (ht : w.InTime x e) : w.Inv (w.step e x) := by
  cases e with
  | primary t rq => exact h.step_primary hr ht
  | sibling t rq => exact h.step_sibling hr ht

end Replication

/-- **A sibling misses nothing, in time.**  In every run in which the primary
    takes messages and the sibling takes pushes of them in any order, each in
    time, a sibling to which everything was delivered returns what the primary
    would return. -/
theorem replica_covers (w : Replication) {x : Pair} (hstart : w.Start x) {run : List Traffic}
    (hrun : Always w.step (fun x e => w.Replicates x e ∧ w.InTime x e) x run) :
    w.Mirrors (after w.step x run) :=
  (hrun.inv (fun _ _ h he => h.step he.1 he.2) hstart.inv).mirrors

/-! ## Two default shards -/

/-- Two shards with the default configuration. -/
def samplePair : Replication where
  primary := trustingEnv {}
  sibling := trustingEnv {}
  mailboxId := letters 16
  hash := List.replicate 64 48
  ttl := rfl
  lifetime := rfl
  sha256 := rfl

/-- A message sent at an instant, with the entry id that is drawn for it. -/
def messageAt (t : ℕ) (entryId : Bytes) : SendRequest := { sampleSend (digits t) with entryId }

theorem letters_mailbox : 16 ≤ 16 ∧ 16 ≤ 128 := by omega

theorem letters_key : 64 ≤ 64 ∧ 64 ≤ 64 := by omega

/-- The fields of a `/send` at the instant `t`. -/
def messageFields (t : ℕ) : SendFields where
  mailboxId := hexLetters 16 letters_mailbox
  message := js "m"
  sender := some (sampleSender (digits t))
  senderPubkey := hexLetters 64 letters_key
  requestId := none

/-- The push of that message. -/
def pushAt (t : ℕ) (entryId : Bytes) : ReplicateRequest where
  body := some (.obj (replicatePayload
    ⟨letters 16, newEntry (messageFields t) entryId t, []⟩ (letters 64) (digits t) ++
      [(js "signature", .str (letters 128))]))

theorem testedField_digits {ρ : Type} (t : ℕ) (r : ρ) :
    testedField DigitStr.parse (some (.str (digits t))) r =
      .ok ⟨⟨digits t, isDigits_digits t⟩, true⟩ :=
  testedField_ok r (isDigits_iff.1 (isDigits_digits t)).1 (DigitStr.parse_eq_some.2 rfl)

theorem replicateFields_push (t : ℕ) (entryId : Bytes) :
    ∃ f, replicateFields (pushAt t entryId).body = .ok f ∧ f.mailboxId.lower = letters 16 ∧
      f.entry = newEntry (messageFields t) entryId t := by
  refine ⟨⟨hexLetters 16 (by omega), newEntry (messageFields t) entryId t, some (.arr []),
    ⟨hexLetters 64 (by omega), true⟩, ⟨digits t, isDigits_digits t⟩,
    ⟨hexLetters 128 (by omega), true⟩, .obj (replicatePayload
      ⟨letters 16, newEntry (messageFields t) entryId t, []⟩ (letters 64) (digits t))⟩, ?_, rfl, rfl⟩
  simp only [replicateFields, Check.orAnswer_bind]
  refine ⟨_, rfl, hexLetters 16 (by omega), rfl, newEntry (messageFields t) entryId t, rfl,
    ?_⟩
  refine Check.bind_eq_ok.2 ⟨⟨hexLetters 64 (by omega), true⟩, rfl, ?_⟩
  refine Check.bind_eq_ok.2 ⟨_, testedField_digits t _, ?_⟩
  exact Check.bind_eq_ok.2 ⟨⟨hexLetters 128 (by omega), true⟩, rfl, rfl⟩

/-- The message is accepted at its instant. -/
def isSent (r : Response) : Bool :=
  match r.body with
  | .sent _ => true
  | _ => false

/-- Whether the response acknowledges a push. -/
def isReplicated (r : Response) : Bool :=
  match r.body with
  | .replicated _ => true
  | _ => false

theorem accepts_message {t : ℕ} {entryId : Bytes} {r : Response} (h : isSent r = true) :
    samplePair.accepts t (.send (messageAt t entryId)) r =
      [newEntry (messageFields t) entryId t] := by
  have hf : sendFields (trustingEnv {}) (messageAt t entryId).body = .ok (messageFields t) := rfl
  unfold isSent at h
  split at h
  · next hbody =>
    unfold Replication.accepts
    rw [hbody]
    dsimp only [samplePair]
    rw [hf]
    exact if_pos rfl
  · cases h

theorem delivers_push {t : ℕ} {entryId : Bytes} {r : Response} (h : isReplicated r = true) :
    samplePair.delivers (.replicate (pushAt t entryId)) r =
      [newEntry (messageFields t) entryId t] := by
  obtain ⟨f, hf, hM, hentry⟩ := replicateFields_push t entryId
  unfold isReplicated at h
  split at h
  · next hbody =>
    unfold Replication.delivers
    rw [hbody, ← hentry]
    dsimp only
    rw [hf]
    exact if_pos hM
  · cases h

theorem step_table_same (x : Pair) (t : ℕ) (body : Option Json) :
    SameMailboxes x.sibling (samplePair.step (.sibling t (.routingTablePush body)) x).sibling :=
  handle_table_same (trustingEnv {}) t x.sibling body

/-- The primary has created the mailbox. -/
def sampleStart : Pair where
  now := 0
  primary := (handle (trustingEnv {}) 0 (.create sampleCreate) fun _ => none).2
  sibling _ := none
  accepted := []
  delivered := []
  created := false

/-- The sibling learns the table and the mailbox. -/
def greeting : List Traffic :=
  [.sibling 0 (.routingTablePush (some siblingTable)), .sibling 0 (.create sampleCreate)]

/-- A message and its push, without delay. -/
def exchange (t : ℕ) (entryId : Bytes) : List Traffic :=
  [.primary t (.send (messageAt t entryId)), .sibling t (.replicate (pushAt t entryId))]

theorem sampleStart_start : samplePair.Start sampleStart where
  empty slot hslot := by
    have hkey : samplePair.mailboxId = letters 16 := rfl
    rw [hkey] at hslot
    have heval : ((sampleStart.primary (.mailbox (letters 16))).map fun slot =>
        (slot.val.messages.length, slot.val.messagesEnqueuedAt, slot.val.readSecretHash)) =
          some (0, none, List.replicate 64 48) := by
      decide +kernel
    rw [hslot, Option.map_some, Option.some.injEq, Prod.mk.injEq, Prod.mk.injEq] at heval
    exact ⟨List.length_eq_zero_iff.1 heval.1, heval.2.1, heval.2.2⟩
  unknown := rfl
  accepted := rfl
  delivered := rfl
  created := rfl

theorem greeting_replicates {x : Pair} (hx : x.now = 0) :
    Always samplePair.step samplePair.Replicates x greeting := by
  have hhash : ∀ f, createFields sampleCreate.body = .ok f →
      f.readSecretHash.lower = samplePair.hash := by
    intro f hf
    have hlower : (match createFields sampleCreate.body with
        | .ok f => f.readSecretHash.lower
        | .error _ => []) = List.replicate 64 48 := by decide +kernel
    rw [hf] at hlower
    exact hlower
  refine ⟨⟨hx.le, ?_, ?_⟩, ⟨le_rfl, ?_, ?_⟩, trivial⟩
  · rintro t rq ⟨⟩
  · rintro t rq ⟨⟩ ⟨⟩
  · rintro t rq ⟨⟩
  · rintro t rq ⟨⟩ -
    exact Or.inl ⟨_, rfl, hhash⟩

/-- The state after the message of an exchange. -/
theorem exchange_accepted {x : Pair} {t : ℕ} {entryId : Bytes}
    (h : isSent (handle (trustingEnv {}) t (.send (messageAt t entryId)) x.primary).1 = true) :
    (samplePair.step (.primary t (.send (messageAt t entryId))) x).accepted =
      x.accepted ++ [newEntry (messageFields t) entryId t] :=
  congrArg (x.accepted ++ ·) (accepts_message h)

theorem exchange_replicates {x : Pair} {t : ℕ} {entryId : Bytes} (hx : x.now ≤ t)
    (h : isSent (handle (trustingEnv {}) t (.send (messageAt t entryId)) x.primary).1 = true) :
    Always samplePair.step samplePair.Replicates x (exchange t entryId) := by
  refine ⟨⟨hx, ?_, ?_⟩, ⟨le_rfl, ?_, ?_⟩, trivial⟩
  · rintro _ rq ⟨⟩ -
    exact Or.inl ⟨_, rfl⟩
  · rintro _ rq ⟨⟩
  · rintro _ rq ⟨⟩
  · rintro _ rq ⟨⟩ -
    refine Or.inr (Or.inl ⟨_, rfl, fun f hf => ?_⟩)
    obtain ⟨f', hf', -, hentry⟩ := replicateFields_push t entryId
    obtain rfl : f = f' := Except.ok.inj (hf.symm.trans hf')
    rw [hentry, exchange_accepted h]
    exact List.mem_append_right _ (List.mem_singleton_self _)

/-- The state after an exchange. -/
theorem exchange_delivered {x : Pair} {t : ℕ} {entryId : Bytes}
    (h : isSent (handle (trustingEnv {}) t (.send (messageAt t entryId)) x.primary).1 = true)
    (h' : isReplicated (handle (trustingEnv {}) t (.replicate (pushAt t entryId)) x.sibling).1 = true) :
    (after samplePair.step x (exchange t entryId)).accepted =
        x.accepted ++ [newEntry (messageFields t) entryId t] ∧
      (after samplePair.step x (exchange t entryId)).delivered =
        x.delivered ++ [newEntry (messageFields t) entryId t] :=
  ⟨exchange_accepted h, congrArg (x.delivered ++ ·) (delivers_push h')⟩

theorem greeting_inTime : Always samplePair.step samplePair.InTime sampleStart greeting := by
  have hnone : (samplePair.step (.sibling 0 (.routingTablePush (some siblingTable))) sampleStart
      ).sibling (.mailbox samplePair.mailboxId) = none :=
    step_table_same sampleStart 0 (some siblingTable) _
  refine ⟨⟨?_, ?_, ?_, ?_⟩, ⟨?_, ?_, ?_, ?_⟩, trivial⟩
  · rintro t rq f ⟨⟩
  · rintro t m m' ⟨rq, f, ⟨⟩, -⟩
  · rintro t rq m ⟨⟩ ⟨⟩
  · rintro t ⟨rq, f, ⟨⟩, -⟩
  · rintro t rq f ⟨⟩
  · rintro t m m' ⟨rq, f, ⟨⟩, -⟩
  · rintro t rq m ⟨⟩ - ⟨hsome, -⟩
    exact absurd hnone hsome
  · rintro t ⟨rq, f, ⟨⟩, -⟩

/-- A first message is delivered in time. -/
theorem exchange_inTime {x : Pair} {t : ℕ} {entryId : Bytes} (hx : x.accepted = [])
    (hfound : ((samplePair.step (.primary t (.send (messageAt t entryId))) x).sibling.get t
      (.mailbox samplePair.mailboxId)).map Mailbox.messagesEnqueuedAt = some none) :
    Always samplePair.step samplePair.InTime x (exchange t entryId) := by
  refine ⟨⟨?_, ?_, ?_, ?_⟩, ⟨?_, ?_, ?_, ?_⟩, trivial⟩
  · rintro _ rq f ⟨⟩ - - a ha
    rw [hx] at ha
    cases ha
  · rintro _ m m' ⟨rq, f, ⟨⟩, -⟩
  · rintro _ rq m ⟨⟩
  · rintro _ ⟨rq, f, ⟨⟩, -⟩
  · rintro _ rq f ⟨⟩
  · rintro _ m m' ⟨rq, f, ⟨⟩, -⟩ - hm' u u' - hu'
    rw [hm', Option.map_some, hu'] at hfound
    cases hfound
  · rintro _ rq m ⟨⟩ - ⟨-, hgone⟩
    rw [hgone] at hfound
    cases hfound
  · rintro _ ⟨rq, f, ⟨⟩, -⟩ ⟨-, hgone⟩
    rw [hgone] at hfound
    cases hfound

theorem first_message_covered :
    samplePair.Mirrors (after samplePair.step sampleStart (greeting ++ exchange 0 [1])) := by
  have hsent : isSent (handle (trustingEnv {}) 0 (.send (messageAt 0 [1]))
      (after samplePair.step sampleStart greeting).primary).1 = true := by
    decide +kernel
  have hfound : ((samplePair.step (.primary 0 (.send (messageAt 0 [1])))
      (after samplePair.step sampleStart greeting)).sibling.get 0
        (.mailbox samplePair.mailboxId)).map Mailbox.messagesEnqueuedAt = some none := by
    decide +kernel
  refine replica_covers samplePair sampleStart_start (always_append.2 ⟨?_, ?_⟩)
  · exact always_and.2 ⟨greeting_replicates rfl, greeting_inTime⟩
  · exact always_and.2 ⟨exchange_replicates (Nat.zero_le 0) hsent, exchange_inTime rfl hfound⟩

/-- A read of the mailbox with its secret. -/
def sampleRead : ReadRequest × ReadFields :=
  ({ ip := none, mailboxId := none, readSecret := none, peek := none, requestId := none
     freshIdentity := ⟨[], []⟩ },
    { mailboxId := hexLetters 16 letters_mailbox, readSecret := js "s", peek := false
      requestId := none })

/-- The sibling has queued a message, and a day after the end of its backlog the
    primary accepts a second one. -/
def lateRun : List Traffic := greeting ++ (exchange 0 [1] ++ exchange 1296000000 [2])

/-- The second message is queued behind the expired backlog of the sibling. -/
theorem expired_backlog_hides :
    ¬ (Always samplePair.step samplePair.Replicates sampleStart lateRun →
      samplePair.Mirrors (after samplePair.step sampleStart lateRun)) := by
  intro h
  set x := after samplePair.step sampleStart greeting with hx
  set y := after samplePair.step x (exchange 0 [1]) with hy
  set z := after samplePair.step y (exchange 1296000000 [2]) with hz
  have hsent : isSent (handle (trustingEnv {}) 0 (.send (messageAt 0 [1])) x.primary).1 = true := by
    decide +kernel
  have hpushed : isReplicated
      (handle (trustingEnv {}) 0 (.replicate (pushAt 0 [1])) x.sibling).1 = true := by
    decide +kernel
  have hsent' : isSent (handle (trustingEnv {}) 1296000000 (.send (messageAt 1296000000 [2]))
      y.primary).1 = true := by
    decide +kernel
  have hpushed' : isReplicated (handle (trustingEnv {}) 1296000000
      (.replicate (pushAt 1296000000 [2])) y.sibling).1 = true := by
    decide +kernel
  have hreplicates : Always samplePair.step samplePair.Replicates sampleStart lateRun :=
    always_append.2 ⟨greeting_replicates rfl, always_append.2
      ⟨exchange_replicates (Nat.zero_le 0) hsent, exchange_replicates (Nat.zero_le _) hsent'⟩⟩
  have hend : after samplePair.step sampleStart lateRun = z := by
    unfold lateRun
    rw [after_append, after_append]
  have hcreated : z.created = true := by decide +kernel
  have hprimary : (readAt (trustingEnv {}) 1296000000 sampleRead.1 sampleRead.2
      z.primary).entries.length = 1 := by
    decide +kernel
  have hsibling : (readAt (trustingEnv {}) 1296000000 sampleRead.1 sampleRead.2
      z.sibling).entries.length = 0 := by
    decide +kernel
  obtain ⟨hyaccepted, hydelivered⟩ := exchange_delivered hsent hpushed
  obtain ⟨hzaccepted, hzdelivered⟩ := exchange_delivered hsent' hpushed'
  have hall : ∀ a ∈ z.accepted, a ∈ z.delivered := by
    have hxaccepted : x.accepted = [] := rfl
    rw [hzaccepted, hzdelivered, hyaccepted, hydelivered, hxaccepted]
    intro a ha
    rcases List.mem_append.1 ha with ha | ha
    · exact List.mem_append_left _ (List.mem_append_right _ ha)
    · exact List.mem_append_right _ ha
  have hmirrors := h hreplicates
  rw [hend] at hmirrors
  obtain ⟨a, ha⟩ := List.exists_mem_of_length_pos (hprimary.symm ▸ Nat.one_pos)
  have hmem := hmirrors hall hcreated 1296000000 le_rfl sampleRead.1 sampleRead.1 sampleRead.2 rfl
    a ha
  have hnone : (readAt samplePair.sibling 1296000000 sampleRead.1 sampleRead.2 z.sibling).entries =
      [] := List.length_eq_zero_iff.1 hsibling
  rw [hnone] at hmem
  cases hmem

end Shard
