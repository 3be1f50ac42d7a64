/-
  Burn after read.

  A replicate push is recognised as a repetition only while its entry is
  queued: after a consuming read it is queued again.

  * `burnt` lists what the consuming reads of a run have returned;
  * `BringsNew`: what a request adds to a queue was not returned before and is
    not queued for another mailbox;
  * `burnt_once`: in a run of such requests no id is returned twice.
-/
import NexTalkRelay.Lib.Runs
import NexTalkRelay.Shard.Queue

open Effect Js Runs

namespace Shard

/-- The ids that each request of a run has consumed. -/
def burnt (env : Env) : Kv → List (ℕ × Request) → List (List JString)
  | _, [] => []
  | kv, e :: run =>
    (handle env e.1 e.2 kv).1.consumed.map Entry.id :: burnt env (handle env e.1 e.2 kv).2 run

/-- A store and the ids that consuming reads have returned so far. -/
structure Ashes where
  kv : Kv
  returned : List JString

/-- The ids that a request can add to a queue. -/
def Request.ids : Request → List JString
  | .send rq => [bytesToHex rq.entryId]
  | .replicate rq =>
    match replicateFields rq.body with
    | .ok f => [f.entry.id]
    | .error _ => []
  | _ => []

section

variable {env : Env} {t : ℕ} {kv : Kv} {rq : Request} {id : JString} {entry : Entry}

theorem Brings.mem_ids (h : Brings env t kv rq id entry) : entry.id ∈ rq.ids := by
  cases h with
  | send => exact List.mem_singleton.2 rfl
  | replicate queued =>
    unfold Request.ids
    dsimp only
    rw [queued.fields]
    exact List.mem_singleton.2 rfl

theorem Brings.target (h : Brings env t kv rq id entry) : rq.target = some id := by
  cases h with
  | send fields => exact sendFields_target fields
  | replicate queued => exact replicateFields_target queued.fields

end

namespace Ashes

/-- An empty store, and nothing handed out. -/
def empty : Ashes := ⟨fun _ => none, []⟩

/-- One request, with the ids of the messages that it hands out for good. -/
def step (env : Env) (e : ℕ × Request) (s : Ashes) : Ashes where
  kv := (handle env e.1 e.2 s.kv).2
  returned := s.returned ++ (handle env e.1 e.2 s.kv).1.consumed.map Entry.id

/-- The entry was not returned before and is not queued for another mailbox. -/
def New (s : Ashes) (id : JString) (entry : Entry) : Prop :=
  entry.id ∉ s.returned ∧ ∀ id', id' ≠ id → ∀ e ∈ queue s.kv id', e.id ≠ entry.id

/-- What the request adds to a queue is new. -/
def BringsNew (env : Env) (s : Ashes) (e : ℕ × Request) : Prop :=
  ∀ id entry, Brings env e.1 s.kv e.2 id entry → s.New id entry

/-- No queue holds what was returned, and no two queues share an id. -/
structure Clean (s : Ashes) : Prop where
  fresh : ∀ id, ∀ e ∈ queue s.kv id, e.id ∉ s.returned
  apart : ∀ id id', id ≠ id' → ∀ e ∈ queue s.kv id, ∀ e' ∈ queue s.kv id', e.id ≠ e'.id

theorem clean_empty : empty.Clean where
  fresh _ _ he := absurd he List.not_mem_nil
  apart _ _ _ _ he := absurd he List.not_mem_nil

/-- **Step lemma.** -/
theorem Clean.step {env : Env} {s : Ashes} {e : ℕ × Request} (hs : s.Clean)
    (hnew : BringsNew env s e) : (s.step env e).Clean := by
  obtain ⟨M, hothers, hown, hshown, hburnt⟩ := handle_queue env e.1 s.kv e.2
  set r := (handle env e.1 e.2 s.kv).1
  set kv' := (handle env e.1 e.2 s.kv).2
  -- what is queued for `M` is apart from every other queue
  have hM : ∀ id, id ≠ M → ∀ x ∈ queue kv' M, ∀ y ∈ queue kv' id, x.id ≠ y.id := by
    intro id hid x hx y hy
    rw [hothers id hid] at hy
    rcases hown x hx with hx | hx
    · exact hs.apart M id (Ne.symm hid) x hx y hy
    · exact fun h => (hnew M x hx).2 id hid y hy h.symm
  refine ⟨fun id x hx hret => ?_, fun id id' hne x hx y hy => ?_⟩
  · rcases List.mem_append.1 hret with hret | hret
    · by_cases hid : id = M
      · subst hid
        rcases hown x hx with hx | hx
        · exact hs.fresh id x hx hret
        · exact (hnew id x hx).1 hret
      · rw [show queue (s.step env e).kv id = _ from hothers id hid] at hx
        exact hs.fresh id x hx hret
    · obtain ⟨y, hy, hyx⟩ := List.mem_map.1 hret
      by_cases hid : id = M
      · subst hid
        have hempty := hburnt (List.ne_nil_of_mem hy)
        rw [show queue (s.step env e).kv id = _ from hempty] at hx
        cases hx
      · rw [show queue (s.step env e).kv id = _ from hothers id hid] at hx
        exact hs.apart M id (Ne.symm hid) y (hshown y (consumed_sub hy)) x hx hyx
  · by_cases hid : id = M
    · subst hid
      exact hM id' (Ne.symm hne) x hx y hy
    · by_cases hid' : id' = M
      · subst hid'
        exact (hM id hid y hy x hx).symm
      · rw [show queue (s.step env e).kv id = _ from hothers id hid] at hx
        rw [show queue (s.step env e).kv id' = _ from hothers id' hid'] at hy
        exact hs.apart id id' hne x hx y hy

/-- What a request consumes was not returned before. -/
theorem Clean.consumed {s : Ashes} (hs : s.Clean) (env : Env) (e : ℕ × Request) :
    ∀ x ∈ (handle env e.1 e.2 s.kv).1.consumed.map Entry.id, x ∉ s.returned := by
  obtain ⟨M, -, -, hshown, -⟩ := handle_queue env e.1 s.kv e.2
  intro x hx
  obtain ⟨y, hy, rfl⟩ := List.mem_map.1 hx
  exact hs.fresh M y (hshown y (consumed_sub hy))

/-- **Run lemma.** -/
theorem Clean.run {env : Env} {s : Ashes} (hs : s.Clean) {run : List (ℕ × Request)}
    (hnew : Always (Ashes.step env) (BringsNew env) s run) :
    (burnt env s.kv run).Pairwise (fun xs ys => ∀ x ∈ xs, x ∉ ys) ∧
      ∀ ys ∈ burnt env s.kv run, ∀ y ∈ ys, y ∉ s.returned := by
  induction run generalizing s with
  | nil => exact ⟨List.Pairwise.nil, fun _ h => absurd h List.not_mem_nil⟩
  | cons e run ih =>
    obtain ⟨hpair, hout⟩ := ih (hs.step hnew.1) hnew.2
    refine ⟨List.pairwise_cons.2 ⟨fun ys hys x hx hxy => ?_, hpair⟩, fun ys hys y hy hret => ?_⟩
    · exact hout ys hys x hxy (List.mem_append_right _ hx)
    · rcases List.mem_cons.1 hys with rfl | hys
      · exact hs.consumed env e y hy hret
      · exact hout ys hys y hy (List.mem_append_left _ hret)

/-- The request is addressed to one mailbox, or to none, and what it can add to a queue was
    not returned before. -/
def Addressed (id : JString) (s : Ashes) (e : ℕ × Request) : Prop :=
  (e.2.target = none ∨ e.2.target = some id) ∧ ∀ x ∈ e.2.ids, x ∉ s.returned

instance (id : JString) (s : Ashes) (e : ℕ × Request) : Decidable (s.Addressed id e) :=
  inferInstanceAs (Decidable ((e.2.target = none ∨ e.2.target = some id) ∧
    ∀ x ∈ e.2.ids, x ∉ s.returned))

/-- Where only one mailbox is used, no other queue shares an id. -/
theorem bringsNew_addressed {env : Env} {id : JString} {s : Ashes} {e : ℕ × Request}
    (hothers : ∀ id', id' ≠ id → queue s.kv id' = []) (h : s.Addressed id e) :
    BringsNew env s e := by
  obtain ⟨htarget, hids⟩ := h
  intro id₀ entry hbrings
  obtain rfl : id₀ = id := by
    rw [hbrings.target] at htarget
    rcases htarget with hnone | hsome
    · cases hnone
    · exact Option.some.inj hsome
  refine ⟨hids _ hbrings.mem_ids, fun id' hne x hx => ?_⟩
  rw [hothers id' hne] at hx
  cases hx

theorem always_addressed {env : Env} {id : JString} {s : Ashes} {run : List (ℕ × Request)}
    (hothers : ∀ id', id' ≠ id → queue s.kv id' = [])
    (h : Always (Ashes.step env) (Addressed id) s run) :
    Always (Ashes.step env) (BringsNew env) s run := by
  refine Always.imp (I := fun s : Ashes => ∀ id', id' ≠ id → queue s.kv id' = []) ?_
    (fun s e hs he => bringsNew_addressed hs he) hothers h
  rintro s e hs ⟨htarget, -⟩ id' hne
  have hframe : (handle env e.1 e.2 s.kv).2 (.mailbox id') = s.kv (.mailbox id') := by
    refine handle_frame env e.1 s.kv fun heq => ?_
    rw [heq] at htarget
    rcases htarget with hnone | hsome
    · cases hnone
    · exact hne (Option.some.inj hsome)
  show queue (handle env e.1 e.2 s.kv).2 id' = []
  rw [← hs id' hne]
  unfold queue
  rw [hframe]

end Ashes

/-- **Burnt once, unless it is brought again.**  In a run from an empty store in
    which no request adds an entry whose id was returned by a consuming read or
    is queued for another mailbox, no id is returned by two consuming reads. -/
theorem burnt_once (env : Env) (run : List (ℕ × Request))
    (hnew : Always (Ashes.step env) (Ashes.BringsNew env) .empty run) :
    (burnt env (fun _ => none) run).Pairwise fun xs ys => ∀ x ∈ xs, x ∉ ys :=
  (Ashes.clean_empty.run hnew).1

/-! ## A push that comes again -/

/-- The mailbox of the sibling's pushes is created and read. -/
def burnRequests : Request × Request :=
  (.create sampleCreate,
    .read {
      ip := none, mailboxId := some (letters 16), readSecret := some (js "s"), peek := none
      requestId := none, freshIdentity := ⟨[], []⟩ })

/-- Two pushes, each of which is read. -/
def burnRun : List (ℕ × Request) :=
  [(0, .routingTablePush (some siblingTable)), (0, burnRequests.1),
    (0, .replicate (siblingPush (js "1") (js "m"))), (0, burnRequests.2),
    (0, .replicate (siblingPush (js "2") (js "m"))), (0, burnRequests.2)]

theorem push_burnt_once :
    burnt (trustingEnv {}) (fun _ => none) burnRun = [[], [], [], [js "1"], [], [js "2"]] ∧
      (burnt (trustingEnv {}) (fun _ => none) burnRun).Pairwise fun xs ys => ∀ x ∈ xs, x ∉ ys := by
  have haddressed : Always (Ashes.step (trustingEnv {})) (Ashes.Addressed (letters 16)) .empty
      burnRun := by
    decide +kernel
  exact ⟨by decide +kernel,
    burnt_once (trustingEnv {}) burnRun (Ashes.always_addressed (fun _ _ => rfl) haddressed)⟩

/-- The same push, before and after a consuming read. -/
theorem push_returned_twice :
    ¬ (burnt (trustingEnv {}) (fun _ => none)
      [(0, .routingTablePush (some siblingTable)), (0, burnRequests.1),
        (0, .replicate (siblingPush (js "1") (js "m"))), (0, burnRequests.2),
        (0, .replicate (siblingPush (js "1") (js "m"))), (0, burnRequests.2)]
      ).Pairwise fun xs ys => ∀ x ∈ xs, x ∉ ys := by
  decide +kernel

end Shard
