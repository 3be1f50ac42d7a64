/-
  Registrations of shards that are handled at the same time.

  The list of registered shards is read, rebuilt and written as a whole, and a
  nonce is looked up and deleted in two operations.

  * `Uncontended` is the condition on a step: a list is written over the one
    that was read, a nonce is still there when it is deleted, and no challenge
    repeats a nonce that has been redeemed;
  * `Listing`, `Kept` and `Redeemed` are the invariants: the list stays without
    repetition and within its bound in every order of the operations, what was
    written stays, and nobody else redeems a redeemed nonce;
  * `registrations_sound` is the result for the requests that were accepted.
-/
import Mathlib.Data.Fintype.Basic
import NexTalkRelay.Router.Concurrent

open Effect Js Runs

namespace Router

variable {ι : Type}

/-! ## Accepted registrations -/

/-- Process `i` has answered success to a registration. -/
def Accepts (tasks : ι → Task) (P : Requests ι) (i : ι) (f : RegisterShardFields) : Prop :=
  ∃ rq r, tasks i = some (.registerShard rq) ∧ registerShardFields rq.body = .ok f ∧
    (P.prog i).value = some r ∧ r.status = 200

/-- The list names no URL twice, and none that it did not name before when it is
    longer than its bound. -/
structure Listing (env : Env) (known : List JString) (registered : List Registered) : Prop where
  distinct : (registered.map (·.url)).Nodup
  capped : env.maxRegisteredShards.lt (.ofInt registered.length) = true →
    ∀ s ∈ registered, s.url ∈ known

/-- A list is written over the one that was read, a nonce is deleted while it is
    there, and none is drawn that has been redeemed. -/
def Uncontending (env : Env) (P : Requests ι) (i : ι) : KvOp Key Val Service → Prop
  | .put .registeredShards _ _ => (P.memory i).list = registeredOf env P.shared.1
  | .delete (.powNonce nonce) => P.shared.1 (.powNonce nonce) ≠ none
  | .put (.powNonce nonce) _ _ => ∀ j, nonce ∉ (P.memory j).redeemed
  | _ => True

/-- What the request does next is `Uncontending`. -/
def Uncontended (env : Env) (P : Requests ι) (e : ι × ℕ) : Prop :=
  ∀ o ∈ (P.prog e.1).next, Uncontending env P e.1 o

instance [Fintype ι] (env : Env) (P : Requests ι) (i : ι) : DecidablePred (Uncontending env P i)
  | .put .registeredShards _ _ => inferInstanceAs (Decidable (_ = _))
  | .delete (.powNonce _) => inferInstanceAs (Decidable (_ ≠ _))
  | .put (.powNonce _) _ _ => inferInstanceAs (Decidable (∀ _, _))
  | .get _ | .now | .call _ | .put .shardUrls _ _ | .put .priorShardCounts _ _
  | .put .routingTableVersion _ _ | .put (.rl _ _) _ _ | .delete .shardUrls
  | .delete .priorShardCounts | .delete .routingTableVersion | .delete .registeredShards
  | .delete (.rl _ _) => isTrue trivial

instance [Fintype ι] (env : Env) (P : Requests ι) (e : ι × ℕ) : Decidable (Uncontended env P e) :=
  inferInstanceAs (Decidable (∀ o ∈ (P.prog e.1).next, _))

/-! ## The list -/

section
variable {env : Env} {known : List JString} {existing : List Registered}

/-- The bound is a whole number, if it is a number. -/
def WholeBound (env : Env) : Prop :=
  ∀ d, env.maxRegisteredShards = .fin d → ∃ n : ℤ, env.maxRegisteredShards = .ofInt n

theorem Listing.of_urls {updated : List Registered} (h : Listing env known existing)
    (heq : updated.map (·.url) = existing.map (·.url)) : Listing env known updated where
  distinct := heq ▸ h.distinct
  capped hlt s hs := by
    have hlen : updated.length = existing.length := by
      simpa using congrArg List.length heq
    have hmem : s.url ∈ existing.map (·.url) := heq ▸ List.mem_map_of_mem hs
    obtain ⟨s', hs', hurl⟩ := List.mem_map.1 hmem
    rw [← hurl]
    exact h.capped (hlen ▸ hlt) s' hs'

/-- A list with room stays within a whole bound. -/
theorem room_succ (hwhole : WholeBound env) {n : ℕ}
    (hroom : env.maxRegisteredShards.le (.ofInt n) = false) :
    env.maxRegisteredShards.lt (.ofInt (n + 1 : ℕ)) = false := by
  cases hmax : env.maxRegisteredShards with
  | nan => rfl
  | inf s => cases s <;> simp_all [Number.lt, Number.le, Number.ofInt]
  | fin d =>
    obtain ⟨b, hb⟩ := hwhole d hmax
    rw [hb] at hroom
    rw [← hmax, hb]
    rw [← Bool.not_eq_true, Number.ofInt_le_ofInt] at hroom
    rw [← Bool.not_eq_true, Number.ofInt_lt_ofInt]
    push_cast
    omega

theorem Listing.rewrites (hwhole : WholeBound env) (h : Listing env known existing)
    {updated : List Registered} (hre : Rewrites env existing updated) :
    Listing env known updated := by
  rcases hre with ⟨url, pubkey, now, hroom, rfl⟩ | ⟨f, now, rfl⟩
  · by_cases hmem : url ∈ existing.map (·.url)
    · refine h.of_urls ?_
      rw [upsert_urls, Merge.pushAbsent_singleton, if_pos hmem]
    · have hurls := upsert_urls existing url pubkey now
      have hnone : (existing.any fun s => s.url == url) = false := by
        rw [List.any_eq_false]
        intro s hs he
        exact hmem (List.mem_map.2 ⟨s, hs, by simpa using he⟩)
      refine ⟨hurls ▸ Merge.nodup_pushAbsent h.distinct, fun hlt => ?_⟩
      have hlen : (upsert existing url pubkey now).length = existing.length + 1 := by
        simp [upsert, hnone]
      rw [roomFor, hnone, Bool.false_or, Bool.not_eq_true'] at hroom
      rw [hlen, room_succ hwhole hroom] at hlt
      cases hlt
  · exact h.of_urls (replaceKey_urls _ _ _)

end

/-! ## Invariants -/

section
variable [DecidableEq ι] {env : Env} {answer : JString → CreateBody → Created} {tasks : ι → Task}
  {P : Requests ι} {e : ι × ℕ}

theorem note_list (m : Seen) {o : KvOp Key Val Service} (r : KvOp.Res Service.Res o)
    (ho : o ≠ .get .registeredShards) : (m.note o r).list = m.list := by
  unfold Seen.note
  split
  · rfl
  · cases o with
    | get k => cases k <;> first | rfl | exact absurd rfl ho
    | put k _ _ | delete k => cases k <;> rfl
    | _ => rfl

theorem Listing.nil (env : Env) (known : List JString) : Listing env known [] :=
  ⟨List.nodup_nil, fun _ _ h => by cases h⟩

/-- Every list that is stored, or that a request has read, is a `Listing`. -/
structure Orderly (env : Env) (known : List JString) (s : State) (memory : ι → Seen) : Prop where
  stored : ∀ slot, s.1 .registeredShards = some slot → Listing env known slot.val
  read : ∀ i, Listing env known (memory i).list

/-- **Step lemma.** -/
theorem Orderly.step (hwhole : WholeBound env) {known : List JString}
    (hP : P.Follow Seen.note (fun _ => Allowed env) fun i => Outcome env (tasks i))
    (h : Orderly env known P.shared P.memory) :
    Orderly env known (Requests.step env answer e P).shared
      (Requests.step env answer e P).memory := by
  refine hP.inv h (fun o s' r hnext hallowed ho => ⟨fun slot hslot => ?_, ?_⟩)
    (fun o s' hnext hallowed ho => ⟨fun slot hslot => ?_, h.read⟩)
  · rcases hallowed.exec (k := .registeredShards) id ho with ⟨-, hsame⟩ | ⟨v, rfl, hput⟩
    · exact h.stored slot (hsame ▸ hslot)
    · rw [hput] at hslot
      cases hslot
      obtain ⟨-, -, -, hre⟩ := hallowed
      exact (h.read e.1).rewrites hwhole hre
  · refine (Function.forall_update_iff P.memory fun _ m => Listing env known m.list).2
      ⟨?_, fun i _ => h.read i⟩
    by_cases hget : o = .get .registeredShards
    · subst hget
      cases ho
      unfold Seen.note
      split
      · exact h.read e.1
      · cases hslot : P.shared.1.get e.2 .registeredShards with
        | none => exact .nil _ _
        | some v => 
          obtain ⟨slot, hs, -, rfl⟩ := Store.get_eq_some.1 hslot
          exact h.stored slot hs
    · rw [note_list _ _ hget]
      exact h.read e.1
  · rcases hallowed.exec (k := .registeredShards) id ho with ⟨-, hsame⟩ | ⟨v, rfl, -⟩
    · exact h.stored slot (hsame ▸ hslot)
    · cases ho

/-- What a request has written stays in the list. -/
structure Kept (env : Env) (s : State) (memory : ι → Seen) : Prop where
  durable : Durable s.1
  kept : ∀ i updated, (memory i).written = some updated →
    ∀ r ∈ updated, r.url ∈ registeredUrls env s.1

theorem note_written (m : Seen) {o : KvOp Key Val Service} (r : KvOp.Res Service.Res o) :
    (m.note o r).written = m.written ∨
      ∃ v ttl, o = .put .registeredShards v ttl ∧ (m.note o r).written = some v := by
  unfold Seen.note
  split
  · exact Or.inl rfl
  · cases o with
    | put k v ttl => cases k <;> first | exact Or.inl rfl | exact Or.inr ⟨v, ttl, rfl, rfl⟩
    | get k | delete k => cases k <;> exact Or.inl rfl
    | _ => exact Or.inl rfl

/-- A rewritten list has the URLs of the one that was read. -/
theorem Rewrites.urls {existing updated : List Registered} (h : Rewrites env existing updated) :
    ∀ url ∈ existing.map (·.url), url ∈ updated.map (·.url) := by
  rcases h with ⟨url', pubkey, now, -, rfl⟩ | ⟨f, now, rfl⟩ <;> intro url hurl
  · rw [upsert_urls]
    exact Merge.mem_pushAbsent.2 (Or.inl hurl)
  · rwa [replaceKey_urls]

/-- **Step lemma.** -/
theorem Kept.step (hP : P.Follow Seen.note (fun _ => Allowed env) fun i => Outcome env (tasks i))
    (h : Kept env P.shared P.memory) (hfresh : Uncontended env P e) :
    Kept env (Requests.step env answer e P).shared (Requests.step env answer e P).memory := by
  refine hP.inv h (fun o s' r hnext hallowed ho => ⟨h.durable.exec hallowed ho, ?_⟩)
    (fun o s' hnext hallowed ho => ⟨h.durable.exec hallowed ho, ?_⟩)
  · refine (Function.forall_update_iff P.memory fun _ m => ∀ updated, m.written = some updated →
      ∀ r ∈ updated, r.url ∈ registeredUrls env s'.1).2 ?_
    rcases hallowed.exec (k := .registeredShards) id ho with ⟨hspare, hsame⟩ | ⟨v, rfl, hput⟩
    · rw [registeredUrls_congr hsame]
      refine ⟨?_, fun i _ => h.kept i⟩
      rcases note_written (P.memory e.1) r with hnote | ⟨v, ttl, rfl, -⟩
      · rw [hnote]
        exact h.kept e.1
      · exact absurd rfl hspare
    · obtain ⟨hkv, -, -, hre⟩ := hallowed
      have hurls : registeredUrls env s'.1 = v.map (·.url) := by
        unfold registeredUrls registeredOf
        rw [stored_of_slot hkv hput]
        rfl
      rw [show (P.memory e.1).list = _ from hfresh _ hnext] at hre
      have hkept (i : ι) (updated : List Registered) (hi : (P.memory i).written = some updated)
          (r : Registered) (hr : r ∈ updated) : r.url ∈ registeredUrls env s'.1 :=
        hurls ▸ hre.urls _ (h.kept i updated hi r hr)
      refine ⟨fun updated hupdated => ?_, fun i _ => hkept i⟩
      rcases note_written (P.memory e.1) r with hnote | ⟨v', ttl, heq, hnote⟩ <;>
        rw [hnote] at hupdated
      · exact hkept e.1 updated hupdated
      · cases heq
        cases hupdated
        rw [hurls]
        exact fun r hr => List.mem_map_of_mem hr
  · rcases hallowed.exec (k := .registeredShards) id ho with ⟨-, hsame⟩ | ⟨v, rfl, -⟩
    · rw [registeredUrls_congr hsame]
      exact h.kept
    · cases ho

/-- A nonce that has been redeemed is gone, and was redeemed once. -/
structure Redeemed (s : State) (memory : ι → Seen) : Prop where
  gone : ∀ i nonce, nonce ∈ (memory i).redeemed → s.1 (.powNonce nonce) = none
  once : ∀ i j nonce, nonce ∈ (memory i).redeemed → nonce ∈ (memory j).redeemed → i = j

theorem note_redeemed (m : Seen) {o : KvOp Key Val Service} (r : KvOp.Res Service.Res o)
    {nonce : JString} (h : nonce ∈ (m.note o r).redeemed) :
    nonce ∈ m.redeemed ∨ o = .delete (.powNonce nonce) := by
  unfold Seen.note at h
  split at h
  · exact Or.inl h
  · cases o with
    | delete k =>
      cases k with
      | powNonce n => 
        rcases List.mem_cons.1 h with rfl | h
        · exact Or.inr rfl
        · exact Or.inl h
      | _ => exact Or.inl h
    | get k | put k _ _ => cases k <;> exact Or.inl h
    | _ => exact Or.inl h

/-- A nonce that nobody puts back stays away. -/
theorem exec_gone {nonce : JString} {s s' : State} {o : KvOp Key Val Service}
    (h : s.1 (.powNonce nonce) = none) (hput : ∀ c ttl, o ≠ .put (.powNonce nonce) c ttl) {t : ℕ}
    {H : Prog.Handler Service Service.Res World} {r : Option (KvOp.Res Service.Res o)}
    (ho : KvOp.exec t H o s = (r, s')) : s'.1 (.powNonce nonce) = none := by
  obtain rfl : (KvOp.exec t H o s).2 = s' := congrArg Prod.snd ho
  by_cases hdelete : o = .delete (.powNonce nonce)
  · subst hdelete
    exact Store.delete_same _
  · rw [← h]
    refine KvOp.exec_spares ?_ t H s
    cases o with
    | put k c ttl => rintro rfl; exact hput c ttl rfl
    | delete k => rintro rfl; exact hdelete rfl
    | _ => trivial

/-- **Step lemma.** -/
theorem Redeemed.step (hP : P.Follow Seen.note (fun _ => Allowed env) fun i => Outcome env (tasks i))
    (h : Redeemed P.shared P.memory) (hfresh : Uncontended env P e) :
    Redeemed (Requests.step env answer e P).shared (Requests.step env answer e P).memory := by
  -- nobody puts back what has been redeemed
  have hgone {o : KvOp Key Val Service} {r : Option (KvOp.Res Service.Res o)} {s' : State}
      (hnext : (P.prog e.1).next = some o)
      (ho : KvOp.exec e.2 (services env.crypto answer) o P.shared = (r, s')) (i : ι)
      (nonce : JString) (hi : nonce ∈ (P.memory i).redeemed) : s'.1 (.powNonce nonce) = none := by
    refine exec_gone (h.gone i nonce hi) ?_ ho
    rintro c ttl rfl
    exact hfresh _ hnext i hi
  refine hP.inv h (fun o s' r hnext hallowed ho => ?_) (fun o s' hnext hallowed ho =>
    ⟨hgone hnext ho, h.once⟩)
  -- a nonce of the new memory was there before, or is deleted now
  have hnew (i : ι) (nonce : JString)
      (hi : nonce ∈ (Function.update P.memory e.1 ((P.memory e.1).note o r) i).redeemed) :
      nonce ∈ (P.memory i).redeemed ∨ i = e.1 ∧ o = .delete (.powNonce nonce) := by
    by_cases hie : i = e.1
    · subst hie
      rw [Function.update_self] at hi
      exact (note_redeemed _ r hi).imp_right fun ho => ⟨rfl, ho⟩
    · rw [Function.update_of_ne hie] at hi
      exact Or.inl hi
  have hunredeemed (i : ι) (nonce : JString) (hdelete : o = .delete (.powNonce nonce)) :
      nonce ∉ (P.memory i).redeemed := by
    subst hdelete
    exact fun hi => hfresh _ hnext (h.gone i nonce hi)
  refine ⟨fun i nonce hi => ?_, fun i j nonce hi hj => ?_⟩
  · rcases hnew i nonce hi with hi | ⟨-, rfl⟩
    · exact hgone hnext ho i nonce hi
    · cases ho
      exact Store.delete_same _
  · rcases hnew i nonce hi with hi | ⟨rfl, hdelete⟩ <;>
      rcases hnew j nonce hj with hj | ⟨rfl, hdelete'⟩
    · exact h.once i j nonce hi hj
    · exact absurd hi (hunredeemed i nonce hdelete')
    · exact absurd hj (hunredeemed j nonce hdelete)
    · rfl

/-! ## Runs -/

/-- The registrations that were accepted, in the store that the requests leave. -/
structure Admission (env : Env) (tasks : ι → Task) (P : Requests ι) : Prop where
  kept : ∀ i f, Accepts tasks P i f → f.shardUrl ∈ registeredUrls env P.shared.1
  once : ∀ i j f f', Accepts tasks P i f → Accepts tasks P j f' → f.nonce = f'.nonce → i = j

omit [DecidableEq ι] in
theorem Accepts.outcome
    (hP : P.Follow Seen.note (fun _ => Allowed env) fun i => Outcome env (tasks i)) {i : ι}
    {f : RegisterShardFields} (h : Accepts tasks P i f) : f.nonce ∈ (P.memory i).redeemed ∧
      ∃ updated, (P.memory i).written = some updated ∧ f.shardUrl ∈ updated.map (·.url) := by
  obtain ⟨rq, r, htask, hf, hr, hok⟩ := h
  exact (hP.value hr).admitted rq f htask hf hok

/-- In every order of the operations the list has distinct URLs and takes none
    beyond its bound. -/
theorem listing_after (answer : JString → CreateBody → Created) (hwhole : WholeBound env) {s : State}
    (hdistinct : (registeredUrls env s.1).Nodup) (tasks : ι → Task) (run : List (ι × ℕ)) :
    Listing env (registeredUrls env s.1)
      (registeredOf env (after (Requests.step env answer) (.start env s tasks) run).shared.1) := by
  unfold registeredOf stored
  cases hkv : env.adminKv with
  | false => exact .nil _ _
  | true =>
    have horderly : Orderly env (registeredUrls env s.1) s fun _ : ι => {} :=
      ⟨fun slot hslot => ?_, fun _ => .nil _ _⟩
    · have hafter := (after_inv
        (I := fun P : Requests ι => P.Follow Seen.note (fun _ => Allowed env)
            (fun i => Outcome env (tasks i)) ∧
          Orderly env (registeredUrls env s.1) P.shared P.memory)
        (fun P e h => ⟨h.1.step, h.2.step hwhole h.1⟩)
        ⟨Requests.start_follow env s tasks, horderly⟩ :
          _ ∧ Orderly _ _ (after (Requests.step env answer) (.start env s tasks) run).shared _).2
      rw [if_pos rfl]
      cases hslot : (after (Requests.step env answer) (.start env s tasks) run).shared.1
        .registeredShards with
      | none => exact .nil _ _
      | some slot => exact hafter.stored slot hslot
    · have hurls : registeredUrls env s.1 = slot.val.map (·.url) := by
        unfold registeredUrls registeredOf stored
        rw [if_pos hkv, hslot]
        rfl
      exact ⟨hurls ▸ hdistinct, fun _ r hr => hurls ▸ List.mem_map_of_mem hr⟩

/-- **Concurrent registrations.**  In every order of the operations the list has
    distinct URLs and takes none beyond its bound.  If every step is uncontended,
    every accepted registration is in the list, and no two of them have redeemed
    one challenge. -/
theorem registrations_sound (env : Env) (answer : JString → CreateBody → Created)
    (hwhole : WholeBound env) {s : State} (hd : Durable s.1)
    (hdistinct : (registeredUrls env s.1).Nodup) (tasks : ι → Task) (run : List (ι × ℕ)) :
    Listing env (registeredUrls env s.1)
        (registeredOf env (after (Requests.step env answer) (.start env s tasks) run).shared.1) ∧
      (Always (Requests.step env answer) (Uncontended env) (.start env s tasks) run →
        Admission env tasks (after (Requests.step env answer) (.start env s tasks) run)) := by
  refine ⟨listing_after answer hwhole hdistinct tasks run, fun hrun => ?_⟩
  obtain ⟨hfollow, hkept, hredeemed⟩ := hrun.inv
    (I := fun P => P.Follow Seen.note (fun _ => Allowed env) (fun i => Outcome env (tasks i)) ∧
      Kept env P.shared P.memory ∧ Redeemed P.shared P.memory)
    (fun P e h hfresh => ⟨h.1.step, h.2.1.step h.1 hfresh, h.2.2.step h.1 hfresh⟩)
    ⟨Requests.start_follow env s tasks, ⟨hd, by rintro _ _ ⟨⟩⟩, ⟨by rintro _ _ ⟨⟩, by rintro _ _ _ ⟨⟩⟩⟩
  refine ⟨fun i f hi => ?_, fun i j f f' hi hj hnonce => ?_⟩
  · obtain ⟨-, updated, hwritten, hurl⟩ := hi.outcome hfollow
    obtain ⟨r, hr, hurl⟩ := List.mem_map.1 hurl
    exact hurl ▸ hkept.kept i updated hwritten r hr
  · have hi' := (hi.outcome hfollow).1
    rw [hnonce] at hi'
    exact hredeemed.once i j f'.nonce hi' (hj.outcome hfollow).1

end

/-! ## Two registrations -/

/-- A registration that redeems the challenge 7, and one that redeems a given
    challenge. -/
def rivals (nonce : UInt8) : Bool → Task
  | false => some (.registerShard (registration 7 (js "http://b") 97))
  | true => some (.registerShard (registration nonce (js "http://c") 98))

/-- The rivals, whose operations come in this order. -/
def rivalry (nonce : UInt8) (order : List Bool) : Requests Bool :=
  after (Requests.step meshEnv up) (.start meshEnv challenged (rivals nonce))
    (order.map fun i => (i, 0))

/-- One after the other. -/
def inTurn : List Bool := List.replicate 14 false ++ List.replicate 14 true

/-- Operation by operation. -/
def alternating : List Bool := (List.replicate 14 [false, true]).flatten

theorem rivals_in_turn_admitted :
    Admission meshEnv (rivals 8) (rivalry 8 inTurn) ∧
      ∀ i, ((rivalry 8 inTurn).prog i).value.map (·.status) = some 200 :=
  ⟨(registrations_sound meshEnv up (fun _ _ => ⟨200, rfl⟩)
    challenged_durable (by decide +kernel) (rivals 8) (inTurn.map fun i => (i, 0))).2
      (by decide +kernel), by decide +kernel⟩

theorem accepts_of_status {ι : Type} {tasks : ι → Task} {P : Requests ι} {i : ι}
    {rq : RegisterShardRequest} (htask : tasks i = some (.registerShard rq)) {url nonce : JString}
    (hf : (registerShardFields rq.body).toOption.map (fun f => (f.shardUrl, f.nonce)) =
      some (url, nonce))
    (hstatus : (P.prog i).value.map (·.status) = some 200) :
    ∃ f, Accepts tasks P i f ∧ f.shardUrl = url ∧ f.nonce = nonce := by
  obtain ⟨r, hr, hok⟩ := Option.map_eq_some_iff.1 hstatus
  cases hfields : registerShardFields rq.body with
  | error e => simp [hfields, Except.toOption] at hf
  | ok f =>
    simp only [hfields, Except.toOption, Option.map_some, Option.some.injEq, Prod.mk.injEq] at hf
    exact ⟨f, ⟨rq, r, htask, hfields, hr, hok⟩, hf.1, hf.2⟩

theorem rivals_accepted (nonce : UInt8) (P : Requests Bool)
    (h : ∀ i, (P.prog i).value.map (·.status) = some 200)
    (hf : (registerShardFields (registration nonce (js "http://c") 98).body).toOption.map
      (fun f => (f.shardUrl, f.nonce)) = some (js "http://c", bytesToHex [nonce])) :
    (∃ f, Accepts (rivals nonce) P false f ∧ f.shardUrl = js "http://b" ∧ f.nonce = bytesToHex [7]) ∧
      ∃ f, Accepts (rivals nonce) P true f ∧ f.shardUrl = js "http://c" ∧
        f.nonce = bytesToHex [nonce] := by
  have hfalse : rivals nonce false = some (.registerShard (registration 7 (js "http://b") 97)) := rfl
  have htrue : rivals nonce true = some (.registerShard (registration nonce (js "http://c") 98)) := rfl
  exact ⟨accepts_of_status hfalse (by decide +kernel) (h false), accepts_of_status htrue hf (h true)⟩

/-- Both registrations are accepted, but one is lost; and one challenge admits
    two registrations. -/
theorem rivals_collide :
    (¬ ∀ i f, Accepts (rivals 8) (rivalry 8 alternating) i f →
        f.shardUrl ∈ registeredUrls meshEnv (rivalry 8 alternating).shared.1) ∧
      ¬ ∀ i j f f', Accepts (rivals 7) (rivalry 7 alternating) i f →
        Accepts (rivals 7) (rivalry 7 alternating) j f' → f.nonce = f'.nonce → i = j := by
  constructor
  · intro h
    obtain ⟨⟨f, hf, hurl, -⟩, -⟩ := rivals_accepted 8 (rivalry 8 alternating) (by decide +kernel)
      (by decide +kernel)
    have hmem := h false f hf
    rw [hurl] at hmem
    revert hmem
    decide +kernel
  · intro h
    obtain ⟨⟨f, hf, -, hnonce⟩, f', hf', -, hnonce'⟩ := rivals_accepted 7 (rivalry 7 alternating)
      (by decide +kernel) (by decide +kernel)
    exact absurd (h false true f f' hf hf' (hnonce.trans hnonce'.symm)) (by decide)

end Router
