/-
  Routing tables that are built while shards register and rotate their keys.

  A writer puts the list of registered shards first and counts up the version
  afterwards, and a table is put together from four reads.

  * `Settled` is the condition on a step: when a table is taken, no request is
    between its two writes, and list and version are still as the build has
    read them;
  * `Dated` is the invariant: every table that was taken is older than the
    version, or the list is still that of the table unless a request is between
    its writes;
  * `versions_name_topologies` is the result for the tables that were signed.
-/
import Mathlib.Data.Fintype.Basic
import NexTalkRelay.Router.Concurrent

open Effect Js Runs

namespace Router

variable {ι : Type}

/-! ## Signed tables -/

/-- Process `i` has answered with a routing table. -/
def Publishes (tasks : ι → Task) (P : Requests ι) (i : ι) (signed : Json) : Prop :=
  (tasks i = none ∨ tasks i = some .routingTable) ∧
    ∃ r, (P.prog i).value = some r ∧ r.body = .table signed

/-- Two tables with one version name the same shards with the same keys. -/
def OneTopology (tasks : ι → Task) (P : Requests ι) : Prop :=
  ∀ i j signed signed', Publishes tasks P i signed → Publishes tasks P j signed' →
    signed.field (js "version") = signed'.field (js "version") →
      signed.field (js "shard_urls") = signed'.field (js "shard_urls") ∧
        signed.field (js "shards") = signed'.field (js "shards")

/-- The request has written a list and not yet counted up the version. -/
def Seen.Pending (m : Seen) : Prop := m.written.isSome = true ∧ m.bumped = false

instance (m : Seen) : Decidable m.Pending := inferInstanceAs (Decidable (_ ∧ _))

/-- A table is taken while no request is between its writes, from the list and
    the version that were read; a version that is counted up is a natural number
    that a double holds exactly. -/
def Settling (env : Env) (P : Requests ι) (i : ι) : KvOp Key Val Service → Prop
  | .get .registeredShards => (P.memory i).versioned = true → (P.memory i).written = none →
    (∀ j, ¬ (P.memory j).Pending) ∧ (P.memory i).list = registeredOf env P.shared.1 ∧
      (P.memory i).version = stored env P.shared.1 .routingTableVersion
  | .put .routingTableVersion _ _ =>
    ∃ n ∈ (versionIn env (P.memory i).version).toInt?, 0 ≤ n ∧ n < 2 ^ 53
  | _ => True

instance [Fintype ι] (env : Env) (P : Requests ι) (i : ι) : DecidablePred (Settling env P i)
  | .get .registeredShards => inferInstanceAs (Decidable (_ → _ → _))
  | .put .routingTableVersion _ _ => inferInstanceAs (Decidable (∃ n ∈ (_ : Option ℤ), _))
  | .delete _ | .now | .call _ | .get .shardUrls | .get .priorShardCounts
  | .get .routingTableVersion | .get (.powNonce _) | .get (.rl _ _) | .put .shardUrls _ _
  | .put .priorShardCounts _ _ | .put .registeredShards _ _ | .put (.powNonce _) _ _
  | .put (.rl _ _) _ _ => isTrue trivial

/-- What the request does next is `Settling`. -/
def Settled (env : Env) (P : Requests ι) (e : ι × ℕ) : Prop :=
  ∀ o ∈ (P.prog e.1).next, Settling env P e.1 o

instance [Fintype ι] (env : Env) (P : Requests ι) (e : ι × ℕ) : Decidable (Settled env P e) :=
  inferInstanceAs (Decidable (∀ o ∈ (P.prog e.1).next, _))

/-! ## The invariant -/

/-- The number is the other one, or an earlier integer. -/
def UpTo (v w : Number) : Prop := v = w ∨ ∃ a b, v.toInt? = some a ∧ w.toInt? = some b ∧ a < b

/-- The version in force. -/
def versionOf (env : Env) (kv : Kv) : Number := versionIn env (stored env kv .routingTableVersion)

/-- No table has a version newer than the one in force, and each version one list. -/
structure Dated (env : Env) (s : State) (memory : ι → Seen) : Prop where
  durable : Durable s.1
  lasting : ∀ slot, s.1 .routingTableVersion = some slot → slot.expires = none
  static : ∀ i, (memory i).based = true → (memory i).shardUrls = stored env s.1 .shardUrls
  whole : ∀ i, (memory i).taken = true →
    (memory i).based = true ∧ (memory i).before = (memory i).list
  bound : ∀ i, (memory i).taken = true →
    UpTo (versionIn env (memory i).version) (versionOf env s.1)
  /-- A request between its writes has read a version that is no older than any
      table. -/
  pending : ∀ i j, (memory i).taken = true → (memory j).Pending → (memory j).versioned = true →
    UpTo (versionIn env (memory i).version) (versionIn env (memory j).version)
  current : (∀ j, ¬ (memory j).Pending) → ∀ i, (memory i).taken = true →
    versionIn env (memory i).version = versionOf env s.1 → (memory i).list = registeredOf env s.1
  agree : ∀ i j, (memory i).taken = true → (memory j).taken = true →
    versionIn env (memory i).version = versionIn env (memory j).version →
      (memory i).list = (memory j).list

/-- What a request remembers after an operation that neither writes a list or a
    version nor takes a table. -/
structure Reads (env : Env) (kv : Kv) (m m' : Seen) : Prop where
  taken : m'.taken = m.taken
  frozen : m.taken = true → m' = m
  static : m'.based = true →
    m.based = true ∧ m'.shardUrls = m.shardUrls ∨ m'.shardUrls = stored env kv .shardUrls
  pending : m'.Pending ↔ m.Pending
  version : m'.versioned = true → m.versioned = true ∧ m'.version = m.version ∨
    m'.version = stored env kv .routingTableVersion

theorem Dated.start {env : Env} {s : State} (hd : Durable s.1)
    (hlasting : ∀ slot, s.1 .routingTableVersion = some slot → slot.expires = none) :
    Dated env s fun _ : ι => {} := by
  refine ⟨hd, hlasting, ?_, ?_, ?_, ?_, ?_, ?_⟩ <;> simp

theorem Reads.refl (env : Env) (kv : Kv) (m : Seen) : Reads env kv m m :=
  ⟨rfl, fun _ => rfl, fun h => Or.inl ⟨h, rfl⟩, Iff.rfl, fun h => Or.inl ⟨h, rfl⟩⟩

section
variable {env : Env} {s s' : State} {memory memory' : ι → Seen}

theorem Dated.reads (h : Dated env s memory) (hkv : ∀ k, ¬ Passing k → s'.1 k = s.1 k)
    (hm : ∀ i, Reads env s.1 (memory i) (memory' i)) : Dated env s' memory' := by
  have hurls : stored env s'.1 .shardUrls = stored env s.1 .shardUrls := stored_congr (hkv _ id)
  have hversion : versionOf env s'.1 = versionOf env s.1 := by
    unfold versionOf
    rw [stored_congr (hkv .routingTableVersion id)]
  have hlist : registeredOf env s'.1 = registeredOf env s.1 :=
    registeredOf_congr (hkv .registeredShards id)
  have htaken (i : ι) (hi : (memory' i).taken = true) :
      (memory i).taken = true ∧ memory' i = memory i := by
    rw [(hm i).taken] at hi
    exact ⟨hi, (hm i).frozen hi⟩
  refine ⟨h.durable.of_same fun k hk => hkv k (by cases k <;> first | exact id | exact fun _ => hk),
    fun slot hslot => h.lasting slot (by rwa [hkv .routingTableVersion id] at hslot),
    fun i hi => ?_, fun i hi => ?_, fun i hi => ?_, fun i j hi hj hv => ?_, fun hnone i hi hv => ?_,
    fun i j hi hj hv => ?_⟩
  · rw [hurls]
    rcases (hm i).static hi with ⟨hb, heq⟩ | heq
    · rw [heq, h.static i hb]
    · exact heq
  · obtain ⟨hi, heq⟩ := htaken i hi
    rw [heq]
    exact h.whole i hi
  · obtain ⟨hi, heq⟩ := htaken i hi
    rw [heq, hversion]
    exact h.bound i hi
  · obtain ⟨hi, heq⟩ := htaken i hi
    rw [heq]
    rcases (hm j).version hv with ⟨hv, heq'⟩ | heq'
    · rw [heq']
      exact h.pending i j hi ((hm j).pending.1 hj) hv
    · rw [heq']
      exact h.bound i hi
  · obtain ⟨hi, heq⟩ := htaken i hi
    rw [heq] at hv ⊢
    rw [hversion] at hv
    rw [hlist]
    exact h.current (fun j hj => hnone j ((hm j).pending.2 hj)) i hi hv
  · obtain ⟨hi, heq⟩ := htaken i hi
    obtain ⟨hj, heq'⟩ := htaken j hj
    rw [heq, heq'] at hv ⊢
    exact h.agree i j hi hj hv

/-- A table is taken. -/
theorem Dated.takes (h : Dated env s memory) (hnone : ∀ j, ¬ (memory j).Pending) {i : ι}
    (hother : ∀ j, j ≠ i → memory' j = memory j) {list : List Registered}
    (hi : memory' i =
      { memory i with list := list, before := (memory i).list, taken := true })
    (hbased : (memory i).based = true) (hlist : (memory i).list = registeredOf env s.1)
    (hnew : list = registeredOf env s.1)
    (hversion : (memory i).version = stored env s.1 .routingTableVersion) :
    Dated env s memory' := by
  have hnone' (j : ι) : ¬ (memory' j).Pending := by
    by_cases hj : j = i
    · subst hj
      rw [hi]
      exact hnone j
    · rw [hother j hj]
      exact hnone j
  have hlisted (j : ι) (hj : (memory' j).taken = true)
      (hv : versionIn env (memory' j).version = versionOf env s.1) :
      (memory' j).list = registeredOf env s.1 := by
    by_cases hji : j = i
    · subst hji
      rw [hi]
      exact hnew
    · rw [hother j hji] at hj hv ⊢
      exact h.current hnone j hj hv
  have hdated (j : ι) (hj : (memory' j).taken = true) :
      UpTo (versionIn env (memory' j).version) (versionOf env s.1) := by
    by_cases hji : j = i
    · subst hji
      rw [hi]
      exact Or.inl (congrArg (versionIn env) hversion)
    · rw [hother j hji] at hj ⊢
      exact h.bound j hj
  refine ⟨h.durable, h.lasting, fun j hj => ?_, fun j hj => ?_, hdated,
    fun _ j _ hj => absurd hj (hnone' j), fun _ => hlisted, fun j k hj hk hv => ?_⟩
  · by_cases hji : j = i
    · subst hji
      rw [hi]
      exact h.static j hbased
    · rw [hother j hji] at hj ⊢
      exact h.static j hj
  · by_cases hji : j = i
    · subst hji
      rw [hi]
      exact ⟨hbased, hlist.trans hnew.symm⟩
    · rw [hother j hji] at hj ⊢
      exact h.whole j hj
  · -- the new table has the version in force
    have hvi : versionIn env (memory' i).version = versionOf env s.1 := by
      rw [hi]
      exact congrArg (versionIn env) hversion
    by_cases hji : j = i
    · rw [hji] at hj hv ⊢
      rw [hlisted i hj hvi, hlisted k hk (hv ▸ hvi)]
    · by_cases hki : k = i
      · rw [hki] at hk hv ⊢
        rw [hlisted i hk hvi, hlisted j hj (hv.trans hvi)]
      · rw [hother j hji] at hj hv ⊢
        rw [hother k hki] at hk hv ⊢
        exact h.agree j k hj hk hv

/-- A list is written: the request is then between its writes. -/
theorem Dated.lists (h : Dated env s memory) {i : ι} (hother : ∀ j, j ≠ i → memory' j = memory j)
    {updated : List Registered}
    (hi : memory' i =
      { memory i with written := some updated, versioned := false, bumped := false })
    (htaken : (memory i).taken = false) (hd : Durable s'.1)
    (hkv : ∀ k, k ≠ .registeredShards → ¬ Passing k → s'.1 k = s.1 k) : Dated env s' memory' := by
  have hurls : stored env s'.1 .shardUrls = stored env s.1 .shardUrls :=
    stored_congr (hkv _ (by simp) id)
  have hversion : versionOf env s'.1 = versionOf env s.1 := by
    unfold versionOf
    rw [stored_congr (hkv .routingTableVersion (by simp) id)]
  have htook (j : ι) (hj : (memory' j).taken = true) :
      (memory j).taken = true ∧ memory' j = memory j := by
    have hji : j ≠ i := by
      rintro rfl
      rw [hi, htaken] at hj
      cases hj
    rw [hother j hji] at hj
    exact ⟨hj, hother j hji⟩
  refine ⟨hd, fun slot hslot =>
      h.lasting slot (by rwa [hkv .routingTableVersion (by simp) id] at hslot),
    fun j hj => ?_, fun j hj => ?_, fun j hj => ?_, fun j k hj hk hv => ?_, fun hnone => ?_,
    fun j k hj hk hv => ?_⟩
  · rw [hurls]
    by_cases hji : j = i
    · subst hji
      rw [hi] at hj ⊢
      exact h.static j hj
    · rw [hother j hji] at hj ⊢
      exact h.static j hj
  · obtain ⟨hj, heq⟩ := htook j hj
    rw [heq]
    exact h.whole j hj
  · obtain ⟨hj, heq⟩ := htook j hj
    rw [heq, hversion]
    exact h.bound j hj
  · obtain ⟨hj, heq⟩ := htook j hj
    have hki : k ≠ i := by
      rintro rfl
      rw [hi] at hv
      cases hv
    rw [hother k hki] at hk hv ⊢
    rw [heq]
    exact h.pending j k hj hk hv
  · exact absurd (hi ▸ ⟨rfl, rfl⟩ : (memory' i).Pending) (hnone i)
  · obtain ⟨hj, heq⟩ := htook j hj
    obtain ⟨hk, heq'⟩ := htook k hk
    rw [heq, heq'] at hv ⊢
    exact h.agree j k hj hk hv

theorem UpTo.lt {v w : Number} (h : UpTo v w) {n : ℤ} (hw : w.toInt? = some n) :
    ∃ a, v.toInt? = some a ∧ a ≤ n := by
  rcases h with rfl | ⟨a, b, hv, hw', hlt⟩
  · exact ⟨n, hw, le_rfl⟩
  · rw [hw] at hw'
    cases hw'
    exact ⟨a, hv, hlt.le⟩

/-- The version is counted up: it is newer than every table. -/
theorem Dated.counts (h : Dated env s memory) {i : ι} (hother : ∀ j, j ≠ i → memory' j = memory j)
    (hi : memory' i = { memory i with bumped := true }) (htaken : (memory i).taken = false)
    (hpending : (memory i).Pending) (hversioned : (memory i).versioned = true) {n : ℤ}
    (hn : (versionIn env (memory i).version).toInt? = some n)
    (hnew : (versionOf env s'.1).toInt? = some (n + 1))
    (hlasting : ∀ slot, s'.1 .routingTableVersion = some slot → slot.expires = none)
    (hkv : ∀ k, k ≠ .routingTableVersion → ¬ Passing k → s'.1 k = s.1 k) : Dated env s' memory' := by
  have hurls : stored env s'.1 .shardUrls = stored env s.1 .shardUrls :=
    stored_congr (hkv _ (by simp) id)
  have htook (j : ι) (hj : (memory' j).taken = true) :
      (memory j).taken = true ∧ memory' j = memory j := by
    have hji : j ≠ i := by
      rintro rfl
      rw [hi, htaken] at hj
      cases hj
    rw [hother j hji] at hj
    exact ⟨hj, hother j hji⟩
  have holder (j : ι) (hj : (memory j).taken = true) :
      ∃ a, (versionIn env (memory j).version).toInt? = some a ∧ a < n + 1 := by
    obtain ⟨a, ha, hle⟩ := (h.pending j i hj hpending hversioned).lt hn
    exact ⟨a, ha, by omega⟩
  refine ⟨h.durable.of_same fun k hk => hkv k (by rintro rfl; exact hk)
      (by cases k <;> first | exact id | exact fun _ => hk), hlasting, fun j hj => ?_,
    fun j hj => ?_, fun j hj => ?_, fun j k hj hk hv => ?_, fun hnone j hj hv => ?_,
    fun j k hj hk hv => ?_⟩
  · rw [hurls]
    by_cases hji : j = i
    · subst hji
      rw [hi] at hj ⊢
      exact h.static j hj
    · rw [hother j hji] at hj ⊢
      exact h.static j hj
  · obtain ⟨hj, heq⟩ := htook j hj
    rw [heq]
    exact h.whole j hj
  · obtain ⟨hj, heq⟩ := htook j hj
    rw [heq]
    obtain ⟨a, ha, hlt⟩ := holder j hj
    exact Or.inr ⟨a, n + 1, ha, hnew, hlt⟩
  · obtain ⟨hj, heq⟩ := htook j hj
    have hki : k ≠ i := by
      rintro rfl
      rw [hi] at hk
      cases hk.2
    rw [hother k hki] at hk hv ⊢
    rw [heq]
    exact h.pending j k hj hk hv
  · obtain ⟨hj, heq⟩ := htook j hj
    obtain ⟨a, ha, hlt⟩ := holder j hj
    rw [heq] at hv
    rw [hv, hnew, Option.some.injEq] at ha
    omega
  · obtain ⟨hj, heq⟩ := htook j hj
    obtain ⟨hk, heq'⟩ := htook k hk
    rw [heq, heq'] at hv ⊢
    exact h.agree j k hj hk hv

end

/-! ## Steps -/

section
variable [DecidableEq ι] {env : Env} {answer : JString → CreateBody → Created} {tasks : ι → Task}
  {P : Requests ι} {e : ι × ℕ}

theorem stored_get (hkv : env.adminKv = true) (s : State) (k : Key) :
    stored env s.1 k = (s.1 k).map (·.val) := by
  unfold stored
  rw [if_pos hkv]

omit [DecidableEq ι] in
theorem Dated.get_version (h : Dated env P.shared P.memory) (hkv : env.adminKv = true) (t : ℕ) :
    P.shared.1.get t .routingTableVersion = stored env P.shared.1 .routingTableVersion := by
  rw [stored_get hkv]
  cases hslot : P.shared.1 .routingTableVersion with
  | none => exact Store.get_none hslot t
  | some slot =>
    refine Store.get_live hslot ?_
    unfold Slot.live
    rw [h.lasting slot hslot]

/-- The text of the version that is counted up is read as its number. -/
theorem versionIn_next (env : Env) {v : Number} {n : ℤ} (hv : v.toInt? = some n) (h0 : 0 ≤ n)
    (hn : n < 2 ^ 53) : (versionIn env (some (v.add (.ofInt 1)).text)).toInt? = some (n + 1) := by
  obtain ⟨d, rfl, hd⟩ := Number.toInt?_eq_some.1 hv
  obtain ⟨k, rfl⟩ := Int.eq_ofNat_of_zero_le h0
  have hval : (d.add (.ofDigits 1 0)).val = (k + 1 : ℕ) := by
    rw [Dec.val_add, hd]
    simp
  obtain ⟨hdigits, hdec⟩ := Dec.text_nat hval (by omega)
  have htext : ((Number.fin d).add (.ofInt 1)).text = (d.add (.ofDigits 1 0)).text := rfl
  rw [htext]
  unfold versionIn
  dsimp only
  rw [trim_of_isDigits hdigits, if_pos hdigits, stringToNumber_of_isDigits hdigits, hdec,
    Number.toInt?_ofInt]
  rfl

/-- **Step lemma.** -/
theorem Dated.step (hkv : env.adminKv = true)
    (hP : P.Follow Seen.note (fun _ => Allowed env) fun i => Outcome env (tasks i))
    (h : Dated env P.shared P.memory) (hsettled : Settled env P e) :
    Dated env (Requests.step env answer e P).shared (Requests.step env answer e P).memory := by
  have hsame {o : KvOp Key Val Service} {r : Option (KvOp.Res Service.Res o)} {s' : State}
      (hallowed : Allowed env (P.memory e.1) o)
      (hput : ∀ k v, ¬ Passing k → o ≠ .put k v none)
      (ho : KvOp.exec e.2 (services env.crypto answer) o P.shared = (r, s')) (k : Key)
      (hk : ¬ Passing k) : s'.1 k = P.shared.1 k := by
    rcases hallowed.exec hk ho with ⟨-, hsame⟩ | ⟨v, heq, -⟩
    · exact hsame
    · exact absurd heq (hput k v hk)
  have hquiet {m' : Seen} {s' : State} (hm : Reads env P.shared.1 (P.memory e.1) m')
      (hs : ∀ k, ¬ Passing k → s'.1 k = P.shared.1 k) :
      Dated env s' (Function.update P.memory e.1 m') := by
    refine h.reads hs fun i => ?_
    by_cases hi : i = e.1
    · subst hi
      rw [Function.update_self]
      exact hm
    · rw [Function.update_of_ne hi]
      exact .refl _ _ _
  refine hP.inv h (fun o s' r hnext hallowed ho => ?_) (fun o s' hnext hallowed ho => ?_)
  · have hother (m' : Seen) (j : ι) (hj : j ≠ e.1) :
        Function.update P.memory e.1 m' j = P.memory j := Function.update_of_ne hj _ _
    have hself (m' : Seen) : Function.update P.memory e.1 m' e.1 = m' := Function.update_self _ _ _
    cases htaken : (P.memory e.1).taken with
    | true =>
      rw [Seen.note_taken htaken]
      refine hquiet (.refl _ _ _) (hsame hallowed ?_ ho)
      rintro k v hk rfl
      cases k with
      | registeredShards => exact absurd (hallowed.2.2.1.symm.trans htaken) (by decide)
      | routingTableVersion => exact absurd (hallowed.2.1.symm.trans htaken) (by decide)
      | shardUrls | priorShardCounts => exact hallowed
      | powNonce _ | rl _ _ => exact hk trivial
    | false =>
      cases o with
      | get k =>
        cases ho
        have hkeep := fun k (_ : ¬ Passing k) => (rfl : P.shared.1 k = P.shared.1 k)
        cases k with
        | shardUrls =>
          unfold Seen.note
          rw [if_neg (by simp [htaken])]
          refine hquiet ⟨rfl, by simp [htaken], fun _ => Or.inr ?_, Iff.rfl,
            fun hv => Or.inl ⟨hv, rfl⟩⟩ hkeep
          rw [stored_get hkv]
          exact h.durable.get (k := .shardUrls) trivial e.2
        | registeredShards => 
          have hget : P.shared.1.get e.2 .registeredShards = stored env P.shared.1 .registeredShards := by
            rw [stored_get hkv]
            exact h.durable.get (k := .registeredShards) trivial e.2
          unfold Seen.note
          rw [if_neg (by simp [htaken]), hget]
          cases htakes : (P.memory e.1).versioned && (P.memory e.1).based && (P.memory e.1).written.isNone with
          | true => 
            simp only [Bool.and_eq_true, Option.isNone_iff_eq_none] at htakes
            obtain ⟨⟨hversioned, hbased⟩, hwritten⟩ := htakes
            obtain ⟨hnone, hlist, hversion⟩ := hsettled _ hnext hversioned hwritten
            exact h.takes hnone (hother _) (hself _) hbased hlist rfl hversion
          | false =>
            exact hquiet ⟨htaken.symm, by simp [htaken], fun hb => Or.inl ⟨hb, rfl⟩, Iff.rfl,
              fun hv => Or.inl ⟨hv, rfl⟩⟩ hkeep
        | routingTableVersion => 
          unfold Seen.note
          rw [if_neg (by simp [htaken])]
          exact hquiet ⟨rfl, by simp [htaken], fun hb => Or.inl ⟨hb, rfl⟩, Iff.rfl, 
            fun _ => Or.inr (h.get_version hkv e.2)⟩ hkeep
        | priorShardCounts | powNonce _ | rl _ _ =>
          unfold Seen.note
          rw [if_neg (by simp [htaken])]
          exact hquiet (.refl _ _ _) hkeep
      | put k v ttl =>
        cases k with
        | registeredShards =>
          have hd := h.durable.exec hallowed ho
          obtain ⟨-, rfl, -⟩ := hallowed
          cases ho
          have hnote : (P.memory e.1).note (.put .registeredShards v none) () =
              { P.memory e.1 with written := some v, versioned := false, bumped := false } := by
            unfold Seen.note
            rw [if_neg (by simp [htaken])]
          exact h.lists (hother _) ((hself _).trans hnote) htaken hd fun k hk _ =>
            Store.put_other _ _ hk _ _
        | routingTableVersion =>
          obtain ⟨rfl, -, hwritten, hversioned, hbumped, rfl⟩ := hallowed
          obtain ⟨n, hn, h0, hlt⟩ := hsettled _ hnext
          cases ho
          have hput := Store.put_same P.shared.1 e.2 (k := .routingTableVersion)
            ((versionIn env (P.memory e.1).version).add (.ofInt 1)).text none
          refine h.counts (hother _) ((hself _).trans ?_) htaken ⟨hwritten, hbumped⟩ hversioned hn ?_
            (fun slot hslot => ?_) fun k hk _ => Store.put_other _ _ hk _ _
          · unfold Seen.note
            rw [if_neg (by simp [htaken])]
          · unfold versionOf
            rw [stored_of_slot hkv hput]
            exact versionIn_next env hn h0 hlt
          · obtain rfl := Option.some.inj (hput.symm.trans hslot)
            rfl
        | shardUrls | priorShardCounts => exact hallowed.elim
        | powNonce _ | rl _ _ =>
          unfold Seen.note
          rw [if_neg (by simp [htaken])]
          refine hquiet (.refl _ _ _) (hsame hallowed ?_ ho)
          rintro k' v' hk' ⟨⟩
          exact hk' trivial
      | delete k =>
        refine hquiet ?_ (hsame hallowed (by simp) ho)
        unfold Seen.note
        rw [if_neg (by simp [htaken])]
        cases k with
        | powNonce nonce =>
          exact ⟨rfl, by simp [htaken], fun hb => Or.inl ⟨hb, rfl⟩, Iff.rfl, fun hv => Or.inl ⟨hv, rfl⟩⟩
        | _ => exact .refl _ _ _
      | now => 
        cases ho
        rw [Seen.note_now]
        exact hquiet (.refl _ _ _) fun _ _ => rfl
      | call c => 
        rw [Seen.note_call]
        exact hquiet (.refl _ _ _) (hsame hallowed (by simp) ho)
  · refine h.reads (hsame hallowed ?_ ho) fun i => .refl _ _ _
    rintro k v - rfl
    cases ho

end

/-! ## Runs -/

/-- What a published table says, in terms of what its request has read. -/
structure Published (env : Env) (m : Seen) (signed : Json) : Prop where
  taken : env.adminKv = true → m.taken = true
  empty : env.adminKv = false → m = {}
  version : signed.field (js "version") = some (.num (versionIn env m.version))
  urls : signed.field (js "shard_urls") = some (.arr ((m.urls env).map .str))
  shards : signed.field (js "shards") = some (.arr ((m.urls env).map fun url => .obj
    [(js "url", .str url), (js "pubkey", ((pubkeyOf m.list url).map .str).getD .null)]))

theorem Publishes.published {env : Env} {tasks : ι → Task} {P : Requests ι}
    (hP : P.Follow Seen.note (fun _ => Allowed env) fun i => Outcome env (tasks i)) {i : ι}
    {signed : Json} (h : Publishes tasks P i signed) : Published env (P.memory i) signed := by
  obtain ⟨htask, r, hr, hsigned⟩ := h
  obtain ⟨htaken, hempty, counts, now, signature, rfl⟩ := (hP.value hr).table htask signed hsigned
  exact ⟨htaken, hempty, rfl, rfl, rfl⟩

/-- **A version names one topology**, in every run in which every table is taken
    from a settled store. -/
theorem versions_name_topologies [DecidableEq ι] (env : Env)
    (answer : JString → CreateBody → Created) {s : State} (hd : Durable s.1)
    (hlasting : ∀ slot, s.1 .routingTableVersion = some slot → slot.expires = none)
    (tasks : ι → Task) (run : List (ι × ℕ))
    (hrun : Always (Requests.step env answer) (Settled env) (.start env s tasks) run) :
    OneTopology tasks (after (Requests.step env answer) (.start env s tasks) run) := by
  have hfollow := after_follow env answer s tasks run
  intro i j signed signed' hi hj hversion
  have hi := hi.published hfollow
  have hj := hj.published hfollow
  rw [hi.version, hj.version, Option.some.injEq, Json.num.injEq] at hversion
  rw [hi.urls, hj.urls, hi.shards, hj.shards]
  cases hkv : env.adminKv with
  | false =>
    rw [hi.empty hkv, hj.empty hkv]
    exact ⟨rfl, rfl⟩
  | true =>
    have hdated := (hrun.inv
      (I := fun P => P.Follow Seen.note (fun _ => Allowed env) (fun i => Outcome env (tasks i)) ∧
        Dated env P.shared P.memory)
      (fun P e h hsettled => ⟨h.1.step, h.2.step hkv h.1 hsettled⟩)
      ⟨Requests.start_follow env s tasks, .start hd hlasting⟩).2
    obtain ⟨hbased, hbefore⟩ := hdated.whole i (hi.taken hkv)
    obtain ⟨hbased', hbefore'⟩ := hdated.whole j (hj.taken hkv)
    unfold Seen.urls
    rw [hdated.static i hbased, hdated.static j hbased', hbefore, hbefore',
      hdated.agree i j (hi.taken hkv) (hj.taken hkv) hversion]
    exact ⟨rfl, rfl⟩

/-! ## A table between two writes -/

/-- A registration, and two builds of the table. -/
def registrationAndBuilds : Fin 3 → Task
  | 0 => some (.registerShard (registration 7 (js "http://b") 97))
  | _ => none

/-- A registration and two builds, whose operations come in this order. -/
def buildRun (order : List (Fin 3)) : Requests (Fin 3) :=
  after (Requests.step meshEnv up) (.start meshEnv challenged registrationAndBuilds)
    (order.map fun i => (i, 0))

/-- The second build runs after the registration. -/
def buildAfter : List (Fin 3) := List.replicate 7 1 ++ List.replicate 14 0 ++ List.replicate 7 2

/-- The second build runs between the two writes of the registration. -/
def buildBetween : List (Fin 3) :=
  List.replicate 7 1 ++ List.replicate 12 0 ++ List.replicate 7 2 ++ List.replicate 2 0

/-- The routing table in a response. -/
def tableOf (r : Response) : Option Json :=
  match r.body with
  | .table signed => some signed
  | _ => none

theorem exists_publishes {tasks : ι → Task} {P : Requests ι} {i : ι} (htask : tasks i = none)
    (h : ((P.prog i).value.bind tableOf).isSome = true) : ∃ signed, Publishes tasks P i signed := by
  obtain ⟨signed, hsigned⟩ := Option.isSome_iff_exists.1 h
  obtain ⟨r, hr, htable⟩ := Option.bind_eq_some_iff.1 hsigned
  unfold tableOf at htable
  split at htable
  · next hbody =>
    cases htable
    exact ⟨_, Or.inl htask, r, hr, hbody⟩
  · cases htable

/-- Two tables with one version that name different numbers of shards. -/
theorem not_oneTopology {env : Env} {tasks : ι → Task} {P : Requests ι}
    (hP : P.Follow Seen.note (fun _ => Allowed env) fun i => Outcome env (tasks i)) {i j : ι}
    (hi : ∃ signed, Publishes tasks P i signed) (hj : ∃ signed, Publishes tasks P j signed)
    (hversion : versionIn env (P.memory i).version = versionIn env (P.memory j).version)
    (hlength : ((P.memory i).urls env).length ≠ ((P.memory j).urls env).length) :
    ¬ OneTopology tasks P := by
  intro h
  obtain ⟨signed, hi⟩ := hi
  obtain ⟨signed', hj⟩ := hj
  have hpi := hi.published hP
  have hpj := hj.published hP
  have hurls := (h i j signed signed' hi hj (by rw [hpi.version, hpj.version, hversion])).1
  rw [hpi.urls, hpj.urls, Option.some.injEq, Json.arr.injEq] at hurls
  exact hlength (by simpa using congrArg List.length hurls)

theorem build_after_registration :
    OneTopology registrationAndBuilds (buildRun buildAfter) ∧
      ∀ i, i ≠ 0 → (((buildRun buildAfter).prog i).value.bind tableOf).isSome = true :=
  ⟨versions_name_topologies meshEnv up challenged_durable
    (fun _ hslot => by
      rw [show challenged.1 .routingTableVersion = none by decide +kernel] at hslot
      cases hslot)
    registrationAndBuilds (buildAfter.map fun i => (i, 0)) (by decide +kernel), by decide +kernel⟩

/-- Both tables have version 1, but only the second one names the new shard. -/
theorem build_between_writes : ¬ OneTopology registrationAndBuilds (buildRun buildBetween) :=
  not_oneTopology (i := 1) (j := 2) (after_follow meshEnv up challenged registrationAndBuilds _)
    (exists_publishes rfl (by decide +kernel)) (exists_publishes rfl (by decide +kernel))
    (by decide +kernel) (by decide +kernel)

end Router
