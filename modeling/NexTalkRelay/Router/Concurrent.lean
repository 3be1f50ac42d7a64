/-
  Requests that the Router handles at the same time.

  The handlers read and write the administration store one key at a time, and
  the operations of several requests may come in any order.

  * `Seen` is what a request has read and written so far, and `Allowed` says
    which operations it may perform then: what it writes comes from what it has
    read;
  * `Outcome` says what a response tells about the request's own operations;
  * `prog_follows`: every request and every build of the routing table obeys;
  * `Requests` is a pool of them over one store.
-/
import NexTalkRelay.Lib.Interleave
import NexTalkRelay.Router.Topology

open Effect Js Runs

namespace Router

/-! ## What a request has seen -/

/-- What a request has read and written; nothing is added once it has `taken`
    a routing table. -/
structure Seen where
  /-- The static list, as it was read last. -/
  shardUrls : Option (List JString) := none
  based : Bool := false
  /-- The registered shards as they were read last, and the time before. -/
  list : List Registered := []
  before : List Registered := []
  version : Option JString := none
  versioned : Bool := false
  /-- The list that the request has written, and whether it has counted up the
      version since. -/
  written : Option (List Registered) := none
  bumped : Bool := false
  redeemed : List JString := []
  /-- It has read the registered shards once more, after the version. -/
  taken : Bool := false

/-- The memory after an operation; a version that was read before the list was
    written is forgotten. -/
def Seen.note (m : Seen) (o : KvOp Key Val Service) (r : KvOp.Res Service.Res o) : Seen :=
  if m.taken then m
  else
    match o with
    | .get .shardUrls => { m with shardUrls := r, based := true }
    | .get .registeredShards => { m with
        list := r.getD []
        before := m.list
        taken := m.versioned && m.based && m.written.isNone }
    | .get .routingTableVersion => { m with version := r, versioned := true }
    | .put .registeredShards v _ =>
      { m with written := some v, versioned := false, bumped := false }
    | .put .routingTableVersion _ _ => { m with bumped := true }
    | .delete (.powNonce nonce) => { m with redeemed := nonce :: m.redeemed }
    | _ => m

/-- The version that a stored text stands for. -/
def versionIn (env : Env) (raw : Option JString) : Number :=
  match raw with
  | some raw => if isDigits (trim raw) then stringToNumber (trim raw) else env.routingTableVersion
  | none => env.routingTableVersion

/-- The list is rewritten from the one that was read. -/
def Rewrites (env : Env) (existing updated : List Registered) : Prop :=
  (∃ url pubkey now, roomFor env existing url = true ∧ updated = upsert existing url pubkey now) ∨
    ∃ f now, updated = replaceKey existing f now

/-- The operations that a request may perform, after what it has seen. -/
def Allowed (env : Env) (m : Seen) : KvOp Key Val Service → Prop
  | .put .registeredShards updated ttl =>
    env.adminKv = true ∧ ttl = none ∧ m.taken = false ∧ Rewrites env m.list updated
  | .put .routingTableVersion raw ttl =>
    ttl = none ∧ m.taken = false ∧ m.written.isSome = true ∧ m.versioned = true ∧
      m.bumped = false ∧ raw = ((versionIn env m.version).add (.ofInt 1)).text
  | .put k _ _ | .delete k => Passing k
  | _ => True

/-- The shard list that the request has put together. -/
def Seen.urls (env : Env) (m : Seen) : List JString :=
  Merge.pushAbsent (baseUrls env m.shardUrls) (m.before.map (·.url))

/-- A request, or a build of the routing table for a push. -/
abbrev Task := Option Request

/-- The program of a task. -/
def Task.prog (env : Env) : Task → M Response
  | some rq => fetch env rq
  | none => handleRoutingTable env

/-- What the response says about the operations of the request. -/
structure Outcome (env : Env) (task : Task) (m : Seen) (r : Response) : Prop where
  /-- A registration that was accepted. -/
  admitted : ∀ rq f, task = some (.registerShard rq) → registerShardFields rq.body = .ok f →
    r.status = 200 → f.nonce ∈ m.redeemed ∧
      ∃ updated, m.written = some updated ∧ f.shardUrl ∈ updated.map (·.url)
  /-- A routing table. -/
  table : task = none ∨ task = some .routingTable → ∀ signed, r.body = .table signed →
    (env.adminKv = true → m.taken = true) ∧
    (env.adminKv = false → m = {}) ∧
    ∃ priorCounts now signature, signed = .obj (tableBody env (m.urls env) priorCounts
      (versionIn env m.version) m.list now ++ [(js "signature", .str signature)])

/-! ## Handlers -/

section
variable {env : Env} {m : Seen}

theorem getRoutingTableVersion_eq (env : Env) : getRoutingTableVersion env =
    (adminGet env .routingTableVersion).bind fun raw => .ret (versionIn env raw) := by
  unfold getRoutingTableVersion
  rw [Prog.bind_eq]
  congr 1
  funext raw
  cases raw <;> rfl

theorem allowed_of_passing {o : KvOp Key Val Service} (h : o.Writes Passing) : Allowed env m o := by
  cases o with
  | put k v ttl =>
    cases k with
    | rl _ _ | powNonce _ => trivial
    | _ => exact h.elim
  | delete k =>
    cases k with
    | rl _ _ | powNonce _ => trivial
    | _ => exact h.elim
  | _ => trivial

/-- The lists and the version are left alone, or put for good. -/
theorem Allowed.cases {o : KvOp Key Val Service} (h : Allowed env m o) {k : Key} (hk : ¬ Passing k) :
    o.Spares k ∨ ∃ v, o = .put k v none := by
  cases o with
  | put k' v ttl =>
    by_cases hkk : k' = k
    · subst hkk
      cases k' with
      | registeredShards =>
        obtain ⟨-, rfl, -⟩ := h
        exact Or.inr ⟨v, rfl⟩
      | routingTableVersion =>
        obtain ⟨rfl, -⟩ := h
        exact Or.inr ⟨v, rfl⟩
      | shardUrls | priorShardCounts => exact absurd h hk
      | rl _ _ | powNonce _ => exact absurd trivial hk
    · exact Or.inl hkk
  | delete k' =>
    refine Or.inl ?_
    rintro rfl
    exact hk h
  | _ => exact Or.inl trivial

theorem Allowed.exec {o : KvOp Key Val Service} (h : Allowed env m o) {k : Key} (hk : ¬ Passing k)
    {t : ℕ} {H : Prog.Handler Service Service.Res World} {s s' : State}
    {r : Option (KvOp.Res Service.Res o)} (ho : KvOp.exec t H o s = (r, s')) :
    o.Spares k ∧ s'.1 k = s.1 k ∨ ∃ v, o = .put k v none ∧ s'.1 k = some ⟨v, none⟩ := by
  obtain rfl : (KvOp.exec t H o s).2 = s' := congrArg Prod.snd ho
  rcases h.cases hk with hspare | ⟨v, rfl⟩
  · exact Or.inl ⟨hspare, KvOp.exec_spares hspare t H s⟩
  · exact Or.inr ⟨v, rfl, Store.put_same _ _ _ _⟩

theorem Durable.exec {s s' : State} {m : Seen} {o : KvOp Key Val Service} (hd : Durable s.1)
    (h : Allowed env m o) {t : ℕ} {H : Prog.Handler Service Service.Res World}
    {r : Option (KvOp.Res Service.Res o)} (ho : KvOp.exec t H o s = (r, s')) : Durable s'.1 := by
  intro k hk slot hslot
  have hpass : ¬ Passing k := by cases k <;> first | exact id | exact fun _ => hk
  rcases h.exec hpass ho with ⟨-, hsame⟩ | ⟨v, -, hput⟩
  · exact hd k hk slot (hsame ▸ hslot)
  · rw [hput] at hslot
    cases hslot
    rfl

/-- A request that may only write counters and nonces obeys. -/
theorem passing_follows {α : Type} {p : M α} (hp : p.Only (KvOp.Writes Passing)) :
    p.Follows Seen.note (Allowed env) (fun _ _ => True) m :=
  hp.follows (fun _ _ ho _ => allowed_of_passing ho) (fun _ _ _ _ _ => trivial) trivial

/-- A request that has neither read a version nor written a list. -/
structure Seen.Early (m : Seen) : Prop where
  versioned : m.versioned = false
  written : m.written = none
  taken : m.taken = false

/-- Counters and nonces that are read and counters that are written leave it so. -/
theorem Seen.Early.note (hm : m.Early) {o : KvOp Key Val Service}
    (ho : match o with
      | .get k | .put k _ _ | .delete k => Passing k
      | _ => True)
    (r : KvOp.Res Service.Res o) : (m.note o r).Early := by
  obtain ⟨hversioned, hwritten, htaken⟩ := hm
  unfold Seen.note
  rw [if_neg (by simp [htaken])]
  cases o with
  | get k | put k _ _ | delete k => cases k <;> first | exact ho.elim | exact ⟨hversioned, hwritten, htaken⟩
  | _ => exact ⟨hversioned, hwritten, htaken⟩

theorem Seen.Early.redeemed (hm : m.Early) (nonce : JString) :
    nonce ∈ (m.note (.delete (.powNonce nonce)) ()).redeemed := by
  unfold Seen.note
  rw [if_neg (by simp [hm.taken])]
  exact List.mem_cons_self

theorem Seen.note_taken (h : m.taken = true) {o : KvOp Key Val Service}
    (r : KvOp.Res Service.Res o) : m.note o r = m := if_pos h

@[simp] theorem Seen.note_now (m : Seen) (now : ℕ) : m.note .now now = m := by
  unfold note
  split <;> rfl

@[simp] theorem Seen.note_call (m : Seen) (e : Service) (r : Service.Res e) :
    m.note (.call e) r = m := by
  unfold note
  split <;> rfl

theorem adminRateLimit_follows (hm : m.Early) (bucketKey : JString) (limit windowSeconds : ℕ) :
    (adminRateLimit env bucketKey limit windowSeconds).Follows Seen.note (Allowed env)
      (fun m' _ => m'.Early) m := by
  unfold adminRateLimit
  split
  · exact hm
  · refine ⟨trivial, fun now => ⟨trivial, fun current => ?_⟩⟩
    simp only [Prog.ret_bind]
    have hm' := (hm.note (o := .now) trivial now).note (o := .get (.rl _ _)) trivial current
    split
    · exact hm'
    · exact ⟨trivial, fun _ => hm'.note (o := .put (.rl _ _) _ _) trivial ()⟩

theorem registerShardGate_follows (hm : m.Early) (ip : Option JString) (f : RegisterShardFields) :
    (registerShardGate env ip f).Follows Seen.note (Allowed env)
      (fun m' o => m'.Early ∧ (∀ r ∈ o, r.status ≠ 200) ∧ (o = none → f.nonce ∈ m'.redeemed)) m := by
  have hrefuse {m' : Seen} (hm' : m'.Early) {message : JString} {status : ℕ} (hs : status ≠ 200) :
      m'.Early ∧ (∀ r ∈ some (jsonErr message status), r.status ≠ 200) ∧
        (some (jsonErr message status) = none → f.nonce ∈ m'.redeemed) :=
    ⟨hm', by rintro _ ⟨⟩; exact hs, by simp⟩
  refine (adminRateLimit_follows hm _ _ _).bind fun m ok hm => ?_
  split
  · exact hrefuse hm (by decide)
  refine ⟨trivial, fun challenge => ?_⟩
  have hm := hm.note (o := .get (.powNonce f.nonce)) trivial challenge
  cases challenge with
  | none => exact hrefuse hm (by decide)
  | some challenge =>
    refine ⟨trivial, fun now => ?_⟩
    have hm := hm.note (o := .now) trivial now
    simp only [Prog.ret_bind]
    split
    · exact hrefuse hm (by decide)
    split
    · exact hrefuse hm (by decide)
    refine ⟨trivial, fun _ => ?_⟩
    have hnonce := hm.redeemed f.nonce
    have hm := hm.note (o := .delete (.powNonce f.nonce)) trivial ()
    refine ⟨trivial, fun now => ?_⟩
    simp only [Prog.ret_bind, Seen.note_now] at hnonce hm ⊢
    split
    · exact hrefuse hm (by decide)
    cases f.shardPubkey.str? with
    | none => trivial
    | some shardPubkey =>
      dsimp only
      split
      · exact hrefuse hm (by decide)
      · exact ⟨hm, by simp, fun _ => hnonce⟩

/-- What is written comes from what was read. -/
theorem putRegistered_follows (hkv : env.adminKv = true) (htaken : m.taken = false)
    {updated : List Registered} (hre : Rewrites env m.list updated) :
    (putRegistered env updated).Follows Seen.note (Allowed env)
      (fun m' _ => m'.written = some updated ∧ m'.redeemed = m.redeemed) m := by
  refine ⟨⟨hkv, rfl, htaken, hre⟩, fun _ => ?_⟩
  simp only [Prog.ret_bind, getRoutingTableVersion_eq, adminGet, hkv, if_true]
  refine ⟨trivial, fun raw => ?_⟩
  simp only [Prog.ret_bind, Seen.note, htaken, Bool.false_eq_true, if_false]
  refine ⟨⟨rfl, rfl, rfl, rfl, rfl, rfl⟩, fun _ => ?_⟩
  simp [Seen.note]

theorem Seen.Early.note_list (hm : m.Early) (r : Option (List Registered)) :
    m.note (.get .registeredShards) r = { m with list := r.getD [], before := m.list } := by
  obtain ⟨hversioned, -, htaken⟩ := hm
  unfold Seen.note
  rw [if_neg (by simp [htaken])]
  simp only [hversioned, Bool.false_and, htaken]

theorem getRegisteredShards_eq (hkv : env.adminKv = true) :
    getRegisteredShards env = .op (.get .registeredShards) fun r => .ret (r.getD []) := by
  unfold getRegisteredShards adminGet
  rw [if_pos hkv]
  rfl

theorem mem_upsert_urls (existing : List Registered) (url pubkey : JString) (now : ℕ) :
    url ∈ (upsert existing url pubkey now).map (·.url) := by
  rw [upsert_urls]
  exact Merge.mem_pushAbsent.2 (Or.inr (List.mem_singleton.2 rfl))

/-- An accepted registration has written a list with its URL. -/
theorem registerShard_follows (hkv : env.adminKv = true) (hm : m.Early) (f : RegisterShardFields) :
    (registerShard env f).Follows Seen.note (Allowed env)
      (fun m' r => m'.redeemed = m.redeemed ∧ (r.status = 200 →
        ∃ updated, m'.written = some updated ∧ f.shardUrl ∈ updated.map (·.url))) m := by
  unfold registerShard
  rw [getRegisteredShards_eq hkv]
  refine ⟨trivial, fun r => ?_⟩
  rw [hm.note_list]
  simp only [Prog.bind_eq, Prog.ret_bind]
  split
  · exact ⟨rfl, by rintro ⟨⟩⟩
  · next hroom =>
    cases f.shardPubkey.str? with
    | none => trivial
    | some shardPubkey =>
      refine ⟨trivial, fun now => ?_⟩
      simp only [Prog.ret_bind, Seen.note_now]
      have hre : Rewrites env (r.getD []) (upsert (r.getD []) f.shardUrl shardPubkey.lower now) :=
        Or.inl ⟨_, _, _, by simpa using hroom, rfl⟩
      refine (putRegistered_follows (m := { m with list := r.getD [], before := m.list }) hkv hm.taken
        hre).bind ?_
      rintro m' version ⟨hwritten, hredeemed⟩
      exact ⟨hredeemed, fun _ => ⟨_, hwritten, mem_upsert_urls _ _ _ _⟩⟩

theorem rotateShardKey_follows (hkv : env.adminKv = true) (hm : m.Early) (f : RotateFields) :
    (rotateShardKey env f).Follows Seen.note (Allowed env) (fun _ _ => True) m := by
  refine ⟨trivial, fun now => ?_⟩
  simp only [Prog.ret_bind, Seen.note_now]
  split
  · trivial
  rw [getRegisteredShards_eq hkv]
  refine ⟨trivial, fun r => ?_⟩
  rw [hm.note_list]
  simp only [Prog.ret_bind]
  split
  · trivial
  split
  · trivial
  split
  · trivial
  split
  · trivial
  refine ⟨trivial, fun now => ?_⟩
  simp only [Prog.ret_bind, Seen.note_now]
  exact (putRegistered_follows (m := { m with list := r.getD [], before := m.list }) hkv hm.taken
    (Or.inr ⟨f, now, rfl⟩)).bind fun _ _ _ => trivial

/-! ## Routing tables -/

/-- A build reads the list twice and the version in between. -/
theorem handleRoutingTable_follows (hm : m.Early) (hempty : env.adminKv = false → m = {}) :
    (handleRoutingTable env).Follows Seen.note (Allowed env)
      (fun m' r => ∀ signed, r.body = .table signed → (env.adminKv = true → m'.taken = true) ∧
        (env.adminKv = false → m' = {}) ∧
        ∃ priorCounts now signature, signed = .obj (tableBody env (m'.urls env) priorCounts
          (versionIn env m'.version) m'.list now ++ [(js "signature", .str signature)])) m := by
  obtain ⟨hversioned, hwritten, htaken⟩ := hm
  unfold handleRoutingTable buildSignedRoutingTable getShardUrls getPriorShardCounts
  simp only [getRoutingTableVersion_eq, getRegisteredShards, adminGet]
  cases hkv : env.adminKv with
  | false =>
    obtain rfl := hempty hkv
    simp only [Bool.false_eq_true, if_false, Prog.bind_eq, Prog.pure_eq, Prog.ret_bind]
    refine ⟨trivial, fun now => ⟨trivial, fun signature => ?_⟩⟩
    simp only [Prog.ret_bind, Seen.note_now, Seen.note_call]
    rintro _ ⟨⟩
    exact ⟨by simp, fun _ => rfl, _, _, _, rfl⟩
  | true =>
    simp only [if_true, Prog.bind_eq, kvGet, Prog.perform_bind, Prog.op_bind, Prog.ret_bind, Prog.pure_eq]
    refine ⟨trivial, fun urls => ⟨trivial, fun list => ⟨trivial, fun counts => ⟨trivial, fun raw =>
      ⟨trivial, fun list' => ⟨trivial, fun now => ⟨trivial, fun signature => ?_⟩⟩⟩⟩⟩⟩⟩
    rintro _ ⟨⟩
    simp only [Seen.note, htaken, hversioned, hwritten, Bool.false_eq_true, if_false, Bool.false_and,
      Bool.true_and, Option.isNone_none, if_true]
    exact ⟨fun _ => trivial, by simp, _, _, _, rfl⟩

/-! ## Requests -/

/-- The handler of a request obeys. -/
theorem serve_follows (hm : m.Early) (hempty : env.adminKv = false → m = {}) {urls : List JString}
    (current : Era urls) (rq : Request) :
    (serve env current rq).Follows Seen.note (Allowed env) (Outcome env (some rq)) m := by
  have hidle {p : M Response} (hp : p.Only (KvOp.Writes Passing))
      (hreg : ∀ s, rq ≠ .registerShard s) (htable : rq ≠ .routingTable) :
      p.Follows Seen.note (Allowed env) (Outcome env (some rq)) m :=
    (passing_follows hp).mono (fun _ _ ho => ho) fun m r _ =>
      ⟨fun s _ h => absurd (Option.some.inj h) (hreg s), fun h => by
        rcases h with h | h
        · cases h
        · exact absurd (Option.some.inj h) htable⟩
  cases rq with
  | routingTable =>
    exact (handleRoutingTable_follows hm hempty).mono (fun _ _ ho => ho) fun m r hr =>
      ⟨by rintro _ _ ⟨⟩, fun _ => hr⟩
  | registerShard rq =>
    have hrefuse {m : Seen} {r : Response} (hr : r.status ≠ 200) :
        Outcome env (some (.registerShard rq)) m r :=
      ⟨fun _ _ _ _ h => absurd h hr, by simp⟩
    simp only [serve, handleRegisterShard]
    split
    · exact hrefuse (show (501 : ℕ) ≠ 200 by decide)
    next hkv =>
    have hkv : env.adminKv = true := by simpa using hkv
    cases hf : registerShardFields rq.body with
    | error e =>
      cases e with
      | answer r =>
        refine ⟨fun _ f h hf' => ?_, by simp⟩
        cases h
        rw [hf] at hf'
        cases hf'
      | crash => trivial
    | ok f =>
      refine (registerShardGate_follows hm rq.ip f).bind fun m' o hm' => ?_
      cases o with
      | some r => exact hrefuse (hm'.2.1 r rfl)
      | none =>
        refine (registerShard_follows hkv hm'.1 f).mono (fun _ _ ho => ho) ?_
        rintro m'' r ⟨hredeemed, hok⟩
        refine ⟨fun _ f' h hf' hr => ?_, by simp⟩
        cases h
        obtain rfl : f = f' := by rw [hf] at hf'; exact Except.ok.inj hf'
        exact ⟨hredeemed ▸ hm'.2.2 rfl, hok hr⟩
  | rotateShardKey body =>
    have hdone (m : Seen) (r : Response) : Outcome env (some (.rotateShardKey body)) m r :=
      ⟨by simp, by simp⟩
    simp only [serve, handleRotateShardKey]
    split
    · exact hdone _ _
    next hkv =>
    cases rotateFields body with
    | error e =>
      cases e with
      | answer r => exact hdone _ _
      | crash => trivial
    | ok f =>
      exact (rotateShardKey_follows (by simpa using hkv) hm f).mono (fun _ _ ho => ho)
        fun m r _ => hdone m r
  | register rq => exact hidle (handleRegister_writes env rq _) (by simp) (by simp)
  | resolve pubkey => exact hidle (handleResolve_writes env pubkey _) (by simp) (by simp)
  | serverHello body => exact hidle (handleServerHello_writes env body) (by simp) (by simp)
  | powChallenge rq => exact hidle (handlePowChallenge_writes env rq) (by simp) (by simp)

theorem getShardUrls_follows :
    (getShardUrls env).Follows Seen.note (Allowed env)
      (fun m _ => m.Early ∧ (env.adminKv = false → m = {})) {} := by
  unfold getShardUrls getRegisteredShards adminGet
  cases hkv : env.adminKv with
  | false => exact ⟨⟨rfl, rfl, rfl⟩, fun _ => rfl⟩
  | true =>
    refine ⟨trivial, fun urls => ⟨trivial, fun list => ⟨⟨?_, ?_, ?_⟩, by simp⟩⟩⟩ <;>
      simp [Seen.note]

end

/-- **Every request obeys its rules.** -/
theorem prog_follows (env : Env) (task : Task) :
    (task.prog env).Follows Seen.note (Allowed env) (Outcome env task) {} := by
  cases task with
  | none =>
    exact (handleRoutingTable_follows ⟨rfl, rfl, rfl⟩ fun _ => rfl).mono (fun _ _ ho => ho)
      fun m r hr => ⟨by rintro _ _ ⟨⟩, fun _ => hr⟩
  | some rq =>
    refine getShardUrls_follows.bind fun m urls hm => ?_
    split
    · exact serve_follows hm.1 hm.2 _ rq
    · exact ⟨by rintro _ _ _ _ h; exact absurd h (by decide), by rintro _ _ ⟨⟩⟩

/-! ## Pools of requests -/

section
variable {ι : Type}

/-- Requests and builds of the routing table that are handled at the same time. -/
abbrev Requests (ι : Type) :=
  Pool ι (KvOp Key Val Service) (KvOp.Res Service.Res) Response State Seen

/-- Process `e.1` performs its next operation at the instant `e.2`. -/
def Requests.step [DecidableEq ι] (env : Env) (answer : JString → CreateBody → Created) :
    ι × ℕ → Requests ι → Requests ι :=
  Pool.step Seen.note fun t => KvOp.exec t (services env.crypto answer)

/-- The tasks at their beginning. -/
def Requests.start (env : Env) (s : State) (tasks : ι → Task) : Requests ι :=
  Pool.start s (fun i => (tasks i).prog env) {}

theorem Requests.start_follow (env : Env) (s : State) (tasks : ι → Task) :
    (Requests.start env s tasks).Follow Seen.note (fun _ => Allowed env)
      (fun i => Outcome env (tasks i)) :=
  Pool.start_follow fun i => prog_follows env (tasks i)

theorem after_follow [DecidableEq ι] (env : Env) (answer : JString → CreateBody → Created) (s : State)
    (tasks : ι → Task) (run : List (ι × ℕ)) :
    (after (Requests.step env answer) (.start env s tasks) run).Follow Seen.note
      (fun _ => Allowed env) fun i => Outcome env (tasks i) :=
  after_inv (I := fun P : Requests ι => P.Follow Seen.note (fun _ => Allowed env)
    fun i => Outcome env (tasks i)) (fun _ _ h => h.step) (Requests.start_follow env s tasks)

end

/-! ## Two challenges -/

/-- A Router that has issued the challenges 7 and 8. -/
def challenged : State :=
  after (fun rq s => (handle meshEnv up 0 rq s).2) fresh
    [.powChallenge { ip := none, nonce := [7] }, .powChallenge { ip := none, nonce := [8] }]

theorem challenged_durable : Durable challenged.1 := handle_durable (handle_durable fresh_durable)

end Router
