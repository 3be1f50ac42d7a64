/-
  The shard ring of the combined worker.

  The combined worker runs the Router's administration handlers on its own
  store, and pushes its own URL to the end of the merged shard list.

  * `getShardUrls` is that list, and `handle` the worker on the requests that
    rewrite it;
  * `Stable` says that a request keeps the list, the index of the worker itself
    and every owner of a point; `ring_stable_iff` is the exact condition.
-/
import NexTalkRelay.Lib.Runs
import NexTalkRelay.Router.Topology

open Effect Js Runs Router

namespace Combined

/-- The environment of a combined worker that also is a Router; an empty
    `SELF_URL` counts as none. -/
structure Env extends Router.Env where
  selfUrl : JString := []

/-- The merged list, with the worker itself at its end. -/
def withSelf (env : Env) (merged : List JString) : List JString :=
  if env.selfUrl = [] then merged else Merge.pushAbsent merged [env.selfUrl]

/-- `getShardUrls`: the Router's list, with `SELF_URL` at its end. -/
def getShardUrls (env : Env) : M (List JString) := do
  return withSelf env (← Router.getShardUrls env.toEnv)

/-- `handlePowChallenge`, as in the Router. -/
def handlePowChallenge (env : Env) (rq : ChallengeRequest) : M Response :=
  Router.handlePowChallenge env.toEnv rq

/-- `handleRegisterShard`, as in the Router. -/
def handleRegisterShard (env : Env) (rq : RegisterShardRequest) : M Response :=
  Router.handleRegisterShard env.toEnv rq

/-- `handleRotateShardKey`, as in the Router. -/
def handleRotateShardKey (env : Env) (body : Option Json) : M Response :=
  Router.handleRotateShardKey env.toEnv body

/-- A request that may change the list of shards. -/
inductive Request where
  | powChallenge (rq : ChallengeRequest)
  | registerShard (rq : RegisterShardRequest)
  | rotateShardKey (body : Option Json)

/-- Its handler. -/
def serve (env : Env) : Request → M Response
  | .powChallenge rq => handlePowChallenge env rq
  | .registerShard rq => handleRegisterShard env rq
  | .rotateShardKey body => handleRotateShardKey env body

/-- `fetch`: nothing is served while there is no shard. -/
def fetch (env : Env) (rq : Request) : M Response := do
  let shardUrls ← getShardUrls env
  if shardUrls ≠ [] then serve env rq
  else return jsonErr (js "Router misconfiguration") 500

/-- The response of `fetch` to an exception in a handler of the Router. -/
def crashed : Response := jsonErr (js "Internal server error") 500

/-- Answer a request at the instant `t`. -/
def handle (env : Env) (answer : JString → CreateBody → Created) (t : ℕ) (rq : Request)
    (s : State) : Response × State :=
  let r := (fetch env rq).run (KvOp.exec t (services env.crypto answer)) s
  (r.1.getD crashed, r.2)

/-- The shard list of the worker. -/
def shardUrlsOf (env : Env) (kv : Kv) : List JString :=
  withSelf env (Router.shardUrlsOf env.toEnv kv)

/-- The request of the Router that is handled in the same way. -/
def Request.toRouter : Request → Router.Request
  | powChallenge rq => .powChallenge rq
  | registerShard rq => .registerShard rq
  | rotateShardKey body => .rotateShardKey body

theorem serve_eq (env : Env) {urls : List JString} (current : Era urls) (rq : Request) :
    serve env rq = Router.serve env.toEnv current rq.toRouter := by
  cases rq <;> rfl

section
variable {env : Env} {answer : JString → CreateBody → Created} {t : ℕ} {rq : Request} {s : State}

/-! ## One request -/

theorem getShardUrls_run {kv : Kv} {w : World} {h : Prog.Handler Service Service.Res World}
    (hd : Durable kv) :
    (getShardUrls env).run (KvOp.exec t h) (kv, w) = (some (shardUrlsOf env kv), (kv, w)) := by
  unfold getShardUrls
  rw [Prog.bind_eq, Prog.run_bind_some (Router.getShardUrls_run hd)]
  rfl

/-- A request changes nothing, or the lists as it does on the Router. -/
theorem handle_cases (env : Env) (answer : JString → CreateBody → Created) (t : ℕ) (rq : Request)
    (hd : Durable s.1) :
    (shardUrlsOf env s.1 = [] ∧ (handle env answer t rq s).2 = s) ∨
      (shardUrlsOf env s.1 ≠ [] ∧
        Rewritten env.toEnv t rq.toRouter s.1 (handle env answer t rq s).2.1) := by
  obtain ⟨kv, w⟩ := s
  unfold handle fetch
  rw [Prog.bind_eq, Prog.run_bind_some (getShardUrls_run hd)]
  by_cases hempty : shardUrlsOf env kv = []
  · exact Or.inl ⟨hempty, by rw [if_neg (not_not.2 hempty)]; rfl⟩
  · refine Or.inr ⟨hempty, ?_⟩
    rw [if_pos hempty, serve_eq env (Era.current hempty)]
    exact serve_rewritten _ _ hd

theorem handle_durable (hd : Durable s.1) : Durable (handle env answer t rq s).2.1 := by
  rcases handle_cases env answer t rq hd with ⟨-, h⟩ | ⟨-, h⟩
  · rw [h]; exact hd
  · exact h.durable hd

end

/-! ## Stability -/

/-- A request keeps the shard list at its front; so the worker keeps its own
    index, and a point its owner in the ring of every earlier count. -/
structure Stable (env : Env) (before after : List JString) : Prop where
  grows : before <+: after
  selfIndex : env.selfUrl ≠ [] → after.idxOf env.selfUrl = before.idxOf env.selfUrl
  owner : ∀ point n, 0 < n → n ≤ before.length → after[point % n]? = before[point % n]?

theorem mem_withSelf {env : Env} (h : env.selfUrl ≠ []) (merged : List JString) :
    env.selfUrl ∈ withSelf env merged := by
  unfold withSelf
  rw [if_neg h]
  exact Merge.mem_pushAbsent.2 (Or.inr (List.mem_singleton_self _))

theorem stable_iff {env : Env} {kv : Kv} {after : List JString} :
    Stable env (shardUrlsOf env kv) after ↔ shardUrlsOf env kv <+: after := by
  constructor
  · exact Stable.grows
  · rintro ⟨rest, rfl⟩
    refine ⟨List.prefix_append _ _, fun h => ?_, fun point n hn hle => ?_⟩
    · exact List.idxOf_append_of_mem (mem_withSelf h _)
    · exact List.getElem?_append_left ((Nat.mod_lt point hn).trans_le hle)

/-- The request registers no new URL in front of the worker itself. -/
def KeepsSelf (env : Env) (s : State) (e : ℕ × Request) : Prop :=
  ∀ url, shardUrlsOf env s.1 ≠ [] → joined env.toEnv e.1 e.2.toRouter s.1 = some url →
    env.selfUrl = [] ∨ env.selfUrl ∈ Router.shardUrlsOf env.toEnv s.1 ∨
      url ∈ Router.shardUrlsOf env.toEnv s.1 ∨ env.selfUrl = url

section
variable {env : Env} {answer : JString → CreateBody → Created} {s : State}

theorem push_withSelf_iff (env : Env) (m : List JString) (url : JString) :
    withSelf env m <+: withSelf env (Merge.pushAbsent m [url]) ↔
      env.selfUrl = [] ∨ env.selfUrl ∈ m ∨ url ∈ m ∨ env.selfUrl = url := by
  unfold withSelf
  split
  · next h => exact iff_of_true (Merge.prefix_pushAbsent _ _) (Or.inl h)
  · next h =>
    rw [Merge.prefix_last_iff]
    exact (or_iff_right h).symm

/-- **Step lemma.** -/
theorem stable_step_iff (hd : Durable s.1) (e : ℕ × Request) :
    Stable env (shardUrlsOf env s.1) (shardUrlsOf env (handle env answer e.1 e.2 s).2.1) ↔
      KeepsSelf env s e := by
  rw [stable_iff]
  rcases handle_cases env answer e.1 e.2 hd with
    ⟨hempty, h⟩ | ⟨hne, h⟩
  · rw [h]
    exact iff_of_true List.prefix_rfl fun _ h0 => absurd hempty h0
  · have hlist : shardUrlsOf env (handle env answer e.1 e.2 s).2.1 = withSelf env
        (Merge.pushAbsent (Router.shardUrlsOf env.toEnv s.1)
          (joined env.toEnv e.1 e.2.toRouter s.1).toList) := by
      rw [← h.shardUrls]; rfl
    rw [hlist]
    unfold KeepsSelf
    cases joined env.toEnv e.1 e.2.toRouter s.1 with
    | none => exact iff_of_true List.prefix_rfl nofun
    | some url =>
      refine (push_withSelf_iff env _ url).trans ⟨fun hk url' _ hu => ?_, fun hk => hk url hne rfl⟩
      cases hu
      exact hk

/-- **The ring of the combined worker is stable exactly when** no accepted
    registration comes in front of the worker's own URL, over any run. -/
theorem ring_stable_iff (env : Env) (answer : JString → CreateBody → Created) {s : State}
    (hd : Durable s.1) (run : List (ℕ × Request)) :
    Always (fun e s => (handle env answer e.1 e.2 s).2)
        (fun s e => Stable env (shardUrlsOf env s.1)
          (shardUrlsOf env (handle env answer e.1 e.2 s).2.1)) s run ↔
      Always (fun e s => (handle env answer e.1 e.2 s).2) (KeepsSelf env) s run :=
  always_congr (I := fun s : State => Durable s.1) (fun _ _ hi => handle_durable hi)
    (fun _ e hi => stable_step_iff hi e) hd

end

/-- A combined worker on a platform that trusts every signature; its static list
    is empty. -/
def soloEnv (selfUrl : JString) : Env :=
  { meshEnv with shardUrls := [], selfUrl }

/-- A shard asks for a challenge and registers. -/
def joins (nonce : UInt8) (url : JString) : List Request :=
  [.powChallenge { ip := none, nonce := [nonce] }, .registerShard (registration nonce url 97)]

theorem own_registration_stable :
    Always (fun e s => (handle (soloEnv (js "http://a")) up e.1 e.2 s).2)
      (fun s e => Stable (soloEnv (js "http://a")) (shardUrlsOf (soloEnv (js "http://a")) s.1)
        (shardUrlsOf (soloEnv (js "http://a"))
          (handle (soloEnv (js "http://a")) up e.1 e.2 s).2.1)) fresh
      ((joins 7 (js "http://a")).map fun rq => (0, rq)) :=
  (ring_stable_iff _ up fresh_durable _).2
    ⟨fun _ _ h => (by cases h), fun url _ h => Or.inr (Or.inr (Or.inr (Option.some.inj h))), trivial⟩

/-- The first shard that joins a worker with an empty static list takes its
    index. -/
theorem registration_displaces_self :
    ¬ Always (fun e s => (handle (soloEnv (js "http://a")) up e.1 e.2 s).2)
      (fun s e => Stable (soloEnv (js "http://a")) (shardUrlsOf (soloEnv (js "http://a")) s.1)
        (shardUrlsOf (soloEnv (js "http://a"))
          (handle (soloEnv (js "http://a")) up e.1 e.2 s).2.1)) fresh
      ((joins 7 (js "http://b")).map fun rq => (0, rq)) := by
  intro h
  have hgrows := h.2.1.grows
  revert hgrows
  decide +kernel

end Combined
