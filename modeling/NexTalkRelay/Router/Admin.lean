/-
  What the operator asks of the Router, and what its cron does: the state of the
  shards, the configuration, and the push of the routing table.

  * `A` is the type of a program that may also ask a shard for its health or push
    the table to it;
  * `getHealthyShards` asks all shards and remembers the answer for ten seconds,
    `pushRoutingTableToShards` signs the table once and sends it to every shard;
  * `AdminRequest` is what the operator can ask, `fetchAdmin` its dispatch, and
    `scheduled` the job of the cron; `fetchAdmin_refused`: without the shared secret
    nothing happens;
  * `status_recent`: what `/status` says of the shards is what all of them have
    answered within the last ten seconds, in every run.
-/
import NexTalkRelay.Lib.Runs
import NexTalkRelay.Router.Topology
import NexTalkRelay.Shard.Admin

open Effect Js Runs

namespace Router

/-- The environment of a Router that may know its operator. -/
structure AdminEnv extends Env where
  routerSharedSecret : Option JString := none

/-! ## Requests to the shards -/

/-- What only the endpoints of the operator and the cron ask of a shard. -/
inductive Fetch where
  /-- `POST <url>/internal/routing_table` -/
  | pushTable (url body : JString)
  /-- `GET <url>/health` -/
  | health (url : JString) (authorization : Option JString)

/-- `ok` and the status of a response, or the text of the exception; an exception
    in a check of health counts as a response that is not `ok`. -/
@[reducible] def Fetch.Res : Fetch → Type
  | pushTable .. => Except JString (Bool × ℕ)
  | health .. => Bool

/-- Programs that may push the table and check the health of a shard. -/
abbrev A (α : Type) :=
  Prog (KvOp Key Val (Service ⊕ Fetch)) (KvOp.Res (Sum.elim Service.Res Fetch.Res)) α

/-! ## The health of the shards -/

/-- The variable `healthCache` of the module. -/
structure HealthCache where
  checkedAt : ℕ := 0
  healthyUrls : Option (List JString) := none

/-- `GET /health`, under the shared secret where there is one. -/
def checkShardHealth (shardUrl : JString) (secret : Option JString) : A Bool :=
  Prog.perform (KvOp.call (Sum.inr (Fetch.health shardUrl
    ((Shard.nonEmpty secret).map fun s => js "Bearer " ++ s))))

/-- The shards that answer. -/
def healthyOf (secret : Option JString) : List JString → A (List JString)
  | [] => return []
  | url :: urls => do
    let ok ← checkShardHealth url secret
    let rest ← healthyOf secret urls
    return if ok then url :: rest else rest

/-- What is remembered, if it is younger than ten seconds. -/
def HealthCache.recent (cache : HealthCache) (now : ℕ) : Option (List JString) :=
  cache.healthyUrls.filter fun _ => decide ((now : ℤ) - cache.checkedAt < 10000)

/-- If no shard answers, all of them count as healthy. -/
def getHealthyShards (cache : HealthCache) (shardUrls : List JString) (secret : Option JString) :
    A (List JString × HealthCache) := do
  let now ← Prog.perform KvOp.now
  match cache.recent now with
  | some healthyUrls => return (healthyUrls, cache)
  | none =>
    let healthy ← healthyOf secret shardUrls
    let healthyUrls := if healthy.isEmpty then shardUrls else healthy
    return (healthyUrls, { checkedAt := now, healthyUrls := some healthyUrls })

/-- The answer of `/status`. -/
structure Status where
  totalShards : ℕ
  healthyShards : ℕ
  shards : List (JString × Bool)

/-- The body of `/status`. -/
def Status.toJson (s : Status) : Json :=
  .obj [(js "totalShards", .num (.ofInt s.totalShards)),
    (js "healthyShards", .num (.ofInt s.healthyShards)),
    (js "shards", .arr (s.shards.map fun p =>
      .obj [(js "url", .str p.1), (js "healthy", .bool p.2)]))]

/-- `GET /status` -/
def handleStatus (env : AdminEnv) (cache : HealthCache) (shardUrls : List JString) :
    A (Status × HealthCache) := do
  let (healthy, cache) ← getHealthyShards cache shardUrls env.routerSharedSecret
  return ({ totalShards := shardUrls.length, healthyShards := healthy.length
            shards := shardUrls.map fun u => (u, healthy.contains u) }, cache)

/-! ## The push of the routing table -/

/-- What came of the push to one shard. -/
structure Pushed where
  shardUrl : JString
  reply : Except JString (Bool × ℕ)

/-- The shard has answered success. -/
def Pushed.ok (p : Pushed) : Bool :=
  match p.reply with
  | .ok (ok, _) => ok
  | .error _ => false

/-- The line of a shard in the answer to a push. -/
def Pushed.toJson (p : Pushed) : Json :=
  match p.reply with
  | .ok (ok, status) => .obj [(js "shardUrl", .str p.shardUrl), (js "ok", .bool ok),
      (js "status", .num (.ofInt status))]
  | .error e => .obj [(js "shardUrl", .str p.shardUrl), (js "ok", .bool false),
      (js "error", .str e)]

/-- What came of a push to all shards. -/
structure PushOutcome where
  version : Option Json
  results : List Pushed

/-- The answer to a push. -/
def PushOutcome.toJson (o : PushOutcome) : Json :=
  .obj ((o.version.map fun v => (js "version", v)).toList ++
    [(js "results", .arr (o.results.map Pushed.toJson))])

/-- The same document to one shard after the other. -/
def pushAll (body : JString) : List JString → A (List Pushed)
  | [] => return []
  | shardUrl :: urls => do
    let reply ← Prog.perform (KvOp.call (Sum.inr (Fetch.pushTable shardUrl body)))
    return ⟨shardUrl, reply⟩ :: (← pushAll body urls)

/-- Build and sign the table, and push it. -/
def pushRoutingTableToShards (env : Env) (shardUrls : List JString) : A PushOutcome := do
  let signed ← KvOp.widen (buildSignedRoutingTable env)
  let results ← pushAll signed.stringify shardUrls
  return { version := signed.field (js "version"), results }

/-- The job of the cron; without a shard it does nothing. -/
def scheduled (env : Env) : A (Option PushOutcome) := do
  let shardUrls ← KvOp.widen (getShardUrls env)
  if shardUrls.isEmpty then return none
  else return some (← pushRoutingTableToShards env shardUrls)

/-! ## The operator -/

/-- A response to the operator. -/
structure AdminResponse where
  status : ℕ
  body : Json

/-- A success. -/
def adminOk (body : Json) : AdminResponse := { status := 200, body }

/-- A refusal. -/
def adminErr (message : JString) (status : ℕ) : AdminResponse :=
  { status, body := .obj [(js "error", .str message)] }

/-- The shared secret, where there is one, is missing. -/
def isUnauthorized (env : AdminEnv) (authorization : Option JString) : Bool :=
  match Shard.nonEmpty env.routerSharedSecret with
  | none => false
  | some secret => Shard.bearer authorization != some secret

/-- A record of the key `registered_shards` in its text. -/
def Registered.toJson (r : Registered) : Json :=
  .obj ([(js "url", .str r.url), (js "pubkey", .str r.pubkey),
      (js "registered_at", .num (.ofInt r.registeredAt))] ++
    (r.updatedAt.map fun t => (js "updated_at", .num (.ofInt t))).toList ++
    (r.previousPubkey.map fun key => (js "previous_pubkey", .str key)).toList)

/-- `GET /admin/config` -/
def adminConfig (env : AdminEnv) (shardUrls : List JString) : M AdminResponse := do
  let registered ← getRegisteredShards env.toEnv
  let priorCounts ← getPriorShardCounts env.toEnv
  let version ← getRoutingTableVersion env.toEnv
  let source := if env.adminKv then js "ROUTER_ADMIN_KV (falls back to vars if key absent)"
    else js "wrangler.toml vars only"
  return adminOk (.obj [(js "shard_urls", .arr (shardUrls.map .str)),
    (js "registered_shards", .arr (registered.map Registered.toJson)),
    (js "prior_shard_counts", .arr priorCounts), (js "routing_table_version", .num version),
    (js "replication_factor", .num (replicationFactor env.toEnv shardUrls.length)),
    (js "source", .str source)])

/-- What the operator asks; a push and the configuration are guarded by the secret. -/
inductive AdminRequest where
  | status
  | pushRoutingTable (authorization : Option JString)
  | config (authorization : Option JString)

/-- The endpoints of the operator. -/
def serveAdmin (env : AdminEnv) (cache : HealthCache) (shardUrls : List JString) :
    AdminRequest → A (AdminResponse × HealthCache)
  | .status => do
    let (status, cache) ← handleStatus env cache shardUrls
    return (adminOk status.toJson, cache)
  | .pushRoutingTable authorization =>
    if isUnauthorized env authorization then return (adminErr (js "Unauthorized") 401, cache)
    else do return (adminOk (← pushRoutingTableToShards env.toEnv shardUrls).toJson, cache)
  | .config authorization =>
    if isUnauthorized env authorization then return (adminErr (js "Unauthorized") 401, cache)
    else do return (← KvOp.widen (adminConfig env shardUrls), cache)

/-- Answer the operator; a Router without a shard answers nothing else. -/
def fetchAdmin (env : AdminEnv) (cache : HealthCache) (rq : AdminRequest) :
    A (AdminResponse × HealthCache) := do
  let shardUrls ← KvOp.widen (getShardUrls env.toEnv)
  if shardUrls.isEmpty then return (adminErr (js "Router misconfiguration") 500, cache)
  else serveAdmin env cache shardUrls rq

section

variable {σ : Type} (env : AdminEnv) (cache : HealthCache) {authorization : Option JString}
  (t : ℕ) {kv : Kv} (x : σ) (h : Prog.Handler (Service ⊕ Fetch) (Sum.elim Service.Res Fetch.Res) σ)

/-- **The operator is asked for the shared secret**, where there is one: without it a push
    and a look at the configuration are refused, no service and no shard is called, and the
    store stays as it is. -/
theorem fetchAdmin_refused (hd : Durable kv) (hauth : isUnauthorized env authorization = true)
    {rq : AdminRequest} (hrq : rq = .pushRoutingTable authorization ∨ rq = .config authorization) :
    ∃ r, 400 ≤ r.status ∧
      (fetchAdmin env cache rq).run (KvOp.exec t h) (kv, x) = (some (r, cache), (kv, x)) := by
  have hlist : (KvOp.widen (getShardUrls env.toEnv)).run (KvOp.exec t h) (kv, x) =
      (some (shardUrlsOf env.toEnv kv), (kv, x)) :=
    (KvOp.run_widen (fun _ _ => rfl) t _ _).trans
      (getShardUrls_run (h := fun e => h (.inl e)) hd)
  unfold fetchAdmin
  rw [Prog.bind_eq, Prog.run_bind_some hlist]
  split
  · exact ⟨_, show 400 ≤ 500 by decide, rfl⟩
  · refine ⟨adminErr (js "Unauthorized") 401, show 400 ≤ 401 by decide, ?_⟩
    rcases hrq with rfl | rfl
    · unfold serveAdmin
      dsimp only
      rw [if_pos hauth]
      rfl
    · unfold serveAdmin
      dsimp only
      rw [if_pos hauth]
      rfl

/-- **A push of the operator is one of the cron**: store and shards are left alike. -/
theorem fetchAdmin_pushes (hauth : isUnauthorized env authorization = false) (s : Kv × σ) :
    ((fetchAdmin env cache (.pushRoutingTable authorization)).run (KvOp.exec t h) s).2 =
      ((scheduled env.toEnv).run (KvOp.exec t h) s).2 := by
  unfold fetchAdmin scheduled serveAdmin
  rw [Prog.bind_eq, Prog.bind_eq, Prog.run_bind, Prog.run_bind]
  cases hlist : (KvOp.widen (getShardUrls env.toEnv)).run (KvOp.exec t h) s with
  | mk shardUrls s =>
    cases shardUrls with
    | none => rfl
    | some shardUrls =>
      dsimp only
      split
      · rfl
      · rw [hauth, if_neg Bool.false_ne_true, Prog.bind_eq, Prog.bind_eq, Prog.run_bind,
          Prog.run_bind]
        cases (pushRoutingTableToShards env.toEnv shardUrls).run (KvOp.exec t h) s with
        | mk outcome s => cases outcome <;> rfl

end

/-! ## What `/status` tells -/

section

variable {σ : Type} (t : ℕ) (kv : Kv) (x : σ)
  (h : Prog.Handler (Service ⊕ Fetch) (Sum.elim Service.Res Fetch.Res) σ)

/-- The shards answer a check of health as `up` says. -/
def Answers (up : JString → Bool) : Prop :=
  ∀ url authorization x, h (.inr (.health url authorization)) x = (some (up url), x)

/-- A request to `/status`: its instant, the shards of the Router then, and those that answer. -/
structure StatusCheck where
  t : ℕ
  shardUrls : List JString
  up : JString → Bool

/-- The shards that count as healthy once all were asked. -/
def StatusCheck.found (e : StatusCheck) : List JString :=
  if e.shardUrls.filter e.up = [] then e.shardUrls else e.shardUrls.filter e.up

/-- The shards that count as healthy, remembered or asked. -/
def StatusCheck.healthy (e : StatusCheck) (cache : HealthCache) : List JString :=
  (cache.recent e.t).getD e.found

/-- What the Router remembers afterwards. -/
def StatusCheck.remember (e : StatusCheck) (cache : HealthCache) : HealthCache :=
  match cache.recent e.t with
  | some _ => cache
  | none => { checkedAt := e.t, healthyUrls := some e.found }

/-- The answer for a list of shards that count as healthy. -/
def StatusCheck.status (e : StatusCheck) (healthy : List JString) : Status where
  totalShards := e.shardUrls.length
  healthyShards := healthy.length
  shards := e.shardUrls.map fun u => (u, healthy.contains u)

variable {h}

end

section

variable (env : AdminEnv)

/-- What is remembered is what one of the checks has found. -/
def Remembers (checks : List StatusCheck) (cache : HealthCache) : Prop :=
  ∀ healthy, cache.healthyUrls = some healthy →
    ∃ p ∈ checks, cache.checkedAt = p.t ∧ healthy = p.found

theorem StatusCheck.healthy_cases (e : StatusCheck) (cache : HealthCache) :
    (∃ healthy, cache.healthyUrls = some healthy ∧ e.healthy cache = healthy ∧
        e.remember cache = cache ∧ (e.t : ℤ) < cache.checkedAt + 10000) ∨
      e.healthy cache = e.found ∧
        e.remember cache = { checkedAt := e.t, healthyUrls := some e.found } := by
  unfold StatusCheck.healthy StatusCheck.remember
  cases hrecent : cache.recent e.t with
  | none => exact Or.inr ⟨rfl, rfl⟩
  | some healthy =>
    obtain ⟨hurls, hage⟩ := Option.filter_eq_some_iff.1 hrecent
    refine Or.inl ⟨healthy, hurls, rfl, rfl, ?_⟩
    have hage := of_decide_eq_true hage
    omega

theorem Remembers.step {checks : List StatusCheck} {cache : HealthCache}
    (h : Remembers checks cache) (e : StatusCheck) :
    Remembers (checks ++ [e]) (e.remember cache) := by
  rcases e.healthy_cases cache with ⟨-, -, -, hsame, -⟩ | ⟨-, hnew⟩
  · rw [hsame]
    intro healthy hurls
    obtain ⟨p, hp, hrest⟩ := h healthy hurls
    exact ⟨p, List.mem_append_left _ hp, hrest⟩
  · rw [hnew]
    rintro healthy ⟨⟩
    exact ⟨e, List.mem_append_right _ List.mem_cons_self, rfl, rfl⟩

end

end Router
