/-
  The routing table on its way to the shards, and the copies that it lets pass.

  * `Net.adminServices` runs the job of the cron against the shards as they are,
    and `Caches` says that the push reaches a shard that accepts the document;
  * `Tabled` is what became of a shard, and `Distributed` of all of them;
  * `table_distributed`: whatever becomes of the requests, the Router hears a success
    exactly of shards that have the table, and no mailbox changes;
  * `known_signedTable`: the table names every registered shard, and
    `CopyRead.stored` is what a sibling that knows its origin makes of a copy;
  * `copies_stored`: a shard that has confirmed the table stores the copies of all
    registered shards.
-/
import NexTalkRelay.Router.Admin
import NexTalkRelay.Shard.Inert
import NexTalkRelay.Shard.Queue
import NexTalkRelay.Shard.Replay
import NexTalkRelay.Agreement.Registration
import NexTalkRelay.Agreement.Wire

open Effect Js Runs

namespace Agreement

/-! ## The push of a table -/

/-- A shard handles a pushed table. -/
def Node.table (n : Node) (body : JString) (t : ℕ) : Shard.Response × Node :=
  let r := Shard.handle n.env t (.routingTablePush (Json.received body)) n.kv
  (r.1, { n with kv := r.2 })

namespace Net

variable (N : Net)

/-- What the Router hears of a push, and the shard afterwards. -/
def deliver (body : JString) (url : JString) (n : Node) : Except JString (Bool × ℕ) × Node :=
  match N.fate url with
  | .lost => (.error N.fault, n)
  | .unheard t _ => (.error N.fault, (n.table body t).2)
  | .heard t _ =>
    (.ok (Combined.respOk (n.table body t).1, (n.table body t).1.status), (n.table body t).2)

/-- The services of the Router for its operator; `up` answers the checks of health. -/
def adminServices (c : Crypto) (up : JString → Option JString → Bool) :
    Prog.Handler (Router.Service ⊕ Router.Fetch)
      (Sum.elim Router.Service.Res Router.Fetch.Res) Shards
  | .inl e, s => N.services c e s
  | .inr (.pushTable url body), s =>
    (some (N.deliver body url (s url)).1, Function.update s url (N.deliver body url (s url)).2)
  | .inr (.health url authorization), s => (some (up url authorization), s)

/-- The shards after a push to one after the other. -/
def deliverAll (body : JString) : List JString → Shards → Shards
  | [], s => s
  | url :: urls, s =>
    deliverAll body urls (Function.update s url (N.deliver body url (s url)).2)

/-- What the Router hears of a push to one after the other. -/
def replies (body : JString) : List JString → Shards → List Router.Pushed
  | [], _ => []
  | url :: urls, s => ⟨url, (N.deliver body url (s url)).1⟩ ::
      replies body urls (Function.update s url (N.deliver body url (s url)).2)

/-- The push reaches a shard that accepts the document. -/
def Caches (doc : Json) (url : JString) (env : Shard.Env) : Prop :=
  match N.fate url with
  | .lost => False
  | .unheard t _ | .heard t _ => Shard.Accepts env t doc

/-- It does, and the Router hears so. -/
def Confirms (doc : Json) (url : JString) (env : Shard.Env) : Prop :=
  match N.fate url with
  | .lost | .unheard _ _ => False
  | .heard t _ => Shard.Accepts env t doc

theorem Confirms.caches {N : Net} {doc : Json} {url : JString} {env : Shard.Env}
    (h : N.Confirms doc url env) : N.Caches doc url env := by
  unfold Confirms at h
  unfold Caches
  split at h
  · cases h
  · cases h
  · exact h

end Net

section

variable (N : Net) {body : JString} {doc : Json}

/-- A push that is not cached is answered with a failure. -/
theorem handleRoutingTablePush_status (env : Shard.Env) (body : Option Json) :
    (Shard.handleRoutingTablePush env body).Post fun r => r.status = 200 ∨ 300 ≤ r.status := by
  rw [Shard.handleRoutingTablePush_eq]
  unfold guarded
  cases hf : Shard.tableFields body with
  | error e =>
    cases e with
    | answer r =>
      have hbad (message : JString) : (Shard.err message).status = 400 := rfl
      have hr : r.status = 400 :=
        Shard.tableFields_answers (Q := fun r => r.status = 400) hbad body r hf
      exact Or.inr (by omega)
    | crash => trivial
  | ok p =>
    dsimp only
    unfold Shard.cacheTable
    split
    · exact Or.inr (show 300 ≤ 401 by omega)
    · intro now
      simp only [Prog.ret_bind]
      split
      · exact Or.inr (show 300 ≤ 400 by omega)
      · exact fun _ => Or.inl rfl

/-- **One shard.**  It answers with success and has the document, or nothing has changed. -/
theorem table_handled (hbody : Json.received body = some doc) (n : Node) (t : ℕ) :
    (Shard.Accepts n.env t doc ∧ Combined.respOk (n.table body t).1 = true ∧
        (n.table body t).2.kv = n.kv.put t .routingTable doc none) ∨
      (¬ Shard.Accepts n.env t doc ∧ Combined.respOk (n.table body t).1 = false ∧
        (n.table body t).2.kv = n.kv) := by
  unfold Node.table
  rw [hbody]
  obtain ⟨o, kv', hrun, hcases⟩ :=
    Shard.handleRoutingTablePush_run n.env t n.kv [] (some doc)
  have hhandle : Shard.handle n.env t (.routingTablePush (some doc)) n.kv =
      (o.getD Shard.crashed, kv') := by
    simp only [Shard.handle, Shard.runAt, Shard.fetch, hrun]
  rw [hhandle]
  rcases hcases with ⟨doc', hdoc, haccepts, rfl, rfl⟩ | ⟨hno, rfl, hrefusal⟩
  · cases hdoc
    exact Or.inl ⟨haccepts, rfl, rfl⟩
  · refine Or.inr ⟨hno doc rfl, ?_, rfl⟩
    have hstatus : 300 ≤ (o.getD Shard.crashed).status := by
      cases o with
      | none => exact show 300 ≤ 500 by omega
      | some r =>
        have hpost := (handleRoutingTablePush_status n.env (some doc)).run
          (congrArg Prod.fst hrun)
        exact hpost.resolve_left (hrefusal r rfl).1
    exact decide_eq_false fun hrange => absurd hrange.2 (Nat.not_lt.2 hstatus)

theorem deliver_env (url : JString) (n : Node) : (N.deliver body url n).2.env = n.env := by
  unfold Net.deliver
  cases N.fate url with
  | lost => rfl
  | unheard t ip => rfl
  | heard t ip => rfl

/-- What a push does to one shard. -/
theorem deliver_kv (hbody : Json.received body = some doc) (url : JString) (n : Node) :
    (N.Caches doc url n.env ∧
        ∃ t, (N.deliver body url n).2.kv = n.kv.put t .routingTable doc none) ∨
      (¬ N.Caches doc url n.env ∧ (N.deliver body url n).2.kv = n.kv) := by
  unfold Net.Caches Net.deliver
  cases N.fate url with
  | lost => exact Or.inr ⟨id, rfl⟩
  | unheard t ip =>
    rcases table_handled hbody n t with ⟨haccepts, -, hkv⟩ | ⟨hno, -, hkv⟩
    · exact Or.inl ⟨haccepts, t, hkv⟩
    · exact Or.inr ⟨hno, hkv⟩
  | heard t ip =>
    rcases table_handled hbody n t with ⟨haccepts, -, hkv⟩ | ⟨hno, -, hkv⟩
    · exact Or.inl ⟨haccepts, t, hkv⟩
    · exact Or.inr ⟨hno, hkv⟩

/-- The Router hears of a success exactly if the shard has the document. -/
theorem deliver_ok (hbody : Json.received body = some doc) (url : JString) (n : Node) :
    (⟨url, (N.deliver body url n).1⟩ : Router.Pushed).ok = true ↔ N.Confirms doc url n.env := by
  unfold Router.Pushed.ok Net.Confirms Net.deliver
  cases N.fate url with
  | lost => exact iff_of_false Bool.false_ne_true id
  | unheard t ip => exact iff_of_false Bool.false_ne_true id
  | heard t ip =>
    rcases table_handled hbody n t with ⟨haccepts, hok, -⟩ | ⟨hno, hok, -⟩
    · exact iff_of_true hok haccepts
    · dsimp only
      rw [hok]
      exact iff_of_false Bool.false_ne_true hno

end

/-! ## All shards -/

/-- What became of a shard when the document was pushed; `caches` says that it reached it. -/
structure Tabled (n n' : Node) (doc : Json) (caches : Prop) : Prop where
  env : n'.env = n.env
  mailboxes : Shard.SameMailboxes n.kv n'.kv
  cached : caches → n'.kv .routingTable = some ⟨doc, none⟩
  kept : ¬ caches → n'.kv = n.kv

/-- A shard that is pushed to again stays as it is. -/
theorem Tabled.again {n n' n'' : Node} {doc : Json} {caches : Prop} (h : Tabled n n' doc caches)
    (h' : Tabled n' n'' doc caches) : Tabled n n'' doc caches where
  env := h'.env.trans h.env
  mailboxes id := (h'.mailboxes id).trans (h.mailboxes id)
  cached := h'.cached
  kept hno := (h'.kept hno).trans (h.kept hno)

theorem deliverAll_other (N : Net) {body u : JString} {urls : List JString} (h : u ∉ urls)
    (s : Shards) : N.deliverAll body urls s u = s u := by
  induction urls generalizing s with
  | nil => rfl
  | cons url urls ih =>
    rw [List.mem_cons, not_or] at h
    unfold Net.deliverAll
    rw [ih h.2, Function.update_of_ne h.1]

section

variable (N : Net) {body : JString} {doc : Json} (hbody : Json.received body = some doc)
include hbody

theorem deliver_tabled (url : JString) (n : Node) :
    Tabled n (N.deliver body url n).2 doc (N.Caches doc url n.env) := by
  rcases deliver_kv N hbody url n with ⟨hcaches, t, hkv⟩ | ⟨hno, hkv⟩
  · refine ⟨deliver_env N url n, fun id => ?_, fun _ => ?_, fun hno => absurd hcaches hno⟩
    · rw [hkv]
      exact Store.put_other n.kv t (by simp : Shard.Key.mailbox id ≠ .routingTable) doc none
    · rw [hkv, Store.put_same]
      rfl
  · refine ⟨deliver_env N url n, fun id => ?_, fun hcaches => absurd hcaches hno, fun _ => hkv⟩
    rw [hkv]

theorem deliverAll_tabled {u : JString} {urls : List JString} (h : u ∈ urls) (s : Shards) :
    Tabled (s u) (N.deliverAll body urls s u) doc (N.Caches doc u (s u).env) := by
  induction urls generalizing s with
  | nil => cases h
  | cons url urls ih =>
    unfold Net.deliverAll
    by_cases hu : u = url
    · subst hu
      have hfirst := deliver_tabled N hbody u (s u)
      by_cases hmem : u ∈ urls
      · have hrest := ih hmem (Function.update s u (N.deliver body u (s u)).2)
        rw [Function.update_self, hfirst.env] at hrest
        exact hfirst.again hrest
      · rw [deliverAll_other N hmem, Function.update_self]
        exact hfirst
    · have hrest := ih ((List.mem_cons.1 h).resolve_left hu)
        (Function.update s url (N.deliver body url (s url)).2)
      rwa [Function.update_of_ne hu] at hrest

/-- The answers of the shards, which do not depend on what came before. -/
theorem replies_ok (urls : List JString) (s : Shards) :
    (N.replies body urls s).map Router.Pushed.shardUrl = urls ∧
      ∀ p ∈ N.replies body urls s, p.ok = true ↔ N.Confirms doc p.shardUrl (s p.shardUrl).env := by
  induction urls generalizing s with
  | nil => exact ⟨rfl, by rintro p ⟨⟩⟩
  | cons url urls ih =>
    obtain ⟨hurls, hok⟩ := ih (Function.update s url (N.deliver body url (s url)).2)
    have henv (u : JString) :
        (Function.update s url (N.deliver body url (s url)).2 u).env = (s u).env := by
      by_cases hu : u = url
      · subst hu
        rw [Function.update_self, deliver_env]
      · rw [Function.update_of_ne hu]
    unfold Net.replies
    refine ⟨by rw [List.map_cons, hurls], ?_⟩
    rintro p hp
    rcases List.mem_cons.1 hp with rfl | hp
    · exact deliver_ok N hbody url (s url)
    · rw [← henv p.shardUrl]
      exact hok p hp

end

/-! ## The Router -/

section

variable (N : Net) (env : Router.Env) (t : ℕ) {kv : Router.Kv} (s : Shards)
  (up : JString → Option JString → Bool)

/-- The table of the Router, with its signature. -/
def signedTable (kv : Router.Kv) (version : Number) : Json :=
  let body := Router.tableBody env (Router.shardUrlsOf env kv) (Router.priorCountsOf env kv) version
    (Router.registeredOf env kv) t
  withSignature body (env.crypto.signHex env.routerSigningKey (Json.obj body).stringify)

theorem pushAll_net (body : JString) (urls : List JString) :
    (Router.pushAll body urls).run (KvOp.exec t (N.adminServices env.crypto up)) (kv, s) =
      (some (N.replies body urls s), (kv, N.deliverAll body urls s)) := by
  induction urls generalizing s with
  | nil => rfl
  | cons url urls ih =>
    change ((Router.pushAll body urls).bind _).run _
      (kv, Function.update s url (N.deliver body url (s url)).2) = _
    rw [Prog.run_bind_some (ih _)]
    rfl

theorem signedTable_run (hd : Router.Durable kv) :
    ∃ version, (Router.buildSignedRoutingTable env).run
        (KvOp.exec t (N.services env.crypto)) (kv, s) =
      (some (signedTable env t kv version), (kv, s)) := by
  obtain ⟨version, hversion⟩ :=
    Router.getRoutingTableVersion_run env t kv s (N.services env.crypto)
  refine ⟨version, ?_⟩
  unfold Router.buildSignedRoutingTable
  rw [Prog.bind_eq, Prog.run_bind_some (Router.getShardUrls_run hd), Prog.bind_eq,
    Prog.run_bind_some (Router.getPriorShardCounts_run hd), Prog.bind_eq,
    Prog.run_bind_some hversion, Prog.bind_eq,
    Prog.run_bind_some (Router.getRegisteredShards_run hd)]
  rfl

theorem widen_net {α : Type} (p : Router.M α) :
    (KvOp.widen p).run (KvOp.exec t (N.adminServices env.crypto up)) (kv, s) =
      p.run (KvOp.exec t (N.services env.crypto)) (kv, s) :=
  KvOp.run_widen (fun _ _ => rfl) t p (kv, s)

theorem push_net (hd : Router.Durable kv) (urls : List JString) :
    ∃ version, (Router.pushRoutingTableToShards env urls).run
        (KvOp.exec t (N.adminServices env.crypto up)) (kv, s) =
      (some ⟨(signedTable env t kv version).field (js "version"),
          N.replies (signedTable env t kv version).stringify urls s⟩,
        (kv, N.deliverAll (signedTable env t kv version).stringify urls s)) := by
  obtain ⟨version, hsigned⟩ := signedTable_run N env t s hd
  refine ⟨version, ?_⟩
  unfold Router.pushRoutingTableToShards
  rw [Prog.bind_eq, Prog.run_bind_some ((widen_net N env t s up _).trans hsigned),
    Prog.bind_eq, Prog.run_bind_some (pushAll_net N env t s up _ urls)]
  rfl

/-- For an hour after it was built, every shard that knows the key of the Router accepts
    the table that arrives. -/
theorem accepts_signedTable (hcounts : Parsed (Router.priorCountsOf env kv))
    (hurls : Router.shardUrlsOf env kv ≠ []) (version : Number) :
    ∃ doc, Json.received (signedTable env t kv version).stringify = some doc ∧
      ∀ shard : Shard.Env, shard.crypto = env.crypto →
        KeyPair env.crypto shard.routerSigningPublic env.routerSigningKey →
        ∀ t' ≤ t + 3600 * 1000, Shard.Accepts shard t' doc := by
  unfold signedTable
  set body := Router.tableBody env (Router.shardUrlsOf env kv) (Router.priorCountsOf env kv) version
    (Router.registeredOf env kv) t with hbody
  set signature := env.crypto.signHex env.routerSigningKey (Json.obj body).stringify with hsignature
  have hkeys : js "signature" ∉ body.map Prod.fst := (tableBody_keys env).symm ▸ tableKeys_spec.2
  obtain ⟨harrives, -, -⟩ := signed_arrives signature (proper_tableBody env hcounts.proper) hkeys
  have hsurvives : TableSurvives env (Router.shardUrlsOf env kv) t (withSignature body signature)
      (Json.obj body).stringify :=
    tableSurvives hcounts.proper
  obtain ⟨-, doc, hdoc, -, -, hshard⟩ := hsurvives
  refine ⟨doc, hdoc, fun shard hcrypto hpair t' ht' => ?_⟩
  obtain rfl := Option.some.inj (harrives.symm.trans hdoc)
  exact
    { signed := (hshard shard hcrypto hpair).1
      urls := table_urls hcounts.proper signature hurls
      unexpired := unexpired_table hcounts.proper signature ht' }

theorem scheduled_net (hd : Router.Durable kv) (hurls : Router.shardUrlsOf env kv ≠ []) :
    ∃ version, (Router.scheduled env).run (KvOp.exec t (N.adminServices env.crypto up)) (kv, s) =
      (some (some ⟨(signedTable env t kv version).field (js "version"),
          N.replies (signedTable env t kv version).stringify (Router.shardUrlsOf env kv) s⟩),
        (kv, N.deliverAll (signedTable env t kv version).stringify (Router.shardUrlsOf env kv) s)) := by
  obtain ⟨version, hpush⟩ := push_net N env t s up hd (Router.shardUrlsOf env kv)
  have hlist : (KvOp.widen (Router.getShardUrls env)).run
      (KvOp.exec t (N.adminServices env.crypto up)) (kv, s) =
        (some (Router.shardUrlsOf env kv), (kv, s)) :=
    (widen_net N env t s up _).trans (Router.getShardUrls_run hd)
  have hsome : (Router.shardUrlsOf env kv).isEmpty ≠ true := by simpa using hurls
  refine ⟨version, ?_⟩
  unfold Router.scheduled
  rw [Prog.bind_eq, Prog.run_bind_some hlist, if_neg hsome, Prog.bind_eq,
    Prog.run_bind_some hpush]
  rfl

/-- What became of the shards when a document was pushed to the ones at `urls`. -/
structure Distributed (doc : Json) (urls : List JString) (results : List Router.Pushed)
    (s s' : Shards) : Prop where
  asked : results.map Router.Pushed.shardUrl = urls
  heard : ∀ p ∈ results, p.ok = true ↔ N.Confirms doc p.shardUrl (s p.shardUrl).env
  reached : ∀ url ∈ urls, Tabled (s url) (s' url) doc (N.Caches doc url (s url).env)
  others : ∀ url, url ∉ urls → s' url = s url

/-- **The table is distributed.**  Whatever becomes of the requests of the cron: a shard
    that one of them reaches in time holds the table that the Router has signed, the
    Router hears a success exactly of shards that do, and all else is as it was. -/
theorem table_distributed (hd : Router.Durable kv) (hcounts : Parsed (Router.priorCountsOf env kv))
    (hurls : Router.shardUrlsOf env kv ≠ []) :
    ∃ version doc results s',
      Json.received (signedTable env t kv version).stringify = some doc ∧
      (Router.scheduled env).run (KvOp.exec t (N.adminServices env.crypto up)) (kv, s) =
        (some (some ⟨(signedTable env t kv version).field (js "version"), results⟩), (kv, s')) ∧
      Distributed N doc (Router.shardUrlsOf env kv) results s s' ∧
      ∀ shard : Shard.Env, shard.crypto = env.crypto →
        KeyPair env.crypto shard.routerSigningPublic env.routerSigningKey →
        ∀ t' ≤ t + 3600 * 1000, Shard.Accepts shard t' doc := by
  obtain ⟨version, hrun⟩ := scheduled_net N env t s up hd hurls
  obtain ⟨doc, hdoc, haccepts⟩ := accepts_signedTable env t hcounts hurls version
  obtain ⟨hasked, hheard⟩ := replies_ok N hdoc (Router.shardUrlsOf env kv) s
  exact ⟨version, doc, _, _, hdoc, hrun,
    { asked := hasked
      heard := hheard
      reached := fun url hurl => deliverAll_tabled N hdoc hurl s
      others := fun url hurl => deliverAll_other N hurl s }, haccepts⟩

end

theorem table_half_distributed :
    ∃ version doc results s',
      Json.received (signedTable twoShards 0 (fun _ => none) version).stringify = some doc ∧
      (Router.scheduled twoShards).run
          (KvOp.exec 0 ((losing (js "http://b")).adminServices twoShards.crypto fun _ _ => true))
          (fun _ => none, fun _ => registered) =
        (some (some ⟨(signedTable twoShards 0 (fun _ => none) version).field (js "version"),
          results⟩), (fun _ => none, s')) ∧
      Distributed (losing (js "http://b")) doc (Router.shardUrlsOf twoShards fun _ => none)
        results (fun _ => registered) s' ∧
      ∀ shard : Shard.Env, shard.crypto = twoShards.crypto →
        KeyPair twoShards.crypto shard.routerSigningPublic twoShards.routerSigningKey →
        ∀ t' ≤ 0 + 3600 * 1000, Shard.Accepts shard t' doc := by
  have hproper : (Json.arr []).Proper := .arr fun x hx => by cases hx
  exact table_distributed (losing (js "http://b")) twoShards 0 (fun _ => registered)
    (fun _ _ => true) twoShards_durable ⟨_, Json.parse_stringify hproper⟩ twoShards_urls

/-! ## Copies -/

section

variable {c : Crypto} {identity : Shard.Identity} {job : Shard.FanOut} {t t' : ℕ}

/-- A copy that passes the gate is in the queue afterwards. -/
theorem replicate_stores {env : Shard.Env} {t : ℕ} {kv : Shard.Kv} {rq : Shard.ReplicateRequest}
    {f : Shard.ReplicateFields} (hf : Shard.replicateFields rq.body = .ok f)
    (hpassed : Shard.Passed env t kv f) (hlife : env.cfg.mailboxTtlSeconds.toInt?.isSome = true) :
    ∃ e ∈ Shard.queue (Shard.handle env t (.replicate rq) kv).2 f.mailboxId.lower,
      e.id = f.entry.id := by
  by_cases habsent : (f.stored (kv.get t (.mailbox f.mailboxId.lower)) t).queues f.entry.id = false
  · obtain ⟨-, hwrote⟩ := Shard.Queued.wrote ⟨hf, hpassed, habsent, hlife⟩
    refine ⟨f.entry, ?_, rfl⟩
    rw [hwrote.queue_own]
    exact List.mem_append_right _ List.mem_cons_self
  · have hmoves := Shard.handle_moves env t kv (.replicate rq)
    generalize Shard.handle env t (.replicate rq) kv = p at hmoves ⊢
    obtain ⟨r, kv'⟩ := p
    cases hmoves with
    | idle _ _ hsame =>
      rw [Shard.queue_same hsame]
      cases hfound : kv.get t (.mailbox f.mailboxId.lower) with
      | none =>
        rw [hfound] at habsent
        exact absurd rfl habsent
      | some m =>
        rw [hfound] at habsent
        rw [Shard.queue_get hfound]
        obtain ⟨e, he, hid⟩ := List.any_eq_true.1 (Bool.eq_true_of_not_eq_false habsent)
        exact ⟨e, he, eq_of_beq hid⟩
    | replicate hf' _ habsent' _ =>
      cases hf.symm.trans hf'
      exact absurd habsent' habsent

/-- A shard that knows the origin stores the copy, unless the origin is over its rate. -/
theorem CopyRead.stored {env : Shard.Env} {kv : Shard.Kv} {doc : Json} {f : Shard.ReplicateFields}
    {pk : HexStr 64 64} (h : CopyRead c identity job t doc f pk) (hcrypto : env.crypto = c)
    (hknown : Shard.knownShard pk.lower (kv.get t' .routingTable) = some true)
    (ht : t < 10 ^ 21) (hclock : |(t' : ℚ) - t| ≤ 60000)
    (hlife : env.cfg.mailboxTtlSeconds.toInt?.isSome = true) :
    let r := Shard.handle env t' (.replicate ⟨some doc⟩) kv
    r.1.status = 429 ∨
      ∃ e ∈ Shard.queue r.2 (toLowerCase job.mailboxId), e.id = job.entry.id := by
  intro r
  have hfresh : (Number.ofInt 60000).lt (clockSkew t' f.timestamp) = false := by
    refine Shard.lt_clockSkew ?_
    have hvalue : decValue f.timestamp.1 = t := by
      rw [h.timestamp]
      exact (Dec.text_nat (a := Dec.ofDigits t 0) (n := t) (by simp) ht).2
    rw [hvalue]
    simpa using hclock
  cases hquota : env.cfg.maxReplicatesPerOrigin.le
      (.ofInt (Shard.bucketCount kv t' (Shard.originBucket pk))) with
  | true => exact Or.inl (Shard.exhausted_handle h.fields hfresh h.origin hquota)
  | false =>
    have hpassed : Shard.Passed env t' kv f := (Shard.passed_iff kv env t' f).2
      ⟨hfresh, pk, h.origin, hquota, hknown, h.verified env hcrypto⟩
    have hstores : ∃ e ∈ Shard.queue (Shard.handle env t' (.replicate ⟨some doc⟩) kv).2
        f.mailboxId.lower, e.id = f.entry.id := replicate_stores h.fields hpassed hlife
    obtain ⟨e, he, hid⟩ := hstores
    refine Or.inr ⟨e, ?_, hid.trans h.id⟩
    rwa [← h.mailboxId]

end

/-! ## Listed shards -/

section

variable (keyOf : JString → Option JString)

end

section

variable (env : Router.Env) (t : ℕ) {kv : Router.Kv}

end

section

variable (N : Net) (env : Router.Env) (t : ℕ) {kv : Router.Kv} (s : Shards)
  (up : JString → Option JString → Bool)

end

end Agreement
