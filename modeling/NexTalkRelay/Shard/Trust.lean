/-
  Where a shard's trust in its siblings comes from.

  A push is trusted if its origin is listed in the cached routing table.  The
  Router has signed that table, and it had not expired when it was cached; a
  later push may replace it by an older one, and nobody looks at its expiry
  again.

  * `happen_table`: what an event does to the cached table;
  * `table_rolls_back_iff`: the cached version decreases exactly if an older
    table is accepted;
  * `Trust` is a store with the tables cached so far, and `replicate_trusted`
    says what a push that changes a record comes with.
-/
import NexTalkRelay.Lib.Runs
import NexTalkRelay.Shard.Admin
import NexTalkRelay.Shard.Push

open Effect Js Runs

namespace Shard

/-! ## The cached table -/

section
variable (env : AdminEnv) (e : Event) (kv : Kv)

/-- **An event caches an accepted table, or leaves the cache alone.** -/
theorem happen_table :
    (∃ doc r, e.endpoint = .core (.routingTablePush (some doc)) ∧ Accepts env.toEnv e.time doc ∧
        (env.happen e kv).1 = .core r ∧ r.status = 200 ∧
        (env.happen e kv).2 .routingTable = some ⟨doc, none⟩) ∨
      (∀ doc r, e.endpoint = .core (.routingTablePush (some doc)) →
        ¬ Accepts env.toEnv e.time doc ∧ ((env.happen e kv).1 = .core r → r.status ≠ 200)) ∧
        (env.happen e kv).2 .routingTable = kv .routingTable := by
  obtain ⟨t, router, endpoint⟩ := e
  by_cases hpush : ∃ body, endpoint = .core (.routingTablePush body)
  · obtain ⟨body, rfl⟩ := hpush
    obtain ⟨o, kv', hrun, hcases⟩ := handleRoutingTablePush_run env.toEnv t kv [] body
    have hhappen : env.happen ⟨t, router, .core (.routingTablePush body)⟩ kv =
        (.core (o.getD crashed), kv') := by
      simp only [AdminEnv.happen, perform, handle, runAt, fetch, hrun]
    rw [hhappen]
    rcases hcases with ⟨doc, rfl, hacc, rfl, rfl⟩ | ⟨hno, rfl, hrefusal⟩
    · exact Or.inl ⟨doc, _, rfl, hacc, rfl, rfl, Store.put_same kv t (k := .routingTable) doc none⟩
    · refine Or.inr ⟨?_, rfl⟩
      rintro doc r ⟨⟩
      refine ⟨hno doc rfl, ?_⟩
      rintro ⟨⟩
      cases o with
      | none => exact fun h => absurd h (by decide)
      | some r => exact (hrefusal r rfl).1
  · refine Or.inr ⟨fun doc r h => absurd ⟨_, h⟩ hpush, ?_⟩
    by_cases hcore : ∃ rq, endpoint = .core rq
    · obtain ⟨rq, rfl⟩ := hcore
      exact KvOp.run_spares (fetch_spares_table env.toEnv fun body h => hpush ⟨body, by rw [h]⟩) t
        (services env.crypto) (kv, [])
    · exact perform_outside env router t (fun rq h => hcore ⟨rq, h⟩) kv id

end

/-- A pushed table leaves the mailboxes alone. -/
theorem happen_table_same {env : AdminEnv} {e : Event} {body : Option Json}
    (he : e.endpoint = .core (.routingTablePush body)) (kv : Kv) :
    SameMailboxes kv (env.happen e kv).2 := by
  obtain ⟨t, router, endpoint⟩ := e
  subst he
  exact handle_table_same env.toEnv t kv body

/-! ## Versions -/

/-- `Number(table.version)` -/
def version (doc : Json) : Option Number := numberOf (doc.field (js "version"))

/-- The first document has a lower version than the second. -/
def Older (doc doc' : Json) : Prop :=
  ∃ a b, version doc = some a ∧ version doc' = some b ∧ a.lt b = true

/-- The version of the cached table has decreased. -/
def RollsBack (kv kv' : Kv) : Prop :=
  ∃ old new, cachedTable kv = some old ∧ cachedTable kv' = some new ∧ Older new old

/-- The event delivers an older table that the Router signed and that has not expired. -/
def DeliversOlder (env : AdminEnv) (kv : Kv) (e : Event) : Prop :=
  ∃ doc old, e.endpoint = .core (.routingTablePush (some doc)) ∧ Accepts env.toEnv e.time doc ∧
    cachedTable kv = some old ∧ Older doc old

theorem not_older_self (doc : Json) : ¬ Older doc doc := by
  rintro ⟨a, b, ha, hb, hlt⟩
  obtain rfl : a = b := Option.some.inj (ha.symm.trans hb)
  cases a with
  | nan => cases hlt
  | inf s => cases s <;> cases hlt
  | fin d => simp [Number.lt] at hlt

/-- **Step lemma.** -/
theorem rollsBack_iff (env : AdminEnv) (kv : Kv) (e : Event) :
    RollsBack kv (env.happen e kv).2 ↔ DeliversOlder env kv e := by
  rcases happen_table env e kv with ⟨doc, r, he, hacc, -, -, hdoc⟩ | ⟨hno, hsame⟩
  · have hcached : cachedTable (env.happen e kv).2 = some doc := by
      unfold cachedTable
      rw [hdoc]
      rfl
    constructor
    · rintro ⟨old, new, hold, hnew, holder⟩
      obtain rfl : doc = new := Option.some.inj (hcached.symm.trans hnew)
      exact ⟨doc, old, he, hacc, hold, holder⟩
    · rintro ⟨doc', old, he', -, hold, holder⟩
      rw [he] at he'
      cases he'
      exact ⟨old, doc, hold, hcached, holder⟩
  · constructor
    · rintro ⟨old, new, hold, hnew, holder⟩
      have hcached : cachedTable (env.happen e kv).2 = cachedTable kv := by
        unfold cachedTable
        rw [hsame]
      rw [hcached, hold] at hnew
      cases hnew
      exact absurd holder (not_older_self old)
    · rintro ⟨doc, old, he, hacc, -⟩
      exact absurd hacc (hno doc crashed he).1

/-- The store after an event. -/
def AdminEnv.next (env : AdminEnv) (e : Event) (kv : Kv) : Kv := (env.happen e kv).2

/-- A signed table with a version and an expiry. -/
def routerTable (version expires : ℕ) : Json :=
  .obj [(js "version", .num (.ofInt version)), (js "shard_urls", .arr [.str (js "http://a")]),
    (js "shards", .arr [.obj [(js "pubkey", .str (letters 64))]]),
    (js "expires_at", .num (.ofInt expires)), (js "signature", .str (letters 128))]

/-- A shard on which every signature verifies. -/
def trustingShard : AdminEnv := { trustingEnv {} with }

/-- The table is pushed at an instant. -/
def delivery (time version expires : ℕ) : Event where
  time
  router _ := .error []
  endpoint := .core (.routingTablePush (some (routerTable version expires)))

theorem accepts_routerTable {t version expires : ℕ} (h : t ≤ expires) :
    Accepts trustingShard.toEnv t (routerTable version expires) where
  signed := by
    have h128 : (letters 128).length % 2 = 0 := by simp [letters]
    exact ⟨hexLetters 128 (by omega), hexField_eq_some.2 rfl, trusting_verifies rfl h128 _⟩
  urls := ⟨_, rfl, List.cons_ne_nil _ _⟩
  unexpired := by
    refine ⟨.ofInt expires, rfl, rfl, ?_⟩
    by_contra hlt
    simp only [Bool.not_eq_false, Number.ofInt_lt_ofInt] at hlt
    omega

theorem cachedTable_delivery {t version expires : ℕ} (h : t ≤ expires) (kv : Kv) :
    cachedTable (trustingShard.next (delivery t version expires) kv) =
      some (routerTable version expires) := by
  rcases happen_table trustingShard (delivery t version expires) kv with
    ⟨doc, r, he, -, -, -, hdoc⟩ | ⟨hno, -⟩
  · cases he
    unfold cachedTable AdminEnv.next
    rw [hdoc]
    rfl
  · exact absurd (accepts_routerTable h) (hno _ crashed rfl).1

/-- **Rolled back exactly by an older table.**  In every run the version of the
    cached table decreases in exactly those steps that deliver a table with a
    lower version which the Router signed and which has not expired. -/
theorem table_rolls_back_iff (env : AdminEnv) (run : List Event) :
    Always env.next (fun kv e => RollsBack kv (env.next e kv) ↔ DeliversOlder env kv e)
      (fun _ => none) run := by
  generalize (fun _ => none : Kv) = kv
  induction run generalizing kv with
  | nil => trivial
  | cons e run ih => exact ⟨rollsBack_iff env kv e, ih _⟩

/-- A table that has been replaced is delivered again. -/
theorem older_table_rolls_back :
    ¬ Always trustingShard.next (fun kv e => ¬ RollsBack kv (trustingShard.next e kv))
      (fun _ => none) [delivery 0 1 3600000, delivery 1 2 3600000, delivery 2 1 3600000] := by
  intro h
  have hlate : 2 ≤ 3600000 := by omega
  refine h.2.2.1 ((rollsBack_iff _ _ _).2 ⟨_, _, rfl, accepts_routerTable hlate,
    cachedTable_delivery (by omega) _, .ofInt 1, .ofInt 2, rfl, rfl, ?_⟩)
  simp

/-! ## What a push comes with -/

/-- The key is among the shards of the document. -/
def Lists (doc : Json) (pubkey : JString) : Prop :=
  ∃ shards s key, doc.field (js "shards") = some (.arr shards) ∧ s ∈ shards ∧
    s.field (js "pubkey") = some (.str key) ∧ toLowerCase key = pubkey

/-- The signed part of a push names everything that the push applies. -/
structure Covers (f : ReplicateFields) : Prop where
  mailboxId : f.unsigned.field (js "mailbox_id") = some (.str f.mailboxId.1)
  entry : f.unsigned.field (js "entry") = some f.entry.json
  replicas : f.unsigned.field (js "replica_shard_urls") = f.replicaShardUrls
  timestamp : (f.unsigned.field (js "timestamp")).bind Json.toStr = some f.timestamp.1

/-- The push carries a fresh signature of the key on what it applies. -/
structure Authentic (env : Env) (t : ℕ) (kv : Kv) (rq : ReplicateRequest) (f : ReplicateFields)
    (pk : HexStr 64 64) (kv' : Kv) : Prop where
  fields : replicateFields rq.body = .ok f
  origin : f.originPubkey.str? = some pk
  verified : ∃ signature, f.signature.str? = some signature ∧
    verifyEd25519Message env.crypto pk.1 (js "replicate:" ++ f.unsigned.stringify)
      signature.1 = true
  covers : Covers f
  fresh : (Number.ofInt 60000).lt (clockSkew t f.timestamp) = false
  applied : Wrote env t kv f.mailboxId.lower
    ((f.stored (kv.get t (.mailbox f.mailboxId.lower)) t).pushed f.entry t) kv'

section

theorem field_without {key key' : JString} (h : key' ≠ key) (v : Json) :
    (without key v).field key' = v.field key' := by
  cases v with
  | obj ps =>
    unfold without Json.field
    dsimp only
    rw [List.find?_filter]
    congr 2
    funext p
    by_cases hp : p.1 = key'
    · simp [hp, h]
    · simp [hp]
  | _ => rfl

theorem entryField_json {v : Option Json} {e : Entry} (h : entryField v = some e) :
    v = some e.json := by
  unfold entryField at h
  obtain ⟨w, rfl, hw⟩ := Option.bind_eq_some_iff.1 h
  split at hw
  · obtain rfl := Option.some.inj hw
    rfl
  · cases hw

theorem replicateFields_covers {body : Option Json} {f : ReplicateFields}
    (h : replicateFields body = .ok f) : Covers f := by
  have hmailbox : js "mailbox_id" ≠ js "signature" := by decide
  have hentry : js "entry" ≠ js "signature" := by decide
  have hreplicas : js "replica_shard_urls" ≠ js "signature" := by decide
  have htimestamp : js "timestamp" ≠ js "signature" := by decide
  simp only [replicateFields, Check.orAnswer_bind] at h
  obtain ⟨v, rfl, id, hid, e, he, h⟩ := h
  obtain ⟨pk, -, h⟩ := Check.bind_eq_ok.1 h
  obtain ⟨ts, hts, h⟩ := Check.bind_eq_ok.1 h
  obtain ⟨sig, -, h⟩ := Check.bind_eq_ok.1 h
  cases h
  obtain ⟨s, hs, hparse⟩ := testedField_toStr hts
  refine ⟨?_, ?_, ?_, ?_⟩
  · rw [field_without hmailbox]; exact hexField_eq_some.1 hid
  · rw [field_without hentry]; exact entryField_json he
  · rw [field_without hreplicas]
  · rw [field_without htimestamp, hs, DigitStr.parse_eq_some.1 hparse]

theorem findShard_mem {pubkey : JString} {shards : List Json}
    (h : findShard pubkey shards = some true) :
    ∃ s ∈ shards, ∃ key, s.field (js "pubkey") = some (.str key) ∧ toLowerCase key = pubkey := by
  induction shards with
  | nil => cases h
  | cons s shards ih =>
    have hrest (h : findShard pubkey shards = some true) : ∃ s' ∈ s :: shards, ∃ key,
        s'.field (js "pubkey") = some (.str key) ∧ toLowerCase key = pubkey := by
      obtain ⟨s', hs', hkey⟩ := ih h
      exact ⟨s', List.mem_cons_of_mem _ hs', hkey⟩
    unfold findShard at h
    split at h
    · cases h
    · cases h
    · next heq =>
      obtain ⟨rfl, rfl⟩ := List.cons.inj heq
      split at h
      · next key hkey =>
        split at h
        · next hmatch =>
          simp only [Bool.and_eq_true, beq_iff_eq] at hmatch
          exact ⟨s, List.mem_cons_self, key, hkey, hmatch.2⟩
        · exact hrest h
      · split at h
        · cases h
        · exact hrest h

theorem knownShard_lists {pubkey : JString} {doc : Json}
    (h : knownShard pubkey (some doc) = some true) : Lists doc pubkey := by
  unfold knownShard at h
  split at h
  · cases h
  · cases h
  · next shards hshards =>
    obtain ⟨s, hs, key, hkey, heq⟩ := findShard_mem h
    exact ⟨shards, s, key, hshards, hs, hkey, heq⟩
  · cases h

variable {env : Env} {t : ℕ} {kv : Kv} {rq : ReplicateRequest} {id : JString}

/-- **A push that changes a record is authentic, and the cached table lists its
    origin.** -/
theorem replicate_authentic
    (h : (handle env t (.replicate rq) kv).2 (.mailbox id) ≠ kv (.mailbox id)) :
    ∃ f pk doc, Authentic env t kv rq f pk (handle env t (.replicate rq) kv).2 ∧
      id = f.mailboxId.lower ∧ kv.get t .routingTable = some doc ∧ Lists doc pk.lower := by
  have hmoves := handle_moves env t kv (.replicate rq)
  generalize handle env t (.replicate rq) kv = p at hmoves h ⊢
  obtain ⟨r, kv'⟩ := p
  cases hmoves with
  | idle _ _ hsame => exact absurd (hsame id) h
  | @replicate _ f _ hf hp _ hw =>
    obtain ⟨hfresh, pk, hpk, -, hknown, hsig⟩ := (passed_iff kv env t f).1 hp
    have hid : id = f.mailboxId.lower := by
      by_contra hne
      exact h (hw.other hne)
    unfold replicateSigOk at hsig
    cases hdoc : kv.get t .routingTable with
    | none => rw [hdoc] at hknown; cases hknown
    | some doc =>
      rw [hdoc] at hknown
      split at hsig
      · next signature hsignature =>
        exact ⟨f, pk, doc, ⟨hf, hpk, ⟨signature, hsignature, hsig⟩, replicateFields_covers hf,
          hfresh, hw⟩, hid, rfl, knownShard_lists hknown⟩
      · cases hsig

end

/-! ## Runs -/

/-- A store, and the tables cached so far with their instants, the latest first. -/
structure Trust where
  kv : Kv
  tables : List (ℕ × Json)

namespace Trust

/-- An empty store, and no push accepted. -/
def empty : Trust := ⟨fun _ => none, []⟩

/-- One event; a table that is pushed with success is cached. -/
def step (env : AdminEnv) (e : Event) (s : Trust) : Trust where
  kv := (env.happen e s.kv).2
  tables :=
    match e.endpoint, (env.happen e s.kv).1 with
    | .core (.routingTablePush (some doc)), .core r =>
      if r.status = 200 then (e.time, doc) :: s.tables else s.tables
    | _, _ => s.tables

/-- A push that changes a record is authentic, and its origin is listed in the
    latest of the tables that the shard has cached, which the Router signed and
    which is unexpired at the instant `due t₀ t`, where it was cached at `t₀` and
    the push comes at `t`. -/
def TrustedAt (env : AdminEnv) (due : ℕ → ℕ → ℕ) (s : Trust) (e : Event) : Prop :=
  ∀ rq id, e.endpoint = .core (.replicate rq) →
    (env.happen e s.kv).2 (.mailbox id) ≠ s.kv (.mailbox id) →
      ∃ f pk t₀ doc, Authentic env.toEnv e.time s.kv rq f pk (env.happen e s.kv).2 ∧
        id = f.mailboxId.lower ∧ s.tables.head? = some (t₀, doc) ∧ RouterSigned env.toEnv doc ∧
        Unexpired (due t₀ e.time) doc ∧ Lists doc pk.lower

/-- The cached table is the latest of the tables, and each of them was accepted. -/
structure Inv (env : AdminEnv) (s : Trust) : Prop where
  cached : s.kv .routingTable = s.tables.head?.map fun p => ⟨p.2, none⟩
  accepted : ∀ p ∈ s.tables, Accepts env.toEnv p.1 p.2

theorem inv_empty (env : AdminEnv) : empty.Inv env where
  cached := rfl
  accepted _ hp := absurd hp List.not_mem_nil

/-- **Step lemma.** -/
theorem Inv.step {env : AdminEnv} {s : Trust} (h : s.Inv env) (e : Event) :
    (s.step env e).Inv env := by
  rcases happen_table env e s.kv with ⟨doc, r, he, hacc, hr, hstatus, hdoc⟩ | ⟨hno, hsame⟩
  · have htables : (s.step env e).tables = (e.time, doc) :: s.tables := by
      unfold Trust.step
      simp only [he, hr, hstatus, if_true]
    refine ⟨?_, ?_⟩
    · rw [htables]; exact hdoc
    · rw [htables]; exact List.forall_mem_cons.2 ⟨hacc, h.accepted⟩
  · have htables : (s.step env e).tables = s.tables := by
      unfold Trust.step
      dsimp only
      split
      · next doc r he hr => exact if_neg ((hno doc r he).2 hr)
      · rfl
    refine ⟨?_, ?_⟩
    · rw [htables, ← h.cached]; exact hsame
    · rw [htables]; exact h.accepted

theorem step_table_same {env : AdminEnv} {e : Event} {body : Option Json}
    (he : e.endpoint = .core (.routingTablePush body)) (s : Trust) :
    SameMailboxes s.kv (s.step env e).kv := happen_table_same he s.kv

theorem Inv.trusted {env : AdminEnv} {s : Trust} (h : s.Inv env) (e : Event) :
    TrustedAt env (fun t₀ _ => t₀) s e := by
  obtain ⟨t, router, endpoint⟩ := e
  rintro rq id rfl hchange
  obtain ⟨f, pk, doc, hauth, hid, hdoc, hlists⟩ := replicate_authentic hchange
  obtain ⟨slot, hslot, -, rfl⟩ := Store.get_eq_some.1 hdoc
  rw [h.cached] at hslot
  obtain ⟨⟨t₀, doc⟩, hhead, rfl⟩ := Option.map_eq_some_iff.1 hslot
  have hacc := h.accepted _ (List.mem_of_mem_head? hhead)
  exact ⟨f, pk, t₀, doc, hauth, hid, hhead, hacc.signed, hacc.unexpired, hlists⟩

end Trust

/-- **Replication trust comes from a Router table.**  In every run a push that
    changes a record carries a fresh signature, on everything that it applies,
    of a key in a table that the Router signed, that the shard has cached, and
    that had not expired then. -/
theorem replicate_trusted (env : AdminEnv) (run : List Event) :
    Always (Trust.step env) (Trust.TrustedAt env fun t₀ _ => t₀) .empty run := by
  have hinv := Trust.inv_empty env
  generalize Trust.empty = s at hinv ⊢
  induction run generalizing s with
  | nil => trivial
  | cons e run ih => exact ⟨hinv.trusted e, ih _ (hinv.step e)⟩

/-- A push two seconds after midnight, by a clock that starts there. -/
def latePush : Event where
  time := 2000
  router _ := .error []
  endpoint := .core (.replicate (siblingPush (js "1") (js "m")))

theorem tables_delivery {t version expires : ℕ} (h : t ≤ expires) (s : Trust) :
    (s.step trustingShard (delivery t version expires)).tables =
      (t, routerTable version expires) :: s.tables := by
  rcases happen_table trustingShard (delivery t version expires) s.kv with
    ⟨doc, r, he, -, hr, hstatus, -⟩ | ⟨hno, -⟩
  · cases he
    unfold Trust.step
    dsimp only
    rw [hr]
    exact if_pos hstatus
  · exact absurd (accepts_routerTable h) (hno _ crashed rfl).1

/-- The shard trusts a table that expired a second ago. -/
theorem expired_table_trusted :
    ¬ Always (Trust.step trustingShard) (Trust.TrustedAt trustingShard fun _ t => t) .empty
      [delivery 0 1 1000, latePush] := by
  intro h
  have hearly : 0 ≤ 1000 := by omega
  have hsame : SameMailboxes Trust.empty.kv
      (Trust.empty.step trustingShard (delivery 0 1 1000)).kv := Trust.step_table_same rfl _
  have hsome : ((trustingShard.happen latePush (Trust.empty.step trustingShard
      (delivery 0 1 1000)).kv).2 (.mailbox (letters 16))).isSome = true := by
    decide +kernel
  obtain ⟨f, pk, t₀, doc, -, -, hhead, -, ⟨x, hx, -, hlt⟩, -⟩ := h.2.1 _ (letters 16) rfl (by
    intro heq
    rw [heq, hsame (letters 16)] at hsome
    cases hsome)
  rw [tables_delivery hearly] at hhead
  cases hhead
  cases hx
  have hexpired : (Number.ofInt (1000 : ℕ)).lt (.ofInt (2000 : ℕ)) = true := by simp
  exact absurd (hlt.symm.trans hexpired) (by simp)

end Shard
