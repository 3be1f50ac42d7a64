/-
  Who reads a registered mailbox.

  * `Promises` is what the answer of a successful `/register` says, and `register_told` that
    it says so of the body that the shards were asked to create;
  * `Grants` says that a shard gives the mailbox to whoever has one read secret, up to
    one instant, and `Grants.step` that every request keeps this but a `/create` with
    another secret;
  * `owner_reads`: from a registration to its `expires_at`, whatever a shard that took
    it is asked in the meantime, the mailbox is found there, opened with the secret of
    the answer and with no other.
-/
import NexTalkRelay.Shard.Inert
import NexTalkRelay.Shard.Record
import NexTalkRelay.Agreement.Secrets

open Effect Js Runs

namespace Agreement

/-! ## The answer -/

/-- What the answer of a registration says. -/
structure Promises (rq : Router.RegisterRequest) (body : Router.CreateBody) (replicas : List JString)
    (reg : Router.Registration) : Prop where
  mailboxId : reg.mailboxId = body.mailboxId
  readSecret : reg.readSecret = bytesToHex rq.readSecret
  shardUrl : reg.shardUrl ∈ replicas.head?
  replicas : reg.replicaShardUrls = replicas
  expiresAt : reg.expiresAt = body.capExp

section

variable (N : Net) (env : Router.Env) (t : ℕ) {kv : Router.Kv} {s : Shards}

theorem confirm_told (requestId : Option Json) (reg : Router.Registration) :
    (Router.confirm env requestId reg).Post fun r => r.status = 200 → r.body = .registered reg := by
  unfold Router.confirm
  split
  · exact fun _ => rfl
  · intro now
    simp only [Prog.ret_bind]
    split
    · trivial
    · exact fun signature _ => rfl

theorem register_told {rq : Router.RegisterRequest} {f : Router.RegisterFields}
    {pubkey : HexStr 64 64} (hpk : f.pubkey.str? = some pubkey) {urls : List JString}
    (current : Router.Era urls) {r : Router.Response} {x : Router.Kv × Shards}
    (hrun : (Router.register env rq f current).run (KvOp.exec t (N.services env.crypto)) (kv, s) =
      (some r, x)) (hstatus : r.status = 200) :
    let replicas := Router.replicasOf env pubkey current
    ∃ reg, r.body = .registered reg ∧
      Promises rq (Router.createBody env t rq pubkey replicas) replicas reg := by
  intro replicas
  unfold Router.register at hrun
  rw [hpk] at hrun
  dsimp only at hrun
  rw [show Router.replicasForEra env.crypto pubkey.1 current
    (Router.replicationFactor env current.1) = replicas from rfl] at hrun
  obtain ⟨body, x₁, hmint, hrun⟩ := Prog.run_bind_eq_some hrun
  obtain ⟨results, x₂, -, hrun⟩ := Prog.run_bind_eq_some hrun
  obtain rfl : Router.createBody env t rq pubkey replicas = body :=
    Option.some.inj (Prod.mk.inj hmint).1
  clear_value replicas
  cases replicas with
  | nil => cases (Prod.mk.inj hrun).1
  | cons shardUrl rest =>
    cases results with
    | nil => cases (Prod.mk.inj hrun).1
    | cons primary _ =>
      dsimp only at hrun
      split at hrun
      · obtain rfl := Option.some.inj (Prod.mk.inj hrun).1
        exact absurd hstatus (show (502 : ℕ) ≠ 200 by decide)
      · obtain ⟨version, x₃, -, hrun⟩ := Prog.run_bind_eq_some hrun
        have htold := (confirm_told env f.requestId _).run (congrArg Prod.fst hrun) hstatus
        exact ⟨_, htold, rfl, rfl, rfl, rfl, rfl⟩

end

/-! ## A mailbox that is held for its owner -/

/-- The record of the mailbox has this hash, and lives up to an instant at least. -/
def Grants (id hash : JString) (due : ℕ) (kv : Shard.Kv) : Prop :=
  ∃ slot, kv (.mailbox id) = some slot ∧ slot.val.readSecretHash = hash ∧
    ∀ t, t < due → slot.live t = true

/-- A `/create` for the mailbox that is answered with success brings the same hash. -/
def Renews (env : Shard.Env) (id hash : JString) (kv : Shard.Kv) (e : ℕ × Shard.Request) : Prop :=
  ∀ rq f, e.2 = .create rq → Shard.createFields rq.body = .ok f → f.mailboxId.lower = id →
    (Shard.handle env e.1 e.2 kv).1.status = 200 → f.readSecretHash.lower = hash

section

variable {env : Shard.Env} {id hash : JString} {due : ℕ} {kv : Shard.Kv} {t : ℕ} {life : ℤ}

theorem Grants.found (h : Grants id hash due kv) (ht : t < due) :
    ∃ m, kv.get t (.mailbox id) = some m ∧ m.readSecretHash = hash := by
  obtain ⟨slot, hslot, hhash, hlive⟩ := h
  exact ⟨slot.val, Store.get_live hslot (hlive t ht), hhash⟩

theorem Grants.same (h : Grants id hash due kv) {kv' : Shard.Kv}
    (hsame : kv' (.mailbox id) = kv (.mailbox id)) : Grants id hash due kv' := by
  obtain ⟨slot, hslot, hrest⟩ := h
  exact ⟨slot, hsame.trans hslot, hrest⟩

/-- A record that is written lives for the lifetime of records from then on. -/
theorem grants_wrote (hlife : env.cfg.mailboxTtlSeconds.toInt? = some life)
    (hdue : (due : ℤ) ≤ t + 1000 * life) {m : Shard.Mailbox} {kv' : Shard.Kv}
    (hwrote : Shard.Wrote env t kv id m kv') (hhash : m.readSecretHash = hash) :
    Grants id hash due kv' := by
  obtain ⟨life', hlife', hslot⟩ := hwrote.slot
  obtain rfl := Option.some.inj (hlife.symm.trans hlife')
  refine ⟨_, hslot, hhash, fun u hu => ?_⟩
  have hu' : (u : ℤ) < due := by exact_mod_cast hu
  simp only [Slot.live, decide_eq_true_eq]
  omega

theorem record_hash (f : Shard.CreateFields) (found : Option Shard.Mailbox) (t : ℕ) :
    (f.record found t).readSecretHash = f.readSecretHash.lower := by
  cases found with
  | none => rfl
  | some m => rfl

/-- **One request.**  A mailbox that is held for its owner stays so. -/
theorem Grants.step (h : Grants id hash due kv)
    (hlife : env.cfg.mailboxTtlSeconds.toInt? = some life) {e : ℕ × Shard.Request}
    (hlater : (due : ℤ) ≤ e.1 + 1000 * life) (hdue : e.1 < due) (hrenews : Renews env id hash kv e) :
    Grants id hash due (Shard.step env e kv) := by
  obtain ⟨t, rq⟩ := e
  unfold Renews at hrenews
  unfold Shard.step
  dsimp only at hlater hdue hrenews ⊢
  by_cases htarget : rq.target = some id
  swap
  · exact h.same (Shard.handle_frame env t kv htarget)
  obtain ⟨m, hfound, hhash⟩ := h.found hdue
  have hmoves := Shard.handle_moves env t kv rq
  generalize Shard.handle env t rq kv = p at hmoves hrenews ⊢
  obtain ⟨r, kv'⟩ := p
  cases hmoves with
  | idle _ _ hsame => exact h.same (hsame id)
  | @create rq f _ _ hf _ hwrote =>
    obtain rfl := Option.some.inj ((Shard.createFields_target hf).symm.trans htarget)
    refine grants_wrote hlife hlater hwrote ?_
    rw [record_hash]
    exact hrenews rq f rfl hf rfl rfl
  | send hf hm _ _ hwrote =>
    obtain rfl := Option.some.inj ((Shard.sendFields_target hf).symm.trans htarget)
    obtain rfl := Option.some.inj (hm.symm.trans hfound)
    exact grants_wrote hlife hlater hwrote ((Shard.cleared_hash _ _ t).trans hhash)
  | read hf hm _ _ hwrote =>
    obtain rfl := Option.some.inj ((Shard.readFields_target hf).symm.trans htarget)
    obtain rfl := Option.some.inj (hm.symm.trans hfound)
    exact grants_wrote hlife hlater hwrote ((Shard.afterRead_hash _ _ t _).trans hhash)
  | @replicate _ f _ hf _ _ hwrote =>
    obtain rfl := Option.some.inj ((Shard.replicateFields_target hf).symm.trans htarget)
    refine grants_wrote hlife hlater hwrote ?_
    rw [hfound]
    exact hhash

/-- A request behind nothing but a rate limit is turned away, or its action runs on the
    mailboxes as they are. -/
theorem limited_cases {α : Type} (env : Shard.Env) {c : Check Shard.Response α} {a : α}
    (hc : c = .ok a) {bucket message : JString} {limit : Number}
    (act : α → Shard.M Shard.Response) (rq : Shard.Request) (hfetch : Shard.fetch env rq =
      guarded c fun a => gated (Shard.limited bucket limit message (.ret none)) (act a)) :
    (Shard.handle env t rq kv).1.status = 429 ∨ ∃ kv₁, Shard.SameMailboxes kv kv₁ ∧
      (Shard.handle env t rq kv).1 =
        ((act a).run (KvOp.exec t (Shard.services env.crypto)) (kv₁, [])).1.getD Shard.crashed := by
  subst hc
  unfold Shard.handle Shard.runAt
  simp only [hfetch, guarded, gated, Prog.bind_eq, Prog.run_bind, Shard.limited_run]
  by_cases hfull : limit.le (.ofInt (Shard.bucketCount kv t bucket)) = true
  · rw [if_pos hfull]
    exact Or.inl rfl
  · rw [if_neg hfull]
    refine Or.inr ⟨_, fun id => ?_, rfl⟩
    exact Store.put_other kv t (by simp) _ _

/-- **A read.**  The secret decides, unless too many reads come from one address. -/
theorem Grants.read (h : Grants id hash due kv) (ht : t < due)
    (hlife : env.cfg.mailboxTtlSeconds.toInt? = some life) {rq : Shard.ReadRequest}
    {f : Shard.ReadFields} (hf : Shard.readFields rq = .ok f) (hid : f.mailboxId.lower = id) :
    (Shard.handle env t (.read rq) kv).1.status = 429 ∨
    (Shard.handle env t (.read rq) kv).1.status =
      if Shard.constantTimeEqual (env.crypto.sha256Hex f.readSecret) hash then 200 else 401 := by
  subst hid
  obtain ⟨m, hfound, rfl⟩ := h.found ht
  rcases limited_cases env hf (Shard.readMailbox env rq) (.read rq) rfl with
    hlimited | ⟨kv₁, hsame, hrun⟩
  · exact Or.inl hlimited
  · right
    rw [hrun]
    have hfound₁ := (Store.get_congr (hsame f.mailboxId.lower) t).trans hfound
    cases hsecret : Shard.constantTimeEqual (env.crypto.sha256Hex f.readSecret)
      m.readSecretHash with
    | false =>
      rw [Shard.readMailbox_run_wrong kv₁ [] rq f hfound₁ hsecret]
      rfl
    | true =>
      obtain ⟨r, s', hread, hbare, -⟩ := Shard.readMailbox_run kv₁ [] hlife rq f hfound₁ hsecret
      rw [hread]
      exact congrArg Shard.Response.status hbare

/-- The mailbox is found. -/
theorem Grants.exists_ (h : Grants id hash due kv) (ht : t < due) {rq : Shard.ExistsRequest}
    {mailboxId : HexStr 16 128} (hf : Shard.existsFields rq = .ok mailboxId)
    (hid : mailboxId.lower = id) :
    (Shard.handle env t (.exists_ rq) kv).1.status = 429 ∨
    (Shard.handle env t (.exists_ rq) kv).1.status = 200 := by
  subst hid
  obtain ⟨m, hfound, -⟩ := h.found ht
  rcases limited_cases env hf Shard.existsMailbox (.exists_ rq) rfl with
    hlimited | ⟨kv₁, hsame, hrun⟩
  · exact Or.inl hlimited
  · right
    rw [hrun, Shard.existsMailbox_run kv₁ [] env t mailboxId,
      (Store.get_congr (hsame mailboxId.lower) t).trans hfound]
    rfl

end

/-! ## The shards of a registration -/

section

variable (env : Router.Env) (t₀ : ℕ) {rq : Router.RegisterRequest} (pubkey : HexStr 64 64)
  (replicas : List JString)

/-- The `/create` of a registration writes the record of its mailbox, or no mailbox. -/
theorem create_cases (hnonce : rq.capNonce.length = 16) (n : Node) (t : ℕ) (ip : Option JString) :
    let body := Router.createBody env t₀ rq pubkey replicas
    (∃ m, Shard.Wrote n.env t n.kv body.mailboxId m (n.create body t ip).2.kv ∧
        m.readSecretHash = body.readSecretHash) ∨
      (n.create body t ip).1.status ≠ 200 ∧ Shard.SameMailboxes n.kv (n.create body t ip).2.kv := by
  intro body
  have hne : rq.capNonce ≠ [] := by
    intro h
    rw [h] at hnonce
    cases hnonce
  have hmoves := Shard.handle_moves n.env t n.kv (.create ⟨ip, some body.toJson⟩)
  rw [create_received env t₀ rq pubkey replicas n t ip]
  dsimp only
  generalize Shard.handle n.env t (.create ⟨ip, some body.toJson⟩) n.kv = p at hmoves ⊢
  obtain ⟨r, kv'⟩ := p
  cases hmoves with
  | idle _ hstatus hsame =>
    refine Or.inr ⟨fun h => ?_, hsame⟩
    exact absurd (hstatus h) (by simp [Shard.Request.inert])
  | @create _ f _ _ hf _ hwrote =>
    have hfields : Shard.createFields (some body.toJson) =
        .ok (Combined.bodyFields env t₀ rq pubkey replicas) :=
      Combined.createFields_createBody hne
    obtain rfl := Except.ok.inj (hf.symm.trans hfields)
    have hid : (Combined.bodyFields env t₀ rq pubkey replicas).mailboxId.lower = body.mailboxId :=
      env.crypto.toLowerCase_hmacHex _ _
    have hsecret : (Combined.bodyFields env t₀ rq pubkey replicas).readSecretHash.lower =
        body.readSecretHash := toLowerCase_bytesToHex _
    rw [hid] at hwrote
    exact Or.inl ⟨_, hwrote, (record_hash _ _ t).trans hsecret⟩

variable {env t₀ pubkey replicas}

/-- A shard that holds the mailbox for the owner still does after the `/create`, and one that
    takes it does from then on. -/
theorem create_grants (hnonce : rq.capNonce.length = 16) {n : Node} {t : ℕ} {ip : Option JString}
    {life : ℤ} (hlife : n.env.cfg.mailboxTtlSeconds.toInt? = some life) {due : ℕ}
    (hdue : (due : ℤ) ≤ t + 1000 * life) :
    let body := Router.createBody env t₀ rq pubkey replicas
    (n.create body t ip).1.status = 200 ∨ Grants body.mailboxId body.readSecretHash due n.kv →
      Grants body.mailboxId body.readSecretHash due (n.create body t ip).2.kv := by
  intro body h
  rcases create_cases env t₀ pubkey replicas hnonce n t ip with ⟨m, hwrote, hhash⟩ | ⟨hstatus, hsame⟩
  · exact grants_wrote hlife hdue hwrote hhash
  · rcases h with h | h
    · exact absurd h hstatus
    · exact h.same (hsame _)

end

/-- The instant at which a shard handles its request. -/
def Fate.At : Fate → ℕ → Prop
  | .lost, _ => False
  | .unheard t _, t' | .heard t _, t' => t = t'

section

variable (N : Net) {env : Router.Env} {t₀ : ℕ} {rq : Router.RegisterRequest} {pubkey : HexStr 64 64}
  {replicas : List JString} {life : ℤ} {due : ℕ} {url : JString}

/-- The shard has the lifetime, and handles its request no later than the mailbox is due. -/
structure Lasts (n : Node) (url : JString) (life : ℤ) (due : ℕ) : Prop where
  ttl : n.env.cfg.mailboxTtlSeconds.toInt? = some life
  handled : ∀ t, (N.fate url).At t → (due : ℤ) ≤ t + 1000 * life

theorem post_env (body : Router.CreateBody) (n : Node) : (N.post body url n).2.env = n.env := by
  unfold Net.post
  cases N.fate url with
  | lost => rfl
  | unheard t ip => rfl
  | heard t ip => rfl

theorem post_grants (hnonce : rq.capNonce.length = 16) {n : Node} (hlasts : Lasts N n url life due) :
    let body := Router.createBody env t₀ rq pubkey replicas
    N.Takes body url n ∨ Grants body.mailboxId body.readSecretHash due n.kv →
      Grants body.mailboxId body.readSecretHash due (N.post body url n).2.kv := by
  intro body h
  have hdue := hlasts.handled
  unfold Net.Takes at h
  unfold Net.post
  cases hfate : N.fate url with
  | lost =>
    rw [hfate] at h
    rcases h with h | h
    · exact h.elim
    · exact h
  | unheard t ip =>
    rw [hfate] at h hdue
    exact create_grants hnonce hlasts.ttl (hdue t rfl) h
  | heard t ip =>
    rw [hfate] at h hdue
    exact create_grants hnonce hlasts.ttl (hdue t rfl) h

/-- **All shards are asked.**  One that takes the body holds the mailbox for the owner. -/
theorem postAll_grants (hnonce : rq.capNonce.length = 16) (urls : List JString) {s : Shards}
    (hlasts : Lasts N (s url) url life due) :
    let body := Router.createBody env t₀ rq pubkey replicas
    url ∈ urls ∧ N.Takes body url (s url) ∨
        Grants body.mailboxId body.readSecretHash due (s url).kv →
      Grants body.mailboxId body.readSecretHash due ((N.postAll body urls s).2 url).kv := by
  intro body
  induction urls generalizing s with
  | nil =>
    rintro (⟨hmem, -⟩ | h)
    · cases hmem
    · exact h
  | cons u urls ih =>
    intro h
    rw [postAll_cons]
    by_cases hu : url = u
    · subst hu
      refine ih ?_ (Or.inr ?_)
      · rw [asked_same]
        exact ⟨(congrArg (fun env => env.cfg.mailboxTtlSeconds.toInt?) (post_env N body _)).trans
          hlasts.ttl, hlasts.handled⟩
      · rw [asked_same]
        exact post_grants N hnonce hlasts (h.imp_left And.right)
    · have hother : N.asked body u s url = s url := asked_other s hu
      rw [← hother] at h hlasts
      refine ih hlasts (h.imp_left fun ⟨hmem, htakes⟩ => ⟨?_, htakes⟩)
      rcases List.mem_cons.1 hmem with rfl | hmem
      · exact absurd rfl hu
      · exact hmem

theorem postAll_env (body : Router.CreateBody) (urls : List JString) (s : Shards) (url : JString) :
    ((N.postAll body urls s).2 url).env = (s url).env := by
  induction urls generalizing s with
  | nil => rfl
  | cons u urls ih =>
    rw [postAll_cons, ih]
    by_cases hu : url = u
    · subst hu
      rw [asked_same, post_env]
    · rw [asked_other s hu]

end

/-! ## From a registration to its end -/

/-- A shard finds the mailbox of a registration, and opens it with its secret only, unless too
    many requests come from one address. -/
structure Opens (env : Shard.Env) (kv : Shard.Kv) (reg : Router.Registration) (t : ℕ) : Prop where
  found : ∀ rq mailboxId, Shard.existsFields rq = .ok mailboxId →
    mailboxId.lower = reg.mailboxId →
    (Shard.handle env t (.exists_ rq) kv).1.status = 429 ∨
      (Shard.handle env t (.exists_ rq) kv).1.status = 200
  read : ∀ rq f, Shard.readFields rq = .ok f → f.mailboxId.lower = reg.mailboxId →
    (Shard.handle env t (.read rq) kv).1.status = 429 ∨
      (Shard.handle env t (.read rq) kv).1.status =
        if env.crypto.sha256Hex f.readSecret = env.crypto.sha256Hex reg.readSecret then 200 else 401

/-- A request after the registration and before its end, that brings no other secret. -/
def Meanwhile (env : Shard.Env) (reg : Router.Registration) (start : ℕ) (kv : Shard.Kv)
    (e : ℕ × Shard.Request) : Prop :=
  (start ≤ e.1 ∧ e.1 < reg.expiresAt) ∧
    Renews env reg.mailboxId (env.crypto.sha256Hex reg.readSecret) kv e

theorem sha256Hex_compare (c : Crypto) (s secret : JString) :
    Shard.constantTimeEqual (c.sha256Hex s) (c.sha256Hex secret) = true ↔
      c.sha256Hex s = c.sha256Hex secret := by
  rw [Shard.constantTimeEqual_iff]
  refine ⟨fun h => encode_eq_ascii (ascii_of_isHexOf (c.isHexOf_sha256Hex secret)) h, ?_⟩
  intro h
  rw [h]

section

variable {env : Shard.Env} {kv : Shard.Kv} {reg : Router.Registration} {life : ℤ}

theorem Grants.opens {t : ℕ} (hlife : env.cfg.mailboxTtlSeconds.toInt? = some life)
    (ht : t < reg.expiresAt)
    (h : Grants reg.mailboxId (env.crypto.sha256Hex reg.readSecret) reg.expiresAt kv) :
    Opens env kv reg t where
  found rq mailboxId hf hid := h.exists_ ht hf hid
  read rq f hf hid := by
    rcases h.read ht hlife hf hid with hslow | hread
    · exact Or.inl hslow
    · right
      rw [hread]
      exact if_congr (sha256Hex_compare env.crypto _ _) rfl rfl

/-- Requests up to the end of the registration leave the record alive. -/
theorem Grants.meanwhile {start : ℕ} (hlife : env.cfg.mailboxTtlSeconds.toInt? = some life)
    (hend : (reg.expiresAt : ℤ) ≤ start + 1000 * life)
    (h : Grants reg.mailboxId (env.crypto.sha256Hex reg.readSecret) reg.expiresAt kv)
    {run : List (ℕ × Shard.Request)}
    (hrun : Always (Shard.step env) (Meanwhile env reg start) kv run) :
    Grants reg.mailboxId (env.crypto.sha256Hex reg.readSecret) reg.expiresAt
      (Runs.after (Shard.step env) kv run) := by
  refine Always.inv (I := Grants reg.mailboxId (env.crypto.sha256Hex reg.readSecret) reg.expiresAt)
    (fun kv e hkv he => ?_) h hrun
  obtain ⟨⟨hstart, hdue⟩, hrenews⟩ := he
  exact hkv.step hlife (by omega) hdue hrenews

end

section

variable (N : Net) (env : Router.Env) (c : Call) {kv : Router.Kv} {s : Shards}

/-- A shard whose success arrives takes the body. -/
theorem takes_of_ok {body : Router.CreateBody} {url : JString} {n : Node}
    (h : (N.post body url n).1.ok = true) : N.Takes body url n := by
  unfold Net.post at h
  unfold Net.Takes
  cases hfate : N.fate url with
  | lost =>
    rw [hfate] at h
    cases h
  | unheard t ip =>
    rw [hfate] at h
    cases h
  | heard t ip =>
    rw [hfate] at h
    exact create_ok n body t ip h

/-- **A registration that succeeds.**  Its answer names the body that the shards of its key were
    asked to create, and the first of them took it. -/
theorem register_succeeds (hd : Router.Durable kv) (h : Router.shardUrlsOf env kv ≠ [])
    (hsuccess : (N.register env c.t c.rq (kv, s)).1.status = 200) :
    let replicas := homes env h c.pubkey
    ∃ reg, (N.register env c.t c.rq (kv, s)).1.body = .registered reg ∧
      Promises c.rq (c.body env h) replicas reg ∧ N.Takes (c.body env h) reg.shardUrl (s reg.shardUrl) ∧
      (N.register env c.t c.rq (kv, s)).2.2 = (N.postAll (c.body env h) replicas s).2 := by
  intro replicas
  by_cases hadmitted : ∃ f pubkey, Admitted env c.t c.rq f pubkey
  swap
  · have hnone : ∀ f pubkey, ¬ Admitted env c.t c.rq f pubkey :=
      fun f pubkey h => hadmitted ⟨f, pubkey, h⟩
    obtain ⟨o, hrun, hstatus⟩ :=
      handleRegister_refused N env c.t kv s c.rq (Router.Era.current h) hnone
    rw [register_eq N env c.t kv s c.rq hd h, hrun] at hsuccess
    exact absurd hsuccess hstatus
  obtain ⟨f, pubkey, hadmitted⟩ := hadmitted
  obtain rfl : pubkey = c.pubkey :=
    Option.some.inj (hadmitted.toRegisters.registrant.symm.trans c.own)
  obtain ⟨hstate, hstatus⟩ := register_admitted N env c.t c.rq kv s hadmitted hd h
  obtain ⟨⟨url, hurl, hok⟩, -⟩ := hstatus.1 hsuccess
  have hanswer := register_eq N env c.t kv s c.rq hd h
  rw [handleRegister_admitted N env c.t kv s hadmitted] at hanswer
  rcases hrun : (Router.register env c.rq f (Router.Era.current h)).run
    (KvOp.exec c.t (N.services env.crypto)) (kv, s) with ⟨_ | r, x⟩
  · rw [hanswer, hrun] at hsuccess
    exact absurd hsuccess (show (500 : ℕ) ≠ 200 by decide)
  · rw [hanswer, hrun] at hsuccess
    obtain ⟨reg, hbody, htold⟩ := register_told N env c.t hadmitted.text _ hrun hsuccess
    obtain rfl : reg.shardUrl = url := Option.some.inj (htold.shardUrl.symm.trans hurl)
    refine ⟨reg, ?_, htold, takes_of_ok N hok, congrArg Prod.snd hstate⟩
    rw [hanswer, hrun]
    exact hbody

/-- **The owner reads.**  Take a `/register` that succeeds, whatever becomes of its requests.
    From then to its `expires_at`, every shard that took it finds the mailbox and opens it with
    the secret of the answer and no other, whatever the shard was asked in the meantime, as long
    as no other `/create` for the mailbox brought another secret.  The first shard took it. -/
theorem owner_reads (hd : Router.Durable kv) (h : Router.shardUrlsOf env kv ≠ [])
    (hcrypto : ∀ url, (s url).env.crypto = env.crypto)
    (hsuccess : (N.register env c.t c.rq (kv, s)).1.status = 200) :
    ∃ reg, (N.register env c.t c.rq (kv, s)).1.body = .registered reg ∧
      reg.readSecret = c.secret ∧ reg.expiresAt = c.t + 31536000 * 1000 ∧
      reg.shardUrl ∈ reg.replicaShardUrls ∧ N.Takes (c.body env h) reg.shardUrl (s reg.shardUrl) ∧
      ∀ url ∈ reg.replicaShardUrls, N.Takes (c.body env h) url (s url) →
        (∀ t, (N.fate url).At t → c.t ≤ t) →
        ∀ life, (s url).env.cfg.mailboxTtlSeconds.toInt? = some life → 31536000 ≤ life →
          let n := (N.register env c.t c.rq (kv, s)).2.2 url
          ∀ run, Always (Shard.step n.env) (Meanwhile n.env reg c.t) n.kv run →
            ∀ t, t < reg.expiresAt → Opens n.env (after (Shard.step n.env) n.kv run) reg t := by
  obtain ⟨reg, hbody, htold, htakes, hnodes⟩ := register_succeeds N env c hd h hsuccess
  have hexpires : reg.expiresAt = c.t + 31536000 * 1000 := htold.expiresAt
  refine ⟨reg, hbody, htold.readSecret, hexpires, ?_, htakes, ?_⟩
  · rw [htold.replicas]
    exact List.mem_of_mem_head? htold.shardUrl
  intro url hurl htaken hfate life hlife hlong n run hrun t ht
  rw [htold.replicas] at hurl
  have hn : n = (N.postAll (c.body env h) (homes env h c.pubkey) s).2 url := congrFun hnodes url
  have henv : n.env = (s url).env := by rw [hn, postAll_env]
  have hlasts : Lasts N (s url) url life reg.expiresAt := by
    refine ⟨hlife, fun t ht => ?_⟩
    have := hfate t ht
    omega
  have hgrants : Grants (c.body env h).mailboxId (c.body env h).readSecretHash reg.expiresAt
      n.kv := by
    rw [hn]
    exact postAll_grants N c.nonce _ hlasts (Or.inl ⟨hurl, htaken⟩)
  have hhash : (c.body env h).readSecretHash = n.env.crypto.sha256Hex reg.readSecret := by
    rw [henv, hcrypto, htold.readSecret]
    rfl
  rw [← htold.mailboxId, hhash] at hgrants
  rw [← henv] at hlife
  exact (hgrants.meanwhile hlife (by omega) hrun).opens hlife ht

end

/-- A network where every request arrives, and is answered in time. -/
def prompt : Net where
  fate _ := .heard 0 none
  fault := []
  text _ := []

/-- A shard on the platform of `twoShards`. -/
def sameCrypto : Node :=
  { registered with env := { Shard.trustingEnv {} with crypto := twoShards.crypto } }

theorem zeroCall_admitted : Admitted twoShards 0 (zeroCall 7).rq zeroFields Router.zeroKey where
  fields := rfl
  text := rfl
  signed := rfl
  skew := by decide +kernel

theorem zeroCall_succeeds :
    (prompt.register twoShards 0 (zeroCall 7).rq (fun _ => none, fun _ => sameCrypto)).1.status =
      200 := by
  refine (register_admitted prompt twoShards 0 (zeroCall 7).rq (fun _ => none)
    (fun _ => sameCrypto) zeroCall_admitted twoShards_durable twoShards_urls).2.2 ⟨?_, ?_⟩
  · rw [twoShards_replicas]
    refine ⟨js "http://b", rfl, ?_⟩
    show Combined.respOk (sameCrypto.create _ 0 none).1 = true
    rw [create_received]
    decide +kernel
  · rintro id h
    cases h

/-- The mailbox is asked for, then it is opened with the secret of the answer. -/
theorem zeroCall_opens :
    ∃ reg, (prompt.register twoShards 0 (zeroCall 7).rq (fun _ => none,
        fun _ => sameCrypto)).1.body = .registered reg ∧ reg.readSecret = (zeroCall 7).secret ∧
      let n := (prompt.register twoShards 0 (zeroCall 7).rq (fun _ => none,
        fun _ => sameCrypto)).2.2 reg.shardUrl
      Opens n.env (Shard.step n.env (1, .exists_ ⟨none, some reg.mailboxId⟩) n.kv) reg 2 := by
  obtain ⟨reg, hbody, hsecret, hexpires, hurl, htakes, hopens⟩ :=
    owner_reads prompt twoShards (zeroCall 7) twoShards_durable twoShards_urls (fun _ => rfl)
      zeroCall_succeeds
  have hend : reg.expiresAt = 31536000000 := hexpires
  refine ⟨reg, hbody, hsecret, ?_⟩
  refine hopens reg.shardUrl hurl htakes (fun t _ => Nat.zero_le t) 31536000 rfl le_rfl
    [(1, .exists_ ⟨none, some reg.mailboxId⟩)] ⟨⟨⟨Nat.zero_le _, ?_⟩, ?_⟩, trivial⟩ 2 ?_
  · rw [hend]
    exact show 1 < 31536000000 by omega
  · rintro _ _ ⟨⟩
  · rw [hend]
    omega

end Agreement
