/-
  The registrations of a run.

  * `Placement` is a registration that created a mailbox or answered success: the
    key and the shard count that placed it.  `Log` adds the placements of a run,
    the latest first, to the state of the Router;
  * `register_cases` says what a request to `/register` leaves behind, and
    `created_of_other` that the other requests create nothing;
  * `Era.shard_extend` and `hit_extend`: when the shard list grows at its end,
    an era keeps its shards.
-/
import NexTalkRelay.Router.Calls
import NexTalkRelay.Router.Placement
import NexTalkRelay.Router.Ring

open Effect Js Runs

namespace Router

/-! ## Placements -/

/-- The key of a well-formed registration. -/
def registrant (rq : RegisterRequest) : Option (HexStr 64 64) :=
  match registerFields rq.body with
  | .ok f => f.pubkey.str?
  | .error _ => none

/-- A registration that reached the shards. -/
structure Placement where
  pubkey : HexStr 64 64
  /-- The number of shards when the mailbox was placed. -/
  count : ℕ
  /-- `/register` answered success. -/
  confirmed : Bool
deriving DecidableEq

/-- What a request to `/register` adds to the history. -/
def placement (env : Env) (answer : JString → CreateBody → Created) (t : ℕ) (rq : RegisterRequest)
    (s : State) : Option Placement :=
  let r := handle env answer t (.register rq) s
  match registrant rq with
  | none => none
  | some pubkey =>
    if r.1.status = 200 ∨ r.2.2.created.length ≠ s.2.created.length then
      some { pubkey, count := (shardUrlsOf env s.1).length, confirmed := r.1.status == 200 }
    else none

/-- The state, and the registrations so far. -/
structure Log where
  state : State
  placements : List Placement := []

/-- A request and what it adds to the history. -/
def Log.handle (env : Env) (answer : JString → CreateBody → Created) (e : ℕ × Request) (L : Log) :
    Log where
  state := (Router.handle env answer e.1 e.2 L.state).2
  placements := match e.2 with
    | .register rq => (placement env answer e.1 rq L.state).toList ++ L.placements
    | _ => L.placements

theorem Log.handle_register (env : Env) (answer : JString → CreateBody → Created) (t : ℕ)
    (rq : RegisterRequest) (L : Log) :
    L.handle env answer (t, .register rq) =
      { state := (Router.handle env answer t (.register rq) L.state).2
        placements := (placement env answer t rq L.state).toList ++ L.placements } := rfl

/-- A request other than `/register` adds nothing. -/
theorem Log.handle_other (env : Env) (answer : JString → CreateBody → Created) (t : ℕ)
    {rq : Request} (hrq : ∀ r, rq ≠ .register r) (L : Log) :
    L.handle env answer (t, rq) =
      { state := (Router.handle env answer t rq L.state).2, placements := L.placements } := by
  cases rq with
  | register r => exact absurd rfl (hrq r)
  | _ => rfl

/-- An event and what it adds to the history. -/
def Log.step (env : Env) (answer : JString → CreateBody → Created) (e : Event) (L : Log) : Log :=
  match e with
  | .request t rq => L.handle env answer (t, rq)
  | e => { L with state := e.apply env answer L.state }

/-! ## What a request creates -/

/-- A success was taken by the first replica. -/
theorem Delivered.accepted {env : Env} {answer : JString → CreateBody → Created} {t : ℕ}
    {w w' : World} {rq : RegisterRequest} {f : RegisterFields} {pubkey : HexStr 64 64}
    {replicas : List JString} {o : Option Response}
    (h : Delivered env answer t w rq f pubkey replicas w' o) (ho : (o.getD crashed).status = 200) :
    ∃ shardUrl ∈ replicas.head?, (answer shardUrl (createBody env t rq pubkey replicas)).ok = true := by
  cases o with
  | none => exact absurd ho (show (500 : ℕ) ≠ 200 by decide)
  | some r => exact h.success r rfl ho

section
variable (env : Env) (answer : JString → CreateBody → Created) (t : ℕ)

theorem registerFields_answers (body : Option Json) :
    (registerFields body).Answers fun r => r.status = 400 := by
  set Q : Response → Prop := fun r => r.status = 400
  have hbad (message : JString) : Q (jsonErr message 400) := rfl
  refine (Check.answers_orAnswer (hbad _) _).bind fun body => ?_
  refine (testedField_answers (hbad _) _ _).bind fun pubkey => ?_
  refine (testedField_answers (hbad _) _ _).bind fun timestamp => ?_
  exact (testedField_answers (hbad _) _ _).bind fun signature => Check.answers_ok _ _

/-- A well-formed registration of the key, signed by it. -/
structure Registers (rq : RegisterRequest) (f : RegisterFields) (pubkey : HexStr 64 64) : Prop where
  fields : registerFields rq.body = .ok f
  text : f.pubkey.str? = some pubkey
  signed : verifyEd25519 env.crypto pubkey (registerMessage f pubkey) f.signature = true

theorem Registers.registrant {rq : RegisterRequest} {f : RegisterFields} {pubkey : HexStr 64 64}
    (h : Registers env rq f pubkey) : registrant rq = some pubkey := by
  unfold Router.registrant
  rw [h.fields]
  exact h.text

/-- The gate changes nothing; it refuses with a `401`, and lets only a key pass
    that signed the registration. -/
theorem registerGate_run (kv : Kv) (w : World) (f : RegisterFields) :
    ∃ o, (registerGate env f).run (KvOp.exec t (services env.crypto answer)) (kv, w) = (o, (kv, w)) ∧
      (∀ r, o = some (some r) → r.status = 401) ∧
      (o = some none → ∃ pubkey, f.pubkey.str? = some pubkey ∧
        verifyEd25519 env.crypto pubkey (registerMessage f pubkey) f.signature = true) := by
  simp only [registerGate, dateNow, Prog.bind_eq, Prog.perform_bind, KvOp.run_now]
  split
  · exact ⟨_, rfl, by rintro r ⟨⟩; rfl, by simp⟩
  · cases f.pubkey.str? with
    | none => exact ⟨none, rfl, by simp, by simp⟩
    | some pubkey =>
      dsimp only
      split
      · exact ⟨_, rfl, by rintro r ⟨⟩; rfl, by simp⟩
      · next h => exact ⟨_, rfl, by simp, fun _ => ⟨pubkey, rfl, by simpa using h⟩⟩

/-- A registration does nothing and is no success, or passes its gate. -/
theorem handleRegister_run (kv : Kv) (w : World) (rq : RegisterRequest) {urls : List JString}
    (current : Era urls) :
    ∃ o w', (handleRegister env rq current).run (KvOp.exec t (services env.crypto answer)) (kv, w) =
        (o, (kv, w')) ∧
      (w' = w ∧ (∀ r ∈ o, r.status ≠ 200) ∨ ∃ f pubkey, Registers env rq f pubkey ∧
        Delivered env answer t w rq f pubkey (replicasOf env pubkey current) w' o) := by
  unfold handleRegister guarded gated
  cases hf : registerFields rq.body with
  | error e =>
    cases e with
    | answer r =>
      have hr : r.status = 400 := registerFields_answers rq.body r hf
      exact ⟨some r, w, rfl, Or.inl ⟨rfl, by rintro _ ⟨⟩; omega⟩⟩
    | crash => exact ⟨none, w, rfl, Or.inl ⟨rfl, nofun⟩⟩
  | ok f =>
    obtain ⟨o, hgate, hrefuse, hpass⟩ := registerGate_run env answer t kv w f
    dsimp only
    rw [Prog.bind_eq, Prog.run_bind, hgate]
    rcases o with _ | _ | r
    · exact ⟨none, w, rfl, Or.inl ⟨rfl, nofun⟩⟩
    · obtain ⟨pubkey, hpk, hsigned⟩ := hpass rfl
      obtain ⟨o, w', hrun, hdelivered⟩ := register_run env answer t kv w rq hpk current
      exact ⟨o, w', hrun, Or.inr ⟨f, pubkey, ⟨hf, hpk, hsigned⟩, hdelivered⟩⟩
    · have hr := hrefuse r rfl
      exact ⟨some r, w, rfl, Or.inl ⟨rfl, by rintro _ ⟨⟩; omega⟩⟩

/-- **Step lemma for `/register`.** -/
theorem register_cases {s : State} (hd : Durable s.1) (hne : shardUrlsOf env s.1 ≠ [])
    (rq : RegisterRequest) :
    ((handle env answer t (.register rq) s).2.2 = s.2 ∧
        (handle env answer t (.register rq) s).1.status ≠ 200) ∨
      ∃ f pubkey o, Registers env rq f pubkey ∧
        (handle env answer t (.register rq) s).1 = o.getD crashed ∧
        Delivered env answer t s.2 rq f pubkey (replicasOf env pubkey (Era.current hne))
          (handle env answer t (.register rq) s).2.2 o := by
  obtain ⟨kv, w⟩ := s
  obtain ⟨o, w', hrun, hcases⟩ := handleRegister_run env answer t kv w rq (Era.current hne)
  rw [handle_eq hd hne]
  simp only [serve, hrun]
  rcases hcases with ⟨rfl, hstatus⟩ | ⟨f, pubkey, hreg, hdelivered⟩
  · refine Or.inl ⟨rfl, ?_⟩
    cases o with
    | none => exact show (500 : ℕ) ≠ 200 by decide
    | some r => exact hstatus r rfl
  · exact Or.inr ⟨f, pubkey, o, hreg, rfl, hdelivered⟩

/-- Requests other than `/register` create nothing. -/
theorem created_of_other {s : State} (hd : Durable s.1) {rq : Request}
    (hrq : ∀ r, rq ≠ .register r) :
    (handle env answer t rq s).2.2.created = s.2.created := by
  by_cases hne : shardUrlsOf env s.1 = []
  · rw [handle_empty hd hne]
  rw [handle_eq hd hne]
  refine KvOp.run_calls (I := fun w : World => w.created = s.2.created) (fun e w he hw => ?_)
    (serve_creates_nothing env (Era.current hne) hrq) t rfl
  cases e with
  | sign site key message => exact hw
  | create url body => exact he.elim
  | exists_ url mailboxId => exact hw

end

/-! ## Growth -/

/-- The same count over a longer list. -/
def Era.extend {urls urls' : List JString} (h : urls <+: urls') (n : Era urls) : Era urls' :=
  ⟨n.1, n.2.1, n.2.2.trans h.length_le⟩

theorem Era.shard_extend {urls urls' : List JString} (h : urls <+: urls') (n : Era urls) (i : ℕ) :
    (n.extend h).shard i = n.shard i := by
  have hlt : i % n.1 < urls.length := (Nat.mod_lt i n.2.1).trans_le n.2.2
  have hsame : urls[i % n.1]? = urls'[i % n.1]? := by
    obtain ⟨rest, rfl⟩ := h
    rw [List.getElem?_append_left hlt]
  have hget : urls'[i % n.1]? = some ((n.extend h).shard i) := (n.extend h).getElem?_shard i
  rw [← hsame, n.getElem?_shard i] at hget
  exact (Option.some.inj hget).symm

section
variable {env : Env}

theorem hit_lower {pubkey pubkey' : HexStr 64 64} (h : pubkey.lower = pubkey'.lower) (w : World)
    {urls : List JString} (n : Era urls) : hit env pubkey w n = hit env pubkey' w n := by
  unfold hit replicasForEra mailboxIdOf
  rw [show toLowerCase pubkey.1 = toLowerCase pubkey'.1 from h, h]

theorem hit_extend (pubkey : HexStr 64 64) (w : World) {urls urls' : List JString}
    (h : urls <+: urls') (n : Era urls) : hit env pubkey w (n.extend h) = hit env pubkey w n := by
  unfold hit replicasForEra replicaSetForEra
  simp only [Era.shard_extend]
  rfl

theorem hit_mono {pubkey : HexStr 64 64} {w w' : World} (h : ∀ p ∈ w.created, p ∈ w'.created)
    {urls : List JString} {n : Era urls} (hn : hit env pubkey w n = true) :
    hit env pubkey w' n = true := by
  unfold hit at hn ⊢
  cases hh : (replicasForEra env.crypto pubkey.1 n (replicationFactor env n.1)).head? with
  | none => rw [hh] at hn; cases hn
  | some url =>
    rw [hh] at hn
    obtain ⟨body, hm, hid⟩ := World.holds_iff.1 hn
    exact World.holds_iff.2 ⟨body, h _ hm, hid⟩

end

/-! ## A key -/

/-- The key `00…0`. -/
def zeroKey : HexStr 64 64 := ⟨List.replicate 64 48, by decide⟩

/-- A Router whose platform gives every text the SHA-256 digest of the text of
    `zeroKey`, and asks for no work. -/
def zeroEnv : Env where
  serverSecret := js "s"
  routerSigningKey := js "k"
  routerSigningPublic := js "p"
  isSet := meshEnv.isSet
  shardUrls := [js "http://a"]
  shardPowDifficultyBits := .ofInt 0
  crypto :=
    { Crypto.trusting with
      sha256 := fun _ => ⟨[0x60, 0xe0, 0x5b, 0xd1, 0xb1, 0x95, 0xaf, 0x2f, 0x94, 0x11, 0x2f, 0xa7, 0x19, 0x7a, 0x5c, 0x88,
        0x28, 0x90, 0x58, 0x84, 0x0c, 0xe7, 0xc6, 0xdf, 0x96, 0x93, 0x75, 0x6b, 0xc6, 0x25, 0x0f, 0x55], rfl⟩ }

/-- The same Router with the count of one shard in its configuration. -/
def recordingEnv : Env := { zeroEnv with priorShardCounts := [.num (.ofInt 1)] }

/-- A registration of the key `00…0` at the instant 0. -/
def zeroRegistration : RegisterRequest where
  body := some (.obj [(js "pubkey", .str zeroKey.1), (js "timestamp", .str (js "0")),
    (js "signature", .str (List.replicate 128 48))])
  readSecret := []
  capNonce := []

end Router
