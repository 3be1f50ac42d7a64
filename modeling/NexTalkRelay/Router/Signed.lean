/-
  What the Router signs, and what it asks the shards to create.

  * `MaySign` lists the texts that a request may have signed, and `Posts` the
    bodies that it may post;
  * `run_signed` and `run_posted`: over a run, every text and every body comes
    from a request of the run.
-/
import NexTalkRelay.Router.History

open Effect Js Runs

namespace Router

/-- A text that the request may have signed, by the function that signs it. -/
def MaySign (env : Env) (t : ℕ) (rq : Request) (p : Site × JString) : Prop :=
  match rq with
  | .routingTable => ∃ ps, p = (.buildSignedRoutingTable, (Json.obj ps).stringify)
  | .register rq => ∃ f pubkey, Registers env rq f pubkey ∧
      (p = (.handleRegister, capText (mailboxIdOf env pubkey) pubkey.lower (t + 31536000 * 1000)
        (bytesToHex rq.capNonce)) ∨ Enveloped f.requestId p)
  | .serverHello _ => ∃ (protocol nonce : JString) (now : ℕ),
      p = (.handleServerHello, helloText protocol nonce env.routerSigningPublic (digits now))
  | _ => False

/-- A body that the request may post to a shard. -/
def Posts (env : Env) (t : ℕ) (rq : Request) (body : CreateBody) : Prop :=
  ∃ r f pubkey replicas, rq = .register r ∧ Registers env r f pubkey ∧
    body = createBody env t r pubkey replicas

theorem World.mem_post {answer : JString → CreateBody → Created} {body : CreateBody} {w : World}
    {urls : List JString} {p : JString × CreateBody}
    (h : p ∈ (urls.foldl (World.post answer body) w).posted) : p ∈ w.posted ∨ p.2 = body := by
  induction urls generalizing w with
  | nil => exact Or.inl h
  | cons url urls ih =>
    rcases ih h with h | h
    · exact (List.mem_cons.1 h).elim (fun h => Or.inr (by rw [h])) Or.inl
    · exact Or.inr h

section
variable (env : Env) (answer : JString → CreateBody → Created) (t : ℕ)

/-- The outside sees of a request what its handler does. -/
theorem handle_world (rq : Request) (s : State) :
    (handle env answer t rq s).2.2 = s.2 ∨ ∃ (urls : List JString) (current : Era urls) (kv : Kv),
      (handle env answer t rq s).2.2 =
        ((serve env current rq).run (KvOp.exec t (services env.crypto answer)) (kv, s.2)).2.2 := by
  have hurls : ((getShardUrls env).run (KvOp.exec t (services env.crypto answer)) s).2.2 = s.2 :=
    KvOp.run_calls (C := fun _ => False) (I := fun w => w = s.2) (fun _ _ hc => hc.elim)
      (getShardUrls_calls env) t rfl
  unfold handle fetch
  dsimp only
  rw [Prog.bind_eq, Prog.run_bind]
  rcases hrun : (getShardUrls env).run (KvOp.exec t (services env.crypto answer)) s with
    ⟨_ | urls, kv, w⟩ <;> rw [hrun] at hurls
  · exact Or.inl hurls
  · obtain rfl : w = s.2 := hurls
    dsimp only
    split
    · exact Or.inr ⟨urls, _, kv, rfl⟩
    · exact Or.inl rfl

/-- The calls of a request whose signatures are among those it may produce. -/
def MayCall (env : Env) (t : ℕ) (rq : Request) : Service → Prop
  | .sign site _ text => MaySign env t rq (site, text)
  | _ => True

/-- **Step lemma.** -/
theorem handle_signed (rq : Request) (s : State) :
    ∀ p ∈ (handle env answer t rq s).2.2.signed, p ∈ s.2.signed ∨ MaySign env t rq p := by
  rcases handle_world env answer t rq s with hw | ⟨urls, current, kv, hw⟩ <;> rw [hw]
  · exact fun p hp => Or.inl hp
  by_cases hrq : ∃ r, rq = .register r
  · obtain ⟨r, rfl⟩ := hrq
    obtain ⟨o, w', hrun, hcases⟩ := handleRegister_run env answer t kv s.2 r current
    simp only [serve, hrun]
    rcases hcases with ⟨rfl, -⟩ | ⟨f, pubkey, hreg, hdel⟩
    · exact fun p hp => Or.inl hp
    · exact fun p hp => (hdel.signed p hp).imp_right fun h => ⟨f, pubkey, hreg, h⟩
  · have hserve : (serve env current rq).Only (KvOp.Calls (MayCall env t rq)) := by
      cases rq with
      | routingTable => exact handleRoutingTable_calls env fun _ _ _ _ _ => ⟨_, rfl⟩
      | register r => exact absurd ⟨r, rfl⟩ hrq
      | resolve pubkey => exact handleResolve_calls env pubkey _ fun _ _ => trivial
      | serverHello body => exact handleServerHello_calls env body fun _ _ _ => ⟨_, _, _, rfl⟩
      | powChallenge rq => exact handlePowChallenge_calls env rq
      | registerShard rq => exact handleRegisterShard_calls env rq
      | rotateShardKey body => exact handleRotateShardKey_calls env body
    refine KvOp.run_calls (I := fun w : World => ∀ p ∈ w.signed, p ∈ s.2.signed ∨ MaySign env t rq p)
      (fun e w he hw p hp => ?_) hserve t fun p hp => Or.inl hp
    cases e with
    | sign site key text =>
      rcases List.mem_cons.1 hp with rfl | hp
      · exact Or.inr he
      · exact hw p hp
    | create url body => exact hw p hp
    | exists_ url mailboxId => exact hw p hp

theorem handle_posted (rq : Request) (s : State) :
    ∀ p ∈ (handle env answer t rq s).2.2.posted, p ∈ s.2.posted ∨ Posts env t rq p.2 := by
  rcases handle_world env answer t rq s with hw | ⟨urls, current, kv, hw⟩ <;> rw [hw]
  · exact fun p hp => Or.inl hp
  by_cases hrq : ∃ r, rq = .register r
  · obtain ⟨r, rfl⟩ := hrq
    obtain ⟨o, w', hrun, hcases⟩ := handleRegister_run env answer t kv s.2 r current
    simp only [serve, hrun]
    rcases hcases with ⟨rfl, -⟩ | ⟨f, pubkey, hreg, hdel⟩
    · exact fun p hp => Or.inl hp
    · intro p hp
      rw [hdel.posted] at hp
      exact (World.mem_post hp).imp_right fun h => ⟨r, f, pubkey, _, rfl, hreg, h⟩
  · refine KvOp.run_calls (I := fun w : World => ∀ p ∈ w.posted, p ∈ s.2.posted ∨ Posts env t rq p.2)
      (fun e w he hw p hp => ?_) (serve_creates_nothing env current fun r hr => hrq ⟨r, hr⟩) t
      fun p hp => Or.inl hp
    cases e with
    | sign site key text => exact hw p hp
    | create url body => exact he.elim
    | exists_ url mailboxId => exact hw p hp

end

/-! ## Runs -/

/-- The state after a request at an instant. -/
def serveStep (env : Env) (answer : JString → CreateBody → Created) (e : ℕ × Request) (s : State) :
    State := (handle env answer e.1 e.2 s).2

section
variable {env : Env} {answer : JString → CreateBody → Created}

/-- **Run lemma.** Every signed text comes from a request. -/
theorem run_signed {s : State} {run : List (ℕ × Request)} {p : Site × JString}
    (hp : p ∈ (after (serveStep env answer) s run).2.signed) :
    p ∈ s.2.signed ∨ ∃ e ∈ run, MaySign env e.1 e.2 p :=
  mem_log_after (fun s : State => s.2.signed)
    (fun s e p hp => handle_signed env answer e.1 e.2 s p hp) hp

/-- **Run lemma.** Every posted body comes from a registration. -/
theorem run_posted {s : State} {run : List (ℕ × Request)} {p : JString × CreateBody}
    (hp : p ∈ (after (serveStep env answer) s run).2.posted) :
    p ∈ s.2.posted ∨ ∃ e ∈ run, Posts env e.1 e.2 p.2 :=
  mem_log_after (fun s : State => s.2.posted)
    (fun s e p hp => handle_posted env answer e.1 e.2 s p hp) hp

end

end Router
