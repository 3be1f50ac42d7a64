/-
  What a capability of the Router binds.

  The signed text names the mailbox, the client, the expiry and a nonce, but
  neither the hash of the read secret nor the shards to fan out to: a shard
  writes these as the request presents them.

  * `Installs` says that the record has both as the Router put them in its body,
    and `Matches` that the request presents them so;
  * `capability_installs_iff`: whoever presents a minted capability gets the
    mailbox and the client of the Router, and the rest as presented.
-/
import NexTalkRelay.Capability.Separation

open Effect Js Runs

namespace Capability

/-- The text whose signature a body carries. -/
def capability (body : Router.CreateBody) : JString :=
  Router.capText body.mailboxId body.clientPubkey body.capExp body.capNonce

/-- The signature of a body verifies its own text only. -/
def Exact (c : Crypto) (routerPublic : JString) (body : Router.CreateBody) : Prop :=
  ∀ pub sig m, Shard.hexToBytes routerPublic = some pub → Shard.hexToBytes body.capSig = some sig →
    c.verify pub sig m = true → m = encode (capability body)

/-- The record has the read secret and the shards of the Router's body. -/
def Installs (body : Router.CreateBody) (m : Shard.Mailbox) : Prop :=
  m.readSecretHash = body.readSecretHash ∧
    m.replicaShardUrls = .arr (body.replicaShardUrls.map .str)

/-- The request presents the hash and the shards of the Router's body; without
    shards, those that are stored count, and a new record has none. -/
def Matches (body : Router.CreateBody) (f : Shard.CreateFields) (stored : Option Shard.Mailbox) :
    Prop :=
  f.readSecretHash.lower = body.readSecretHash ∧
    (f.replicas ≠ [] ∧ f.replicas = body.replicaShardUrls ∨
      f.replicas = [] ∧ (stored.elim (.arr []) fun m => m.replicaShardUrls) =
        .arr (body.replicaShardUrls.map .str))

theorem strings_injective {xs ys : List JString}
    (h : Json.arr (xs.map .str) = .arr (ys.map .str)) : xs = ys :=
  List.map_injective_iff.2 (fun _ _ h => Json.str.inj h) (Json.arr.inj h)

/-- The written record takes the hash and the shards from the request. -/
theorem installs_record_iff (body : Router.CreateBody) (f : Shard.CreateFields)
    (stored : Option Shard.Mailbox) (t : ℕ) :
    Installs body (f.record stored t) ↔ Matches body f stored := by
  have hhash : (f.record stored t).readSecretHash = f.readSecretHash.lower := by
    cases stored <;> rfl
  have hshards : (f.record stored t).replicaShardUrls =
      if f.replicas = [] then stored.elim (.arr []) fun m => m.replicaShardUrls
      else .arr (f.replicas.map .str) := by
    unfold Shard.CreateFields.record Shard.CreateFields.refresh Shard.CreateFields.fresh
    cases hr : f.replicas <;> cases stored <;> simp
  unfold Installs Matches
  rw [hhash, hshards]
  refine and_congr_right fun _ => ?_
  split
  · next hr => simp [hr]
  · next hr =>
    simp only [hr, ne_eq, not_false_eq_true, true_and, false_and, or_false]
    exact ⟨strings_injective, fun h => by rw [h]⟩

/-- **A capability binds its mailbox and its client, and nothing else.**  Take a
    body that the Router posted in a run, and a `/create` that presents its
    signature and is accepted.  The record is the one of the body's mailbox and
    client; it has the read secret and the shards of the body iff the request
    presented them. -/
theorem capability_installs_iff (env : Router.Env)
    (answer : JString → Router.CreateBody → Router.Created) {s : Router.State}
    (hclean : s.2.posted = []) {run : List (ℕ × Router.Request)} {url : JString}
    {body : Router.CreateBody}
    (hposted : (url, body) ∈ (after (Router.serveStep env answer) s run).2.posted)
    {senv : Shard.Env} (hexact : Exact senv.crypto senv.routerSigningPublic body) (t : ℕ)
    (rq : Shard.CreateRequest) (kv : Shard.Kv) {f : Shard.CreateFields}
    (hf : Shard.createFields rq.body = .ok f)
    (hsig : Shard.hexToBytes f.capSig = Shard.hexToBytes body.capSig)
    (hok : (Shard.handle senv t (.create rq) kv).1.status = 200) :
    f.mailboxId.lower = body.mailboxId ∧ f.clientPubkey = some body.clientPubkey ∧
      ∃ m expires, (Shard.handle senv t (.create rq) kv).2 (.mailbox body.mailboxId) =
        some ⟨m, expires⟩ ∧
          (Installs body m ↔ Matches body f (kv.get t (.mailbox body.mailboxId))) := by
  obtain ⟨e, -, r, g, pubkey, replicas, -, -, hbody⟩ :=
    (Router.run_posted hposted).resolve_left (by rw [hclean]; exact List.not_mem_nil)
  dsimp only at hbody
  obtain ⟨f', expires, hf', ⟨-, message, hm, hverify⟩, hwritten⟩ := Shard.create_accepted hok
  obtain rfl : f = f' := Except.ok.inj (hf.symm.trans hf')
  unfold Shard.verifyEd25519Message at hverify
  split at hverify
  · next pub sig hpub hsigbytes =>
    have hencode := hexact pub sig _ hpub (hsig ▸ hsigbytes) hverify
    have htext : capability body = Router.capText (Router.mailboxIdOf env pubkey) pubkey.lower
        (e.1 + 31536000 * 1000) (bytesToHex r.capNonce) := by rw [hbody]; rfl
    rw [htext] at hencode
    rw [encode_eq_ascii (ascii_minted env pubkey _ _) hencode] at hm
    obtain ⟨hmailbox, hclient⟩ := minted_fields env hm
    have hid : body.mailboxId = Router.mailboxIdOf env pubkey := by rw [hbody]; rfl
    have hpk : body.clientPubkey = pubkey.lower := by rw [hbody]; rfl
    rw [hid, hpk, ← hmailbox]
    exact ⟨rfl, hclient, _, expires, hwritten, installs_record_iff body f _ t⟩
  · cases hverify

/-- The body that the Router posts for `honestRegistration`. -/
def honestBody : Router.CreateBody :=
  Router.createBody honestEnv 0 honestRegistration Router.zeroKey [js "http://a"]

/-- The same capability with another hash of a read secret. -/
def capturedBody : Json := { honestBody with readSecretHash := List.replicate 64 49 }.toJson

theorem honestBody_posted : (js "http://a", honestBody) ∈
    (after (Router.serveStep honestEnv Router.up) Router.fresh
      [(0, .register honestRegistration)]).2.posted := List.mem_singleton.2 rfl

theorem honestBody_exact : Exact honestShard.crypto honestShard.routerSigningPublic honestBody := by
  intro pub sig m hpub _ hverify
  cases hpub
  exact eq_of_beq hverify

theorem honest_body_installs :
    honestBody.mailboxId = List.replicate 64 48 ∧
      ∃ m expires, (Shard.handle honestShard 0 (.create { ip := none, body := some honestBody.toJson })
        fun _ => none).2 (.mailbox honestBody.mailboxId) = some ⟨m, expires⟩ ∧
          Installs honestBody m := by
  obtain ⟨-, -, m, expires, hm, hiff⟩ := capability_installs_iff honestEnv Router.up
    (s := Router.fresh) rfl honestBody_posted honestBody_exact 0
    { ip := none, body := some honestBody.toJson } (fun _ => none) rfl rfl (by decide +kernel)
  exact ⟨by decide +kernel, m, expires, hm, hiff.2 ⟨rfl, Or.inl ⟨nofun, rfl⟩⟩⟩

/-- Whoever captures the body installs a read secret of their own. -/
theorem captured_capability_installs_secret :
    (js "http://a", honestBody) ∈ (after (Router.serveStep honestEnv Router.up) Router.fresh
        [(0, .register honestRegistration)]).2.posted ∧
      Exact honestShard.crypto honestShard.routerSigningPublic honestBody ∧
      capturedBody.field (js "cap_sig") = some (.str honestBody.capSig) ∧
      ∃ m expires, (Shard.handle honestShard 0 (.create { ip := none, body := some capturedBody })
          fun _ => none).2 (.mailbox honestBody.mailboxId) = some ⟨m, expires⟩ ∧
        ¬ Installs honestBody m := by
  refine ⟨honestBody_posted, honestBody_exact, rfl, ?_⟩
  have hok : (Shard.handle honestShard 0 (.create { ip := none, body := some capturedBody })
    fun _ => none).1.status = 200 := by decide +kernel
  obtain ⟨f, expires, hf, -, hwritten⟩ := Shard.create_accepted hok
  cases hf
  exact ⟨_, expires, hwritten, fun h => absurd h.1 (by decide +kernel)⟩

end Capability
