/-
  The identity keys of registered shards.

  A record changes its key by a rotation, which the old key signs, or by a
  registration of the same URL, which it does not.

  * `recordedKey` is the key of a URL, and `Authorised` says of a request that
    every key it replaces has signed for it;
  * `RenewsOwn` is the condition on registrations under which this holds over
    whole runs (`takeover_needs_old_key`).
-/
import NexTalkRelay.Lib.Runs
import NexTalkRelay.Router.Topology

open Effect Js Runs

namespace Router

/-- The key that the record of a URL holds. -/
def recordedKey (env : Env) (kv : Kv) (url : JString) : Option JString :=
  ((registeredOf env kv).find? fun s => s.url == url).map (·.pubkey)

/-- The signatures that a request carries, with the texts that they sign. -/
def Request.signatures : Request → List (JString × Tested (HexStr 128 128))
  | registerShard rq =>
    match registerShardFields rq.body with
    | .ok f => (f.shardPubkey.str?.map fun pk => (registerShardMessage f pk, f.signature)).toList
    | .error _ => []
  | rotateShardKey body =>
    match rotateFields body with
    | .ok f => [(migrationMsg f, f.oldSig), (acceptMsg f, f.newSig)]
    | .error _ => []
  | _ => []

/-- The request carries a signature that verifies under the key. -/
def Request.SignedBy (c : Crypto) (rq : Request) (key : JString) : Prop :=
  ∃ p ∈ rq.signatures, c.verify (hexPairs key) (sigBytes p.2) (encode p.1) = true

/-- Every key that the request replaces has signed for it. -/
def Authorised (env : Env) (answer : JString → CreateBody → Created) (s : State)
    (e : ℕ × Request) : Prop :=
  ∀ url key key', recordedKey env s.1 url = some key →
    recordedKey env (handle env answer e.1 e.2 s).2.1 url = some key' →
    toLowerCase key' ≠ toLowerCase key → e.2.SignedBy env.crypto key

/-- An accepted registration of a URL that has a record names its key. -/
def RenewsOwn (env : Env) (s : State) (e : ℕ × Request) : Prop :=
  match e.2 with
  | .registerShard rq => ∀ url pubkey key, admitted env e.1 rq s.1 = some (url, pubkey) →
      recordedKey env s.1 url = some key → pubkey.lower = toLowerCase key
  | _ => True

section
variable {env : Env} {answer : JString → CreateBody → Created} {existing : List Registered}

/-! ## Records after a rewrite -/

theorem find_map_of_url {g : Registered → Registered} (hg : ∀ s, (g s).url = s.url) (url : JString) :
    (existing.map g).find? (fun s => s.url == url) =
      (existing.find? fun s => s.url == url).map g := by
  rw [List.find?_map]
  congr 2
  funext s
  simp only [Function.comp, hg]

/-- The key of a URL after an upsert, if it had one. -/
theorem find_upsert {url url' key : JString} {now : ℕ} {s : Registered}
    (hs : existing.find? (fun s => s.url == url) = some s) :
    ((upsert existing url' key now).find? fun s => s.url == url).map (·.pubkey) =
      some (if url = url' then key else s.pubkey) := by
  have hurl : s.url = url := by simpa using List.find?_some hs
  unfold upsert
  split
  · rw [find_map_of_url fun s => by split <;> [exact (‹s.url = url'›).symm; rfl], hs]
    subst hurl
    simp only [Option.map_some]
    split <;> rfl
  · next hany =>
    rw [List.find?_append, hs]
    have hne : url ≠ url' := by
      rintro rfl
      refine hany (List.any_eq_true.2 ⟨s, List.mem_of_find?_eq_some hs, ?_⟩)
      simpa using hurl
    simp [hne]

theorem find_replaceKey {f : RotateFields} {url : JString} {now : ℕ} {s : Registered}
    (hs : existing.find? (fun s => s.url == url) = some s) :
    ((replaceKey existing f now).find? fun s => s.url == url).map (·.pubkey) =
      some (if url = f.shardUrl then f.newPubkey.lower else s.pubkey) := by
  have hurl : s.url = url := by simpa using List.find?_some hs
  unfold replaceKey
  rw [find_map_of_url fun s => by split <;> [exact (‹s.url = f.shardUrl›).symm; rfl], hs]
  subst hurl
  simp only [Option.map_some]
  split <;> rfl

/-! ## One request -/

/-- Two spellings of a key have the same bytes. -/
theorem hexPairs_of_lower_eq {key : JString} {pubkey : HexStr 64 64}
    (h : toLowerCase key = pubkey.lower) : hexPairs key = hexPairs pubkey.1 := by
  have hpk := (isHexOf_iff.1 pubkey.2).2.2
  have hlow := (isHexOf_iff.1 pubkey.isHexOf_lower).2.2
  have hkey : ∀ c ∈ key, isHexDigit c = true := fun c hc =>
    isHexDigit_of_lowerUnit (hlow _ (h ▸ List.mem_map_of_mem hc))
  rw [← hexPairs_toLowerCase hkey, ← hexPairs_toLowerCase hpk, h, HexStr.lower]

/-- What an accepted rotation has verified. -/
theorem rotated_spec {t : ℕ} {body : Option Json} {kv : Kv} {f : RotateFields}
    (h : rotated env t body kv = some f) :
    rotateFields body = .ok f ∧
      (∀ key, recordedKey env kv f.shardUrl = some key → toLowerCase key = f.oldPubkey.lower) ∧
      verifyEd25519 env.crypto f.oldPubkey (migrationMsg f) f.oldSig = true := by
  unfold rotated at h
  split at h
  · cases h
  · next f' hf =>
    split at h
    · next hall =>
      cases h
      simp only [Bool.and_eq_true, Option.any_eq_true, beq_iff_eq] at hall
      obtain ⟨⟨⟨-, record, hfind, hold⟩, hv⟩, -⟩ := hall
      refine ⟨hf, fun key hkey => ?_, hv⟩
      unfold recordedKey at hkey
      rw [hfind] at hkey
      cases hkey
      exact hold
    · cases h

/-- **Step lemma.** -/
theorem authorised_of_renewsOwn {s : State} (hd : Durable s.1) {e : ℕ × Request}
    (h : RenewsOwn env s e) : Authorised env answer s e := by
  obtain ⟨t, rq⟩ := e
  intro url key key' hkey hkey' hne
  rcases handle_cases env answer t rq hd with ⟨-, heq⟩ | ⟨-, hre⟩
  · rw [heq, hkey] at hkey'
    cases hkey'
    exact absurd rfl hne
  have hreg := hre.registered
  cases hnext : rewrites env t rq s.1 with
  | none =>
    rw [hnext] at hreg
    unfold recordedKey at hkey hkey'
    rw [registeredOf_congr hreg, hkey] at hkey'
    cases hkey'
    exact absurd rfl hne
  | some updated =>
    rw [hnext] at hreg
    unfold recordedKey at hkey
    obtain ⟨r, hr, rfl⟩ := Option.map_eq_some_iff.1 hkey
    cases rq with
    | registerShard rq =>
      obtain ⟨⟨url', pubkey⟩, had, rfl⟩ := Option.map_eq_some_iff.1 hnext
      unfold recordedKey registeredOf at hkey'
      rw [stored_of_slot (adminKv_of_admitted had) hreg, Option.getD_some, find_upsert hr] at hkey'
      cases hkey'
      split at hne
      · next hurl =>
        subst hurl
        have := h url pubkey r.pubkey had (by unfold recordedKey; rw [hr]; rfl)
        exact absurd (by rw [← this, HexStr.toLowerCase_lower]) hne
      · exact absurd rfl hne
    | rotateShardKey body =>
      obtain ⟨f, hro, rfl⟩ := Option.map_eq_some_iff.1 hnext
      obtain ⟨hf, hold, hv⟩ := rotated_spec hro
      unfold recordedKey registeredOf at hkey'
      rw [stored_of_slot (adminKv_of_rotated hro) hreg, Option.getD_some, find_replaceKey hr]
        at hkey'
      cases hkey'
      split at hne
      · next hurl =>
        subst hurl
        -- the recorded key signed the migration
        refine ⟨(migrationMsg f, f.oldSig), by simp [Request.signatures, hf], ?_⟩
        rw [hexPairs_of_lower_eq (hold r.pubkey (by unfold recordedKey; rw [hr]; rfl))]
        exact hv
      · exact absurd rfl hne
    | _ => cases hnext

/-! ## Runs -/

/-- **No takeover without the old key**, in every run whose accepted
    registrations of known URLs name the recorded key. -/
theorem takeover_needs_old_key (env : Env) (answer : JString → CreateBody → Created) {s : State}
    (hd : Durable s.1) (run : List (ℕ × Request))
    (h : Always (fun e s => (handle env answer e.1 e.2 s).2) (RenewsOwn env) s run) :
    Always (fun e s => (handle env answer e.1 e.2 s).2) (Authorised env answer) s run :=
  h.imp (I := fun s : State => Durable s.1) (fun _ _ hi _ => handle_durable hi)
    (fun _ _ hi hp => authorised_of_renewsOwn hi hp) hd

end

/-- A Router on a platform where a key signs by repeating itself. -/
def echoEnv : Env :=
  { meshEnv with crypto := { Crypto.trusting with verify := fun pk sig _ => sig == pk ++ pk } }

/-- A rotation of `url` between keys that repeat one digit. -/
def rotation (url : JString) (old new : UInt16) : Request :=
  .rotateShardKey (some (.obj [(js "shard_url", .str url),
    (js "old_pubkey", .str (List.replicate 64 old)), (js "new_pubkey", .str (List.replicate 64 new)),
    (js "timestamp", .str (js "0")), (js "old_signature", .str (List.replicate 128 old)),
    (js "new_signature", .str (List.replicate 128 new))]))

/-- A registration followed by a rotation. -/
theorem rotation_is_authorised :
    Always (fun e s => (handle echoEnv up e.1 e.2 s).2) (Authorised echoEnv up) fresh
      ((joins 7 (js "http://b") 97 ++ [rotation (js "http://b") 97 98]).map fun rq => (0, rq)) :=
  takeover_needs_old_key echoEnv up fresh_durable _
    ⟨trivial, fun _ _ _ _ hkey => (by cases hkey), trivial, trivial⟩

/-- Whoever pays for a second proof of work takes the URL over: the request
    carries no signature of the recorded key. -/
theorem registration_takes_over :
    ¬ Always (fun e s => (handle echoEnv up e.1 e.2 s).2) (Authorised echoEnv up) fresh
      ((joins 7 (js "http://b") 97 ++ [Request.powChallenge { ip := none, nonce := [8] }] ++
        [Request.registerShard (registration 8 (js "http://b") 98)]).map fun rq => (0, rq)) := by
  intro h
  rw [List.map_append] at h
  have hsigned := h.last (js "http://b") (List.replicate 64 97) (List.replicate 64 98)
    (by decide +kernel) (by decide +kernel) (by decide)
  unfold Request.SignedBy at hsigned
  revert hsigned
  decide +kernel

end Router
