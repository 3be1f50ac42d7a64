/-
  Where `/register` puts a mailbox, and where `/resolve` looks for it.

  * `replicas_one`: without replication the owner in the era is the only replica;
  * `register_run` says what a registration does outside (`Delivered`), and
    `resolve_run` that `/resolve` answers the first walked era whose shard
    holds the mailbox (`hit`).
-/
import NexTalkRelay.Router.Topology

open Effect Js

namespace Router

/-! ## The ring -/

theorem Era.getElem?_shard {shardUrls : List JString} (n : Era shardUrls) (i : ℕ) :
    shardUrls[i % n.1]? = some (n.shard i) := by
  unfold Era.shard
  rw [List.get_eq_getElem, List.getElem?_eq_getElem]

theorem Era.shard_mod {shardUrls : List JString} (n : Era shardUrls) (i : ℕ) :
    n.shard (i % n.1) = n.shard i := by
  unfold Era.shard
  simp only [Nat.mod_mod]

/-- With a replication factor of one, the owner is the only replica. -/
theorem replicas_one {env : Env} (h : env.replicationFactor = .ofInt 1) (c : Crypto)
    (pubkey : JString) {shardUrls : List JString} (n : Era shardUrls) :
    replicasForEra c pubkey n (replicationFactor env n.1) = [ownerForEra c pubkey n] := by
  have hr : replicationFactor env n.1 = .ofInt 1 := by
    have hle : ¬ (n.1 : ℤ) < 1 := by have := n.2.1; omega
    have hmin : (Number.ofInt 1).min (.ofInt n.1) = .ofInt 1 ∨ (Number.ofInt 1).min (.ofInt n.1) = .ofInt n.1
        ∧ n.1 = 1 := by
      unfold Number.min
      rw [if_neg (by simp [Number.ofInt])]
      by_cases h1 : (1 : ℤ) < n.1
      · exact Or.inl (if_pos (Number.ofInt_lt_ofInt.2 h1))
      · exact Or.inr ⟨if_neg (by rwa [Number.ofInt_lt_ofInt]), by omega⟩
    unfold replicationFactor
    rw [h]
    rcases hmin with hm | ⟨hm, h1⟩
    · rw [hm]; rfl
    · rw [hm, h1]; rfl
  have hturns : turns (.ofInt 1) = 1 := by
    change (Dec.ofDigits 1 0).ceil.toNat = 1
    rw [Dec.ceil_eq]
    simp
  unfold replicasForEra replicaSetForEra ownerForEra
  rw [hr, hturns]
  simp only [List.range_one, List.map_cons, List.map_nil, Nat.add_zero, Era.shard_mod]

/-! ## Eras -/

theorem Era.ofInt?_eq_some {shardUrls : List JString} {k : ℤ} {n : Era shardUrls} :
    Era.ofInt? shardUrls k = some n ↔ k = n.1 := by
  have hpos := n.2.1
  unfold Era.ofInt?
  constructor
  · intro h
    split at h
    · next hk =>
      have hn : k.toNat = n.1 := congrArg Subtype.val (Option.some.inj h)
      omega
    · cases h
  · rintro rfl
    have hn : (n.1 : ℤ).toNat = n.1 := Int.toNat_natCast n.1
    rw [dif_pos (by rw [hn]; exact n.2)]
    exact congrArg some (Subtype.ext hn)

/-- The walked eras are the current count and the earlier ones. -/
theorem mem_eraCountsDescending {shardUrls : List JString} {priorCounts : List Json}
    {n : Era shardUrls} :
    n ∈ eraCountsDescending shardUrls priorCounts ↔
      n.1 = shardUrls.length ∨ ∃ j ∈ priorCounts, integer? j = some (n.1 : ℤ) := by
  unfold eraCountsDescending
  rw [List.mem_insertionSort, Merge.mem_pushAbsent]
  simp only [List.not_mem_nil, false_or, List.mem_filterMap, List.mem_cons, Era.ofInt?_eq_some]
  constructor
  · rintro ⟨k, hk | ⟨j, hj, hk⟩, rfl⟩
    · exact Or.inl (by exact_mod_cast hk)
    · exact Or.inr ⟨j, hj, hk⟩
  · rintro (h | ⟨j, hj, hk⟩)
    · exact ⟨n.1, Or.inl (by exact_mod_cast h), rfl⟩
    · exact ⟨n.1, Or.inr ⟨j, hj, hk⟩, rfl⟩

/-- They are walked from the largest down. -/
theorem eraCountsDescending_pairwise (shardUrls : List JString) (priorCounts : List Json) :
    (eraCountsDescending shardUrls priorCounts).Pairwise fun a b => b.1 < a.1 := by
  unfold eraCountsDescending
  dsimp only
  generalize (((shardUrls.length : ℤ) :: priorCounts.filterMap integer?).filterMap
    (Era.ofInt? shardUrls)) = all
  have htotal : Std.Total fun a b : Era shardUrls => b.1 ≤ a.1 := ⟨fun a b => le_total b.1 a.1⟩
  have htrans : IsTrans (Era shardUrls) fun a b => b.1 ≤ a.1 := ⟨fun a b c h h' => h'.trans h⟩
  have hsorted := List.pairwise_insertionSort (fun a b : Era shardUrls => b.1 ≤ a.1)
    (Merge.pushAbsent [] all)
  have hnodup : ((Merge.pushAbsent [] all).insertionSort fun a b => b.1 ≤ a.1).Nodup :=
    (List.perm_insertionSort _ _).nodup_iff.2 (Merge.nodup_pushAbsent List.nodup_nil)
  refine (hsorted.and hnodup).imp fun h => ?_
  exact lt_of_le_of_ne h.1 fun he => h.2 (Subtype.ext he.symm)

/-! ## Registrations -/

/-- The outside after a `/create` request. -/
def World.post (answer : JString → CreateBody → Created) (body : CreateBody) (w : World)
    (url : JString) : World :=
  { w with
    posted := (url, body) :: w.posted
    created := if (answer url body).ok then (url, body) :: w.created else w.created }

theorem World.holds_iff {w : World} {url mailboxId : JString} :
    w.holds url mailboxId = true ↔ ∃ body, (url, body) ∈ w.created ∧ body.mailboxId = mailboxId := by
  simp only [holds, List.any_eq_true, Bool.and_eq_true, beq_iff_eq, Prod.exists]
  constructor
  · rintro ⟨u, body, hm, rfl, hid⟩
    exact ⟨body, hm, hid⟩
  · rintro ⟨body, hm, hid⟩
    exact ⟨url, body, hm, rfl, hid⟩

theorem World.created_post_suffix (answer : JString → CreateBody → Created) (body : CreateBody)
    (w : World) (urls : List JString) :
    w.created <:+ (urls.foldl (World.post answer body) w).created := by
  induction urls generalizing w with
  | nil => exact List.suffix_rfl
  | cons url urls ih =>
    refine List.IsSuffix.trans ?_ (ih (w.post answer body url))
    unfold post
    dsimp only
    split
    · exact List.suffix_cons _ _
    · exact List.suffix_rfl

/-- Posts do not touch what was signed. -/
theorem World.post_signed (answer : JString → CreateBody → Created) (body : CreateBody) (w : World)
    (signed : List (Site × JString)) (urls : List JString) :
    urls.foldl (World.post answer body) { w with signed } =
      { urls.foldl (World.post answer body) w with signed } := by
  induction urls generalizing w with
  | nil => rfl
  | cons url urls ih => exact ih (w.post answer body url)

section
variable (env : Env) (answer : JString → CreateBody → Created) (t : ℕ) (kv : Kv) (w : World)

theorem createAll_run (body : CreateBody) (urls : List JString) :
    (createAll body urls).run (KvOp.exec t (services env.crypto answer)) (kv, w) =
      (some (urls.map fun url => answer url body), (kv, urls.foldl (World.post answer body) w)) := by
  induction urls generalizing w with
  | nil => rfl
  | cons url urls ih =>
    change ((createAll body urls).bind _).run _ (kv, w.post answer body url) = _
    rw [Prog.run_bind_some (ih _)]
    rfl

/-- The shards that a registration asks. -/
def replicasOf (pubkey : HexStr 64 64) {urls : List JString} (current : Era urls) : List JString :=
  replicasForEra env.crypto pubkey.1 current (replicationFactor env current.1)

/-- The body that a registration posts. -/
def createBody (rq : RegisterRequest) (pubkey : HexStr 64 64) (replicas : List JString) : CreateBody :=
  { mailboxId := mailboxIdOf env pubkey
    readSecretHash := env.crypto.sha256Hex (bytesToHex rq.readSecret)
    capExp := t + 31536000 * 1000
    capSig := env.crypto.signHex env.routerSigningKey (capText (mailboxIdOf env pubkey) pubkey.lower
      (t + 31536000 * 1000) (bytesToHex rq.capNonce))
    replicaShardUrls := replicas
    clientPubkey := pubkey.lower
    capNonce := bytesToHex rq.capNonce }

theorem mint_run (rq : RegisterRequest) (pubkey : HexStr 64 64) (replicas : List JString) :
    (mint env rq pubkey replicas).run (KvOp.exec t (services env.crypto answer)) (kv, w) =
      (some (createBody env t rq pubkey replicas), (kv, { w with signed :=
        (.handleRegister, capText (mailboxIdOf env pubkey) pubkey.lower (t + 31536000 * 1000)
          (bytesToHex rq.capNonce)) :: w.signed })) := rfl

/-- A text that the envelope of a registration signs. -/
def Enveloped (requestId : Option Json) (p : Site × JString) : Prop :=
  ∃ id ∈ requestId, ∃ text ∈ id.toStr, ∃ (now : ℕ) (bodyHash : JString),
    isHexOf 64 64 bodyHash = true ∧
      p = (.buildSignedResponse, responseText text 200 (digits now) bodyHash)

/-- The confirmation creates no mailbox. -/
theorem confirm_run (requestId : Option Json) (response : Registration) :
    ∃ o w', (confirm env requestId response).run (KvOp.exec t (services env.crypto answer)) (kv, w) =
      (o, (kv, w')) ∧ w'.created = w.created ∧ w'.posted = w.posted ∧
      ∀ p ∈ w'.signed, p ∈ w.signed ∨ Enveloped requestId p := by
  unfold confirm
  split
  · exact ⟨_, _, rfl, rfl, rfl, fun p hp => Or.inl hp⟩
  · next id hid =>
    simp only [buildSignedResponse, dateNow, Prog.bind_eq, Prog.perform_bind, KvOp.run_now]
    cases htext : id.toStr with
    | none => exact ⟨_, _, rfl, rfl, rfl, fun p hp => Or.inl hp⟩
    | some text =>
      refine ⟨_, _, rfl, rfl, rfl, fun p hp => ?_⟩
      rcases List.mem_cons.1 hp with rfl | hp
      · exact Or.inr ⟨id, (Option.filter_eq_some_iff.1 hid).1, text, htext, t, _,
          env.crypto.isHexOf_sha256Hex _, rfl⟩
      · exact Or.inl hp

/-- What a registration that passed its gate does outside: it asks every replica
    with the same body, and is a success only if the first one took the mailbox. -/
structure Delivered (rq : RegisterRequest) (f : RegisterFields) (pubkey : HexStr 64 64)
    (replicas : List JString) (w' : World) (o : Option Response) : Prop where
  created : w'.created =
    (replicas.foldl (World.post answer (createBody env t rq pubkey replicas)) w).created
  posted : w'.posted =
    (replicas.foldl (World.post answer (createBody env t rq pubkey replicas)) w).posted
  signed : ∀ p ∈ w'.signed, p ∈ w.signed ∨ p = (.handleRegister, capText (mailboxIdOf env pubkey)
    pubkey.lower (t + 31536000 * 1000) (bytesToHex rq.capNonce)) ∨ Enveloped f.requestId p
  success : ∀ r ∈ o, r.status = 200 → ∃ shardUrl ∈ replicas.head?,
    (answer shardUrl (createBody env t rq pubkey replicas)).ok = true

theorem register_run (rq : RegisterRequest) {f : RegisterFields} {pubkey : HexStr 64 64}
    (hpk : f.pubkey.str? = some pubkey) {urls : List JString} (current : Era urls) :
    ∃ o w', (register env rq f current).run (KvOp.exec t (services env.crypto answer)) (kv, w) =
        (o, (kv, w')) ∧
      Delivered env answer t w rq f pubkey (replicasOf env pubkey current) w' o := by
  unfold register replicasOf
  rw [hpk]
  dsimp only
  generalize replicasForEra env.crypto pubkey.1 current (replicationFactor env current.1) = replicas
  rw [Prog.bind_eq, Prog.run_bind_some (mint_run env answer t kv w rq pubkey replicas),
    Prog.bind_eq, Prog.run_bind_some (createAll_run env answer t kv _ _ replicas),
    World.post_signed]
  generalize hw : replicas.foldl (World.post answer (createBody env t rq pubkey replicas)) w = posted
  have hstop (o : Option Response) (ho : ∀ r ∈ o, r.status ≠ 200) :
      Delivered env answer t w rq f pubkey replicas { posted with signed := (.handleRegister,
        capText (mailboxIdOf env pubkey) pubkey.lower (t + 31536000 * 1000)
          (bytesToHex rq.capNonce)) :: w.signed } o :=
    { created := by rw [hw]
      posted := by rw [hw]
      signed := fun p hp => (List.mem_cons.1 hp).elim (fun h => Or.inr (Or.inl h)) Or.inl
      success := fun r hr h => absurd h (ho r hr) }
  cases replicas with
  | nil => exact ⟨_, _, rfl, hstop none nofun⟩
  | cons shardUrl rest =>
    simp only [List.map_cons]
    by_cases hok : (answer shardUrl (createBody env t rq pubkey (shardUrl :: rest))).ok = true
    · obtain ⟨v, hv⟩ := getRoutingTableVersion_run env t kv _ (services env.crypto answer)
      rw [if_neg (by simp [hok]), Prog.bind_eq, Prog.run_bind_some hv]
      obtain ⟨o, w', hrun, hcreated, hposted, hsigned⟩ := confirm_run env answer t kv _ f.requestId
        { mailboxId := mailboxIdOf env pubkey, readSecret := bytesToHex rq.readSecret, shardUrl
          replicaShardUrls := shardUrl :: rest, expiresAt := t + 31536000 * 1000, tableVersion := v }
      refine ⟨o, w', hrun, ?_, ?_, fun p hp => ?_, fun _ _ _ => ⟨shardUrl, rfl, hok⟩⟩
      · rw [hw]; exact hcreated
      · rw [hw]; exact hposted
      · rcases hsigned p hp with hp | hp
        · exact (List.mem_cons.1 hp).elim (fun h => Or.inr (Or.inl h)) Or.inl
        · exact Or.inr (Or.inr hp)
    · rw [if_pos (by simpa using hok)]
      refine ⟨_, _, rfl, hstop _ ?_⟩
      rintro r ⟨⟩
      exact show (502 : ℕ) ≠ 200 by decide

/-! ## Lookups -/

/-- The probe of an era finds the mailbox. -/
def hit (pubkey : HexStr 64 64) (w : World) {shardUrls : List JString} (n : Era shardUrls) : Bool :=
  ((replicasForEra env.crypto pubkey.1 n (replicationFactor env n.1)).head?).any fun shardUrl =>
    w.holds shardUrl (mailboxIdOf env pubkey)

theorem probe_run (pubkey : HexStr 64 64) {shardUrls : List JString} (eras : List (Era shardUrls)) :
    (probe env pubkey eras).run (KvOp.exec t (services env.crypto answer)) (kv, w) =
      (some (eras.find? fun n => hit env pubkey w n), (kv, w)) := by
  induction eras with
  | nil => rfl
  | cons n eras ih =>
    unfold probe
    rw [List.find?_cons]
    unfold hit
    cases (replicasForEra env.crypto pubkey.1 n (replicationFactor env n.1)).head? with
    | none => exact ih
    | some shardUrl =>
      change Prog.run _ (if w.holds shardUrl (mailboxIdOf env pubkey) = true then pure (some n)
        else probe env pubkey eras) (kv, w) = _
      cases hh : w.holds shardUrl (mailboxIdOf env pubkey) with
      | true => simp only [Option.any_some, hh]; rfl
      | false => simp only [Option.any_some, hh]; exact ih

/-- The first walked era whose shard holds the mailbox. -/
def found (pubkey : HexStr 64 64) : Option (Era (shardUrlsOf env kv)) :=
  (eraCountsDescending (shardUrlsOf env kv) (priorCountsOf env kv)).find? fun n => hit env pubkey w n

/-- **`/resolve` answers the first walked era that has the mailbox**, or the
    current era without confirmation. -/
theorem resolve_run (hd : Durable kv) (hne : shardUrlsOf env kv ≠ []) (q : JString)
    {pubkey : HexStr 64 64} (hq : HexStr.parse 64 64 q = some pubkey) :
    ∃ r, (handle env answer t (.resolve (some q)) (kv, w)).1 = jsonOk (.resolved r) ∧
      r.confirmed = (found env kv w pubkey).isSome ∧
      r.shardUrl = (replicasForEra env.crypto pubkey.1
        ((found env kv w pubkey).getD (Era.current hne))
        (replicationFactor env ((found env kv w pubkey).getD (Era.current hne)).1)).head? := by
  rw [handle_eq hd hne]
  simp only [serve, handleResolve, Option.bind_some, hq]
  rw [Prog.bind_eq, Prog.run_bind_some (getPriorShardCounts_run hd), Prog.bind_eq,
    Prog.run_bind_some (probe_run env answer t kv w pubkey _)]
  obtain ⟨v, hv⟩ := getRoutingTableVersion_run env t kv w (services env.crypto answer)
  unfold found
  cases (eraCountsDescending (shardUrlsOf env kv) (priorCountsOf env kv)).find?
    fun n => hit env pubkey w n with
  | some n =>
    simp only [resolution, Prog.bind_eq]
    rw [Prog.run_bind_some hv]
    exact ⟨_, rfl, rfl, rfl⟩
  | none =>
    simp only [resolution, Prog.bind_eq]
    rw [Prog.run_bind_some hv]
    exact ⟨_, rfl, rfl, rfl⟩

end

end Router
