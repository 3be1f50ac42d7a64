/-
  The mailbox that `/resolve` finds, when keys register again.

  Every registration of a key under another count may leave another copy of its
  mailbox behind; `/resolve` answers the copy of the largest walked count.

  * `Tracked` is the invariant: with one replica, the mailboxes on the shards are
    the placements of the run;
  * `Undisturbed` is the condition on the copies under which the latest one is
    found, and `resolve_latest_iff` says that it is the exact one.
-/
import NexTalkRelay.Router.History

open Effect Js Runs

namespace Router

/-- The first hit in a list that descends is the largest one. -/
theorem le_of_find?_eq_some {α : Type} {f : α → ℕ} {p : α → Bool} {l : List α} {a b : α}
    (hl : l.Pairwise fun x y => f y < f x) (h : l.find? p = some a) (hb : b ∈ l)
    (hp : p b = true) : f b ≤ f a := by
  obtain ⟨-, before, rest, rfl, hbefore⟩ := List.find?_eq_some_iff_append.1 h
  rcases List.mem_append.1 hb with hb | hb
  · have hnot := hbefore b hb
    rw [hp] at hnot
    cases hnot
  · rcases List.mem_cons.1 hb with rfl | hb
    · exact le_rfl
    · have hrest := (List.pairwise_append.1 hl).2.1
      exact ((List.pairwise_cons.1 hrest).1 b hb).le

/-! ## Copies -/

/-- The shard that took a placement. -/
def Placement.shardUrl (env : Env) (urls : List JString) (p : Placement) : Option JString :=
  urls[hashPoint env.crypto p.pubkey.lower % p.count]?

/-- The latest successful registration of a key. -/
def Log.latest (L : Log) (pubkey : HexStr 64 64) : Option Placement :=
  L.placements.find? fun p => p.confirmed && p.pubkey.lower == pubkey.lower

/-- The eras that `/resolve` walks. -/
def Log.eras (env : Env) (L : Log) : List (Era (shardUrlsOf env L.state.1)) :=
  eraCountsDescending (shardUrlsOf env L.state.1) (priorCountsOf env L.state.1)

/-- Every earlier count under which a mailbox was placed is recorded. -/
def Recalls (env : Env) (L : Log) : Prop :=
  ∀ p ∈ L.placements, p.count = (shardUrlsOf env L.state.1).length ∨
    ∃ j ∈ priorCountsOf env L.state.1, integer? j = some (p.count : ℤ)

/-- Where a walked count looks for the key and another shard than the latest one
    has a copy, a larger walked count looks on the latest one. -/
def Undisturbed (env : Env) (L : Log) (pubkey : HexStr 64 64) (latest : Placement) : Prop :=
  ∀ p ∈ L.placements, mailboxIdOf env p.pubkey = mailboxIdOf env pubkey → ∀ n ∈ L.eras env,
    p.shardUrl env (shardUrlsOf env L.state.1) = some (ownerForEra env.crypto pubkey.1 n) →
    p.shardUrl env (shardUrlsOf env L.state.1) ≠ latest.shardUrl env (shardUrlsOf env L.state.1) →
      ∃ m ∈ L.eras env, n.1 < m.1 ∧
        latest.shardUrl env (shardUrlsOf env L.state.1) = some (ownerForEra env.crypto pubkey.1 m)

instance (env : Env) (L : Log) : Decidable (Recalls env L) :=
  inferInstanceAs (Decidable (∀ p ∈ L.placements, _ ∨ ∃ j ∈ priorCountsOf env L.state.1, _))

instance (env : Env) (L : Log) (pubkey : HexStr 64 64) (latest : Placement) :
    Decidable (Undisturbed env L pubkey latest) :=
  inferInstanceAs (Decidable (∀ p ∈ L.placements, _ → ∀ n ∈ L.eras env, _ → _ → ∃ m ∈ L.eras env, _))

/-- With one replica: the mailboxes on the shards are the placements. -/
structure Tracked (env : Env) (L : Log) : Prop where
  durable : Durable L.state.1
  bounded : ∀ p ∈ L.placements, 0 < p.count ∧ p.count ≤ (shardUrlsOf env L.state.1).length
  copies : ∀ url mailboxId, L.state.2.holds url mailboxId = true ↔ ∃ p ∈ L.placements,
    mailboxIdOf env p.pubkey = mailboxId ∧ p.shardUrl env (shardUrlsOf env L.state.1) = some url

section
variable {env : Env} {answer : JString → CreateBody → Created}

/-- A longer list keeps the shards of the placements. -/
theorem shardUrl_grows {urls urls' : List JString} (h : urls <+: urls') {p : Placement}
    (hpos : 0 < p.count) (hle : p.count ≤ urls.length) :
    p.shardUrl env urls' = p.shardUrl env urls := by
  obtain ⟨rest, rfl⟩ := h
  unfold Placement.shardUrl
  rw [List.getElem?_append_left ((Nat.mod_lt _ hpos).trans_le hle)]

/-- What grows the list and leaves the mailboxes alone keeps the invariant. -/
theorem Tracked.grows {L : Log} (h : Tracked env L) {s : State} (hd : Durable s.1)
    (hgrow : shardUrlsOf env L.state.1 <+: shardUrlsOf env s.1)
    (hcreated : s.2.created = L.state.2.created) :
    Tracked env { state := s, placements := L.placements } where
  durable := hd
  bounded p hp := ⟨(h.bounded p hp).1, (h.bounded p hp).2.trans hgrow.length_le⟩
  copies url mailboxId := by
    have hholds : s.2.holds url mailboxId = L.state.2.holds url mailboxId := by
      unfold World.holds; rw [hcreated]
    dsimp only
    rw [hholds, h.copies]
    refine exists_congr fun p => and_congr_right fun hp => ?_
    rw [shardUrl_grows hgrow (h.bounded p hp).1 (h.bounded p hp).2]

/-- A new placement is a new mailbox on its shard. -/
theorem Tracked.place {L : Log} (h : Tracked env L) {s : State} (hd : Durable s.1)
    (hurls : shardUrlsOf env s.1 = shardUrlsOf env L.state.1) {p : Placement}
    (hpos : 0 < p.count) (hle : p.count ≤ (shardUrlsOf env L.state.1).length) {url : JString}
    (hurl : p.shardUrl env (shardUrlsOf env L.state.1) = some url) {body : CreateBody}
    (hbody : body.mailboxId = mailboxIdOf env p.pubkey)
    (hcreated : s.2.created = (url, body) :: L.state.2.created) :
    Tracked env { state := s, placements := p :: L.placements } where
  durable := hd
  bounded q hq := by
    dsimp only
    rw [hurls]
    rcases List.mem_cons.1 hq with rfl | hq
    · exact ⟨hpos, hle⟩
    · exact h.bounded q hq
  copies url' mailboxId := by
    have hholds : s.2.holds url' mailboxId = true ↔
        (url = url' ∧ mailboxIdOf env p.pubkey = mailboxId) ∨
          L.state.2.holds url' mailboxId = true := by
      unfold World.holds
      rw [hcreated, List.any_cons, Bool.or_eq_true, Bool.and_eq_true, beq_iff_eq, beq_iff_eq, hbody]
    dsimp only
    rw [hholds, h.copies, hurls]
    simp only [List.mem_cons, exists_eq_or_imp, hurl, Option.some.injEq]
    exact or_congr and_comm Iff.rfl

/-! ## One event -/

/-- With one replica, a registration places one mailbox, or none. -/
theorem Tracked.register (hrf : env.replicationFactor = .ofInt 1) {L : Log} (h : Tracked env L)
    (t : ℕ) (rq : RegisterRequest) : Tracked env (L.handle env answer (t, .register rq)) := by
  have hd : Durable (L.handle env answer (t, .register rq)).state.1 := handle_durable h.durable
  -- a registration that creates nothing and is no success is no placement
  have hidle (hcreated : (handle env answer t (.register rq) L.state).2.2.created =
      L.state.2.created) (hstatus : (handle env answer t (.register rq) L.state).1.status ≠ 200)
      (hgrow : shardUrlsOf env L.state.1 <+:
        shardUrlsOf env (handle env answer t (.register rq) L.state).2.1) :
      Tracked env (L.handle env answer (t, .register rq)) := by
    have hnone : placement env answer t rq L.state = none := by
      unfold placement
      dsimp only
      split
      · rfl
      · rw [if_neg (by simp [hcreated, hstatus])]
    rw [Log.handle_register, hnone]
    exact h.grows hd hgrow hcreated
  rcases handle_cases env answer t (.register rq) h.durable with ⟨hnil, hsame⟩ | ⟨hne, hrew⟩
  · refine hidle (by rw [hsame]) ?_ (by rw [hsame])
    rw [handle_empty h.durable hnil]
    exact show (500 : ℕ) ≠ 200 by decide
  have hurls : shardUrlsOf env (handle env answer t (.register rq) L.state).2.1 =
      shardUrlsOf env L.state.1 := hrew.shardUrls
  rcases register_cases env answer t h.durable hne rq with ⟨hsame, hstatus⟩ |
    ⟨f, pubkey, o, hreg, hresp, hdel⟩
  · exact hidle (by rw [hsame]) hstatus (by rw [hurls])
  have hcreated := hdel.created
  have hok (hstatus : (handle env answer t (.register rq) L.state).1.status = 200) :=
    hdel.accepted (hresp ▸ hstatus)
  have hone : replicasOf env pubkey (Era.current hne) =
      [ownerForEra env.crypto pubkey.1 (Era.current hne)] := replicas_one hrf _ _ _
  rw [hone] at hcreated hok
  generalize hbody : createBody env t rq pubkey
    [ownerForEra env.crypto pubkey.1 (Era.current hne)] = body at hcreated hok
  simp only [List.foldl_cons, List.foldl_nil, World.post] at hcreated
  by_cases hacc : (answer (ownerForEra env.crypto pubkey.1 (Era.current hne)) body).ok = true
  · rw [if_pos hacc] at hcreated
    have hplace : placement env answer t rq L.state = some
        { pubkey, count := (shardUrlsOf env L.state.1).length,
          confirmed := (handle env answer t (.register rq) L.state).1.status == 200 } := by
      unfold placement
      rw [hreg.registrant]
      exact if_pos (Or.inr (by rw [hcreated]; simp))
    rw [Log.handle_register, hplace]
    refine h.place hd hurls (List.length_pos_of_ne_nil hne) le_rfl ?_ ?_ hcreated
    · exact (Era.current hne).getElem?_shard _
    · rw [← hbody]; rfl
  · rw [if_neg hacc] at hcreated
    refine hidle hcreated (fun hstatus => hacc ?_) (by rw [hurls])
    obtain ⟨url, hurl, hurlok⟩ := hok hstatus
    cases hurl
    exact hurlok

/-- **Step lemma.** -/
theorem Tracked.step (hrf : env.replicationFactor = .ofInt 1) {L : Log} (h : Tracked env L)
    {e : Event} (hgrow : Grows env answer L.state e) : Tracked env (L.step env answer e) := by
  cases e with
  | request t rq =>
    by_cases hrq : ∃ r, rq = .register r
    · obtain ⟨r, rfl⟩ := hrq
      exact h.register hrf t r
    · have hother : ∀ r, rq ≠ .register r := fun r hr => hrq ⟨r, hr⟩
      change Tracked env (L.handle env answer (t, rq))
      rw [Log.handle_other env answer t hother]
      exact h.grows (handle_durable h.durable) hgrow (created_of_other env answer t h.durable hother)
  | appendStatic urls => exact h.grows (apply_durable h.durable (.appendStatic urls)) hgrow rfl
  | setPriorCounts counts =>
    exact h.grows (apply_durable h.durable (.setPriorCounts counts)) hgrow rfl

/-- **Run lemma.** -/
theorem Tracked.run (hrf : env.replicationFactor = .ofInt 1) {s : State} (hd : Durable s.1)
    (hnew : s.2.created = []) {run : List Event}
    (hgrow : Always (Log.step env answer) (fun L e => Grows env answer L.state e) { state := s } run) :
    Tracked env (after (Log.step env answer) { state := s } run) := by
  refine hgrow.inv (I := Tracked env) (fun L e hi hg => hi.step hrf hg) ⟨hd, ?_, ?_⟩
  · intro p hp; cases hp
  · intro url mailboxId
    simp [World.holds, hnew]

/-! ## Lookups -/

/-- A walked era that looks on the shard of a placement of the mailbox hits. -/
theorem Tracked.hit_iff (hrf : env.replicationFactor = .ofInt 1) {L : Log} (h : Tracked env L)
    (pubkey : HexStr 64 64) (n : Era (shardUrlsOf env L.state.1)) :
    hit env pubkey L.state.2 n = true ↔ ∃ p ∈ L.placements,
      mailboxIdOf env p.pubkey = mailboxIdOf env pubkey ∧
        p.shardUrl env (shardUrlsOf env L.state.1) = some (ownerForEra env.crypto pubkey.1 n) := by
  unfold hit
  rw [replicas_one hrf]
  exact h.copies _ _

theorem Log.latest_spec {L : Log} {pubkey : HexStr 64 64} {latest : Placement}
    (h : L.latest pubkey = some latest) :
    latest ∈ L.placements ∧ latest.confirmed = true ∧ latest.pubkey.lower = pubkey.lower := by
  have hlatest := List.find?_some h
  simp only [Bool.and_eq_true, beq_iff_eq] at hlatest
  exact ⟨List.mem_of_find?_eq_some h, hlatest⟩

/-- The latest placement is where the count under which it was placed looks. -/
theorem latest_walked {L : Log} (h : Tracked env L) (hrecalls : Recalls env L)
    {pubkey : HexStr 64 64} {latest : Placement} (hlatest : L.latest pubkey = some latest) :
    ∃ n ∈ L.eras env, latest.shardUrl env (shardUrlsOf env L.state.1) =
      some (ownerForEra env.crypto pubkey.1 n) := by
  obtain ⟨hmem, -, hlower⟩ := Log.latest_spec hlatest
  obtain ⟨hpos, hle⟩ := h.bounded latest hmem
  refine ⟨⟨latest.count, hpos, hle⟩, mem_eraCountsDescending.2 (hrecalls latest hmem), ?_⟩
  unfold Placement.shardUrl
  rw [hlower]
  exact Era.getElem?_shard ⟨latest.count, hpos, hle⟩ _

/-- **`/resolve` finds the latest mailbox exactly when no older copy is in the
    way.**  In every state that a run reaches from a mesh without mailboxes, in
    which the shard list only ever grew and every earlier count is recorded, a
    lookup of a key that registered answers the shard of its latest registration
    iff its copies are `Undisturbed`. -/
theorem resolve_latest_iff (env : Env) (answer : JString → CreateBody → Created)
    (hrf : env.replicationFactor = .ofInt 1) {s : State} (hd : Durable s.1)
    (hnew : s.2.created = []) {run : List Event}
    (hgrow : Always (Log.step env answer) (fun L e => Grows env answer L.state e) { state := s } run)
    {L : Log} (hL : after (Log.step env answer) { state := s } run = L) (hrecalls : Recalls env L)
    {pubkey : HexStr 64 64} {latest : Placement} (hlatest : L.latest pubkey = some latest) (t : ℕ)
    {q : JString} (hq : HexStr.parse 64 64 q = some pubkey) :
    (∃ r, (handle env answer t (.resolve (some q)) L.state).1 = jsonOk (.resolved r) ∧
      r.shardUrl = latest.shardUrl env (shardUrlsOf env L.state.1)) ↔
        Undisturbed env L pubkey latest := by
  have htracked : Tracked env L := hL ▸ Tracked.run hrf hd hnew hgrow
  obtain ⟨hmem, -, hlower⟩ := Log.latest_spec hlatest
  have hid : mailboxIdOf env latest.pubkey = mailboxIdOf env pubkey := by
    unfold mailboxIdOf; rw [hlower]
  have hne : shardUrlsOf env L.state.1 ≠ [] := by
    obtain ⟨hpos, hle⟩ := htracked.bounded latest hmem
    exact List.ne_nil_of_length_pos (hpos.trans_le hle)
  obtain ⟨n, hn, hnlatest⟩ := latest_walked htracked hrecalls hlatest
  have hnhit := (htracked.hit_iff hrf pubkey n).2 ⟨latest, hmem, hid, hnlatest⟩
  -- the walk ends at an era `m`, the largest that hits
  obtain ⟨m, hm⟩ := Option.isSome_iff_exists.1
    (List.find?_isSome.2 ⟨n, hn, hnhit⟩ : ((L.eras env).find? fun n => hit env pubkey L.state.2 n).isSome)
  have hlargest (k : Era (shardUrlsOf env L.state.1)) (hk : k ∈ L.eras env)
      (hhit : hit env pubkey L.state.2 k = true) : k.1 ≤ m.1 :=
    le_of_find?_eq_some (f := Subtype.val) (eraCountsDescending_pairwise _ _) hm hk hhit
  obtain ⟨r, hr, -, hurl⟩ := resolve_run env answer t L.state.1 L.state.2 htracked.durable hne q hq
  have hfound : found env L.state.1 L.state.2 pubkey = some m := hm
  rw [hfound, Option.getD_some, replicas_one hrf] at hurl
  have hanswer : (∃ r, (handle env answer t (.resolve (some q)) L.state).1 = jsonOk (.resolved r) ∧
      r.shardUrl = latest.shardUrl env (shardUrlsOf env L.state.1)) ↔
      latest.shardUrl env (shardUrlsOf env L.state.1) = some (ownerForEra env.crypto pubkey.1 m) := by
    constructor
    · rintro ⟨r', hr', hlast⟩
      have hrr : jsonOk (.resolved r) = jsonOk (.resolved r') := hr.symm.trans hr'
      cases hrr
      exact hlast.symm.trans hurl
    · exact fun h => ⟨r, hr, hurl.trans h.symm⟩
  rw [hanswer]
  constructor
  · intro hmlatest p hp hpid k hk hpk hother
    have hkhit := (htracked.hit_iff hrf pubkey k).2 ⟨p, hp, hpid, hpk⟩
    refine ⟨m, List.mem_of_find?_eq_some hm, lt_of_le_of_ne (hlargest k hk hkhit) ?_, hmlatest⟩
    intro hkm
    obtain rfl : k = m := Subtype.ext hkm
    exact hother (hpk.trans hmlatest.symm)
  · intro hundisturbed
    obtain ⟨p, hp, hpid, hpm⟩ :=
      (htracked.hit_iff hrf pubkey m).1 (List.find?_some hm)
    by_contra hother
    obtain ⟨k, hk, hmk, hklatest⟩ := hundisturbed p hp hpid m (List.mem_of_find?_eq_some hm) hpm
      fun h => hother (h ▸ hpm)
    have hkhit := (htracked.hit_iff hrf pubkey k).2 ⟨latest, hmem, hid, hklatest⟩
    exact absurd (hlargest k hk hkhit) (not_le.2 hmk)

end

/-- Two static shards. -/
def pairEnv : Env := { zeroEnv with shardUrls := [js "http://a", js "http://b"] }

/-- The key `00…0` registers, a third shard joins, and the key registers again. -/
def movesOnce : List Request :=
  Request.register zeroRegistration :: joins 7 (js "http://c") 97 ++ [.register zeroRegistration]

/-- What is left of requests and a recording of counts. -/
def pairLog (requests : List Request) (counts : List ℤ) : Log :=
  after (Log.step pairEnv up) { state := fresh }
    (requests.map (Event.request 0) ++ [.setPriorCounts (counts.map fun k => .num (.ofInt k))])

/-- The second registration, under three shards. -/
def secondPlacement : Placement := { pubkey := zeroKey, count := 3, confirmed := true }

theorem moved_mailbox_found :
    ∃ r, (handle pairEnv up 0 (.resolve (some zeroKey.1)) (pairLog movesOnce [2]).state).1 =
      jsonOk (.resolved r) ∧ r.shardUrl =
        secondPlacement.shardUrl pairEnv (shardUrlsOf pairEnv (pairLog movesOnce [2]).state.1) :=
  (resolve_latest_iff pairEnv up rfl fresh_durable rfl (by decide +kernel) rfl
    (by decide +kernel : Recalls pairEnv (pairLog movesOnce [2]))
    (by decide +kernel : (pairLog movesOnce [2]).latest zeroKey = some secondPlacement) 0
    (HexStr.parse_eq_some.2 rfl)).2 (by decide +kernel)

/-- A fourth shard joins: its count looks for the key on the second shard, which
    still has the copy of the first registration. -/
def movesBack : List Request := movesOnce ++ joins 8 (js "http://d") 98

/-- The shard of a response of `/resolve`. -/
def Response.shardUrl (r : Response) : Option JString :=
  match r.body with
  | .resolved r => r.shardUrl
  | _ => none

theorem older_copy_found :
    Always (Log.step pairEnv up) (fun L e => Grows pairEnv up L.state e) { state := fresh }
        (movesBack.map (Event.request 0) ++ [.setPriorCounts [.num (.ofInt 2), .num (.ofInt 3)]]) ∧
      Recalls pairEnv (pairLog movesBack [2, 3]) ∧
      (pairLog movesBack [2, 3]).latest zeroKey = some secondPlacement ∧
      ¬ ∃ r, (handle pairEnv up 0 (.resolve (some zeroKey.1)) (pairLog movesBack [2, 3]).state).1 =
        jsonOk (.resolved r) ∧ r.shardUrl =
          secondPlacement.shardUrl pairEnv (shardUrlsOf pairEnv (pairLog movesBack [2, 3]).state.1) := by
  refine ⟨by decide +kernel, by decide +kernel, by decide +kernel, ?_⟩
  rintro ⟨r, hr, hurl⟩
  have hanswer : (handle pairEnv up 0 (.resolve (some zeroKey.1))
      (pairLog movesBack [2, 3]).state).1.shardUrl =
        secondPlacement.shardUrl pairEnv (shardUrlsOf pairEnv (pairLog movesBack [2, 3]).state.1) := by
    rw [hr]
    exact hurl
  revert hanswer
  decide +kernel

end Router
