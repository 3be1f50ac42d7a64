/-
  Reachability of mailboxes while shards register themselves.

  A registration lengthens the list of shards without recording the old count,
  and `/resolve` walks only the current count and the recorded ones.

  * `Reachable`: every `/resolve` for a key that registered finds its mailbox;
  * `Keeps` is the condition on a registration of a shard under which the
    mailboxes stay reachable, and `reachable_iff` says that it is the exact one,
    over whole runs.
-/
import NexTalkRelay.Router.History

open Effect Js Runs

namespace Router

section
variable {env : Env} {answer : JString → CreateBody → Created}

/-! ## Walks -/

/-- `/resolve` with this list of shards finds the mailbox of the key. -/
def Walks (env : Env) (urls : List JString) (s : State) (pubkey : HexStr 64 64) : Prop :=
  ∃ n ∈ eraCountsDescending urls (priorCountsOf env s.1), hit env pubkey s.2 n = true

/-- The current count is among the recorded ones. -/
def Recorded (env : Env) (kv : Kv) : Prop :=
  ∃ j ∈ priorCountsOf env kv, integer? j = some ((shardUrlsOf env kv).length : ℤ)

theorem walks_lower {pubkey pubkey' : HexStr 64 64} (h : pubkey.lower = pubkey'.lower)
    {urls : List JString} {s : State} : Walks env urls s pubkey ↔ Walks env urls s pubkey' := by
  unfold Walks
  simp only [hit_lower h]

theorem walks_congr {s s' : State} (hp : priorCountsOf env s'.1 = priorCountsOf env s.1)
    (hc : ∀ p ∈ s.2.created, p ∈ s'.2.created) {urls : List JString} {pubkey : HexStr 64 64}
    (h : Walks env urls s pubkey) : Walks env urls s' pubkey := by
  obtain ⟨n, hn, hhit⟩ := h
  exact ⟨n, by rwa [hp], hit_mono hc hhit⟩

/-- A walk that finds a mailbox finds it in a longer list, if the old count was
    recorded. -/
theorem Walks.extend {s : State} (hrec : Recorded env s.1) {urls : List JString}
    (hgrow : shardUrlsOf env s.1 <+: urls) {pubkey : HexStr 64 64}
    (h : Walks env (shardUrlsOf env s.1) s pubkey) : Walks env urls s pubkey := by
  obtain ⟨n, hn, hhit⟩ := h
  refine ⟨n.extend hgrow, ?_, by rwa [hit_extend]⟩
  rw [mem_eraCountsDescending] at hn ⊢
  refine Or.inr ?_
  rcases hn with hn | hn
  · obtain ⟨j, hj, hk⟩ := hrec
    exact ⟨j, hj, by rw [hk]; exact congrArg (fun k : ℕ => some (k : ℤ)) hn.symm⟩
  · exact hn

/-! ## The property and its condition -/

/-- Every `/resolve` for a key that registered with success finds its mailbox. -/
def Reachable (env : Env) (answer : JString → CreateBody → Created) (L : Log) : Prop :=
  ∀ p ∈ L.placements, p.confirmed = true → ∀ (t : ℕ) (q : JString) (pubkey : HexStr 64 64),
    HexStr.parse 64 64 q = some pubkey → pubkey.lower = p.pubkey.lower →
      ∃ r shardUrl, (handle env answer t (.resolve (some q)) L.state).1 = jsonOk (.resolved r) ∧
        r.confirmed = true ∧ r.shardUrl = some shardUrl ∧
        L.state.2.holds shardUrl (mailboxIdOf env pubkey) = true

/-- A request that lengthens the list of shards finds the old count recorded, or
    every registered mailbox where the new count or a recorded one looks for it. -/
def Keeps (env : Env) (L : Log) (e : ℕ × Request) : Prop :=
  ∀ shardUrl ∈ joined env e.1 e.2 L.state.1, shardUrl ∉ shardUrlsOf env L.state.1 →
    Recorded env L.state.1 ∨ ∀ p ∈ L.placements, p.confirmed = true →
      Walks env (shardUrlsOf env L.state.1 ++ [shardUrl]) L.state p.pubkey

/-- The Router has shards, in lists that do not expire. -/
def Configured (env : Env) (L : Log) : Prop := Durable L.state.1 ∧ shardUrlsOf env L.state.1 ≠ []

theorem reachable_iff_walks {L : Log} (hc : Configured env L) :
    Reachable env answer L ↔ ∀ p ∈ L.placements, p.confirmed = true →
      Walks env (shardUrlsOf env L.state.1) L.state p.pubkey := by
  obtain ⟨⟨kv, w⟩, placements⟩ := L
  obtain ⟨hd, hne⟩ := hc
  constructor
  · intro h p hp hconf
    obtain ⟨r, -, hr, hfound, -, -⟩ := h p hp hconf 0 p.pubkey.1 p.pubkey
      (HexStr.parse_eq_some.2 rfl) rfl
    have hparse : HexStr.parse 64 64 p.pubkey.1 = some p.pubkey := HexStr.parse_eq_some.2 rfl
    obtain ⟨r', hr', hsome, -⟩ := resolve_run env answer 0 kv w hd hne p.pubkey.1 hparse
    have hrr : jsonOk (.resolved r) = jsonOk (.resolved r') := hr.symm.trans hr'
    cases hrr
    rw [hfound] at hsome
    obtain ⟨n, hn, hhit⟩ := List.find?_isSome.1 hsome.symm
    exact ⟨n, hn, hhit⟩
  · intro h p hp hconf t q pubkey hq hlower
    obtain ⟨r, hr, hsome, hurl⟩ := resolve_run env answer t kv w hd hne q hq
    obtain ⟨n, hn, hhit⟩ := (walks_lower hlower).2 (h p hp hconf)
    have hfound : (found env kv w pubkey).isSome = true := List.find?_isSome.2 ⟨n, hn, hhit⟩
    obtain ⟨m, hm⟩ := Option.isSome_iff_exists.1 hfound
    have hmhit : hit env pubkey w m = true := List.find?_some hm
    rw [hm, Option.getD_some] at hurl
    unfold hit at hmhit
    rw [← hurl] at hmhit
    cases hs : r.shardUrl with
    | none => rw [hs] at hmhit; cases hmhit
    | some shardUrl =>
      rw [hs] at hmhit
      exact ⟨r, shardUrl, hr, hsome.trans hfound, hs, hmhit⟩

/-- The response is a mailbox address that is confirmed. -/
def Response.confirmed (r : Response) : Bool :=
  match r.body with
  | .resolved r => r.confirmed
  | _ => false

theorem Reachable.confirms {L : Log} (h : Reachable env answer L) {p : Placement}
    (hp : p ∈ L.placements) (hconf : p.confirmed = true) :
    (handle env answer 0 (.resolve (some p.pubkey.1)) L.state).1.confirmed = true := by
  obtain ⟨r, -, hr, hfound, -, -⟩ := h p hp hconf 0 p.pubkey.1 p.pubkey
    (HexStr.parse_eq_some.2 rfl) rfl
  rw [hr]
  exact hfound

/-! ## One request -/

theorem configured_handle {L : Log} (hc : Configured env L) (e : ℕ × Request) :
    Configured env (L.handle env answer e) := by
  refine ⟨handle_durable hc.1, ?_⟩
  change shardUrlsOf env (handle env answer e.1 e.2 L.state).2.1 ≠ []
  rcases handle_cases env answer e.1 e.2 hc.1 with ⟨hne, -⟩ | ⟨-, h⟩
  · exact absurd hne hc.2
  · rw [h.shardUrls]
    intro hnil
    have hprefix := Merge.prefix_pushAbsent (shardUrlsOf env L.state.1)
      (joined env e.1 e.2 L.state.1).toList
    rw [hnil, List.prefix_nil] at hprefix
    exact hc.2 hprefix

/-- A request takes no mailbox away. -/
theorem created_mono (env : Env) (answer : JString → CreateBody → Created) {s : State}
    (hd : Durable s.1) (hne : shardUrlsOf env s.1 ≠ []) (t : ℕ) (rq : Request) :
    ∀ p ∈ s.2.created, p ∈ (handle env answer t rq s).2.2.created := by
  intro p hp
  by_cases hrq : ∃ r, rq = .register r
  · obtain ⟨r, rfl⟩ := hrq
    rcases register_cases env answer t hd hne r with ⟨h, -⟩ | ⟨f, pubkey, o, -, -, h⟩
    · rwa [h]
    · rw [h.created]; exact (World.created_post_suffix answer _ _ _).subset hp
  · rwa [created_of_other env answer t hd fun r h => hrq ⟨r, h⟩]

/-- A mailbox that was just registered is where the current count looks for it. -/
theorem walks_of_placement {s : State} (hd : Durable s.1) (hne : shardUrlsOf env s.1 ≠ []) {t : ℕ}
    {rq : RegisterRequest} {p : Placement} (hp : placement env answer t rq s = some p)
    (hconf : p.confirmed = true) :
    Walks env (shardUrlsOf env s.1) (handle env answer t (.register rq) s).2 p.pubkey := by
  have hstatus : (handle env answer t (.register rq) s).1.status = 200 ∧
      registrant rq = some p.pubkey := by
    unfold placement at hp
    dsimp only at hp
    split at hp
    · cases hp
    · split at hp
      · cases hp
        exact ⟨by simpa using hconf, by assumption⟩
      · cases hp
  rcases register_cases env answer t hd hne rq with ⟨-, h⟩ | ⟨f, pubkey, o, hreg, hresp, hdel⟩
  · exact absurd hstatus.1 h
  obtain rfl : pubkey = p.pubkey := Option.some.inj (hreg.registrant.symm.trans hstatus.2)
  obtain ⟨shardUrl, hhead, hacc⟩ := hdel.accepted (hresp ▸ hstatus.1)
  have hcreated := hdel.created
  refine ⟨Era.current hne, mem_eraCountsDescending.2 (Or.inl rfl), ?_⟩
  unfold hit
  change (replicasOf env p.pubkey (Era.current hne)).head?.any _ = true
  cases hr : replicasOf env p.pubkey (Era.current hne) with
  | nil => rw [hr] at hhead; cases hhead
  | cons url rest =>
    rw [hr] at hhead hcreated hacc
    cases hhead
    refine World.holds_iff.2 ⟨createBody env t rq p.pubkey (shardUrl :: rest), ?_, rfl⟩
    rw [hcreated, List.foldl_cons]
    refine (World.created_post_suffix answer _ _ rest).subset ?_
    simp only [World.post, hacc, if_true]
    exact List.mem_cons_self

/-- **Step lemma.** -/
theorem reachable_handle_iff {L : Log} (hc : Configured env L) (hr : Reachable env answer L)
    (e : ℕ × Request) : Reachable env answer (L.handle env answer e) ↔ Keeps env L e := by
  rw [reachable_iff_walks (configured_handle hc e)]
  rw [reachable_iff_walks hc] at hr
  obtain ⟨t, rq⟩ := e
  obtain ⟨hd, hne⟩ := hc
  rcases handle_cases env answer t rq hd with ⟨hnil, -⟩ | ⟨-, hrew⟩
  · exact absurd hnil hne
  have hurls := hrew.shardUrls
  have hprior := hrew.priorCountsOf
  have hmono := created_mono env answer hd hne t rq
  by_cases hlong : ∃ url, joined env t rq L.state.1 = some url ∧ url ∉ shardUrlsOf env L.state.1
  · obtain ⟨url, hj, hnew⟩ := hlong
    have hother : ∀ r, rq ≠ .register r := by rintro r rfl; cases hj
    have hcreated := created_of_other env answer t hd hother
    have hplaced : (L.handle env answer (t, rq)).placements = L.placements := by
      rw [Log.handle_other env answer t hother]
    rw [hj, Option.toList_some, Merge.pushAbsent_singleton, if_neg hnew] at hurls
    -- the walk over the longer list, before and after the request
    have hwalks (pubkey : HexStr 64 64) :
        Walks env (shardUrlsOf env (handle env answer t rq L.state).2.1)
          (handle env answer t rq L.state).2 pubkey ↔
        Walks env (shardUrlsOf env L.state.1 ++ [url]) L.state pubkey := by
      rw [hurls]
      exact ⟨walks_congr hprior.symm fun p hp => hcreated ▸ hp, walks_congr hprior hmono⟩
    rw [hplaced]
    constructor
    · intro h url' hurl' _
      obtain rfl : url = url' := Option.some.inj (hj.symm.trans hurl')
      exact Or.inr fun p hp hconf => (hwalks p.pubkey).1 (h p hp hconf)
    · intro h p hp hconf
      refine (hwalks p.pubkey).2 ?_
      rcases h url hj hnew with hrec | h
      · exact (hr p hp hconf).extend hrec (List.prefix_append _ _)
      · exact h p hp hconf
  · refine iff_of_true (fun p hp hconf => ?_) fun url hj hnew => (hlong ⟨url, hj, hnew⟩).elim
    have hsame : shardUrlsOf env (handle env answer t rq L.state).2.1 = shardUrlsOf env L.state.1 := by
      rw [hurls]
      cases hj : joined env t rq L.state.1 with
      | none => rfl
      | some url =>
        rw [Option.toList_some, Merge.pushAbsent_singleton,
          if_pos (not_not.1 fun hnew => hlong ⟨url, hj, hnew⟩)]
    change Walks env (shardUrlsOf env (handle env answer t rq L.state).2.1) _ _
    rw [hsame]
    by_cases hold : p ∈ L.placements
    · exact walks_congr hprior hmono (hr p hold hconf)
    · cases rq with
      | register r =>
        obtain hp | hp := List.mem_append.1 hp
        · exact walks_of_placement hd hne (Option.mem_toList.1 hp) hconf
        · exact absurd hp hold
      | _ => exact absurd hp hold

/-! ## Runs -/

/-- **Mailboxes stay reachable exactly while old counts are recorded.**  Over any
    run of requests from a Router with shards, every state reached finds every
    mailbox that was registered iff every registration of a shard `Keeps` them. -/
theorem reachable_iff (env : Env) (answer : JString → CreateBody → Created) {s : State}
    (hd : Durable s.1) (hne : shardUrlsOf env s.1 ≠ []) (run : List (ℕ × Request)) :
    Always (Log.handle env answer) (fun L e => Reachable env answer (L.handle env answer e))
        { state := s } run ↔
      Always (Log.handle env answer) (Keeps env) { state := s } run :=
  always_next_iff (I := Configured env) (J := Reachable env answer)
    (fun _ e hc => configured_handle hc e) (fun _ e hc hr => reachable_handle_iff hc hr e) ⟨hd, hne⟩
    (fun _ hp => by cases hp)

end

/-- The first shard takes the mailbox of the key `00…0`, then a second one
    registers itself; the count of one shard is recorded. -/
theorem recorded_growth_reachable :
    Always (Log.handle recordingEnv up)
      (fun L e => Reachable recordingEnv up (L.handle recordingEnv up e)) { state := fresh }
      ((0, .register zeroRegistration) :: (joins 7 (js "http://b") 97).map fun rq => (0, rq)) := by
  refine (reachable_iff recordingEnv up fresh_durable (by decide) _).2 ⟨?_, ?_, ?_, trivial⟩
  · rintro url ⟨⟩
  · rintro url ⟨⟩
  · intro url _ _
    exact Or.inl ⟨.num (.ofInt 1), List.mem_singleton.2 rfl, by decide +kernel⟩

/-- The hash of the key is odd: when a second shard registers itself, the key
    is looked for there, and the count under which it was placed is not
    recorded. -/
theorem growth_loses_mailbox : ¬ Always (Log.handle zeroEnv up)
    (fun L e => Reachable zeroEnv up (L.handle zeroEnv up e)) { state := fresh }
    ((0, .register zeroRegistration) :: (joins 7 (js "http://b") 97).map fun rq => (0, rq)) := by
  intro h
  have hfinds := h.2.2.1.confirms (p := { pubkey := zeroKey, count := 1, confirmed := true })
    (by decide +kernel) rfl
  revert hfinds
  decide +kernel

end Router
