/-
  What the alias map remembers.

  A later operation overwrites the whole entry of an alias, also with less than
  was known.

  * `Remembers`: each alias has the last secret and the last Router that were
    recorded for it;
  * `Careful` is a step that overwrites nothing known by nothing, and
    `Lasting.step` the step lemma;
  * `map_remembers`: in a run of such steps nothing is forgotten.
-/
import NexTalkRelay.Bridge.Aliases

open Effect Js

namespace Bridge

/-! ## What the map remembers -/

/-- The last text other than `[]` that was recorded for a key. -/
def lastOf (field : Binding → Bytes) (recorded : List (JString × Binding)) (key : JString) : Bytes :=
  recorded.foldl (fun last e => if e.1 = key ∧ field e.2 ≠ [] then field e.2 else last) []

/-- Each alias has the last secret and the last Router that were recorded for it. -/
def Remembers (s : Life) : Prop := ∀ key ∈ s.recorded.map Prod.fst, ∃ v,
  mapGet s.bridge.aliases key = some v ∧
    v.readSecret = lastOf Binding.readSecret s.recorded key ∧
    v.routerURL = lastOf Binding.routerURL s.recorded key

/-- No text is overwritten by nothing: a Router resolves to no mailbox with a known
    secret, and an attach names a Router if one is known.  What a restart has to
    keep can be kept: each entry has a shard, and a Router whose URL is UTF-8, and
    some entry names a Router if one is configured. -/
def Careful (np : NanoPack) (c : Crypto) (s : Life) : BridgeEvent → Prop
  | .request op payload l =>
    (op = opResolve ∨ op = opSend → ∀ routerURL recipientPub res full old,
      ⟨.resolve routerURL recipientPub, .ok res⟩ ∈ l → fullMailbox res.mailboxID = some full →
      mapGet s.bridge.aliases (bytesToHex (aliasFor c full)) = some old → old.readSecret = []) ∧
    (op = opAttach → ∀ req old, unmarshalAttach np payload = .ok req → req.routerURL = [] →
      mapGet s.bridge.aliases (bytesToHex req.mailboxID) = some old → old.routerURL = [])
  | .restart =>
    (∀ e ∈ s.bridge.aliases, e.2.shardURL ≠ [] ∧ jsonText e.2.routerURL = e.2.routerURL) ∧
      (s.bridge.routerURL ≠ [] → ∃ e ∈ s.bridge.aliases, e.2.routerURL ≠ [])

/-- A step without a new configuration. -/
def BridgeEvent.keepsConfig : BridgeEvent → Prop
  | request op _ _ => op ≠ opInitialize
  | restart => True

/-- A run in which every step is careful. -/
def CarefulRun (np : NanoPack) (c : Crypto) : Life → Life → Prop :=
  Relation.ReflTransGen fun s s' => ∃ e, Step np c e s s' ∧ e.keepsConfig ∧ Careful np c s e

section Remembers

variable {np : NanoPack} {c : Crypto} {s s' : Life} {b : BridgeState} {payload : Bytes} {op : UInt8}
  {l : Transcript} {key : JString} {v old : Binding} {field : Binding → Bytes}
  {recorded : List (JString × Binding)}

theorem lastOf_append (e : JString × Binding) :
    lastOf field (recorded ++ [e]) key =
      if e.1 = key ∧ field e.2 ≠ [] then field e.2 else lastOf field recorded key := by
  unfold lastOf
  rw [List.foldl_append]
  rfl

theorem lastOf_unrecorded (h : key ∉ recorded.map Prod.fst) : lastOf field recorded key = [] := by
  have hfold (last : Bytes) : recorded.foldl
      (fun last e => if e.1 = key ∧ field e.2 ≠ [] then field e.2 else last) last = last := by
    induction recorded with
    | nil => rfl
    | cons e recorded ih =>
      rw [List.map_cons, List.mem_cons, not_or] at h
      rw [List.foldl_cons, if_neg fun heq => h.1 heq.1.symm, ih h.2]
  exact hfold []

theorem resolution_mem {res : Resolution} (h : resolution l = some res) :
    ∃ routerURL recipientPub, ⟨.resolve routerURL recipientPub, .ok res⟩ ∈ l := by
  obtain ⟨e, he, hres⟩ := List.exists_of_findSome?_eq_some h
  obtain ⟨o, r⟩ := e
  cases o with
  | resolve routerURL recipientPub =>
    cases r with
    | error e => cases hres
    | ok res' =>
      cases hres
      exact ⟨routerURL, recipientPub, he⟩
  | _ => cases hres

theorem sendPlan_pubkey {routerURL recipientPub frame : Bytes}
    (h : sendPlan np b payload = .ok (.pubkey routerURL recipientPub frame)) : routerURL ≠ [] := by
  unfold sendPlan at h
  simp only [bind, Except.bind] at h
  split at h
  · cases h
  · split at h
    · cases h
    · split at h
      · split at h <;> cases h
      · split at h
        · cases h
        · split at h
          · cases h
          · next hrouter =>
            cases h
            exact hrouter

theorem registerPlan_ok {routerURL userTag : Bytes}
    (h : registerPlan np b payload = .ok (routerURL, userTag)) : routerURL ≠ [] := by
  unfold registerPlan at h
  simp only [bind, Except.bind] at h
  split at h
  · cases h
  · next req hreq =>
    by_cases hrouter : (if req.routerURL = [] then b.effectiveRouter else req.routerURL) = []
    · rw [if_pos hrouter] at h
      cases h
    · rw [if_neg hrouter] at h
      cases h
      exact hrouter

theorem resolvePlan_ok {routerURL recipientPub : Bytes}
    (h : resolvePlan np b payload = .ok (routerURL, recipientPub)) : routerURL ≠ [] := by
  unfold resolvePlan at h
  simp only [bind, Except.bind] at h
  split at h
  · cases h
  · next req hreq =>
    by_cases hrouter : (if req.routerURL = [] then b.effectiveRouter else req.routerURL) = []
    · rw [if_pos hrouter] at h
      cases h
    · rw [if_neg hrouter] at h
      cases h
      exact hrouter

theorem fullMailbox_ne_nil {text full : Bytes} (h : fullMailbox text = some full) : text ≠ [] := by
  rintro rfl
  obtain ⟨hdecode, hlength⟩ := Option.filter_eq_some_iff.1 h
  have hnil : hexDecode [] = some [] := rfl
  cases hnil.symm.trans hdecode
  exact absurd hlength (by decide)

theorem hexEncode_ne_nil {bytes : Bytes} (h : bytes.length = 32) : hexEncode bytes ≠ [] := by
  intro hnil
  have hlength := length_bytesToHex bytes
  rw [encode_eq_nil hnil, h] at hlength
  cases hlength

theorem unmarshalAttach_secret {req : AttachReq} (h : unmarshalAttach np payload = .ok req) :
    req.readSecret.length = 32 := by
  unfold unmarshalAttach at h
  cases hfields : np.decodeID payload with
  | error e =>
    rw [hfields] at h
    cases h
  | ok fields =>
    rw [hfields] at h
    simp only [bind, Except.bind] at h
    split at h
    · cases h
    · next hbounds =>
      cases h
      simp only [not_or, not_not] at hbounds
      exact hbounds.2.1

/-- **A careful request records no text in place of a known one by nothing.** -/
theorem recordOf_fills (hcareful : Careful np c s (.request op payload l))
    (h : recordOf np c s.bridge payload op l = some (key, v))
    (hold : mapGet s.bridge.aliases key = some old) :
    (v.readSecret = [] → old.readSecret = []) ∧ (v.routerURL = [] → old.routerURL = []) := by
  obtain ⟨hpeer, hattach⟩ := hcareful
  have hresolved (hop : op = opResolve ∨ op = opSend) {routerURL : Bytes} (hrouter : routerURL ≠ [])
      (hrec : (resolution l).bind (peerRecord c routerURL) = some (key, v)) :
      (v.readSecret = [] → old.readSecret = []) ∧ (v.routerURL = [] → old.routerURL = []) := by
    obtain ⟨res, hres, hrec⟩ := Option.bind_eq_some_iff.1 hrec
    obtain ⟨full, hfull, heq⟩ := Option.map_eq_some_iff.1 hrec
    cases heq
    obtain ⟨_, _, hmem⟩ := resolution_mem hres
    exact ⟨fun _ => hpeer hop _ _ _ _ _ hmem hfull hold, fun hnil => absurd hnil hrouter⟩
  unfold recordOf at h
  split at h
  · next hop =>
    split at h
    · next hplan => exact hresolved (Or.inr hop) (sendPlan_pubkey hplan) h
    · cases h
  · split at h
    · next hop =>
      split at h
      · next req bind hplan =>
        cases h
        obtain ⟨-, hreq, hget⟩ := attachPlan_ok hplan
        refine ⟨fun hnil => ?_, fun hnil => hattach hop req old hreq hnil hold⟩
        have hsize : req.readSecret.length = 32 := unmarshalAttach_secret hreq
        exact absurd hnil (hexEncode_ne_nil hsize)
      · cases h
    · split at h
      · split at h
        · next routerURL _ hplan =>
          obtain ⟨cap, -, hrec⟩ := Option.bind_eq_some_iff.1 h
          obtain ⟨full, -, hrec⟩ := Option.bind_eq_some_iff.1 hrec
          obtain ⟨secret, hsecret, heq⟩ := Option.map_eq_some_iff.1 hrec
          cases heq
          exact ⟨fun hnil => absurd hnil (fullMailbox_ne_nil hsecret),
            fun hnil => absurd hnil (registerPlan_ok hplan)⟩
        · cases h
      · split at h
        · next hop =>
          split at h
          · next hplan => exact hresolved (Or.inl hop) (resolvePlan_ok hplan) h
          · cases h
        · cases h

/-- What a record says about the secret is text that a file keeps. -/
theorem recordOf_secret (h : recordOf np c b payload op l = some (key, v)) :
    jsonText v.readSecret = v.readSecret := by
  have hresolved {routerURL : Bytes}
      (hrec : (resolution l).bind (peerRecord c routerURL) = some (key, v)) :
      jsonText v.readSecret = v.readSecret := by
    obtain ⟨res, -, hrec⟩ := Option.bind_eq_some_iff.1 hrec
    obtain ⟨full, -, heq⟩ := Option.map_eq_some_iff.1 hrec
    cases heq
    rfl
  unfold recordOf at h
  split at h
  · split at h
    · exact hresolved h
    · cases h
  · split at h
    · split at h
      · next req bind hplan =>
        cases h
        exact jsonText_hexEncode req.readSecret
      · cases h
    · split at h
      · split at h
        · obtain ⟨cap, -, hrec⟩ := Option.bind_eq_some_iff.1 h
          obtain ⟨full, -, hrec⟩ := Option.bind_eq_some_iff.1 hrec
          obtain ⟨secret, hsecret, heq⟩ := Option.map_eq_some_iff.1 hrec
          cases heq
          exact jsonText_hex (Option.filter_eq_some_iff.1 hsecret).1
        · cases h
      · split at h
        · split at h
          · exact hresolved h
          · cases h
        · cases h

/-! ### The Router -/

theorem effectiveRouter_ne_nil : b.effectiveRouter ≠ [] ↔ b.routerURL ≠ [] ∨
    (∃ e ∈ b.attached, e.2.routerURL ≠ []) ∨ ∃ e ∈ b.aliases, e.2.routerURL ≠ [] := by
  have hfound {m : List (JString × Binding)} {e : JString × Binding}
      (h : (m.find? fun e => e.2.routerURL ≠ []) = some e) : e ∈ m ∧ e.2.routerURL ≠ [] :=
    ⟨List.mem_of_find?_eq_some h, by simpa using List.find?_some h⟩
  have hnone {m : List (JString × Binding)}
      (h : (m.find? fun e => e.2.routerURL ≠ []) = none) : ¬ ∃ e ∈ m, e.2.routerURL ≠ [] := by
    simpa using h
  unfold BridgeState.effectiveRouter
  dsimp only
  by_cases hb : b.routerURL = []
  · rw [if_neg (not_not.2 hb)]
    cases hattached : b.attached.find? fun e => e.2.routerURL ≠ [] with
    | some e =>
      obtain ⟨he, hrouter⟩ := hfound hattached
      exact iff_of_true hrouter (Or.inr (Or.inl ⟨e, he, hrouter⟩))
    | none =>
      cases haliases : b.aliases.find? fun e => e.2.routerURL ≠ [] with
      | some e =>
        obtain ⟨he, hrouter⟩ := hfound haliases
        exact iff_of_true hrouter (Or.inr (Or.inr ⟨e, he, hrouter⟩))
      | none =>
        refine iff_of_false (fun h => h rfl) ?_
        rintro (h | h | h)
        · exact h hb
        · exact hnone hattached h
        · exact hnone haliases h
  · rw [if_pos hb]
    exact iff_of_true hb (Or.inl hb)

/-- What holds in a careful run. -/
structure Lasting (c : Crypto) (s : Life) : Prop where
  sound : Sound c s
  keys : (s.bridge.aliases.map Prod.fst).Nodup
  secrets : ∀ e ∈ s.bridge.aliases, jsonText e.2.readSecret = e.2.readSecret
  -- the map knows a Router for each attachment that names one
  routers : ∀ e ∈ s.bridge.attached, e.2.routerURL ≠ [] →
    ∃ v, mapGet s.bridge.aliases e.1 = some v ∧ v.routerURL ≠ []
  remembers : Remembers s

/-- A Router is configured, or in the map. -/
def KnowsRouter (s : Life) : Prop :=
  s.bridge.routerURL ≠ [] ∨ ∃ key v, mapGet s.bridge.aliases key = some v ∧ v.routerURL ≠ []

theorem Lasting.effectiveRouter (hs : Lasting c s) :
    s.bridge.effectiveRouter ≠ [] ↔ KnowsRouter s := by
  rw [effectiveRouter_ne_nil]
  constructor
  · rintro (h | ⟨e, he, hrouter⟩ | ⟨e, he, hrouter⟩)
    · exact Or.inl h
    · obtain ⟨v, hv, hrouter'⟩ := hs.routers e he hrouter
      exact Or.inr ⟨e.1, v, hv, hrouter'⟩
    · exact Or.inr ⟨e.1, e.2, mapGet_of_mem hs.keys he, hrouter⟩
  · rintro (h | ⟨key, v, hv, hrouter⟩)
    · exact Or.inl h
    · exact Or.inr (Or.inr ⟨(key, v), mapGet_eq_some hv, hrouter⟩)

theorem mapGet_saveAliases (m : List (JString × Binding)) (key : JString) :
    mapGet (saveAliases m) key = (mapGet m key).map Binding.saved := by
  induction m with
  | nil => rfl
  | cons e m ih =>
    have hsave : saveAliases (e :: m) = (e.1, e.2.saved) :: saveAliases m := rfl
    rw [hsave, mapGet_cons, mapGet_cons, ih]
    split <;> rfl

/-- **A restart keeps every entry that has a shard.** -/
theorem Sound.restarted_aliases (hs : Sound c s)
    (hshard : ∀ e ∈ s.bridge.aliases, e.2.shardURL ≠ []) :
    s.bridge.restarted.aliases = saveAliases s.bridge.aliases := by
  refine List.filter_eq_self.2 fun e he => ?_
  obtain ⟨e, hmem, rfl⟩ := List.mem_map.1 he
  obtain ⟨full, hfull, hkey⟩ := hs.aliases e hmem
  have hlength : e.1.length = 32 := by
    have hdigest := (c.sha256 full).2
    rw [← hkey, length_bytesToHex, aliasFor, List.length_take]
    omega
  have hmailbox : jsonText e.2.mailboxID ≠ [] := mt jsonText_eq_nil.1 (fullMailbox_ne_nil hfull)
  have hshard' : jsonText e.2.shardURL ≠ [] := mt jsonText_eq_nil.1 (hshard e hmem)
  simp [Binding.saved, hlength, hmailbox, hshard']

/-! ### One step -/

theorem recorded_next : (next np c b payload op l).aliases =
    match recordOf np c b payload op l with
    | some (key, v) => mapSet b.aliases key v
    | none => b.aliases := by
  unfold next BridgeState.recording
  split <;> simp [control_aliases, *]

/-- What a careful request leaves of an entry, field by field. -/
theorem Remembers.request (hs : Remembers s) (hcareful : Careful np c s (.request op payload l)) :
    Remembers { s with
      bridge := next np c s.bridge payload op l
      recorded := s.recorded ++ (recordOf np c s.bridge payload op l).toList } := by
  intro key hkey
  dsimp only at hkey ⊢
  rw [recorded_next]
  cases hrec : recordOf np c s.bridge payload op l with
  | none =>
    rw [hrec, Option.toList_none, List.append_nil] at hkey
    rw [Option.toList_none, List.append_nil]
    exact hs key hkey
  | some e =>
    obtain ⟨k, v⟩ := e
    rw [hrec] at hkey
    simp only [Option.toList_some, List.map_append, List.mem_append, List.map_cons, List.map_nil,
      List.mem_singleton] at hkey
    rw [Option.toList_some]
    dsimp only
    rw [mapGet_mapSet, lastOf_append, lastOf_append]
    by_cases hk : key = k
    · subst hk
      rw [if_pos rfl]
      -- a text that is not recorded now was not known before
      have hlast {field : Binding → Bytes} (hfield : ∀ old,
          mapGet s.bridge.aliases key = some old → field v = [] → field old = [])
          (hold : ∀ old, mapGet s.bridge.aliases key = some old → key ∈ s.recorded.map Prod.fst →
            field old = lastOf field s.recorded key) :
          field v = if key = key ∧ field v ≠ [] then field v else lastOf field s.recorded key := by
        by_cases hnil : field v = []
        · rw [if_neg fun h => h.2 hnil]
          by_cases hmem : key ∈ s.recorded.map Prod.fst
          · obtain ⟨old, hget, -⟩ := hs key hmem
            rw [← hold old hget hmem, hfield old hget hnil, hnil]
          · rw [lastOf_unrecorded hmem, hnil]
        · rw [if_pos ⟨rfl, hnil⟩]
      refine ⟨v, rfl, hlast (fun old hold => ?_) (fun old hold hmem => ?_),
        hlast (fun old hold => ?_) (fun old hold hmem => ?_)⟩
      · exact (recordOf_fills hcareful hrec hold).1
      · obtain ⟨old', hget, hsecret, -⟩ := hs key hmem
        cases hget.symm.trans hold
        exact hsecret
      · exact (recordOf_fills hcareful hrec hold).2
      · obtain ⟨old', hget, -, hrouter⟩ := hs key hmem
        cases hget.symm.trans hold
        exact hrouter
    · have hne : ¬ k = key := fun h => hk h.symm
      rw [if_neg hk, if_neg fun h => hne h.1, if_neg fun h => hne h.1]
      exact hs key (hkey.resolve_right hk)

/-- The entry of an alias after a request keeps a Router. -/
theorem router_kept (hcareful : Careful np c s (.request op payload l)) {key : JString} {v : Binding}
    (hget : mapGet s.bridge.aliases key = some v) (hrouter : v.routerURL ≠ []) :
    ∃ v', mapGet (next np c s.bridge payload op l).aliases key = some v' ∧ v'.routerURL ≠ [] := by
  rw [recorded_next]
  cases hrec : recordOf np c s.bridge payload op l with
  | none => exact ⟨v, hget, hrouter⟩
  | some e =>
    obtain ⟨k, w⟩ := e
    dsimp only
    rw [mapGet_mapSet]
    by_cases hk : key = k
    · subst hk
      exact ⟨w, if_pos rfl, fun hnil => hrouter ((recordOf_fills hcareful hrec hget).2 hnil)⟩
    · exact ⟨v, (if_neg hk).trans hget, hrouter⟩

theorem control_routerURL (hop : op ≠ opInitialize) (h : b.routerURL ≠ []) :
    (control np b payload op).routerURL ≠ [] := by
  unfold control
  rw [if_neg hop]
  split
  · unfold onStartStop
    split <;> exact h
  · split
    · unfold onDetach
      split <;> exact h
    · split
      · split <;> simp [h]
      · exact h

/-- The last attachment of an alias is also what is recorded for it. -/
theorem routers_next (hs : Lasting c s) (hcareful : Careful np c s (.request op payload l)) :
    ∀ e ∈ (next np c s.bridge payload op l).attached, e.2.routerURL ≠ [] →
      ∃ v, mapGet (next np c s.bridge payload op l).aliases e.1 = some v ∧ v.routerURL ≠ [] := by
  intro e he hrouter
  rw [next, recording_attached] at he
  rcases mem_control_attached he with he | ⟨rfl, req, bind, hplan, rfl⟩
  · obtain ⟨v, hget, hv⟩ := hs.routers e he hrouter
    exact router_kept hcareful hget hv
  · have hrec : recordOf np c s.bridge payload opAttach l =
        some (bytesToHex req.mailboxID, attachment req bind) := by
      rw [recordOf_attach, hplan]
    rw [recorded_next, hrec]
    dsimp only
    rw [mapGet_mapSet, if_pos rfl]
    exact ⟨_, rfl, hrouter⟩

theorem mem_saveAliases {m : List (JString × Binding)} {e : JString × Binding}
    (h : e ∈ saveAliases m) : ∃ v, (e.1, v) ∈ m ∧ e.2 = v.saved := by
  obtain ⟨e', he', rfl⟩ := List.mem_map.1 h
  exact ⟨e'.2, he', rfl⟩

/-- **Step lemma.** -/
theorem Lasting.step {e : BridgeEvent} (hs : Lasting c s) (h : Step np c e s s')
    (hcareful : Careful np c s e) : Lasting c s' := by
  have hsound := hs.sound.step h
  cases h with
  | @request _ b' payload op l reply h =>
    obtain rfl := dispatch_next h
    refine ⟨hsound, ?_, fun e he => ?_, routers_next hs hcareful, ?_⟩
    · dsimp only
      rw [recorded_next]
      split
      · exact nodup_mapSet hs.keys
      · exact hs.keys
    · rcases mem_recording he with he | he
      · rw [control_aliases] at he
        exact hs.secrets e he
      · exact recordOf_secret he
    · exact hs.remembers.request hcareful
  | restart =>
    obtain ⟨hkept, hconfig⟩ := hcareful
    have haliases := hs.sound.restarted_aliases fun e he => (hkept e he).1
    refine ⟨hsound, ?_, fun e he => ?_, ?_, fun key hkey => ?_⟩
    · dsimp only
      rw [haliases, saveAliases, List.map_map]
      exact hs.keys
    · dsimp only at he
      rw [haliases] at he
      obtain ⟨v, hv, hsaved⟩ := mem_saveAliases he
      rw [hsaved, Binding.saved, hs.secrets _ hv]
      exact hs.secrets _ hv
    · simp [BridgeState.restarted]
    · obtain ⟨v, hget, hsecret, hrouter⟩ := hs.remembers key hkey
      have hmem := mapGet_eq_some hget
      refine ⟨v.saved, ?_, ?_, ?_⟩
      · dsimp only
        rw [haliases, mapGet_saveAliases, hget]
        rfl
      · exact (hs.secrets _ hmem).trans hsecret
      · exact (hkept _ hmem).2.trans hrouter

/-- **A careful step keeps a Router.** -/
theorem KnowsRouter.step {e : BridgeEvent} (hs : Lasting c s) (h : Step np c e s s')
    (hconfig : e.keepsConfig) (hcareful : Careful np c s e) (hknows : KnowsRouter s) :
    KnowsRouter s' := by
  cases h with
  | @request _ b' payload op l reply h =>
    obtain rfl := dispatch_next h
    rcases hknows with hrouter | ⟨key, v, hget, hrouter⟩
    · refine Or.inl ?_
      dsimp only
      rw [next, recording_routerURL]
      exact control_routerURL hconfig hrouter
    · obtain ⟨v', hget', hrouter'⟩ := router_kept hcareful hget hrouter
      exact Or.inr ⟨key, v', hget', hrouter'⟩
  | restart =>
    obtain ⟨hkept, hconfigured⟩ := hcareful
    have haliases := hs.sound.restarted_aliases fun e he => (hkept e he).1
    obtain ⟨key, v, hget, hrouter⟩ : ∃ key v, mapGet s.bridge.aliases key = some v ∧
        v.routerURL ≠ [] := by
      rcases hknows with hrouter | hknown
      · obtain ⟨e, he, hrouter'⟩ := hconfigured hrouter
        exact ⟨e.1, e.2, mapGet_of_mem hs.keys he, hrouter'⟩
      · exact hknown
    refine Or.inr ⟨key, v.saved, ?_, ?_⟩
    · dsimp only
      rw [haliases, mapGet_saveAliases, hget]
      rfl
    · rw [Binding.saved, (hkept _ (mapGet_eq_some hget)).2]
      exact hrouter

/-- A bridge at its first start. -/
def fresh (running : Bool) (routerURL : Bytes) : Life := { bridge := { running, routerURL } }

theorem lasting_fresh (running : Bool) (routerURL : Bytes) : Lasting c (fresh running routerURL) where
  sound := ⟨by simp [fresh], by simp [fresh], by simp [fresh]⟩
  keys := List.nodup_nil
  secrets := by simp [fresh]
  routers := by simp [fresh]
  remembers := by simp [fresh, Remembers]

/-- **Run lemma.** -/
theorem Lasting.run (hs : Lasting c s) (h : CarefulRun np c s s') :
    Lasting c s' ∧ (KnowsRouter s → KnowsRouter s') := by
  induction h with
  | refl => exact ⟨hs, id⟩
  | tail _ hstep ih =>
    obtain ⟨e, hstep, hconfig, hcareful⟩ := hstep
    exact ⟨ih.1.step hstep hcareful, fun hknows => (ih.2 hknows).step ih.1 hstep hconfig hcareful⟩

/-- **The alias map forgets nothing** in a run of careful steps: each alias has the
    last secret and the last Router that were recorded for it, and once there is
    a Router for requests that name none, there is one ever after. -/
theorem map_remembers {running : Bool} {routerURL : Bytes}
    (h : CarefulRun np c (fresh running routerURL) s) :
    Remembers s ∧ ∀ s', CarefulRun np c s s' →
      s.bridge.effectiveRouter ≠ [] → s'.bridge.effectiveRouter ≠ [] := by
  have hs := ((lasting_fresh running routerURL).run h).1
  refine ⟨hs.remembers, fun s' h' => ?_⟩
  obtain ⟨hs', hknows⟩ := hs.run h'
  rw [hs.effectiveRouter, hs'.effectiveRouter]
  exact hknows

end Remembers

/-! ### An own mailbox and a peer -/

/-- A hash by the first byte: two mailboxes have two aliases. -/
def byHead : Crypto :=
  { Crypto.trusting with sha256 := fun bytes => ⟨bytes.headD 0 :: List.replicate 31 0, rfl⟩ }

/-- The life of the bridge after a request. -/
def Life.after (s : Life) (op : UInt8) (payload : Bytes) (l : Transcript) : Life where
  bridge := next tagged byHead s.bridge payload op l
  recorded := s.recorded ++ (recordOf tagged byHead s.bridge payload op l).toList
  issued := s.issued ++ if op = opAttach then []
    else (recordOf tagged byHead s.bridge payload op l).toList.map Prod.fst

/-- Only a resolve, a send and an attach can be careless. -/
theorem careful_other {s : Life} {op : UInt8} {payload : Bytes} {l : Transcript}
    (h : op ≠ opResolve ∧ op ≠ opSend ∧ op ≠ opAttach) :
    Careful tagged byHead s (.request op payload l) :=
  ⟨fun hop => (hop.elim h.1 h.2.1).elim, fun hop => absurd hop h.2.2⟩

theorem step_after {s : Life} {op : UInt8} {payload : Bytes} {l : Transcript} {reply : Reply}
    {b' : BridgeState} (h : (dispatch tagged byHead s.bridge payload op).Yields l (reply, b')) :
    Step tagged byHead (.request op payload l) s (s.after op payload l) := by
  have hnext := dispatch_next h
  rw [hnext] at h
  exact .request h

/-- The own mailbox is attached, with its secret and its Router. -/
def attachPayload : Bytes := tagged.bytes
  [⟨1, List.replicate 16 0⟩, ⟨2, List.replicate 32 1⟩, ⟨3, txt "s"⟩, ⟨4, txt "r"⟩]

/-- The resolution of the public key of a peer. -/
def peerPayload : Bytes := tagged.bytes [⟨1, List.replicate 32 2⟩, ⟨2, txt "r"⟩]

/-- The Router resolves the public key of the peer to another mailbox. -/
def peerCalls : Transcript :=
  [⟨.resolve (txt "r") (List.replicate 32 2), .ok
    { mailboxID := hexEncode (List.replicate 32 3), shardURL := txt "s", replicaShardURLs := [] }⟩]

/-- The life of the bridge after a registration. -/
def ownLife : Life := (fresh false []).after opRegister registerPayload registerCalls

/-- Then the bridge is started. -/
def startedOwn : Life := ownLife.after opStartStop (tagged.bytes [⟨1, [actionStart]⟩]) []

/-- Then the mailbox is attached. -/
def attachedOwn : Life := startedOwn.after opAttach attachPayload []

/-- Then a peer is resolved. -/
def peerLife : Life := attachedOwn.after opResolve peerPayload peerCalls

/-- Registered, started, attached, a peer resolved, and restarted. -/
def restartedLife : Life := { peerLife with bridge := peerLife.bridge.restarted }

theorem careful_restartedLife : CarefulRun tagged byHead (fresh false []) restartedLife := by
  have hregister : Step tagged byHead (.request opRegister registerPayload registerCalls)
      (fresh false []) ownLife := step_after ⟨.ok [1], _, rfl, .ok ownCapability, _, rfl, rfl, rfl⟩
  have hstart : Step tagged byHead (.request opStartStop (tagged.bytes [⟨1, [actionStart]⟩]) [])
      ownLife startedOwn := step_after ⟨rfl, rfl⟩
  have hattach : Step tagged byHead (.request opAttach attachPayload []) startedOwn attachedOwn :=
    step_after ⟨rfl, rfl⟩
  have hresolve : Step tagged byHead (.request opResolve peerPayload peerCalls) attachedOwn
      peerLife := step_after ⟨.ok _, _, rfl, rfl, rfl⟩
  have hconfig : opRegister ≠ opInitialize ∧ opStartStop ≠ opInitialize ∧
      opAttach ≠ opInitialize ∧ opResolve ≠ opInitialize := by decide
  have hrun : CarefulRun tagged byHead (fresh false []) startedOwn :=
    (Relation.ReflTransGen.single ⟨_, hregister, hconfig.1, careful_other (by decide)⟩).tail
      ⟨_, hstart, hconfig.2.1, careful_other (by decide)⟩
  refine ((hrun.tail ⟨_, hattach, hconfig.2.2.1, ?_⟩).tail ⟨_, hresolve, hconfig.2.2.2, ?_⟩).tail
    ⟨_, .restart, trivial, ?_, fun _ => ?_⟩
  · -- the attach names a Router
    refine ⟨fun hop => absurd hop (by decide), fun _ req old hreq hrouter => ?_⟩
    cases hreq
    exact absurd hrouter (by decide)
  · -- nothing is known yet under the alias of the peer
    refine ⟨fun _ routerURL recipientPub res full old hmem hfull hget => ?_,
      fun hop => absurd hop (by decide)⟩
    cases List.mem_singleton.1 hmem
    cases (show fullMailbox (hexEncode (List.replicate 32 3)) = some (List.replicate 32 3) by
      decide +kernel).symm.trans hfull
    have hnone : mapGet attachedOwn.bridge.aliases
      (bytesToHex (aliasFor byHead (List.replicate 32 3))) = none := by decide +kernel
    rw [hnone] at hget
    cases hget
  · have haliases : ∀ e ∈ peerLife.bridge.aliases,
        e.2.shardURL = txt "s" ∧ e.2.routerURL = txt "r" := by decide +kernel
    intro e he
    rw [(haliases e he).1, (haliases e he).2]
    decide
  · have hnamed : ∃ e ∈ peerLife.bridge.aliases, e.2.routerURL ≠ [] := by decide +kernel
    exact hnamed

/-- The bridge still has the own secret and the Router after its restart. -/
theorem registration_is_remembered :
    (restartedLife.bridge.aliases.map fun e => (e.1, e.2.readSecret, e.2.routerURL)) =
        [(bytesToHex (List.replicate 16 0), hexEncode (List.replicate 32 1), txt "r"),
          (bytesToHex (3 :: List.replicate 15 0), [], txt "r")] ∧
      restartedLife.bridge.effectiveRouter = txt "r" ∧
      Remembers restartedLife ∧ ∀ s', CarefulRun tagged byHead restartedLife s' →
        restartedLife.bridge.effectiveRouter ≠ [] → s'.bridge.effectiveRouter ≠ [] :=
  ⟨by decide +kernel, by decide +kernel, map_remembers careful_restartedLife⟩

/-! ### An own mailbox that is resolved -/

/-- The resolution of the own public key. -/
def resolvePayload : Bytes := tagged.bytes [⟨1, List.replicate 32 2⟩, ⟨2, txt "r"⟩]

/-- The Router resolves the own public key to the own mailbox. -/
def resolveCalls : Transcript :=
  [⟨.resolve (txt "r") (List.replicate 32 2), .ok
    { mailboxID := ownCapability.mailboxID, shardURL := txt "s", replicaShardURLs := [] }⟩]

/-- The life of the bridge after this resolution. -/
def resolvedLife : Life where
  bridge := next tagged Crypto.trusting registeredLife.bridge resolvePayload opResolve resolveCalls
  recorded := registeredLife.recorded ++
    (recordOf tagged Crypto.trusting registeredLife.bridge resolvePayload opResolve resolveCalls).toList
  issued := registeredLife.issued ++
    (recordOf tagged Crypto.trusting registeredLife.bridge resolvePayload opResolve
      resolveCalls).toList.map Prod.fst

theorem step_resolved : Step tagged Crypto.trusting (.request opResolve resolvePayload resolveCalls)
    registeredLife resolvedLife := by
  have hrun : (dispatch tagged Crypto.trusting registeredLife.bridge resolvePayload opResolve).Yields
      resolveCalls (_, _) := ⟨.ok _, _, rfl, rfl, rfl⟩
  have hnext := dispatch_next hrun
  rw [hnext] at hrun
  exact .request hrun

/-- The read secret of the own mailbox is forgotten. -/
theorem resolve_forgets_secret :
    ¬ ∀ (np : NanoPack) (c : Crypto) (s : Life), Reached np c s → Remembers s := by
  intro h
  have hrun : Reached tagged Crypto.trusting resolvedLife :=
    (Relation.ReflTransGen.single ⟨_, step_registered⟩).tail ⟨_, step_resolved⟩
  obtain ⟨v, hget, hsecret, -⟩ := h _ _ _ hrun (bytesToHex (List.replicate 16 0)) (by decide +kernel)
  have hstored : (mapGet resolvedLife.bridge.aliases (bytesToHex (List.replicate 16 0))).map
      Binding.readSecret = some [] := by decide +kernel
  have hlast : lastOf Binding.readSecret resolvedLife.recorded (bytesToHex (List.replicate 16 0)) =
      ownCapability.readSecret := by decide +kernel
  rw [hget, Option.map_some, hsecret, hlast] at hstored
  exact absurd (Option.some.inj hstored) (by decide +kernel)

end Bridge
