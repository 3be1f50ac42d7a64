/-
  The life of a bridge.

  A mailbox is known to the other side by an alias of 16 bytes.  The map from
  aliases to mailboxes is written by four operations, and read back from its
  file after a restart.

  * `saveAliases` and `loadAliases` are the file of the map;
  * `recordOf` is what a request records, and `next` the state after it;
    `dispatch_next`: that is the state the handlers reach;
  * `Life` is a state with what was recorded so far, and `Step` a request or a
    restart.
-/
import Mathlib.Logic.Relation
import NexTalkRelay.Bridge.Reply

open Effect Js

namespace Bridge

/-! ## Maps -/

section Map

variable {m : List (JString × Binding)} {k k' : JString} {v : Binding} {e : JString × Binding}

theorem mem_mapSet (h : e ∈ mapSet m k v) : e = (k, v) ∨ e ∈ m ∧ e.1 ≠ k := by
  unfold mapSet at h
  split at h
  · obtain ⟨e', he', rfl⟩ := List.mem_map.1 h
    by_cases hk : e'.1 = k
    · exact Or.inl (if_pos (beq_iff_eq.2 hk))
    · rw [if_neg (by simpa using hk)]
      exact Or.inr ⟨he', hk⟩
  · next hno =>
    rcases List.mem_append.1 h with h | h
    · refine Or.inr ⟨h, fun hk => hno ?_⟩
      exact List.any_eq_true.2 ⟨e, h, beq_iff_eq.2 hk⟩
    · exact Or.inl (List.mem_singleton.1 h)

theorem mapGet_eq_some (h : mapGet m k = some v) : (k, v) ∈ m := by
  obtain ⟨e, he, rfl⟩ := Option.map_eq_some_iff.1 h
  have hk : e.1 = k := by simpa using List.find?_some he
  rw [← hk]
  exact List.mem_of_find?_eq_some he

theorem mapGet_cons : mapGet (e :: m) k = if e.1 = k then some e.2 else mapGet m k := by
  unfold mapGet
  rw [List.find?_cons]
  by_cases hk : e.1 = k
  · simp [hk]
  · rw [if_neg hk, beq_false_of_ne hk]

theorem mapGet_append (m' : List (JString × Binding)) :
    mapGet (m ++ m') k = (mapGet m k).or (mapGet m' k) := by
  unfold mapGet
  rw [List.find?_append]
  cases m.find? fun e => e.1 == k <;> rfl

theorem mapGet_isSome : (mapGet m k).isSome ↔ ∃ e ∈ m, e.1 = k := by
  simp [mapGet]

theorem mapGet_overwrite (m : List (JString × Binding)) (k : JString) (v : Binding) (k' : JString) :
    mapGet (m.map fun e => if e.1 == k then (k, v) else e) k' =
      if k' = k then (mapGet m k).map fun _ => v else mapGet m k' := by
  induction m with
  | nil => simp [mapGet]
  | cons e m ih =>
    rw [List.map_cons, mapGet_cons, ih, mapGet_cons, mapGet_cons]
    by_cases hek : e.1 = k
    · by_cases hk' : k' = k
      · simp [hek, hk']
      · have hne : k ≠ k' := fun h => hk' h.symm
        simp [hek, hk', hne]
    · have hkept : (if (e.1 == k) = true then (k, v) else e) = e := if_neg (by simpa using hek)
      rw [hkept, if_neg hek]
      by_cases hk' : k' = k
      · subst hk'
        rw [if_neg hek, if_pos rfl, if_pos rfl]
      · rw [if_neg hk', if_neg hk']

/-- **A write changes one entry.** -/
theorem mapGet_mapSet : mapGet (mapSet m k v) k' = if k' = k then some v else mapGet m k' := by
  have hany : (m.any fun e => e.1 == k) = true ↔ (mapGet m k).isSome := by simp [mapGet_isSome]
  unfold mapSet
  by_cases hk : (mapGet m k).isSome
  · rw [if_pos (hany.2 hk), mapGet_overwrite]
    obtain ⟨old, hold⟩ := Option.isSome_iff_exists.1 hk
    rw [hold]
    rfl
  · rw [if_neg (mt hany.1 hk), mapGet_append, mapGet_cons]
    rw [Option.not_isSome_iff_eq_none] at hk
    by_cases hk' : k' = k
    · rw [hk', hk, if_pos rfl, if_pos rfl]
      rfl
    · rw [if_neg fun h => hk' h.symm, if_neg hk']
      exact Option.or_none

theorem keys_mapSet : (mapSet m k v).map Prod.fst =
    if k ∈ m.map Prod.fst then m.map Prod.fst else m.map Prod.fst ++ [k] := by
  have hany : (m.any fun e => e.1 == k) = true ↔ k ∈ m.map Prod.fst := by simp
  unfold mapSet
  by_cases hk : k ∈ m.map Prod.fst
  · rw [if_pos (hany.2 hk), if_pos hk, List.map_map]
    refine List.map_congr_left fun e _ => ?_
    by_cases hek : e.1 = k
    · simp [hek]
    · simp [hek]
  · rw [if_neg (mt hany.1 hk), if_neg hk]
    simp

theorem nodup_mapSet (h : (m.map Prod.fst).Nodup) : ((mapSet m k v).map Prod.fst).Nodup := by
  rw [keys_mapSet]
  split
  · exact h
  · next hk =>
    rw [List.nodup_append]
    refine ⟨h, List.pairwise_singleton _ k, fun a ha b hb => ?_⟩
    rintro rfl
    exact hk (List.mem_singleton.1 hb ▸ ha)

theorem mapGet_of_mem (h : (m.map Prod.fst).Nodup) (he : e ∈ m) : mapGet m e.1 = some e.2 := by
  induction m with
  | nil => cases he
  | cons e' m ih =>
    rw [List.map_cons, List.nodup_cons] at h
    rw [mapGet_cons]
    rcases List.mem_cons.1 he with rfl | he
    · exact if_pos rfl
    · rw [if_neg, ih h.2 he]
      intro hk
      exact h.1 (hk ▸ List.mem_map_of_mem he)

end Map

/-! ## The file -/

/-- The size of the character at the start of a text, and 0 if there is none
    (`utf8.DecodeRune`). -/
def runeSize : Bytes → ℕ
  | [] => 0
  | a :: s =>
    let n := a.toNat
    let next (i lo hi : ℕ) : Bool := s[i]?.any fun b => decide (lo ≤ b.toNat ∧ b.toNat ≤ hi)
    if n < 0x80 then 1
    else if 0xC2 ≤ n ∧ n < 0xE0 ∧ next 0 0x80 0xBF then 2
    else if 0xE0 ≤ n ∧ n < 0xF0 ∧ next 0 (if n = 0xE0 then 0xA0 else 0x80)
        (if n = 0xED then 0x9F else 0xBF) ∧ next 1 0x80 0xBF then 3
    else if 0xF0 ≤ n ∧ n < 0xF5 ∧ next 0 (if n = 0xF0 then 0x90 else 0x80)
        (if n = 0xF4 then 0x8F else 0xBF) ∧ next 1 0x80 0xBF ∧ next 2 0x80 0xBF then 4
    else 0

/-- The runes of a text one after the other; a byte that starts none is replaced. -/
def jsonTextFrom : ℕ → Bytes → Bytes
  | fuel + 1, a :: s =>
    if runeSize (a :: s) = 0 then 0xEF :: 0xBF :: 0xBD :: jsonTextFrom fuel s
    else (a :: s).take (runeSize (a :: s)) ++ jsonTextFrom fuel ((a :: s).drop (runeSize (a :: s)))
  | _, _ => []

/-- A string after it was written as JSON and read again: what is no UTF-8 is
    replaced. -/
def jsonText (s : Bytes) : Bytes := jsonTextFrom s.length s

theorem jsonText_ascii {s : Bytes} (h : ∀ b ∈ s, b < 0x80) : jsonText s = s := by
  unfold jsonText
  induction s with
  | nil => rfl
  | cons a s ih =>
    obtain ⟨ha, hs⟩ := List.forall_mem_cons.1 h
    have hsize : runeSize (a :: s) = 1 := if_pos (UInt8.lt_iff_toNat_lt.1 ha)
    rw [List.length_cons, jsonTextFrom, hsize, if_neg Nat.one_ne_zero, List.take_succ_cons,
      List.take_zero, List.drop_succ_cons, List.drop_zero, ih hs]
    rfl

theorem jsonText_eq_nil {s : Bytes} : jsonText s = [] ↔ s = [] := by
  cases s with
  | nil => exact iff_of_true rfl rfl
  | cons a s =>
    refine iff_of_false (fun h => ?_) (List.cons_ne_nil a s)
    unfold jsonText at h
    rw [List.length_cons, jsonTextFrom] at h
    split at h
    · cases h
    · next hsize =>
      obtain ⟨htake, -⟩ := List.append_eq_nil_iff.1 h
      rcases List.take_eq_nil_iff.1 htake with hzero | hnil
      · exact hsize hzero
      · cases hnil

/-- An entry after it was written to the file and read again. -/
def Binding.saved (v : Binding) : Binding where
  mailboxID := jsonText v.mailboxID
  readSecret := jsonText v.readSecret
  shardURL := jsonText v.shardURL
  routerURL := jsonText v.routerURL

/-- `saveAliases`: the entries of the file. -/
def saveAliases (m : List (JString × Binding)) : List (JString × Binding) :=
  m.map fun e => (e.1, e.2.saved)

/-- `loadAliases`: the entries that are taken from the file. -/
def loadAliases (file : List (JString × Binding)) : List (JString × Binding) :=
  file.filter fun e => e.1.length == 32 && e.2.mailboxID != [] && e.2.shardURL != []

/-- The bridge after a restart: it keeps its file only, which was written with the
    last change of the map. -/
def BridgeState.restarted (b : BridgeState) : BridgeState where
  aliases := loadAliases (saveAliases b.aliases)

/-! ### Hexadecimal texts -/

theorem ascii_of_isHexDigit {b : UInt8} (h : isHexDigit (UInt16.ofNat b.toNat) = true) : b < 0x80 := by
  have hb := b.toNat_lt
  have hunit : (UInt16.ofNat b.toNat).toNat = b.toNat := UInt16.toNat_ofNat_of_lt' (by
    rw [UInt16.size]
    omega)
  simp only [isHexDigit, isDigit, Bool.or_eq_true, Bool.and_eq_true, decide_eq_true_eq,
    UInt16.le_iff_toNat_le, hunit] at h
  rw [UInt8.lt_iff_toNat_lt]
  simp only [UInt16.reduceToNat, UInt8.reduceToNat] at h ⊢
  omega

theorem jsonText_hex {s bytes : Bytes} (h : hexDecode s = some bytes) : jsonText s = s := by
  refine jsonText_ascii fun b hb => ascii_of_isHexDigit ?_
  unfold hexDecode at h
  dsimp only at h
  split at h
  · next hall => exact List.all_eq_true.1 hall.2 _ (List.mem_map_of_mem hb)
  · cases h

theorem jsonText_hexEncode (bytes : Bytes) : jsonText (hexEncode bytes) = hexEncode bytes := by
  have hascii := ascii_of_isHexOf (isHexOf_bytesToHex bytes)
  have hencode := encode_ascii_append hascii []
  rw [List.append_nil] at hencode
  refine jsonText_ascii fun b hb => ?_
  rw [hexEncode, hencode] at hb
  rcases List.mem_append.1 hb with hb | hb
  · obtain ⟨u, hu, rfl⟩ := List.mem_map.1 hb
    have hlt := hascii u hu
    rw [UInt16.lt_iff_toNat_lt] at hlt
    rw [UInt8.lt_iff_toNat_lt]
    simp only [UInt16.reduceToNat, UInt8.reduceToNat, UInt16.toNat_toUInt8] at hlt ⊢
    omega
  · cases hb

/-! ## What a request changes -/

section Next

variable (np : NanoPack) (c : Crypto) (b : BridgeState) (payload : Bytes)

/-- A full mailbox id, as far as the bridge takes it for one. -/
def fullMailbox (mailboxID : Bytes) : Option Bytes :=
  (hexDecode mailboxID).filter fun full => full.length == 32

/-- What is recorded for the mailbox of a peer, and for an own one. -/
def peerRecord (routerURL : Bytes) (res : Resolution) : Option (JString × Binding) :=
  (fullMailbox res.mailboxID).map fun full =>
    (bytesToHex (aliasFor c full),
      { mailboxID := res.mailboxID, shardURL := res.shardURL, routerURL })

/-- The entry of a mailbox of one's own. -/
def ownRecord (routerURL : Bytes) (cap : Capability) : Option (JString × Binding) :=
  (fullMailbox cap.mailboxID).bind fun full => (fullMailbox cap.readSecret).map fun _ =>
    (bytesToHex (aliasFor c full),
      { mailboxID := cap.mailboxID
        readSecret := cap.readSecret
        shardURL := cap.shardURL
        routerURL })

/-- An attach with the binding of its alias, or the reply that it is refused. -/
def attachPlan : Except Reply (AttachReq × Binding) := do
  b.requireRunning
  let req ← orRefuse (unmarshalAttach np payload)
  let bind ← orRefuse (b.expandAlias req.mailboxID)
  return (req, bind)

/-- What an attach stores in both maps. -/
def attachment (req : AttachReq) (bind : Binding) : Binding where
  mailboxID := bind.mailboxID
  readSecret := hexEncode req.readSecret
  shardURL := req.shardURL
  routerURL := req.routerURL

/-- What a request records in the alias map, by what the calls have answered. -/
def recordOf (op : UInt8) (l : Transcript) : Option (JString × Binding) :=
  if op = opSend then
    match sendPlan np b payload with
    | .ok (.pubkey routerURL _ _) => (resolution l).bind (peerRecord c routerURL)
    | _ => none
  else if op = opAttach then
    match attachPlan np b payload with
    | .ok (req, bind) => some (bytesToHex req.mailboxID, attachment req bind)
    | .error _ => none
  else if op = opRegister then
    match registerPlan np b payload with
    | .ok (routerURL, _) => (capability l).bind (ownRecord c routerURL)
    | .error _ => none
  else if op = opResolve then
    match resolvePlan np b payload with
    | .ok (routerURL, _) => (resolution l).bind (peerRecord c routerURL)
    | .error _ => none
  else none

/-- The state with an entry of the alias map. -/
def BridgeState.recording (rec : Option (JString × Binding)) : BridgeState :=
  match rec with
  | some (key, bind) => { b with aliases := mapSet b.aliases key bind }
  | none => b

/-- What a request changes besides the alias map. -/
def control (op : UInt8) : BridgeState :=
  if op = opInitialize then (onInitialize np b payload).2
  else if op = opStartStop then (onStartStop np b payload).2
  else if op = opDetach then (onDetach np b payload).2
  else if op = opAttach then
    match attachPlan np b payload with
    | .ok (req, bind) => { b with
        attached := mapSet b.attached (bytesToHex req.mailboxID) (attachment req bind)
        routerURL := if b.routerURL = [] then req.routerURL else b.routerURL }
    | .error _ => b
  else b

/-- The state after a request. -/
def next (op : UInt8) (l : Transcript) : BridgeState :=
  (control np b payload op).recording (recordOf np c b payload op l)

end Next

section Dispatch

variable {np : NanoPack} {c : Crypto} {b b' : BridgeState} {payload : Bytes} {l : Transcript}
  {reply : Reply}

theorem remember_eq (res : Resolution) (routerURL : Bytes) :
    b.remember c res routerURL = b.recording (peerRecord c routerURL res) := by
  unfold BridgeState.remember peerRecord fullMailbox
  cases hexDecode res.mailboxID with
  | none => rfl
  | some full =>
    rw [Option.filter_some]
    by_cases hfull : full.length = 32
    · rw [if_pos (beq_iff_eq.2 hfull)]
      exact if_pos hfull
    · rw [if_neg (by simpa using hfull)]
      exact if_neg hfull

theorem resolved_state (res : Resolution) (routerURL : Bytes) :
    (resolved c b routerURL res).2 = b.recording (peerRecord c routerURL res) := by
  unfold resolved peerRecord fullMailbox
  cases (hexDecode res.mailboxID).filter fun id => id.length == 32 <;> rfl

theorem registered_state (cap : Capability) (routerURL : Bytes) :
    (registered c b routerURL cap).2 = b.recording (ownRecord c routerURL cap) := by
  unfold registered ownRecord fullMailbox
  cases (hexDecode cap.mailboxID).filter fun id => id.length == 32 with
  | none => rfl
  | some full =>
    cases (hexDecode cap.readSecret).filter fun secret => secret.length == 32 <;> rfl

theorem onSend_next (h : (onSend np c b payload).Yields l (reply, b')) :
    b' = next np c b payload opSend l := by
  change b' = b.recording (match sendPlan np b payload with
    | .ok (.pubkey routerURL _ _) => (resolution l).bind (peerRecord c routerURL)
    | _ => none)
  unfold onSend at h
  cases hplan : sendPlan np b payload with
  | error r =>
    rw [hplan] at h
    obtain ⟨-, heq⟩ := h
    cases heq
    rfl
  | ok plan =>
    rw [hplan] at h
    cases plan with
    | address shardURL mailboxID frame =>
      obtain ⟨sent, _, rfl, rfl, heq⟩ := h
      cases heq
      rfl
    | pubkey routerURL recipientPub frame =>
      obtain ⟨answer, l', rfl, hrest⟩ := h
      cases answer with
      | error e =>
        obtain ⟨rfl, heq⟩ := hrest
        cases heq
        rfl
      | ok res =>
        have hbind : ((deliver res.mailboxID frame []
            (candidateShardURLs res.shardURL res.replicaShardURLs)).bind fun sent =>
            .ret (sendReply sent, b.remember c res routerURL)).Yields l' (reply, b') := hrest
        obtain ⟨l₁, _, sent, rfl, -, rfl, heq⟩ := Prog.yields_bind.1 hbind
        cases heq
        exact remember_eq res routerURL

theorem onRegister_next (h : (onRegister np c b payload).Yields l (reply, b')) :
    b' = next np c b payload opRegister l := by
  change b' = b.recording (match registerPlan np b payload with
    | .ok (routerURL, _) => (capability l).bind (ownRecord c routerURL)
    | .error _ => none)
  unfold onRegister at h
  cases hplan : registerPlan np b payload with
  | error r =>
    rw [hplan] at h
    obtain ⟨-, heq⟩ := h
    cases heq
    rfl
  | ok plan =>
    rw [hplan] at h
    obtain ⟨key, l', rfl, hrest⟩ := h
    cases key with
    | error e =>
      obtain ⟨rfl, heq⟩ := hrest
      cases heq
      rfl
    | ok priv =>
      obtain ⟨answer, l', rfl, hrest⟩ := hrest
      cases answer with
      | error e =>
        obtain ⟨rfl, heq⟩ := hrest
        cases heq
        rfl
      | ok cap =>
        obtain ⟨rfl, heq⟩ := hrest
        exact (congrArg Prod.snd heq).symm.trans (registered_state cap plan.1)

theorem onResolve_next (h : (onResolve np c b payload).Yields l (reply, b')) :
    b' = next np c b payload opResolve l := by
  change b' = b.recording (match resolvePlan np b payload with
    | .ok (routerURL, _) => (resolution l).bind (peerRecord c routerURL)
    | .error _ => none)
  unfold onResolve at h
  cases hplan : resolvePlan np b payload with
  | error r =>
    rw [hplan] at h
    obtain ⟨-, heq⟩ := h
    cases heq
    rfl
  | ok plan =>
    rw [hplan] at h
    obtain ⟨answer, l', rfl, hrest⟩ := h
    cases answer with
    | error e =>
      obtain ⟨rfl, heq⟩ := hrest
      cases heq
      rfl
    | ok res =>
      obtain ⟨rfl, heq⟩ := hrest
      exact (congrArg Prod.snd heq).symm.trans (resolved_state res plan.1)

theorem onPoll_next (h : (onPoll np b payload).Yields l (reply, b')) : b' = b := by
  unfold onPoll at h
  cases hplan : pollPlan np b payload with
  | error r =>
    rw [hplan] at h
    obtain ⟨-, heq⟩ := h
    cases heq
    rfl
  | ok targets =>
    rw [hplan] at h
    obtain ⟨_, _, r, -, -, -, heq⟩ := Prog.yields_bind.1 h
    cases heq
    rfl

theorem onAttach_eq : onAttach np b payload = match attachPlan np b payload with
    | .error r => (r, b)
    | .ok (req, bind) =>
      let attached := mapSet b.attached (bytesToHex req.mailboxID) (attachment req bind)
      let b := { b with attached }
      let b := if b.routerURL = [] ∧ req.routerURL ≠ [] then { b with routerURL := req.routerURL }
        else b
      (.ack opAttach, b.recordAlias req.mailboxID (attachment req bind)) := rfl

theorem onAttach_next (l : Transcript) : (onAttach np b payload).2 = next np c b payload opAttach l := by
  change (onAttach np b payload).2 = (match attachPlan np b payload with
    | .ok (req, bind) => { b with
        attached := mapSet b.attached (bytesToHex req.mailboxID) (attachment req bind)
        routerURL := if b.routerURL = [] then req.routerURL else b.routerURL }
    | .error _ => b).recording (match attachPlan np b payload with
      | .ok (req, bind) => some (bytesToHex req.mailboxID, attachment req bind)
      | .error _ => none)
  rw [onAttach_eq]
  cases attachPlan np b payload with
  | error r => rfl
  | ok plan =>
    obtain ⟨req, bind⟩ := plan
    dsimp only [BridgeState.recording, BridgeState.recordAlias]
    by_cases hb : b.routerURL = []
    · by_cases hreq : req.routerURL = []
      · simp [hb, hreq]
      · simp [hb, hreq]
    · simp [hb]

/-- **The state that the handlers reach.** -/
theorem dispatch_next {op : UInt8} (h : (dispatch np c b payload op).Yields l (reply, b')) :
    b' = next np c b payload op l := by
  have hret {x : Reply × BridgeState} (h : (.ret x : P _).Yields l (reply, b')) : b' = x.2 :=
    (congrArg Prod.snd h.2).symm
  unfold dispatch at h
  by_cases hop : op = opInitialize
  · rw [if_pos hop] at h
    subst hop
    exact hret h
  rw [if_neg hop] at h
  by_cases hop' : op = opCapabilities
  · rw [if_pos hop'] at h
    subst hop'
    exact hret h
  rw [if_neg hop'] at h
  by_cases hop : op = opStartStop
  · rw [if_pos hop] at h
    subst hop
    exact hret h
  rw [if_neg hop] at h
  by_cases hop : op = opSend
  · rw [if_pos hop] at h
    subst hop
    exact onSend_next h
  rw [if_neg hop] at h
  by_cases hop : op = opAttach
  · rw [if_pos hop] at h
    subst hop
    exact (hret h).trans (onAttach_next l)
  rw [if_neg hop] at h
  by_cases hop : op = opDetach
  · rw [if_pos hop] at h
    subst hop
    exact hret h
  rw [if_neg hop] at h
  by_cases hop : op = opPoll
  · rw [if_pos hop] at h
    subst hop
    exact onPoll_next h
  rw [if_neg hop] at h
  by_cases hop : op = opStatus
  · rw [if_pos hop] at h
    subst hop
    exact hret h
  rw [if_neg hop] at h
  by_cases hop : op = opRegister
  · rw [if_pos hop] at h
    subst hop
    exact onRegister_next h
  rw [if_neg hop] at h
  by_cases hop : op = opResolve
  · rw [if_pos hop] at h
    subst hop
    exact onResolve_next h
  rw [if_neg hop] at h
  rw [hret h, next, control, recordOf]
  simp [*, BridgeState.recording]

end Dispatch

/-! ## Runs -/

/-- A bridge, what was recorded in its alias map so far, and the aliases that were
    recorded for a mailbox which a Router has named. -/
structure Life where
  bridge : BridgeState := {}
  recorded : List (JString × Binding) := []
  issued : List JString := []

/-- A request with the answers to its calls, or a restart. -/
inductive BridgeEvent where
  | request (op : UInt8) (payload : Bytes) (l : Transcript)
  | restart

/-- One event, with what it records in the alias map and the aliases that it issues. -/
inductive Step (np : NanoPack) (c : Crypto) : BridgeEvent → Life → Life → Prop
  | request {s : Life} {b' : BridgeState} {payload : Bytes} {op : UInt8} {l : Transcript}
      {reply : Reply} (h : (dispatch np c s.bridge payload op).Yields l (reply, b')) :
      Step np c (.request op payload l) s
        { bridge := b'
          recorded := s.recorded ++ (recordOf np c s.bridge payload op l).toList
          issued := s.issued ++ if op = opAttach then []
            else (recordOf np c s.bridge payload op l).toList.map Prod.fst }
  | restart {s : Life} : Step np c .restart s { s with bridge := s.bridge.restarted }

/-- The states of all runs. -/
def Reached (np : NanoPack) (c : Crypto) : Life → Prop :=
  Relation.ReflTransGen (fun s s' => ∃ e, Step np c e s s') {}

section Changes

variable {np : NanoPack} {c : Crypto} {b b' : BridgeState} {payload : Bytes} {op : UInt8}
  {l : Transcript} {req : AttachReq} {old : Binding}

theorem attachPlan_ok (h : attachPlan np b payload = .ok (req, old)) :
    b.running = true ∧ unmarshalAttach np payload = .ok req ∧
      mapGet b.aliases (bytesToHex req.mailboxID) = some old := by
  unfold attachPlan BridgeState.requireRunning orRefuse BridgeState.expandAlias at h
  by_cases hrun : b.running = true
  · rw [if_pos hrun] at h
    cases hreq : unmarshalAttach np payload with
    | error e =>
      rw [hreq] at h
      cases h
    | ok req' =>
      cases hget : mapGet b.aliases (bytesToHex req'.mailboxID) with
      | none =>
        simp only [hreq, Except.mapError, bind, Except.bind, hget] at h
        cases h
      | some old' =>
        simp only [hreq, Except.mapError, bind, Except.bind, hget] at h
        cases h
        exact ⟨hrun, rfl, hget⟩
  · rw [if_neg hrun] at h
    cases h

theorem recordOf_attach : recordOf np c b payload opAttach l =
    match attachPlan np b payload with
    | .ok (req, bind) => some (bytesToHex req.mailboxID, attachment req bind)
    | .error _ => none := rfl

theorem control_aliases : (control np b payload op).aliases = b.aliases := by
  unfold control
  split
  · unfold onInitialize
    split
    · rfl
    · split
      · rfl
      · split
        · rfl
        · split
          · rfl
          · split <;> rfl
  · split
    · unfold onStartStop
      split <;> rfl
    · split
      · unfold onDetach
        split <;> rfl
      · split
        · split <;> rfl
        · rfl

theorem mem_recording {rec : Option (JString × Binding)} {e : JString × Binding}
    (h : e ∈ (b.recording rec).aliases) : e ∈ b.aliases ∨ rec = some e := by
  unfold BridgeState.recording at h
  split at h
  · rcases mem_mapSet h with rfl | ⟨hold, -⟩
    · exact Or.inr rfl
    · exact Or.inl hold
  · exact Or.inl h

@[simp] theorem recording_attached (rec : Option (JString × Binding)) :
    (b.recording rec).attached = b.attached := by
  unfold BridgeState.recording
  split <;> rfl

@[simp] theorem recording_routerURL (rec : Option (JString × Binding)) :
    (b.recording rec).routerURL = b.routerURL := by
  unfold BridgeState.recording
  split <;> rfl

/-- **What becomes of the attachments.** -/
theorem mem_control_attached {e : JString × Binding}
    (h : e ∈ (control np b payload op).attached) : e ∈ b.attached ∨ op = opAttach ∧
      ∃ req bind, attachPlan np b payload = .ok (req, bind) ∧
        e = (bytesToHex req.mailboxID, attachment req bind) := by
  unfold control at h
  split at h
  · refine Or.inl ?_
    unfold onInitialize at h
    split at h
    · exact h
    · split at h
      · exact h
      · split at h
        · exact h
        · split at h
          · exact h
          · split at h <;> exact h
  · split at h
    · unfold onStartStop at h
      split at h <;> exact Or.inl h
    · split at h
      · unfold onDetach at h
        split at h
        · exact Or.inl h
        · exact Or.inl (List.mem_of_mem_filter h)
      · split at h
        · next hop =>
          split at h
          · next req bind hplan =>
            rcases mem_mapSet h with rfl | ⟨hold, -⟩
            · exact Or.inr ⟨hop, req, bind, hplan, rfl⟩
            · exact Or.inl hold
          · exact Or.inl h
        · exact Or.inl h

end Changes

end Bridge
