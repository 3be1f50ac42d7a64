/-
  Aliases and mailboxes.

  * `Sound`: what the maps of the bridge hold under an alias is the mailbox with
    this alias, and every alias was issued; `Sound.step` is the step lemma;
  * `Bound` is what a request with an alias may do;
  * `alias_means_its_mailbox`: so it is in every run.
-/
import NexTalkRelay.Bridge.Life
import NexTalkRelay.Bridge.Poll

open Effect Js

namespace Bridge

/-! ## Aliases and mailboxes -/

/-- The key is the alias of the mailbox. -/
def Names (c : Crypto) (key : JString) (mailboxID : Bytes) : Prop :=
  ∃ full, fullMailbox mailboxID = some full ∧ bytesToHex (aliasFor c full) = key

/-- Both maps hold what their keys say, and only aliases that were issued. -/
structure Sound (c : Crypto) (s : Life) : Prop where
  aliases : ∀ e ∈ s.bridge.aliases, Names c e.1 e.2.mailboxID
  attached : ∀ e ∈ s.bridge.attached, Names c e.1 e.2.mailboxID
  issued : ∀ e ∈ s.bridge.aliases ++ s.bridge.attached, e.1 ∈ s.issued

section Sound

variable {np : NanoPack} {c : Crypto} {s s' : Life} {b b' : BridgeState} {payload : Bytes} {op : UInt8}
  {l : Transcript} {reply : Reply} {key : JString} {v : Binding}

theorem peerRecord_names {routerURL : Bytes} {res : Resolution}
    (h : peerRecord c routerURL res = some (key, v)) : Names c key v.mailboxID := by
  obtain ⟨full, hfull, heq⟩ := Option.map_eq_some_iff.1 h
  cases heq
  exact ⟨full, hfull, rfl⟩

theorem ownRecord_names {routerURL : Bytes} {cap : Capability}
    (h : ownRecord c routerURL cap = some (key, v)) : Names c key v.mailboxID := by
  obtain ⟨full, hfull, h⟩ := Option.bind_eq_some_iff.1 h
  obtain ⟨secret, -, heq⟩ := Option.map_eq_some_iff.1 h
  cases heq
  exact ⟨full, hfull, rfl⟩

/-- **What is recorded is the mailbox of its alias.** -/
theorem recordOf_names (hb : ∀ e ∈ b.aliases, Names c e.1 e.2.mailboxID)
    (h : recordOf np c b payload op l = some (key, v)) : Names c key v.mailboxID := by
  unfold recordOf at h
  split at h
  · split at h
    · obtain ⟨res, -, hrec⟩ := Option.bind_eq_some_iff.1 h
      exact peerRecord_names hrec
    · cases h
  · split at h
    · split at h
      · next req bind hplan =>
        cases h
        exact hb _ (mapGet_eq_some (attachPlan_ok hplan).2.2)
      · cases h
    · split at h
      · split at h
        · obtain ⟨cap, -, hrec⟩ := Option.bind_eq_some_iff.1 h
          exact ownRecord_names hrec
        · cases h
      · split at h
        · split at h
          · obtain ⟨res, -, hrec⟩ := Option.bind_eq_some_iff.1 h
            exact peerRecord_names hrec
          · cases h
        · cases h

/-- A mailbox id is hexadecimal, so that the file keeps it. -/
theorem Names.saved (h : Names c key v.mailboxID) : Names c key v.saved.mailboxID := by
  obtain ⟨full, hfull, hkey⟩ := h
  obtain ⟨hdecode, -⟩ := Option.filter_eq_some_iff.1 hfull
  refine ⟨full, ?_, hkey⟩
  rw [Binding.saved, jsonText_hex hdecode]
  exact hfull

theorem mem_restarted {e : JString × Binding} (h : e ∈ b.restarted.aliases) :
    ∃ v, (e.1, v) ∈ b.aliases ∧ e.2 = v.saved := by
  obtain ⟨e', he', rfl⟩ := List.mem_map.1 (List.mem_of_mem_filter h)
  exact ⟨e'.2, he', rfl⟩

/-- **Step lemma.** -/
theorem Sound.step {e : BridgeEvent} (hs : Sound c s) (h : Step np c e s s') : Sound c s' := by
  cases h with
  | @request _ b' payload op l reply h =>
    obtain rfl := dispatch_next h
    have haliases {e : JString × Binding} (he : e ∈ (next np c s.bridge payload op l).aliases) :
        e ∈ s.bridge.aliases ∨ recordOf np c s.bridge payload op l = some e := by
      rcases mem_recording he with he | he
      · rw [control_aliases] at he
        exact Or.inl he
      · exact Or.inr he
    have hattached {e : JString × Binding} (he : e ∈ (next np c s.bridge payload op l).attached) :
        e ∈ s.bridge.attached ∨ ∃ bind, (e.1, bind) ∈ s.bridge.aliases ∧
          e.2.mailboxID = bind.mailboxID := by
      rw [next, recording_attached] at he
      rcases mem_control_attached he with he | ⟨-, req, bind, hplan, rfl⟩
      · exact Or.inl he
      · exact Or.inr ⟨bind, mapGet_eq_some (attachPlan_ok hplan).2.2, rfl⟩
    refine ⟨fun e he => ?_, fun e he => ?_, fun e he => ?_⟩
    · rcases haliases he with he | he
      · exact hs.aliases e he
      · exact recordOf_names hs.aliases he
    · rcases hattached he with he | ⟨bind, hbind, hid⟩
      · exact hs.attached e he
      · rw [hid]
        exact hs.aliases _ hbind
    · refine List.mem_append.2 ?_
      rcases List.mem_append.1 he with he | he
      · rcases haliases he with he | he
        · exact Or.inl (hs.issued e (List.mem_append_left _ he))
        · by_cases hop : op = opAttach
          · -- an attach records an alias that is in the map already
            subst hop
            rw [recordOf_attach] at he
            split at he
            · next req bind hplan =>
              cases he
              have hold := mapGet_eq_some (attachPlan_ok hplan).2.2
              exact Or.inl (hs.issued (_, bind) (List.mem_append_left _ hold))
            · cases he
          · rw [if_neg hop, he]
            exact Or.inr List.mem_cons_self
      · rcases hattached he with he | ⟨bind, hbind, -⟩
        · exact Or.inl (hs.issued e (List.mem_append_right _ he))
        · exact Or.inl (hs.issued (_, bind) (List.mem_append_left _ hbind))
  | restart =>
    refine ⟨fun e he => ?_, fun e he => ?_, fun e he => ?_⟩
    · obtain ⟨v, hv, hsaved⟩ := mem_restarted he
      rw [hsaved]
      exact (hs.aliases _ hv).saved
    · cases he
    · rcases List.mem_append.1 he with he | he
      · obtain ⟨v, hv, -⟩ := mem_restarted he
        exact hs.issued (_, v) (List.mem_append_left _ hv)
      · cases he

/-- **Run lemma.** -/
theorem Reached.sound (h : Reached np c s) : Sound c s := by
  induction h with
  | refl => exact ⟨by simp, by simp, by simp⟩
  | tail _ hstep ih =>
    obtain ⟨e, hstep⟩ := hstep
    exact ih.step hstep

end Sound

/-! ### Requests with an alias -/

/-- The mailbox that a call to a shard is about. -/
def Call.mailbox : Call → Option Bytes
  | sendToShard _ mailboxID _ => some mailboxID
  | readFromShard _ mailboxID _ => some mailboxID
  | _ => none

/-- The alias in a request to send, attach or poll. -/
def aliasOf (np : NanoPack) (op : UInt8) (payload : Bytes) : Option Bytes :=
  if op = opSend then
    match unmarshalSend np payload with
    | .ok req => if req.mailboxID.length = 16 ∧ req.shardURL ≠ [] then some req.mailboxID else none
    | .error _ => none
  else if op = opAttach then
    match unmarshalAttach np payload with
    | .ok req => some req.mailboxID
    | .error _ => none
  else if op = opPoll then
    match unmarshalPoll np payload with
    | .ok req => if req.mailboxID.length = 16 then some req.mailboxID else none
    | .error _ => none
  else none

section Requests

variable {np : NanoPack} {c : Crypto} {s : Life} {b b' : BridgeState} {payload : Bytes} {op : UInt8}
  {l : Transcript} {reply : Reply} {a : Bytes}

/-- A send to an alias is refused, or goes to the mailbox of the alias. -/
theorem sendPlan_alias (h : aliasOf np opSend payload = some a) :
    (∃ code detail, sendPlan np b payload = .error (.error code detail)) ∨
      ∃ shardURL bind frame, mapGet b.aliases (bytesToHex a) = some bind ∧
        sendPlan np b payload = .ok (.address shardURL bind.mailboxID frame) := by
  change (match unmarshalSend np payload with
    | .ok req => if req.mailboxID.length = 16 ∧ req.shardURL ≠ [] then some req.mailboxID else none
    | .error _ => none) = some a at h
  unfold sendPlan BridgeState.requireRunning orRefuse BridgeState.expandAlias
  split at h
  · next req hreq =>
    split at h
    · next hid =>
      cases h
      by_cases hrun : b.running = true
      · cases hget : mapGet b.aliases (bytesToHex req.mailboxID) with
        | none =>
          refine Or.inl ⟨errTransport, txt "unknown mailbox alias (re-run register/resolve for this bridge)", ?_⟩
          simp [hrun, hreq, Except.mapError, bind, Except.bind, hid, hget, transport]
        | some old =>
          refine Or.inr ⟨req.shardURL, old, req.frame, rfl, ?_⟩
          simp [hrun, hreq, Except.mapError, bind, Except.bind, hid, hget, pure, Except.pure]
      · refine Or.inl ⟨errNotReady, txt "not started", ?_⟩
        simp [hrun, bind, Except.bind]
    · cases h
  · cases h

theorem attachPlan_alias (h : aliasOf np opAttach payload = some a) :
    (∃ code detail, attachPlan np b payload = .error (.error code detail)) ∨
      ∃ req bind, req.mailboxID = a ∧ mapGet b.aliases (bytesToHex a) = some bind ∧
        attachPlan np b payload = .ok (req, bind) := by
  change (match unmarshalAttach np payload with
    | .ok req => some req.mailboxID
    | .error _ => none) = some a at h
  unfold attachPlan BridgeState.requireRunning orRefuse BridgeState.expandAlias
  split at h
  · next req hreq =>
    cases h
    by_cases hrun : b.running = true
    · cases hget : mapGet b.aliases (bytesToHex req.mailboxID) with
      | none =>
        refine Or.inl ⟨errTransport, txt "unknown mailbox alias (re-run register/resolve for this bridge)", ?_⟩
        simp [hrun, hreq, Except.mapError, bind, Except.bind, hget, transport]
      | some old =>
        refine Or.inr ⟨req, old, rfl, rfl, ?_⟩
        simp [hrun, hreq, Except.mapError, bind, Except.bind, hget, pure, Except.pure]
    · refine Or.inl ⟨errNotReady, txt "not started", ?_⟩
      simp [hrun, bind, Except.bind]
  · cases h

theorem mem_readings {targets : List Binding} {outcomes : List (Except Bytes (List Bytes))}
    {e : (o : Call) × o.Res} (h : e ∈ readings targets outcomes) : ∃ mb ∈ targets, e.1 = readCall mb := by
  induction targets generalizing outcomes with
  | nil => cases h
  | cons mb targets ih =>
    cases outcomes with
    | nil => cases h
    | cons outcome outcomes =>
      rcases List.mem_cons.1 h with rfl | h
      · exact ⟨mb, List.mem_cons_self, rfl⟩
      · obtain ⟨mb', hmb', heq⟩ := ih h
        exact ⟨mb', List.mem_cons_of_mem mb hmb', heq⟩

/-- A poll with an alias is for what is attached under it, and needs a started bridge. -/
theorem pollPlan_alias (h : aliasOf np opPoll payload = some a) :
    pollPlan np b payload =
      if b.running then .ok (mapGet b.attached (bytesToHex a)).toList
      else .error (.error errNotReady (txt "not started")) := by
  change (match unmarshalPoll np payload with
    | .ok req => if req.mailboxID.length = 16 then some req.mailboxID else none
    | .error _ => none) = some a at h
  unfold pollPlan BridgeState.requireRunning orRefuse
  cases b.running with
  | false => rfl
  | true =>
    split at h
    · next req hreq =>
      split at h
      · next hid =>
        cases h
        simp only [hreq, Except.mapError, bind, Except.bind, if_pos hid, if_true]
        rfl
      · cases h
    · cases h

/-- **Nothing is attached under an alias that was never issued**: a poll with it reads
    nothing and finds no mail. -/
theorem onPoll_unattached (ha : aliasOf np opPoll payload = some a)
    (hget : mapGet b.attached (bytesToHex a) = none)
    (h : (onPoll np b payload).Yields l (reply, b')) :
    if b.running then reply = .poll [] else reply.op = opError := by
  have hplan := pollPlan_alias (b := b) ha
  unfold onPoll at h
  split
  · next hrun =>
    rw [hplan, if_pos hrun, hget] at h
    exact congrArg Prod.fst h.2.symm
  · next hrun =>
    rw [hplan, if_neg hrun] at h
    rw [show reply = .error errNotReady (txt "not started") from congrArg Prod.fst h.2.symm]
    rfl

/-- A poll reads attached mailboxes, and only that of its alias. -/
theorem onPoll_calls (h : (onPoll np b payload).Yields l (reply, b')) : ∀ e ∈ l,
    ∃ att ∈ b.attached, e.1 = readCall att.2 ∧
      ∀ a, aliasOf np opPoll payload = some a → att.1 = bytesToHex a := by
  intro e he
  unfold onPoll at h
  cases hplan : pollPlan np b payload with
  | error r =>
    rw [hplan] at h
    obtain ⟨rfl, -⟩ := h
    cases he
  | ok targets =>
    rw [hplan] at h
    obtain ⟨l₁, _, r, rfl, hdrain, rfl, -⟩ := Prog.yields_bind.1 h
    obtain ⟨outcomes, -, rfl, -⟩ := drain_yields_iff.1 hdrain
    rw [List.append_nil] at he
    obtain ⟨mb, hmb, hcall⟩ := mem_readings he
    rw [hcall]
    change ∃ att ∈ b.attached, readCall mb = readCall att.2 ∧ ∀ a, (match unmarshalPoll np payload with
      | .ok req => if req.mailboxID.length = 16 then some req.mailboxID else none
      | .error _ => none) = some a → att.1 = bytesToHex a
    unfold pollPlan BridgeState.requireRunning orRefuse at hplan
    by_cases hrun : b.running = true
    · rw [if_pos hrun] at hplan
      cases hreq : unmarshalPoll np payload with
      | error e =>
        rw [hreq] at hplan
        cases hplan
      | ok req =>
        simp only [hreq, Except.mapError, bind, Except.bind] at hplan
        by_cases hid : req.mailboxID.length = 16
        · rw [if_pos hid] at hplan
          cases hplan
          refine ⟨(_, mb), mapGet_eq_some (Option.mem_toList.1 hmb), rfl, fun a ha => ?_⟩
          dsimp only at ha
          rw [if_pos hid] at ha
          cases ha
          rfl
        · rw [if_neg hid] at hplan
          cases hplan
          obtain ⟨att, hatt, rfl⟩ := List.mem_map.1 hmb
          refine ⟨att, hatt, rfl, fun a ha => ?_⟩
          dsimp only at ha
          rw [if_neg hid] at ha
          cases ha
    · rw [if_neg hrun] at hplan
      cases hplan

/-- What a request with the alias `a` does: it concerns the mailbox of this alias
    only.  If the alias was never issued, it calls nobody and changes nothing; a send or
    an attach is refused, and a poll finds no mail, or is refused as all polls are while
    the bridge is stopped. -/
structure Bound (c : Crypto) (s : Life) (a : Bytes) (op : UInt8) (l : Transcript) (reply : Reply)
    (b' : BridgeState) : Prop where
  calls : ∀ e ∈ l, ∃ id, e.1.mailbox = some id ∧ Names c (bytesToHex a) id
  attached : op = opAttach → reply.op ≠ opError → ∃ bind,
    mapGet b'.attached (bytesToHex a) = some bind ∧ Names c (bytesToHex a) bind.mailboxID
  unissued : bytesToHex a ∉ s.issued → l = [] ∧ b' = s.bridge
  refused : bytesToHex a ∉ s.issued → op ≠ opPoll → reply.op = opError
  noMail : bytesToHex a ∉ s.issued → op = opPoll →
    if s.bridge.running then reply = .poll [] else reply.op = opError

theorem Sound.send (hs : Sound c s) (ha : aliasOf np opSend payload = some a)
    (h : (onSend np c s.bridge payload).Yields l (reply, b')) : Bound c s a opSend l reply b' := by
  unfold onSend at h
  rcases sendPlan_alias ha with ⟨code, detail, hplan⟩ | ⟨shardURL, bind, frame, hget, hplan⟩
  · rw [hplan] at h
    obtain ⟨rfl, heq⟩ := h
    cases heq
    exact ⟨by simp, fun hop => absurd hop (by decide), fun _ => ⟨rfl, rfl⟩, fun _ _ => rfl,
      fun _ hop => absurd hop (by decide)⟩
  · rw [hplan] at h
    obtain ⟨sent, _, rfl, rfl, heq⟩ := h
    cases heq
    have hmem := mapGet_eq_some hget
    have hissued := hs.issued (_, bind) (List.mem_append_left _ hmem)
    refine ⟨fun e he => ?_, fun hop => absurd hop (by decide), fun hnot => absurd hissued hnot,
      fun hnot => absurd hissued hnot, fun hnot => absurd hissued hnot⟩
    rw [List.mem_singleton.1 he]
    exact ⟨bind.mailboxID, rfl, hs.aliases (_, bind) hmem⟩

theorem Sound.attach (hs : Sound c s) (ha : aliasOf np opAttach payload = some a)
    (h : onAttach np s.bridge payload = (reply, b')) : Bound c s a opAttach [] reply b' := by
  rw [onAttach_eq] at h
  rcases attachPlan_alias (b := s.bridge) ha with ⟨code, detail, hplan⟩ | ⟨req, bind, rfl, hget, hplan⟩
  · rw [hplan] at h
    cases h
    exact ⟨by simp, fun _ hop => absurd rfl hop, fun _ => ⟨rfl, rfl⟩, fun _ _ => rfl,
      fun _ hop => absurd hop (by decide)⟩
  · rw [hplan] at h
    cases h
    have hmem := mapGet_eq_some hget
    have hissued := hs.issued (_, bind) (List.mem_append_left _ hmem)
    refine ⟨by simp, fun _ _ => ⟨attachment req bind, ?_, hs.aliases (_, bind) hmem⟩,
      fun hnot => absurd hissued hnot, fun hnot => absurd hissued hnot,
      fun hnot => absurd hissued hnot⟩
    have hattached : mapGet (mapSet s.bridge.attached (bytesToHex req.mailboxID)
        (attachment req bind)) (bytesToHex req.mailboxID) = some (attachment req bind) := by
      rw [mapGet_mapSet, if_pos rfl]
    rw [← hattached]
    unfold BridgeState.recordAlias
    dsimp only
    split <;> rfl

theorem Sound.poll (hs : Sound c s) (ha : aliasOf np opPoll payload = some a)
    (h : (onPoll np s.bridge payload).Yields l (reply, b')) : Bound c s a opPoll l reply b' := by
  have hcalls := onPoll_calls h
  refine ⟨fun e he => ?_, fun hop => absurd hop (by decide), fun hnot => ⟨?_, onPoll_next h⟩,
    fun _ hop => absurd rfl hop, fun hnot _ => onPoll_unattached ha ?_ h⟩
  · obtain ⟨att, hatt, hcall, hkey⟩ := hcalls e he
    rw [hcall, ← hkey a ha]
    exact ⟨att.2.mailboxID, rfl, hs.attached att hatt⟩
  · rw [List.eq_nil_iff_forall_not_mem]
    intro e he
    obtain ⟨att, hatt, -, hkey⟩ := hcalls e he
    exact hnot (hkey a ha ▸ hs.issued att (List.mem_append_right _ hatt))
  · rw [Option.eq_none_iff_forall_not_mem]
    intro bind hbind
    exact hnot (hs.issued (_, bind) (List.mem_append_right _ (mapGet_eq_some hbind)))

/-- **An alias always means its mailbox.**  In every run, what the maps hold under an
    alias is the mailbox with this alias.  A send, an attach or a poll with an
    alias concerns no other mailbox, a poll without one only attached ones, and with
    an alias that was never issued nothing is done (`Bound`). -/
theorem alias_means_its_mailbox (h : Reached np c s) :
    (∀ e ∈ s.bridge.aliases ++ s.bridge.attached, Names c e.1 e.2.mailboxID) ∧
    ∀ op payload l reply b', (dispatch np c s.bridge payload op).Yields l (reply, b') →
      (∀ a, aliasOf np op payload = some a → Bound c s a op l reply b') ∧
      (op = opPoll → ∀ e ∈ l, ∃ id, e.1.mailbox = some id ∧ ∃ key ∈ s.issued, Names c key id) := by
  have hs := h.sound
  refine ⟨fun e he => ?_, fun op payload l reply b' hrun => ⟨fun a ha => ?_, ?_⟩⟩
  · rcases List.mem_append.1 he with he | he
    · exact hs.aliases e he
    · exact hs.attached e he
  · by_cases hsend : op = opSend
    · subst hsend
      exact hs.send ha hrun
    by_cases hattach : op = opAttach
    · subst hattach
      obtain ⟨rfl, heq⟩ := hrun
      exact hs.attach ha heq
    by_cases hpoll : op = opPoll
    · subst hpoll
      exact hs.poll ha hrun
    · unfold aliasOf at ha
      rw [if_neg hsend, if_neg hattach, if_neg hpoll] at ha
      cases ha
  · rintro rfl e he
    have hpoll : (onPoll np s.bridge payload).Yields l (reply, b') := hrun
    obtain ⟨att, hatt, hcall, -⟩ := onPoll_calls hpoll e he
    rw [hcall]
    exact ⟨att.2.mailboxID, rfl, att.1, hs.issued att (List.mem_append_right _ hatt),
      hs.attached att hatt⟩

end Requests

/-! ### A mailbox that is registered -/

/-- What the Router answers to the registration of a user. -/
def ownCapability : Capability where
  mailboxID := hexEncode (List.replicate 32 0)
  readSecret := hexEncode (List.replicate 32 1)
  shardURL := txt "s"

/-- The registration of the user tag `u` at the Router `r`. -/
def registerPayload : Bytes := tagged.bytes [⟨1, txt "u"⟩, ⟨2, txt "r"⟩]

/-- The key of a user is there, and the Router answers. -/
def registerCalls : Transcript :=
  [⟨.scopedKey (txt "u"), .ok [1]⟩, ⟨.register (txt "r") [1], .ok ownCapability⟩]

/-- The life of the bridge after this registration. -/
def registeredLife : Life where
  bridge := (registered Crypto.trusting {} (txt "r") ownCapability).2
  recorded := (recordOf tagged Crypto.trusting {} registerPayload opRegister registerCalls).toList
  issued := (recordOf tagged Crypto.trusting {} registerPayload opRegister registerCalls).toList.map
    Prod.fst

theorem step_registered :
    Step tagged Crypto.trusting (.request opRegister registerPayload registerCalls) {} registeredLife :=
  .request ⟨.ok [1], _, rfl, .ok ownCapability, _, rfl, rfl, rfl⟩

theorem registered_alias_means_its_mailbox :
    (∀ e ∈ registeredLife.bridge.aliases ++ registeredLife.bridge.attached,
      Names Crypto.trusting e.1 e.2.mailboxID) ∧
    ∀ op payload l reply b',
      (dispatch tagged Crypto.trusting registeredLife.bridge payload op).Yields l (reply, b') →
      (∀ a, aliasOf tagged op payload = some a →
        Bound Crypto.trusting registeredLife a op l reply b') ∧
      (op = opPoll → ∀ e ∈ l, ∃ id, e.1.mailbox = some id ∧
        ∃ key ∈ registeredLife.issued, Names Crypto.trusting key id) :=
  alias_means_its_mailbox (Relation.ReflTransGen.single ⟨_, step_registered⟩)

/-! ### A poll with an unknown alias -/

/-- A bridge that was started, and nothing else. -/
def startedLife : Life where
  bridge := { running := true }

theorem step_started : Step tagged Crypto.trusting
    (.request opStartStop (tagged.bytes [⟨1, [actionStart]⟩]) []) {} startedLife :=
  .request ⟨rfl, rfl⟩

/-- No mailbox was ever registered, and a poll for one is answered as if it were empty. -/
theorem unknown_alias_polled :
    ¬ ∀ (np : NanoPack) (c : Crypto) (s : Life), Reached np c s →
      ∀ op payload a l reply b', aliasOf np op payload = some a → bytesToHex a ∉ s.issued →
        (dispatch np c s.bridge payload op).Yields l (reply, b') → reply.op = opError := by
  intro h
  have hop := h tagged Crypto.trusting startedLife (.single ⟨_, step_started⟩) opPoll
    (tagged.bytes [⟨2, List.replicate 16 0⟩]) (List.replicate 16 0) [] (.poll []) startedLife.bridge
    (by decide) List.not_mem_nil ⟨rfl, rfl⟩
  exact absurd hop (by decide)

end Bridge
