/-
  The handlers of a shard that change its key pair or register it, as clients of
  the Router.

  * `Held` is what such a handler remembers: the key pair that it has read or
    drawn, whether it has replaced it, and whether the Router has accepted it;
  * `Rules` are the operations that a handler may perform after what it remembers,
    and `prog_follows` says that every handler keeps to them;
  * `prog_chains`: a handler that replaces the key pair clears the marker next.
-/
import NexTalkRelay.Agreement.Calls

open Effect Js Shard

namespace Agreement

/-- A job or a request, with the key pairs drawn in its handling. -/
inductive Task where
  | selfRegister (fresh : Identity)
  | register (authorization : Option JString) (body : Option Json) (fresh : Identity)
  | rotateKey (authorization : Option JString) (fresh newIdentity : Identity)

/-- The handler of a task; a job has no response. -/
def Task.prog (env : AdminEnv) : Task → A (Option AdminResponse)
  | selfRegister fresh => do
    ensureSelfRegistered env fresh
    return none
  | register authorization body fresh => do
    return some (← handleAdminRegister env authorization body fresh)
  | rotateKey authorization fresh newIdentity => do
    return some (← handleAdminRotateKey env authorization fresh newIdentity)

/-- The key pair that is stored where there is none. -/
def Task.fresh : Task → Identity
  | selfRegister fresh | register _ _ fresh | rotateKey _ fresh _ => fresh

/-- The key pair of a rotation. -/
def Task.newIdentity : Task → Option Identity
  | rotateKey _ _ newIdentity => some newIdentity
  | _ => none

/-- No other Router is named in a registration by the operator. -/
def Task.Aimed (X : Setting) : Task → Prop
  | register _ body _ => ∀ f, adminRegisterFields X.shard body = .ok f → f.2.2.1 = X.origin
  | _ => True

/-! ## What a handler remembers -/

/-- The key pair that a handler has, and whether it was stored and registered. -/
structure Held where
  identity : Option Identity := none
  stored : Bool := false
  registered : Bool := false

/-- The call carries a key to be registered. -/
def isRegistration (call : RouterCall) : Bool :=
  call.body.any fun body => (body.field (js "shard_pubkey")).isSome

/-- What a handler may ask of the platform. -/
abbrev Op := KvOp Key Val (Service ⊕ RouterCall)

/-- What an operation adds to it. -/
def Held.note (m : Held) (o : Op) (r : KvOp.Res (Sum.elim Service.Res RouterCall.Res) o) : Held :=
  match o, r with
  | .get .shardIdentity, some identity => { m with identity := some identity }
  | .put .shardIdentity identity _, _ =>
    if m.identity.isNone then { m with identity := some identity } else { m with stored := true }
  | .call (.inr call), .ok reply =>
    if reply.ok && isRegistration call then { m with registered := true } else m
  | _, _ => m

/-- The operations that a handler may perform, after what it remembers. -/
def Rules (X : Setting) (task : Task) (m : Held) : Op → Prop
  | .get .shardIdentity => m = {}
  | .put .shardIdentity identity ttl =>
    ttl = none ∧ m.stored = false ∧
      (m = {} ∧ identity = task.fresh ∨ m.identity.isSome = true ∧ task.newIdentity = some identity)
  | .put .selfRegistration _ _ => m.registered = true
  | .put _ _ _ => False
  | .delete k => k = .selfRegistration
  | .call (.inr call) =>
    (isRegistration call = true → m.stored = false ∧ ∃ identity url nonce solution timestamp signature,
      m.identity = some identity ∧ X.Names url ∧
        call = X.registrationAt url identity nonce solution timestamp signature) ∧
    ∀ old, X.retires call = some old →
      m.stored = true ∧ ∃ identity, m.identity = some identity ∧ identity.publicKeyHex = old
  | _ => True

section
variable {X : Setting} {task : Task} {m : Held}

theorem identity_follows {fresh : Identity} (hfresh : task.fresh = fresh) :
    (liftM (ensureShardIdentity fresh) : A Identity).Follows Held.note (Rules X task)
      (fun m identity => m = { identity := some identity }) {} := by
  refine ⟨rfl, fun stored => ?_⟩
  cases stored with
  | some identity => exact rfl
  | none => exact ⟨⟨rfl, rfl, Or.inl ⟨rfl, hfresh.symm⟩⟩, fun _ => rfl⟩

theorem Held.note_replace (h : m.identity.isSome = true) (v : Identity) (ttl : Option ℤ) :
    m.note (.put .shardIdentity v ttl) () = { m with stored := true } := by
  unfold note
  dsimp only
  rw [if_neg]
  rw [Option.isNone_iff_eq_none]
  exact Option.isSome_iff_ne_none.1 h

/-- An answer is remembered if it accepts a registration. -/
theorem Held.note_answer (m : Held) (call : RouterCall) (a : Except JString RouterReply) :
    m.note (.call (.inr call)) a = m ∨ ∃ r, a = .ok r ∧ r.ok = true ∧ isRegistration call = true ∧
      m.note (.call (.inr call)) a = { m with registered := true } := by
  unfold note
  cases a with
  | error e => exact Or.inl rfl
  | ok r =>
    dsimp only
    split
    · next hboth =>
      obtain ⟨hok, hcall⟩ := Bool.and_eq_true_iff.1 hboth
      exact Or.inr ⟨r, rfl, hok, hcall, rfl⟩
    · exact Or.inl rfl

/-- What is no registration is not remembered. -/
theorem Held.note_call {call : RouterCall} (h : isRegistration call = false) (m : Held)
    (a : Except JString RouterReply) : m.note (.call (.inr call)) a = m := by
  rcases m.note_answer call a with hm | ⟨r, -, -, hcall, -⟩
  · exact hm
  · rw [h] at hcall
    cases hcall

theorem fieldAt_eq_some {call : RouterCall} {path key u : JString}
    (h : X.fieldAt call path key = some u) :
    ∃ body, call.body = some body ∧ Json.asStr? (body.field key) = some u := by
  unfold Setting.fieldAt at h
  split at h
  · obtain ⟨body, hbody, h⟩ := Option.bind_eq_some_iff.1 h
    split at h
    · exact ⟨body, hbody, h⟩
    · cases h
  · cases h

theorem retires_registrationAt (url : JString) (identity : Identity) (nonce : Option Json)
    (solution timestamp signature : JString) :
    X.retires (X.registrationAt url identity nonce solution timestamp signature) = none := by
  have hold : (registerShardBody X.selfUrl identity.publicKeyHex nonce solution timestamp
      signature).field (js "old_pubkey") = none := by
    cases nonce <;> rfl
  refine Option.eq_none_iff_forall_ne_some.2 fun old h => ?_
  obtain ⟨body, hbody, hkey⟩ := fieldAt_eq_some h
  cases hbody
  rw [hold] at hkey
  cases hkey

theorem isRegistration_registrationAt (url : JString) (identity : Identity) (nonce : Option Json)
    (solution timestamp signature : JString) :
    isRegistration (X.registrationAt url identity nonce solution timestamp signature) = true := by
  have hkey := registerShardBody_pubkey X.selfUrl identity.publicKeyHex nonce solution timestamp
    signature
  exact congrArg Option.isSome hkey

theorem Held.note_accepted {call : RouterCall} (h : isRegistration call = true) {r : RouterReply}
    (hok : r.ok = true) (m : Held) : (m.note (.call (.inr call)) (.ok r)).registered = true := by
  unfold note
  simp [h, hok]

theorem postRegistration_follows {url : JString} (hurl : X.Names url)
    (identity : Identity) (nonce : Option Json) (solution : JString) :
    (postRegistration url X.selfUrl identity nonce solution).Follows Held.note (Rules X task)
      (fun m reply => ∀ r, reply = .ok r → r.ok = true → m.registered = true)
      { identity := some identity } := by
  refine ⟨trivial, fun now => ⟨trivial, fun signature => ⟨⟨fun _ => ⟨rfl, identity, url, nonce,
    solution, digits now, signature, rfl, hurl, rfl⟩, fun old hold => ?_⟩, fun reply => ?_⟩⟩⟩
  · have hnone := retires_registrationAt (X := X) url identity nonce solution (digits now) signature
    cases hnone.symm.trans hold
  · rintro r rfl hok
    exact Held.note_accepted (isRegistration_registrationAt url identity nonce solution (digits now)
      signature) hok _

theorem markRegistered_follows (hm : m.registered = true) :
    (liftM markRegistered : A Unit).Follows Held.note (Rules X task) (fun _ _ => True) m :=
  ⟨trivial, fun _ => ⟨hm, fun _ => trivial⟩⟩

/-- The call carries no key. -/
theorem fetchRouter_follows {url : JString} {body : Option Json}
    (hbody : isRegistration ⟨url, body⟩ = false)
    (hold : ∀ old, X.retires ⟨url, body⟩ = some old →
      m.stored = true ∧ ∃ identity, m.identity = some identity ∧ identity.publicKeyHex = old) :
    (fetchRouter url body).Follows Held.note (Rules X task) (fun m' _ => m' = m) m :=
  ⟨⟨fun h => absurd h (by rw [hbody]; decide), hold⟩, fun reply => Held.note_call hbody m reply⟩

theorem ensureSelfRegistered_follows {fresh : Identity} (hfresh : task.fresh = fresh) :
    (ensureSelfRegistered X.shard fresh).Follows Held.note (Rules X task) (fun _ _ => True) {} := by
  unfold ensureSelfRegistered
  split
  · next routerUrl selfUrl hrouter hself =>
    obtain rfl : X.selfUrl = selfUrl := Option.some.inj (X.isSelf.symm.trans hself)
    have hurl := names_of_dropSlash (X.isRouter routerUrl hrouter)
    have hdue : (liftM registrationDue : A Bool).Follows Held.note (Rules X task)
        (fun m _ => m = {}) {} := by
      refine ⟨trivial, fun last => ?_⟩
      cases last with
      | none => exact rfl
      | some last => exact ⟨trivial, fun now => rfl⟩
    refine hdue.bind ?_
    rintro _ due rfl
    split
    · refine (identity_follows hfresh).bind ?_
      rintro _ identity rfl
      split
      · trivial
      · refine (fetchRouter_follows (m := { identity := some identity }) rfl ?_).bind ?_
        · intro old hold
          obtain ⟨body, ⟨⟩, -⟩ := fieldAt_eq_some hold
        · rintro _ reply rfl
          split
          · trivial
          · split
            · trivial
            · split
              · trivial
              · split
                · trivial
                · refine (postRegistration_follows hurl identity _ _).bind fun m reply hm => ?_
                  split
                  · trivial
                  · next regResp =>
                    split
                    · trivial
                    · next hok => exact markRegistered_follows (hm regResp rfl (by simpa using hok))
    · trivial
  · trivial

theorem handleAdminRegister_follows {authorization : Option JString} {body : Option Json}
    {fresh : Identity} (hfresh : task.fresh = fresh)
    (haimed : ∀ f, adminRegisterFields X.shard body = .ok f → f.2.2.1 = X.origin) :
    (handleAdminRegister X.shard authorization body fresh).Follows Held.note (Rules X task)
      (fun _ _ => True) {} := by
  unfold handleAdminRegister
  split
  · trivial
  unfold guarded
  split
  · next f hf =>
    obtain ⟨nonce, solution, router, selfUrl⟩ := f
    obtain rfl : router = X.origin := haimed _ hf
    obtain rfl : X.selfUrl = selfUrl := by
      unfold adminRegisterFields at hf
      obtain ⟨b, -, hf⟩ := Check.orAnswer_bind.1 hf
      obtain ⟨nonce, -, hf⟩ := Check.orAnswer_bind.1 hf
      obtain ⟨solution, -, hf⟩ := Check.orAnswer_bind.1 hf
      obtain ⟨router, -, hf⟩ := Check.bind_eq_ok.1 hf
      obtain ⟨-, hf⟩ := Check.require_bind.1 hf
      obtain ⟨selfUrl, hself, hf⟩ := Check.orAnswer_bind.1 hf
      cases hf
      exact Option.some.inj (X.isSelf.symm.trans hself)
    refine (identity_follows hfresh).bind ?_
    rintro _ identity rfl
    refine (postRegistration_follows (Or.inl rfl) identity _ _).bind fun m reply hm => ?_
    split
    · trivial
    · next regResp =>
      split
      · trivial
      · next hok =>
        exact (markRegistered_follows (hm regResp rfl (by simpa using hok))).bind fun _ _ _ => trivial
  · trivial
  · trivial

/-- A notice retires the old key. -/
theorem retires_notice {url selfUrl oldPubkey newPubkey timestamp oldSig newSig old : JString}
    (h : X.retires ⟨url, some (rotationBody selfUrl oldPubkey newPubkey timestamp oldSig newSig)⟩ =
      some old) : oldPubkey = old := by
  obtain ⟨body, ⟨⟩, hkey⟩ := fieldAt_eq_some h
  have hne : (js "shard_url" == js "old_pubkey") = false := by decide
  have hfield : (rotationBody selfUrl oldPubkey newPubkey timestamp oldSig newSig).field
      (js "old_pubkey") = some (.str oldPubkey) := by
    simp [rotationBody, Json.field, hne]
  rw [hfield] at hkey
  exact Option.some.inj hkey

theorem handleAdminRotateKey_follows {authorization : Option JString} {fresh newIdentity : Identity}
    (hfresh : task.fresh = fresh) (hnew : task.newIdentity = some newIdentity) :
    (handleAdminRotateKey X.shard authorization fresh newIdentity).Follows Held.note (Rules X task)
      (fun _ _ => True) {} := by
  unfold handleAdminRotateKey
  split
  · trivial
  rw [X.isSelf]
  dsimp only
  refine (identity_follows hfresh).bind ?_
  rintro _ identity rfl
  refine ⟨trivial, fun timestamp => ⟨trivial, fun oldSig => ⟨trivial, fun newSig => ⟨⟨rfl, rfl,
    Or.inr ⟨rfl, hnew⟩⟩, fun _ => ⟨rfl, fun _ => ?_⟩⟩⟩⟩⟩
  dsimp only [KvOp.widen, Prog.bind]
  split
  · trivial
  · refine (fetchRouter_follows rfl fun old hold => ⟨rfl, identity, rfl, ?_⟩).bind fun _ _ _ => trivial
    exact retires_notice hold

/-- **Every handler keeps to its rules.** -/
theorem prog_follows (haimed : task.Aimed X) :
    (task.prog X.shard).Follows Held.note (Rules X task) (fun _ _ => True) {} := by
  cases task with
  | selfRegister fresh => exact (ensureSelfRegistered_follows rfl).bind fun _ _ _ => trivial
  | register authorization body fresh =>
    exact (handleAdminRegister_follows rfl haimed).bind fun _ _ _ => trivial
  | rotateKey authorization fresh newIdentity =>
    exact (handleAdminRotateKey_follows rfl rfl).bind fun _ _ _ => trivial

/-! ## Clearing the marker -/

/-- The handler puts the key pair of its rotation. -/
def Replaces (task : Task) (o : Op) : Prop :=
  ∃ identity ttl, task.newIdentity = some identity ∧ o = .put .shardIdentity identity ttl

/-- **A handler that replaces the key pair clears the marker next.** -/
theorem prog_chains {env : AdminEnv}
    (hfresh : ∀ identity, task.newIdentity = some identity → task.fresh ≠ identity) :
    (task.prog env).Chains (Replaces task) (.delete .selfRegistration) := by
  cases task with
  | selfRegister fresh => exact Prog.chains_of_never (by rintro _ ⟨_, _, ⟨⟩, -⟩) _ _
  | register authorization body fresh => exact Prog.chains_of_never (by rintro _ ⟨_, _, ⟨⟩, -⟩) _ _
  | rotateKey authorization fresh newIdentity =>
    have hensure : (liftM (ensureShardIdentity fresh) : A Identity).Only
        fun o => ¬ Replaces (.rotateKey authorization fresh newIdentity) o := by
      refine ⟨by rintro ⟨_, _, -, ⟨⟩⟩, fun stored => ?_⟩
      cases stored with
      | some identity => trivial
      | none =>
        refine ⟨?_, fun _ => trivial⟩
        rintro ⟨identity, ttl, hnew, ⟨⟩⟩
        exact hfresh _ hnew rfl
    have hother {o : Op} (ho : ∀ identity ttl, o ≠ .put .shardIdentity identity ttl) {p : Prop}
        (h : Replaces (.rotateKey authorization fresh newIdentity) o) : p := by
      obtain ⟨identity, ttl, -, rfl⟩ := h
      exact absurd rfl (ho identity ttl)
    show ((handleAdminRotateKey env authorization fresh newIdentity).bind fun r =>
      .ret (some r)).Chains _ _
    unfold handleAdminRotateKey
    split
    · trivial
    split
    · trivial
    unfold Shard.rotateKey
    rw [Prog.bind_eq, Prog.bind_assoc]
    refine hensure.chains_bind fun identity => ?_
    refine ⟨hother (by simp), fun timestamp => ⟨hother (by simp), fun oldSig =>
      ⟨hother (by simp), fun newSig => ⟨fun _ _ => rfl, fun _ => ⟨hother (by simp), fun _ => ?_⟩⟩⟩⟩⟩
    dsimp only [KvOp.widen, Prog.bind]
    split
    · trivial
    · exact ⟨hother (by simp), fun _ => trivial⟩

/-- No handler begins with that. -/
theorem prog_next (env : AdminEnv) : (task.prog env).next ≠ some (.delete .selfRegistration) := by
  cases task with
  | selfRegister fresh =>
    show ((ensureSelfRegistered env fresh).bind fun _ => .ret none).next ≠ _
    unfold ensureSelfRegistered
    split <;> rintro ⟨⟩
  | register authorization body fresh =>
    show ((handleAdminRegister env authorization body fresh).bind fun r => .ret (some r)).next ≠ _
    unfold handleAdminRegister guarded
    split
    · rintro ⟨⟩
    · split <;> rintro ⟨⟩
  | rotateKey authorization fresh newIdentity =>
    show ((handleAdminRotateKey env authorization fresh newIdentity).bind fun r =>
      .ret (some r)).next ≠ _
    unfold handleAdminRotateKey
    split
    · rintro ⟨⟩
    · split <;> rintro ⟨⟩

end

end Agreement
