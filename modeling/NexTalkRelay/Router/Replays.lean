/-
  Requests that the Router answers again.

  A registration is answered at any time near its timestamp, and a rotation
  also while the record of its URL holds the old key; nothing remembers an
  answered request.

  * `Credential` is what makes two requests the same, and `Ledger` adds to the
    state of the Router what it has granted;
  * `barred` says of a request that its window is over or that it rotates a key
    that the record does not hold;
  * `granted_once`: nothing is granted twice in a run in which everything
    granted is barred when it comes again.
-/
import NexTalkRelay.Router.Identity

open Effect Js Runs

namespace Router

/-! ## Signed requests -/

/-- A signed request, as its signatures see it. -/
inductive Credential where
  | register (pubkey timestamp : JString) (signature : Bytes)
  | rotation (shardUrl oldPubkey newPubkey timestamp : JString) (oldSig newSig : Bytes)
deriving DecidableEq

/-- What a registration is granted for. -/
def RegisterFields.credential (f : RegisterFields) : Credential :=
  .register f.pubkey.val.lower f.timestamp.val.1 (sigBytes f.signature)

/-- What a rotation is granted for. -/
def RotateFields.credential (f : RotateFields) : Credential :=
  .rotation f.shardUrl f.oldPubkey.lower f.newPubkey.lower f.timestamp.val.1 (sigBytes f.oldSig)
    (sigBytes f.newSig)

/-- The credential of a registration or a rotation. -/
def Request.credential : Request → Option Credential
  | .register rq =>
    match registerFields rq.body with
    | .ok f => some f.credential
    | .error _ => none
  | .rotateShardKey body =>
    match rotateFields body with
    | .ok f => some f.credential
    | .error _ => none
  | _ => none

/-- The request comes outside the window of its timestamp, or rotates a key that
    the record does not hold. -/
def barred (env : Env) (t : ℕ) (rq : Request) (kv : Kv) : Bool :=
  match rq with
  | .register rq =>
    match registerFields rq.body with
    | .ok f => (Number.ofInt 30000).lt (clockSkew t f.timestamp.val)
    | .error _ => true
  | .rotateShardKey body =>
    match rotateFields body with
    | .ok f => (Number.ofInt 60000).lt (clockSkew t f.timestamp.val) ||
      (recordedKey env kv f.shardUrl).map toLowerCase != some f.oldPubkey.lower
    | .error _ => true
  | _ => true

/-- The state of the Router, and the signed requests that it answered with
    success, the last ones first. -/
structure Ledger where
  state : State
  granted : List Credential := []

/-- One request, and what it was granted. -/
def Ledger.step (env : Env) (answer : JString → CreateBody → Created) (e : ℕ × Request)
    (L : Ledger) : Ledger where
  state := (handle env answer e.1 e.2 L.state).2
  granted :=
    if (handle env answer e.1 e.2 L.state).1.status = 200 then e.2.credential.toList ++ L.granted
    else L.granted

/-- What was granted is barred when it comes again. -/
def Unrepeated (env : Env) (L : Ledger) (e : ℕ × Request) : Prop :=
  ∀ p ∈ e.2.credential, p ∈ L.granted → barred env e.1 e.2 L.state.1 = true

instance (env : Env) (L : Ledger) (e : ℕ × Request) : Decidable (Unrepeated env L e) :=
  inferInstanceAs (Decidable (∀ p ∈ e.2.credential, p ∈ L.granted → _))

/-! ## One request -/

section
variable {env : Env} {answer : JString → CreateBody → Created} {t : ℕ} {kv : Kv} {w : World}
  {h : Prog.Handler Service Service.Res World}

theorem handleRegister_barred {rq : RegisterRequest} {f : RegisterFields}
    (hf : registerFields rq.body = .ok f)
    (hskew : (Number.ofInt 30000).lt (clockSkew t f.timestamp.val) = true)
    {urls : List JString} (current : Era urls) :
    ((handleRegister env rq current).run (KvOp.exec t h) (kv, w)).1 =
      some (jsonErr (js "timestamp outside allowed skew") 401) := by
  simp only [handleRegister, guarded, gated, hf, registerGate, dateNow, Prog.bind_eq,
    Prog.perform_bind, Prog.op_bind, KvOp.run_now, hskew, if_true, Prog.pure_eq, Prog.ret_bind,
    Prog.run_ret]

/-- A rotation of another key than the recorded one is refused. -/
theorem handleRotateShardKey_barred (hd : Durable kv) {body : Option Json} {f : RotateFields}
    (hf : rotateFields body = .ok f)
    (hbar : (Number.ofInt 60000).lt (clockSkew t f.timestamp.val) = true ∨
      (recordedKey env kv f.shardUrl).map toLowerCase ≠ some f.oldPubkey.lower) :
    ∃ r, ((handleRotateShardKey env body).run (KvOp.exec t h) (kv, w)).1 = some r ∧
      r.status ≠ 200 := by
  have hrefuse (message : JString) {status : ℕ} (hs : status ≠ 200) :
      ∃ r, some (jsonErr message status) = some r ∧ r.status ≠ 200 := ⟨_, rfl, hs⟩
  unfold handleRotateShardKey
  split
  · exact hrefuse _ (by decide)
  simp only [guarded, hf, rotateShardKey, dateNow, Prog.bind_eq, Prog.perform_bind, KvOp.run_now]
  split
  · exact hrefuse _ (by decide)
  next hskew =>
  have hkey := hbar.resolve_left hskew
  unfold recordedKey at hkey
  rw [Prog.run_bind_some (getRegisteredShards_run hd)]
  cases hfind : (registeredOf env kv).find? fun s => s.url == f.shardUrl with
  | none => exact hrefuse _ (by decide)
  | some record =>
    have hold : toLowerCase record.pubkey ≠ f.oldPubkey.lower := by
      rintro heq
      rw [hfind, Option.map_some, Option.map_some, heq] at hkey
      exact hkey rfl
    simp only [if_pos hold]
    exact hrefuse _ (by decide)

/-- **Step lemma.** What is barred is not granted. -/
theorem not_granted_of_barred {s : State} (hd : Durable s.1) {rq : Request} {p : Credential}
    (hp : rq.credential = some p) (hbar : barred env t rq s.1 = true) :
    (handle env answer t rq s).1.status ≠ 200 := by
  by_cases hne : shardUrlsOf env s.1 = []
  · rw [handle_empty hd hne]
    exact show (500 : ℕ) ≠ 200 by decide
  rw [handle_eq hd hne]
  obtain ⟨kv, w⟩ := s
  cases rq with
  | register rq =>
    unfold Request.credential at hp
    unfold barred at hbar
    cases hf : registerFields rq.body with
    | error e => simp [hf] at hp
    | ok f =>
      simp only [hf] at hbar
      simp only [serve, handleRegister_barred hf hbar]
      exact show (401 : ℕ) ≠ 200 by decide
  | rotateShardKey body =>
    unfold Request.credential at hp
    unfold barred at hbar
    cases hf : rotateFields body with
    | error e => simp [hf] at hp
    | ok f =>
      simp only [hf, Bool.or_eq_true, bne_iff_ne] at hbar
      obtain ⟨r, hr, hstatus⟩ := handleRotateShardKey_barred (h := services env.crypto answer)
        (w := w) hd hf hbar
      simp only [serve, hr]
      exact hstatus
  | _ => cases hp

end

/-! ## Runs -/

/-- **Nothing is granted twice**, in every run in which what was granted is
    barred when it comes again. -/
theorem granted_once (env : Env) (answer : JString → CreateBody → Created) {L : Ledger}
    (hd : Durable L.state.1) (hgranted : L.granted = []) (run : List (ℕ × Request))
    (hrun : Always (Ledger.step env answer) (Unrepeated env) L run) :
    (after (Ledger.step env answer) L run).granted.Nodup := by
  refine (hrun.inv (I := fun L => Durable L.state.1 ∧ L.granted.Nodup) ?_
    ⟨hd, hgranted ▸ List.nodup_nil⟩).2
  rintro L ⟨t, rq⟩ ⟨hd, hnodup⟩ hnew
  refine ⟨handle_durable hd, ?_⟩
  dsimp only [Ledger.step]
  split
  · next hok =>
    cases hp : rq.credential with
    | none => exact hnodup
    | some p =>
      refine List.nodup_cons.2 ⟨fun hmem => ?_, hnodup⟩
      exact not_granted_of_barred hd hp (hnew p hp hmem) hok
  · exact hnodup

/-! ## Two deliveries -/

/-- The registration of the key `aa…a`. -/
def enrolment : Request :=
  .register
    { body := some (.obj [(js "pubkey", .str (List.replicate 64 97)), (js "timestamp", .str (js "0")),
        (js "signature", .str (List.replicate 128 97))])
      readSecret := [1], capNonce := [2] }

/-- A registration that comes again after its window, and a rotation that comes
    again at once. -/
theorem late_deliveries_granted_once :
    (after (Ledger.step echoEnv up) { state := fresh }
      ([(0, enrolment), (30001, enrolment)] ++ (joins 7 (js "http://b") 97 ++
        [rotation (js "http://b") 97 98, rotation (js "http://b") 97 98]).map
          fun rq => (0, rq))).granted.Nodup :=
  granted_once echoEnv up fresh_durable rfl _ (by decide +kernel)

/-- A registration that comes again inside its window is granted again, and so is
    a rotation once the record has been rotated back. -/
theorem granted_again :
    ¬ (after (Ledger.step echoEnv up) { state := fresh }
        [(0, enrolment), (30000, enrolment)]).granted.Nodup ∧
      ¬ (after (Ledger.step echoEnv up) { state := fresh }
        ((joins 7 (js "http://b") 97 ++ [rotation (js "http://b") 97 98,
          rotation (js "http://b") 98 97, rotation (js "http://b") 97 98]).map
            fun rq => (0, rq))).granted.Nodup := by
  decide +kernel

end Router
