/-
  The key of a shard and the key that the Router records for it.

  A registration reads the key pair and posts it later, and a rotation replaces
  the pair in between: the Router then records the old key, and the marker keeps
  the shard from registering again.

  * `KeysAgree` is the agreement when nothing is in flight;
  * `Orderly` is the condition on the steps of a run: no registration is
    delivered, and no marker is set, for a key pair that is no longer stored;
  * `keys_agree`: under it the keys agree in every state of a run.
-/
import NexTalkRelay.Agreement.Handlers
import NexTalkRelay.Router.Concurrent

open Effect Js Runs Shard

namespace Agreement

variable {ι : Type}

/-- Handlers of a shard, its store, the Router, and the calls between them. -/
abbrev Mesh (ι : Type) :=
  Net ι Key Val Service RouterCall Service.Res (Except JString RouterReply) (Option AdminResponse)
    (List Service) Router.State Held

/-- The events of the shard and the Router. -/
abbrev Event (ι : Type) := Net.Event ι Arrival JString

/-- The shard's tasks as clients and the Router as the server. -/
def Setting.sides (X : Setting) : Sides Service RouterCall Service.Res (Except JString RouterReply)
    (List Service) Router.State Arrival JString where
  services := services X.shard.crypto
  serve := X.serve
  lost e := .error e

/-- One event. -/
def Mesh.step [DecidableEq ι] (X : Setting) : Event ι → Mesh ι → Mesh ι := Net.step X.sides Held.note

/-- The handlers at their beginning. -/
def Mesh.start (X : Setting) (kv : Kv) (s : Router.State) (tasks : ι → Task) : Mesh ι where
  clients := Pool.start (kv, []) (fun i => (tasks i).prog X.shard) {}
  server := s
  answers _ := none
  strays := []

/-- The KV namespace of the shard. -/
abbrev storeOf (N : Mesh ι) : Kv := N.clients.shared.1

/-- The public half of the stored key pair. -/
def keyOf (kv : Kv) : Option JString := (kv .shardIdentity).map fun slot => slot.val.publicKeyHex

/-- The stored key is the recorded one. -/
def Agrees (X : Setting) (kv : Kv) (s : Router.State) : Prop :=
  ∃ key, keyOf kv = some key ∧ X.recorded s = some key

/-- Nothing is in flight: every handler is over or has not begun, and no call or
    answer is on its way. -/
structure Quiet (X : Setting) (tasks : ι → Task) (N : Mesh ι) : Prop where
  rests : ∀ i, (N.clients.prog i).next = none ∨ N.clients.prog i = (tasks i).prog X.shard
  answers : ∀ i, N.answers i = none
  strays : N.strays = []

/-- When nothing is in flight and the marker is set, the Router records the key of
    the shard. -/
def KeysAgree (X : Setting) (tasks : ι → Task) (N : Mesh ι) : Prop :=
  Quiet X tasks N → ∀ t, (storeOf N).get t .selfRegistration ≠ none →
    ∃ identity, (storeOf N).get t .shardIdentity = some identity ∧
      X.recorded N.server = some identity.publicKeyHex

/-- Key pairs as they are drawn: in lowercase hexadecimal, and the one of a
    rotation unlike all others. -/
structure Drawn (kv : Kv) (tasks : ι → Task) : Prop where
  lower : ∀ i, toLowerCase (tasks i).fresh.publicKeyHex = (tasks i).fresh.publicKeyHex
  lower_new : ∀ i v, (tasks i).newIdentity = some v → toLowerCase v.publicKeyHex = v.publicKeyHex
  apart : ∀ i j v, (tasks j).newIdentity = some v → (tasks i).fresh.publicKeyHex ≠ v.publicKeyHex
  apart_new : ∀ i j v w, i ≠ j → (tasks i).newIdentity = some v → (tasks j).newIdentity = some w →
    v.publicKeyHex ≠ w.publicKeyHex
  apart_stored : ∀ j v key, keyOf kv = some key → (tasks j).newIdentity = some v →
    key ≠ v.publicKeyHex

/-- A shard and a Router that agree. -/
structure Settled (X : Setting) (kv : Kv) (s : Router.State) : Prop where
  durable : Router.Durable s.1
  lasting : ∀ slot, kv .shardIdentity = some slot → slot.expires = none
  lower : ∀ key, keyOf kv = some key → toLowerCase key = key
  agrees : kv .selfRegistration ≠ none → Agrees X kv s

/-- The call that handler `i` makes. -/
def calling (N : Mesh ι) (i : ι) : Option RouterCall :=
  match (N.clients.prog i).next with
  | some (.call (.inr call)) => some call
  | _ => none

/-- A first key pair is stored where there is none, and the marker is set while the
    key pair that was registered is still the stored one. -/
def MayAct (kv : Kv) (m : Held) : Op → Prop
  | .put .shardIdentity _ _ => m.identity.isNone = true → (kv .shardIdentity).isNone = true
  | .put .selfRegistration _ _ => keyOf kv = m.identity.map fun identity => identity.publicKeyHex
  | _ => True

/-- A registration carries the stored key. -/
def MayArrive (X : Setting) (kv : Kv) (call : RouterCall) : Prop :=
  ∀ key ∈ X.registers call, keyOf kv = some key

/-- The condition on a step. -/
def Orderly (X : Setting) (N : Mesh ι) : Event ι → Prop
  | .act i _ => ∀ o ∈ (N.clients.prog i).next, MayAct (storeOf N) (N.clients.memory i) o
  | .deliver i _ => ∀ call ∈ calling N i, MayArrive X (storeOf N) call
  | .arrive n _ => ∀ call ∈ N.strays[n]?, MayArrive X (storeOf N) call
  | _ => True

/-! ## The invariant -/

/-- A key in lowercase that no rotation is still going to store. -/
def Known (tasks : ι → Task) (memory : ι → Held) (key : JString) : Prop :=
  toLowerCase key = key ∧ ∀ j v, (tasks j).newIdentity = some v → (memory j).stored = false →
    key ≠ v.publicKeyHex

/-- What a handler remembers, or is going to be told, is right. -/
structure Client (known : JString → Prop) (key recorded : Option JString) (m : Held) (told : Prop) :
    Prop where
  held : ∀ v, m.identity = some v → known v.publicKeyHex ∧ key ≠ none
  stored : m.stored = true → ∃ v, m.identity = some v ∧ key ≠ some v.publicKeyHex
  registered : m.registered = true ∨ told → ∃ v, m.identity = some v ∧
    (key = some v.publicKeyHex → recorded = some v.publicKeyHex)

/-- The key is no longer the stored one. -/
structure Retired (known : JString → Prop) (key : Option JString) (old : JString) : Prop where
  known : known old
  present : key ≠ none
  away : key ≠ some old

/-- A change of the stored and the recorded key that keeps what handlers know. -/
structure Shift (known : JString → Prop) (key recorded key' recorded' : Option JString) : Prop where
  present : key ≠ none → key' ≠ none
  away : ∀ k, known k → key ≠ none → key ≠ some k → key' ≠ some k
  vouched : ∀ k, known k → key ≠ none → (key = some k → recorded = some k) → key' = some k →
    recorded' = some k

/-- The Router has accepted the registration of handler `i`, and its answer is on
    its way. -/
def Told (N : Mesh ι) (i : ι) : Prop :=
  ∃ call k r, N.clients.prog i = .op (.call (.inr call)) k ∧ N.answers i = some (.ok r) ∧
    r.ok = true ∧ isRegistration call = true

/-- What holds of the shard, the handlers and the Router after any events. -/
structure Agreed (X : Setting) (tasks : ι → Task) (N : Mesh ι) : Prop where
  durable : Router.Durable N.server.1
  lasting : ∀ slot, storeOf N .shardIdentity = some slot → slot.expires = none
  current : ∀ key, keyOf (storeOf N) = some key → Known tasks N.clients.memory key
  client : ∀ i, Client (Known tasks N.clients.memory) (keyOf (storeOf N)) (X.recorded N.server)
    (N.clients.memory i) (Told N i)
  stray : ∀ call ∈ N.strays, ∀ old, X.retires call = some old →
    Retired (Known tasks N.clients.memory) (keyOf (storeOf N)) old
  marked : storeOf N .selfRegistration ≠ none →
    Agrees X (storeOf N) N.server ∨ ∃ i, (N.clients.prog i).next = some (.delete .selfRegistration)

section
variable {X : Setting} {tasks : ι → Task} {known known' : JString → Prop}
  {key recorded key' recorded' : Option JString}

theorem Shift.refl : Shift known key recorded key recorded :=
  ⟨id, fun _ _ _ => id, fun _ _ _ => id⟩

theorem Client.shift {m : Held} {told told' : Prop} (h : Client known key recorded m told)
    (hs : Shift known key recorded key' recorded') (hknown : ∀ k, known k → known' k)
    (htold : told' → told) : Client known' key' recorded' m told' where
  held v hv := ⟨hknown _ (h.held v hv).1, hs.present (h.held v hv).2⟩
  stored hstored := by
    obtain ⟨v, hv, haway⟩ := h.stored hstored
    exact ⟨v, hv, hs.away _ (h.held v hv).1 (h.held v hv).2 haway⟩
  registered hreg := by
    obtain ⟨v, hv, hvouch⟩ := h.registered (hreg.imp_right htold)
    exact ⟨v, hv, hs.vouched _ (h.held v hv).1 (h.held v hv).2 hvouch⟩

theorem Retired.shift {old : JString} (h : Retired known key old)
    (hs : Shift known key recorded key' recorded') (hknown : ∀ k, known k → known' k) :
    Retired known' key' old :=
  ⟨hknown _ h.known, hs.present h.present, hs.away _ h.known h.present h.away⟩

/-- **A call that reaches the Router.**  If it registers the stored key at most,
    and retires another one at most, then it keeps what handlers know. -/
theorem serve_shift {x : Arrival} {call : RouterCall} {s : Router.State} (hd : Router.Durable s.1)
    (hlower : ∀ k, known k → toLowerCase k = k)
    (hregisters : ∀ k ∈ X.registers call, key = some k)
    (hretires : ∀ old, X.retires call = some old → Retired known key old) :
    Shift known key (X.recorded s) key (X.recorded (X.serve x call s).2) where
  present := id
  away _ _ _ := id
  vouched k hk hpresent hvouch hkey := by
    have hrec := hvouch hkey
    rcases serve_recorded (X := X) (x := x) call hd with
      hsame | ⟨k', hreg, hnew⟩ | ⟨k', old, hold, hk', hlow⟩
    · rw [hsame, hrec]
    · have hkk : k = k' := Option.some.inj (hkey.symm.trans (hregisters k' hreg))
      rw [hnew, ← hkk, hlower k hk]
    · have hkk : k = k' := Option.some.inj (hrec.symm.trans hk')
      have hret := hretires old hold
      rw [← hkk, hlower k hk, hlower old hret.known] at hlow
      exact absurd (hlow ▸ hkey) hret.away

/-- What a step has to keep. -/
theorem Agreed.next {N N' : Mesh ι} (h : Agreed X tasks N) (hdurable : Router.Durable N'.server.1)
    (hlasting : ∀ slot, storeOf N' .shardIdentity = some slot → slot.expires = none)
    (hknown : ∀ k, Known tasks N.clients.memory k → Known tasks N'.clients.memory k)
    (hcurrent : ∀ k, keyOf (storeOf N') = some k → Known tasks N'.clients.memory k)
    (hshift : Shift (Known tasks N.clients.memory) (keyOf (storeOf N)) (X.recorded N.server)
      (keyOf (storeOf N')) (X.recorded N'.server))
    (hclient : ∀ i, N'.clients.memory i = N.clients.memory i ∧ (Told N' i → Told N i) ∨
      Client (Known tasks N'.clients.memory) (keyOf (storeOf N')) (X.recorded N'.server)
        (N'.clients.memory i) (Told N' i))
    (hstray : ∀ call ∈ N'.strays, call ∈ N.strays ∨ ∀ old, X.retires call = some old →
      Retired (Known tasks N'.clients.memory) (keyOf (storeOf N')) old)
    (hmarked : storeOf N' .selfRegistration ≠ none → Agrees X (storeOf N') N'.server ∨
      ∃ i, (N'.clients.prog i).next = some (.delete .selfRegistration)) : Agreed X tasks N' where
  durable := hdurable
  lasting := hlasting
  current := hcurrent
  client i := by
    rcases hclient i with ⟨hm, htold⟩ | hi
    · rw [hm]
      exact (h.client i).shift hshift hknown htold
    · exact hi
  stray call hcall old hold := by
    rcases hstray call hcall with hcall | hret
    · exact (h.stray call hcall old hold).shift hshift hknown
    · exact hret old hold
  marked := hmarked

/-! ## Local operations -/

section
variable [DecidableEq ι] {N : Mesh ι} {i : ι} {m : Held} {kv : Kv} {log : List Service}
  {p : A (Option AdminResponse)}

theorem known_update (hstored : m.stored = (N.clients.memory i).stored) :
    Known tasks (Function.update N.clients.memory i m) = Known tasks N.clients.memory := by
  funext key
  unfold Known
  refine propext (and_congr_right fun _ => forall_congr' fun j => ?_)
  by_cases hij : j = i
  · subst hij
    rw [Function.update_self, hstored]
  · rw [Function.update_of_ne hij]

/-- Handler `i` has performed an operation of its own. -/
abbrev acted (N : Mesh ι) (i : ι) (kv : Kv) (log : List Service) (p : A (Option AdminResponse))
    (m : Held) : Mesh ι :=
  { N with
    clients :=
      { shared := (kv, log)
        prog := Function.update N.clients.prog i p
        memory := Function.update N.clients.memory i m } }

theorem Agreed.acts (h : Agreed X tasks N) (hanswer : N.answers i = none)
    (hlasting : ∀ slot, kv .shardIdentity = some slot → slot.expires = none)
    (hknown : ∀ k, Known tasks N.clients.memory k →
      Known tasks (Function.update N.clients.memory i m) k)
    (hcurrent : ∀ k, keyOf kv = some k → Known tasks (Function.update N.clients.memory i m) k)
    (hshift : Shift (Known tasks N.clients.memory) (keyOf (storeOf N)) (X.recorded N.server)
      (keyOf kv) (X.recorded N.server))
    (hself : Client (Known tasks (Function.update N.clients.memory i m)) (keyOf kv)
      (X.recorded N.server) m False)
    (hmarked : kv .selfRegistration ≠ none → Agrees X kv N.server ∨
      (∃ j ≠ i, (N.clients.prog j).next = some (.delete .selfRegistration)) ∨
        p.next = some (.delete .selfRegistration)) :
    Agreed X tasks (acted N i kv log p m) := by
  refine h.next h.durable hlasting hknown hcurrent hshift (fun j => ?_) (fun _ hcall => Or.inl hcall)
    fun hset => ?_
  · by_cases hij : j = i
    · subst hij
      right
      rw [show (acted N j kv log p m).clients.memory j = m from Function.update_self ..]
      refine ⟨hself.held, hself.stored, fun hreg => hself.registered (hreg.imp_right ?_)⟩
      rintro ⟨call, k, r, -, ha, -⟩
      rw [show (acted N j kv log p m).answers j = none from hanswer] at ha
      cases ha
    · refine Or.inl ⟨Function.update_of_ne hij _ _, ?_⟩
      rintro ⟨call, k, r, hp, hrest⟩
      exact ⟨call, k, r, (Function.update_of_ne hij _ _).symm.trans hp, hrest⟩
  · refine (hmarked hset).imp_right ?_
    rintro (⟨j, hij, hj⟩ | hp)
    · exact ⟨j, by rw [show (acted N i kv log p m).clients.prog j = _ from
        Function.update_of_ne hij _ _, hj]⟩
    · exact ⟨i, by rw [show (acted N i kv log p m).clients.prog i = _ from
        Function.update_self .., hp]⟩

/-- An operation that writes neither the key pair nor the marker. -/
theorem Agreed.passes (h : Agreed X tasks N) (hanswer : N.answers i = none) {o : Op} {k}
    (hp : N.clients.prog i = .op o k) (ho : o ≠ .delete .selfRegistration)
    (hidentity : kv .shardIdentity = storeOf N .shardIdentity)
    (hmarker : kv .selfRegistration = storeOf N .selfRegistration)
    (hstored : m.stored = (N.clients.memory i).stored)
    (hself : Client (Known tasks N.clients.memory) (keyOf (storeOf N)) (X.recorded N.server) m False) :
    Agreed X tasks (acted N i kv log p m) := by
  have hkey : keyOf kv = keyOf (storeOf N) := by
    unfold keyOf
    rw [hidentity]
  have hknown : Known tasks (Function.update N.clients.memory i m) = Known tasks N.clients.memory :=
    known_update hstored
  refine h.acts hanswer (hidentity ▸ h.lasting) (by rw [hknown]; exact fun _ => id)
    (by rw [hkey, hknown]; exact h.current) (by rw [hkey]; exact .refl)
    (by rw [hkey, hknown]; exact hself) fun hset => ?_
  rw [hmarker] at hset
  rcases h.marked hset with ⟨key, hk, hrec⟩ | ⟨j, hj⟩
  · exact Or.inl ⟨key, hkey.trans hk, hrec⟩
  · refine Or.inr (Or.inl ⟨j, ?_, hj⟩)
    rintro rfl
    rw [hp] at hj
    exact ho (Option.some.inj hj)

omit [DecidableEq ι] in
/-- The memory of a handler, told nothing. -/
theorem Agreed.self (h : Agreed X tasks N) : Client (Known tasks N.clients.memory)
    (keyOf (storeOf N)) (X.recorded N.server) (N.clients.memory i) False :=
  (h.client i).shift .refl (fun _ => id) False.elim

theorem Agreed.reads (h : Agreed X tasks N) (hanswer : N.answers i = none) {t : ℕ} {k}
    (hp : N.clients.prog i = .op (.get .shardIdentity) k) (hm : N.clients.memory i = {}) :
    Agreed X tasks (acted N i (storeOf N) log (k ((storeOf N).get t .shardIdentity))
      (Held.note {} (.get .shardIdentity) ((storeOf N).get t .shardIdentity))) := by
  cases hget : (storeOf N).get t .shardIdentity with
  | none =>
    exact h.passes hanswer hp (by simp) rfl rfl (by rw [hm]; rfl) (hm ▸ h.self (i := i))
  | some v =>
    obtain ⟨slot, hslot, -, rfl⟩ := Store.get_eq_some.1 hget
    have hkey : keyOf (storeOf N) = some slot.val.publicKeyHex := by
      unfold keyOf
      rw [hslot]
      rfl
    refine h.passes hanswer hp (by simp) rfl rfl (by rw [hm]; rfl) ⟨?_, ?_, ?_⟩
    · rintro _ ⟨⟩
      exact ⟨h.current _ hkey, by simp [hkey]⟩
    · rintro ⟨⟩
    · rintro (⟨⟨⟩⟩ | ⟨⟨⟩⟩)

/-- The first key pair. -/
theorem Agreed.creates (h : Agreed X tasks N) (hanswer : N.answers i = none) {ttl} {k}
    (hp : N.clients.prog i = .op (.put .shardIdentity (tasks i).fresh ttl) k)
    (hm : N.clients.memory i = {}) (hnone : storeOf N .shardIdentity = none)
    (hlower : toLowerCase (tasks i).fresh.publicKeyHex = (tasks i).fresh.publicKeyHex)
    (hapart : ∀ j v, (tasks j).newIdentity = some v → (tasks i).fresh.publicKeyHex ≠ v.publicKeyHex)
    (hidentity : kv .shardIdentity = some ⟨(tasks i).fresh, none⟩)
    (hmarker : kv .selfRegistration = storeOf N .selfRegistration) :
    Agreed X tasks (acted N i kv log p { identity := some (tasks i).fresh }) := by
  have hkey : keyOf kv = some (tasks i).fresh.publicKeyHex := by
    unfold keyOf
    rw [hidentity]
    rfl
  have hold : keyOf (storeOf N) = none := by
    unfold keyOf
    rw [hnone]
    rfl
  have hfresh : Known tasks (Function.update N.clients.memory i { identity := some (tasks i).fresh })
      (tasks i).fresh.publicKeyHex := ⟨hlower, fun j v hv _ => hapart j v hv⟩
  refine h.acts hanswer (by rintro slot hslot; rw [hidentity] at hslot; cases hslot; rfl) ?_ ?_ ?_ ?_ ?_
  · rintro key ⟨hlow, hnew⟩
    refine ⟨hlow, fun j v hv hstored => hnew j v hv ?_⟩
    by_cases hij : j = i
    · subst hij
      rw [hm]
    · rwa [Function.update_of_ne hij] at hstored
  · intro key hk
    cases hkey.symm.trans hk
    exact hfresh
  · exact ⟨fun hne => absurd hold hne, fun _ _ hne => absurd hold hne, fun _ _ hne => absurd hold hne⟩
  · refine ⟨?_, ?_, ?_⟩
    · rintro _ ⟨⟩
      exact ⟨hfresh, by simp [hkey]⟩
    · rintro ⟨⟩
    · rintro (⟨⟨⟩⟩ | ⟨⟨⟩⟩)
  · intro hset
    rw [hmarker] at hset
    rcases h.marked hset with ⟨key, hk, -⟩ | ⟨j, hj⟩
    · cases hold.symm.trans hk
    · refine Or.inr (Or.inl ⟨j, ?_, hj⟩)
      rintro rfl
      rw [hp] at hj
      cases hj

/-- The key pair of a rotation. -/
theorem Agreed.replaces (h : Agreed X tasks N) (hanswer : N.answers i = none) {v : Identity}
    (hv : (tasks i).newIdentity = some v) (hstored : (N.clients.memory i).stored = false)
    (hheld : (N.clients.memory i).identity.isSome = true)
    (hlower : toLowerCase v.publicKeyHex = v.publicKeyHex)
    (hapart : ∀ j w, i ≠ j → (tasks j).newIdentity = some w → v.publicKeyHex ≠ w.publicKeyHex)
    (hidentity : kv .shardIdentity = some ⟨v, none⟩)
    (hclears : p.next = some (.delete .selfRegistration)) :
    Agreed X tasks (acted N i kv log p { N.clients.memory i with stored := true }) := by
  have hkey : keyOf kv = some v.publicKeyHex := by
    unfold keyOf
    rw [hidentity]
    rfl
  have haway {key : JString} (hk : Known tasks N.clients.memory key) : keyOf kv ≠ some key := by
    intro heq
    exact hk.2 i v hv hstored (Option.some.inj (heq.symm.trans hkey))
  have hknown (key : JString) (hk : Known tasks N.clients.memory key) :
      Known tasks (Function.update N.clients.memory i
        { N.clients.memory i with stored := true }) key := by
    refine ⟨hk.1, fun j w hw hj => hk.2 j w hw ?_⟩
    by_cases hij : j = i
    · subst hij
      rw [Function.update_self] at hj
      cases hj
    · rwa [Function.update_of_ne hij] at hj
  refine h.acts hanswer (by rintro slot hslot; rw [hidentity] at hslot; cases hslot; rfl) hknown ?_ ?_
    ?_ fun _ => Or.inr (Or.inr hclears)
  · intro key hk
    cases hkey.symm.trans hk
    refine ⟨hlower, fun j w hw hj => ?_⟩
    by_cases hij : j = i
    · subst hij
      rw [Function.update_self] at hj
      cases hj
    · exact hapart j w (Ne.symm hij) hw
  · exact ⟨fun _ => by simp [hkey], fun _ hk _ _ => haway hk, fun _ hk _ _ heq => absurd heq (haway hk)⟩
  · have hself := h.self (i := i)
    obtain ⟨w, hw⟩ := Option.isSome_iff_exists.1 hheld
    refine ⟨fun u hu => ⟨hknown _ (hself.held u hu).1, by simp [hkey]⟩, fun _ => ⟨w, hw, ?_⟩, ?_⟩
    · exact haway (hself.held w hw).1
    · intro hreg
      obtain ⟨u, hu, -⟩ := hself.registered hreg
      exact ⟨u, hu, fun heq => absurd heq (haway (hself.held u hu).1)⟩

/-- An operation on the marker. -/
theorem Agreed.marks (h : Agreed X tasks N) (hanswer : N.answers i = none)
    (hidentity : kv .shardIdentity = storeOf N .shardIdentity)
    (hmarked : kv .selfRegistration ≠ none → Agrees X kv N.server) :
    Agreed X tasks (acted N i kv log p (N.clients.memory i)) := by
  have hkey : keyOf kv = keyOf (storeOf N) := by
    unfold keyOf
    rw [hidentity]
  have hsame : Function.update N.clients.memory i (N.clients.memory i) = N.clients.memory :=
    Function.update_eq_self _ _
  refine h.acts hanswer (hidentity ▸ h.lasting) (by rw [hsame]; exact fun _ => id)
    (by rw [hkey, hsame]; exact h.current) (by rw [hkey]; exact .refl)
    (by rw [hkey, hsame]; exact h.self) fun hset => Or.inl (hmarked hset)

/-- **A local operation.** -/
theorem Agreed.act (h : Agreed X tasks N) {kv₀ : Kv} (hdrawn : Drawn kv₀ tasks) (hanswer : N.answers i = none)
    {o : Op} {k} {t : ℕ} {r s} (hp : N.clients.prog i = .op o k) (hlocal : ¬ Net.IsCall o)
    (ho : KvOp.exec t (X.sides.answering none) o N.clients.shared = (some r, s))
    (hrules : Rules X (tasks i) (N.clients.memory i) o)
    (hchains : (N.clients.prog i).Chains (Replaces (tasks i)) (.delete .selfRegistration))
    (hmay : MayAct (storeOf N) (N.clients.memory i) o) :
    Agreed X tasks (acted N i s.1 s.2 (k r) ((N.clients.memory i).note o r)) := by
  have hself := h.self (i := i)
  rw [hp] at hchains
  cases o with
  | get key =>
    cases ho
    cases key with
    | shardIdentity =>
      rw [hrules]
      exact h.reads hanswer hp hrules
    | mailbox _ | replay _ | rl _ _ | selfRegistration | routingTable =>
      exact h.passes hanswer hp (by simp) rfl rfl rfl hself
  | put key v ttl =>
    cases ho
    cases key with
    | shardIdentity =>
      have hput := Store.put_same (storeOf N) t (k := .shardIdentity) v ttl
      have hmarker := Store.put_other (storeOf N) t
        (by simp : Key.selfRegistration ≠ .shardIdentity) v ttl
      obtain ⟨rfl, hstored, ⟨hm, rfl⟩ | ⟨hheld, hnew⟩⟩ := hrules
      · have hnone : storeOf N .shardIdentity = none :=
          Option.isNone_iff_eq_none.1 (hmay (by rw [hm]; rfl))
        rw [hm]
        exact h.creates hanswer hp hm hnone (hdrawn.lower i) (hdrawn.apart i) hput
          hmarker
      · rw [show (N.clients.memory i).note (.put .shardIdentity v none) r = _ from
          Held.note_replace hheld v none]
        exact h.replaces hanswer hnew hstored hheld (hdrawn.lower_new i v hnew)
          (fun j w hij => hdrawn.apart_new i j v w hij hnew) hput
          (hchains.1 ⟨v, none, hnew, rfl⟩ r)
    | selfRegistration =>
      have hidentity := Store.put_other (storeOf N) t
        (by simp : Key.shardIdentity ≠ .selfRegistration) v ttl
      refine h.marks hanswer hidentity fun _ => ?_
      obtain ⟨v', hv', hvouch⟩ := hself.registered (Or.inl hrules)
      have hkey : keyOf (storeOf N) = some v'.publicKeyHex := by
        refine Eq.trans hmay ?_
        rw [hv']
        rfl
      exact ⟨_, hkey, hvouch hkey⟩
    | mailbox _ | replay _ | rl _ _ | routingTable => exact hrules.elim
  | delete key =>
    cases ho
    obtain rfl : key = .selfRegistration := hrules
    have hdeleted : (storeOf N).delete .selfRegistration .selfRegistration = none :=
      Store.delete_same _
    exact h.marks hanswer (Store.delete_other _ (by simp : Key.shardIdentity ≠ .selfRegistration))
      fun hset => absurd hdeleted hset
  | now =>
    cases ho
    exact h.passes hanswer hp (by simp) rfl rfl rfl hself
  | call e =>
    cases e with
    | inl e =>
      have hkv : s.1 = storeOf N := (congrArg (fun x => x.2.1) ho).symm
      rw [hkv]
      exact h.passes hanswer hp (by simp) rfl rfl rfl hself
    | inr call => exact absurd trivial hlocal

end

/-! ## Calls -/

section
variable {N : Mesh ι} {i : ι} {call : RouterCall}

/-- What a call of a handler retires. -/
theorem Agreed.retired (h : Agreed X tasks N)
    (hrules : Rules X (tasks i) (N.clients.memory i) (.call (.inr call))) {old : JString}
    (hold : X.retires call = some old) :
    Retired (Known tasks N.clients.memory) (keyOf (storeOf N)) old := by
  obtain ⟨hstored, v, hv, rfl⟩ := hrules.2 old hold
  obtain ⟨w, hw, haway⟩ := (h.client i).stored hstored
  obtain rfl : v = w := Option.some.inj (hv.symm.trans hw)
  exact ⟨((h.client i).held v hv).1, ((h.client i).held v hv).2, haway⟩

/-- A call reaches the Router. -/
theorem Agreed.shift_serve (h : Agreed X tasks N) (x : Arrival)
    (hregisters : MayArrive X (storeOf N) call)
    (hretires : ∀ old, X.retires call = some old →
      Retired (Known tasks N.clients.memory) (keyOf (storeOf N)) old) :
    Shift (Known tasks N.clients.memory) (keyOf (storeOf N)) (X.recorded N.server)
        (keyOf (storeOf N)) (X.recorded (X.serve x call N.server).2) ∧
      (Agrees X (storeOf N) N.server → Agrees X (storeOf N) (X.serve x call N.server).2) := by
  have hshift := serve_shift (x := x) h.durable (fun k hk => hk.1) hregisters hretires
  refine ⟨hshift, ?_⟩
  rintro ⟨key, hkey, hrec⟩
  exact ⟨key, hkey, hshift.vouched key (h.current key hkey) (by simp [hkey]) (fun _ => hrec) hkey⟩

theorem Agreed.arrives (h : Agreed X tasks N) {x : Arrival} {n : ℕ} (hcall : N.strays[n]? = some call)
    (hregisters : MayArrive X (storeOf N) call) :
    Agreed X tasks
      { N with server := (X.serve x call N.server).2, strays := N.strays.eraseIdx n } := by
  obtain ⟨hshift, hagrees⟩ := h.shift_serve x hregisters
    (h.stray call (List.mem_of_getElem? hcall))
  exact h.next (serve_durable call h.durable) h.lasting (fun _ => id) h.current hshift
    (fun _ => Or.inl ⟨rfl, id⟩) (fun _ hmem => Or.inl (List.mem_of_mem_eraseIdx hmem))
    fun hset => (h.marked hset).imp_left hagrees

theorem Agreed.loses (h : Agreed X tasks N) (n : ℕ) :
    Agreed X tasks { N with strays := N.strays.eraseIdx n } :=
  h.next h.durable h.lasting (fun _ => id) h.current .refl (fun _ => Or.inl ⟨rfl, id⟩)
    (fun _ hmem => Or.inl (List.mem_of_mem_eraseIdx hmem)) h.marked

variable [DecidableEq ι]

theorem Agreed.delivers (h : Agreed X tasks N) {x : Arrival} {k}
    (hp : N.clients.prog i = .op (.call (.inr call)) k)
    (hrules : Rules X (tasks i) (N.clients.memory i) (.call (.inr call)))
    (hregisters : MayArrive X (storeOf N) call) :
    Agreed X tasks
      { N with
        server := (X.serve x call N.server).2
        answers := Function.update N.answers i (some (X.serve x call N.server).1) } := by
  obtain ⟨hshift, hagrees⟩ := h.shift_serve x hregisters fun old => h.retired hrules
  refine h.next (serve_durable call h.durable) h.lasting (fun _ => id) h.current hshift (fun j => ?_)
    (fun _ hcall => Or.inl hcall) fun hset => (h.marked hset).imp_left hagrees
  by_cases hij : j = i
  · subst hij
    have hclient := (h.client j).shift hshift (fun _ => id) (id : Told N j → Told N j)
    refine Or.inr ⟨hclient.held, hclient.stored, ?_⟩
    rintro (hreg | ⟨call', k', r, hp', ha, hok, hcall⟩)
    · exact hclient.registered (Or.inl hreg)
    · cases hp.symm.trans hp'
      obtain ⟨-, v, url, nonce, solution, timestamp, signature, hv, hurl, rfl⟩ := hrules.1 hcall
      have hr := (Function.update_self j _ N.answers).symm.trans ha
      have hrec := serve_registration hurl h.durable (Option.some.inj hr) hok
      rw [(hclient.held v hv).1.1] at hrec
      exact ⟨v, hv, fun _ => hrec⟩
  · refine Or.inl ⟨rfl, ?_⟩
    rintro ⟨call', k', r, hp', ha, hrest⟩
    exact ⟨call', k', r, hp', (Function.update_of_ne hij _ _).symm.trans ha, hrest⟩

/-- A handler goes on after a call. -/
theorem Agreed.resumes (h : Agreed X tasks N) {k} (hp : N.clients.prog i = .op (.call (.inr call)) k)
    {a : Except JString RouterReply}
    (ha : ∀ r, a = .ok r → r.ok = true → isRegistration call = true → Told N i)
    {p : A (Option AdminResponse)} {strays : List RouterCall}
    (hstrays : ∀ call' ∈ strays, call' ∈ N.strays ∨ ∀ old, X.retires call' = some old →
      Retired (Known tasks N.clients.memory) (keyOf (storeOf N)) old) :
    Agreed X tasks
      { N with
        clients :=
          { shared := N.clients.shared
            prog := Function.update N.clients.prog i p
            memory := Function.update N.clients.memory i
              ((N.clients.memory i).note (.call (.inr call)) a) }
        answers := Function.update N.answers i none
        strays } := by
  have hnote := (N.clients.memory i).note_answer call a
  generalize (N.clients.memory i).note (.call (.inr call)) a = m at hnote
  have hsame : m.identity = (N.clients.memory i).identity ∧ m.stored = (N.clients.memory i).stored := by
    rcases hnote with rfl | ⟨-, -, -, -, rfl⟩ <;> exact ⟨rfl, rfl⟩
  have hknown : Known tasks (Function.update N.clients.memory i m) = Known tasks N.clients.memory :=
    known_update hsame.2
  refine h.next h.durable h.lasting (by dsimp only; rw [hknown]; exact fun _ => id)
    (by dsimp only; rw [hknown]; exact h.current) .refl (fun j => ?_) (by dsimp only; rw [hknown]; exact hstrays)
    fun hset => (h.marked hset).imp_right ?_
  · by_cases hij : j = i
    · subst hij
      right
      dsimp only
      rw [hknown, Function.update_self]
      refine ⟨hsame.1 ▸ (h.client j).held, hsame.1 ▸ hsame.2 ▸ (h.client j).stored, fun hreg => ?_⟩
      rw [hsame.1]
      refine (h.client j).registered ?_
      rcases hreg with hreg | ⟨call', k', r, -, ha', -⟩
      · rcases hnote with rfl | ⟨r, hr, hok, hcall, -⟩
        · exact Or.inl hreg
        · exact Or.inr (ha r hr hok hcall)
      · cases (Function.update_self j none N.answers).symm.trans ha'
    · refine Or.inl ⟨Function.update_of_ne hij _ _, ?_⟩
      rintro ⟨call', k', r, hp', ha', hrest⟩
      exact ⟨call', k', r, (Function.update_of_ne hij _ _).symm.trans hp',
        (Function.update_of_ne hij _ _).symm.trans ha', hrest⟩
  · rintro ⟨j, hj⟩
    have hij : j ≠ i := by
      rintro rfl
      rw [hp] at hj
      cases hj
    exact ⟨j, by dsimp only; rw [Function.update_of_ne hij, hj]⟩

end

end

/-! ## Runs -/

section
variable [DecidableEq ι] {X : Setting} {tasks : ι → Task} {N : Mesh ι}

/-- The services of a shard always answer. -/
theorem answers_local {t : ℕ} {o : Op} {x : Kv × List Service} (hlocal : ¬ Net.IsCall o) :
    (KvOp.exec t (X.sides.answering none) o x).1 ≠ none := by
  cases o with
  | call e =>
    cases e with
    | inl e => cases e <;> rintro ⟨⟩
    | inr call => exact absurd trivial hlocal
  | _ => rintro ⟨⟩

/-- **Step lemma.** -/
theorem Agreed.step {kv₀ : Kv} (hdrawn : Drawn kv₀ tasks) (h : Agreed X tasks N)
    (hfollow : N.clients.Follow Held.note (fun i => Rules X (tasks i)) fun _ _ _ => True)
    (hawaited : N.Awaited)
    (hchains : ∀ i, (N.clients.prog i).Chains (Replaces (tasks i)) (.delete .selfRegistration))
    {e : Event ι} (horderly : Orderly X N e) : Agreed X tasks (Mesh.step X e N) := by
  have hrules {i : ι} {o : Op} {k} (hp : N.clients.prog i = .op o k) :
      Rules X (tasks i) (N.clients.memory i) o := by
    have hf := hfollow i
    rw [hp] at hf
    exact hf.1
  have hm : Net.Moved X.sides Held.note N e _ := Net.moved e
  unfold Mesh.step
  generalize Net.step X.sides Held.note e N = N' at hm
  cases hm with
  | idle => exact h
  | @acted i t o k r s hp hlocal ho =>
    have hanswer : N.answers i = none := by
      by_contra hne
      obtain ⟨call, k', hcall⟩ := hawaited i hne
      cases hp.symm.trans hcall
      exact hlocal trivial
    exact h.act hdrawn hanswer hp hlocal ho (hrules hp) (hchains i) (horderly o (by rw [hp]; rfl))
  | @threw i t o k s hp hlocal ho =>
    exact absurd (congrArg Prod.fst ho) (answers_local hlocal)
  | @delivered i x call k hp ha =>
    exact h.delivers hp (hrules hp) (horderly call (by unfold calling; rw [hp]; rfl))
  | @received i call k a hp ha =>
    refine h.resumes hp (fun r hr hok hcall => ?_) fun _ hmem => Or.inl hmem
    exact ⟨call, k, r, hp, by rw [ha, hr], hok, hcall⟩
  | @gaveUp i e call k hp =>
    refine h.resumes hp (by rintro r ⟨⟩) fun call' hmem => ?_
    split at hmem
    · rcases List.mem_cons.1 hmem with rfl | hmem
      · exact Or.inr fun old => h.retired (hrules hp)
      · exact Or.inl hmem
    · exact Or.inl hmem
  | @arrived n x call hcall => exact h.arrives hcall (horderly call hcall)
  | @lost n => exact h.loses n

omit [DecidableEq ι] in
theorem Agreed.start {kv : Kv} {s : Router.State} (hs : Settled X kv s) (hdrawn : Drawn kv tasks) :
    Agreed X tasks (Mesh.start X kv s tasks) where
  durable := hs.durable
  lasting := hs.lasting
  current key hkey := ⟨hs.lower key hkey, fun j v hv _ => hdrawn.apart_stored j v key hkey hv⟩
  client i := by
    refine ⟨by rintro _ ⟨⟩, by rintro ⟨⟩, ?_⟩
    rintro (⟨⟨⟩⟩ | ⟨call, k, r, -, ⟨⟩, -⟩)
  stray := by rintro _ ⟨⟩
  marked hset := Or.inl (hs.agrees hset)

/-- **The Router records the key of the shard** whenever nothing is in flight and
    the marker is set, in every run whose steps are orderly. -/
theorem keys_agree (X : Setting) {kv : Kv} {s : Router.State} (hs : Settled X kv s)
    (tasks : ι → Task) (hdrawn : Drawn kv tasks) (haimed : ∀ i, (tasks i).Aimed X)
    (run : List (Event ι)) (hrun : Always (Mesh.step X) (Orderly X) (.start X kv s tasks) run) :
    KeysAgree X tasks (after (Mesh.step X) (.start X kv s tasks) run) := by
  obtain ⟨-, -, -, hagreed⟩ := hrun.inv
    (I := fun N => N.clients.Follow Held.note (fun i => Rules X (tasks i)) (fun _ _ _ => True) ∧
      N.Awaited ∧
      (∀ i, (N.clients.prog i).Chains (Replaces (tasks i)) (.delete .selfRegistration)) ∧
      Agreed X tasks N)
    (fun N e ⟨hfollow, hawaited, hchains, hagreed⟩ horderly =>
      ⟨Net.step_follow hfollow e, Net.step_awaited hawaited e,
        Net.step_progs (fun _ _ _ r hp => hp.2 r) (fun _ => trivial) hchains e,
        hagreed.step hdrawn hfollow hawaited hchains horderly⟩)
    ⟨Pool.start_follow fun i => prog_follows (haimed i), fun i hne => absurd rfl hne,
      fun i => prog_chains fun v hv heq => hdrawn.apart i i v hv (by rw [heq]), .start hs hdrawn⟩
  intro hquiet t hset
  have hmarker : storeOf (after (Mesh.step X) (.start X kv s tasks) run) .selfRegistration ≠ none :=
    fun hnone => hset (Store.get_none hnone t)
  rcases hagreed.marked hmarker with ⟨key, hkey, hrec⟩ | ⟨i, hi⟩
  · obtain ⟨slot, hslot, rfl⟩ := Option.map_eq_some_iff.1 hkey
    refine ⟨slot.val, Store.get_live hslot ?_, hrec⟩
    unfold Slot.live
    rw [hagreed.lasting slot hslot]
  · rcases hquiet.rests i with hnone | hstart
    · rw [hnone] at hi
      cases hi
    · rw [hstart] at hi
      exact absurd hi (prog_next X.shard)

end

/-! ## A registration and a rotation -/

instance (kv : Kv) (m : Held) : (o : Op) → Decidable (MayAct kv m o)
  | .put k v _ =>
    match k, v with
    | .shardIdentity, _ => inferInstanceAs (Decidable (_ = true → _ = true))
    | .selfRegistration, _ => inferInstanceAs (Decidable (keyOf kv = _))
    | .mailbox _, _ | .replay _, _ | .rl _ _, _ | .routingTable, _ => isTrue trivial
  | .get _ | .delete _ | .now | .call _ => isTrue trivial

instance (X : Setting) (kv : Kv) (call : RouterCall) : Decidable (MayArrive X kv call) :=
  inferInstanceAs (Decidable (∀ key ∈ X.registers call, _))

instance (X : Setting) (N : Mesh ι) : (e : Event ι) → Decidable (Orderly X N e)
  | .act i _ => inferInstanceAs (Decidable (∀ o ∈ (N.clients.prog i).next, _))
  | .deliver i _ => inferInstanceAs (Decidable (∀ call ∈ calling N i, _))
  | .arrive n _ => inferInstanceAs (Decidable (∀ call ∈ N.strays[n]?, _))
  | .receive _ | .giveUp _ _ | .lose _ => isTrue trivial

/-- A shard at `http://b` and its Router. -/
def pair : Setting where
  shard := { trustingEnv {} with selfUrl := some (js "http://b"), routerUrl := some (js "http://r") }
  selfUrl := js "http://b"
  isSelf := rfl
  router := Router.meshEnv
  answer := Router.up
  origin := js "http://r"
  isRouter := by
    rintro _ ⟨⟩
    decide

/-- A key pair whose public half repeats one digit. -/
def keyPair (digit : UInt16) : Identity where
  publicKeyHex := List.replicate 64 digit
  privateKeyPkcs8Base64 := js "k"

/-- The registration that redeems a challenge. -/
def enrolment (nonce : UInt8) (fresh : Identity) : Task :=
  .register none
    (some (.obj [(js "nonce", .str (bytesToHex [nonce])), (js "solution", .str (js "s"))])) fresh

/-- Two registrations and a rotation. -/
inductive Operation
  | first
  | rotation
  | second
  deriving DecidableEq

/-- What they do. -/
def operations : Operation → Task
  | .first => enrolment 7 (keyPair 97)
  | .rotation => .rotateKey none (keyPair 97) (keyPair 98)
  | .second => enrolment 8 (keyPair 97)

/-- A request reaches the Router at the instant `0`. -/
def arrival : Arrival where
  time := 0
  ip := none
  nonce := []
  elsewhere := .error []

/-- The operations of handler `i`, its call, and what follows the answer. -/
def course (i : Operation) (before after : ℕ) : List (Event Operation) :=
  List.replicate before (.act i 0) ++ [.deliver i arrival, .receive i] ++
    List.replicate after (.act i 0)

/-- The three of them, in the order that the events give. -/
def operate (run : List (Event Operation)) : Mesh Operation :=
  after (Mesh.step pair) (.start pair (fun _ => none) Router.challenged operations) run

/-- One after the other. -/
def inTurn : List (Event Operation) :=
  course .first 4 2 ++ course .rotation 6 0 ++ course .second 3 2

/-- The rotation runs while the second registration is on its way. -/
def overtaken : List (Event Operation) :=
  course .second 4 2 ++ List.replicate 3 (.act .first 0) ++ course .rotation 6 0 ++
    [.deliver .first arrival, .receive .first] ++ List.replicate 2 (.act .first 0)

theorem operations_new {i : Operation} {v : Identity} (h : (operations i).newIdentity = some v) :
    i = .rotation ∧ v = keyPair 98 := by
  cases i with
  | first | second => cases h
  | rotation =>
    cases h
    exact ⟨rfl, rfl⟩

theorem operations_drawn : Drawn (fun _ => none) operations where
  lower i := by cases i <;> decide
  lower_new i v hv := by
    rw [(operations_new hv).2]
    decide
  apart i j v hv := by
    rw [(operations_new hv).2]
    cases i <;> decide
  apart_new i j v w hij hv hw :=
    absurd ((operations_new hv).1.trans (operations_new hw).1.symm) hij
  apart_stored := by rintro _ _ _ ⟨⟩

theorem operations_aimed (i : Operation) : (operations i).Aimed pair := by
  have haimed {nonce : UInt8} {fresh : Identity}
      (h : (adminRegisterFields pair.shard (some (.obj [(js "nonce", .str (bytesToHex [nonce])),
        (js "solution", .str (js "s"))]))).toOption.map (fun f => f.2.2.1) = some pair.origin) :
      (enrolment nonce fresh).Aimed pair := by
    intro f hf
    rw [hf] at h
    exact Option.some.inj h
  cases i with
  | first => exact haimed (by decide +kernel)
  | rotation => exact trivial
  | second => exact haimed (by decide +kernel)

/-- What a run leaves: nothing in flight and the marker set, the stored key, and
    the recorded one. -/
def outcome (N : Mesh Operation) : Bool × Option JString × Option JString :=
  ([.first, .rotation, .second].all (fun i => (N.clients.prog i).next.isNone && (N.answers i).isNone) &&
      N.strays.isEmpty && ((storeOf N).get 0 .selfRegistration).isSome,
    ((storeOf N).get 0 .shardIdentity).map fun identity => identity.publicKeyHex,
    pair.recorded N.server)

theorem not_keysAgree {N : Mesh Operation} {key recorded : JString}
    (h : outcome N = (true, some key, some recorded)) (hne : key ≠ recorded) :
    ¬ KeysAgree pair operations N := by
  unfold outcome at h
  simp only [Prod.mk.injEq, Bool.and_eq_true, List.all_eq_true, Option.isNone_iff_eq_none,
    List.isEmpty_iff] at h
  obtain ⟨⟨⟨hrests, hstrays⟩, hset⟩, hkey, hrec⟩ := h
  have hrest (i : Operation) := hrests i (by cases i <;> simp)
  intro hagree
  obtain ⟨v, hv, hrecorded⟩ := hagree
    ⟨fun i => Or.inl (hrest i).1, fun i => (hrest i).2, hstrays⟩ 0 (Option.isSome_iff_ne_none.1 hset)
  rw [hv] at hkey
  exact hne ((Option.some.inj hkey).symm.trans (Option.some.inj (hrecorded.symm.trans hrec)))

theorem rotation_in_turn : KeysAgree pair operations (operate inTurn) ∧
    outcome (operate inTurn) = (true, some (List.replicate 64 98), some (List.replicate 64 98)) :=
  ⟨keys_agree pair ⟨Router.challenged_durable, by rintro _ ⟨⟩, by rintro _ ⟨⟩, absurd rfl⟩ operations
    operations_drawn operations_aimed inTurn (by decide +kernel), by decide +kernel⟩

/-- The Router first learns of the new key, and then records the old one again. -/
theorem rotation_overtakes_registration : ¬ KeysAgree pair operations (operate overtaken) :=
  not_keysAgree
    (show outcome _ = (true, some (List.replicate 64 98), some (List.replicate 64 97)) by
      decide +kernel)
    (by decide)

end Agreement
