/-
  Registrations of one key at the same time.

  * `Call` is one `/register`, and `call_gives` the read secret that its answer holds;
  * `Delivery` is one of these requests where it reaches a shard, and a run is the
    order of the deliveries;
  * `secretAt_after` says that a shard ends with the secret of the last call that it
    took, and `converge_iff` when all shards end with the same one.
-/
import NexTalkRelay.Agreement.Registration

open Effect Js Runs

namespace Agreement

/-! ## Calls -/

/-- A request to `/register`, handled at an instant. -/
structure Call where
  t : ℕ
  rq : Router.RegisterRequest
  pubkey : HexStr 64 64
  own : Router.registrant rq = some pubkey
  nonce : rq.capNonce.length = 16

/-- The read secret that it hands out. -/
def Call.secret (c : Call) : JString := bytesToHex c.rq.readSecret

/-- The response of `/register` holds the secret. -/
def Gives (secret : JString) (r : Router.Response) : Prop :=
  ∃ registration, r.body = .registered registration ∧ registration.readSecret = secret

section

variable (env : Router.Env)

/-- The shards of a key. -/
def homes {urls : List JString} (h : urls ≠ []) (key : HexStr 64 64) : List JString :=
  Router.replicasOf env key (Router.Era.current h)

/-- The `/create` that it posts. -/
def Call.body (c : Call) {urls : List JString} (h : urls ≠ []) : Router.CreateBody :=
  Router.createBody env c.t c.rq c.pubkey (homes env h c.pubkey)

theorem homes_lower {key key' : HexStr 64 64} (h : key.lower = key'.lower) {urls : List JString}
    (hurls : urls ≠ []) : homes env hurls key = homes env hurls key' := by
  unfold homes Router.replicasOf Router.replicasForEra
  rw [show toLowerCase key.1 = toLowerCase key'.1 from h]

theorem mailboxIdOf_lower {key key' : HexStr 64 64} (h : key.lower = key'.lower) :
    Router.mailboxIdOf env key = Router.mailboxIdOf env key' := by
  unfold Router.mailboxIdOf
  rw [h]

theorem confirm_gives (requestId : Option Json) {registration : Router.Registration}
    {secret : JString} (hsecret : registration.readSecret = secret) :
    (Router.confirm env requestId registration).Post fun r => r.status = 200 → Gives secret r := by
  unfold Router.confirm
  split
  · exact fun _ => ⟨registration, rfl, hsecret⟩
  · next id _ =>
    intro now
    simp only [Prog.ret_bind]
    split
    · trivial
    · exact fun signature _ => ⟨registration, rfl, hsecret⟩

theorem register_gives (rq : Router.RegisterRequest) (f : Router.RegisterFields)
    {urls : List JString} (current : Router.Era urls) :
    (Router.register env rq f current).Post fun r =>
      r.status = 200 → Gives (bytesToHex rq.readSecret) r := by
  unfold Router.register
  split
  · trivial
  · next pubkey _ =>
    refine (Prog.post_true _).bind fun body _ => (Prog.post_true _).bind fun results _ => ?_
    split
    · next shardUrl _ primary _ _ _ =>
      split
      · exact fun h => absurd h (show (502 : ℕ) ≠ 200 by decide)
      · refine (Prog.post_true _).bind fun version _ => ?_
        exact confirm_gives env f.requestId rfl
    · trivial

theorem registerGate_refuses (f : Router.RegisterFields) :
    (Router.registerGate env f).Post fun v => ∀ r ∈ v, r.status ≠ 200 := by
  intro now
  simp only [Prog.ret_bind]
  split
  · rintro r ⟨⟩
    exact show (401 : ℕ) ≠ 200 by decide
  · split
    · trivial
    · split
      · rintro r ⟨⟩
        exact show (401 : ℕ) ≠ 200 by decide
      · rintro r ⟨⟩

theorem handleRegister_gives (rq : Router.RegisterRequest) {urls : List JString}
    (current : Router.Era urls) :
    (Router.handleRegister env rq current).Post fun r =>
      r.status = 200 → Gives (bytesToHex rq.readSecret) r := by
  unfold Router.handleRegister guarded
  cases hf : Router.registerFields rq.body with
  | error e =>
    cases e with
    | answer r =>
      intro h
      have hr : r.status = 400 := Router.registerFields_answers rq.body r hf
      omega
    | crash => trivial
  | ok f =>
    refine (registerGate_refuses env f).bind fun v hv => ?_
    cases v with
    | some r => exact fun h => absurd h (hv r rfl)
    | none => exact register_gives env rq f current

/-- **The answer of a call** that succeeds holds its read secret. -/
theorem call_gives (answer : JString → Router.CreateBody → Router.Created) (c : Call)
    (s : Router.State)
    (hsuccess : (Router.handle env answer c.t (.register c.rq) s).1.status = 200) :
    Gives c.secret (Router.handle env answer c.t (.register c.rq) s).1 := by
  have hpost : (Router.fetch env (.register c.rq)).Post fun r =>
      r.status = 200 → Gives c.secret r := by
    refine (Prog.post_true _).bind fun urls _ => ?_
    split
    · exact handleRegister_gives env c.rq _
    · exact fun h => absurd h (show (500 : ℕ) ≠ 200 by decide)
  unfold Router.handle at hsuccess ⊢
  dsimp only at hsuccess ⊢
  cases hrun : ((Router.fetch env (.register c.rq)).run
    (KvOp.exec c.t (Router.services env.crypto answer)) s).1 with
  | none =>
    rw [hrun] at hsuccess
    exact absurd hsuccess (show (500 : ℕ) ≠ 200 by decide)
  | some r =>
    rw [hrun] at hsuccess
    exact hpost.run hrun hsuccess

end

/-! ## Answers of a shard -/

/-- A `/create` that is not taken is answered with a failure. -/
theorem handleCreate_status (env : Shard.Env) (rq : Shard.CreateRequest) :
    (Shard.handleCreate env rq).Post fun r => r.status = 200 ∨ 300 ≤ r.status := by
  unfold Shard.handleCreate guarded
  cases hf : Shard.createFields rq.body with
  | error e =>
    cases e with
    | answer r =>
      have hbad (message : JString) : (Shard.err message).status = 400 := rfl
      have hr : r.status = 400 :=
        Shard.createFields_answers (Q := fun r => r.status = 400) hbad rq.body r hf
      exact Or.inr (by omega)
    | crash => trivial
  | ok f =>
    have hgate : (Shard.createGate env rq.ip f).Post fun v => ∀ r ∈ v, 300 ≤ r.status := by
      refine (Prog.post_true _).bind fun ok _ => ?_
      cases ok with
      | true =>
        refine Shard.limited_post _ _ _ (show 300 ≤ 429 by decide) ?_
        rintro r ⟨⟩
      | false =>
        rintro r ⟨⟩
        exact show 300 ≤ 401 by decide
    refine hgate.bind fun v hv => ?_
    cases v with
    | some r => exact Or.inr (hv r rfl)
    | none =>
      refine (Prog.post_true _).bind fun stored _ => ?_
      cases stored with
      | some m => exact (Prog.post_true _).bind fun _ _ => Or.inl rfl
      | none =>
        exact (Prog.post_true _).bind fun now _ => (Prog.post_true _).bind fun _ _ => Or.inl rfl

theorem create_ok (n : Node) (body : Router.CreateBody) (t : ℕ) (ip : Option JString)
    (h : Combined.respOk (n.create body t ip).1 = true) : (n.create body t ip).1.status = 200 := by
  have hrange := of_decide_eq_true h
  unfold Node.create Shard.handle Shard.runAt Shard.fetch at hrange ⊢
  dsimp only at hrange ⊢
  cases hrun : ((Shard.handleCreate n.env ⟨ip, Json.received body.toJson.stringify⟩).run
    (KvOp.exec t (Shard.services n.env.crypto)) (n.kv, [])).1 with
  | none =>
    rw [hrun] at hrange
    exact absurd hrange.2 (show ¬ (500 : ℕ) < 300 by decide)
  | some r =>
    rw [hrun] at hrange
    rcases (handleCreate_status n.env _).run hrun with hr | hr
    · exact hr
    · exact absurd hrange.2 (by simpa using hr)

/-! ## Deliveries -/

/-- The `/create` of a call reaches a shard. -/
structure Delivery (ι : Type) where
  call : ι
  url : JString
  t : ℕ
  ip : Option JString

section

variable {ι : Type} (env : Router.Env) (calls : ι → Call) {urls : List JString} (h : urls ≠ [])

/-- The shard handles the request. -/
def Delivery.handled (d : Delivery ι) (s : Shards) : Shard.Response × Node :=
  (s d.url).create ((calls d.call).body env h) d.t d.ip

/-- The shards after the delivery. -/
def Delivery.apply (d : Delivery ι) (s : Shards) : Shards :=
  Function.update s d.url (d.handled env calls h s).2

/-- What a call hears from a shard; a request that was not delivered has failed. -/
def heard [DecidableEq ι] (text : Shard.Response → JString) (i : ι) (url : JString) :
    Shards → List (Delivery ι) → Router.Created
  | _, [] => ⟨false, 0, []⟩
  | s, d :: run =>
    let r := (d.handled env calls h s).1
    if d.call = i ∧ d.url = url then
      { ok := Combined.respOk r, status := r.status
        text := if Combined.respOk r then [] else text r }
    else heard text i url (d.apply env calls h s) run

/-- The last call that a shard takes. -/
def lastTaken (url : JString) : Shards → List (Delivery ι) → Option ι
  | _, [] => none
  | s, d :: run =>
    (lastTaken url (d.apply env calls h s) run).or
      (if d.url = url ∧ (d.handled env calls h s).1.status = 200 then some d.call else none)

/-- The hash of its read secret. -/
def secretHash (c : Call) : JString := env.crypto.sha256Hex c.secret

variable {calls} {key : HexStr 64 64}

theorem deliver_secret (hkey : ∀ i, (calls i).pubkey.lower = key.lower) (d : Delivery ι)
    (s : Shards) (url : JString) :
    secretAt (d.apply env calls h s url) (Router.mailboxIdOf env key) =
      (if d.url = url ∧ (d.handled env calls h s).1.status = 200 then
        some (secretHash env (calls d.call))
      else none).or (secretAt (s url) (Router.mailboxIdOf env key)) := by
  unfold Delivery.apply
  by_cases hurl : d.url = url
  · subst hurl
    rw [Function.update_self]
    obtain ⟨htaken, hkept⟩ := create_secret env (calls d.call).t (calls d.call).pubkey
      (homes env h (calls d.call).pubkey) (calls d.call).nonce (s d.url) d.t d.ip
      (Router.mailboxIdOf env key)
    by_cases hstatus : (d.handled env calls h s).1.status = 200
    · rw [if_pos ⟨rfl, hstatus⟩]
      exact (htaken hstatus).trans (if_pos (mailboxIdOf_lower env (hkey d.call)).symm)
    · rw [if_neg fun hd => hstatus hd.2]
      exact hkept hstatus
  · rw [Function.update_of_ne (Ne.symm hurl), if_neg fun hd => hurl hd.1]
    rfl

/-- **The last call that a shard takes** sets its read secret. -/
theorem secretAt_after (hkey : ∀ i, (calls i).pubkey.lower = key.lower) (run : List (Delivery ι))
    (s : Shards) (url : JString) :
    secretAt (after (Delivery.apply env calls h) s run url) (Router.mailboxIdOf env key) =
      ((lastTaken env calls h url s run).map fun i => secretHash env (calls i)).or
        (secretAt (s url) (Router.mailboxIdOf env key)) := by
  induction run generalizing s with
  | nil => rfl
  | cons d run ih =>
    unfold after lastTaken
    rw [ih, deliver_secret env h hkey]
    cases lastTaken env calls h url (d.apply env calls h s) run with
    | some i => rfl
    | none =>
      split
      · rfl
      · rfl

end

/-! ## Convergence -/

section

variable {ι : Type} (env : Router.Env) (calls : ι → Call) {kv : Router.Kv}
  (h : Router.shardUrlsOf env kv ≠ []) (key : HexStr 64 64) (text : Shard.Response → JString)
  (s : Shards) (run : List (Delivery ι))

/-- A shard ends with the read secret of a call: the last call that it takes has the same, or it
    takes none and had that secret before. -/
def EndsWith (i : ι) (url : JString) : Prop :=
  match lastTaken env calls h url s run with
  | some j => secretHash env (calls j) = secretHash env (calls i)
  | none => secretAt (s url) (Router.mailboxIdOf env key) = some (secretHash env (calls i))

/-- A shard from which a call has heard a success takes a call. -/
theorem lastTaken_heard [DecidableEq ι] {i : ι} {url : JString}
    (hok : (heard env calls h text i url s run).ok = true) :
    (lastTaken env calls h url s run).isSome := by
  induction run generalizing s with
  | nil => cases hok
  | cons d run ih =>
    unfold heard at hok
    unfold lastTaken
    dsimp only at hok
    split at hok
    · next hd =>
      have hstatus : (d.handled env calls h s).1.status = 200 :=
        create_ok (s d.url) _ d.t d.ip hok
      rw [if_pos ⟨hd.2, hstatus⟩]
      simp
    · rw [Option.isSome_or, ih _ hok]
      rfl

/-- All shards of the key end with the read secret of one call. -/
def SameLast : Prop :=
  ∃ i, ∀ url ∈ homes env h key, EndsWith env calls h key s run i url

theorem endsWith_iff (hkey : ∀ i, (calls i).pubkey.lower = key.lower) (i : ι) (url : JString) :
    EndsWith env calls h key s run i url ↔
      secretAt (after (Delivery.apply env calls h) s run url) (Router.mailboxIdOf env key) =
        some (secretHash env (calls i)) := by
  rw [secretAt_after env h hkey]
  unfold EndsWith
  cases lastTaken env calls h url s run with
  | some j => simp
  | none => simp

variable [DecidableEq ι]

/-- The Router answers a call whose requests are delivered in the run. -/
def answered (i : ι) : Router.Response :=
  (Router.handle env (fun url _ => heard env calls h text i url s run) (calls i).t
    (.register (calls i).rq) (kv, {})).1

/-- All shards of the key have the hash of one read secret, and a client was given it. -/
def Converges : Prop :=
  ∃ i secret, (answered env calls h text s run i).status = 200 ∧
    Gives secret (answered env calls h text s run i) ∧
    ∀ url ∈ homes env h key, secretAt (after (Delivery.apply env calls h) s run url)
      (Router.mailboxIdOf env key) = some (env.crypto.sha256Hex secret)

variable {calls key}

/-- A call that succeeds was taken by the first shard of its key. -/
theorem primary_taken (hd : Router.Durable kv) (hkey : ∀ i, (calls i).pubkey.lower = key.lower)
    {i : ι} (hsuccess : (answered env calls h text s run i).status = 200) :
    ∃ url ∈ (homes env h key).head?, (lastTaken env calls h url s run).isSome := by
  rcases Router.register_cases (s := (kv, {})) env
    (fun url _ => heard env calls h text i url s run) (calls i).t hd h (calls i).rq with
    ⟨-, hrefused⟩ | ⟨f, pubkey, o, hr, hanswer, hdelivered⟩
  · exact absurd hsuccess hrefused
  · have hpubkey : pubkey = (calls i).pubkey :=
      Option.some.inj (hr.registrant.symm.trans (calls i).own)
    obtain ⟨url, hurl, hok⟩ := hdelivered.accepted (hanswer ▸ hsuccess)
    refine ⟨url, ?_, lastTaken_heard env calls h text s run hok⟩
    rw [← homes_lower env (hkey i), ← hpubkey]
    exact hurl

/-- **Convergence.**  Overlapping registrations that all succeed leave one read secret on the
    shards of their key exactly if the last call that each shard takes has the same.  The first
    shard always ends with a read secret that was given to a client. -/
theorem converge_iff [Nonempty ι] (hd : Router.Durable kv)
    (hkey : ∀ i, (calls i).pubkey.lower = key.lower)
    (hsuccess : ∀ i, (answered env calls h text s run i).status = 200) :
    (Converges env calls h key text s run ↔ SameLast env calls h key s run) ∧
      ∃ url ∈ (homes env h key).head?, ∃ i, Gives (calls i).secret
          (answered env calls h text s run i) ∧
        secretAt (after (Delivery.apply env calls h) s run url) (Router.mailboxIdOf env key) =
          some (secretHash env (calls i)) := by
  have hgives (i : ι) : Gives (calls i).secret (answered env calls h text s run i) :=
    call_gives env _ (calls i) (kv, {}) (hsuccess i)
  refine ⟨?_, ?_⟩
  swap
  · obtain ⟨url, hurl, htaken⟩ := primary_taken env h text s run hd hkey
      (hsuccess (Classical.arbitrary ι))
    obtain ⟨i, hi⟩ := Option.isSome_iff_exists.1 htaken
    refine ⟨url, hurl, i, hgives i, ?_⟩
    rw [secretAt_after env h hkey, hi]
    rfl
  unfold Converges SameLast
  simp only [endsWith_iff env calls h key s run hkey]
  constructor
  · rintro ⟨i, secret, -, hgives, hurls⟩
    obtain ⟨registration, hbody, rfl⟩ := hgives
    obtain ⟨registration', hbody', hsecret⟩ := hgives i
    obtain rfl := Router.Payload.registered.inj (hbody.symm.trans hbody')
    rw [hsecret] at hurls
    exact ⟨i, hurls⟩
  · rintro ⟨i, hurls⟩
    exact ⟨i, (calls i).secret, hsuccess i, hgives i, hurls⟩

end

/-! ## Two orders -/

/-- A platform whose digests tell the first byte of a text. -/
def headCrypto : Crypto :=
  { Crypto.trusting with sha256 := fun b => ⟨List.replicate 32 (b.headD 0), by simp⟩ }

/-- A Router with two shards. -/
def twoHomes : Router.Env := { twoShards with crypto := headCrypto }

/-- A call of the key `00…0` with a read secret of one byte repeated. -/
def zeroCall (byte : UInt8) : Call where
  t := 0
  rq := { secondRegistration with readSecret := List.replicate 32 byte }
  pubkey := Router.zeroKey
  own := rfl
  nonce := rfl

/-- Two calls with different read secrets. -/
def twoCalls (first : Bool) : Call := if first then zeroCall 7 else zeroCall 23

theorem twoHomes_urls : Router.shardUrlsOf twoHomes (fun _ => none) ≠ [] := by decide +kernel

theorem twoHomes_homes : homes twoHomes twoHomes_urls Router.zeroKey =
    [js "http://a", js "http://b"] := by decide +kernel

/-- What a shard gets. -/
theorem handled_received {ι : Type} (env : Router.Env) (calls : ι → Call) {urls : List JString}
    (h : urls ≠ []) (d : Delivery ι) (s : Shards) :
    d.handled env calls h s =
      let r := Shard.handle (s d.url).env d.t
        (.create ⟨d.ip, some ((calls d.call).body env h).toJson⟩) (s d.url).kv
      (r.1, { s d.url with kv := r.2 }) :=
  create_received env (calls d.call).t (calls d.call).rq (calls d.call).pubkey
    (homes env h (calls d.call).pubkey) (s d.url) d.t d.ip

theorem twoCalls_key (first : Bool) : (twoCalls first).pubkey.lower = Router.zeroKey.lower := by
  cases first with
  | false => rfl
  | true => rfl

/-- The calls reach `http://a` in one order and `http://b` in the other. -/
def crossed : List (Delivery Bool) :=
  [⟨true, js "http://a", 0, none⟩, ⟨false, js "http://a", 0, none⟩,
    ⟨false, js "http://b", 0, none⟩, ⟨true, js "http://b", 0, none⟩]

theorem crossed_succeed (i : Bool) :
    (answered twoHomes twoCalls twoHomes_urls (fun _ => []) (fun _ => registered) crossed i).status =
      200 := by
  unfold answered crossed
  simp only [heard, Delivery.apply, handled_received]
  cases i with
  | false => decide +kernel
  | true => decide +kernel

theorem crossed_last :
    lastTaken twoHomes twoCalls twoHomes_urls (js "http://a") (fun _ => registered) crossed =
        some false ∧
      lastTaken twoHomes twoCalls twoHomes_urls (js "http://b") (fun _ => registered) crossed =
        some true := by
  unfold crossed
  simp only [lastTaken, Delivery.apply, handled_received]
  decide +kernel

/-- **Two secrets.**  Both calls succeed, and the shards end with different read secrets. -/
theorem crossed_secrets :
    (∀ i, (answered twoHomes twoCalls twoHomes_urls (fun _ => []) (fun _ => registered) crossed
        i).status = 200) ∧
      ¬ Converges twoHomes twoCalls twoHomes_urls Router.zeroKey (fun _ => [])
        (fun _ => registered) crossed := by
  refine ⟨crossed_succeed, ?_⟩
  rintro ⟨i, secret, -, -, hurls⟩
  rw [twoHomes_homes] at hurls
  have ha := hurls (js "http://a") (by simp)
  have hb := hurls (js "http://b") (by simp)
  rw [secretAt_after twoHomes twoHomes_urls twoCalls_key, crossed_last.1] at ha
  rw [secretAt_after twoHomes twoHomes_urls twoCalls_key, crossed_last.2] at hb
  have hsame : secretHash twoHomes (twoCalls false) = secretHash twoHomes (twoCalls true) :=
    Option.some.inj (ha.trans hb.symm)
  exact absurd hsame (by decide +kernel)

/-- The second call comes after the first one everywhere. -/
def aligned : List (Delivery Bool) :=
  [⟨true, js "http://a", 0, none⟩, ⟨true, js "http://b", 0, none⟩,
    ⟨false, js "http://b", 0, none⟩, ⟨false, js "http://a", 0, none⟩]

theorem aligned_converge :
    (Converges twoHomes twoCalls twoHomes_urls Router.zeroKey (fun _ => []) (fun _ => registered)
        aligned ↔
      SameLast twoHomes twoCalls twoHomes_urls Router.zeroKey (fun _ => registered) aligned) ∧
    ∃ url ∈ (homes twoHomes twoHomes_urls Router.zeroKey).head?, ∃ i,
      Gives (twoCalls i).secret (answered twoHomes twoCalls twoHomes_urls (fun _ => [])
        (fun _ => registered) aligned i) ∧
      secretAt (after (Delivery.apply twoHomes twoCalls twoHomes_urls) (fun _ => registered) aligned
        url) (Router.mailboxIdOf twoHomes Router.zeroKey) =
          some (secretHash twoHomes (twoCalls i)) := by
  refine converge_iff twoHomes twoHomes_urls (fun _ => []) (fun _ => registered) aligned
    twoShards_durable twoCalls_key ?_
  intro i
  unfold answered aligned
  simp only [heard, Delivery.apply, handled_received]
  cases i with
  | false => decide +kernel
  | true => decide +kernel

end Agreement
