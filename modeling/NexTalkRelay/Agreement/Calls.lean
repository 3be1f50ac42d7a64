/-
  The Router as a shard calls it.

  * `Setting` is a shard with a `SELF_URL`, and the Router at the address that
    its `ROUTER_URL` names;
  * `Setting.serve` answers a call: the Router at its own address, an arbitrary
    host elsewhere;
  * `serve_registration`, `serve_notice` and `serve_challenge` say what the calls
    of a shard do to the key that the Router records for it.
-/
import NexTalkRelay.Lib.Network
import NexTalkRelay.Router.Record
import NexTalkRelay.Shard.Admin

open Effect Js Shard

namespace Agreement

/-! ## Responses of the Router -/

/-- The JSON of a response body; a property that is `undefined` is left out. -/
def payloadJson : Router.Payload → Json
  | .error message => .obj [(js "error", .str message)]
  | .registered r => r.toJson
  | .resolved r =>
    .obj ([(js "mailbox_id", .str r.mailboxId)] ++
      (r.shardUrl.map fun url => (js "shard_url", .str url)).toList ++
      [(js "replica_shard_urls", .arr (r.replicaShardUrls.map .str)),
        (js "era", .num (.ofInt r.era)), (js "table_version", .num r.tableVersion)] ++
      if r.confirmed then []
      else [(js "note", .str (js "mailbox not confirmed to exist yet on any known era"))])
  | .challenge nonce difficulty expiresAt =>
    .obj [(js "nonce", .str nonce),
      (js "difficulty", if difficulty.isFinite then .num difficulty else .null),
      (js "expires_at", .num (.ofInt expiresAt))]
  | .shardRegistered shardUrl shardCount tableVersion =>
    .obj [(js "registered", .bool true), (js "shard_url", .str shardUrl),
      (js "shard_count", .num (.ofInt shardCount)), (js "table_version", .num tableVersion)]
  | .rotated shardUrl newPubkey tableVersion =>
    .obj [(js "rotated", .bool true), (js "shard_url", .str shardUrl),
      (js "new_pubkey", .str newPubkey), (js "table_version", .num tableVersion)]
  | .serverHello protocol serverPublicKey challenge timestamp signature =>
    .obj [(js "version", .num (.ofInt 1)), (js "type", .str (js "server_hello")),
      (js "protocol", .str protocol), (js "server_public_key", .str serverPublicKey),
      (js "challenge", .str challenge), (js "timestamp", .str timestamp),
      (js "signature", .str signature)]
  | .table signed => signed

/-- A response on the wire; those that a shard asks for have no envelope. -/
def reply (r : Router.Response) : RouterReply where
  ok := decide (200 ≤ r.status ∧ r.status < 300)
  status := r.status
  text := (payloadJson r.body).stringify
  json := some (payloadJson r.body)

/-- What an unknown path of the Router gets. -/
def notFound : RouterReply := { ok := false, status := 404, text := js "Not Found", json := none }

/-! ## Calls -/

/-- The circumstances under which a call reaches its host: the instant, the
    address it comes from, the random bytes of a challenge, and the answer of a
    host that is not the Router. -/
structure Arrival where
  time : ℕ
  ip : Option JString
  nonce : Bytes
  elsewhere : Except JString RouterReply

/-- The `pathname` of a URL under an address. -/
def pathAt (origin url : JString) : Option JString :=
  if (origin ++ js "/").isPrefixOf url then some ((url.drop origin.length).takeWhile (· ≠ 63))
  else none

theorem pathAt_append {origin path : JString} (h : (js "/").isPrefixOf path = true) :
    pathAt origin (origin ++ path) = some (path.takeWhile (· ≠ 63)) := by
  unfold pathAt
  rw [if_pos, List.drop_left]
  rw [List.isPrefixOf_iff_prefix] at h ⊢
  exact (List.prefix_append_right_inj origin).2 h

/-- The request that the Router takes a call for. -/
def request? (x : Arrival) (pathname : JString) (body : Option Json) : Option Router.Request :=
  match body with
  | none => if pathname = js "/pow_challenge" then some (.powChallenge ⟨x.ip, x.nonce⟩) else none
  | some body =>
    if pathname = js "/register_shard" then some (.registerShard ⟨x.ip, some body⟩)
    else if pathname = js "/rotate_shard_key" then some (.rotateShardKey (some body))
    else none

/-- A shard, its `SELF_URL`, and the Router at the address of its `ROUTER_URL`. -/
structure Setting where
  shard : AdminEnv
  selfUrl : JString
  isSelf : nonEmpty shard.selfUrl = some selfUrl
  router : Router.Env
  answer : JString → Router.CreateBody → Router.Created
  origin : JString
  isRouter : ∀ url, nonEmpty shard.routerUrl = some url → dropSlash url = origin

variable (X : Setting)

/-- The answer to a call. -/
def Setting.serve (x : Arrival) (call : RouterCall) (s : Router.State) :
    Except JString RouterReply × Router.State :=
  match pathAt X.origin call.url with
  | none => (x.elsewhere, s)
  | some path =>
    match request? x path call.body with
    | none => (.ok notFound, s)
    | some rq =>
      let r := Router.handle X.router X.answer x.time rq s
      (.ok (reply r.1), r.2)

/-- The key that the Router records for the shard. -/
def Setting.recorded (s : Router.State) : Option JString :=
  Router.recordedKey X.router s.1 X.selfUrl

/-- A field of a call that goes to a path of the Router and names the shard. -/
def Setting.fieldAt (call : RouterCall) (path key : JString) : Option JString :=
  if pathAt X.origin call.url = some path then
    call.body.bind fun body =>
      if Json.asStr? (body.field (js "shard_url")) = some X.selfUrl then Json.asStr? (body.field key)
      else none
  else none

/-- The key that a call registers for the shard. -/
def Setting.registers (call : RouterCall) : Option JString :=
  X.fieldAt call (js "/register_shard") (js "shard_pubkey")

/-- The key of the shard that a call retires. -/
def Setting.retires (call : RouterCall) : Option JString :=
  X.fieldAt call (js "/rotate_shard_key") (js "old_pubkey")

/-! ## What the calls of a shard do -/

section
variable {X} {x : Arrival} {s : Router.State}

theorem serve_durable (call : RouterCall) (hd : Router.Durable s.1) :
    Router.Durable (X.serve x call s).2.1 := by
  unfold Setting.serve
  split
  · exact hd
  · split
    · exact hd
    · exact Router.handle_durable hd

theorem request?_registerShard {pathname : JString} {body : Option Json}
    {rs : Router.RegisterShardRequest} (h : request? x pathname body = some (.registerShard rs)) :
    ∃ b, body = some b ∧ pathname = js "/register_shard" ∧ rs = ⟨x.ip, some b⟩ := by
  unfold request? at h
  split at h
  · split at h <;> cases h
  · next b =>
    split at h
    · next hpath =>
      cases h
      exact ⟨b, rfl, hpath, rfl⟩
    · split at h <;> cases h

theorem request?_rotateShardKey {pathname : JString} {body rotation : Option Json}
    (h : request? x pathname body = some (.rotateShardKey rotation)) :
    ∃ b, body = some b ∧ pathname = js "/rotate_shard_key" ∧ rotation = some b := by
  unfold request? at h
  split at h
  · split at h <;> cases h
  · next b =>
    split at h
    · cases h
    · split at h
      · next hpath =>
        cases h
        exact ⟨b, rfl, hpath, rfl⟩
      · cases h

theorem asStr?_eq_some {v : Option Json} {u : JString} (h : v = some (.str u)) :
    Json.asStr? v = some u := by rw [h]; rfl

theorem strField_str {v : Option Json} {u : JString} (h : Router.strField v = some u) :
    Json.asStr? v = some u := (Option.filter_eq_some_iff.1 h).1

theorem registerShardFields_body {b : Json} {f : Router.RegisterShardFields} {pk : HexStr 64 64}
    (hf : Router.registerShardFields (some b) = .ok f) (hpk : f.shardPubkey.str? = some pk) :
    Json.asStr? (b.field (js "shard_url")) = some f.shardUrl ∧
      Json.asStr? (b.field (js "shard_pubkey")) = some pk.1 := by
  obtain ⟨⟨hurl, -⟩, hpubkey, -⟩ := Router.registerShardFields_eq_ok.1 hf
  obtain ⟨s, hs, hparse⟩ := testedField_str hpubkey hpk
  rw [HexStr.parse_eq_some.1 hparse] at hs
  exact ⟨asStr?_eq_some hurl, asStr?_eq_some hs⟩

theorem rotateFields_body {b : Json} {f : Router.RotateFields}
    (hf : Router.rotateFields (some b) = .ok f) :
    Json.asStr? (b.field (js "shard_url")) = some f.shardUrl ∧
      Json.asStr? (b.field (js "old_pubkey")) = some f.oldPubkey.1 := by
  unfold Router.rotateFields at hf
  obtain ⟨b', ⟨⟩, hf⟩ := Check.orAnswer_bind.1 hf
  obtain ⟨url, hurl, hf⟩ := Check.orAnswer_bind.1 hf
  obtain ⟨old, hold, hf⟩ := Check.bind_eq_ok.1 hf
  obtain ⟨new, -, hf⟩ := Check.bind_eq_ok.1 hf
  obtain ⟨oldPubkey, hstr, hf⟩ := Check.orCrash_bind.1 hf
  obtain ⟨newPubkey, -, hf⟩ := Check.orCrash_bind.1 hf
  obtain ⟨-, hf⟩ := Check.require_bind.1 hf
  obtain ⟨timestamp, -, hf⟩ := Check.bind_eq_ok.1 hf
  obtain ⟨oldSig, -, hf⟩ := Check.bind_eq_ok.1 hf
  obtain ⟨newSig, -, hf⟩ := Check.bind_eq_ok.1 hf
  cases hf
  obtain ⟨s, hs, hparse⟩ := testedField_str hold hstr
  rw [HexStr.parse_eq_some.1 hparse] at hs
  exact ⟨strField_str (Option.filter_eq_some_iff.1 hurl).1, asStr?_eq_some hs⟩

/-- The URL and the key of an accepted registration are those of its body. -/
theorem admitted_body {t : ℕ} {ip : Option JString} {b : Json} {kv : Router.Kv}
    {p : JString × HexStr 64 64}
    (h : Router.admitted X.router t ⟨ip, some b⟩ kv = some p) :
    Json.asStr? (b.field (js "shard_url")) = some p.1 ∧
      Json.asStr? (b.field (js "shard_pubkey")) = some p.2.1 := by
  unfold Router.admitted at h
  split at h
  · cases h
  · next f hf =>
    obtain ⟨pk, hpk, rfl⟩ := Option.map_eq_some_iff.1 h
    exact registerShardFields_body hf (Option.filter_eq_some_iff.1 hpk).1

theorem fieldAt_of_body {call : RouterCall} {path key u : JString} {b : Json}
    (hpath : pathAt X.origin call.url = some path) (hbody : call.body = some b)
    (hurl : Json.asStr? (b.field (js "shard_url")) = some X.selfUrl)
    (hkey : Json.asStr? (b.field key) = some u) : X.fieldAt call path key = some u := by
  unfold Setting.fieldAt
  rw [if_pos hpath, hbody]
  exact (if_pos hurl).trans hkey

/-- **What a call does to the key of the shard**: nothing, or it registers one,
    or it retires the one that is recorded. -/
theorem serve_recorded (call : RouterCall) (hd : Router.Durable s.1) :
    X.recorded (X.serve x call s).2 = X.recorded s ∨
      (∃ key, X.registers call = some key ∧
        X.recorded (X.serve x call s).2 = some (toLowerCase key)) ∨
      ∃ key old, X.retires call = some old ∧ X.recorded s = some key ∧
        toLowerCase key = toLowerCase old := by
  unfold Setting.serve
  split
  · exact Or.inl rfl
  next path hpath =>
  split
  · exact Or.inl rfl
  next rq hrq =>
  rcases @Router.handle_recordedKey X.router X.answer x.time rq s hd X.selfUrl with
    hsame | ⟨rs, p, rfl, had, hkey⟩ | ⟨body, f, rfl, hro, hkey⟩
  · exact Or.inl hsame
  · obtain ⟨b, hbody, rfl, rfl⟩ := request?_registerShard hrq
    obtain ⟨hurl, hpk⟩ := admitted_body had
    by_cases hself : X.selfUrl = p.1
    · rw [if_pos hself] at hkey
      exact Or.inr (Or.inl ⟨p.2.1, fieldAt_of_body hpath hbody (hself ▸ hurl) hpk, hkey⟩)
    · rw [if_neg hself] at hkey
      exact Or.inl hkey
  · obtain ⟨b, hbody, rfl, rfl⟩ := request?_rotateShardKey hrq
    obtain ⟨hf, hold, -⟩ := Router.rotated_spec hro
    obtain ⟨hurl, hpk⟩ := rotateFields_body hf
    by_cases hself : X.selfUrl = f.shardUrl
    · cases hrec : X.recorded s with
      | none =>
        refine Or.inl (hkey.trans ?_)
        unfold Setting.recorded at hrec
        rw [hrec]
        rfl
      | some key =>
        refine Or.inr (Or.inr ⟨key, f.oldPubkey.1, fieldAt_of_body hpath hbody (hself ▸ hurl) hpk,
          rfl, ?_⟩)
        exact hold key (hself ▸ hrec)
    · refine Or.inl (hkey.trans ?_)
      simp only [if_neg hself, Option.map_id_fun', id_eq]
      rfl

/-- The URL is the address of the Router, perhaps with a slash. -/
def Setting.Names (url : JString) : Prop := url = X.origin ∨ url = X.origin ++ js "/"

theorem names_of_dropSlash {url : JString} (h : dropSlash url = X.origin) : X.Names url := by
  unfold dropSlash at h
  split at h
  · next hlast =>
    right
    rw [← h]
    exact (List.dropLast_append_getLast? _ hlast).symm
  · exact Or.inl h

/-- The registration that a shard sends to a URL. -/
def Setting.registrationAt (url : JString) (identity : Identity) (nonce : Option Json)
    (solution timestamp signature : JString) : RouterCall where
  url := url ++ js "/register_shard"
  body := some (registerShardBody X.selfUrl identity.publicKeyHex nonce solution timestamp signature)

theorem registerShardBody_url (selfUrl key : JString) (nonce : Option Json)
    (solution timestamp signature : JString) :
    (registerShardBody selfUrl key nonce solution timestamp signature).field (js "shard_url") =
      some (.str selfUrl) := by
  simp [registerShardBody, Json.field]

/-- **The shard is told that it has registered only if its key is recorded.** -/
theorem serve_registration {url : JString} {identity : Identity} {nonce : Option Json}
    {solution timestamp signature : JString} (hurl : X.Names url)
    (hd : Router.Durable s.1) {r : RouterReply}
    (hr : (X.serve x (X.registrationAt url identity nonce solution timestamp signature) s).1 = .ok r)
    (hok : r.ok = true) :
    X.recorded (X.serve x (X.registrationAt url identity nonce solution timestamp signature) s).2 =
      some (toLowerCase identity.publicKeyHex) := by
  unfold Setting.serve Setting.registrationAt at hr ⊢
  dsimp only at hr ⊢
  rcases hurl with rfl | rfl
  · have hpath : pathAt X.origin (X.origin ++ js "/register_shard") = some (js "/register_shard") :=
      pathAt_append (by decide)
    rw [hpath] at hr ⊢
    dsimp only [request?] at hr ⊢
    rw [if_pos rfl] at hr ⊢
    dsimp only at hr ⊢
    cases hr
    obtain ⟨p, hp, hkey⟩ := Router.registered_of_ok hd (of_decide_eq_true hok).2
    obtain ⟨hurl, hpk⟩ := admitted_body hp
    rw [registerShardBody_url] at hurl
    rw [registerShardBody_pubkey] at hpk
    have hself : X.selfUrl = p.1 := Option.some.inj hurl
    have hlower : p.2.lower = toLowerCase identity.publicKeyHex :=
      congrArg toLowerCase (Option.some.inj hpk).symm
    rw [← hself, hlower] at hkey
    exact hkey
  · -- the path starts with `//`
    have hpath : pathAt X.origin (X.origin ++ js "/" ++ js "/register_shard") =
        some (js "//register_shard") := by
      rw [List.append_assoc]
      exact pathAt_append (by decide)
    rw [hpath] at hr
    dsimp only [request?] at hr
    rw [if_neg (by decide), if_neg (by decide)] at hr
    cases hr
    cases hok

end

end Agreement
