/-
  Proofs of work, where they are found and where they are checked.

  A shard solves the challenge of the Router itself, or `solve.py` does it for the
  operator and hands the solution to the shard, which registers with it.

  * `Solve.main` is `solve.py`, from the answers it gets to what it posts to the
    shard;
  * `PassesPow` says that a registration passes the check of the Router, and
    `SolvedPass` that all do that follow from a run of `solve.py`;
  * `ensureSelfRegistered_passes`: those that the shard solves itself all pass;
  * `solved_accepted_iff`: those of `solve.py` do exactly if its command line and
    the configuration of the shard spell the URL alike, and the difficulty is a
    whole number, unless there is nothing to solve.
-/
import NexTalkRelay.Js.Layout
import NexTalkRelay.Lib.Interleave
import NexTalkRelay.Router.Mesh
import NexTalkRelay.Shard.Admin
import NexTalkRelay.Shard.Push

open Effect Js

namespace Agreement

/-! ## `solve.py` -/

namespace Solve

/-- The shifts of a byte other than zero until its top bit is set. -/
def shifts : ℕ → ℕ → ℕ
  | 0, _ => 0
  | n + 1, x => if x &&& 0x80 = 0 then 1 + shifts n (x <<< 1) else 0

/-- `leading_zero_bits`, on the bytes of a digest. -/
def leadingZeroBits : Bytes → ℕ
  | [] => 0
  | b :: digest => if b = 0 then 8 + leadingZeroBits digest else shifts 8 b.toNat

/-- The loop of `solve_pow` from `i` on; it takes as many turns as it has fuel. -/
def grind (c : Crypto) (pre : Bytes) (target : ℤ) : ℕ → ℕ → Option JString
  | 0, _ => none
  | fuel + 1, i =>
    if target ≤ leadingZeroBits (c.sha256 (pre ++ encode (digits i))).1 then some (digits i)
    else grind c pre target fuel (i + 1)

/-- `str.encode()` raises at an unpaired surrogate. -/
def encodeStrict (s : JString) : Option Bytes := if Paired s then some (encode s) else none

/-- `solve_pow`; the fuel bounds the solutions that are tried. -/
def solvePow (c : Crypto) (fuel : ℕ) (nonce shardUrl : JString) (difficulty : ℤ) :
    Option JString := do
  let pre ← encodeStrict (nonce ++ js ":" ++ shardUrl ++ js ":")
  grind c pre difficulty fuel 0

/-- `int(x)` rounds towards zero; what is not finite is `null` in JSON, at which it
    raises. -/
def int : Number → Option ℤ
  | .fin d => some (if d.val < 0 then d.ceil else -d.neg.ceil)
  | _ => none

/-- `url.rstrip("/")` -/
def rstrip (url : JString) : JString := (url.reverse.dropWhile (· == 47)).reverse

/-- The command line, but for the secret. -/
structure Args where
  shardUrl : JString
  routerUrl : Option JString

/-- What it takes from the answer to `/admin/shard_info`. -/
structure Info where
  shardPubkey : JString
  routerUrl : Option JString

/-- What it takes from the answer to `/pow_challenge`. -/
structure Challenge where
  nonce : JString
  difficulty : Number

/-- What it posts to `/admin/register`, unless it exits before. -/
def main (c : Crypto) (fuel : ℕ) (args : Args) (info : Info) (challenge : Challenge) :
    Option Json := do
  let shardUrl := rstrip args.shardUrl
  if info.shardPubkey.isEmpty then none
  let routerUrl := rstrip (((Shard.nonEmpty args.routerUrl).or info.routerUrl).getD [])
  if routerUrl.isEmpty then none
  let difficulty ← int challenge.difficulty
  if challenge.nonce.isEmpty || difficulty = 0 then none
  let solution ← solvePow c fuel challenge.nonce shardUrl difficulty
  return .obj [(js "nonce", .str challenge.nonce), (js "solution", .str solution),
    (js "router_url", .str routerUrl)]

end Solve

/-! ### What a solution is -/

section
variable {c : Crypto}

theorem shifts_eq : ∀ n < 256, n ≠ 0 → Solve.shifts 8 n = 7 - Nat.log2 n := by decide +kernel

/-- Solver and verifier count the same bits. -/
theorem leadingZeroBits_eq (digest : Bytes) : Solve.leadingZeroBits digest = leadingZeroBits digest := by
  induction digest with
  | nil => rfl
  | cons b digest ih =>
    rw [Solve.leadingZeroBits, leadingZeroBits, ih]
    by_cases hb : b = 0
    · rw [if_pos hb, if_pos hb]
    · rw [if_neg hb, if_neg hb]
      refine shifts_eq b.toNat b.toNat_lt ?_
      intro hzero
      exact hb (UInt8.toNat_inj.1 hzero)

theorem grind_spec {pre : Bytes} {target : ℤ} {fuel i : ℕ} {solution : JString}
    (h : Solve.grind c pre target fuel i = some solution) :
    isDigits solution = true ∧ target ≤ leadingZeroBits (c.sha256 (pre ++ encode solution)).1 := by
  induction fuel generalizing i with
  | zero => cases h
  | succ fuel ih =>
    rw [Solve.grind] at h
    split at h
    · next hi =>
      obtain rfl := Option.some.inj h
      rw [leadingZeroBits_eq] at hi
      exact ⟨isDigits_digits i, hi⟩
    · exact ih h

/-- The bytes that are hashed. -/
def powBytes (nonce shardUrl solution : JString) : Bytes :=
  encode (nonce ++ js ":" ++ shardUrl ++ js ":" ++ solution)

/-- The bits that a proof of work reaches. -/
def powBits (c : Crypto) (nonce shardUrl solution : JString) : ℕ :=
  leadingZeroBits (c.sha256 (powBytes nonce shardUrl solution)).1

theorem powBytes_eq (nonce shardUrl solution : JString) : powBytes nonce shardUrl solution =
    encode nonce ++ 58 :: (encode shardUrl ++ 58 :: encode solution) := by
  unfold powBytes
  simp only [show js ":" = [colon] from rfl, List.append_assoc, List.cons_append, List.nil_append]
  rw [Layout.encode_colon, Layout.encode_colon]

/-- The bytes are those of one URL only. -/
theorem powBytes_inj {nonce url url' solution : JString} :
    powBytes nonce url solution = powBytes nonce url' solution ↔ encode url = encode url' := by
  simp only [powBytes_eq, List.append_cancel_left_eq, List.cons.injEq, true_and,
    List.append_cancel_right_eq]

theorem leadingZeroBits_le (digest : Bytes) : leadingZeroBits digest ≤ 8 * digest.length := by
  induction digest with
  | nil => exact le_rfl
  | cons b digest ih =>
    rw [leadingZeroBits, List.length_cons]
    by_cases hb : b = 0
    · rw [if_pos hb]
      omega
    · rw [if_neg hb, leadingZeros]
      omega

theorem powBits_le (nonce shardUrl solution : JString) : powBits c nonce shardUrl solution ≤ 256 := by
  have hle := leadingZeroBits_le (c.sha256 (powBytes nonce shardUrl solution)).1
  rw [(c.sha256 _).2] at hle
  exact hle

/-- A solution is a number, and the prefix can be encoded. -/
theorem solvePow_spec {fuel : ℕ} {nonce shardUrl solution : JString} {difficulty : ℤ}
    (h : Solve.solvePow c fuel nonce shardUrl difficulty = some solution) :
    Paired shardUrl ∧ solution ≠ [] ∧ difficulty ≤ powBits c nonce shardUrl solution := by
  obtain ⟨pre, hpre, hgrind⟩ := Option.bind_eq_some_iff.1 h
  obtain ⟨hpaired, rfl⟩ : Paired (nonce ++ js ":" ++ shardUrl ++ js ":") ∧
      encode (nonce ++ js ":" ++ shardUrl ++ js ":") = pre := by
    unfold Solve.encodeStrict at hpre
    split at hpre
    · next hp => exact ⟨hp, Option.some.inj hpre⟩
    · cases hpre
  obtain ⟨hdigits, hbits⟩ := grind_spec hgrind
  simp only [show js ":" = [colon] from rfl, List.append_assoc, List.cons_append,
    List.nil_append] at hpaired hbits
  refine ⟨((paired_append_cons (by decide)).1 ((paired_append_cons (by decide)).1 hpaired).2).1,
    (isDigits_iff.1 hdigits).1, ?_⟩
  rw [Layout.encode_colon, Layout.encode_colon] at hbits
  unfold powBits
  rw [powBytes_eq]
  simpa [encode] using hbits

end

/-! ## Registrations that are sent -/

/-- A registration passes the check of its proof of work under the stored
    challenge. -/
def PassesPow (c : Crypto) (challenge : Router.Challenge) (body : Json) : Prop :=
  ∀ f, Router.registerShardFields (some body) = .ok f → Router.powFails c f challenge = false

/-- The last answer to a request without a body, which is one for a challenge. -/
def noteReply (m : Option Shard.RouterReply) :
    (o : KvOp Shard.Key Shard.Val (Shard.Service ⊕ Shard.RouterCall)) →
      KvOp.Res (Sum.elim Shard.Service.Res Shard.RouterCall.Res) o → Option Shard.RouterReply
  | .call (.inr ⟨_, none⟩), reply =>
    match (reply : Except JString Shard.RouterReply) with
    | .ok reply => some reply
    | .error _ => m
  | _, _ => m

/-- A body that is sent has the property. -/
def Sends (Q : Json → Prop) : Shard.Service ⊕ Shard.RouterCall → Prop
  | .inl _ => True
  | .inr call => ∀ body ∈ call.body, Q body

section
variable (Q : Option Shard.RouterReply → Json → Prop)

/-- Every body that the program sends has the property `Q`, given the last answer
    that was noted. -/
def SendsOnly {α : Type} (p : Shard.A α) (m : Option Shard.RouterReply) : Prop :=
  p.Follows noteReply (fun m => KvOp.Calls (Sends (Q m))) (fun _ _ => True) m

variable {Q} {m : Option Shard.RouterReply}

theorem widen_sends {α : Type} (p : Shard.M α) :
    (liftM p : Shard.A α).Follows noteReply (fun m => KvOp.Calls (Sends (Q m)))
      (fun m' _ => m' = m) m := by
  induction p with
  | ret a => rfl
  | throw => trivial
  | op o k ih => cases o <;> exact ⟨trivial, fun r => ih r⟩

/-- A program that goes on after one that sends nothing. -/
theorem sendsOnly_after {α β : Type} (p : Shard.M α) {f : α → Shard.A β}
    (hf : ∀ a, SendsOnly Q (f a) m) : SendsOnly Q ((liftM p : Shard.A α).bind f) m :=
  (widen_sends p).bind fun _ a hm => hm ▸ hf a

/-- A request for a challenge is noted with its answer. -/
theorem fetchRouter_sends (url : JString) : (Shard.fetchRouter url none).Follows noteReply
    (fun m => KvOp.Calls (Sends (Q m))) (fun m' answer => ∀ reply, answer = .ok reply →
      m' = some reply) m := by
  refine ⟨fun body hbody => (by cases hbody), fun answer => ?_⟩
  rintro reply rfl
  rfl

theorem postRegistration_sends {routerUrl selfUrl : JString} {identity : Shard.Identity}
    {nonce : Option Json} {solution : JString}
    (h : ∀ (now : ℕ) signature, Q m
      (Shard.registerShardBody selfUrl identity.publicKeyHex nonce solution (digits now) signature)) :
    (Shard.postRegistration routerUrl selfUrl identity nonce solution).Follows noteReply
      (fun m => KvOp.Calls (Sends (Q m))) (fun _ _ => True) m := by
  refine ⟨trivial, fun now => ⟨trivial, fun signature => ⟨?_, fun _ => trivial⟩⟩⟩
  rintro body ⟨⟩
  exact h now signature

end

/-! ### A shard that solves its own challenge -/

/-- The answer tells the difficulty of the challenge that is stored. -/
def Issued (reply : Shard.RouterReply) (challenge : Router.Challenge) : Prop :=
  ∃ v, reply.json = some v ∧ v.field (js "difficulty") = some challenge.difficulty

theorem registerShardBody_fields (selfUrl key : JString) (nonce : Option Json)
    (solution timestamp signature : JString) :
    (Shard.registerShardBody selfUrl key nonce solution timestamp signature).field
        (js "shard_url") = some (.str selfUrl) ∧
      (Shard.registerShardBody selfUrl key nonce solution timestamp signature).field
        (js "nonce") = nonce ∧
      (Shard.registerShardBody selfUrl key nonce solution timestamp signature).field
        (js "solution") = some (.str solution) := by
  cases nonce <;> exact ⟨rfl, rfl, rfl⟩

/-- What the Router reads from a registration. -/
theorem registerShardFields_read {selfUrl key : JString} {nonce : Option Json}
    {solution timestamp signature : JString} {f : Router.RegisterShardFields}
    (h : Router.registerShardFields (some
      (Shard.registerShardBody selfUrl key nonce solution timestamp signature)) = .ok f) :
    f.shardUrl = selfUrl ∧ isHttpUrl selfUrl = true ∧ nonce = some (.str f.nonce) ∧
      f.solution = solution := by
  obtain ⟨⟨hurl, hhttp⟩, -, ⟨hnonce, -⟩, ⟨hsolution, -⟩, -, -⟩ :=
    Router.registerShardFields_eq_ok.1 h
  obtain ⟨hurl', hnonce', hsolution'⟩ :=
    registerShardBody_fields selfUrl key nonce solution timestamp signature
  rw [hurl'] at hurl
  rw [hsolution'] at hsolution
  obtain ⟨⟨⟩⟩ := hurl
  obtain ⟨⟨⟩⟩ := hsolution
  exact ⟨rfl, hhttp, hnonce'.symm.trans hnonce, rfl⟩

/-- The check of the Router is about the bits that the proof of work reaches. -/
theorem powFails_eq_false {c : Crypto} {f : Router.RegisterShardFields}
    {challenge : Router.Challenge} : Router.powFails c f challenge = false ↔
      (Number.ofInt (powBits c f.nonce f.shardUrl f.solution)).lt
        (challenge.difficulty.toNumber.getD .nan) = false := Iff.rfl

theorem lt_eq_false_of_le {a b : Number} (h : a.le b = true) : b.lt a = false := by
  cases a with
  | nan => cases h
  | inf s =>
    cases b with
    | nan => cases h
    | inf s' => cases s <;> cases s' <;> simp_all [Number.le, Number.lt]
    | fin b => simp_all [Number.le, Number.lt]
  | fin a =>
    cases b with
    | nan => cases h
    | inf s' => simp_all [Number.le, Number.lt]
    | fin b => simpa [Number.le, Number.lt] using h

theorem shardSolvePow_spec {c : Crypto} {nonce selfUrl solution : JString} {difficulty : Number}
    (h : Shard.solvePow c nonce selfUrl difficulty = some solution) :
    difficulty.le (.ofInt (powBits c nonce selfUrl solution)) = true := by
  unfold Shard.solvePow at h
  have hfound := List.find?_some h
  exact hfound

/-- The difficulty that is stored with a challenge. -/
def storedDifficulty (difficulty : Number) : Json :=
  if difficulty.isFinite then .num difficulty else .null

/-- The bits reach a difficulty that is stored with the challenge. -/
theorem lt_ofInt_eq_false {bits : ℕ} {x : Dec} : (Number.ofInt bits).lt
    ((storedDifficulty (.fin x)).toNumber.getD .nan) = false ↔ x.val ≤ bits := by
  have hlt : (Number.ofInt bits).lt (.fin x) = true ↔ ((bits : ℤ) : ℚ) < x.val := Number.ofInt_lt
  rw [← Bool.not_eq_true]
  refine (not_congr hlt).trans ?_
  rw [not_lt, Int.cast_natCast]

/-- What the shard's own solver returns meets the difficulty of the answer. -/
theorem solved_passes {c : Crypto} {reply : Shard.RouterReply} {nonce : Option Json}
    {difficulty : Number} {solution : JString} {challenge : Router.Challenge}
    (hchallenge : Shard.challengeOf reply = some (nonce, difficulty)) (hissued : Issued reply challenge)
    {selfUrl publicKeyHex timestamp signature : JString}
    (hsolved : ((Shard.templateText nonce).bind fun text =>
      Shard.solvePow c text selfUrl difficulty) = some solution) :
    PassesPow c challenge
      (Shard.registerShardBody selfUrl publicKeyHex nonce solution timestamp signature) := by
  intro f hf
  obtain ⟨rfl, -, rfl, rfl⟩ := registerShardFields_read hf
  obtain ⟨v, hjson, hdifficulty⟩ := hissued
  have hnumber : challenge.difficulty.toNumber = some difficulty := by
    unfold Shard.challengeOf at hchallenge
    rw [hjson] at hchallenge
    cases v with
    | null => cases hchallenge
    | _ =>
      obtain ⟨d, hd, heq⟩ := Option.map_eq_some_iff.1 hchallenge
      rw [hdifficulty] at hd
      obtain ⟨-, rfl⟩ := Prod.mk.inj heq
      exact hd
  have hstr : Shard.templateText (some (.str f.nonce)) = some f.nonce := by
    rw [Shard.templateText, Json.toStr]
  rw [hstr, Option.bind_some] at hsolved
  rw [powFails_eq_false, hnumber]
  exact lt_eq_false_of_le (shardSolvePow_spec hsolved)

/-- **What the shard solves itself passes.** -/
theorem ensureSelfRegistered_passes (env : Shard.AdminEnv) (fresh : Shard.Identity) :
    SendsOnly (fun m body => ∀ reply ∈ m, ∀ challenge, Issued reply challenge →
      PassesPow env.crypto challenge body) (Shard.ensureSelfRegistered env fresh) none := by
  unfold Shard.ensureSelfRegistered
  split
  · refine sendsOnly_after _ fun due => ?_
    split
    · refine sendsOnly_after _ fun identity => ?_
      split
      · trivial
      · refine (fetchRouter_sends _).bind fun m answer hnoted => ?_
        rcases answer with e | reply
        · trivial
        · obtain rfl := hnoted reply rfl
          dsimp only
          split
          · trivial
          · split
            · trivial
            · next nonce difficulty hchallenge =>
              split
              · trivial
              · next solution hsolved =>
                refine (postRegistration_sends (Q := fun m body => ∀ reply ∈ m, ∀ challenge,
                  Issued reply challenge → PassesPow env.crypto challenge body) ?_).bind
                    fun m reg _ => ?_
                · rintro now signature _ ⟨⟩ challenge hissued
                  exact solved_passes hchallenge hissued hsolved
                · rcases reg with e | regResp
                  · trivial
                  · dsimp only
                    split
                    · trivial
                    · exact ⟨trivial, fun _ => ⟨trivial, fun _ => trivial⟩⟩
    · trivial
  · trivial

/-! ### A shard that is handed a solution -/

section
variable {env : Shard.AdminEnv} {authorization : Option JString} {fresh : Shard.Identity}
  {m : Option Shard.RouterReply} {Q : Json → Prop} {nonce solution router selfUrl : JString}

theorem shardStrField_eq_some {v : Option Json} {s : JString} :
    Shard.strField v = some s ↔ v = some (.str s) ∧ s ≠ [] := Router.strField_eq_some

/-- What the shard reads from the operator. -/
theorem adminRegisterFields_spec {body : Json}
    (h : Shard.adminRegisterFields env (some body) = .ok (nonce, solution, router, selfUrl)) :
    body.field (js "nonce") = some (.str nonce) ∧
      body.field (js "solution") = some (.str solution) ∧ env.selfUrl = some selfUrl := by
  unfold Shard.adminRegisterFields at h
  obtain ⟨_, ⟨⟩, h⟩ := Check.orAnswer_bind.1 h
  obtain ⟨n, hn, h⟩ := Check.orAnswer_bind.1 h
  obtain ⟨s, hs, h⟩ := Check.orAnswer_bind.1 h
  obtain ⟨r, -, h⟩ := Check.bind_eq_ok.1 h
  obtain ⟨-, h⟩ := Check.require_bind.1 h
  obtain ⟨u, hu, ⟨⟩⟩ := Check.orAnswer_bind.1 h
  exact ⟨(shardStrField_eq_some.1 hn).1, (shardStrField_eq_some.1 hs).1,
    (Option.filter_eq_some_iff.1 hu).1⟩

theorem adminRegister_sends {body : Option Json}
    (h : ∀ nonce solution router selfUrl,
      Shard.adminRegisterFields env body = .ok (nonce, solution, router, selfUrl) →
        ∀ key (now : ℕ) signature, Q (Shard.registerShardBody selfUrl key (some (.str nonce)) solution
          (digits now) signature)) :
    SendsOnly (fun _ => Q) (Shard.handleAdminRegister env authorization body fresh) m := by
  unfold Shard.handleAdminRegister
  split
  · trivial
  · unfold guarded
    split
    · next fields hfields =>
      refine sendsOnly_after _ fun identity => ?_
      refine (postRegistration_sends (Q := fun _ => Q) fun now signature =>
        h _ _ _ _ hfields _ now signature).bind fun m reg _ => ?_
      rcases reg with e | regResp
      · trivial
      · dsimp only
        split
        · trivial
        · exact ⟨trivial, fun _ => ⟨trivial, fun _ => trivial⟩⟩
    · trivial
    · trivial

/-- A registration is sent, with the key that the store has. -/
theorem adminRegister_sent {body : Option Json}
    (hauth : Shard.isUnauthorized env authorization = false)
    (hfields : Shard.adminRegisterFields env body = .ok (nonce, solution, router, selfUrl))
    (h : SendsOnly (fun _ => Q) (Shard.handleAdminRegister env authorization body fresh) m)
    (key : JString) (now : ℕ) (signature : JString) :
    Q (Shard.registerShardBody selfUrl key (some (.str nonce)) solution (digits now) signature) := by
  unfold Shard.handleAdminRegister guarded at h
  rw [hauth, hfields] at h
  obtain ⟨-, hidentity⟩ := h
  obtain ⟨-, hnow⟩ := hidentity (some ⟨key, []⟩)
  obtain ⟨-, hsign⟩ := hnow now
  exact (hsign signature).1 _ rfl

end

/-! ### The URLs of the operator and of the shard -/

/-- What `solve.py` has when it posts a solution. -/
theorem main_spec {c : Crypto} {fuel : ℕ} {args : Solve.Args} {info : Solve.Info}
    {challenge : Solve.Challenge} {payload : Json}
    (h : Solve.main c fuel args info challenge = some payload) :
    ∃ d solution routerUrl, Solve.int challenge.difficulty = some d ∧ d ≠ 0 ∧
      Solve.solvePow c fuel challenge.nonce (Solve.rstrip args.shardUrl) d = some solution ∧
      payload = .obj [(js "nonce", .str challenge.nonce), (js "solution", .str solution),
        (js "router_url", .str routerUrl)] := by
  unfold Solve.main at h
  dsimp only at h
  split at h
  · cases h
  split at h
  · cases h
  obtain ⟨d, hd, h⟩ := Option.bind_eq_some_iff.1 h
  split at h
  · cases h
  · next hgo =>
    obtain ⟨solution, hsolution, ⟨⟩⟩ := Option.bind_eq_some_iff.1 h
    refine ⟨d, solution, _, hd, ?_, hsolution, rfl⟩
    intro hzero
    exact hgo (by simp [hzero])

/-- `int(x)` of a number other than a fraction between -1 and 1. -/
theorem int_spec {difficulty : Number} {d : ℤ} (h : Solve.int difficulty = some d) :
    ∃ x : Dec, difficulty = .fin x ∧
      ((x.val < 0 ∧ d = ⌈x.val⌉) ∨ (0 ≤ x.val ∧ d = ⌊x.val⌋)) := by
  cases difficulty with
  | nan => cases h
  | inf s => cases h
  | fin x =>
    refine ⟨x, rfl, ?_⟩
    obtain rfl := Option.some.inj h
    by_cases hneg : x.val < 0
    · exact Or.inl ⟨hneg, by rw [if_pos hneg, Dec.ceil_eq]⟩
    · refine Or.inr ⟨not_lt.1 hneg, ?_⟩
      rw [if_neg hneg, Dec.ceil_eq, Dec.val_neg, Int.ceil_neg, neg_neg]

/-- Every registration that follows from a run of `solve.py` passes. -/
def SolvedPass (selfUrl shardUrl : JString) (difficulty : Number) : Prop :=
  ∀ (env : Shard.AdminEnv) (fuel : ℕ) (args : Solve.Args) (info : Solve.Info) (nonce : JString)
    (expiresAt : ℕ) (payload : Json), env.selfUrl = some selfUrl → args.shardUrl = shardUrl →
    Solve.main env.crypto fuel args info ⟨nonce, difficulty⟩ = some payload →
      ∀ authorization fresh, SendsOnly
        (fun _ => PassesPow env.crypto ⟨storedDifficulty difficulty, expiresAt⟩)
        (Shard.handleAdminRegister env authorization (some payload) fresh) none

/-- There is a challenge to solve: a digest can meet the difficulty, the Router reads
    the URL, and the command line can be encoded. -/
structure Solvable (selfUrl shardUrl : JString) (difficulty : Number) : Prop where
  difficulty : ∃ x : Dec, difficulty = .fin x ∧ 1 ≤ x.val ∧ x.val < 257
  selfUrl : isHttpUrl selfUrl = true
  shardUrl : Paired (Solve.rstrip shardUrl)

/-- The command line and the configuration have the same bytes, and no bit is lost
    in the rounding. -/
structure SpelledAlike (selfUrl shardUrl : JString) (difficulty : Number) : Prop where
  url : encode (Solve.rstrip shardUrl) = encode selfUrl
  whole : difficulty.toInt?.isSome = true

section
variable {selfUrl shardUrl : JString} {difficulty : Number}

/-- A solution for the same bytes and a whole difficulty passes. -/
theorem solvedPass_of_alike
    (h : Solvable selfUrl shardUrl difficulty → SpelledAlike selfUrl shardUrl difficulty) :
    SolvedPass selfUrl shardUrl difficulty := by
  rintro env fuel args info nonce expiresAt payload hself rfl hmain authorization fresh
  obtain ⟨d, solution, routerUrl, hd, hzero, hsolution, rfl⟩ := main_spec hmain
  obtain ⟨x, hx, hround⟩ := int_spec hd
  dsimp only at hx hsolution
  obtain ⟨hpaired, -, hbits⟩ := solvePow_spec hsolution
  have hle := @powBits_le env.crypto nonce (Solve.rstrip args.shardUrl) solution
  refine adminRegister_sends fun n s r u hfields key now signature f hf => ?_
  obtain ⟨hn, hs, hu⟩ := adminRegisterFields_spec hfields
  obtain rfl : nonce = n := Json.str.inj (Option.some.inj hn)
  obtain rfl : solution = s := Json.str.inj (Option.some.inj hs)
  obtain rfl : selfUrl = u := Option.some.inj (hself.symm.trans hu)
  obtain ⟨rfl, hhttp, hnonce, rfl⟩ := registerShardFields_read hf
  obtain rfl : nonce = f.nonce := Json.str.inj (Option.some.inj hnonce)
  have hreached : x.val ≤ powBits env.crypto f.nonce f.shardUrl f.solution := by
    rcases hround with ⟨hneg, rfl⟩ | ⟨hpos, rfl⟩
    · exact hneg.le.trans (Nat.cast_nonneg _)
    · have hone : (1 : ℤ) ≤ ⌊x.val⌋ := by
        have := Int.floor_nonneg.2 hpos
        omega
      have hmax : ⌊x.val⌋ < 257 := by omega
      obtain ⟨hurl, hwhole⟩ := h ⟨⟨x, hx, by exact_mod_cast Int.le_floor.1 hone,
        by exact_mod_cast Int.floor_lt.1 hmax⟩, hhttp, hpaired⟩
      obtain ⟨k, hk⟩ := Option.isSome_iff_exists.1 hwhole
      obtain ⟨_, hfin, hval⟩ := Number.toInt?_eq_some.1 hk
      obtain rfl := Number.fin.inj (hx.symm.trans hfin)
      rw [hval, Int.floor_intCast] at hbits
      rw [hval, powBits, ← powBytes_inj.2 hurl]
      exact_mod_cast hbits
  rw [powFails_eq_false, hx]
  exact lt_ofInt_eq_false.2 hreached

end

/-! ### A hash that tells two URLs apart -/

/-- Bytes with a given number of leading zero bits. -/
def bitsBytes (n : ℕ) : Bytes :=
  (List.replicate (n / 8) 0 ++ UInt8.ofNat (2 ^ (7 - n % 8)) :: List.replicate 32 0).take 32

theorem length_bitsBytes (n : ℕ) : (bitsBytes n).length = 32 := by simp [bitsBytes]

theorem leadingZeroBits_replicate (k : ℕ) (bytes : Bytes) :
    leadingZeroBits (List.replicate k 0 ++ bytes) = 8 * k + leadingZeroBits bytes := by
  induction k with
  | zero => simp
  | succ k ih =>
    rw [List.replicate_succ, List.cons_append, leadingZeroBits, if_pos rfl, ih]
    omega

theorem leadingZeros_pow : ∀ r < 8, UInt8.ofNat (2 ^ (7 - r)) ≠ 0 ∧
    leadingZeros (UInt8.ofNat (2 ^ (7 - r))) = r := by decide

theorem leadingZeroBits_bitsBytes {n : ℕ} (hn : n ≤ 256) : leadingZeroBits (bitsBytes n) = n := by
  unfold bitsBytes
  rcases Nat.lt_or_ge n 256 with hlt | hge
  · obtain ⟨k, hk⟩ : ∃ k, 32 - n / 8 = k + 1 := ⟨31 - n / 8, by omega⟩
    have hbyte := leadingZeros_pow (n % 8) (by omega)
    rw [List.take_append, List.take_of_length_le (by simp; omega), List.length_replicate, hk,
      List.take_succ_cons, leadingZeroBits_replicate, leadingZeroBits, if_neg hbyte.1, hbyte.2]
    omega
  · obtain rfl : n = 256 := by omega
    decide

/-- A platform whose hash of some bytes has a given number of leading zero bits, and
    of other bytes none. -/
def marking (bytes : Bytes) (n : ℕ) : Crypto :=
  { Crypto.trusting with
    sha256 := fun b =>
      ⟨bitsBytes (if b = bytes then n else 0), length_bitsBytes (if b = bytes then n else 0)⟩ }

section
variable {selfUrl shardUrl : JString} {difficulty : Number}

theorem powBits_marking {url url' : JString} {nonce solution : JString} {n : ℕ} (hn : n ≤ 256) :
    powBits (marking (powBytes nonce url solution) n) nonce url' solution =
      if encode url' = encode url then n else 0 := by
  have hbits : powBits (marking (powBytes nonce url solution) n) nonce url' solution =
      if powBytes nonce url' solution = powBytes nonce url solution then n else 0 :=
    leadingZeroBits_bitsBytes (by split <;> omega)
  simp only [hbits, powBytes_inj]

/-- The first number that is tried may be the solution. -/
theorem solvePow_first {c : Crypto} {nonce url : JString} {d : ℤ} (hnonce : Paired nonce)
    (hurl : Paired url) (h : d ≤ powBits c nonce url (digits 0)) :
    Solve.solvePow c 1 nonce url d = some (digits 0) := by
  have hpaired : Paired (nonce ++ colon :: (url ++ [colon])) :=
    (paired_append_cons (by decide)).2 ⟨hnonce, (paired_append_cons (by decide)).2 ⟨hurl, trivial⟩⟩
  have hpre : nonce ++ js ":" ++ url ++ js ":" = nonce ++ colon :: (url ++ [colon]) := by
    simp only [show js ":" = [colon] from rfl, List.append_assoc, List.cons_append, List.nil_append]
  have hbytes : encode (nonce ++ colon :: (url ++ [colon])) ++ encode (digits 0) =
      powBytes nonce url (digits 0) := by
    rw [powBytes_eq, Layout.encode_colon, Layout.encode_colon]
    simp [encode]
  unfold Solve.solvePow Solve.encodeStrict
  rw [hpre, if_pos hpaired]
  refine if_pos ?_
  rw [hbytes, leadingZeroBits_eq]
  exact h

/-- A registration under a URL that the Router reads. -/
theorem registerShardFields_posted {nonce solution : JString} (hurl : isHttpUrl selfUrl = true)
    (hnonce : nonce ≠ []) (hsolution : solution ≠ []) (pk : HexStr 64 64) (ts : DigitStr)
    (signature : HexStr 128 128) :
    Router.registerShardFields (some (Shard.registerShardBody selfUrl pk.1 (some (.str nonce)) solution
      ts.1 signature.1)) = .ok
        { shardUrl := selfUrl, shardPubkey := { val := pk, isString := true }, nonce, solution
          timestamp := { val := ts, isString := true }
          signature := { val := signature, isString := true } } :=
  Router.registerShardFields_eq_ok.2 ⟨⟨rfl, hurl⟩, testedField_hex (by decide) _ _, ⟨rfl, hnonce⟩,
    ⟨rfl, hsolution⟩, testedField_timestamp ts _, testedField_hex (by decide) _ _⟩

/-- A challenge that both spellings have to solve is one that only the same bytes
    solve. -/
theorem alike_of_solvedPass (h : SolvedPass selfUrl shardUrl difficulty)
    (hs : Solvable selfUrl shardUrl difficulty) : SpelledAlike selfUrl shardUrl difficulty := by
  obtain ⟨⟨x, rfl, hone, hmax⟩, hhttp, hpaired⟩ := hs
  obtain ⟨n, hn⟩ : ∃ n : ℕ, ⌊x.val⌋ = n := Int.eq_ofNat_of_zero_le (Int.floor_nonneg.2 (by linarith))
  have hn1 : 1 ≤ n := by
    have hle : (1 : ℤ) ≤ ⌊x.val⌋ := Int.le_floor.2 (by exact_mod_cast hone)
    omega
  have hn256 : n ≤ 256 := by
    have hlt : ⌊x.val⌋ < 257 := Int.floor_lt.2 (by exact_mod_cast hmax)
    omega
  have hne : selfUrl ≠ [] := by
    rintro rfl
    cases hhttp
  let c := marking (powBytes (js "n") (Solve.rstrip shardUrl) (digits 0)) n
  let env : Shard.AdminEnv :=
    { toEnv := { Shard.trustingEnv {} with selfUrl := some selfUrl, crypto := c } }
  have hint : Solve.int (.fin x) = some (n : ℤ) := by
    unfold Solve.int
    dsimp only
    rw [if_neg (by linarith), Dec.ceil_eq, Dec.val_neg, Int.ceil_neg, neg_neg, hn]
  have hsolution : Solve.solvePow c 1 (js "n") (Solve.rstrip shardUrl) n = some (digits 0) := by
    refine solvePow_first (by decide) hpaired ?_
    rw [powBits_marking hn256, if_pos rfl]
  have hmain : Solve.main c 1 ⟨shardUrl, some (js "http://r")⟩ ⟨js "p", none⟩ ⟨js "n", .fin x⟩ =
      some (.obj [(js "nonce", .str (js "n")), (js "solution", .str (digits 0)),
        (js "router_url", .str (js "http://r"))]) := by
    have hrouter : Solve.rstrip (((Shard.nonEmpty (some (js "http://r"))).or none).getD []) =
        js "http://r" := by decide
    have hgo : ¬ ((js "n").isEmpty || decide ((n : ℤ) = 0)) = true := by
      rw [show (js "n").isEmpty = false by decide, Bool.false_or, decide_eq_true_eq]
      omega
    unfold Solve.main
    dsimp only
    rw [hrouter, hint, if_neg (show ¬ (js "p").isEmpty = true by decide),
      if_neg (show ¬ (js "http://r").isEmpty = true by decide), Option.bind_eq_bind, Option.bind_some,
      if_neg hgo, hsolution]
    rfl
  have hpass := h env 1 _ _ _ 0 _ rfl rfl hmain none ⟨[], []⟩
  have hfields : Shard.adminRegisterFields env (some (.obj [(js "nonce", .str (js "n")),
      (js "solution", .str (digits 0)), (js "router_url", .str (js "http://r"))])) =
        .ok (js "n", digits 0, js "http://r", selfUrl) := by
    have htarget : Shard.targetRouter env (some (.str (js "http://r"))) = .ok (js "http://r") := by
      unfold Shard.targetRouter
      rw [if_pos (by decide), Json.asStr?, Option.map_some,
        show Shard.dropSlash (js "http://r") = js "http://r" by decide]
      rfl
    unfold Shard.adminRegisterFields
    refine Check.orAnswer_bind.2 ⟨_, rfl, Check.orAnswer_bind.2 ⟨js "n", by decide, ?_⟩⟩
    refine Check.orAnswer_bind.2 ⟨digits 0, by decide, Check.bind_eq_ok.2 ⟨_, htarget, ?_⟩⟩
    refine Check.require_bind.2 ⟨by decide, Check.orAnswer_bind.2 ⟨selfUrl, ?_, rfl⟩⟩
    exact Option.filter_eq_some_iff.2 ⟨rfl, by simpa using hne⟩
  have hsent := adminRegister_sent rfl hfields hpass (Shard.letters 64) 0 (Shard.letters 128)
  have hread := registerShardFields_posted hhttp (show js "n" ≠ [] by decide)
    (show digits 0 ≠ [] by decide) (Shard.hexLetters 64 (by omega)) ⟨digits 0, isDigits_digits 0⟩
    (Shard.hexLetters 128 (by omega))
  have hreached := lt_ofInt_eq_false.1 (powFails_eq_false.1 (hsent _ hread))
  rw [powBits_marking hn256] at hreached
  split at hreached
  · next hurl =>
    have hval : x.val = (n : ℤ) := by
      have hfloor := Int.floor_le x.val
      rw [hn] at hfloor
      exact le_antisymm (by exact_mod_cast hreached) hfloor
    exact ⟨hurl.symm, by rw [Number.toInt?_eq_some.2 ⟨x, rfl, hval⟩]; rfl⟩
  · norm_num at hreached
    linarith

/-- Every registration under a solved challenge passes the check of the Router:
    those of a shard that solves it, and those that are handed a solution. -/
structure SolvedAccepted (selfUrl shardUrl : JString) (difficulty : Number) : Prop where
  self : ∀ (env : Shard.AdminEnv) (fresh : Shard.Identity), env.selfUrl = some selfUrl →
    SendsOnly (fun m body => ∀ reply ∈ m, ∀ challenge, Issued reply challenge →
      PassesPow env.crypto challenge body) (Shard.ensureSelfRegistered env fresh) none
  handed : SolvedPass selfUrl shardUrl difficulty

end

/-- **Every solved challenge is accepted**, whatever the hash, exactly if the command
    line and the configuration of the shard spell the URL with the same bytes and the
    difficulty is a whole number, unless there is nothing to solve. -/
theorem solved_accepted_iff (selfUrl shardUrl : JString) (difficulty : Number) :
    SolvedAccepted selfUrl shardUrl difficulty ↔
      (Solvable selfUrl shardUrl difficulty → SpelledAlike selfUrl shardUrl difficulty) := by
  constructor
  · intro h
    exact alike_of_solvedPass h.handed
  · intro h
    exact ⟨fun env fresh _ => ensureSelfRegistered_passes env fresh, solvedPass_of_alike h⟩

/-! ### A slash at the end -/

/-- A shard URL with a slash at its end. -/
def slashUrl : JString := js "https://shard-a.example.workers.dev/"

/-- A nonce for it. -/
def slashNonce : JString := js "00000000000000000000000000000055"

/-- SHA-256 on the two texts that are hashed for the first number. -/
def recorded : Crypto :=
  { Crypto.trusting with
    sha256 := fun b =>
      if b = powBytes slashNonce (Solve.rstrip slashUrl) (js "0") then
        ⟨[0, 160, 150, 194, 10, 62, 254, 150, 201, 38, 8, 44, 203, 92, 69, 207, 227, 14, 43, 57, 41,
          149, 154, 151, 42, 38, 106, 181, 37, 53, 139, 167], rfl⟩
      else
        ⟨[30, 225, 231, 58, 245, 137, 185, 154, 4, 195, 5, 65, 206, 218, 52, 116, 19, 89, 3, 11, 171,
          245, 185, 192, 40, 163, 195, 105, 100, 16, 197, 154], rfl⟩ }

/-- A shard whose `SELF_URL` ends with a slash. -/
def slashEnv : Shard.AdminEnv :=
  { toEnv := { Shard.trustingEnv {} with selfUrl := some slashUrl, crypto := recorded } }

/-- The body of `/admin/register` with this nonce. -/
def slashPayload : Json :=
  .obj [(js "nonce", .str slashNonce), (js "solution", .str (digits 0)),
    (js "router_url", .str (js "http://r"))]

/-- The command line repeats the configured URL, and `solve.py` drops its slash. -/
theorem trailing_slash_refused :
    ¬ ∀ selfUrl shardUrl difficulty, SolvedAccepted selfUrl shardUrl difficulty := by
  intro h
  have hmain : Solve.main recorded 1 ⟨slashUrl, some (js "http://r")⟩ ⟨js "p", none⟩
      ⟨slashNonce, .ofInt 8⟩ = some slashPayload := by rfl
  have hpass := (h slashUrl slashUrl (.ofInt 8)).handed slashEnv 1 _ _ _ 120000 _ rfl rfl hmain
    none ⟨[], []⟩
  have hfields : Shard.adminRegisterFields slashEnv (some slashPayload) =
      .ok (slashNonce, digits 0, js "http://r", slashUrl) := by rfl
  have hsent := adminRegister_sent rfl hfields hpass (Shard.letters 64) 0 (Shard.letters 128)
  have hread := registerShardFields_posted (show isHttpUrl slashUrl = true by decide)
    (show slashNonce ≠ [] by decide) (show digits 0 ≠ [] by decide)
    (Shard.hexLetters 64 (by omega)) ⟨digits 0, isDigits_digits 0⟩ (Shard.hexLetters 128 (by omega))
  have hpow := hsent _ hread
  revert hpow
  decide +kernel

end Agreement
