/-
  What a signed text says about the fields that were signed.

  * `SignedFields` are the fields of the seven formats, with keys in lower case,
    and `Builds` relates checked fields to the text that a handler signs or
    verifies for them;
  * `text_determines_iff`: the text determines the fields, except that in a
    greeting a `:` of the protocol or of the nonce may be taken for the
    separator;
  * `bytes_determine_iff`: so does a signature, if, besides, the bytes of the
    free text determine it.
-/
import NexTalkRelay.Js.Layout
import NexTalkRelay.Js.NumberText
import NexTalkRelay.Shard.Admin
import NexTalkRelay.Capability.Separation

open Effect Js

namespace Capability

/-! ## Formats -/

/-- The fields of a format, as they stand in its text. -/
inductive SignedFields where
  | register (pubkey timestamp : JString)
  | registerShard (shardUrl shardPubkey timestamp : JString)
  | keyRotation (shardUrl oldPubkey newPubkey timestamp : JString)
  | keyRotationAccept (shardUrl oldPubkey newPubkey timestamp : JString)
  | capability (mailboxId clientPubkey : JString) (capExp : Number) (nonce : JString)
  | response (requestId : JString) (status timestamp : ℕ) (bodyHash : JString)
  | hello (protocol nonce : JString) (timestamp : ℕ)

/-- The seven texts that are signed. -/
inductive Format where
  | register
  | registerShard
  | keyRotation
  | keyRotationAccept
  | capability
  | response
  | hello

/-- Which of them it is. -/
def SignedFields.format : SignedFields → Format
  | register .. => .register
  | registerShard .. => .registerShard
  | keyRotation .. => .keyRotation
  | keyRotationAccept .. => .keyRotationAccept
  | capability .. => .capability
  | response .. => .response
  | hello .. => .hello

section
variable (env : Router.Env)

/-- The fields have passed the checks of the handler, which builds or verifies
    the text. -/
inductive Builds : SignedFields → JString → Prop
  | register {body : Option Json} {f : Router.RegisterFields} {pubkey : HexStr 64 64}
      (checked : Router.registerFields body = .ok f) (string : f.pubkey.str? = some pubkey) :
      Builds (.register pubkey.lower f.timestamp.val.1) (Router.registerMessage f pubkey)
  | registerShard {body : Option Json} {f : Router.RegisterShardFields} {shardPubkey : HexStr 64 64}
      (checked : Router.registerShardFields body = .ok f)
      (string : f.shardPubkey.str? = some shardPubkey) :
      Builds (.registerShard f.shardUrl shardPubkey.lower f.timestamp.val.1)
        (Router.registerShardMessage f shardPubkey)
  | keyRotation {body : Option Json} {f : Router.RotateFields}
      (checked : Router.rotateFields body = .ok f) :
      Builds (.keyRotation f.shardUrl f.oldPubkey.lower f.newPubkey.lower f.timestamp.val.1)
        (Router.migrationMsg f)
  | keyRotationAccept {body : Option Json} {f : Router.RotateFields}
      (checked : Router.rotateFields body = .ok f) :
      Builds (.keyRotationAccept f.shardUrl f.oldPubkey.lower f.newPubkey.lower f.timestamp.val.1)
        (Router.acceptMsg f)
  | capability {body : Option Json} {f : Shard.CreateFields}
      {clientPubkey : Tested (HexStr 64 64)} {nonce : JString} {pk : HexStr 64 64} {text : JString}
      (checked : Shard.createFields body = .ok f) (version : f.cap = .v2 clientPubkey nonce)
      (string : clientPubkey.str? = some pk) (message : f.message = some text) :
      Builds (.capability f.mailboxId.lower pk.lower f.capExp nonce) text
  | response {requestId : Json} {requestText : JString} (status timestamp : ℕ) (bodyJson : JString)
      (given : Json.truthy (some requestId) = true) (string : requestId.toStr = some requestText) :
      Builds (.response requestText status timestamp (env.crypto.sha256Hex bodyJson))
        (Router.responseText requestText status (digits timestamp) (env.crypto.sha256Hex bodyJson))
  | hello {body : Option Json} {protocol nonce : JString} (timestamp : ℕ)
      (checked : Router.helloFields body = .ok (nonce, protocol)) :
      Builds (.hello protocol nonce timestamp)
        (Router.helloText protocol nonce env.routerSigningPublic (digits timestamp))

/-- How the text of the fields is put together. -/
def SignedFields.layout : SignedFields → Layout
  | register pubkey timestamp => ⟨js "register:", [], pubkey, [timestamp]⟩
  | registerShard shardUrl shardPubkey timestamp =>
    ⟨js "register_shard:", [], shardUrl, [shardPubkey, timestamp]⟩
  | keyRotation shardUrl oldPubkey newPubkey timestamp =>
    ⟨js "key_rotation:", [], shardUrl, [oldPubkey, newPubkey, timestamp]⟩
  | keyRotationAccept shardUrl oldPubkey newPubkey timestamp =>
    ⟨js "key_rotation_accept:", [], shardUrl, [oldPubkey, newPubkey, timestamp]⟩
  | capability mailboxId clientPubkey capExp nonce =>
    ⟨js "cap:v2:", [mailboxId, clientPubkey, js "mailbox.create", capExp.text], nonce, []⟩
  | response requestId status timestamp bodyHash =>
    ⟨[], [], requestId, [digits status, digits timestamp, bodyHash]⟩
  | hello protocol nonce timestamp =>
    ⟨js "NexTalk Server Authentication:", [],
      (protocol ++ colon :: nonce) ++ colon :: env.routerSigningPublic, [digits timestamp]⟩

end

section
variable {env : Router.Env} {T T' : SignedFields} {text text' : JString}

theorem ascii_heads : Ascii (js "register:") ∧ Ascii (js "register_shard:") ∧
    Ascii (js "key_rotation:") ∧ Ascii (js "key_rotation_accept:") ∧ Ascii (js "cap:v2:") ∧
    Ascii (js "NexTalk Server Authentication:") :=
  ⟨ascii_of_all (by decide), ascii_of_all (by decide), ascii_of_all (by decide),
    ascii_of_all (by decide), ascii_of_all (by decide), ascii_of_all (by decide)⟩

/-- The texts of the handlers have these layouts. -/
theorem Builds.text_eq (h : Builds env T text) : text = (T.layout env).text := by
  have hc : js ":" = [colon] := by decide
  unfold Layout.text
  cases h with
  | register => simp [SignedFields.layout, Delim.trailing, Delim.fields, Router.registerMessage, hc]
  | registerShard =>
    simp [SignedFields.layout, Delim.trailing, Delim.fields, Router.registerShardMessage, hc]
  | keyRotation =>
    have hhead : js "key_rotation:" = js "key_rotation" ++ [colon] := by decide
    simp [SignedFields.layout, Delim.trailing, Delim.fields, Router.migrationMsg,
      Router.rotationMessage, hc, hhead]
  | keyRotationAccept =>
    have hhead : js "key_rotation_accept:" = js "key_rotation_accept" ++ [colon] := by decide
    simp [SignedFields.layout, Delim.trailing, Delim.fields, Router.acceptMsg,
      Router.rotationMessage, hc, hhead]
  | capability _ version string message =>
    unfold Shard.CreateFields.message at message
    rw [version] at message
    dsimp only at message
    rw [string] at message
    obtain rfl := Option.some.inj message
    simp [SignedFields.layout, Delim.trailing, Delim.fields, Shard.capTextV2, hc]
  | response => simp [SignedFields.layout, Delim.trailing, Delim.fields, Router.responseText, hc]
  | hello => simp [SignedFields.layout, Delim.trailing, Delim.fields, Router.helloText, hc]

theorem Builds.plain (h : Builds env T text) : (T.layout env).Plain := by
  obtain ⟨h1, h2, h3, h4, h5, h6⟩ := ascii_heads
  have hnil : ∀ f ∈ ([] : List JString), Field f := by rintro _ ⟨⟩
  cases h with
  | @register _ f =>
    refine ⟨h1, hnil, ?_⟩
    simpa [SignedFields.layout] using Field.digits f.timestamp.val.2
  | @registerShard _ f pk =>
    refine ⟨h2, hnil, ?_⟩
    simpa [SignedFields.layout] using ⟨Field.hex pk.isHexOf_lower, Field.digits f.timestamp.val.2⟩
  | @keyRotation _ f =>
    refine ⟨h3, hnil, ?_⟩
    simpa [SignedFields.layout] using ⟨Field.hex f.oldPubkey.isHexOf_lower,
      Field.hex f.newPubkey.isHexOf_lower, Field.digits f.timestamp.val.2⟩
  | @keyRotationAccept _ f =>
    refine ⟨h4, hnil, ?_⟩
    simpa [SignedFields.layout] using ⟨Field.hex f.oldPubkey.isHexOf_lower,
      Field.hex f.newPubkey.isHexOf_lower, Field.digits f.timestamp.val.2⟩
  | @capability _ f _ _ pk _ checked _ _ _ =>
    obtain ⟨d, hd⟩ := Number.isFinite_iff.1 (createFields_spec checked).1
    refine ⟨h5, ?_, hnil⟩
    have hexp : Field f.capExp.text := by
      rw [hd]
      exact ⟨d.ascii_text, d.colon_notMem_text⟩
    have hscope : Field (js "mailbox.create") := ⟨ascii_of_all (by decide), by decide⟩
    simpa [SignedFields.layout] using ⟨Field.hex f.mailboxId.isHexOf_lower,
      Field.hex pk.isHexOf_lower, hscope, hexp⟩
  | response status timestamp bodyJson =>
    refine ⟨by rintro _ ⟨⟩, hnil, ?_⟩
    simpa [SignedFields.layout] using ⟨Field.digits (isDigits_digits status),
      Field.digits (isDigits_digits timestamp), Field.hex (env.crypto.isHexOf_sha256Hex bodyJson)⟩
  | hello timestamp =>
    refine ⟨h6, hnil, ?_⟩
    simpa [SignedFields.layout] using Field.digits (isDigits_digits timestamp)

theorem SignedFields.fits (h : T'.format = T.format) : (T'.layout env).Fits (T.layout env) := by
  cases T <;> cases T' <;> first | cases h; done | exact ⟨rfl, rfl, rfl⟩

theorem Builds.capExp_finite {mailboxId clientPubkey nonce : JString} {capExp : Number}
    (h : Builds env (.capability mailboxId clientPubkey capExp nonce) text) :
    ∃ d, capExp = .fin d := by
  cases h with
  | capability checked => exact Number.isFinite_iff.1 (createFields_spec checked).1

/-- Equal parts are those of equal fields, but for the two texts of a greeting. -/
theorem Builds.eq_of_parts (hT : Builds env T text) (hT' : Builds env T' text')
    (hformat : T'.format = T.format) (hleading : (T'.layout env).leading = (T.layout env).leading)
    (hfree : (T'.layout env).free = (T.layout env).free)
    (htrailing : (T'.layout env).trailing = (T.layout env).trailing) :
    T' = T ∨ ∃ p n p' n' t, T = .hello p n t ∧ T' = .hello p' n' t ∧
      p' ++ colon :: n' = p ++ colon :: n := by
  cases T <;> cases T' <;> try cases hformat
  all_goals simp only [SignedFields.layout, List.cons.injEq, and_true] at hleading hfree htrailing
  · exact Or.inl (by rw [hfree, htrailing])
  · exact Or.inl (by rw [hfree, htrailing.1, htrailing.2])
  · exact Or.inl (by rw [hfree, htrailing.1, htrailing.2.1, htrailing.2.2])
  · exact Or.inl (by rw [hfree, htrailing.1, htrailing.2.1, htrailing.2.2])
  · obtain ⟨d, rfl⟩ := hT.capExp_finite
    obtain ⟨d', rfl⟩ := hT'.capExp_finite
    have hd : d' = d := by
      have hnumber := stringToNumber_text d'
      rw [show d'.text = d.text from hleading.2.2.2, stringToNumber_text] at hnumber
      exact (Number.fin.inj hnumber).symm
    exact Or.inl (by rw [hfree, hleading.1, hleading.2.1, hd])
  · refine Or.inl ?_
    rw [hfree, digits_injective htrailing.1, digits_injective htrailing.2.1, htrailing.2.2]
  · next p n t p' n' t' =>
    obtain rfl := digits_injective htrailing
    exact Or.inr ⟨p, n, p', n', t', rfl, rfl, List.append_cancel_right hfree⟩

end

/-! ## Greetings -/

/-- No other `:` separates a protocol from a nonce: one in the protocol leaves too
    long a nonce, one in the nonce too long a protocol or too short a nonce. -/
def SplitsOnce (protocol nonce : JString) : Prop :=
  (∀ a b, protocol = a ++ colon :: b → 256 < b.length + 1 + nonce.length) ∧
    ∀ a b, nonce = a ++ colon :: b → 32 < protocol.length + 1 + a.length ∨ b.length < 8

/-- The checks of a greeting. -/
structure GreetingOk (protocol nonce : JString) : Prop where
  protocol : protocol.length ≤ 32
  nonce : 8 ≤ nonce.length ∧ nonce.length ≤ 256

theorem splitsOnce_iff {p n : JString} (hok : GreetingOk p n) :
    SplitsOnce p n ↔ ∀ p' n', GreetingOk p' n' → p' ++ colon :: n' = p ++ colon :: n →
      p' = p ∧ n' = n := by
  have hp := hok.protocol
  have hn := hok.nonce
  constructor
  · rintro ⟨hprotocol, hnonce⟩ p' n' ⟨hp', hn'⟩ h
    rcases List.append_eq_append_iff.1 h with ⟨c, rfl, hc⟩ | ⟨c, rfl, hc⟩
    · cases c with
      | nil => exact ⟨(List.append_nil _).symm, (List.cons.inj hc).2⟩
      | cons d c =>
        rw [List.cons_append] at hc
        obtain ⟨rfl, rfl⟩ := List.cons.inj hc
        have hlong := hprotocol p' c rfl
        simp only [List.length_append, List.length_cons] at hn'
        omega
    · cases c with
      | nil => exact ⟨List.append_nil _, (List.cons.inj hc).2.symm⟩
      | cons d c =>
        rw [List.cons_append] at hc
        obtain ⟨rfl, rfl⟩ := List.cons.inj hc
        have hlong := hnonce c n' rfl
        simp only [List.length_append, List.length_cons] at hp'
        omega
  · intro h
    constructor
    · rintro a b rfl
      by_contra hshort
      simp only [List.length_append, List.length_cons] at hp
      have hsame := (h a (b ++ colon :: n)
        ⟨by omega, by simp only [List.length_append, List.length_cons]; omega⟩ (by simp)).1
      have hlen := congrArg List.length hsame
      simp only [List.length_append, List.length_cons] at hlen
      omega
    · rintro a b rfl
      by_contra hshort
      rw [not_or, not_lt, not_lt] at hshort
      simp only [List.length_append, List.length_cons] at hn
      have hsame := (h (p ++ colon :: a) b
        ⟨by simp only [List.length_append, List.length_cons]; omega, by omega⟩ (by simp)).1
      have hlen := congrArg List.length hsame
      simp only [List.length_append, List.length_cons] at hlen
      omega

theorem helloFields_spec {body : Option Json} {protocol nonce : JString}
    (h : Router.helloFields body = .ok (nonce, protocol)) : GreetingOk protocol nonce := by
  simp only [Router.helloFields, Check.orAnswer_bind] at h
  obtain ⟨_, -, n, hn, p, hp, hret⟩ := h
  cases hret
  refine ⟨by simpa using (Option.filter_eq_some_iff.1 hp).2,
    by simpa using (Option.filter_eq_some_iff.1 hn).2⟩

/-- A request for a greeting. -/
def helloBody (protocol nonce : JString) : Json :=
  .obj [(js "nonce", .str nonce), (js "protocol", .str protocol)]

theorem helloFields_helloBody {protocol nonce : JString} (h : GreetingOk protocol nonce) :
    Router.helloFields (some (helloBody protocol nonce)) = .ok (nonce, protocol) := by
  simp only [Router.helloFields, Check.orAnswer_bind]
  refine ⟨_, rfl, nonce, Option.filter_eq_some_iff.2 ⟨rfl, by simpa using h.nonce⟩, protocol,
    Option.filter_eq_some_iff.2 ⟨rfl, by simpa using h.protocol⟩, rfl⟩

/-! ## Texts -/

section
variable {env : Router.Env} {T T' : SignedFields} {text text' : JString}

/-- Only a greeting may split in another place. -/
def SignedFields.SplitsOnce : SignedFields → Prop
  | hello protocol nonce _ => Capability.SplitsOnce protocol nonce
  | _ => True

theorem Builds.greetingOk {p n : JString} {t : ℕ} (h : Builds env (.hello p n t) text) :
    GreetingOk p n := by
  cases h with
  | hello _ checked => exact helloFields_spec checked

/-- Fields that fit together as those of the same parts are the same. -/
theorem Builds.eq_of_splitsOnce (hT : Builds env T text) (hT' : Builds env T' text')
    (hformat : T'.format = T.format) (hsplits : T.SplitsOnce)
    (hleading : (T'.layout env).leading = (T.layout env).leading)
    (hfree : (T'.layout env).free = (T.layout env).free)
    (htrailing : (T'.layout env).trailing = (T.layout env).trailing) : T' = T := by
  rcases hT.eq_of_parts hT' hformat hleading hfree htrailing with
    heq | ⟨p, n, p', n', t, rfl, rfl, hsplit⟩
  · exact heq
  · obtain ⟨rfl, rfl⟩ := (splitsOnce_iff hT.greetingOk).1 hsplits p' n' hT'.greetingOk hsplit
    rfl

/-- **The text determines the fields**, except for greetings that split twice. -/
theorem text_determines_iff (hT : Builds env T text) :
    (∀ T', Builds env T' text → T'.format = T.format → T' = T) ↔ T.SplitsOnce := by
  constructor
  · intro h
    cases hT with
    | @hello _ p n t checked =>
      refine (splitsOnce_iff (helloFields_spec checked)).2 fun p' n' hok hsplit => ?_
      have hbuilds : Builds env (.hello p' n' t)
          (Router.helloText p' n' env.routerSigningPublic (digits t)) :=
        .hello t (helloFields_helloBody hok)
      have htext : Router.helloText p' n' env.routerSigningPublic (digits t) =
          Router.helloText p n env.routerSigningPublic (digits t) := by
        have hc : js ":" = [colon] := by decide
        have hwhole := congrArg (· ++ colon :: (env.routerSigningPublic ++ colon :: digits t)) hsplit
        unfold Router.helloText
        rw [hc]
        simpa using hwhole
      rw [htext] at hbuilds
      have heq := h _ hbuilds rfl
      simp only [SignedFields.hello.injEq, and_true] at heq
      exact heq
    | _ => trivial
  · intro hsplits T' hT' hformat
    have hparts := Layout.text_injective hT'.plain hT.plain (SignedFields.fits hformat)
      (hT'.text_eq.symm.trans hT.text_eq)
    exact hT.eq_of_splitsOnce hT' hformat hsplits hparts.1 hparts.2.1 hparts.2.2

end

/-! ## Signatures -/

theorem isHexOf_sampleSignature : isHexOf 128 128 (List.replicate 128 97) = true := by decide +kernel

/-- A signature for requests whose signature is not looked at. -/
def sampleSignature : HexStr 128 128 := ⟨List.replicate 128 97, isHexOf_sampleSignature⟩

/-- A registration of a shard passes its checks under every URL. -/
theorem registerShardFields_ok {url : JString} (hurl : isHttpUrl url = true) (pk : HexStr 64 64)
    (ts : DigitStr) :
    Router.registerShardFields (some (Shard.registerShardBody url pk.1 (some (.str (js "n"))) (js "s")
      ts.1 sampleSignature.1)) = .ok
        { shardUrl := url, shardPubkey := { val := pk, isString := true }, nonce := js "n"
          solution := js "s", timestamp := { val := ts, isString := true }
          signature := { val := sampleSignature, isString := true } } := by
  exact Router.registerShardFields_eq_ok.2 ⟨⟨rfl, hurl⟩, testedField_hex (by decide) _ _,
    ⟨rfl, show js "n" ≠ [] by decide⟩, ⟨rfl, show js "s" ≠ [] by decide⟩,
    testedField_timestamp ts _, testedField_hex (by decide) _ _⟩

/-- And so does a rotation. -/
theorem rotateFields_ok {url : JString} (hurl : isHttpUrl url = true) {old new : HexStr 64 64}
    (hkeys : old.lower ≠ new.lower) (ts : DigitStr) :
    Router.rotateFields (some (Shard.rotationBody url old.1 new.1 ts.1 sampleSignature.1
      sampleSignature.1)) = .ok
        { shardUrl := url, oldPubkey := old, newPubkey := new
          timestamp := { val := ts, isString := true }
          oldSig := { val := sampleSignature, isString := true }
          newSig := { val := sampleSignature, isString := true } } := by
  have hne : url ≠ [] := by
    rintro rfl
    cases hurl
  unfold Router.rotateFields
  refine Check.orAnswer_bind.2 ⟨_, rfl, ?_⟩
  refine Check.orAnswer_bind.2 ⟨url, Option.filter_eq_some_iff.2 ⟨Option.filter_eq_some_iff.2
    ⟨rfl, by simpa using hne⟩, hurl⟩, ?_⟩
  refine Check.bind_eq_ok.2 ⟨_, testedField_hex (by decide) _ _, ?_⟩
  refine Check.bind_eq_ok.2 ⟨_, testedField_hex (by decide) _ _, ?_⟩
  refine Check.orCrash_bind.2 ⟨old, rfl, Check.orCrash_bind.2 ⟨new, rfl, ?_⟩⟩
  refine Check.require_bind.2 ⟨by simpa using hkeys, ?_⟩
  refine Check.bind_eq_ok.2 ⟨_, testedField_timestamp ts _, ?_⟩
  refine Check.bind_eq_ok.2 ⟨_, testedField_hex (by decide) _ _, ?_⟩
  exact Check.bind_eq_ok.2 ⟨_, testedField_hex (by decide) _ _, rfl⟩

theorem registerShardFields_url {body : Option Json} {f : Router.RegisterShardFields}
    (h : Router.registerShardFields body = .ok f) : isHttpUrl f.shardUrl = true := by
  cases body with
  | none => cases h
  | some body => exact (Router.registerShardFields_eq_ok.1 h).1.2

theorem rotateFields_spec {body : Option Json} {f : Router.RotateFields}
    (h : Router.rotateFields body = .ok f) :
    isHttpUrl f.shardUrl = true ∧ f.oldPubkey.lower ≠ f.newPubkey.lower := by
  unfold Router.rotateFields at h
  obtain ⟨_, -, h⟩ := Check.orAnswer_bind.1 h
  obtain ⟨url, hurl, h⟩ := Check.orAnswer_bind.1 h
  obtain ⟨_, -, h⟩ := Check.bind_eq_ok.1 h
  obtain ⟨_, -, h⟩ := Check.bind_eq_ok.1 h
  obtain ⟨old, -, h⟩ := Check.orCrash_bind.1 h
  obtain ⟨new, -, h⟩ := Check.orCrash_bind.1 h
  obtain ⟨hkeys, h⟩ := Check.require_bind.1 h
  obtain ⟨_, -, h⟩ := Check.bind_eq_ok.1 h
  obtain ⟨_, -, h⟩ := Check.bind_eq_ok.1 h
  obtain ⟨_, -, h⟩ := Check.bind_eq_ok.1 h
  cases h
  exact ⟨(Option.filter_eq_some_iff.1 hurl).2, by simpa using hkeys⟩

/-- The fields that may be any text. -/
def SignedFields.freeTexts : SignedFields → List JString
  | register .. => []
  | registerShard shardUrl .. | keyRotation shardUrl .. | keyRotationAccept shardUrl .. => [shardUrl]
  | capability _ _ _ nonce => [nonce]
  | response requestId .. => [requestId]
  | hello protocol nonce _ => [protocol, nonce]

section
variable {env : Router.Env} {T T' : SignedFields} {text text' : JString}

/-- A free text that its bytes determine determines the free part. -/
theorem Builds.free_eq (hT : Builds env T text) (hformat : T'.format = T.format)
    (hfree : ∀ s ∈ T.freeTexts, Paired s ∧ 0xFFFD ∉ s)
    (h : encode (T'.layout env).free = encode (T.layout env).free) :
    (T'.layout env).free = (T.layout env).free := by
  have hsingle {s : JString} (hmem : s ∈ T.freeTexts) {s' : JString} (hs : encode s' = encode s) :
      s' = s := (encode_determines_iff s).2 (hfree s hmem) s' hs
  cases T <;> cases T' <;> try cases hformat
  · cases hT with
    | @register _ _ pubkey => exact encode_eq_ascii (ascii_of_isHexOf pubkey.isHexOf_lower) h
  · exact hsingle (List.mem_singleton.2 rfl) h
  · exact hsingle (List.mem_singleton.2 rfl) h
  · exact hsingle (List.mem_singleton.2 rfl) h
  · exact hsingle (List.mem_singleton.2 rfl) h
  · exact hsingle (List.mem_singleton.2 rfl) h
  · next p n t p' n' t' =>
    dsimp only [SignedFields.layout] at h ⊢
    rw [Layout.encode_colon, Layout.encode_colon _ env.routerSigningPublic,
      List.append_cancel_right_eq] at h
    obtain ⟨hp, hpmem⟩ := hfree p (by simp [SignedFields.freeTexts])
    obtain ⟨hn, hnmem⟩ := hfree n (by simp [SignedFields.freeTexts])
    have hpaired : Paired (p ++ colon :: n) := hp.append ((paired_cons (by decide)).2 hn)
    have hmem : 0xFFFD ∉ p ++ colon :: n := by
      simp only [List.mem_append, List.mem_cons, not_or]
      exact ⟨hpmem, by decide, hnmem⟩
    rw [(encode_determines_iff _).2 ⟨hpaired, hmem⟩ _ h]

/-- Another free text with the same bytes passes the same checks. -/
theorem Builds.disguised (hT : Builds env T text) {s : JString} (hmem : s ∈ T.freeTexts)
    (hs : ¬ (Paired s ∧ 0xFFFD ∉ s)) :
    ∃ T' text', Builds env T' text' ∧ T'.format = T.format ∧ encode text' = encode text ∧ T' ≠ T := by
  obtain ⟨s', hbytes, hne, hdisguises⟩ := exists_disguise hs
  have hplain := hT.plain
  have hcongr {T' : SignedFields} {text' : JString} (hT' : Builds env T' text')
      (hlayout : T'.layout env = { T.layout env with free := (T'.layout env).free })
      (hfree : encode (T'.layout env).free = encode (T.layout env).free) :
      encode text' = encode text := by
    rw [hT'.text_eq, hT.text_eq, hlayout]
    exact Layout.encode_text_congr hplain hfree
  cases hT with
  | register => cases hmem
  | @registerShard _ f pk checked =>
    obtain rfl := List.mem_singleton.1 hmem
    have hurl := isHttpUrl_disguises hdisguises (registerShardFields_url checked)
    have hT' := @Builds.registerShard env _ _ _ (registerShardFields_ok hurl pk f.timestamp.val) rfl
    exact ⟨_, _, hT', rfl, hcongr hT' rfl hbytes, fun heq => hne (SignedFields.registerShard.inj heq).1⟩
  | @keyRotation _ f checked =>
    obtain rfl := List.mem_singleton.1 hmem
    obtain ⟨hurl, hkeys⟩ := rotateFields_spec checked
    have hT' := @Builds.keyRotation env _ _
      (rotateFields_ok (isHttpUrl_disguises hdisguises hurl) hkeys f.timestamp.val)
    exact ⟨_, _, hT', rfl, hcongr hT' rfl hbytes, fun heq => hne (SignedFields.keyRotation.inj heq).1⟩
  | @keyRotationAccept _ f checked =>
    obtain rfl := List.mem_singleton.1 hmem
    obtain ⟨hurl, hkeys⟩ := rotateFields_spec checked
    have hT' := @Builds.keyRotationAccept env _ _
      (rotateFields_ok (isHttpUrl_disguises hdisguises hurl) hkeys f.timestamp.val)
    exact ⟨_, _, hT', rfl, hcongr hT' rfl hbytes,
      fun heq => hne (SignedFields.keyRotationAccept.inj heq).1⟩
  | @capability _ f _ nonce pk _ checked version =>
    obtain rfl := List.mem_singleton.1 hmem
    obtain ⟨hfin, hnonce⟩ := createFields_spec checked
    obtain ⟨d, hd⟩ := Number.isFinite_iff.1 hfin
    have hne' : s' ≠ [] := by
      rintro rfl
      exact hnonce _ _ version (List.eq_nil_of_length_eq_zero hdisguises.length_eq)
    have hT' := @Builds.capability env _ _ _ _ _ _ (forgedBody_fields f.mailboxId pk d hne') rfl rfl rfl
    refine ⟨_, _, hT', rfl, hcongr hT' ?_ hbytes,
      fun heq => hne (SignedFields.capability.inj heq).2.2.2⟩
    simp only [SignedFields.layout, hd]
    rfl
  | response status timestamp bodyJson given string =>
    obtain rfl := List.mem_singleton.1 hmem
    have hne' : s' ≠ [] := by
      rintro rfl
      obtain rfl : s = [] := List.eq_nil_of_length_eq_zero hdisguises.length_eq
      exact hne rfl
    have hT' := @Builds.response env _ _ status timestamp bodyJson
      (show Json.truthy (some (.str s')) = true by simpa [Json.truthy] using hne') rfl
    exact ⟨_, _, hT', rfl, hcongr hT' rfl hbytes, fun heq => hne (SignedFields.response.inj heq).1⟩
  | @hello _ p n timestamp checked =>
    obtain ⟨hp, hn⟩ := helloFields_spec checked
    simp only [SignedFields.freeTexts, List.mem_cons, List.not_mem_nil, or_false] at hmem
    rcases hmem with rfl | rfl
    · have hT' := @Builds.hello env _ _ _ timestamp
        (helloFields_helloBody ⟨hdisguises.length_eq ▸ hp, hn⟩)
      refine ⟨_, _, hT', rfl, hcongr hT' rfl ?_, fun heq => hne (SignedFields.hello.inj heq).1⟩
      dsimp only [SignedFields.layout]
      simp only [Layout.encode_colon, hbytes]
    · have hT' := @Builds.hello env _ _ _ timestamp
        (helloFields_helloBody ⟨hp, hdisguises.length_eq ▸ hn⟩)
      refine ⟨_, _, hT', rfl, hcongr hT' rfl ?_, fun heq => hne (SignedFields.hello.inj heq).2.1⟩
      dsimp only [SignedFields.layout]
      simp only [Layout.encode_colon, hbytes]

/-- **The text determines the fields** except for greetings that split twice, and
    **its bytes do** if, besides, the free texts have no unpaired surrogate and no
    U+FFFD. -/
theorem signed_text_determines_iff (hT : Builds env T text) :
    ((∀ T', Builds env T' text → T'.format = T.format → T' = T) ↔ T.SplitsOnce) ∧
      ((∀ T' text', Builds env T' text' → T'.format = T.format → encode text' = encode text →
        T' = T) ↔ T.SplitsOnce ∧ ∀ s ∈ T.freeTexts, Paired s ∧ 0xFFFD ∉ s) := by
  refine ⟨text_determines_iff hT, ?_⟩
  constructor
  · intro h
    refine ⟨(text_determines_iff hT).1 fun T' hT' hformat => h T' text hT' hformat rfl, ?_⟩
    intro s hs
    by_contra hno
    obtain ⟨T', text', hT', hformat, hbytes, hne⟩ := hT.disguised hs hno
    exact hne (h T' text' hT' hformat hbytes)
  · rintro ⟨hsplits, hfree⟩ T' text' hT' hformat hbytes
    rw [hT'.text_eq, hT.text_eq] at hbytes
    obtain ⟨hleading, hmiddle, htrailing⟩ :=
      Layout.encode_injective hT'.plain hT.plain (SignedFields.fits hformat) hbytes
    exact hT.eq_of_splitsOnce hT' hformat hsplits hleading (hT.free_eq hformat hfree hmiddle) htrailing

end

/-! ### A nonce with a colon -/

theorem honest_greeting : Builds honestEnv (.hello (js "nextalk/v1") (js "12345678") 0)
    (Router.helloText (js "nextalk/v1") (js "12345678") honestEnv.routerSigningPublic (digits 0)) :=
  .hello 0 (helloFields_helloBody ⟨by decide, by decide⟩)

theorem honest_greeting_determined :
    colon ∉ js "12345678" ∧ ∀ T' text', Builds honestEnv T' text' → T'.format = .hello →
      encode text' = encode (Router.helloText (js "nextalk/v1") (js "12345678")
        honestEnv.routerSigningPublic (digits 0)) →
        T' = .hello (js "nextalk/v1") (js "12345678") 0 := by
  refine ⟨by decide, (signed_text_determines_iff honest_greeting).2.2 ⟨?_, ?_⟩⟩
  · have hcolon {s a b : JString} (hs : colon ∉ s) (h : s = a ++ colon :: b) : False :=
      hs (h ▸ List.mem_append_right a List.mem_cons_self)
    exact ⟨fun a b h => (hcolon (by decide) h).elim, fun a b h => (hcolon (by decide) h).elim⟩
  · intro s hs
    simp only [SignedFields.freeTexts, List.mem_cons, List.not_mem_nil, or_false] at hs
    rcases hs with rfl | rfl <;>
      exact ⟨paired_of_ascii (ascii_of_all (by decide)), by decide⟩

/-- The greeting for one nonce is one for another nonce, under another protocol. -/
theorem greeting_serves_two_nonces :
    ∃ text, Builds honestEnv (.hello (js "p") (js "12345678:abcdefgh") 0) text ∧
      Builds honestEnv (.hello (js "p:12345678") (js "abcdefgh") 0) text ∧
      SignedFields.hello (js "p") (js "12345678:abcdefgh") 0 ≠
        .hello (js "p:12345678") (js "abcdefgh") 0 := by
  refine ⟨_, .hello 0 (helloFields_helloBody ⟨by decide, by decide⟩), ?_, ?_⟩
  · have hsame : Router.helloText (js "p") (js "12345678:abcdefgh") honestEnv.routerSigningPublic
        (digits 0) = Router.helloText (js "p:12345678") (js "abcdefgh")
        honestEnv.routerSigningPublic (digits 0) := by decide
    rw [hsame]
    exact .hello 0 (helloFields_helloBody ⟨by decide, by decide⟩)
  · intro h
    exact absurd (SignedFields.hello.inj h).1 (by decide)

end Capability
