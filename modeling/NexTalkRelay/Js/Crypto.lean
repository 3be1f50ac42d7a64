/-
  The cryptography that the programs call.

  Hashing, message authentication and signatures are those of the platform:
  `Crypto` collects them as functions on bytes, with the sizes of their results.
-/
import NexTalkRelay.Js.Text

namespace Js

/-- A SHA-256 digest or message authentication code. -/
abbrev Digest := {b : Bytes // b.length = 32}

/-- An Ed25519 signature. -/
abbrev Sig := {b : Bytes // b.length = 64}

/-- `crypto.subtle` as the programs use it. -/
structure Crypto where
  sha256 : Bytes → Digest
  /-- HMAC-SHA-256 of a secret and a message. -/
  hmac : Bytes → Bytes → Digest
  /-- The Ed25519 signature of a private key on a message. -/
  sign : JString → Bytes → Sig
  /-- The public key, the signature and the message verify; a public key that
      cannot be imported verifies nothing. -/
  verify : Bytes → Bytes → Bytes → Bool

namespace Crypto

variable (c : Crypto)

/-- `sha256Hex`. -/
def sha256Hex (s : JString) : JString := bytesToHex (c.sha256 (encode s)).1

/-- `hmacHex`. -/
def hmacHex (message secret : JString) : JString :=
  bytesToHex (c.hmac (encode secret) (encode message)).1

/-- The hexadecimal signature of a text. -/
def signHex (key message : JString) : JString := bytesToHex (c.sign key (encode message)).1

theorem isHexOf_sha256Hex (s : JString) : isHexOf 64 64 (c.sha256Hex s) = true := by
  have := isHexOf_bytesToHex (c.sha256 (encode s)).1
  rwa [(c.sha256 (encode s)).2] at this

theorem isHexOf_hmacHex (m s : JString) : isHexOf 64 64 (c.hmacHex m s) = true := by
  have := isHexOf_bytesToHex (c.hmac (encode s) (encode m)).1
  rwa [(c.hmac (encode s) (encode m)).2] at this

theorem isHexOf_signHex (key message : JString) : isHexOf 128 128 (c.signHex key message) = true := by
  have := isHexOf_bytesToHex (c.sign key (encode message)).1
  rwa [(c.sign key (encode message)).2] at this

@[simp] theorem toLowerCase_hmacHex (m s : JString) :
    toLowerCase (c.hmacHex m s) = c.hmacHex m s := toLowerCase_bytesToHex _

/-- A platform on which every signature verifies. -/
def trusting : Crypto where
  sha256 _ := ⟨List.replicate 32 0, rfl⟩
  hmac _ _ := ⟨List.replicate 32 0, rfl⟩
  sign _ _ := ⟨List.replicate 64 0, rfl⟩
  verify _ _ _ := true

end Crypto

/-- The leading zero bits of a byte other than zero. -/
def leadingZeros (b : UInt8) : ℕ := 7 - Nat.log2 b.toNat

/-- The zero bits in front of the first one, which `leadingZeroBits` counts. -/
def leadingZeroBits : Bytes → ℕ
  | [] => 0
  | b :: bytes => if b = 0 then 8 + leadingZeroBits bytes else leadingZeros b

end Js
