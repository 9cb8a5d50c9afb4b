import Kinetix.Library.Fallible
import Kinetix.Sse.Framer

/-!
# Signatures of packages

`verify_signature` of `package.rs`: the digest of the component and the manifest, one behind the
other, is verified against the trusted keys.

## Implementation notes

The crates for SHA-256, base64 and Ed25519 are parameters. A hasher that is updated twice hashes the
bytes together.
-/

namespace Kinetix.Plugins.Signature
open Checks Sse

/-- What a package holds that is signed, and its signature file. -/
structure Package where
  manifestToml : String
  component : List UInt8
  signature : Option (List UInt8)

/-- `SignatureStatus`. -/
inductive SignatureStatus where
  | unsigned
  | verified
  | untrusted
  deriving DecidableEq

variable {κ δ : Type}

structure Crates (κ δ : Type) where
  sha256 : List UInt8 → δ
  decodeBase64 : String → Option (List UInt8)
  keyFromBytes : List UInt8 → Option κ
  verify : κ → δ → List UInt8 → Bool

section
variable (C : Crates κ δ)

/-- The bytes that are hashed. -/
def Package.payload (pkg : Package) : List UInt8 :=
  pkg.component ++ pkg.manifestToml.toUTF8.data.toList

/-- The 64 bytes of a signature file, raw or in base64. -/
def readSignature (sigBytes : List UInt8) : Except String (List UInt8) :=
  if sigBytes.length = 64 then .ok sigBytes
  else do
    let decoded ← okOr (C.decodeBase64 (Text.trim (fromUtf8Lossy sigBytes)))
      "signature.ed25519 is not 64 bytes or valid base64"
    refuseIf (decoded.length ≠ 64) "signature must be 64 bytes"
    return decoded

/-- `verify_signature`. A key that cannot be read is passed over. -/
def verifySignature (pkg : Package) (trustedKeys : List (List UInt8)) :
    Except String SignatureStatus :=
  match pkg.signature with
  | none => .ok .unsigned
  | some sigBytes => do
    let sig ← readSignature C sigBytes
    let digest := C.sha256 pkg.payload
    if trustedKeys.any fun key => (C.keyFromBytes key).any (C.verify · digest sig) then
      return .verified
    else return .untrusted

/-- The hash has no collisions, and no signature is one of two messages: nobody can forge one, and
there is one for each message. -/
structure Sound : Prop where
  injective : Function.Injective C.sha256
  binding : ∀ {k k' : κ} {d d' : δ} {sig : List UInt8},
    C.verify k d sig = true → C.verify k' d' sig = true → d = d'

end

section
variable {C : Crates κ δ} {pkg pkg' : Package} {keys keys' : List (List UInt8)}

/-- A package is verified by one of the keys. -/
theorem exists_key_of_verified (h : verifySignature C pkg keys = .ok .verified) :
    ∃ sigBytes sig k, pkg.signature = some sigBytes ∧ readSignature C sigBytes = .ok sig ∧
      C.verify k (C.sha256 pkg.payload) sig = true := by
  rw [verifySignature] at h
  split at h
  · cases h
  next sigBytes hsome =>
    obtain ⟨sig, hsig, h⟩ := bind_eq_ok.mp h
    dsimp only at h
    split at h
    next hany =>
      obtain ⟨key, -, hkey⟩ := List.any_eq_true.mp hany
      obtain ⟨k, -, hverify⟩ := (Option.any_eq_true ..).mp hkey
      exact ⟨sigBytes, sig, k, hsome, hsig, hverify⟩
    next => cases h

/-- One signature is of one payload. -/
theorem payload_eq_of_verified (hC : Sound C) (h : verifySignature C pkg keys = .ok .verified)
    (h' : verifySignature C pkg' keys' = .ok .verified) (hsame : pkg.signature = pkg'.signature) :
    pkg.payload = pkg'.payload := by
  obtain ⟨sigBytes, sig, k, hsome, hsig, hverify⟩ := exists_key_of_verified h
  obtain ⟨sigBytes', sig', k', hsome', hsig', hverify'⟩ := exists_key_of_verified h'
  rw [hsame, hsome'] at hsome
  cases hsome
  rw [hsig] at hsig'
  cases hsig'
  exact hC.injective (hC.binding hverify hverify')

/-- Two packages that are verified with one signature are the same if and only if their components
are of the same length. -/
theorem verified_packages_eq_iff (hC : Sound C) (h : verifySignature C pkg keys = .ok .verified)
    (h' : verifySignature C pkg' keys' = .ok .verified) (hsame : pkg.signature = pkg'.signature) :
    pkg.component = pkg'.component ∧ pkg.manifestToml = pkg'.manifestToml ↔
      pkg.component.length = pkg'.component.length := by
  refine ⟨fun heq => congrArg List.length heq.1, fun hlength => ?_⟩
  have hpayload := payload_eq_of_verified hC h h' hsame
  obtain ⟨hcomponent, hmanifest⟩ := List.append_inj hpayload hlength
  exact ⟨hcomponent, String.toByteArray_inj.mp (ByteArray.ext (Array.toList_inj.mp hmanifest))⟩

/-! ## A moved line -/

/-- Crates that hash nothing away, and for which a signature is what it signs, filled up to 64
bytes. -/
def transparent : Crates (List UInt8) (List UInt8) where
  sha256 := id
  decodeBase64 _ := none
  keyFromBytes := some
  verify _ digest sig := sig.dropWhile (· = 255) == digest

theorem sound_transparent : Sound transparent where
  injective := Function.injective_id
  binding h h' := (beq_iff_eq.mp h).symm.trans (beq_iff_eq.mp h')

def trustedKey : List UInt8 := List.replicate 32 1

/-- An empty module. -/
def emptyModule : List UInt8 := [0, 97, 115, 109, 1, 0, 0, 0]

def signedPackage : Package where
  manifestToml := "id = \"x\""
  component := emptyModule ++ "#\n".toUTF8.data.toList
  signature := some (List.replicate 46 255 ++ emptyModule ++ "#\nid = \"x\"".toUTF8.data.toList)

/-- The same signature, and the end of the component in front of the manifest. -/
def movedPackage : Package where
  manifestToml := "#\nid = \"x\""
  component := emptyModule
  signature := signedPackage.signature

theorem verified_signedPackage :
    verifySignature transparent signedPackage [trustedKey] = .ok .verified := by decide +kernel

theorem verified_movedPackage :
    verifySignature transparent movedPackage [trustedKey] = .ok .verified := by decide +kernel

theorem verified_packages_eq_iff_moved :
    signedPackage.component = movedPackage.component ∧
      signedPackage.manifestToml = movedPackage.manifestToml ↔
      signedPackage.component.length = movedPackage.component.length :=
  verified_packages_eq_iff sound_transparent verified_signedPackage verified_movedPackage rfl

/-- A signature does not say where the component ends. -/
theorem signature_of_two_packages :
    ¬ ∀ (C : Crates (List UInt8) (List UInt8)), Sound C →
      ∀ (pkg pkg' : Package) (keys keys' : List (List UInt8)),
        verifySignature C pkg keys = .ok .verified → verifySignature C pkg' keys' = .ok .verified →
          pkg.signature = pkg'.signature →
            pkg.component = pkg'.component ∧ pkg.manifestToml = pkg'.manifestToml := by
  intro h
  have hsame := h transparent sound_transparent signedPackage movedPackage [trustedKey] [trustedKey]
    verified_signedPackage verified_movedPackage rfl
  exact absurd hsame.2 (by decide)

end
end Kinetix.Plugins.Signature
