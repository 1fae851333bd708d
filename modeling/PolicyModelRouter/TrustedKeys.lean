import PolicyModelRouter.AuthorizationContract
import PolicyModelRouter.Base64Text
import PolicyModelRouter.RuntimeControl

/-! # The trusted key set and the codecs shared by the verifier -/

namespace PolicyModelRouter.TrustedKeys
open AuthorizationContract Base64Text OrderedChecks RouterCalls RuntimeControl UtcTimestamps

inductive RuntimeAuthorizationKeyStatus where
  | active
  | retiring
  | revoked
  deriving DecidableEq

def RuntimeAuthorizationKeyStatus.value : RuntimeAuthorizationKeyStatus → String
  | .active => "active"
  | .retiring => "retiring"
  | .revoked => "revoked"

/-- One trusted verification key: 32 bytes and the window it is trusted in. Its identifier is
a list of code points, as the key file names it. -/
structure TrustedRuntimeAuthorizationKey where
  kid : List ℕ
  status : RuntimeAuthorizationKeyStatus
  publicKey : List UInt8
  notBefore : Datetime
  verifyUntil : Datetime
  keySize : publicKey.length = 32
  window : notBefore < verifyUntil

structure TrustedRuntimeAuthorizationKeySet where
  generation : ℤ
  keys : List TrustedRuntimeAuthorizationKey

/-- The first key with the given identifier, without fallback. -/
def TrustedRuntimeAuthorizationKeySet.resolve (keySet : TrustedRuntimeAuthorizationKeySet)
    (kid : List ℕ) : Option TrustedRuntimeAuthorizationKey :=
  keySet.keys.find? fun key => key.kid = kid

/-- What makes a text undecodable. -/
inductive CodecError where
  | notAscii
  | binascii (error : DecodeError)
  | signatureSize
  deriving DecidableEq

/-- Unpadded base64url: the padding is restored, the two characters of the URL alphabet are
translated, and the strict decoder does the rest. -/
def decodeBase64url (value : String) : Except CodecError (List UInt8) :=
  let encoded := value.toList
  if encoded.all fun c => c.toNat < 128 then
    let padding := List.replicate ((4 - encoded.length % 4) % 4) '='
    let translated := (encoded ++ padding).map fun c =>
      if c = '-' then '+' else if c = '_' then '/' else c
    (decodeStrict translated).mapError .binascii
  else .error .notAscii

def decodeSignature (value : String) : Except CodecError (List UInt8) := do
  let decoded ← decodeBase64url value
  if decoded.length = 64 then .ok decoded else .error .signatureSize

/-- A `datetime`: its wall clock, and its offset when it is aware of one. -/
structure ClockReading where
  wall : Datetime
  utcoffset : Option ℤ
  deriving DecidableEq

def ClockReading.utc (now : Datetime) : ClockReading := ⟨now, some 0⟩

def requireUtc (value : ClockReading) : Except PyException Unit :=
  raiseIf (value.utcoffset ≠ some 0)
    (denial .invalidTime "Runtime authorization verification time must be UTC")

end PolicyModelRouter.TrustedKeys
