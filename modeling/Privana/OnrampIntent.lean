import Privana.Base64Url
import Privana.JsonText
import Privana.Types

/-! The codec of `onramp_intent.py`: a signed, self-contained text that binds a provider, the user,
the wallet, the token, the asset and the times of an on-ramp purchase. -/

namespace Privana
open BigEndian

inductive IntentError where
  | unsupportedProvider
  | notPrivana
  | tooLarge
  | malformed
  | payloadMalformed
  | signatureMalformed
  | signatureMismatch
  | versionUnsupported
  | invalid (fieldName : Text)
  | expiresBeforeIssued
  | assetTooLarge
  | expired
  | notConfigured
  deriving DecidableEq

def ascii (s : Text) : Bytes := s.map fun c => UInt8.ofNat c.toNat

/-- The white space that `bytes.fromhex` skips. -/
def isAsciiSpace (c : Char) : Bool := c = ' ' || (9 ≤ c.toNat && c.toNat ≤ 13)

/-- The functions on Unicode text, on addresses and on keys, with what their documentation says of
them. No wide character has a lower case of hexadecimal digits, white space and `x` alone. -/
structure IntentPlatform where
  lower : Text → Text
  lower_ascii : ∀ s : Text, (∀ c ∈ s, c.toNat < 128) → lower s = s.map Char.toLower
  lower_wide : ∀ s : Text, (∃ c ∈ s, 128 ≤ c.toNat) →
    ∃ c ∈ lower s, hexValue c = none ∧ isAsciiSpace c = false ∧ c ≠ 'x'
  strip : Text → Text
  isAddress : Text → Bool
  toChecksumAddress : Text → Text
  toChecksumAddress_digits : ∀ s, isAddress s = true → ∃ a : Address, ∃ digits,
    toChecksumAddress s = '0' :: 'x' :: digits ∧
      digits.map Char.toLower = hexDigits (packedAddress a)
  hmacSha256 : Bytes → Bytes → Bytes
  hmacSha256_length : ∀ key message, (hmacSha256 key message).length = 32
  decodeText : Bytes → Option Text
  decodeText_ascii : ∀ s : Text, (∀ c ∈ s, 32 ≤ c.toNat ∧ c.toNat < 127) →
    decodeText (ascii s) = some s

/-- The current key and the keys that verify. -/
structure KeyRing where
  currentKey : Bytes
  verificationKeys : List Bytes

structure IntentPayload where
  v : ℤ
  p : Text
  u : Text
  w : Text
  t : Text
  c : ℤ
  a : Text
  iat : ℤ
  exp : ℤ
  n : Text
  deriving DecidableEq

structure IntentArguments where
  provider : Text
  userAddress : Text
  walletAddress : Text
  tokenId : Text
  chainId : ℤ
  assetCode : Text

def intentVersion : ℤ := 1
def intentPrefix : Text := text "privana_"
def intentMaxLength : ℕ := 512
def intentTtlSeconds : ℤ := 24 * 60 * 60
def intentMaxAssetBytes : ℕ := 32

def intentProviders : List Text := [text "moonpay", text "transak"]

def payloadFields : List Text :=
  [text "v", text "p", text "u", text "w", text "t", text "c", text "a", text "iat", text "exp",
    text "n"]

/-- The members in the order of their keys. -/
def IntentPayload.members (x : IntentPayload) : List (Text × Scalar) :=
  [(text "a", .str x.a), (text "c", .int x.c), (text "exp", .int x.exp), (text "iat", .int x.iat),
    (text "n", .str x.n), (text "p", .str x.p), (text "t", .str x.t), (text "u", .str x.u),
    (text "v", .int x.v), (text "w", .str x.w)]

/-- `bytes.fromhex`, which skips white space between the bytes. -/
def fromHex : Text → Option Bytes
  | [] => some []
  | c :: rest =>
    if isAsciiSpace c then fromHex rest
    else
      match rest with
      | [] => none
      | d :: rest => do
        let high ← hexValue c
        let low ← hexValue d
        let bs ← fromHex rest
        return UInt8.ofNat (16 * high + low) :: bs

def removePrefix (pre s : Text) : Text := if pre.isPrefixOf s then s.drop pre.length else s

section Codec
variable (U : IntentPlatform)

def hexPayload (value : Text) (byteLength : ℕ) (fieldName : Text) : Except IntentError Text :=
  let stripped := removePrefix (text "0x") (U.lower value)
  if stripped.length ≠ byteLength * 2 then .error (.invalid fieldName)
  else match fromHex stripped with
    | none => .error (.invalid fieldName)
    | some _ => .ok stripped

def addressPayload (value : Text) (fieldName : Text) : Except IntentError Text :=
  if U.isAddress value then
    .ok (U.lower (removePrefix (text "0x") (U.toChecksumAddress value)))
  else .error (.invalid fieldName)

def uint32 (value : ℤ) (fieldName : Text) : Except IntentError ℤ :=
  if value < 0 ∨ 0xFFFFFFFF < value then .error (.invalid fieldName) else .ok value

def assetHead : Text := text "abcdefghijklmnopqrstuvwxyz0123456789"

def assetTail : Text := assetHead ++ text "._:-"

/-- The pattern of asset codes; its length is bounded before. -/
def assetPattern : Text → Bool
  | [] => false
  | c :: rest => assetHead.contains c && rest.all (assetTail.contains ·) && rest.length ≤ 31

def assetCodeOrError (value : Text) : Except IntentError Text :=
  let code := U.lower (U.strip value)
  if code = [] ∨ code.any (fun c => 0x7F < c.toNat) then .error (.invalid (text "on-ramp asset code"))
  else if intentMaxAssetBytes < code.length then .error .assetTooLarge
  else if assetPattern code then .ok code
  else .error (.invalid (text "on-ramp asset code"))

/-- A field of the payload that has to be its own normal form. -/
def hexField (value : Json) (byteLength : ℕ) (fieldName mismatch : Text) :
    Except IntentError Text :=
  match value with
  | .str s => do
    let payload ← hexPayload U s byteLength fieldName
    if s ≠ payload then .error (.invalid mismatch) else .ok s
  | _ => .error (.invalid fieldName)

def uint32Field (value : Json) (fieldName : Text) : Except IntentError ℤ :=
  match value with
  | .int n => uint32 n fieldName
  | _ => .error (.invalid fieldName)

/-- Of several members with one key the last counts. -/
def fieldOf (members : List (Text × Json)) (key : Text) : Json :=
  ((members.reverse.find? fun x => x.1 = key).map Prod.snd).getD .null

/-- `payload.get(key) if isinstance(payload, dict) else None`. -/
def memberOf (payload : Json) (key : String) : Json :=
  match payload with
  | .obj members => fieldOf members (text key)
  | _ => .null

def sameFields (members : List (Text × Json)) : Bool :=
  members.all (fun x => payloadFields.contains x.1) &&
    payloadFields.all (fun key => members.any fun x => x.1 = key)

def versionField : Json → Except IntentError ℤ
  | .int n => if n = intentVersion then .ok n else .error .versionUnsupported
  | _ => .error .versionUnsupported

def providerField : Json → Except IntentError Text
  | .str s => if intentProviders.contains s then .ok s else .error .unsupportedProvider
  | _ => .error .unsupportedProvider

def assetField : Json → Except IntentError Text
  | .str s => do
    let code ← assetCodeOrError U s
    if s ≠ code then .error (.invalid (text "on-ramp asset code")) else .ok s
  | _ => .error (.invalid (text "on-ramp asset code"))

/-- `_validate`, which leaves the payload with its types. -/
def validatePayload (members : List (Text × Json)) : Except IntentError IntentPayload :=
  if sameFields members = false then .error .payloadMalformed
  else do
    let v ← versionField (fieldOf members (text "v"))
    let p ← providerField (fieldOf members (text "p"))
    let u ← hexField U (fieldOf members (text "u")) 20 (text "user") (text "user address")
    let w ← hexField U (fieldOf members (text "w")) 20 (text "wallet") (text "wallet address")
    let t ← hexField U (fieldOf members (text "t")) 32 (text "token_id") (text "token_id")
    let n ← hexField U (fieldOf members (text "n")) 8 (text "nonce") (text "nonce")
    let c ← uint32Field (fieldOf members (text "c")) (text "chain_id")
    let iat ← uint32Field (fieldOf members (text "iat")) (text "issued_at")
    let exp ← uint32Field (fieldOf members (text "exp")) (text "expires_at")
    if exp < iat then .error .expiresBeforeIssued
    else do
      let a ← assetField U (fieldOf members (text "a"))
      return { v, p, u, w, t, c, a, iat, exp, n }

def jsonPayload (x : IntentPayload) : Bytes := ascii (jsonDumps x.members)

def signature (payloadB64 : Text) (key : Bytes) : Bytes :=
  U.hmacSha256 key (ascii (text "privana:onramp:intent:v1:" ++ payloadB64))

def signedToken (key : Bytes) (x : IntentPayload) : Text :=
  let payloadB64 := base64Url (jsonPayload x)
  intentPrefix ++ payloadB64 ++ '.' :: base64Url (signature U payloadB64 key)

def encodeIntent (ring : Option KeyRing) (x : IntentPayload) : Except IntentError Text := do
  let _ ← validatePayload U (x.members.map fun m => (m.1, m.2.toJson))
  match ring with
  | none => .error .notConfigured
  | some ring =>
    let token := signedToken U ring.currentKey x
    if intentMaxLength < token.length then .error .tooLarge else .ok token

/-- `create_intent` at a time, with the nonce it draws. -/
def createIntent (ring : Option KeyRing) (now : ℤ) (nonce : BitVec 64) (x : IntentArguments) :
    Except IntentError (Text × IntentPayload) :=
  if intentProviders.contains x.provider = false then .error .unsupportedProvider
  else do
    let u ← addressPayload U x.userAddress (text "user_address")
    let w ← addressPayload U x.walletAddress (text "wallet_address")
    let t ← hexPayload U x.tokenId 32 (text "token_id")
    let c ← uint32 x.chainId (text "chain_id")
    let a ← assetCodeOrError U x.assetCode
    let iat ← uint32 now (text "issued_at")
    let exp ← uint32 (now + intentTtlSeconds) (text "expires_at")
    let payload : IntentPayload :=
      { v := intentVersion, p := x.provider, u, w, t, c, a, iat, exp,
        n := hexDigits (encode 8 nonce.toNat) }
    let token ← encodeIntent U ring payload
    return (token, payload)

/-- The two parts of a body with exactly one dot. -/
def splitBody (body : Text) : Option (Text × Text) :=
  if body.count '.' = 1 then
    some (body.takeWhile (· ≠ '.'), (body.dropWhile (· ≠ '.')).drop 1)
  else none

def decodePayload (payloadBytes : Bytes) : Except IntentError (List (Text × Json)) :=
  match (U.decodeText payloadBytes).bind jsonLoads with
  | some (.obj members) => .ok members
  | _ => .error .payloadMalformed

def decodeIntent (ring : Option KeyRing) (now : ℤ) (allowExpired : Bool) (token : Text) :
    Except IntentError IntentPayload :=
  if intentPrefix.isPrefixOf token = false then .error .notPrivana
  else if intentMaxLength < token.length then .error .tooLarge
  else match splitBody (token.drop intentPrefix.length) with
    | none => .error .malformed
    | some (payloadB64, signatureB64) =>
      if payloadB64 = [] ∨ signatureB64 = [] then .error .malformed
      else match base64UrlDecode payloadB64 with
        | none => .error .payloadMalformed
        | some payloadBytes =>
          match base64UrlDecode signatureB64 with
          | none => .error .signatureMalformed
          | some providedSignature =>
            if payloadBytes = [] then .error .payloadMalformed
            else if providedSignature.length ≠ 32 then .error .signatureMalformed
            else match ring with
              | none => .error .notConfigured
              | some ring =>
                if ring.verificationKeys.any
                    (fun key => signature U payloadB64 key = providedSignature) = false then
                  .error .signatureMismatch
                else do
                  let members ← decodePayload U payloadBytes
                  let payload ← validatePayload U members
                  if payloadBytes ≠ jsonPayload payload then .error .payloadMalformed
                  else if allowExpired = false ∧ payload.exp < now then .error .expired
                  else .ok payload

end Codec

end Privana
