import Mathlib.Data.Rat.Floor
import Privana.IpAddresses
import Privana.JsonText

/-! Client-IP attestations. The worker at the edge signs the address it sees into a short claim;
`verify_ip_attestation` checks the claim and keeps its nonce until the claim has expired. -/

namespace Privana
open BigEndian

/-- The libraries under the two ends. -/
structure AttestationLibrary where
  sha256 : Bytes → Bytes
  hmacSha256 : Bytes → Bytes → Bytes
  hmacSha256_length : ∀ key message, (hmacSha256 key message).length = 32
  /-- `ipaddress.IPv6Address(s)`. -/
  parseIPv6 : Text → Option IPv6Address
  isGlobal : IpAddress → Bool
  isMulticast : IpAddress → Bool
  isReserved : IpAddress → Bool
  isSiteLocal : IPv6Address → Bool
  /-- `new URL(url).hostname`; `none` when it throws. -/
  urlHostname : Text → Option Text
  /-- `JSON.parse`. -/
  parseJson : Text → Option Json
  /-- `new TextDecoder().decode`. -/
  decodeText : Bytes → Text
  /-- `Number(value)` where it is finite. -/
  number : Text → Option ℚ

def encodeText (t : Text) : Bytes := t.flatMap String.utf8EncodeChar

def isLowerHex (t : Text) : Bool := t.all (hexAlphabet.contains ·)

section ReferrerDomain

def isHostLetter (c : Char) : Bool := c.isLower || c.isDigit

/-- `[a-z0-9](?:[a-z0-9-]{0,61}[a-z0-9])?`. -/
def isHostLabel (label : Text) : Bool :=
  1 ≤ label.length && label.length ≤ 63 && label.all (fun c => isHostLetter c || c = '-') &&
    label.head?.any isHostLetter && label.getLast?.any isHostLetter

/-- Both ends take one lower-case DNS host name of several labels, the last with a letter. -/
def isReferrerDomain (name : Text) : Bool :=
  let labels := name.splitOn '.'
  1 ≤ name.length && name.length ≤ 253 && 2 ≤ labels.length && labels.all isHostLabel &&
    labels.getLast?.any (·.any Char.isLower)

structure ReferrerDomain where
  name : Text
  valid : isReferrerDomain name = true

end ReferrerDomain

/-- The claim as it goes over the wire. -/
structure IpAttestation where
  v : ℤ
  ip : Text
  iat : ℤ
  exp : ℤ
  nonce : Text
  sig : Text
  deriving DecidableEq

/-- What a claim binds. -/
structure AttestedTuple where
  referrerDomain : Text
  intentHash : Text
  ip : Text
  issuedAt : ℤ
  expiresAt : ℤ
  nonce : Text
  deriving DecidableEq

section Service

def ipAttestationVersion : ℤ := 1
def maxWindowSeconds : ℤ := 90
def maxClockSkewSeconds : ℤ := 30
def maxNonces : ℕ := 10000
/-- 9999-12-31T23:59:59Z. -/
def maxTimestamp : ℤ := 253402300799

inductive AttestationError where
  | notConfigured
  | unsupportedVersion
  | invalid
  | notYetValid
  | expired
  | windowTooLong
  | notPublic
  | notCanonical
  | indirect
  | alreadyUsed
  | notRecorded
  deriving DecidableEq

structure SessionIpConfig where
  mode : Text
  attestationSecret : Option Text

abbrev Nonces := List (Text × ℤ)

def reserveIpAttestationNonce (capacity : ℕ) (nonce : Text) (expiresAt : ℤ) (now : ℚ)
    (nonces : Nonces) : Except AttestationError Unit × Nonces :=
  let kept := nonces.filter fun x => now < x.2
  if (kept.lookup nonce).isSome then (.error .alreadyUsed, kept)
  else if capacity ≤ kept.length then (.error .notRecorded, kept)
  else (.ok (), kept ++ [(nonce, expiresAt)])

variable (lib : AttestationLibrary)

def ipAddress (s : Text) : Option IpAddress :=
  match parseIPv4 s with
  | some a => some (.v4 a)
  | none => (lib.parseIPv6 s).map .v6

def IpAddress.compressed : IpAddress → Text
  | v4 a => a.compressed
  | v6 a => a.compressed

def IPv6Address.isIpv4Mapped (a : IPv6Address) : Bool :=
  a.hextets.take 6 = [0, 0, 0, 0, 0, 0xffff]

/-- `2a06:98c0::/29`. -/
def IPv6Address.inWorkerSourceNetwork (a : IPv6Address) : Bool :=
  match a.hextets with
  | first :: second :: _ => first = 0x2a06 && second.toNat / 8 = 0x98c0 / 8
  | _ => false

def attestationPayload (t : AttestedTuple) : Text :=
  ['|'].intercalate [text "v1", t.referrerDomain, t.intentHash, t.ip, dumpInt t.issuedAt,
    dumpInt t.expiresAt, t.nonce]

def isIpv4Mapped : IpAddress → Bool
  | .v4 _ => false
  | .v6 a => a.isIpv4Mapped

/-- Addresses that a direct request from the public internet can come from. -/
def checkPublic (a : IpAddress) : Except AttestationError Unit := do
  if ¬ lib.isGlobal a ∨ lib.isMulticast a ∨ lib.isReserved a then throw .notPublic
  match a with
  | .v4 _ => return ()
  | .v6 a =>
    if lib.isSiteLocal a then throw .notPublic
    if a.inWorkerSourceNetwork then throw .indirect

def checkIp (ip : Text) : Except AttestationError Text :=
  match ipAddress lib ip with
  | none => .error .invalid
  | some parsed => do
    if isIpv4Mapped parsed then throw .notPublic
    let canonicalIp := lower parsed.compressed
    if ip ≠ canonicalIp then throw .notCanonical
    checkPublic lib parsed
    return canonicalIp

def attestedTuple (domain : ReferrerDomain) (transactionId : Text) (claim : IpAttestation) :
    AttestedTuple where
  referrerDomain := domain.name
  intentHash := hexDigits (lib.sha256 (encodeText transactionId))
  ip := claim.ip
  issuedAt := claim.iat
  expiresAt := claim.exp
  nonce := claim.nonce

/-- The signature of the texts that the secret authenticates. -/
def sign (secret payload : Text) : Text :=
  hexDigits (lib.hmacSha256 (encodeText secret) (encodeText payload))

def checkWindow (claim : IpAttestation) (current : ℚ) : Except AttestationError Unit := do
  if claim.iat ≤ 0 ∨ claim.exp ≤ 0 ∨ maxTimestamp < claim.exp then throw .invalid
  if current + maxClockSkewSeconds < claim.iat then throw .notYetValid
  if claim.exp ≤ current then throw .expired
  if claim.exp ≤ claim.iat then throw .invalid
  if maxWindowSeconds < claim.exp - claim.iat then throw .windowTooLong

def checkShape (claim : IpAttestation) : Except AttestationError Unit := do
  if claim.v ≠ ipAttestationVersion then throw .unsupportedVersion
  if ¬ (isLowerHex claim.nonce ∧ claim.nonce.length = 32) then throw .invalid
  if ¬ (isLowerHex claim.sig ∧ claim.sig.length = 64) then throw .invalid
  if claim.ip = [] ∨ 64 < (encodeText claim.ip).length ∨ '%' ∈ claim.ip ∨ '|' ∈ claim.ip then
    throw .invalid

/-- The checks that come before the nonce is reserved. -/
def checkAttestation (domain : ReferrerDomain) (session : SessionIpConfig) (claim : IpAttestation)
    (transactionId : Text) (current : ℚ) : Except AttestationError Text :=
  match session.attestationSecret with
  | none => .error .notConfigured
  | some secret => do
    if session.mode ≠ text "attested" ∨ secret = [] then throw .notConfigured
    checkShape claim
    checkWindow claim current
    let payload := attestationPayload (attestedTuple lib domain transactionId claim)
    if sign lib secret payload ≠ claim.sig then throw .invalid
    checkIp lib claim.ip

def verifyIpAttestation (domain : ReferrerDomain) (session : SessionIpConfig) (capacity : ℕ)
    (claim : IpAttestation) (transactionId : Text) (now : ℚ) (nonces : Nonces) :
    Except AttestationError Text × Nonces :=
  match checkAttestation lib domain session claim transactionId now with
  | .error e => (.error e, nonces)
  | .ok ip =>
    let reserved := reserveIpAttestationNonce capacity claim.nonce claim.exp now nonces
    (reserved.1.map fun _ => ip, reserved.2)

end Service

section Worker

def attestationTtlSeconds : ℕ := 60
def attestationPath : Text := text "/__onramp-ip-attest"
def maxBodyBytes : ℕ := 512

structure WorkerEnv where
  attestationSecret : Option Text
  referrerDomain : Option Text

structure WorkerUrl where
  protocol : Text
  hostname : Text
  port : Text
  pathname : Text
  search : Text

/-- `request.cf`: the values that are strings. -/
structure WorkerOrigin where
  country : Option Text
  regionCode : Option Text

structure WorkerRequest where
  method : Text
  /-- `none` when the url cannot be read. -/
  url : Option WorkerUrl
  header : Text → Option Text
  cf : Option WorkerOrigin
  body : Bytes

structure WorkerRefusal where
  status : ℕ
  error : Text
  deriving DecidableEq

/-- Characters that `trim` takes off. -/
def isTrimmed (c : Char) : Bool :=
  [0x09, 0x0a, 0x0b, 0x0c, 0x0d, 0x20, 0xa0, 0x1680, 0x2028, 0x2029, 0x202f, 0x205f, 0x3000,
    0xfeff].contains c.toNat || 0x2000 ≤ c.toNat && c.toNat ≤ 0x200a

def trim (t : Text) : Text := ((t.dropWhile isTrimmed).reverse.dropWhile isTrimmed).reverse

/-- `/^(0|[1-9][0-9]{0,2})$/`, and at most 255. -/
def isOctet (octet : Text) : Bool :=
  (match octet with
    | [] => false
    | c :: rest => (c = '0' && rest = []) ||
      (c ≠ '0' && c.isDigit && rest.all Char.isDigit && rest.length ≤ 2)) &&
  Nat.ofDigitChars 10 octet 0 ≤ 255

variable (lib : AttestationLibrary)

def canonicalizeIp (header : Option Text) : Option Text :=
  match header with
  | none => none
  | some value =>
    if value = [] ∨ 64 < value.length ∨ value ≠ trim value ∨ '%' ∈ value ∨ '|' ∈ value then none
    else if ':' ∉ value then
      let octets := value.splitOn '.'
      if octets.length ≠ 4 ∨ octets.any fun octet => !isOctet octet then none
      else some (['.'].intercalate octets)
    else
      match lib.urlHostname (text "https://[" ++ value ++ text "]/") with
      | none => none
      | some hostname =>
        if hostname.head? ≠ some '[' ∨ hostname.getLast? ≠ some ']' then none
        else some (lower (hostname.drop 1).dropLast)

/-- The prefixes of the private, the multicast and the reserved addresses. -/
def rejectedV4Prefixes : List Text :=
  [text "10.", text "127.", text "169.254.", text "192.168.", text "0."] ++
    (List.range' 16 16).map (fun n => text "172." ++ decimal n ++ ['.']) ++
    (List.range' 224 36).map (fun n => decimal n ++ ['.']) ++
    (List.range' 64 64).map (fun n => text "100." ++ decimal n ++ ['.'])

def rejectedV6Prefixes : List Text := [text "::", text "fc", text "fd", text "fe", text "ff"]

/-- `/^2a06:98c[0-7](:|$)/`. -/
def isWorkerEgress (ip : Text) : Bool :=
  (text "2a06:98c").isPrefixOf ip &&
    match ip.drop 8 with
    | [] => false
    | c :: rest => (text "01234567").contains c && (rest = [] || rest.head? = some ':')

def isRejectedIp (ip : Text) : Bool :=
  if ':' ∈ ip then
    let lowered := lower ip
    rejectedV6Prefixes.any (·.isPrefixOf lowered) || isWorkerEgress lowered
  else rejectedV4Prefixes.any (·.isPrefixOf ip)

def upper (t : Text) : Text := t.map Char.toUpper

def sanctionedSubdivisions (country : Text) : Option (List Text) :=
  if country = text "UA" then some [text "43", text "40", text "14", text "09"]
  else if country = text "RU" then some [text "CR", text "SEV"] else none

def isNonAttestableOrigin (cf : Option WorkerOrigin) : Bool :=
  match cf with
  | none => true
  | some cf =>
    match cf.country with
    | none | some [] => true
    | some country =>
      let country := upper country
      if [text "CU", text "IR", text "KP", text "XX", text "T1"].contains country then true
      else
        match sanctionedSubdivisions country with
        | none => false
        | some subdivisions =>
          match cf.regionCode with
          | none | some [] => true
          | some code =>
            let code := upper code
            let label := country ++ ['-']
            subdivisions.contains (if label.isPrefixOf code then code.drop label.length else code)

def secretOf (env : WorkerEnv) : Except WorkerRefusal (Text × Text) :=
  match env.attestationSecret, env.referrerDomain with
  | some secret, some domain =>
    if 32 ≤ secret.length ∧ (secret.all fun c => 0x21 ≤ c.toNat && c.toNat ≤ 0x7e) ∧
        isReferrerDomain domain = true then .ok (secret, domain)
    else .error ⟨503, text "attestation is not configured"⟩
  | _, _ => .error ⟨503, text "attestation is not configured"⟩

def intentHashOf (body : Bytes) : Except WorkerRefusal Text :=
  if maxBodyBytes < body.length then .error ⟨413, text "request body too large"⟩
  else
    match lib.parseJson (lib.decodeText body) with
    | some (.obj [(key, value)]) =>
      if key = text "intentHash" then
        match value with
        | .str intentHash =>
          if isLowerHex intentHash ∧ intentHash.length = 64 then .ok intentHash
          else .error ⟨400, text "invalid intent hash"⟩
        | _ => .error ⟨400, text "invalid intent hash"⟩
      else .error ⟨400, text "invalid request body"⟩
    | _ => .error ⟨400, text "invalid request body"⟩

/-- The secret, the domain, the address and the intent hash that the worker signs with. -/
def checkRequest (env : WorkerEnv) (request : WorkerRequest) :
    Except WorkerRefusal (Text × Text × Text × Text) := do
  if request.method ≠ text "POST" then throw ⟨405, text "method not allowed"⟩
  let (secret, domain) ← secretOf env
  match request.url with
  | none => throw ⟨400, text "invalid request url"⟩
  | some url =>
    if url.protocol ≠ text "https:" ∨ url.hostname ≠ domain ∨ url.port ≠ [] ∨
        url.pathname ≠ attestationPath ∨ url.search ≠ [] then
      throw ⟨403, text "request host is not attestable"⟩
    if (request.header (text "cf-worker")).any (· ≠ []) then
      throw ⟨403, text "indirect requests are not attestable"⟩
    match canonicalizeIp lib (request.header (text "cf-connecting-ip")) with
    | none => throw ⟨400, text "client ip is not attestable"⟩
    | some ip =>
      if ip = [] ∨ isRejectedIp ip then throw ⟨400, text "client ip is not attestable"⟩
      if isNonAttestableOrigin request.cf then throw ⟨403, text "region is not attestable"⟩
      let contentType := (request.header (text "content-type")).map fun value =>
        lower (trim (value.takeWhile (· ≠ ';')))
      if contentType ≠ some (text "application/json") then
        throw ⟨415, text "content type must be application/json"⟩
      let declaredLength := (request.header (text "content-length")).bind lib.number
      if declaredLength.any (fun n => (maxBodyBytes : ℚ) < n) then
        throw ⟨413, text "request body too large"⟩
      let intentHash ← intentHashOf lib request.body
      return (secret, domain, ip, intentHash)

/-- `["v1", domain, intentHash, ip, iat, exp, nonce].join("|")`. -/
def mintedPayload (domain intentHash ip : Text) (iat exp : ℕ) (nonce : Text) : Text :=
  ['|'].intercalate [text "v1", domain, intentHash, ip, decimal iat, decimal exp, nonce]

/-- The claim of a time in milliseconds, with 16 random bytes. -/
def mint (secret domain ip intentHash : Text) (dateNow : ℕ) (nonceBytes : Bytes) : IpAttestation :=
  let iat := dateNow / 1000
  let exp := iat + attestationTtlSeconds
  let nonce := hexDigits nonceBytes
  ⟨1, ip, iat, exp, nonce, sign lib secret (mintedPayload domain intentHash ip iat exp nonce)⟩

def fetch (env : WorkerEnv) (request : WorkerRequest) (dateNow : ℕ) (nonceBytes : Bytes) :
    Except WorkerRefusal IpAttestation := do
  let (secret, domain, ip, intentHash) ← checkRequest lib env request
  return mint lib secret domain ip intentHash dateNow nonceBytes

end Worker

end Privana
