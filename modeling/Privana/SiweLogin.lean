import Privana.Base64Url
import Privana.DepositVerifier
import Privana.RedirectUri

/-! The pure parts of the login flows: what is read from a SIWE message, the checks of its
domain, statement and times, and PKCE. Parsing, signature recovery and hashing are library
code outside the repository, so they are fields of `AuthLibrary`. -/

namespace Privana
open BigEndian

structure SiweMessage where
  domain : Text
  address : Text
  statement : Option Text
  nonce : Text
  issuedAt : Option Text
  expirationTime : Option Text
  resources : List Text
  deriving DecidableEq

inductive SiweVerifyError where
  | invalidSignature
  | expiredMessage
  | malformedSession
  | other
  deriving DecidableEq

inductive JwtType where
  | access
  | id
  | refresh
  deriving DecidableEq

/-- The claims of a JWT that the service reads. -/
structure Claims where
  sub : Address
  tokenType : JwtType
  jti : Option Text
  audience : Text
  deriving DecidableEq

structure AuthLibrary extends UrlLibrary, AddressLibrary where
  parseSiwe : Text → Option SiweMessage
  /-- `SiweMessage.verify` with a signature, a domain and a nonce, at a time. -/
  verifySiwe : SiweMessage → Text → Text → Text → ℤ → Except SiweVerifyError Unit
  /-- `str.strip().lower()`. -/
  canonicalDomain : Text → Text
  isSpace : Char → Bool
  decimalDigit : Char → Option ℕ
  /-- `int(datetime.fromisoformat(..).timestamp())`, with `Z` read as UTC. -/
  timestamp : Text → Option ℤ
  sha256 : Bytes → Bytes
  /-- The claims under a JWT with a valid form, issuer and audience. -/
  decodeJwt : Text → Option Claims

structure AuthClient where
  clientId : Text
  audience : Text
  redirectUris : List Text

structure AuthSettings where
  /-- The domains of `get_siwe_configs`, or why they are not configured properly. -/
  siweDomains : Except String (List Text)
  siweOrigins : List Text
  sapphireChainId : ℕ
  authTokenValiditySeconds : ℤ
  clients : List AuthClient

/-- An answer that is not a success. -/
structure AuthError where
  status : ℕ
  detail : String
  description : String := ""
  deriving DecidableEq

def invalidNonce : AuthError :=
  ⟨400, "Invalid or expired nonce. Request a new nonce from /auth/nonce", ""⟩

/-- What is read from the text of a message before the nonce is looked up. -/
structure SiweClaim where
  message : SiweMessage
  domain : Text
  address : Address
  deriving DecidableEq

section Siwe
variable (lib : AuthLibrary) (settings : AuthSettings)

def readSiweMessage (siweMessageText : Text) : Except AuthError SiweClaim :=
  match settings.siweDomains with
  | .error detail => .error ⟨500, detail, ""⟩
  | .ok domains =>
    match lib.parseSiwe siweMessageText with
    | none => .error ⟨400, "Invalid SIWE message", ""⟩
    | some message =>
      match domains.find? fun domain => domain = lib.canonicalDomain message.domain with
      | none => .error ⟨400, "SIWE domain is not allowed", ""⟩
      | some domain =>
        if message.nonce = [] then .error invalidNonce
        else match lib.toChecksumAddress message.address with
          | none => .error ⟨400, "Invalid SIWE address", ""⟩
          | some address => .ok ⟨message, domain, address⟩

/-- Characters that match without regard to case. -/
def foldCase (c : Char) : Char :=
  if c = 'ı' ∨ c = 'İ' then 'i' else if c = 'ſ' then 's' else c.toLower

def statementPrefix : Text := text "sign in to privana on chain "

def readDecimal (s : Text) : Option ℕ :=
  match s.takeWhile fun c => (lib.decimalDigit c).isSome with
  | [] => none
  | digits => some (digits.foldl (fun n c => 10 * n + (lib.decimalDigit c).getD 0) 0)

/-- `re.search` of the destination chain, ignoring case. -/
def destinationChainId : Text → Option ℕ
  | [] => none
  | c :: rest =>
    let here := c :: rest
    let found :=
      if (here.take statementPrefix.length).map foldCase = statementPrefix then
        readDecimal lib ((here.drop statementPrefix.length).dropWhile lib.isSpace)
      else none
    match found with
    | some n => some n
    | none => destinationChainId rest

def checkStatement (message : SiweMessage) : Except AuthError Unit :=
  match destinationChainId lib (message.statement.getD []) with
  | none => .error ⟨400, "Destination chain in statement not defined", ""⟩
  | some chainId =>
    if chainId ≠ settings.sapphireChainId then
      .error ⟨400, s!"Destination chain {chainId} not supported", ""⟩
    else .ok ()

def checkSignature (claim : SiweClaim) (signature : Text) (verifiedAt : ℤ) : Except AuthError Unit :=
  match lib.verifySiwe claim.message signature claim.domain claim.message.nonce verifiedAt with
  | .ok () => .ok ()
  | .error .invalidSignature => .error ⟨400, "Invalid signature", ""⟩
  | .error .expiredMessage => .error ⟨400, "SIWE message expired", ""⟩
  | .error .malformedSession => .error ⟨400, "Invalid SIWE message format", ""⟩
  | .error .other => .error ⟨400, "SIWE verification failed", ""⟩

def toleranceSeconds : ℤ := 5 * 60

/-- The time until which the message is valid. -/
def checkTimes (message : SiweMessage) (now : ℤ) : Except AuthError ℤ :=
  match message.issuedAt.getD [] with
  | [] => .error ⟨400, "SIWE message must include issued_at", ""⟩
  | issuedAt =>
    match lib.timestamp issuedAt with
    | none => .error ⟨400, "SIWE message issued_at is invalid", ""⟩
    | some issuedAt =>
      if toleranceSeconds < (now - issuedAt).natAbs then
        .error ⟨400, "SIWE message issued_at is outside acceptable time range", ""⟩
      else match message.expirationTime.getD [] with
        | [] => .error ⟨400, "SIWE message must include expiration_time", ""⟩
        | expirationTime =>
          match lib.timestamp expirationTime with
          | none => .error ⟨400, "SIWE message expiration_time is invalid", ""⟩
          | some validUntil =>
            if validUntil < now then .error ⟨400, "SIWE message expired", ""⟩
            else if now + settings.authTokenValiditySeconds + toleranceSeconds < validUntil then
              .error ⟨400, "SIWE expiration_time exceeds the maximum allowed validity window", ""⟩
            else .ok validUntil

/-- The message passes every check that needs no store, its signature at one time and its
times at another. -/
structure Passes (siweMessageText signature : Text) (claim : SiweClaim) (verifiedAt now : ℤ) :
    Prop where
  read : readSiweMessage lib settings siweMessageText = .ok claim
  statement : checkStatement lib settings claim.message = .ok ()
  signature : checkSignature lib claim signature verifiedAt = .ok ()
  times : ∃ validUntil, checkTimes lib settings claim.message now = .ok validUntil

end Siwe

/-- `none` for the `ValueError`. -/
def verifyPkce (lib : AuthLibrary) (codeVerifier codeChallenge codeChallengeMethod : Text) :
    Except String Bool :=
  if codeChallengeMethod ≠ text "S256" then
    .error ("Unsupported code_challenge_method: " ++ String.ofList codeChallengeMethod)
  else if codeVerifier.any fun c => 128 ≤ c.toNat then
    .error "PKCE code_verifier must contain only ASCII characters"
  else
    .ok (base64Url (lib.sha256 (codeVerifier.map fun c => UInt8.ofNat c.toNat)) = codeChallenge)

section Registry
variable (lib : AuthLibrary) (settings : AuthSettings)

def getClient (clientId : Text) : Option AuthClient :=
  settings.clients.find? fun c => c.clientId = clientId

def validateRedirectUri (clientId redirectUri : Text) : Bool :=
  match getClient settings clientId with
  | none => false
  | some client =>
    match normalizeRedirectUri lib.toUrlLibrary redirectUri with
    | none => false
    | some normalized => normalized ∈ client.redirectUris

end Registry

end Privana
