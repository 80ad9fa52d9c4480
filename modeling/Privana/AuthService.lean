import Privana.AuthStore
import Privana.TaskPool

/-! The login service: nonces, SIWE logins, the authorization-code flow and the rotation and
revocation of refresh tokens, as programs over the stores. Every request is a task of its
own, on whichever worker it runs. -/

namespace Privana
open Coroutine

section Common
variable {α : Type}

def reject (error : AuthError) : Auth α := raise (.answer error)

def orReject : Except AuthError α → Auth α
  | .ok a => pure a
  | .error error => reject error

/-- `enforce_expected_origin`, where a request without an origin passes. -/
def enforceExpectedOrigin (settings : AuthSettings) (origin : Option Text) (detail : String) :
    Except AuthError Unit :=
  match settings.siweDomains with
  | .error reason => .error ⟨500, reason, ""⟩
  | .ok _ =>
    match origin with
    | none => .ok ()
    | some origin =>
      if origin ∈ settings.siweOrigins then .ok () else .error ⟨400, detail, ""⟩

def enforceBrowserAuthOrigin (settings : AuthSettings) (origin : Option Text) :
    Except AuthError Unit :=
  enforceExpectedOrigin settings origin
    "Browser SIWE requests must originate from a configured auth origin"

def enforceRateLimit (bucket : String) (error : AuthError) : Auth Unit := do
  match ← ask (.rateLimit bucket) with
  | some _ => reject error
  | none => pure ()

def enforceAuthRateLimit (bucket : String) : Auth Unit :=
  enforceRateLimit bucket ⟨429, "Too many authentication requests. Please retry later.", ""⟩

end Common

section Nonces

def drawNonce (client : Address) : Auth Text := do
  let nonce ← ask (.storeNonce client)
  ask (.setClientNonce client nonce)
  return nonce

def generateNonce (client : Address) : Auth Text := do
  match ← ask (.clientNonce client) with
  | none => drawNonce client
  | some existing =>
    if ← ask (.hasNonce existing) then return existing
    else drawNonce client

def consumeNonce (nonce : Text) (request : AuthRequest) (address : Address) : Auth Bool := do
  match ← ask (.popNonce nonce request address) with
  | none => return false
  | some client =>
    ask (.deleteClientNonce client)
    return true

end Nonces

structure AuthenticatedSiwe where
  address : Address
  validUntil : ℤ
  siweToken : BigEndian.Bytes
  deriving DecidableEq

section Login
variable (lib : AuthLibrary) (settings : AuthSettings) (audience : Text)

def authenticateSiweMessage (request : AuthRequest) (siweMessageText signature : Text) :
    Auth AuthenticatedSiwe := do
  let claim ← orReject (readSiweMessage lib settings siweMessageText)
  if !(← ask (.hasNonce claim.message.nonce)) then reject invalidNonce
  else
    orReject (checkStatement lib settings claim.message)
    let verifiedAt ← ask .now
    orReject (checkSignature lib claim signature verifiedAt)
    let now ← ask .now
    let validUntil ← orReject (checkTimes lib settings claim.message now)
    let siweToken ← (ask (.createAuthToken claim validUntil)).except fun _ =>
      reject ⟨500, "Failed to generate auth token", ""⟩
    if ← consumeNonce claim.message.nonce request claim.address then
      return ⟨claim.address, validUntil, siweToken⟩
    else reject ⟨400, "Nonce already used. Request a new nonce from /auth/nonce", ""⟩

def signed (claims : Claims) : Auth Claims := do
  ask (.signJwt claims)
  return claims

def createToken (address : Address) : Auth Claims :=
  signed ⟨address, .access, none, audience⟩

def createIdToken (address : Address) (audience : Text) : Auth Claims :=
  signed ⟨address, .id, none, audience⟩

def getSiweNonce (origin : Option Text) (address : Text) : Auth AuthResponse := do
  orReject (enforceBrowserAuthOrigin settings origin)
  enforceAuthRateLimit "siwe_nonce"
  match lib.toChecksumAddress address with
  | none => reject ⟨400, "Invalid Ethereum address", ""⟩
  | some client =>
    let nonce ← generateNonce client
    return .nonce client nonce

def siweLogin (origin : Option Text) (siweMessage signature : Text) : Auth AuthResponse := do
  orReject (enforceBrowserAuthOrigin settings origin)
  enforceAuthRateLimit "siwe_login"
  let result ← authenticateSiweMessage lib settings (.login origin siweMessage signature)
    siweMessage signature
  let access ← createToken audience result.address
  let refresh ← ask (.createRefreshToken result.address none)
  return .login result.siweToken access refresh result.address

end Login

section Codes
variable (lib : AuthLibrary) (settings : AuthSettings) (audience : Text)

def mintCode (request : AuthRequest) (siweMessage signature clientId redirectUri codeChallenge
    codeChallengeMethod : Text) : Auth AuthResponse := do
  let result ← authenticateSiweMessage lib settings request siweMessage signature
  match normalizeRedirectUri lib.toUrlLibrary redirectUri with
  | none => raise .unhandled
  | some normalized =>
    let code ← ask (.createCode
      ⟨result.address, clientId, normalized, codeChallenge, codeChallengeMethod⟩)
    return .code code

def authorizeCode (origin : Option Text) (siweMessage signature clientId redirectUri codeChallenge
    codeChallengeMethod : Text) : Auth AuthResponse := do
  orReject (enforceExpectedOrigin settings origin
    "Browser authorization requests must originate from a configured auth origin")
  enforceRateLimit "auth_authorize"
    ⟨429, "Too many authorization attempts. Please retry later.", ""⟩
  if (getClient settings clientId).isNone then reject ⟨400, "unknown_client", ""⟩
  else if !validateRedirectUri lib settings clientId redirectUri then
    reject ⟨400, "invalid_redirect_uri", ""⟩
  else if codeChallengeMethod ≠ text "S256" then
    reject ⟨400, "invalid_code_challenge_method", ""⟩
  else
    mintCode lib settings (.authorize origin siweMessage signature clientId redirectUri
      codeChallenge codeChallengeMethod) siweMessage signature clientId redirectUri codeChallenge
      codeChallengeMethod

def issueTokens (client : AuthClient) (address : Address) : Auth AuthResponse := do
  let access ← createToken audience address
  let idToken ← createIdToken address client.audience
  let refresh ← ask (.createRefreshToken address none)
  return .tokens access idToken refresh address

def redeemCode (origin : Option Text) (client : AuthClient) (normalized : Text)
    (payload : TokenExchangeRequest) : Auth AuthResponse := do
  match ← ask (.getCode payload.code) with
  | none => reject ⟨400, "invalid_grant", "Authorization code is invalid or expired"⟩
  | some record =>
    if record.clientId ≠ payload.clientId then
      reject ⟨400, "invalid_client", "client_id does not match the authorization request"⟩
    else if record.redirectUri ≠ normalized then
      reject
        ⟨400, "invalid_redirect_uri", "redirect_uri does not match the authorization request"⟩
    else
      match verifyPkce lib payload.codeVerifier record.codeChallenge
          record.codeChallengeMethod with
      | .error reason => reject ⟨400, "invalid_grant", reason⟩
      | .ok false => reject ⟨400, "invalid_grant", "PKCE verification failed"⟩
      | .ok true =>
        match ← ask (.consumeCode payload.code (.token origin payload)) with
        | none => reject ⟨400, "invalid_grant", "Authorization code has already been used"⟩
        | some _ => issueTokens audience client record.userAddress

def exchangeCode (origin : Option Text) (payload : TokenExchangeRequest) : Auth AuthResponse :=
  match getClient settings payload.clientId with
  | none => reject ⟨400, "invalid_client", "Unknown client_id"⟩
  | some client =>
    if payload.grantType ≠ text "authorization_code" then
      reject ⟨400, "unsupported_grant_type", "Only authorization_code is supported"⟩
    else if !validateRedirectUri lib settings payload.clientId payload.redirectUri then
      reject ⟨400, "invalid_redirect_uri", "Redirect URI is not registered"⟩
    else match normalizeRedirectUri lib.toUrlLibrary payload.redirectUri with
      | none => raise .unhandled
      | some normalized =>
        match redirectOrigin lib.toUrlLibrary normalized with
        | none => raise .unhandled
        | some expectedOrigin =>
          if origin.any (· ≠ expectedOrigin) then
            reject ⟨400, "invalid_origin", "Origin does not match redirect URI"⟩
          else do
            enforceRateLimit "auth_token_exchange"
              ⟨429, "rate_limited", "Too many token exchange attempts. Please retry later."⟩
            redeemCode lib audience origin client normalized payload

end Codes

section Refresh
variable (audience : Text)

/-- An empty text is as good as none. -/
def given (s : Option Text) : Option Text := s.filter (· ≠ [])

/-- A `ValueError` or an invalid token becomes a status 401. -/
def unauthorized {α : Type} (reason : String) : Auth α := reject ⟨401, reason, ""⟩

def refreshTokens (refreshToken : Text) : Auth AuthResponse := do
  let claims ← (ask (.verifyToken refreshToken)).except fun
    | .invalidToken _ reason => unauthorized reason
    | e => raise e
  if claims.tokenType ≠ .refresh then unauthorized "Expected refresh token"
  else match given claims.jti with
    | none => unauthorized "Refresh token missing 'jti' claim"
    | some jti =>
      match ← ask (.consumeRefreshToken jti (.refresh refreshToken)) with
      | none => unauthorized "Refresh token has been revoked"
      | some address =>
        let access ← createToken audience address
        let refresh ← ask (.createRefreshToken address (some jti))
        return .refreshed access refresh

def getCurrentUser (accessToken : Text) : Auth Address := do
  let claims ← (ask (.verifyToken accessToken)).except fun
    | .invalidToken true _ => unauthorized "Token has expired"
    | .invalidToken false _ => unauthorized "Invalid token"
    | e => raise e
  if claims.tokenType ≠ .access then unauthorized "Expected access token"
  else return claims.sub

/-- The loop over the listed keys. -/
def revokeListed (request : AuthRequest) (user : Address) (revoked : ℕ) : List Text → Auth ℕ
  | [] => return revoked
  | jti :: rest => do
    if (← ask (.getRefreshToken jti)) = some user then
      if ← ask (.deleteRefreshToken jti request) then
        revokeListed request user (revoked + 1) rest
      else revokeListed request user revoked rest
    else revokeListed request user revoked rest

def revokeAllRefreshTokens (request : AuthRequest) (user : Address) : Auth ℕ := do
  revokeListed request user 0 (← ask (.refreshKeys user))

/-- The address of the token; none for the `ValueError`. -/
def verifyRefreshToken (token : Text) : Auth (Option Address) := do
  let claims ← ask (.verifyToken token)
  if claims.tokenType ≠ .refresh then return none
  else match given claims.jti with
    | none => return none
    | some jti =>
      if ← ask (.isRefreshTokenValid jti) then return some claims.sub
      else return none

def revokeRefreshToken (request : AuthRequest) (token : Text) : Auth Bool := do
  let claims ← (some <$> ask (.verifyToken token)).except fun
    | .invalidToken .. => return none
    | e => raise e
  match claims.bind fun c => given c.jti with
  | none => return false
  | some jti => ask (.deleteRefreshToken jti request)

def logout (accessToken : Text) (refreshToken : Option Text) (revokeAll : Bool) :
    Auth AuthResponse := do
  let request := AuthRequest.logout accessToken refreshToken revokeAll
  let user ← getCurrentUser accessToken
  if revokeAll then
    return .loggedOut (← revokeAllRefreshTokens request user)
  else match given refreshToken with
    | none => return .loggedOut 0
    | some token =>
      match ← verifyRefreshToken token with
      | none => return .loggedOut 0
      | some owner =>
        if owner ≠ user then
          reject ⟨403, "Cannot revoke refresh token belonging to another user", ""⟩
        else return .loggedOut (if ← revokeRefreshToken request token then 1 else 0)

end Refresh

section Service
variable (lib : AuthLibrary) (settings : AuthSettings) (audience : Text)

def handle : AuthRequest → Auth AuthResponse
  | .nonce origin address => getSiweNonce lib settings origin address
  | .login origin siweMessage signature => siweLogin lib settings audience origin siweMessage signature
  | .authorize origin siweMessage signature clientId redirectUri challenge method =>
    authorizeCode lib settings origin siweMessage signature clientId redirectUri challenge method
  | .token origin payload => exchangeCode lib settings audience origin payload
  | .refresh token => refreshTokens audience token
  | .logout accessToken refreshToken revokeAll => logout accessToken refreshToken revokeAll

def serve (request : AuthRequest) : Auth Unit := do
  let response ← handle lib settings audience request
  ask (.respond request response)

/-- A crash ends all tasks; the stores are on disk. -/
def authSystem :
    TaskSystem AuthWorld AuthOp AuthOp.Reply AuthFailure AuthChoice AuthMove AuthRequest where
  perform := authPerform lib audience
  move := authMove
  body := serve lib settings audience
  start _ w := some w
  leave _ w := w
  restart w := { w with holding := fun _ => none, recalling := fun _ => none }

end Service

end Privana
