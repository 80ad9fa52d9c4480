import Privana.AuthService
import Privana.Custody
import Privana.Typestate

/-! What a request knows while it is served. A phase records the one-time key that the task
has consumed, and which answer it may give for it. -/

namespace Privana

/-- The message and the signature of a request. -/
def siweOf : AuthRequest → Option (Text × Text)
  | .login _ siweMessage signature => some (siweMessage, signature)
  | .authorize _ siweMessage signature .. => some (siweMessage, signature)
  | _ => none

section Meaning
variable (lib : AuthLibrary) (settings : AuthSettings)

/-- The request carries a message for this nonce and this address that passes every check,
at the times when they were made. -/
def Authenticates (request : AuthRequest) (n : Text) (a : Address) : Prop :=
  ∃ siweMessage signature claim verifiedAt now, siweOf request = some (siweMessage, signature) ∧
    Passes lib settings siweMessage signature claim verifiedAt now ∧
    claim.message.nonce = n ∧ claim.address = a

def s256Challenge (codeVerifier : Text) : Text :=
  base64Url (lib.sha256 (codeVerifier.map fun c => UInt8.ofNat c.toNat))

/-- What `/auth/token` has to present for a code. -/
structure Redeems (payload : TokenExchangeRequest) (record : AuthCodeRecord) : Prop where
  client : payload.clientId = record.clientId
  redirect : normalizeRedirectUri lib.toUrlLibrary payload.redirectUri = some record.redirectUri
  method : record.codeChallengeMethod = text "S256"
  challenge : s256Challenge lib payload.codeVerifier = record.codeChallenge

/-- The user in whose name a refresh token is consumed or deleted. -/
def requestUser : AuthRequest → Option Address
  | .refresh token => (lib.decodeJwt token).map Claims.sub
  | .logout accessToken .. => (lib.decodeJwt accessToken).map Claims.sub
  | _ => none

/-- The one-time key that an answer is for. -/
def grantOf : AuthRequest × AuthResponse → Option Grant
  | (.login _ m _, .login ..) => ((lib.parseSiwe m).map SiweMessage.nonce).map .nonce
  | (.authorize _ m .., .code _) => ((lib.parseSiwe m).map SiweMessage.nonce).map .nonce
  | (.token _ payload, .tokens ..) => some (.code payload.code)
  | (.refresh token, .refreshed ..) =>
    ((lib.decodeJwt token).bind Claims.jti).map .refresh
  | _ => none

/-- Why an answer may be given. -/
inductive Justified (w : AuthWorld) : AuthRequest → AuthResponse → Prop where
  | nonce {origin address client n} : Justified w (.nonce origin address) (.nonce client n)
  | login {origin m s n siweToken access refresh a}
      (passes : Authenticates lib settings (.login origin m s) n a)
      (authenticated : (n, a) ∈ w.authentications) (accessSub : access.sub = a)
      (refreshSub : refresh.sub = a) :
      Justified w (.login origin m s) (.login siweToken access refresh a)
  | code {origin m s clientId redirectUri challenge method n code record}
      (passes : Authenticates lib settings
        (.authorize origin m s clientId redirectUri challenge method) n record.userAddress)
      (authenticated : (n, record.userAddress) ∈ w.authentications)
      (issued : (code, record) ∈ w.codes.issued) (minted : (code, n) ∈ w.minted) :
      Justified w (.authorize origin m s clientId redirectUri challenge method) (.code code)
  | tokens {origin payload record access idToken refresh}
      (issued : (payload.code, record) ∈ w.codes.issued) (redeems : Redeems lib payload record)
      (accessSub : access.sub = record.userAddress) (idSub : idToken.sub = record.userAddress)
      (refreshSub : refresh.sub = record.userAddress) :
      Justified w (.token origin payload) (.tokens access idToken refresh record.userAddress)
  | refreshed {token claims jti access refresh} (decoded : lib.decodeJwt token = some claims)
      (key : claims.jti = some jti) (issued : (jti, claims.sub) ∈ w.refresh.issued)
      (accessSub : access.sub = claims.sub) (refreshSub : refresh.sub = claims.sub) :
      Justified w (.refresh token) (.refreshed access refresh)
  | loggedOut {accessToken refreshToken revokeAll revoked} :
      Justified w (.logout accessToken refreshToken revokeAll) (.loggedOut revoked)

end Meaning

inductive AuthPhase where
  | idle
  | found (code : Text) (record : AuthCodeRecord)
  | bearer (token : Text) (claims : Claims)
  | presented (token : Text) (claims second : Claims)
  | seen (token : Text) (claims : Claims) (jti : Text) (owner : Address)
  | authenticated (request : AuthRequest) (n : Text) (a : Address)
  | minted (request : AuthRequest) (n code : Text) (record : AuthCodeRecord)
  | redeemed (request : AuthRequest) (code : Text) (record : AuthCodeRecord)
  | rotating (request : AuthRequest) (claims : Claims) (jti : Text) (owner : Address)
  /-- It has failed or answered. -/
  | ended

namespace AuthPhase

/-- What the task holds. -/
def grant : AuthPhase → Option Grant
  | authenticated _ n _ | minted _ n _ _ => some (.nonce n)
  | redeemed _ code _ => some (.code code)
  | rotating _ _ jti _ => some (.refresh jti)
  | _ => none

/-- Nothing has been consumed, for sure. -/
def emptyHanded : AuthPhase → Bool
  | ended => false
  | x => x.grant.isNone

end AuthPhase

/-- The operations that change nothing, also when their reply is lost. -/
def AuthOp.reads : AuthOp → Bool
  | rateLimit _ | now | clientNonce _ | hasNonce _ | createAuthToken .. | getCode _
  | verifyToken _ | isRefreshTokenValid _ | getRefreshToken _ => true
  | _ => false

namespace AuthPhase

def withRecord (code : Text) (record : AuthCodeRecord) : AuthPhase → AuthPhase
  | idle => found code record
  | x => x

def withClaims (token : Text) (claims : Claims) : AuthPhase → AuthPhase
  | idle => bearer token claims
  | bearer first user | presented first user _ => presented first user claims
  | x => x

def withOwner (jti : Text) (owner : Address) : AuthPhase → AuthPhase
  | bearer token claims | presented token claims _ | seen token claims _ _ =>
    seen token claims jti owner
  | x => x

def withCode (code : Text) (record : AuthCodeRecord) : AuthPhase → AuthPhase
  | authenticated request n _ => minted request n code record
  | x => x

def redeem (request : AuthRequest) : AuthPhase → AuthPhase
  | found code record => redeemed request code record
  | x => x

def rotate (request : AuthRequest) (jti : Text) (owner : Address) : AuthPhase → AuthPhase
  | bearer _ claims => rotating request claims jti owner
  | x => x

def after (x : AuthPhase) : (op : AuthOp) → Except AuthFailure op.Reply → AuthPhase
  | .getCode code, .ok (some record) => x.withRecord code record
  | .verifyToken token, .ok claims => x.withClaims token claims
  | .getRefreshToken jti, .ok (some owner) => x.withOwner jti owner
  | .popNonce n request a, .ok (some _) => authenticated request n a
  | .createCode record, .ok code => x.withCode code record
  | .consumeCode _ request, .ok (some _) => x.redeem request
  | .consumeRefreshToken jti request, .ok (some owner) => x.rotate request jti owner
  | .respond .., .ok _ => ended
  | _, .ok _ => x
  | op, .error _ => if op.reads then x else ended

end AuthPhase

section Phases
variable (lib : AuthLibrary) (settings : AuthSettings)

/-- The answers that a phase admits. -/
inductive AuthPhase.Answers : AuthPhase → AuthRequest → AuthResponse → Prop where
  | nonce {x : AuthPhase} {origin address client n} (empty : x.emptyHanded = true) :
      Answers x (.nonce origin address) (.nonce client n)
  | login {origin m s n a siweToken access refresh} (accessSub : access.sub = a)
      (refreshSub : refresh.sub = a) :
      Answers (.authenticated (.login origin m s) n a) (.login origin m s)
        (.login siweToken access refresh a)
  | code {origin m s clientId redirectUri challenge method n code record} :
      Answers
        (.minted (.authorize origin m s clientId redirectUri challenge method) n code record)
        (.authorize origin m s clientId redirectUri challenge method) (.code code)
  | tokens {origin payload record access idToken refresh}
      (accessSub : access.sub = record.userAddress) (idSub : idToken.sub = record.userAddress)
      (refreshSub : refresh.sub = record.userAddress) :
      Answers (.redeemed (.token origin payload) payload.code record) (.token origin payload)
        (.tokens access idToken refresh record.userAddress)
  | refreshed {token claims jti owner access refresh} (accessSub : access.sub = owner)
      (refreshSub : refresh.sub = owner) :
      Answers (.rotating (.refresh token) claims jti owner) (.refresh token)
        (.refreshed access refresh)
  | loggedOut {x : AuthPhase} {accessToken refreshToken revokeAll revoked}
      (empty : x.emptyHanded = true) :
      Answers x (.logout accessToken refreshToken revokeAll) (.loggedOut revoked)

/-- Whose token a request may delete. -/
def AuthPhase.Owns : AuthPhase → Text → AuthRequest → Prop
  | .presented token claims second, jti, request =>
    requestUser lib request = (lib.decodeJwt token).map Claims.sub ∧
      second.jti = some jti ∧ second.sub = claims.sub
  | .seen token claims jti' owner, jti, request =>
    requestUser lib request = (lib.decodeJwt token).map Claims.sub ∧
      jti' = jti ∧ owner = claims.sub
  | _, _, _ => False

def authMay (x : AuthPhase) : AuthOp → Prop
  | .popNonce n request a => x = .idle ∧ Authenticates lib settings request n a
  | .createCode record => ∃ request n, x = .authenticated request n record.userAddress
  | .consumeCode code request => ∃ record origin payload, x = .found code record ∧
      request = .token origin payload ∧ payload.code = code ∧ Redeems lib payload record
  | .signJwt claims => claims.jti = none
  | .createRefreshToken a parent =>
    ∀ jti, parent = some jti → ∃ request claims, x = .rotating request claims jti a
  | .consumeRefreshToken jti request => ∃ token claims, x = .bearer token claims ∧
      request = .refresh token ∧ claims.jti = some jti
  | .deleteRefreshToken jti request => x.Owns lib jti request
  | .respond request response => x.Answers request response
  | _ => True

/-- A new refresh token is for the address that was asked for, a verified token is what it
decodes to, and no operation answers. -/
def authReply : (op : AuthOp) → Except AuthFailure op.Reply → Prop
  | .createRefreshToken a _, .ok claims => claims.sub = a
  | .verifyToken token, .ok claims => lib.decodeJwt token = some claims
  | _, .ok _ => True
  | _, .error e => ∀ error, e ≠ .answer error

/-- What a phase says about the stores. -/
def AuthPhase.facts (w : AuthWorld) : AuthPhase → Prop
  | .idle | .ended => True
  | .found code record => (code, record) ∈ w.codes.issued
  | .bearer token claims => lib.decodeJwt token = some claims ∧ claims ∈ w.signed
  | .presented token claims second => lib.decodeJwt token = some claims ∧ second ∈ w.signed
  | .seen token claims jti owner =>
    lib.decodeJwt token = some claims ∧ (jti, owner) ∈ w.refresh.issued
  | .authenticated request n a =>
    Authenticates lib settings request n a ∧ (n, a) ∈ w.authentications
  | .minted request n code record => Authenticates lib settings request n record.userAddress ∧
      (n, record.userAddress) ∈ w.authentications ∧ (code, record) ∈ w.codes.issued ∧
      (code, n) ∈ w.minted
  | .redeemed request code record => (code, record) ∈ w.codes.issued ∧
      ∃ origin payload, request = .token origin payload ∧ payload.code = code ∧
        Redeems lib payload record
  | .rotating request claims jti owner => (∃ token, request = .refresh token ∧
      lib.decodeJwt token = some claims) ∧ claims.jti = some jti ∧ claims.sub = owner ∧
      (jti, owner) ∈ w.refresh.issued

def authKnows (i : ℕ) (x : AuthPhase) (w : AuthWorld) : Prop :=
  (x ≠ .ended → w.holding i = x.grant) ∧ x.facts lib settings w

end Phases

def AuthWorld.Taken (w : AuthWorld) : Grant → Prop
  | .nonce n => n ∈ w.nonces.taken.map Prod.fst
  | .code code => code ∈ w.codes.taken.map Prod.fst
  | .refresh jti => jti ∈ w.refresh.taken.map Prod.fst

/-- What holds of the stores and of the answers in every state, with so many tasks. -/
structure AuthConsistent (lib : AuthLibrary) (settings : AuthSettings) (tasks : ℕ)
    (w : AuthWorld) : Prop where
  nonces : w.nonces.Sound
  codes : w.codes.Sound
  refresh : w.refresh.Sound
  signed : ∀ {c jti}, c ∈ w.signed → c.jti = some jti → (jti, c.sub) ∈ w.refresh.issued
  authenticated : ∀ {n a}, (n, a) ∈ w.authentications → n ∈ w.nonces.taken.map Prod.fst
  authenticatedOnce : (w.authentications.map Prod.fst).Nodup
  minted : ∀ {code record}, (code, record) ∈ w.codes.issued →
    ∃ n, (code, n) ∈ w.minted ∧ (n, record.userAddress) ∈ w.authentications
  minted_issued : w.minted.map Prod.fst ⊆ w.codes.issued.map Prod.fst
  mintedOnce : (w.minted.map Prod.fst).Nodup
  rotated : ∀ {child parent}, (child, parent) ∈ w.rotations →
    ∃ a, (child, a) ∈ w.refresh.issued ∧ (parent, a) ∈ w.refresh.issued
  custody : Custody w.Taken w.holding (w.responses.filterMap (grantOf lib)) tasks
  justified : ∀ x ∈ w.responses, Justified lib settings w x.1 x.2

def authTypestate (lib : AuthLibrary) (settings : AuthSettings) :
    Typestate AuthWorld AuthOp AuthOp.Reply AuthFailure AuthPhase where
  may := authMay lib settings
  reply := authReply lib
  after := AuthPhase.after
  world := AuthConsistent lib settings
  knows := authKnows lib settings
  ended := .ended

end Privana
