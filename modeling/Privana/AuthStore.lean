import Mathlib.Logic.Function.Basic
import Privana.Coroutine
import Privana.OneTimeStore
import Privana.SiweLogin

/-! The world of the login service: the disk stores of nonces, authorization codes and
refresh tokens, which all worker processes share, and the JWTs that were signed. Every
store operation is atomic. It may fail, and then it has happened or not; an entry may
expire at any time. Keys are drawn fresh. Beside the stores stands what no code reads:
which request consumed which key, and the answers that were given. -/

namespace Privana
open BigEndian

structure AuthCodeRecord where
  userAddress : Address
  clientId : Text
  redirectUri : Text
  codeChallenge : Text
  codeChallengeMethod : Text
  deriving DecidableEq

structure TokenExchangeRequest where
  grantType : Text
  code : Text
  codeVerifier : Text
  clientId : Text
  redirectUri : Text
  deriving DecidableEq

/-- A request, with the normalised `Origin` header where a route reads it. -/
inductive AuthRequest where
  | nonce (origin : Option Text) (address : Text)
  | login (origin : Option Text) (siweMessage signature : Text)
  | authorize (origin : Option Text) (siweMessage signature clientId redirectUri codeChallenge
      codeChallengeMethod : Text)
  | token (origin : Option Text) (payload : TokenExchangeRequest)
  | refresh (refreshToken : Text)
  | logout (accessToken : Text) (refreshToken : Option Text) (revokeAll : Bool)
  deriving DecidableEq

/-- The successful answers; a JWT is given by its claims. -/
inductive AuthResponse where
  | nonce (address : Address) (nonce : Text)
  | login (siweToken : Bytes) (access refresh : Claims) (address : Address)
  | code (code : Text)
  | tokens (access idToken refresh : Claims) (address : Address)
  | refreshed (access refresh : Claims)
  | loggedOut (revoked : ℕ)
  deriving DecidableEq

/-- A one-time key that a request has consumed. -/
inductive Grant where
  | nonce (n : Text)
  | code (c : Text)
  | refresh (jti : Text)
  deriving DecidableEq

inductive AuthOp where
  /-- The seconds to wait, if the request is one too many. -/
  | rateLimit (bucket : String)
  | now
  | clientNonce (client : Address)
  | hasNonce (nonce : Text)
  /-- `secrets.token_hex`, and the entry under it. -/
  | storeNonce (client : Address)
  | setClientNonce (client : Address) (nonce : Text)
  /-- The pop of `consume_nonce`, with the request and the address it authenticates. -/
  | popNonce (nonce : Text) (request : AuthRequest) (address : Address)
  | deleteClientNonce (client : Address)
  | createAuthToken (claim : SiweClaim) (validUntil : ℤ)
  | createCode (record : AuthCodeRecord)
  | getCode (code : Text)
  /-- With the request that redeems the code. -/
  | consumeCode (code : Text) (request : AuthRequest)
  | signJwt (claims : Claims)
  /-- `create_refresh_token`, with the token that a rotation replaces. -/
  | createRefreshToken (address : Address) (parent : Option Text)
  | verifyToken (token : Text)
  | consumeRefreshToken (jti : Text) (request : AuthRequest)
  | isRefreshTokenValid (jti : Text)
  | deleteRefreshToken (jti : Text) (request : AuthRequest)
  /-- The keys of the store when `revoke_all_refresh_tokens_for_address` lists them. -/
  | refreshKeys (user : Address)
  | getRefreshToken (jti : Text)
  /-- The answer leaves the service. -/
  | respond (request : AuthRequest) (response : AuthResponse)

abbrev AuthOp.Reply : AuthOp → Type
  | rateLimit _ => Option ℕ
  | now => ℤ
  | clientNonce _ => Option Text
  | hasNonce _ => Bool
  | storeNonce _ => Text
  | setClientNonce .. => Unit
  | popNonce .. => Option Address
  | deleteClientNonce _ => Unit
  | createAuthToken .. => Bytes
  | createCode _ => Text
  | getCode _ => Option AuthCodeRecord
  | consumeCode .. => Option AuthCodeRecord
  | signJwt _ => Unit
  | createRefreshToken .. => Claims
  | verifyToken _ => Claims
  | consumeRefreshToken .. => Option Address
  | isRefreshTokenValid _ => Bool
  | deleteRefreshToken .. => Bool
  | refreshKeys _ => List Text
  | getRefreshToken _ => Option Address
  | respond .. => Unit

/-- What goes wrong inside a request. -/
inductive AuthFailure where
  | answer (error : AuthError)
  | invalidToken (expired : Bool) (reason : String)
  /-- An exception that becomes a status 500. -/
  | unhandled
  deriving DecidableEq

/-- A `revoke_all` of a user, with the tokens that had been issued when it began. -/
structure Recall where
  user : Address
  before : List (Text × Address)
  deriving DecidableEq

structure AuthWorld where
  nonces : OneTimeStore Text Address := {}
  clientNonces : Address → Option Text := fun _ => none
  codes : OneTimeStore Text AuthCodeRecord := {}
  refresh : OneTimeStore Text Address := {}
  signed : List Claims := []
  /-- Which nonce authenticated which address. -/
  authentications : List (Text × Address) := []
  /-- Which nonce stands behind a code. -/
  minted : List (Text × Text) := []
  /-- Which token a rotation replaced, and by which. -/
  rotations : List (Text × Text) := []
  /-- The key that a request of task `i` has consumed and not answered yet. -/
  holding : ℕ → Option Grant := fun _ => none
  /-- The recall that task `i` is about. -/
  recalling : ℕ → Option Recall := fun _ => none
  /-- The recalls that were answered. -/
  recalled : List Recall := []
  responses : List (AuthRequest × AuthResponse) := []

abbrev Auth := Coroutine AuthOp AuthOp.Reply AuthFailure

abbrev ask (op : AuthOp) : Auth op.Reply := Coroutine.await op

/-- How an operation turns out. A fault may come before or after the effect. -/
inductive AuthOutcome where
  | served
  | fresh (key : Text)
  | time (now : ℤ)
  | bytes (bs : Bytes)
  | limited (retryAfter : Option ℕ)
  | refused (expired : Bool) (reason : String)
  | failed

structure AuthChoice where
  outcome : AuthOutcome
  /-- The reply is lost. -/
  lost : Bool := false

inductive AuthMove where
  | expireNonce (nonce : Text)
  | expireClientNonce (client : Address)
  | expireCode (code : Text)
  | expireRefreshToken (jti : Text)

section Perform
variable (lib : AuthLibrary) (audience : Text)

namespace AuthWorld

variable (w : AuthWorld)

def popNonce (i : ℕ) (n : Text) (a : Address) : AuthWorld :=
  match w.nonces.find n with
  | some _ => { w with
      nonces := w.nonces.take n
      authentications := (n, a) :: w.authentications
      holding := Function.update w.holding i (some (.nonce n)) }
  | none => w

def createCode (i : ℕ) (code : Text) (record : AuthCodeRecord) : AuthWorld :=
  { w with
    codes := w.codes.put code record
    minted := match w.holding i with
      | some (.nonce n) => (code, n) :: w.minted
      | _ => w.minted }

def consumeCode (i : ℕ) (code : Text) : AuthWorld :=
  match w.codes.find code with
  | some _ => { w with
      codes := w.codes.take code
      holding := Function.update w.holding i (some (.code code)) }
  | none => w

def createRefreshToken (jti : Text) (claims : Claims) (address : Address)
    (parent : Option Text) : AuthWorld :=
  { w with
    refresh := w.refresh.put jti address
    signed := claims :: w.signed
    rotations := match parent with
      | some p => (jti, p) :: w.rotations
      | none => w.rotations }

def consumeRefreshToken (i : ℕ) (jti : Text) : AuthWorld :=
  match w.refresh.find jti with
  | some _ => { w with
      refresh := w.refresh.take jti
      holding := Function.update w.holding i (some (.refresh jti)) }
  | none => w

def startRecall (i : ℕ) (user : Address) : AuthWorld :=
  { w with recalling := Function.update w.recalling i (some ⟨user, w.refresh.issued⟩) }

def respond (i : ℕ) (request : AuthRequest) (response : AuthResponse) : AuthWorld :=
  { w with
    responses := (request, response) :: w.responses
    holding := Function.update w.holding i none
    recalled := match w.recalling i with
      | some r => r :: w.recalled
      | none => w.recalled
    recalling := Function.update w.recalling i none }

end AuthWorld

/-- The claims of a refresh token; `sub` and `jti` are what is read again. -/
def refreshClaims (address : Address) (jti : Text) : Claims :=
  ⟨address, .refresh, some jti, audience⟩

/-- What task `i` makes happen, and the reply; `none` if the choice is not possible. A
token is refused if it was not signed, and may be refused for other reasons. -/
def authEffect (i : ℕ) : (op : AuthOp) → AuthOutcome → AuthWorld →
    Option (Except AuthFailure op.Reply × AuthWorld)
  | .rateLimit _, .limited r, w => some (.ok r, w)
  | .now, .time t, w => some (.ok t, w)
  | .clientNonce client, .served, w => some (.ok (w.clientNonces client), w)
  | .hasNonce n, .served, w => some (.ok (w.nonces.has n), w)
  | .storeNonce client, .fresh n, w =>
    if n ∈ w.nonces.issued.map Prod.fst then none
    else some (.ok n, { w with nonces := w.nonces.put n client })
  | .setClientNonce client n, .served, w =>
    some (.ok (), { w with clientNonces := Function.update w.clientNonces client (some n) })
  | .popNonce n _ a, .served, w => some (.ok (w.nonces.find n), w.popNonce i n a)
  | .deleteClientNonce client, .served, w =>
    some (.ok (), { w with clientNonces := Function.update w.clientNonces client none })
  | .createAuthToken .., .bytes bs, w => some (.ok bs, w)
  | .createCode record, .fresh code, w =>
    if code ∈ w.codes.issued.map Prod.fst then none
    else some (.ok code, w.createCode i code record)
  | .getCode code, .served, w => some (.ok (w.codes.find code), w)
  | .consumeCode code _, .served, w => some (.ok (w.codes.find code), w.consumeCode i code)
  | .signJwt claims, .served, w => some (.ok (), { w with signed := claims :: w.signed })
  | .createRefreshToken address parent, .fresh jti, w =>
    if jti ∈ w.refresh.issued.map Prod.fst then none
    else
      let claims := refreshClaims audience address jti
      some (.ok claims, w.createRefreshToken jti claims address parent)
  | .verifyToken token, .served, w =>
    match lib.decodeJwt token with
    | some claims => if claims ∈ w.signed then some (.ok claims, w) else none
    | none => none
  | .verifyToken _, .refused expired reason, w => some (.error (.invalidToken expired reason), w)
  | .consumeRefreshToken jti _, .served, w =>
    some (.ok (w.refresh.find jti), w.consumeRefreshToken i jti)
  | .isRefreshTokenValid jti, .served, w => some (.ok (w.refresh.has jti), w)
  | .deleteRefreshToken jti _, .served, w =>
    some (.ok (w.refresh.has jti),
      if w.refresh.has jti then { w with refresh := w.refresh.drop jti } else w)
  | .refreshKeys user, .served, w =>
    some (.ok (w.refresh.entries.map Prod.fst), w.startRecall i user)
  | .getRefreshToken jti, .served, w => some (.ok (w.refresh.find jti), w)
  | .respond request response, .served, w => some (.ok (), w.respond i request response)
  | .respond .., .failed, _ => none
  | _, .failed, w => some (.error .unhandled, w)
  | _, _, _ => none

def authPerform (i : ℕ) (op : AuthOp) (c : AuthChoice) (w : AuthWorld) :
    Option (Except AuthFailure op.Reply × AuthWorld) :=
  (authEffect lib audience i op c.outcome w).map fun (r, v) =>
    (if c.lost then .error .unhandled else r, v)

end Perform

def authMove : AuthMove → AuthWorld → Option AuthWorld
  | .expireNonce n, w => some { w with nonces := w.nonces.drop n }
  | .expireClientNonce client, w =>
    some { w with clientNonces := Function.update w.clientNonces client none }
  | .expireCode code, w => some { w with codes := w.codes.drop code }
  | .expireRefreshToken jti, w => some { w with refresh := w.refresh.drop jti }

end Privana
