import Privana.CheckedArithmetic
import Privana.OnrampIntent
import Privana.TaskPool

/-! The partner token of `TransakService`. Every authenticated request and every webhook is a task
over one cache with one lock; between two operations any other task may run. The provider answers
as it likes, and the clock shows any time. -/

namespace Privana
open BigEndian CheckedArithmetic Coroutine

structure AccessToken where
  value : Text
  expiresAt : ℤ
  deriving DecidableEq

inductive TransakError where
  | onRamp (message : Text)
  | api (message : Text)
  | rateLimit (message : Text)
  | notConfigured (message : Text)
  | webhookVerification (message : Text)
  | jwt
  deriving DecidableEq

/-- What `_json_request` gives back; an empty body has the payload `null`. -/
structure TransakResponse where
  status : ℤ
  payload : Json

/-- An answer of the partner API, or the error that `_json_request` raises instead. -/
abbrev TransakAnswer := Except TransakError TransakResponse

inductive JwtError where
  | invalidToken
  | other

/-- The partner API, which answers the requests for a token one after the other, and the libraries
that read a webhook. -/
structure TransakPlatform where
  refreshAnswer : ℕ → TransakAnswer
  strictJsonLoads : Bytes → Option Json
  jwtDecode : Text → Text → Except JwtError Json

def webhookPreviousTokenOverlapSeconds : ℤ := 15 * 60
def maxWebhookJwtBytes : ℕ := 256 * 1024
def maxProviderTextBytes : ℕ := 16 * 1024

section Payloads

def isVisibleAscii (value : Text) (maxBytes : ℕ) : Bool :=
  !value.isEmpty && value.length ≤ maxBytes && value.all fun c => 0x21 ≤ c.toNat && c.toNat ≤ 0x7E

def successfulPayload (response : TransakResponse) (operation : Text) : Except TransakError Json :=
  if response.status = 429 then
    .error (.rateLimit (text "Transak " ++ operation ++ text " is rate limited"))
  else if response.status < 200 ∨ 300 ≤ response.status then
    .error (.api (text "Transak " ++ operation ++ text " failed"))
  else
    match response.payload with
    | .null => .error (.api (text "Transak " ++ operation ++ text " response is malformed"))
    | payload => .ok payload

def isExactOrderNotFound (response : TransakResponse) : Bool :=
  response.status = 400 &&
    match memberOf (memberOf response.payload "error") "message" with
    | .str message => message = text "Invalid partnerOrderId or order not found"
    | _ => false

def accessTokenMalformed : TransakError :=
  .api (text "Transak access-token response is malformed")

/-- The token in an answer of the partner API. -/
def accessTokenOf (response : TransakResponse) : Except TransakError AccessToken := do
  let payload ← successfulPayload response (text "access-token refresh")
  let data := memberOf payload "data"
  match memberOf data "accessToken", memberOf data "expiresAt" with
  | .str value, .int expiresAt =>
    if isVisibleAscii value maxProviderTextBytes then .ok ⟨value, expiresAt⟩
    else .error accessTokenMalformed
  | _, _ => .error accessTokenMalformed

def invalidWebhookPayload : TransakError := .onRamp (text "Invalid Transak webhook payload")

/-- The JWT in the body of a webhook. -/
def webhookJwt (P : TransakPlatform) (rawBody : Bytes) : Except TransakError Text :=
  match P.strictJsonLoads rawBody with
  | none => .error (.onRamp (text "Invalid Transak webhook JSON"))
  | some payload =>
    match memberOf payload "data" with
    | .str encoded =>
      if encoded.isEmpty || !encoded.all (fun c => c.toNat < 128) ||
          maxWebhookJwtBytes < encoded.length then .error invalidWebhookPayload
      else .ok encoded
    | _ => .error invalidWebhookPayload

def webhookPayload (decoded : Json) : Except TransakError Json :=
  match memberOf decoded "webhookData", memberOf decoded "eventID" with
  | .obj _, .str eventId => if eventId.isEmpty then .error invalidWebhookPayload else .ok decoded
  | _, _ => .error invalidWebhookPayload

end Payloads

/-- Why a token is refreshed, with the clock when the cached one was looked at under the lock. -/
inductive RefreshCause where
  | unavailable (checkedAt : ℚ)
  | rejected (used : AccessToken) (checkedAt : ℚ)

structure ApiRequest where
  method : Text
  url : Text
  operation : Text
  exactNotFoundIsEmpty : Bool

/-- `self._current_token` and `self._now()`. -/
structure TokenReading where
  current : Option AccessToken
  now : ℚ

/-- What a task waits for, or does at once between two waits. -/
inductive TransakOp where
  | readToken
  | acquireTokenLock
  | releaseTokenLock
  /-- `POST /partners/api/v2/refresh-token`. -/
  | refreshRequest
  /-- The rest of `_refresh_token_locked`, which waits for nothing. -/
  | storeToken (cause : RefreshCause) (replacement : AccessToken)
  /-- `_json_request` with the token in its header. -/
  | send (request : ApiRequest) (token : AccessToken)
  | webhookTokens
  | jwtDecode (encoded key : Text)

def TransakOp.Reply : TransakOp → Type
  | readToken => TokenReading
  | acquireTokenLock | releaseTokenLock => Unit
  | refreshRequest => TransakResponse
  | storeToken .. => AccessToken
  | send .. => TransakResponse
  | webhookTokens => List Text
  | jwtDecode .. => Except JwtError Json

abbrev TransakTask := Coroutine TransakOp TransakOp.Reply TransakError

section Programs
variable {α : Type}

def awaitOp (op : TransakOp) : TransakTask op.Reply := await op

def orRaise : Except TransakError α → TransakTask α := done

/-- `async with self._token_lock`. -/
def withTokenLock (body : TransakTask α) : TransakTask α := do
  awaitOp .acquireTokenLock
  body.ensure (awaitOp .releaseTokenLock)

def refreshTokenLocked (cause : RefreshCause) : TransakTask AccessToken := do
  let response ← awaitOp .refreshRequest
  let replacement ← orRaise (accessTokenOf response)
  awaitOp (.storeToken cause replacement)

/-- `current is not None and self._now() < current.expires_at`. -/
def unexpiredToken (seen : TokenReading) : Option AccessToken :=
  seen.current.filter fun token => seen.now < token.expiresAt

def accessToken : TransakTask AccessToken := do
  let seen ← awaitOp .readToken
  match unexpiredToken seen with
  | some token => return token
  | none =>
    withTokenLock do
      let seen ← awaitOp .readToken
      match unexpiredToken seen with
      | some token => return token
      | none => refreshTokenLocked (.unavailable seen.now)

/-- A cached token other than the one that was rejected. -/
def otherToken (used : AccessToken) (seen : TokenReading) : Option AccessToken :=
  (unexpiredToken seen).filter fun token => token.value ≠ used.value

def refreshAfterUnauthorized (used : AccessToken) : TransakTask AccessToken :=
  withTokenLock do
    let seen ← awaitOp .readToken
    match otherToken used seen with
    | some token => return token
    | none => refreshTokenLocked (.rejected used seen.now)

def retryUnauthorized (request : ApiRequest) (token : AccessToken) (response : TransakResponse) :
    TransakTask TransakResponse :=
  if response.status = 401 then do
    let token ← refreshAfterUnauthorized token
    awaitOp (.send request token)
  else pure response

def requestPayload (request : ApiRequest) (response : TransakResponse) : Except TransakError Json :=
  if request.exactNotFoundIsEmpty && isExactOrderNotFound response then
    .ok (.obj [(text "data", .arr [])])
  else successfulPayload response request.operation

def authenticatedJsonRequest (request : ApiRequest) : TransakTask Json := do
  let token ← accessToken
  let response ← awaitOp (.send request token)
  let response ← retryUnauthorized request token response
  orRaise (requestPayload request response)

def tryTokens (encoded : Text) : List Text → TransakTask Json
  | [] => raise (.webhookVerification (text "Transak webhook signature mismatch"))
  | token :: tokens => do
    match ← awaitOp (.jwtDecode encoded token) with
    | .error .invalidToken => tryTokens encoded tokens
    | .error .other => raise .jwt
    | .ok decoded => orRaise (webhookPayload decoded)

def cachedWebhookVerificationTokens : TransakTask (List Text) :=
  withTokenLock (awaitOp .webhookTokens)

def verifyWebhook (P : TransakPlatform) (rawBody : Bytes) : TransakTask Json := do
  let encoded ← orRaise (webhookJwt P rawBody)
  let tokens ← cachedWebhookVerificationTokens
  tryTokens encoded tokens

end Programs

structure TokenCache where
  currentToken : Option AccessToken
  previousToken : Option AccessToken
  previousTokenValidUntil : ℚ

/-- A successful refresh. -/
structure TokenRefresh where
  cause : RefreshCause
  replaced : Option AccessToken
  token : AccessToken
  storedAt : ℚ

structure SendAttempt where
  token : AccessToken
  answer : TransakAnswer

/-- Tokens that a webhook may be tried with, and the refreshes until then. -/
structure TokenOffer where
  task : ℕ
  offeredAt : ℚ
  refreshes : List TokenRefresh
  values : List Text

/-- The cache, the lock and the clock, with what the tasks have done since the process started. -/
structure TransakWorld where
  now : ℚ
  cache : TokenCache
  holder : Option ℕ
  refreshRequests : ℕ
  refreshes : List TokenRefresh
  attempts : ℕ → List SendAttempt
  offers : List TokenOffer
  tried : List (ℕ × Text)

namespace TokenCache

def empty : TokenCache := ⟨none, none, 0⟩

/-- The replaced token stays for a while if the new one is another. -/
def store (cache : TokenCache) (replacement : AccessToken) (now : ℚ) : TokenCache :=
  match cache.currentToken with
  | some previous =>
    if previous.value ≠ replacement.value then
      { currentToken := some replacement
        previousToken := some previous
        previousTokenValidUntil :=
          min ((previous.expiresAt + webhookPreviousTokenOverlapSeconds : ℤ) : ℚ)
            (now + webhookPreviousTokenOverlapSeconds) }
    else { cache with currentToken := some replacement }
  | none => { cache with currentToken := some replacement }

def currentValues (cache : TokenCache) (now : ℚ) : List Text :=
  match cache.currentToken with
  | some current =>
    if now ≤ (current.expiresAt + webhookPreviousTokenOverlapSeconds : ℤ) then [current.value]
    else []
  | none => []

/-- The previous token, unless it is too old or is offered already. -/
def previousValues (cache : TokenCache) (now : ℚ) (values : List Text) : List Text :=
  match cache.previousToken with
  | some previous =>
    if now ≤ cache.previousTokenValidUntil ∧ previous.value ∉ values then [previous.value] else []
  | none => []

def webhookValues (cache : TokenCache) (now : ℚ) : List Text :=
  cache.currentValues now ++ cache.previousValues now (cache.currentValues now)

/-- What looking for the tokens of a webhook leaves. -/
def forgetPrevious (cache : TokenCache) (now : ℚ) : TokenCache :=
  if now ≤ cache.previousTokenValidUntil then cache
  else { cache with previousToken := none, previousTokenValidUntil := 0 }

end TokenCache

namespace TransakWorld

def initial (now : ℚ) : TransakWorld := ⟨now, .empty, none, 0, [], fun _ => [], [], []⟩

def store (w : TransakWorld) (cause : RefreshCause) (replacement : AccessToken) : TransakWorld :=
  { w with
    cache := w.cache.store replacement w.now
    refreshes := w.refreshes ++ [⟨cause, w.cache.currentToken, replacement, w.now⟩] }

def sent (w : TransakWorld) (i : ℕ) (attempt : SendAttempt) : TransakWorld :=
  { w with attempts := Function.update w.attempts i (w.attempts i ++ [attempt]) }

def offer (w : TransakWorld) (i : ℕ) : TransakWorld :=
  { w with
    cache := w.cache.forgetPrevious w.now
    offers := w.offers ++ [⟨i, w.now, w.refreshes, w.cache.webhookValues w.now⟩] }

/-- A task that goes releases the lock. -/
def unlock (w : TransakWorld) (i : ℕ) : TransakWorld :=
  if w.holder = some i then { w with holder := none } else w

end TransakWorld

def transakPerform (P : TransakPlatform) (i : ℕ) (op : TransakOp) (answer : TransakAnswer)
    (w : TransakWorld) : Option (Except TransakError op.Reply × TransakWorld) :=
  match op with
  | .readToken => some (.ok ⟨w.cache.currentToken, w.now⟩, w)
  | .acquireTokenLock =>
    match w.holder with
    | none => some (.ok (), { w with holder := some i })
    | some _ => none
  | .releaseTokenLock => some (.ok (), w.unlock i)
  | .refreshRequest =>
    some (P.refreshAnswer w.refreshRequests, { w with refreshRequests := w.refreshRequests + 1 })
  | .storeToken cause replacement =>
    if replacement.expiresAt ≤ truncate w.now then some (.error accessTokenMalformed, w)
    else some (.ok replacement, w.store cause replacement)
  | .send _ token => some (answer, w.sent i ⟨token, answer⟩)
  | .webhookTokens =>
    if (w.cache.webhookValues w.now).isEmpty then
      some (.error (.notConfigured (text "Transak webhook verification token is unavailable")),
        w.offer i)
    else some (.ok (w.cache.webhookValues w.now), w.offer i)
  | .jwtDecode encoded key =>
    some (.ok (P.jwtDecode encoded key), { w with tried := w.tried ++ [(i, key)] })

inductive TransakCall where
  | request (request : ApiRequest)
  | webhook (rawBody : Bytes)

instance jsonInhabited : Inhabited Json := ⟨.null⟩

def transakSystem (P : TransakPlatform) :
    TaskSystem TransakWorld TransakOp TransakOp.Reply TransakError TransakAnswer ℚ TransakCall
      Json where
  perform := transakPerform P
  move now w := some { w with now }
  body
    | .request request => authenticatedJsonRequest request
    | .webhook rawBody => verifyWebhook P rawBody
  start _ w := some w
  leave i w := w.unlock i
  restart w := { TransakWorld.initial w.now with refreshRequests := w.refreshRequests }

end Privana
