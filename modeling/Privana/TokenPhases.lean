import Privana.TransakTokens
import Privana.Typestate

/-! What a task of `TransakService` knows. Under the lock it knows the cached token and its own
answer to a refresh; a token that it has seen was stored by some refresh, and its own refresh
brought a token that is new to it. -/

namespace Privana
open BigEndian Coroutine

/-- The token in the `k`-th answer to a refresh. -/
def TransakPlatform.Answers (P : TransakPlatform) (k : ℕ) (token : AccessToken) : Prop :=
  ∃ response, P.refreshAnswer k = .ok response ∧ accessTokenOf response = .ok token

/-- Each refresh brings a new token. -/
def TransakPlatform.Fresh (P : TransakPlatform) : Prop :=
  ∀ j k s t, j < k → P.Answers j s → P.Answers k t → s.value ≠ t.value

/-- What a task has found out since it took the lock. -/
structure LockedSection where
  found : Option TokenReading
  fetched : Option TransakAnswer

structure TransakPhase where
  held : Option LockedSection
  known : List AccessToken
  /-- Its own refresh, and the tokens that it knew before. -/
  renewed : Option (AccessToken × List AccessToken)
  attempts : Option (List SendAttempt)
  offered : List Text

/-- The cached token does not do, whatever it is. -/
def RefreshCause.Allows (current : Option AccessToken) (known : List AccessToken) :
    RefreshCause → Prop
  | unavailable checkedAt => ∀ token, current = some token → token.expiresAt ≤ checkedAt
  | rejected used checkedAt => used ∈ known ∧ ∀ token, current = some token →
      token.value = used.value ∨ token.expiresAt ≤ checkedAt

def SendAttempt.Unauthorized (attempt : SendAttempt) : Prop :=
  ∃ response, attempt.answer = .ok response ∧ response.status = 401

namespace TransakPhase

def start : TransakPhase := ⟨none, [], none, some [], []⟩

def ended : TransakPhase := ⟨none, [], none, none, []⟩

def after (x : TransakPhase) : (op : TransakOp) → Except TransakError op.Reply → TransakPhase
  | .readToken, .ok reply => { x with
      held := x.held.map fun h => { h with found := some reply }
      known := reply.current.toList ++ x.known }
  | .acquireTokenLock, .ok _ => { x with held := some ⟨none, none⟩ }
  | .releaseTokenLock, _ => { x with held := none }
  | .refreshRequest, answer =>
    { x with held := x.held.map fun h => { h with fetched := some answer } }
  | .storeToken .., .ok token => { x with
      held := x.held.map fun _ => ⟨none, none⟩
      known := token :: x.known
      renewed := some (token, x.known) }
  | .send _ token, answer => { x with attempts := x.attempts.map fun l => l ++ [⟨token, answer⟩] }
  | .webhookTokens, .ok values => { x with offered := values }
  | _, _ => x

/-- A task that has sent its request once sends it again with another token. -/
def MaySend (x : TransakPhase) (token : AccessToken) : Prop :=
  x.attempts = some [] ∨ ∃ first, x.attempts = some [first] ∧ first.Unauthorized ∧
    (token.value ≠ first.token.value ∨ ∃ known, x.renewed = some (token, known) ∧
      first.token ∈ known)

def May (x : TransakPhase) : TransakOp → Prop
  | .readToken => True
  | .acquireTokenLock => x.held = none
  | .releaseTokenLock | .refreshRequest | .webhookTokens => x.held.isSome
  | .storeToken cause token => ∃ seen response,
      x.held = some ⟨some seen, some (.ok response)⟩ ∧ accessTokenOf response = .ok token ∧
        cause.Allows seen.current x.known
  | .send _ token => x.MaySend token
  | .jwtDecode _ key => key ∈ x.offered

end TransakPhase

section Worlds

variable (P : TransakPlatform)

/-- One of the first `n` answers brought the token. -/
def TransakPlatform.Brought (n : ℕ) (token : AccessToken) : Prop :=
  ∃ k < n, P.Answers k token

/-- The task waits for nothing and its answer is the last that the provider gave. -/
def Fetched (answer : TransakAnswer) (w : TransakWorld) : Prop :=
  ∃ k, w.refreshRequests = k + 1 ∧ P.refreshAnswer k = answer ∧
    ∀ r ∈ w.refreshes, P.Brought k r.token

structure TransakKnows (i : ℕ) (x : TransakPhase) (w : TransakWorld) : Prop where
  holder : w.holder = some i ↔ x.held.isSome
  found : ∀ {h seen}, x.held = some h → h.found = some seen → w.cache.currentToken = seen.current
  fetched : ∀ {h answer}, x.held = some h → h.fetched = some answer → Fetched P answer w
  known : ∀ {t}, t ∈ x.known → ∃ r ∈ w.refreshes, r.token = t
  renewed : ∀ {t known u}, P.Fresh → x.renewed = some (t, known) → u ∈ known → t.value ≠ u.value
  attempts : ∀ {l}, x.attempts = some l → w.attempts i = l
  offered : ∀ {v}, v ∈ x.offered → ∃ o ∈ w.offers, o.task = i ∧ v ∈ o.values

/-- What a refresh was for, seen from its record. -/
def TokenRefresh.Justified (r : TokenRefresh) : Prop :=
  match r.cause with
  | .unavailable checkedAt => ∀ token, r.replaced = some token → token.expiresAt ≤ checkedAt
  | .rejected used checkedAt => ∃ token, r.replaced = some token ∧
      (token.value = used.value ∨ token.expiresAt ≤ checkedAt)

/-- Every refresh replaced the token of the one before. -/
def Linked (refreshes : List TokenRefresh) : Prop :=
  ∀ pre r post, refreshes = pre ++ r :: post → r.replaced = pre.getLast?.map TokenRefresh.token

/-- The token of `q` came right before the current one, which `r` was the first to store. -/
def Precedes (refreshes : List TokenRefresh) (q r : TokenRefresh) : Prop :=
  ∃ pre same, refreshes = pre ++ q :: r :: same ∧ q.token.value ≠ r.token.value ∧
    ∀ x ∈ same, x.token.value = r.token.value

/-- Until when the token of `q` still verifies webhooks after `r`. -/
def overlapEnd (q r : TokenRefresh) : ℚ :=
  min ((q.token.expiresAt + webhookPreviousTokenOverlapSeconds : ℤ) : ℚ)
    (r.storedAt + webhookPreviousTokenOverlapSeconds)

/-- The current token, or its immediate predecessor within the overlap window. -/
def TokenOffer.Serves (o : TokenOffer) (v : Text) : Prop :=
  (∃ r, o.refreshes.getLast? = some r ∧ r.token.value = v ∧
    o.offeredAt ≤ (r.token.expiresAt + webhookPreviousTokenOverlapSeconds : ℤ)) ∨
  ∃ q r, Precedes o.refreshes q r ∧ q.token.value = v ∧ o.offeredAt ≤ overlapEnd q r

/-- The refreshes and the cache that they have left. -/
structure RefreshLog (w : TransakWorld) : Prop where
  current : w.cache.currentToken = w.refreshes.getLast?.map TokenRefresh.token
  previous : ∀ {t}, w.cache.previousToken = some t → ∃ q r, Precedes w.refreshes q r ∧
    q.token = t ∧ w.cache.previousTokenValidUntil = overlapEnd q r
  brought : ∀ {r}, r ∈ w.refreshes → P.Brought w.refreshRequests r.token
  fresh : P.Fresh → (w.refreshes.map fun r => r.token.value).Nodup
  linked : Linked w.refreshes
  justified : ∀ {r}, r ∈ w.refreshes → r.Justified

/-- A request is sent twice at most, and then with another token than the one rejected. -/
def SentOnceOrRetried (attempts : List SendAttempt) : Prop :=
  attempts.length ≤ 1 ∨ ∃ first second, attempts = [first, second] ∧ first.Unauthorized ∧
    (P.Fresh → second.token.value ≠ first.token.value)

structure TransakConsistent (tasks : ℕ) (w : TransakWorld) : Prop where
  log : RefreshLog P w
  vacant : ∀ {i}, tasks ≤ i → w.holder ≠ some i ∧ w.attempts i = []
  attempts : ∀ i, SentOnceOrRetried P (w.attempts i)
  serves : ∀ {o v}, o ∈ w.offers → v ∈ o.values → o.Serves v
  tried : ∀ {i v}, (i, v) ∈ w.tried → ∃ o ∈ w.offers, o.task = i ∧ v ∈ o.values

def transakTypestate :
    Typestate TransakWorld TransakOp TransakOp.Reply TransakError TransakPhase where
  may := TransakPhase.May
  reply _ _ := True
  after := TransakPhase.after
  world := TransakConsistent P
  knows := TransakKnows P
  ended := .ended

end Worlds

section Programs
variable {P : TransakPlatform} {α : Type} {x : TransakPhase}

def Gives (Q : α → TransakPhase → Prop) (r : Except TransakError α) (y : TransakPhase) : Prop :=
  ∀ a, r = .ok a → Q a y

theorem Follows.locked {body : TransakTask α} {Q : α → TransakPhase → Prop} (free : x.held = none)
    (h : body.Follows (transakTypestate P)
      (fun r y => y.held.isSome ∧ Gives Q r { y with held := none })
      { x with held := some ⟨none, none⟩ }) :
    (withTokenLock body).Follows (transakTypestate P) (Gives Q) x := by
  refine Follows.await free (fun _ _ => ?_) fun e _ a eq => by cases eq
  refine Follows.settle h fun r y ⟨held, result⟩ => ⟨held, fun reply _ => ?_⟩
  cases reply with
  | ok => exact result
  | error e => exact fun a eq => by cases eq

theorem refreshTokenLocked_follows {cause : RefreshCause} {seen : TokenReading}
    {h : LockedSection} (held : x.held = some h) (found : h.found = some seen)
    (allows : cause.Allows seen.current x.known) :
    (refreshTokenLocked cause).Follows (transakTypestate P)
      (fun r y => y.held.isSome ∧ Gives (fun token z => z.attempts = x.attempts ∧
        z.known = token :: x.known ∧ z.renewed = some (token, x.known)) r { y with held := none })
      x := by
  have isSome : x.held.isSome := by rw [held]; rfl
  refine Follows.await isSome (fun response _ => ?_) fun e _ => ⟨?_, fun a eq => by cases eq⟩
  · cases brought : accessTokenOf response with
    | error e =>
      exact ⟨by simpa [TransakPhase.after, transakTypestate] using isSome, fun a eq => by cases eq⟩
    | ok token =>
      refine ⟨⟨seen, response, ?_, brought, allows⟩, fun r _ => ?_⟩
      · show x.held.map (fun h => { h with fetched := some (.ok response) }) = _
        rw [held, Option.map_some, found]
      · cases r with
        | error e =>
          exact ⟨by simpa [TransakPhase.after, transakTypestate] using isSome,
            fun a eq => by cases eq⟩
        | ok stored =>
          refine ⟨by simpa [TransakPhase.after, transakTypestate] using isSome, fun a eq => ?_⟩
          cases eq
          exact ⟨rfl, rfl, rfl⟩
  · simpa [TransakPhase.after, transakTypestate] using isSome

theorem unexpiredToken_none {seen : TokenReading} (none : unexpiredToken seen = none)
    {token : AccessToken} (cached : seen.current = some token) : token.expiresAt ≤ seen.now := by
  simpa [unexpiredToken, cached] using none

theorem unexpiredToken_mem {seen : TokenReading} {token : AccessToken}
    (found : unexpiredToken seen = some token) : seen.current = some token :=
  (Option.filter_eq_some_iff.mp found).1

theorem otherToken_none {used : AccessToken} {seen : TokenReading}
    (none : otherToken used seen = none) {token : AccessToken}
    (cached : seen.current = some token) :
    token.value = used.value ∨ token.expiresAt ≤ seen.now := by
  cases unexpired : unexpiredToken seen with
  | none => exact .inr (unexpiredToken_none unexpired cached)
  | some other =>
    obtain rfl : other = token := Option.some_inj.mp ((unexpiredToken_mem unexpired).symm.trans cached)
    exact .inl (by simpa [otherToken, unexpired] using none)

theorem otherToken_some {used : AccessToken} {seen : TokenReading} {token : AccessToken}
    (found : otherToken used seen = some token) : token.value ≠ used.value := by
  simpa using (Option.filter_eq_some_iff.mp found).2

theorem accessToken_follows (free : x.held = none) : accessToken.Follows (transakTypestate P)
    (Gives fun token y => y.held = none ∧ y.attempts = x.attempts ∧ token ∈ y.known) x := by
  refine Follows.await trivial (fun seen _ => ?_) fun e _ a eq => by cases eq
  have held : ((transakTypestate P).after x .readToken (.ok seen)).held = none := by
    show x.held.map _ = none
    rw [free, Option.map_none]
  split
  · next token found =>
    intro a eq
    cases eq
    refine ⟨held, rfl, List.mem_append_left _ ?_⟩
    exact Option.mem_toList.mpr (unexpiredToken_mem found)
  · refine Follows.locked held ?_
    refine Follows.await trivial (fun seen _ => ?_) fun e _ => ⟨rfl, fun a eq => by cases eq⟩
    split
    · next token found =>
      refine ⟨rfl, fun a eq => ?_⟩
      cases eq
      refine ⟨rfl, rfl, List.mem_append_left _ ?_⟩
      exact Option.mem_toList.mpr (unexpiredToken_mem found)
    · next none =>
      have allows (known : List AccessToken) :
          (RefreshCause.unavailable seen.now).Allows seen.current known :=
        fun token cached => unexpiredToken_none none cached
      refine (refreshTokenLocked_follows rfl rfl (allows _)).imp fun r y ⟨held, given⟩ =>
        ⟨held, fun token eq => ?_⟩
      obtain ⟨attempts, known, -⟩ := given token eq
      exact ⟨rfl, attempts, known ▸ List.mem_cons_self⟩

theorem refreshAfterUnauthorized_follows {used : AccessToken} (free : x.held = none)
    (mem : used ∈ x.known) : (refreshAfterUnauthorized used).Follows (transakTypestate P)
    (Gives fun token y => y.held = none ∧ y.attempts = x.attempts ∧ (token.value ≠ used.value ∨
      ∃ known, y.renewed = some (token, known) ∧ used ∈ known)) x := by
  refine Follows.locked free ?_
  refine Follows.await trivial (fun seen _ => ?_) fun e _ => ⟨rfl, fun a eq => by cases eq⟩
  split
  · next token found =>
    refine ⟨rfl, fun a eq => ?_⟩
    cases eq
    exact ⟨rfl, rfl, .inl (otherToken_some found)⟩
  · next none =>
    have still : used ∈ seen.current.toList ++ x.known := List.mem_append_right _ mem
    have allows : (RefreshCause.rejected used seen.now).Allows seen.current
        (seen.current.toList ++ x.known) :=
      ⟨still, fun token cached => otherToken_none none cached⟩
    refine (refreshTokenLocked_follows rfl rfl allows).imp fun r y ⟨held, given⟩ =>
      ⟨held, fun token eq => ?_⟩
    obtain ⟨attempts, -, renewed⟩ := given token eq
    exact ⟨rfl, attempts, .inr ⟨_, renewed, still⟩⟩

theorem authenticatedJsonRequest_follows (request : ApiRequest) :
    (authenticatedJsonRequest request).Follows (transakTypestate P) (fun _ _ => True) .start := by
  refine Follows.bind (accessToken_follows rfl) (fun token y given => ?_) fun _ _ _ => trivial
  obtain ⟨held, attempts, known⟩ := given token rfl
  refine Follows.await (.inl attempts) (fun response _ => ?_) fun _ _ => trivial
  refine Follows.bind (R := fun _ _ => True) ?_ (fun _ _ _ => trivial) fun _ _ _ => trivial
  unfold retryUnauthorized
  split
  · next unauthorized =>
    refine Follows.bind (refreshAfterUnauthorized_follows held known)
      (fun token' z given => ?_) fun _ _ _ => trivial
    obtain ⟨-, attempts', other⟩ := given token' rfl
    refine ⟨.inr ⟨⟨token, .ok response⟩, ?_, ⟨response, rfl, unauthorized⟩, other⟩,
      fun _ _ => trivial⟩
    rw [attempts']
    show y.attempts.map _ = _
    rw [attempts]
    rfl
  · exact trivial

theorem tryTokens_follows {encoded : Text} {tokens : List Text}
    (offered : tokens ⊆ x.offered) :
    (tryTokens encoded tokens).Follows (transakTypestate P) (fun _ _ => True) x := by
  induction tokens generalizing x with
  | nil => exact trivial
  | cons token tokens ih =>
    refine Follows.await (offered List.mem_cons_self) (fun reply _ => ?_) fun _ _ => trivial
    split
    · exact ih fun _ h => offered (List.mem_cons_of_mem _ h)
    · exact trivial
    · exact trivial

theorem verifyWebhook_follows (rawBody : Bytes) :
    (verifyWebhook P rawBody).Follows (transakTypestate P) (fun _ _ => True) .start := by
  have start : (orRaise (webhookJwt P rawBody)).Follows (transakTypestate P)
      (fun _ y => y = .start) .start := rfl
  refine Follows.bind start (fun encoded y eq => ?_) fun _ _ _ => trivial
  subst eq
  refine Follows.bind (R := Gives fun tokens y => tokens ⊆ y.offered) ?_
    (fun tokens y given => tryTokens_follows (given tokens rfl)) fun _ _ _ => trivial
  refine Follows.locked rfl ⟨rfl, fun reply _ => ⟨?_, fun tokens eq => ?_⟩⟩
  · cases reply <;> rfl
  · cases eq
    exact List.Subset.refl _

/-- Looking for webhook tokens is all that a webhook does with the cache. -/
def TransakOp.readsOnly : TransakOp → Prop
  | acquireTokenLock | releaseTokenLock | webhookTokens | jwtDecode .. => True
  | _ => False

theorem verifyWebhook_uses (rawBody : Bytes) :
    (verifyWebhook P rawBody).Uses TransakOp.readsOnly := by
  have tries (encoded : Text) (tokens : List Text) :
      (tryTokens encoded tokens).Uses TransakOp.readsOnly := by
    induction tokens with
    | nil => exact trivial
    | cons token tokens ih =>
      refine ⟨trivial, fun reply => ?_⟩
      cases reply with
      | error e => exact trivial
      | ok decoded =>
        cases decoded with
        | ok payload => exact trivial
        | error e =>
          cases e with
          | invalidToken => exact ih
          | other => exact trivial
  unfold verifyWebhook
  cases webhookJwt P rawBody with
  | error e => exact trivial
  | ok encoded =>
    refine ⟨trivial, fun locked => ?_⟩
    cases locked with
    | error e => exact trivial
    | ok _ =>
      refine ⟨trivial, fun tokens => ⟨trivial, fun released => ?_⟩⟩
      cases released with
      | error e => exact trivial
      | ok _ =>
        cases tokens with
        | error e => exact trivial
        | ok tokens => exact tries encoded tokens

end Programs

end Privana
