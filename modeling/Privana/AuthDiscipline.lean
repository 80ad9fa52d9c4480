import Privana.AuthConsistency

/-! Every request follows its phases: it consumes a key only after the checks that belong to
it, and answers only for the key it has consumed. -/

namespace Privana
open BigEndian Coroutine

variable {lib : AuthLibrary} {settings : AuthSettings} {audience : Text} {x : AuthPhase}
  {α β : Type} {Q : α → AuthPhase → Prop} {R : β → AuthPhase → Prop}

/-- How a part of a request ends; an answer that is an error comes with empty hands. -/
def AuthPost (Q : α → AuthPhase → Prop) : Except AuthFailure α → AuthPhase → Prop
  | .ok a, x => Q a x
  | .error (.answer _), x => x.emptyHanded = true
  | .error _, _ => True

/-- A part of a request that starts in phase `x`. -/
abbrev Obedient (lib : AuthLibrary) (settings : AuthSettings) (p : Auth α)
    (Q : α → AuthPhase → Prop) (x : AuthPhase) : Prop :=
  p.Follows (authTypestate lib settings) (AuthPost Q) x

theorem authReply_error {op : AuthOp} {e : AuthFailure} (h : authReply lib op (.error e))
    (error : AuthError) : e ≠ .answer error := by
  cases op <;> exact h error

theorem AuthPost.error {e : AuthFailure} (h : AuthPost R (.error e) x) :
    AuthPost Q (.error e) x := by
  cases e <;> exact h

namespace Obedient

theorem result {a : α} (h : Q a x) : Obedient lib settings (pure a) Q x := h

theorem reject {error : AuthError} (h : x.emptyHanded = true) :
    Obedient lib settings (reject error) Q x := h

theorem unhandled : Obedient lib settings (raise .unhandled) Q x := trivial

theorem orReject {r : Except AuthError α} (h : x.emptyHanded = true) :
    Obedient lib settings (orReject r) (fun a y => y = x ∧ r = .ok a) x := by
  cases r with
  | ok a => exact ⟨rfl, rfl⟩
  | error error => exact h

theorem bind {p : Auth β} {f : β → Auth α} (h : Obedient lib settings p R x)
    (next : ∀ b y, R b y → Obedient lib settings (f b) Q y) :
    Obedient lib settings (p >>= f) Q x :=
  Follows.bind h next fun _ _ => AuthPost.error

/-- A part that keeps its phase. -/
theorem keep {p : Auth β} {f : β → Auth α} {P : β → Prop}
    (h : Obedient lib settings p (fun b y => y = x ∧ P b) x)
    (next : ∀ b, P b → Obedient lib settings (f b) Q x) :
    Obedient lib settings (p >>= f) Q x :=
  bind h fun b _ ⟨same, hb⟩ => same ▸ next b hb

theorem ask {op : AuthOp} {f : op.Reply → Auth α} (may : authMay lib settings x op)
    (next : ∀ a, authReply lib op (.ok a) → Obedient lib settings (f a) Q (x.after op (.ok a))) :
    Obedient lib settings (ask op >>= f) Q x :=
  Follows.await may next fun e he => by
    have none := authReply_error he
    cases e with
    | answer error => exact absurd rfl (none error)
    | invalidToken => trivial
    | unhandled => trivial

/-- An operation as the last step. -/
theorem ask_last {op : AuthOp} {Q : op.Reply → AuthPhase → Prop}
    (may : authMay lib settings x op)
    (last : ∀ a, authReply lib op (.ok a) → Q a (x.after op (.ok a))) :
    Obedient lib settings (Privana.ask op) Q x := by
  have h : Obedient lib settings (Privana.ask op >>= pure) Q x := ask may last
  rwa [bind_pure] at h

/-- A handler that ends or goes on after an operation that fails without any effect. -/
theorem except {op : AuthOp} {handler : AuthFailure → Auth op.Reply}
    {Q : op.Reply → AuthPhase → Prop} (may : authMay lib settings x op)
    (last : ∀ a, authReply lib op (.ok a) → Q a (x.after op (.ok a)))
    (handle : ∀ e, (∀ error, e ≠ .answer error) →
      Obedient lib settings (handler e) Q (x.after op (.error e))) :
    Obedient lib settings ((Privana.ask op).except handler) Q x :=
  ⟨may, fun r hr => by
    cases r with
    | ok a => exact last a hr
    | error e => exact handle e (authReply_error hr)⟩

end Obedient

section Parts

theorem rateLimit_obeys {bucket : String} {error : AuthError} (h : x.emptyHanded = true) :
    Obedient lib settings (enforceRateLimit bucket error) (fun _ y => y = x ∧ True) x := by
  refine .ask trivial fun limited _ => ?_
  cases limited with
  | none => exact ⟨rfl, trivial⟩
  | some retryAfter => exact .reject h

theorem signed_obeys {claims : Claims} (h : claims.jti = none) :
    Obedient lib settings (signed claims) (fun c y => y = x ∧ c = claims) x :=
  .ask h fun _ _ => ⟨rfl, rfl⟩

theorem createRefreshToken_obeys {a : Address} :
    Obedient lib settings (ask (.createRefreshToken a none)) (fun c y => y = x ∧ c.sub = a) x :=
  .ask_last (fun _ h => by cases h) fun _ hc => ⟨rfl, hc⟩

theorem drawNonce_obeys {client : Address} :
    Obedient lib settings (drawNonce client) (fun _ y => y = x ∧ True) x :=
  .ask trivial fun _ _ => .ask trivial fun _ _ => ⟨rfl, trivial⟩

theorem generateNonce_obeys {client : Address} :
    Obedient lib settings (generateNonce client) (fun _ y => y = x ∧ True) x := by
  refine .ask trivial fun existing _ => ?_
  cases existing with
  | none => exact drawNonce_obeys
  | some existing =>
    refine .ask trivial fun valid _ => ?_
    split
    · exact ⟨rfl, trivial⟩
    · exact drawNonce_obeys

theorem consumeNonce_obeys {n : Text} {request : AuthRequest} {a : Address}
    (passes : Authenticates lib settings request n a) :
    Obedient lib settings (consumeNonce n request a)
      (fun consumed y => y = if consumed then .authenticated request n a else .idle) .idle := by
  refine .ask ⟨rfl, passes⟩ fun client _ => ?_
  cases client with
  | none => exact rfl
  | some client => exact .ask trivial fun _ _ => rfl

theorem authenticate_obeys {request : AuthRequest} {siweMessage signature : Text}
    (siwe : siweOf request = some (siweMessage, signature)) :
    Obedient lib settings (authenticateSiweMessage lib settings request siweMessage signature)
      (fun result y => ∃ n, y = .authenticated request n result.address) .idle := by
  refine .keep (.orReject rfl) fun claim read => .ask trivial fun valid _ => ?_
  split
  · exact .reject rfl
  refine .keep (.orReject rfl) fun _ statement => .ask trivial fun verifiedAt _ => ?_
  refine .keep (.orReject rfl) fun _ signature' => .ask trivial fun now _ => ?_
  refine .keep (.orReject rfl) fun validUntil times => ?_
  have passes : Authenticates lib settings request claim.message.nonce claim.address :=
    ⟨siweMessage, signature, claim, verifiedAt, now, siwe,
      ⟨read, statement, signature', validUntil, times⟩, rfl, rfl⟩
  refine .keep (P := fun _ => True) ?_ fun siweToken _ => ?_
  · exact .except trivial (fun _ _ => ⟨rfl, trivial⟩) fun e _ => .reject rfl
  refine .bind (consumeNonce_obeys passes) fun consumed y same => ?_
  subst same
  cases consumed with
  | true => exact ⟨claim.message.nonce, rfl⟩
  | false => exact .reject rfl

end Parts

section Routes

theorem getSiweNonce_obeys {origin : Option Text} {address : Text} :
    Obedient lib settings (getSiweNonce lib settings origin address)
      (fun response y => y.Answers (.nonce origin address) response) .idle := by
  refine .keep (.orReject rfl) fun _ _ => .keep (rateLimit_obeys rfl) fun _ _ => ?_
  split
  · exact .reject rfl
  · exact .keep generateNonce_obeys fun _ _ => .nonce rfl

theorem siweLogin_obeys {origin : Option Text} {siweMessage signature : Text} :
    Obedient lib settings (siweLogin lib settings audience origin siweMessage signature)
      (fun response y => y.Answers (.login origin siweMessage signature) response) .idle := by
  refine .keep (.orReject rfl) fun _ _ => .keep (rateLimit_obeys rfl) fun _ _ => ?_
  refine .bind (authenticate_obeys rfl) fun result y ⟨n, same⟩ => ?_
  subst same
  refine .keep (signed_obeys rfl) fun access same => .keep createRefreshToken_obeys
    fun refresh sub => ?_
  subst same
  exact AuthPhase.Answers.login rfl sub

theorem authorizeCode_obeys {origin : Option Text}
    {siweMessage signature clientId redirectUri challenge method : Text} :
    Obedient lib settings (authorizeCode lib settings origin siweMessage signature clientId
        redirectUri challenge method)
      (fun response y => y.Answers (.authorize origin siweMessage signature clientId redirectUri
        challenge method) response) .idle := by
  refine .keep (.orReject rfl) fun _ _ => .keep (rateLimit_obeys rfl) fun _ _ => ?_
  split
  · exact .reject rfl
  split
  · exact .reject rfl
  split
  · exact .reject rfl
  refine .bind (authenticate_obeys rfl) fun result y ⟨n, same⟩ => ?_
  subst same
  split
  · exact .unhandled
  · exact .ask ⟨_, n, rfl⟩ fun code _ => AuthPhase.Answers.code

theorem verifyPkce_ok {codeVerifier codeChallenge codeChallengeMethod : Text}
    (h : verifyPkce lib codeVerifier codeChallenge codeChallengeMethod = .ok true) :
    codeChallengeMethod = text "S256" ∧ s256Challenge lib codeVerifier = codeChallenge := by
  unfold verifyPkce at h
  split at h
  · cases h
  · next method =>
    split at h
    · cases h
    · exact ⟨Decidable.of_not_not method, of_decide_eq_true (Except.ok.inj h)⟩

theorem issueTokens_obeys {client : AuthClient} {origin : Option Text}
    {payload : TokenExchangeRequest} {record : AuthCodeRecord} :
    Obedient lib settings (issueTokens audience client record.userAddress)
      (fun response y => y.Answers (.token origin payload) response)
      (.redeemed (.token origin payload) payload.code record) := by
  refine .keep (signed_obeys rfl) fun access same => .keep (signed_obeys rfl) fun idToken same' =>
    .keep createRefreshToken_obeys fun refresh sub => ?_
  subst same same'
  exact AuthPhase.Answers.tokens rfl rfl sub

theorem redeemCode_obeys {client : AuthClient} {origin : Option Text} {normalized : Text}
    {payload : TokenExchangeRequest}
    (normal : normalizeRedirectUri lib.toUrlLibrary payload.redirectUri = some normalized) :
    Obedient lib settings (redeemCode lib audience origin client normalized payload)
      (fun response y => y.Answers (.token origin payload) response) .idle := by
  refine .ask trivial fun record _ => ?_
  cases record with
  | none => exact .reject rfl
  | some record =>
    dsimp only
    split
    · exact .reject rfl
    · next clientId =>
      split
      · exact .reject rfl
      · next redirectUri =>
        split
        · exact .reject rfl
        · exact .reject rfl
        · next pkce =>
          obtain ⟨method, challenge⟩ := verifyPkce_ok pkce
          have redirect := normal.trans (congrArg some (Decidable.of_not_not redirectUri).symm)
          have redeems : Redeems lib payload record :=
            ⟨(Decidable.of_not_not clientId).symm, redirect, method, challenge⟩
          refine .ask ⟨record, origin, payload, rfl, rfl, rfl, redeems⟩ fun consumed _ => ?_
          cases consumed with
          | none => exact .reject rfl
          | some record' => exact issueTokens_obeys

theorem exchangeCode_obeys {origin : Option Text} {payload : TokenExchangeRequest} :
    Obedient lib settings (exchangeCode lib settings audience origin payload)
      (fun response y => y.Answers (.token origin payload) response) .idle := by
  unfold exchangeCode
  split
  · exact .reject rfl
  split
  · exact .reject rfl
  split
  · exact .reject rfl
  split
  · exact .unhandled
  · next normalized normal =>
    split
    · exact .unhandled
    split
    · exact .reject rfl
    · exact .keep (rateLimit_obeys rfl) fun _ _ => redeemCode_obeys normal

theorem given_eq_some {s : Option Text} {t : Text} (h : given s = some t) : s = some t :=
  (Option.filter_eq_some_iff.mp h).1

theorem refreshTokens_obeys {token : Text} :
    Obedient lib settings (refreshTokens audience token)
      (fun response y => y.Answers (.refresh token) response) .idle := by
  refine .bind (R := fun claims y => y = .bearer token claims) ?_ fun claims y same => ?_
  · refine .except trivial (fun _ _ => rfl) fun e none => ?_
    cases e with
    | answer error => exact absurd rfl (none error)
    | invalidToken => exact .reject rfl
    | unhandled => exact .unhandled
  subst same
  split
  · exact .reject rfl
  split
  · exact .reject rfl
  · next jti key =>
    refine .ask ⟨token, claims, rfl, rfl, given_eq_some key⟩ fun address _ => ?_
    cases address with
    | none => exact .reject rfl
    | some address =>
      refine .keep (signed_obeys rfl) fun access same => .ask ?_ fun refresh sub => ?_
      · exact fun _ h => ⟨_, claims, by rw [Option.some_inj.mp h]; rfl⟩
      · subst same
        exact AuthPhase.Answers.refreshed rfl sub

/-- A phase that may not have anything to answer for. -/
def AuthPhase.asks (token : Text) (claims : Claims) : AuthPhase → Prop
  | .bearer token' claims' | .presented token' claims' _ | .seen token' claims' _ _ =>
    token' = token ∧ claims' = claims
  | _ => False

theorem getCurrentUser_obeys {token : Text} :
    Obedient lib settings (getCurrentUser token)
      (fun user y => ∃ claims, y = .bearer token claims ∧ user = claims.sub) .idle := by
  refine .bind (R := fun claims y => y = .bearer token claims) ?_ fun claims y same => ?_
  · refine .except trivial (fun _ _ => rfl) fun e none => ?_
    cases e with
    | answer error => exact absurd rfl (none error)
    | invalidToken expired => cases expired <;> exact .reject rfl
    | unhandled => exact .unhandled
  subst same
  split
  · exact .reject rfl
  · exact ⟨claims, rfl, rfl⟩

theorem AuthPhase.asks_withOwner {token : Text} {claims : Claims} (h : x.asks token claims)
    (jti : Text) (owner : Address) : x.withOwner jti owner = .seen token claims jti owner := by
  cases x <;>
    first
      | exact h.elim
      | exact h.1 ▸ h.2 ▸ rfl

theorem AuthPhase.asks_emptyHanded {token : Text} {claims : Claims} (h : x.asks token claims) :
    x.emptyHanded = true := by
  cases x <;>
    first
      | exact h.elim
      | rfl

theorem revokeListed_obeys {request : AuthRequest} {token : Text} {claims : Claims}
    (user : requestUser lib request = (lib.decodeJwt token).map Claims.sub) {keys : List Text}
    {revoked : ℕ} (start : x.asks token claims) :
    Obedient lib settings (revokeListed request claims.sub revoked keys)
      (fun _ y => y.asks token claims) x := by
  induction keys generalizing revoked x with
  | nil => exact start
  | cons jti rest ih =>
    refine .ask trivial fun owner _ => ?_
    split
    · next own =>
      subst own
      dsimp only [AuthPhase.after]
      rw [AuthPhase.asks_withOwner start]
      refine .ask ⟨user, rfl, rfl⟩ fun deleted _ => ?_
      split
      · exact ih ⟨rfl, rfl⟩
      · exact ih ⟨rfl, rfl⟩
    · cases owner with
      | none => exact ih start
      | some owner =>
        dsimp only [AuthPhase.after]
        rw [AuthPhase.asks_withOwner start]
        exact ih ⟨rfl, rfl⟩

theorem verifyRefreshToken_obeys {token second : Text} {claims : Claims} :
    Obedient lib settings (verifyRefreshToken second)
      (fun owner y => ∃ claims', y = .presented token claims claims' ∧
        ∀ a, owner = some a → lib.decodeJwt second = some claims' ∧ a = claims'.sub)
      (.bearer token claims) := by
  refine .ask trivial fun claims' decoded => ?_
  split
  · exact ⟨claims', rfl, nofun⟩
  split
  · exact ⟨claims', rfl, nofun⟩
  · refine .ask trivial fun valid _ => ?_
    split
    · exact ⟨claims', rfl, fun a h => ⟨decoded, (Option.some_inj.mp h).symm⟩⟩
    · exact ⟨claims', rfl, nofun⟩

theorem revokeRefreshToken_obeys {request : AuthRequest} {token second : Text}
    {claims claims' : Claims}
    (user : requestUser lib request = (lib.decodeJwt token).map Claims.sub)
    (decoded : lib.decodeJwt second = some claims') (own : claims'.sub = claims.sub) :
    Obedient lib settings (revokeRefreshToken request second)
      (fun _ y => y.asks token claims) (.presented token claims claims') := by
  refine .keep (P := fun c => ∀ c', c = some c' → c' = claims') ⟨trivial, fun r hr => ?_⟩
    fun c known => ?_
  · cases r with
    | ok second' =>
      have same : second' = claims' := Option.some_inj.mp (hr.symm.trans decoded)
      exact ⟨same ▸ rfl, fun c' h => (Option.some_inj.mp h).symm.trans same⟩
    | error e =>
      cases e with
      | answer error => exact absurd rfl (hr error)
      | invalidToken => exact ⟨rfl, nofun⟩
      | unhandled => trivial
  split
  · exact ⟨rfl, rfl⟩
  · next jti key =>
    obtain ⟨c', verified, key⟩ := Option.bind_eq_some_iff.mp key
    obtain rfl := known c' verified
    exact .ask_last ⟨user, given_eq_some key, own⟩ fun _ _ => ⟨rfl, rfl⟩

theorem logout_obeys {accessToken : Text} {refreshToken : Option Text} {revokeAll : Bool} :
    Obedient lib settings (logout accessToken refreshToken revokeAll)
      (fun response y => y.Answers (.logout accessToken refreshToken revokeAll) response)
      .idle := by
  refine .bind getCurrentUser_obeys fun user y ⟨claims, same, sub⟩ => ?_
  subst same sub
  split
  · refine .bind (R := fun _ y => y.asks accessToken claims) ?_ fun revoked y h =>
      .loggedOut (AuthPhase.asks_emptyHanded h)
    exact .ask trivial fun keys _ => revokeListed_obeys rfl ⟨rfl, rfl⟩
  split
  · exact AuthPhase.Answers.loggedOut rfl
  refine .bind verifyRefreshToken_obeys fun owner y ⟨claims', same, known⟩ => ?_
  subst same
  split
  · exact AuthPhase.Answers.loggedOut rfl
  split
  · exact .reject rfl
  · next own =>
    obtain ⟨decoded, rfl⟩ := known _ rfl
    exact .bind (revokeRefreshToken_obeys rfl decoded (Decidable.of_not_not own)) fun _ y h =>
      .loggedOut (AuthPhase.asks_emptyHanded h)

theorem handle_obeys (request : AuthRequest) :
    Obedient lib settings (handle lib settings audience request)
      (fun response y => y.Answers request response) .idle := by
  cases request with
  | nonce => exact getSiweNonce_obeys
  | login => exact siweLogin_obeys
  | authorize => exact authorizeCode_obeys
  | token => exact exchangeCode_obeys
  | refresh => exact refreshTokens_obeys
  | logout => exact logout_obeys

theorem serve_obeys (request : AuthRequest) :
    Obedient lib settings (serve lib settings audience request) (fun _ _ => True) .idle :=
  .bind (handle_obeys request) fun _ _ answers => .ask_last answers fun _ _ => trivial

end Routes

/-- The whole service. -/
theorem authSystem_respects : (authSystem lib settings audience).Respects
    (authTypestate lib settings) (AuthPost fun _ _ => True) fun _ _ => True where
  perform := fun {n i x op c r w v} _ h hi known may performed => by
    have advance := perform_advances h hi known may performed
    exact ⟨perform_reply performed, advance.consistent, advance.knows, fun j y ne hy => advance.others_know ne hy⟩
  move _ h moved := by
    obtain ⟨consistent, grows, same⟩ := authMove_consistent h moved
    exact ⟨consistent, fun j y hy => ⟨by rw [same]; exact hy.1, y.facts_later grows hy.2⟩⟩
  start _ h started := by
    cases started
    exact ⟨{ h with custody := h.custody.more },
      ⟨.idle, serve_obeys _, fun _ => h.custody.vacant (Nat.le_refl _), trivial⟩,
      fun _ _ _ hy => hy⟩
  leave _ h := ⟨h, ⟨fun ne => absurd rfl ne, trivial⟩, fun _ _ _ hy => hy⟩
  restart {n w} _ h :=
    have more : w.Grows { w with holding := fun _ => none, recalling := fun _ => none } :=
      .same rfl rfl rfl rfl rfl
    { h with
      custody := h.custody.restart
      justified := fun y hy => (h.justified y hy).later more }
  cancelled := trivial

theorem authConsistent_empty : AuthConsistent lib settings 0 {} where
  nonces := OneTimeStore.sound_empty
  codes := OneTimeStore.sound_empty
  refresh := OneTimeStore.sound_empty
  signed h := (List.not_mem_nil h).elim
  authenticated h := (List.not_mem_nil h).elim
  authenticatedOnce := List.nodup_nil
  minted h := (List.not_mem_nil h).elim
  minted_issued := List.nil_subset _
  mintedOnce := List.nodup_nil
  rotated h := (List.not_mem_nil h).elim
  custody := .nothing _
  justified _ h := (List.not_mem_nil h).elim

end Privana
