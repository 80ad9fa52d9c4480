import Privana.AuthDiscipline
import Privana.SoloRun

/-! A request that is served without faults: the stores answer, and no limit is reached. It
does what its checks decide, so a valid one gets its answer. -/

namespace Privana
open BigEndian Coroutine

/-- How the operations of one request turn out. -/
abbrev AuthChooser := AuthOp → AuthWorld → AuthChoice

/-- The operations of task `i`, as they turn out. -/
def servePerform (lib : AuthLibrary) (audience : Text) (i : ℕ) (choose : AuthChooser) (op : AuthOp)
    (w : AuthWorld) : Option (Except AuthFailure op.Reply × AuthWorld) :=
  authPerform lib audience i op (choose op w) w

/-- No operation fails, and no limit is reached. -/
structure Serves (lib : AuthLibrary) (audience : Text) (i : ℕ) (choose : AuthChooser) : Prop where
  possible : ∀ op w, (servePerform lib audience i choose op w).isSome
  kept : ∀ op w, (choose op w).lost = false
  served : ∀ op w, (choose op w).outcome ≠ .failed
  unlimited : ∀ op w n, (choose op w).outcome ≠ .limited (some n)

variable {lib : AuthLibrary} {settings : AuthSettings} {audience : Text} {w v : AuthWorld}
  {i : ℕ} {choose : AuthChooser}

theorem verifyPkce_of_challenge {codeVerifier codeChallenge codeChallengeMethod : Text}
    (method : codeChallengeMethod = text "S256") (ascii : ∀ c ∈ codeVerifier, c.toNat < 128)
    (challenge : s256Challenge lib codeVerifier = codeChallenge) :
    verifyPkce lib codeVerifier codeChallenge codeChallengeMethod = .ok true := by
  have none : (codeVerifier.any fun c => 128 ≤ c.toNat) = false := by
    simpa using ascii
  have same : base64Url (lib.sha256 (codeVerifier.map fun c => UInt8.ofNat c.toNat)) =
      codeChallenge := challenge
  rw [verifyPkce, if_neg (not_not_intro method), none, if_neg Bool.false_ne_true, decide_eq_true same]

namespace Serves

variable (serves : Serves lib audience i choose)
include serves

theorem ask {op : AuthOp} {post : op.Reply → AuthWorld → Prop}
    (h : ∀ c r v, c = (choose op w).outcome → c ≠ .failed → (∀ n, c ≠ .limited (some n)) →
      authEffect lib audience i op c w = some (r, v) → ∃ a, r = .ok a ∧ post a v) :
    (ask op).Succeeds (servePerform lib audience i choose) w post := by
  obtain ⟨⟨r, v⟩, performed⟩ := Option.isSome_iff_exists.mp (serves.possible op w)
  obtain ⟨⟨r', v'⟩, effect, same⟩ := Option.map_eq_some_iff.mp performed
  obtain ⟨rfl, rfl⟩ := Prod.mk.inj same
  obtain ⟨a, rfl, ha⟩ := h _ r' v' rfl (serves.served op w) (serves.unlimited op w) effect
  rw [serves.kept op w, if_neg Bool.false_ne_true] at performed
  exact .await performed ha

theorem hasNonce (n : Text) : (Privana.ask (.hasNonce n)).Succeeds
    (servePerform lib audience i choose) w fun valid v => valid = w.nonces.has n ∧ w = v :=
  serves.ask fun c r v _ served _ effect => by
    cases c <;> first | exact absurd rfl served | cases effect <;> exact ⟨_, rfl, rfl, rfl⟩

theorem now : (Privana.ask .now).Succeeds (servePerform lib audience i choose) w
    fun t v => (choose .now w).outcome = .time t ∧ w = v :=
  serves.ask fun c r v chosen served _ effect => by
    cases c <;> first | exact absurd rfl served | cases effect <;> exact ⟨_, rfl, chosen.symm, rfl⟩

theorem createAuthToken (claim : SiweClaim) (validUntil : ℤ) :
    (Privana.ask (.createAuthToken claim validUntil)).Succeeds
      (servePerform lib audience i choose) w fun _ v => w = v :=
  serves.ask fun c r v _ served _ effect => by
    cases c <;> first | exact absurd rfl served | cases effect <;> exact ⟨_, rfl, rfl⟩

theorem popNonce (n : Text) (request : AuthRequest) (a : Address) :
    (Privana.ask (.popNonce n request a)).Succeeds (servePerform lib audience i choose) w
      fun client _ => client = w.nonces.find n :=
  serves.ask fun c r v _ served _ effect => by
    cases c <;> first | exact absurd rfl served | cases effect <;> exact ⟨_, rfl, rfl⟩

theorem deleteClientNonce (client : Address) : (Privana.ask (.deleteClientNonce client)).Succeeds
    (servePerform lib audience i choose) w fun _ _ => True :=
  serves.ask fun c r v _ served _ effect => by
    cases c <;> first | exact absurd rfl served | cases effect <;> exact ⟨_, rfl, trivial⟩

theorem rateLimit (bucket : String) : (Privana.ask (.rateLimit bucket)).Succeeds
    (servePerform lib audience i choose) w fun limited v => limited = none ∧ w = v :=
  serves.ask fun c r v _ served unlimited effect => by
    cases c with
    | limited retryAfter =>
      cases effect
      cases retryAfter with
      | none => exact ⟨_, rfl, rfl, rfl⟩
      | some n => exact absurd rfl (unlimited n)
    | failed => exact absurd rfl served
    | _ => cases effect

theorem getCode (code : Text) : (Privana.ask (.getCode code)).Succeeds
    (servePerform lib audience i choose) w fun record v => record = w.codes.find code ∧ w = v :=
  serves.ask fun c r v _ served _ effect => by
    cases c <;> first | exact absurd rfl served | cases effect <;> exact ⟨_, rfl, rfl, rfl⟩

theorem consumeCode (code : Text) (request : AuthRequest) :
    (Privana.ask (.consumeCode code request)).Succeeds (servePerform lib audience i choose) w
      fun record _ => record = w.codes.find code :=
  serves.ask fun c r v _ served _ effect => by
    cases c <;> first | exact absurd rfl served | cases effect <;> exact ⟨_, rfl, rfl⟩

theorem signJwt (claims : Claims) : (Privana.ask (.signJwt claims)).Succeeds
    (servePerform lib audience i choose) w fun _ _ => True :=
  serves.ask fun c r v _ served _ effect => by
    cases c <;> first | exact absurd rfl served | cases effect <;> exact ⟨_, rfl, trivial⟩

theorem createRefreshToken (a : Address) (parent : Option Text) :
    (Privana.ask (.createRefreshToken a parent)).Succeeds (servePerform lib audience i choose) w
      fun claims _ => claims.sub = a :=
  serves.ask fun c r v _ served _ effect => by
    cases c with
    | fresh jti =>
      rcases Decidable.em (jti ∈ w.refresh.issued.map Prod.fst) with used | fresh
      · cases (if_pos used).symm.trans effect
      · cases (if_neg fresh).symm.trans effect
        exact ⟨_, rfl, rfl⟩
    | failed => exact absurd rfl served
    | _ => cases effect

/-- A valid message for a stored nonce authenticates. -/
theorem authenticate {request : AuthRequest} {siweMessage signature : Text} {claim : SiweClaim}
    {b : Address}
    (passes : ∀ t, (choose .now w).outcome = .time t →
      Passes lib settings siweMessage signature claim t t)
    (found : w.nonces.find claim.message.nonce = some b) :
    (authenticateSiweMessage lib settings request siweMessage signature).Succeeds
      (servePerform lib audience i choose) w fun result _ => result.address = claim.address := by
  obtain ⟨t, -, -, time, -⟩ := serves.now (w := w)
  obtain ⟨read, statement, -, -⟩ := passes t time
  have has : w.nonces.has claim.message.nonce = true := Option.isSome_iff_exists.mpr ⟨b, found⟩
  refine .bind (R := fun c v => c = claim ∧ w = v) ?_ fun _ _ ⟨same, same'⟩ => ?_
  · rw [read]
    exact .result ⟨rfl, rfl⟩
  subst same same'
  refine .bind (serves.hasNonce _) fun _ _ ⟨same, same'⟩ => ?_
  subst same same'
  rw [has]
  refine .bind (R := fun _ v => w = v) ?_ fun _ _ same => ?_
  · rw [statement]
    exact .result rfl
  subst same
  refine .bind serves.now fun verifiedAt _ ⟨time, same⟩ => ?_
  subst same
  refine .bind (R := fun _ v => w = v) ?_ fun _ _ same => ?_
  · rw [(passes _ time).signature]
    exact .result rfl
  subst same
  refine .bind serves.now fun now _ ⟨time, same⟩ => ?_
  subst same
  obtain ⟨validUntil, times⟩ := (passes _ time).times
  refine .bind (R := fun _ v => w = v) ?_ fun _ _ same => ?_
  · rw [times]
    exact .result rfl
  subst same
  refine .bind (serves.createAuthToken _ _).except fun siweToken _ same => ?_
  subst same
  refine .bind (R := fun consumed _ => consumed = true) ?_ fun _ _ same => ?_
  · refine .bind (serves.popNonce _ _ _) fun _ _ same => ?_
    subst same
    rw [found]
    exact .bind (serves.deleteClientNonce _) fun _ _ _ => .result rfl
  subst same
  exact .result rfl

theorem issueTokens {client : AuthClient} {a : Address} :
    (issueTokens audience client a).Succeeds (servePerform lib audience i choose) w
      fun response _ => ∃ access idToken refresh, response = .tokens access idToken refresh a ∧
        access.sub = a ∧ idToken.sub = a ∧ refresh.sub = a := by
  refine .bind (R := fun access _ => access.sub = a) ?_ fun access _ accessSub => ?_
  · exact .bind (serves.signJwt _) fun _ _ _ => .result rfl
  refine .bind (R := fun idToken _ => idToken.sub = a) ?_ fun idToken _ idSub => ?_
  · exact .bind (serves.signJwt _) fun _ _ _ => .result rfl
  exact .bind (serves.createRefreshToken a none) fun refresh _ refreshSub =>
    .result ⟨access, idToken, refresh, rfl, accessSub, idSub, refreshSub⟩

/-- A request that presents what a stored code asks for is answered with tokens. -/
theorem redeemCode {client : AuthClient} {origin : Option Text} {payload : TokenExchangeRequest}
    {record : AuthCodeRecord} (found : w.codes.find payload.code = some record)
    (redeems : Redeems lib payload record) (ascii : ∀ c ∈ payload.codeVerifier, c.toNat < 128) :
    (redeemCode lib audience origin client record.redirectUri payload).Succeeds
      (servePerform lib audience i choose) w fun response _ => ∃ access idToken refresh,
        response = .tokens access idToken refresh record.userAddress ∧
        access.sub = record.userAddress ∧ idToken.sub = record.userAddress ∧
        refresh.sub = record.userAddress := by
  refine .bind (serves.getCode _) fun _ _ ⟨same, same'⟩ => ?_
  subst same same'
  rw [found]
  dsimp only
  rw [if_neg (not_not_intro redeems.client.symm), if_neg (not_not_intro rfl),
    verifyPkce_of_challenge redeems.method ascii redeems.challenge]
  refine .bind (serves.consumeCode _ _) fun _ _ same => ?_
  subst same
  rw [found]
  exact serves.issueTokens

theorem exchangeCode {client : AuthClient} {origin : Option Text} {expectedOrigin : Text}
    {payload : TokenExchangeRequest} {record : AuthCodeRecord}
    (registered : getClient settings payload.clientId = some client)
    (grant : payload.grantType = text "authorization_code")
    (redirect : validateRedirectUri lib settings payload.clientId payload.redirectUri = true)
    (expected : redirectOrigin lib.toUrlLibrary record.redirectUri = some expectedOrigin)
    (sameOrigin : ∀ o, origin = some o → o = expectedOrigin)
    (found : w.codes.find payload.code = some record) (redeems : Redeems lib payload record)
    (ascii : ∀ c ∈ payload.codeVerifier, c.toNat < 128) :
    (exchangeCode lib settings audience origin payload).Succeeds
      (servePerform lib audience i choose) w fun response _ => ∃ access idToken refresh,
        response = .tokens access idToken refresh record.userAddress ∧
        access.sub = record.userAddress ∧ idToken.sub = record.userAddress ∧
        refresh.sub = record.userAddress := by
  have noOther : origin.any (· ≠ expectedOrigin) = false := by
    cases origin with
    | none => rfl
    | some o => simpa using sameOrigin o rfl
  unfold Privana.exchangeCode
  rw [registered]
  dsimp only
  rw [if_neg (not_not_intro grant), redirect, redeems.redirect]
  dsimp only
  rw [expected]
  dsimp only
  rw [noOther]
  refine .bind (R := fun _ v => w = v) ?_ fun _ _ same => ?_
  · refine .bind (serves.rateLimit _) fun _ _ ⟨same, same'⟩ => ?_
    subst same same'
    exact .result rfl
  subst same
  exact serves.redeemCode found redeems ascii

end Serves
end Privana
