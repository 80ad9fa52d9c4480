import Privana.SingleUse
import Privana.TaskCredit

/-! Where sessions come from. A request that has authenticated, redeemed a code or consumed a
refresh token may create one successor for the same address, a code or a refresh token, and signs
tokens for that address only. So there are never more codes and refresh tokens of an address than
messages it has signed. -/

namespace Privana
open BigEndian Coroutine

/-- The user of the code that a request has found. -/
def AuthPhase.foundUser : AuthPhase → Option Address
  | .found _ record => some record.userAddress
  | _ => none

/-- The purse of a request: for whom it may create one successor. -/
def authPurse : Purse AuthOp AuthOp.Reply AuthFailure AuthPhase (Option Address) where
  may _ purse
    | .popNonce .. | .consumeCode .. | .consumeRefreshToken .. => purse = none
    | .createCode record => purse = some record.userAddress
    | .createRefreshToken a _ => purse = some a
    | .signJwt claims => purse = some claims.sub
    | _ => True
  after x purse
    | .popNonce _ _ a, .ok (some _) => some a
    | .consumeCode .., .ok (some _) => x.foundUser
    | .consumeRefreshToken .., .ok (some owner) => some owner
    | .createCode _, _ | .createRefreshToken .., _ => none
    | _, _ => purse
  ended := none

abbrev sessionTypestate (lib : AuthLibrary) (settings : AuthSettings) :
    Typestate AuthWorld AuthOp AuthOp.Reply AuthFailure (AuthPhase × Option Address) :=
  (authTypestate lib settings).carrying authPurse

section Spends

variable {lib : AuthLibrary} {settings : AuthSettings} {audience : Text} {α β : Type}
  {z : AuthPhase × Option Address} {x : AuthPhase} {purse : Option Address}

/-- A part of a request, with what is left in its purse where it returns. -/
abbrev Spends (lib : AuthLibrary) (settings : AuthSettings) (p : Auth α)
    (Q : α → AuthPhase × Option Address → Prop) (z : AuthPhase × Option Address) : Prop :=
  p.Follows ((authTypestate lib settings).shadow authPurse) (fun r y => ∀ a, r = .ok a → Q a y) z

namespace Spends

variable {Q : α → AuthPhase × Option Address → Prop} {R : β → AuthPhase × Option Address → Prop}

theorem result {a : α} (h : Q a z) : Spends lib settings (pure a) Q z := by
  rintro _ ⟨⟩
  exact h

theorem raise {e : AuthFailure} : Spends lib settings (raise e : Auth α) Q z := nofun

theorem bind {p : Auth β} {f : β → Auth α} (h : Spends lib settings p R z)
    (next : ∀ b y, R b y → Spends lib settings (f b) Q y) : Spends lib settings (p >>= f) Q z :=
  Follows.bind h (fun b y hb => next b y (hb b rfl)) fun _ _ _ => nofun

/-- A part that leaves phase and purse alone. -/
theorem keep {p : Auth β} {f : β → Auth α} (h : Spends lib settings p (fun _ y => y = z) z)
    (next : ∀ b, Spends lib settings (f b) Q z) : Spends lib settings (p >>= f) Q z :=
  bind h fun b _ same => same ▸ next b

theorem ask {op : AuthOp} {f : op.Reply → Auth α} (may : authPurse.may z.1 z.2 op)
    (next : ∀ a, Spends lib settings (f a) Q (z.1.after op (.ok a), authPurse.after z.1 z.2 op (.ok a))) :
    Spends lib settings (ask op >>= f) Q z :=
  Follows.await may (fun a _ => next a) fun _ _ => nofun

theorem ask_last {op : AuthOp} {Q : op.Reply → AuthPhase × Option Address → Prop}
    (may : authPurse.may z.1 z.2 op)
    (last : ∀ a, Q a (z.1.after op (.ok a), authPurse.after z.1 z.2 op (.ok a))) :
    Spends lib settings (Privana.ask op) Q z := by
  have h : Spends lib settings (Privana.ask op >>= pure) Q z := ask may fun a => result (last a)
  rwa [bind_pure] at h

theorem orReject {r : Except AuthError β} :
    Spends lib settings (orReject r) (fun _ y => y = z) z := by
  cases r with
  | ok a => exact result rfl
  | error error => exact raise

theorem rejecting {op : AuthOp} {handler : AuthFailure → Auth op.Reply}
    {Q : op.Reply → AuthPhase × Option Address → Prop} (may : authPurse.may z.1 z.2 op)
    (last : ∀ a, Q a (z.1.after op (.ok a), authPurse.after z.1 z.2 op (.ok a)))
    (handle : ∀ e, ∃ e', handler e = Coroutine.raise e') :
    Spends lib settings ((Privana.ask op).except handler) Q z :=
  ⟨may, fun r _ => by
    cases r with
    | ok a =>
      rintro _ ⟨⟩
      exact last a
    | error e =>
      obtain ⟨e', same⟩ := handle e
      show (handler e).Follows _ _ _
      rw [same]
      exact raise⟩

end Spends

theorem rateLimit_spends {bucket : String} {error : AuthError} :
    Spends lib settings (enforceRateLimit bucket error) (fun _ y => y = z) z := by
  refine .ask trivial fun limited => ?_
  cases limited with
  | none => exact .result rfl
  | some retryAfter => exact .raise

theorem consumeNonce_spends {n : Text} {request : AuthRequest} {a : Address} :
    Spends lib settings (consumeNonce n request a)
      (fun consumed y => consumed = true → y.2 = some a) (x, none) := by
  refine .ask rfl fun client => ?_
  cases client with
  | none => exact .result fun consumed => by cases consumed
  | some client => exact .ask trivial fun _ => .result fun _ => rfl

theorem authenticate_spends {request : AuthRequest} {siweMessage signature : Text} :
    Spends lib settings (authenticateSiweMessage lib settings request siweMessage signature)
      (fun result y => y.2 = some result.address) (x, none) := by
  refine .keep .orReject fun claim => .ask trivial fun valid => ?_
  split
  · exact .raise
  refine .keep .orReject fun _ => .ask trivial fun verifiedAt => .keep .orReject fun _ =>
    .ask trivial fun now => .keep .orReject fun validUntil => ?_
  refine .bind (R := fun _ y => y = (x, none)) (.rejecting trivial (fun _ => rfl) fun e => ⟨_, rfl⟩)
    fun siweToken y same => ?_
  subst same
  refine .bind consumeNonce_spends fun consumed y spent => ?_
  split
  · next yes => exact .result (spent yes)
  · exact .raise

theorem signed_spends {claims : Claims} :
    Spends lib settings (signed claims) (fun _ y => y = (x, some claims.sub))
      (x, some claims.sub) :=
  .ask rfl fun _ => .result rfl

theorem siweLogin_spends {origin : Option Text} {siweMessage signature : Text} :
    Spends lib settings (siweLogin lib settings audience origin siweMessage signature)
      (fun _ _ => True) (x, none) := by
  refine .keep .orReject fun _ => .keep rateLimit_spends fun _ => .bind authenticate_spends
    fun result y purse => ?_
  obtain ⟨y, _⟩ := y
  obtain rfl := purse
  exact .keep signed_spends fun _ => .ask rfl fun _ => .result trivial

theorem authorizeCode_spends {origin : Option Text}
    {siweMessage signature clientId redirectUri challenge method : Text} :
    Spends lib settings (authorizeCode lib settings origin siweMessage signature clientId
      redirectUri challenge method) (fun _ _ => True) (x, none) := by
  refine .keep .orReject fun _ => .keep rateLimit_spends fun _ => ?_
  split
  · exact .raise
  split
  · exact .raise
  split
  · exact .raise
  refine .bind authenticate_spends fun result y purse => ?_
  obtain ⟨y, _⟩ := y
  obtain rfl := purse
  split
  · exact .raise
  · exact .ask rfl fun _ => .result trivial

theorem issueTokens_spends {client : AuthClient} {a : Address} :
    Spends lib settings (issueTokens audience client a) (fun _ _ => True) (x, some a) :=
  .keep signed_spends fun _ => .keep signed_spends fun _ => .ask rfl fun _ => .result trivial

theorem redeemCode_spends {client : AuthClient} {origin : Option Text} {normalized : Text}
    {payload : TokenExchangeRequest} :
    Spends lib settings (redeemCode lib audience origin client normalized payload)
      (fun _ _ => True) (.idle, none) := by
  refine .ask trivial fun record => ?_
  cases record with
  | none => exact .raise
  | some record =>
    dsimp only
    split
    · exact .raise
    split
    · exact .raise
    split
    · exact .raise
    · exact .raise
    · refine .ask rfl fun consumed => ?_
      cases consumed with
      | none => exact .raise
      | some record' => exact issueTokens_spends

theorem exchangeCode_spends {origin : Option Text} {payload : TokenExchangeRequest} :
    Spends lib settings (exchangeCode lib settings audience origin payload) (fun _ _ => True)
      (.idle, none) := by
  unfold exchangeCode
  split
  · exact .raise
  split
  · exact .raise
  split
  · exact .raise
  split
  · exact .raise
  split
  · exact .raise
  split
  · exact .raise
  · exact .keep rateLimit_spends fun _ => redeemCode_spends

theorem refreshTokens_spends {token : Text} :
    Spends lib settings (refreshTokens audience token) (fun _ _ => True) (x, none) := by
  refine .bind (R := fun _ y => y.2 = none) ?_ fun claims y purse => ?_
  · refine .rejecting trivial (fun _ => rfl) fun e => ?_
    cases e with
    | invalidToken => exact ⟨_, rfl⟩
    | _ => exact ⟨_, rfl⟩
  obtain ⟨y, _⟩ := y
  obtain rfl := purse
  split
  · exact .raise
  split
  · exact .raise
  · refine .ask rfl fun address => ?_
    cases address with
    | none => exact .raise
    | some address => exact .keep signed_spends fun _ => .ask rfl fun _ => .result trivial

theorem generateNonce_free {client : Address} : (generateNonce client).Uses authPurse.Free := by
  have draw : (drawNonce client).Uses authPurse.Free :=
    .bind (.await fun _ _ => ⟨trivial, fun _ => rfl⟩) fun _ =>
      .bind (.await fun _ _ => ⟨trivial, fun _ => rfl⟩) fun _ => .result _
  refine .bind (.await fun _ _ => ⟨trivial, fun _ => rfl⟩) fun existing => ?_
  cases existing with
  | none => exact draw
  | some existing =>
    refine .bind (.await fun _ _ => ⟨trivial, fun _ => rfl⟩) fun valid => ?_
    split
    · exact .result _
    · exact draw

theorem getSiweNonce_spends {origin : Option Text} {address : Text} :
    Spends lib settings (getSiweNonce lib settings origin address) (fun _ _ => True) z := by
  refine .keep .orReject fun _ => .keep rateLimit_spends fun _ => ?_
  split
  · exact .raise
  · exact .bind ((generateNonce_free.shadow z).imp fun _ _ _ _ _ => trivial)
      fun _ _ _ => .result trivial

theorem revokeListed_free {request : AuthRequest} {user : Address} {revoked : ℕ}
    {listed : List Text} : (revokeListed request user revoked listed).Uses authPurse.Free := by
  induction listed generalizing revoked with
  | nil => exact .result _
  | cons jti rest ih =>
    refine .bind (.await fun _ _ => ⟨trivial, fun _ => rfl⟩) fun owner => ?_
    split
    · refine .bind (.await fun _ _ => ⟨trivial, fun _ => rfl⟩) fun deleted => ?_
      split
      · exact ih
      · exact ih
    · exact ih

theorem logout_free {accessToken : Text} {refreshToken : Option Text} {revokeAll : Bool} :
    (logout accessToken refreshToken revokeAll).Uses authPurse.Free := by
  have user : (getCurrentUser accessToken).Uses authPurse.Free := by
    refine .bind (.except (.await fun _ _ => ⟨trivial, fun _ => rfl⟩) fun e => ?_) fun claims => ?_
    · split <;> exact .raise _
    · split
      · exact .raise _
      · exact .result _
  refine .bind user fun user => ?_
  split
  · exact .bind (.bind (.await fun _ _ => ⟨trivial, fun _ => rfl⟩) fun _ => revokeListed_free)
      fun _ => .result _
  split
  · exact .result _
  · next token _ =>
    have owner : (verifyRefreshToken token).Uses authPurse.Free := by
      refine .bind (.await fun _ _ => ⟨trivial, fun _ => rfl⟩) fun claims => ?_
      split
      · exact .result _
      split
      · exact .result _
      · refine .bind (.await fun _ _ => ⟨trivial, fun _ => rfl⟩) fun valid => ?_
        split <;> exact .result _
    have revoke (request : AuthRequest) :
        (revokeRefreshToken request token).Uses authPurse.Free := by
      refine .bind (.except (.map (.await fun _ _ => ⟨trivial, fun _ => rfl⟩)) fun e => ?_)
        fun claims => ?_
      · split
        · exact .result _
        · exact .raise _
      · split
        · exact .result _
        · exact .await fun _ _ => ⟨trivial, fun _ => rfl⟩
    refine .bind owner fun owner => ?_
    split
    · exact .result _
    split
    · exact .raise _
    · refine .bind (revoke _) fun deleted => .result _

theorem handle_spends (request : AuthRequest) :
    Spends lib settings (handle lib settings audience request) (fun _ _ => True)
      (.idle, none) := by
  cases request with
  | nonce => exact getSiweNonce_spends
  | login => exact siweLogin_spends
  | authorize => exact authorizeCode_spends
  | token => exact exchangeCode_spends
  | refresh => exact refreshTokens_spends
  | logout => exact (logout_free.shadow _).imp fun _ _ _ _ _ => trivial

theorem serve_spends (request : AuthRequest) :
    Spends lib settings (serve lib settings audience request) (fun _ _ => True) (.idle, none) :=
  .bind (handle_spends request) fun _ _ _ => .ask_last trivial fun _ => trivial

end Spends

namespace OneTimeStore

variable {κ ν : Type} [DecidableEq κ] {s : OneTimeStore κ ν} {k : κ} {v : ν}

theorem countP_without_le (p : κ × ν → Bool) : (s.without k).countP p ≤ s.entries.countP p :=
  List.filter_sublist.countP_le

/-- A key that is taken no longer counts. -/
theorem countP_without_lt {p : κ × ν → Bool} (present : (k, v) ∈ s.entries)
    (counted : p (k, v) = true) : (s.without k).countP p + 1 ≤ s.entries.countP p := by
  rw [List.countP_eq_countP_filter_add s.entries p fun e => decide (e.1 ≠ k)]
  have positive : 0 < (s.entries.filter fun e => !decide (e.1 ≠ k)).countP p :=
    List.countP_pos_iff.mpr ⟨(k, v), List.mem_filter.mpr ⟨present, by simp⟩, counted⟩
  exact Nat.add_le_add_left positive _

end OneTimeStore

section Worth

variable {lib : AuthLibrary} {settings : AuthSettings} {audience : Text} {tasks i : ℕ}
  {w v : AuthWorld} {x : AuthPhase} {purse : Option Address} {a : Address}

/-- A new request, with an empty purse. -/
theorem request_starts (h : AuthConsistent lib settings tasks w) (request : AuthRequest) :
    ∃ z, ((authSystem lib settings audience).body request).Follows
        (sessionTypestate lib settings) (fun _ _ => True) z ∧
      authKnows lib settings tasks z.1 w ∧ z.2 = none :=
  ⟨(.idle, none), ((serve_obeys request).carrying (serve_spends request)).imp fun _ _ _ => trivial,
    ⟨fun _ => h.custody.vacant (Nat.le_refl _), trivial⟩, rfl⟩

theorem sessionSystem_respects : (authSystem lib settings audience).Respects
    (sessionTypestate lib settings) (fun _ _ => True) fun _ _ => True :=
  authSystem_respects.carrying trivial fun h started => by
    cases started
    obtain ⟨z, follows, known, -⟩ := request_starts h _
    exact ⟨z, follows, known⟩

def worth (a : Address) (purse : Option Address) : ℕ := if purse = some a then 1 else 0

/-- The codes and refresh tokens of an address that are in the stores. -/
def liveGrants (a : Address) (w : AuthWorld) : ℕ :=
  (w.codes.entries.countP fun e => e.2.userAddress = a) +
    w.refresh.entries.countP fun e => e.2 = a

def authenticationsOf (a : Address) (w : AuthWorld) : ℕ :=
  w.authentications.countP fun e => e.2 = a

theorem worth_error_le {op : AuthOp} (may : authPurse.may x purse op) (e : AuthFailure)
    (r : Except AuthFailure op.Reply) :
    worth a (authPurse.after x purse op (.error e)) ≤ worth a (authPurse.after x purse op r) := by
  cases op with
  | popNonce | consumeCode | consumeRefreshToken =>
    obtain rfl : purse = none := may
    exact Nat.zero_le _
  | _ => exact le_rfl

theorem worth_failed_le (op : AuthOp) (e : AuthFailure) :
    worth a (authPurse.after x purse op (.error e)) ≤ worth a purse := by
  cases op with
  | createCode | createRefreshToken => exact Nat.zero_le _
  | _ => exact le_rfl

theorem liveGrants_put_code {code : Text} {record : AuthCodeRecord} :
    liveGrants a (w.createCode i code record) = liveGrants a w + worth a (some record.userAddress) := by
  simp only [liveGrants, AuthWorld.createCode, OneTimeStore.put, List.countP_cons, worth,
    Option.some_inj, decide_eq_true_eq]
  omega

theorem liveGrants_put_refresh {jti : Text} {claims : Claims} {owner : Address}
    {parent : Option Text} : liveGrants a (w.createRefreshToken jti claims owner parent) =
      liveGrants a w + worth a (some owner) := by
  simp only [liveGrants, AuthWorld.createRefreshToken, OneTimeStore.put, List.countP_cons, worth,
    Option.some_inj, decide_eq_true_eq]
  omega

theorem liveGrants_take_code {code : Text} {record : AuthCodeRecord}
    (found : w.codes.find code = some record) :
    liveGrants a (w.consumeCode i code) + worth a (some record.userAddress) ≤ liveGrants a w := by
  rw [AuthWorld.consumeCode, found]
  simp only [liveGrants, OneTimeStore.take_of_find found, worth, Option.some_inj]
  split
  · next same =>
    have fewer := OneTimeStore.countP_without_lt (p := fun e => decide (e.2.userAddress = a))
      (OneTimeStore.mem_of_find found) (decide_eq_true same)
    omega
  · have fewer := w.codes.countP_without_le (k := code) fun e => decide (e.2.userAddress = a)
    omega

theorem liveGrants_take_refresh {jti : Text} {owner : Address}
    (found : w.refresh.find jti = some owner) :
    liveGrants a (w.consumeRefreshToken i jti) + worth a (some owner) ≤ liveGrants a w := by
  rw [AuthWorld.consumeRefreshToken, found]
  simp only [liveGrants, OneTimeStore.take_of_find found, worth, Option.some_inj]
  split
  · next same =>
    have fewer := OneTimeStore.countP_without_lt (p := fun e => decide (e.2 = a))
      (OneTimeStore.mem_of_find found) (decide_eq_true same)
    omega
  · have fewer := w.refresh.countP_without_le (k := jti) fun e => decide (e.2 = a)
    omega

/-- An operation puts no more grants of an address into the stores and the purse than there are new
authentications. -/
theorem effect_spends (h : AuthConsistent lib settings tasks w)
    (known : authKnows lib settings i x w) {op : AuthOp} (may : authMay lib settings x op)
    (spends : authPurse.may x purse op) {c : AuthOutcome} {r : Except AuthFailure op.Reply}
    (effect : authEffect lib audience i op c w = some (r, v)) :
    liveGrants a v + worth a (authPurse.after x purse op r) + authenticationsOf a w ≤
      liveGrants a w + worth a purse + authenticationsOf a v := by
  unfold authEffect at effect
  split at effect
  case h_5 client n =>
    split at effect
    · cases effect
    · cases effect
      exact le_rfl
  case h_7 n request b =>
    cases effect
    obtain rfl : purse = none := spends
    rcases found : w.nonces.find n with - | client
    · rw [AuthWorld.popNonce, found]
      exact le_rfl
    · rw [AuthWorld.popNonce, found]
      show liveGrants a w + worth a (some b) + authenticationsOf a w ≤
        liveGrants a w + 0 + List.countP _ ((n, b) :: w.authentications)
      rw [List.countP_cons, authenticationsOf, worth]
      simp only [Option.some_inj, decide_eq_true_eq]
      omega
  case h_10 record code =>
    split at effect
    · cases effect
    · cases effect
      obtain rfl : purse = some record.userAddress := spends
      have put : liveGrants a (w.createCode i code record) =
          liveGrants a w + worth a (some record.userAddress) := liveGrants_put_code
      show liveGrants a (w.createCode i code record) + 0 + authenticationsOf a w ≤
        liveGrants a w + _ + authenticationsOf a w
      omega
  case h_12 code request =>
    cases effect
    obtain rfl : purse = none := spends
    obtain ⟨record, origin, payload, rfl, -⟩ := may
    rcases found : w.codes.find code with - | record'
    · rw [AuthWorld.consumeCode, found]
      exact le_rfl
    · obtain rfl : record' = record := h.codes.value_unique
        (h.codes.entries_issued (OneTimeStore.mem_of_find found)) known.2
      have took := liveGrants_take_code (a := a) (i := i) found
      have same : authenticationsOf a (w.consumeCode i code) = authenticationsOf a w := by
        rw [AuthWorld.consumeCode, found]
        rfl
      show liveGrants a (w.consumeCode i code) + worth a (some record'.userAddress) +
        authenticationsOf a w ≤ liveGrants a w + 0 + _
      omega
  case h_14 owner parent jti =>
    split at effect
    · cases effect
    · cases effect
      obtain rfl : purse = some owner := spends
      have put : liveGrants a (w.createRefreshToken jti (refreshClaims audience owner jti) owner
          parent) = liveGrants a w + worth a (some owner) := liveGrants_put_refresh
      show liveGrants a (w.createRefreshToken jti _ owner parent) + 0 + authenticationsOf a w ≤
        liveGrants a w + _ + authenticationsOf a w
      omega
  case h_15 token =>
    split at effect
    · split at effect
      · cases effect
        exact le_rfl
      · cases effect
    · cases effect
  case h_17 jti request =>
    cases effect
    obtain rfl : purse = none := spends
    rcases found : w.refresh.find jti with - | owner
    · rw [AuthWorld.consumeRefreshToken, found]
      exact le_rfl
    · have took := liveGrants_take_refresh (a := a) (i := i) found
      have same : authenticationsOf a (w.consumeRefreshToken i jti) = authenticationsOf a w := by
        rw [AuthWorld.consumeRefreshToken, found]
        rfl
      show liveGrants a (w.consumeRefreshToken i jti) + worth a (some owner) +
        authenticationsOf a w ≤ liveGrants a w + 0 + _
      omega
  case h_19 jti request =>
    cases effect
    split
    · have fewer := w.refresh.countP_without_le (k := jti) fun e => decide (e.2 = a)
      exact Nat.add_le_add_right (Nat.add_le_add_right (Nat.add_le_add_left fewer _) _) _
    · exact le_rfl
  case h_24 =>
    cases effect
    have less := @worth_failed_le x purse a op .unhandled
    omega
  all_goals
    cases effect
    try exact le_rfl

theorem perform_spends (h : AuthConsistent lib settings tasks w)
    (known : authKnows lib settings i x w) {op : AuthOp} (may : authMay lib settings x op)
    (spends : authPurse.may x purse op) {c : AuthChoice} {r : Except AuthFailure op.Reply}
    (performed : authPerform lib audience i op c w = some (r, v)) :
    liveGrants a v + worth a (authPurse.after x purse op r) + authenticationsOf a w ≤
      liveGrants a w + worth a purse + authenticationsOf a v := by
  obtain ⟨⟨r', v'⟩, effect, same⟩ := Option.map_eq_some_iff.mp performed
  obtain ⟨rfl, rfl⟩ := Prod.mk.inj same
  have served := effect_spends (a := a) h known may spends effect
  split
  · have less := worth_error_le (a := a) spends .unhandled r'
    omega
  · exact served

theorem authMove_spends {e : AuthMove} (moved : authMove e w = some v) :
    liveGrants a v + authenticationsOf a w ≤ liveGrants a w + authenticationsOf a v := by
  cases e with
  | expireNonce | expireClientNonce =>
    cases moved
    exact le_rfl
  | expireCode code =>
    cases moved
    have fewer := w.codes.countP_without_le (k := code) fun e => decide (e.2.userAddress = a)
    exact Nat.add_le_add_right (Nat.add_le_add_right fewer _) _
  | expireRefreshToken jti =>
    cases moved
    have fewer := w.refresh.countP_without_le (k := jti) fun e => decide (e.2 = a)
    exact Nat.add_le_add_right (Nat.add_le_add_left fewer _) _

/-- Codes, refresh tokens and purses are paid for by authentications. -/
theorem sessionSystem_funds (a : Address) : (authSystem lib settings audience).Funds
    (sessionTypestate lib settings) (fun _ _ => True) (fun x => worth a x.2) (liveGrants a)
    (authenticationsOf a) where
  perform h _ known may performed := perform_spends h known may.1 may.2 performed
  move _ moved := authMove_spends moved
  start h started := by
    cases started
    obtain ⟨z, follows, known, empty⟩ := request_starts h _
    exact ⟨z, follows, known, by rw [empty]; rfl⟩
  arrive started := by
    cases started
    exact le_rfl
  leave _ _ := le_rfl
  restart _ := le_rfl
  ended := rfl

theorem session_covered_empty (a : Address) : TaskSystem.Covered (sessionTypestate lib settings)
    (fun _ _ => True) (fun x => worth a x.2) (liveGrants a) (authenticationsOf a)
    (⟨{}, []⟩ : AuthPool) fun _ => (.idle, none) :=
  ⟨⟨authConsistent_empty, fun _ _ h => by cases h⟩, Nat.le_refl _⟩

theorem mem_authentications_of_pos (h : 0 < authenticationsOf a w) :
    ∃ n, (n, a) ∈ w.authentications := by
  obtain ⟨⟨n, b⟩, mem, same⟩ := List.countP_pos_iff.mp h
  obtain rfl : b = a := of_decide_eq_true same
  exact ⟨n, mem⟩

/-- What an operation signs. -/
theorem perform_signed {op : AuthOp} {c : AuthChoice} {r : Except AuthFailure op.Reply}
    (performed : authPerform lib audience i op c w = some (r, v)) {claims : Claims}
    (mem : claims ∈ v.signed) : claims ∈ w.signed ∨ op = .signJwt claims ∨
      ∃ parent, op = .createRefreshToken claims.sub parent := by
  obtain ⟨r', effect⟩ := authEffect_of_perform performed
  generalize c.outcome = c at effect
  unfold authEffect at effect
  split at effect
  case h_5 | h_10 =>
    split at effect
    · cases effect
    · cases effect
      exact .inl mem
  case h_7 n request b =>
    cases effect
    unfold AuthWorld.popNonce at mem
    split at mem <;> exact .inl mem
  case h_12 code request =>
    cases effect
    unfold AuthWorld.consumeCode at mem
    split at mem <;> exact .inl mem
  case h_13 =>
    cases effect
    rcases List.mem_cons.mp mem with rfl | mem
    · exact .inr (.inl rfl)
    · exact .inl mem
  case h_14 owner parent jti =>
    split at effect
    · cases effect
    · cases effect
      rcases List.mem_cons.mp mem with rfl | mem
      · exact .inr (.inr ⟨parent, rfl⟩)
      · exact .inl mem
  case h_15 =>
    split at effect
    · split at effect
      · cases effect
        exact .inl mem
      · cases effect
    · cases effect
  case h_17 jti request =>
    cases effect
    unfold AuthWorld.consumeRefreshToken at mem
    split at mem <;> exact .inl mem
  case h_19 jti request =>
    cases effect
    split at mem <;> exact .inl mem
  all_goals
    cases effect
    try exact .inl mem

/-- Only the pop of a nonce authenticates. -/
theorem perform_authenticated {op : AuthOp} {c : AuthChoice} {r : Except AuthFailure op.Reply}
    (performed : authPerform lib audience i op c w = some (r, v)) {n : Text}
    (mem : (n, a) ∈ v.authentications) :
    (n, a) ∈ w.authentications ∨ ∃ request, op = .popNonce n request a := by
  cases perform_storeStep performed with
  | same same => exact .inl (same.authentications ▸ mem)
  | popNonce found =>
    rcases List.mem_cons.mp mem with same | mem
    · cases same
      exact .inr ⟨_, rfl⟩
    · exact .inl mem
  | _ => exact .inl mem

theorem perform_authentications {op : AuthOp} {c : AuthChoice} {r : Except AuthFailure op.Reply}
    (performed : authPerform lib audience i op c w = some (r, v)) :
    w.authentications ⊆ v.authentications := by
  cases perform_storeStep performed with
  | same same => exact same.authentications ▸ List.Subset.refl _
  | popNonce found => exact List.subset_cons_self _ _
  | _ => exact List.Subset.refl _

theorem authMove_authentications {e : AuthMove} (moved : authMove e w = some v) :
    v.authentications = w.authentications := by
  cases e <;> cases moved <;> rfl

theorem authMove_signed {e : AuthMove} (moved : authMove e w = some v) : v.signed = w.signed := by
  cases e <;> cases moved <;> rfl

end Worth

section Own

variable {lib : AuthLibrary} {settings : AuthSettings} {audience : Text} {request : AuthRequest}

/-- A nonce is consumed for the request that is served. -/
def AuthRequest.Own (request : AuthRequest) (op : AuthOp) : Prop :=
  ∀ n other a, op = .popNonce n other a → other = request

theorem own_of_free {op : AuthOp} (free : authPurse.Free op) : request.Own op := by
  rintro n other a rfl
  exact nomatch (free .idle (some a)).1

theorem rateLimit_own {bucket : String} {error : AuthError} :
    (enforceRateLimit bucket error).Uses request.Own := by
  refine .bind (.await nofun) fun limited => ?_
  cases limited with
  | none => exact .result _
  | some => exact .raise _

theorem orReject_own {α : Type} {r : Except AuthError α} : (orReject r).Uses request.Own := by
  cases r with
  | ok a => exact .result _
  | error e => exact .raise _

theorem authenticate_own {siweMessage signature : Text} :
    (authenticateSiweMessage lib settings request siweMessage signature).Uses request.Own := by
  refine .bind orReject_own fun claim => .bind (.await nofun) fun valid => ?_
  split
  · exact .raise _
  refine .bind orReject_own fun _ => .bind (.await nofun) fun _ => .bind orReject_own fun _ =>
    .bind (.await nofun) fun _ => .bind orReject_own fun _ =>
    .bind (.except (.await nofun) fun _ => .raise _) fun _ => .bind ?_ fun consumed => ?_
  · refine .bind (.await fun n other a same => by cases same; rfl) fun client => ?_
    cases client with
    | none => exact .result _
    | some => exact .bind (.await nofun) fun _ => .result _
  · split
    · exact .result _
    · exact .raise _

theorem signed_own {claims : Claims} : (signed claims).Uses request.Own :=
  .bind (.await nofun) fun _ => .result _

theorem handle_own (request : AuthRequest) :
    (handle lib settings audience request).Uses request.Own := by
  cases request with
  | nonce origin address =>
    refine .bind orReject_own fun _ => .bind rateLimit_own fun _ => ?_
    split
    · exact .raise _
    · exact .bind (generateNonce_free.imp fun _ => own_of_free) fun _ => .result _
  | login origin siweMessage signature =>
    exact .bind orReject_own fun _ => .bind rateLimit_own fun _ => .bind authenticate_own fun _ =>
      .bind signed_own fun _ => .bind (.await nofun) fun _ => .result _
  | authorize origin siweMessage signature clientId redirectUri challenge method =>
    refine .bind orReject_own fun _ => .bind rateLimit_own fun _ => ?_
    split
    · exact .raise _
    split
    · exact .raise _
    split
    · exact .raise _
    refine .bind authenticate_own fun result => ?_
    split
    · exact .raise _
    · exact .bind (.await nofun) fun _ => .result _
  | token origin payload =>
    show (exchangeCode lib settings audience origin payload).Uses _
    unfold exchangeCode
    split
    · exact .raise _
    split
    · exact .raise _
    split
    · exact .raise _
    split
    · exact .raise _
    split
    · exact .raise _
    split
    · exact .raise _
    refine .bind rateLimit_own fun _ => .bind (.await nofun) fun record => ?_
    cases record with
    | none => exact .raise _
    | some record =>
      dsimp only
      split
      · exact .raise _
      split
      · exact .raise _
      split
      · exact .raise _
      · exact .raise _
      · refine .bind (.await nofun) fun consumed => ?_
        cases consumed with
        | none => exact .raise _
        | some =>
          exact .bind signed_own fun _ => .bind signed_own fun _ => .bind (.await nofun) fun _ =>
            .result _
  | refresh token =>
    refine .bind (.except (.await nofun) fun e => ?_) fun claims => ?_
    · split <;> exact .raise _
    split
    · exact .raise _
    split
    · exact .raise _
    · refine .bind (.await nofun) fun address => ?_
      cases address with
      | none => exact .raise _
      | some => exact .bind signed_own fun _ => .bind (.await nofun) fun _ => .result _
  | logout => exact logout_free.imp fun _ => own_of_free

theorem serve_own (request : AuthRequest) :
    (serve lib settings audience request).Uses request.Own :=
  .bind (handle_own request) fun _ => .await nofun

end Own

section Runs

variable {lib : AuthLibrary} {settings : AuthSettings} {audience : Text} {es : List AuthEvent}
  {a : Address}

theorem session_covered (a : Address) : ∃ phase, TaskSystem.Covered
    (sessionTypestate lib settings) (fun _ _ => True) (fun x => worth a x.2) (liveGrants a)
    (authenticationsOf a) (authRun lib settings audience es) phase :=
  (sessionSystem_funds a).run sessionSystem_respects (session_covered_empty a) es
    fun _ _ => trivial

/-- An operation of the service, with the phase and the purse of the request that performs it. -/
theorem session_performed {e : AuthEntry} (he : e ∈ authLog lib settings audience es)
    {op : AuthOp} (ho : e.output = some op) (a : Address) :
    ∃ x purse, authMay lib settings x op ∧ authPurse.may x purse op ∧
      worth a purse ≤ authenticationsOf a e.before.world := by
  obtain ⟨⟨phase, covered⟩, step⟩ := (sessionSystem_funds a).entry sessionSystem_respects
    (session_covered_empty a) es (fun _ _ => trivial) he
  rw [ho] at step
  generalize e.input = input, e.after = after at step
  cases step with
  | @run i c op next r w task performed =>
    obtain ⟨⟨may, -⟩, -⟩ := covered.tracks.tasks i _ task
    refine ⟨_, _, may.1, may.2, ?_⟩
    have carried : worth a (phase i).2 ≤
        TaskSystem.carried (fun x => worth a x.2) phase e.before.tasks.length :=
      @TaskSystem.worth_le_carried _ (fun x => worth a x.2) phase _ _
        (List.getElem?_eq_some_iff.mp task).1
    have enough := covered.covered
    omega

/-- A token is signed for an address that has authenticated. -/
theorem signs_for_authenticated {e : AuthEntry} (he : e ∈ authLog lib settings audience es)
    {op : AuthOp} (ho : e.output = some op)
    (signs : op = .signJwt claims ∨ ∃ parent, op = .createRefreshToken claims.sub parent) :
    ∃ n, (n, claims.sub) ∈ e.before.world.authentications := by
  obtain ⟨x, purse, -, may, enough⟩ := session_performed he ho claims.sub
  refine mem_authentications_of_pos (lt_of_lt_of_le ?_ enough)
  have same : purse = some claims.sub := by
    obtain rfl | ⟨parent, rfl⟩ := signs
    · exact may
    · exact may
  rw [same, worth, if_pos rfl]
  exact Nat.one_pos

theorem authentication_of_run {n : Text}
    (h : (n, a) ∈ (authRun lib settings audience es).world.authentications) :
    ∃ request, TaskEvent.start request ∈ es ∧ Authenticates lib settings request n a := by
  refine (authSystem lib settings audience).machine.run_invariant_where
    (I := fun t : AuthPool => (n, a) ∈ t.world.authentications →
      ∃ request, TaskEvent.start request ∈ es ∧ Authenticates lib settings request n a)
    (C := fun e => e ∈ authLog lib settings audience es) (fun h => (List.not_mem_nil h).elim)
    (fun t x t' o before executed logged mem => ?_) es (fun e he => he) h
  cases TaskSystem.exec_step executed with
  | run task performed =>
    rcases perform_authenticated performed mem with mem | ⟨request, rfl⟩
    · exact before mem
    · obtain ⟨x, purse, ⟨-, passes⟩, -⟩ := session_performed logged rfl a
      obtain ⟨started, mem, own⟩ := TaskSystem.performed_by_started serve_own _ es logged rfl
      exact ⟨request, own _ _ _ rfl ▸ mem, passes⟩
  | move moved => exact before (authMove_authentications moved ▸ mem)
  | start started =>
    cases started
    exact before mem
  | cancel => exact before mem
  | restart => exact before mem

theorem signed_of_run {claims : Claims}
    (h : claims ∈ (authRun lib settings audience es).world.signed) :
    ∃ n, (n, claims.sub) ∈ (authRun lib settings audience es).world.authentications := by
  refine (authSystem lib settings audience).machine.run_invariant_where
    (I := fun t : AuthPool => claims ∈ t.world.signed →
      ∃ n, (n, claims.sub) ∈ t.world.authentications)
    (C := fun e => e ∈ authLog lib settings audience es) (fun h => (List.not_mem_nil h).elim)
    (fun t x t' o before executed logged mem => ?_) es (fun e he => he) h
  cases TaskSystem.exec_step executed with
  | run task performed =>
    have kept := perform_authentications performed
    rcases perform_signed performed mem with mem | signs
    · exact (before mem).imp fun n hn => kept hn
    · exact (signs_for_authenticated logged rfl signs).imp fun n hn => kept hn
  | move moved =>
    rw [authMove_authentications moved]
    exact before (authMove_signed moved ▸ mem)
  | start started =>
    cases started
    exact before mem
  | cancel => exact before mem
  | restart => exact before mem

end Runs

/-- Every session goes back to a signed message: an authentication is the pop of a fresh nonce by a
request with a message for it that passes every check, every token is signed for an address that
has authenticated, and no address ever has more codes and refresh tokens than authentications. -/
theorem sessions_rest_on_signatures (lib : AuthLibrary) (settings : AuthSettings) (audience : Text)
    (es : List AuthEvent) :
    let w := (authRun lib settings audience es).world
    (w.authentications.map Prod.fst).Nodup ∧
    (∀ n a, (n, a) ∈ w.authentications →
      ∃ request, TaskEvent.start request ∈ es ∧ Authenticates lib settings request n a) ∧
    (∀ claims ∈ w.signed, ∃ n, (n, claims.sub) ∈ w.authentications) ∧
    ∀ a, liveGrants a w ≤ authenticationsOf a w := by
  refine ⟨authRun_consistent.authenticatedOnce, fun n a => authentication_of_run,
    fun claims => signed_of_run, fun a => ?_⟩
  obtain ⟨phase, covered⟩ := @session_covered lib settings audience es a
  exact (Nat.le_add_right _ _).trans covered.covered

end Privana
