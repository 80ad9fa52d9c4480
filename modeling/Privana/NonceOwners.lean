import Privana.SingleUse

/-! Whose nonce it is. The store remembers for whom a nonce was issued, and the login does
not ask: a message of another address that carries the nonce takes it away. -/

namespace Privana
open BigEndian Coroutine

/-- A nonce is consumed, if at all, for the address that it was issued for. -/
def ownNonce (e : AuthEntry) : Bool :=
  match e.output with
  | some (.popNonce n _ a) => (e.before.world.nonces.find n).all (· = a)
  | _ => true

theorem ownNonce_pop {e : AuthEntry} (own : ownNonce e = true) {n : Text} {request : AuthRequest}
    {a b : Address} (output : e.output = some (.popNonce n request a))
    (found : e.before.world.nonces.find n = some b) : b = a := by
  simpa only [ownNonce, output, found, Option.all_some, decide_eq_true_eq] using own

variable {lib : AuthLibrary} {settings : AuthSettings} {audience : Text}

/-- The nonces that were taken, with whom they have authenticated. -/
def TakenByOwner (w : AuthWorld) : Prop :=
  w.nonces.taken ⊆ w.authentications

theorem StoreStep.takenByOwner {i : ℕ} {w v : AuthWorld} {op : AuthOp}
    (step : StoreStep audience i w v op) (h : TakenByOwner w)
    (own : ∀ n request a b, op = .popNonce n request a → w.nonces.find n = some b → b = a) :
    TakenByOwner v := by
  cases step with
  | same same =>
    unfold TakenByOwner
    rw [same.nonces, same.authentications]
    exact h
  | @popNonce n request a b found =>
    obtain rfl := own _ _ _ _ rfl found
    show (w.nonces.take n).taken ⊆ (n, b) :: w.authentications
    rw [OneTimeStore.take_of_find found]
    exact List.cons_subset_cons _ h
  | _ => exact h

theorem takenByOwner {es : List AuthEvent}
    (own : ∀ e ∈ authLog lib settings audience es, ownNonce e = true) :
    TakenByOwner (authRun lib settings audience es).world := by
  refine (authSystem lib settings audience).machine.run_invariant_where
    (I := fun s : AuthPool => TakenByOwner s.world) (List.nil_subset _)
    (C := fun e => ownNonce e = true) (fun s e t o h executed own => ?_) es own
  cases TaskSystem.exec_step executed with
  | run task performed =>
    exact (perform_storeStep performed).takenByOwner h fun n request a b hop found =>
      ownNonce_pop own (congrArg some hop) found
  | @move m v moved =>
    cases m <;> cases moved <;> exact h
  | start started =>
    cases started
    exact h
  | cancel => exact h
  | restart => exact h

/-- If no nonce is consumed for another address than its own, then one that was issued to `a`,
has not expired and was not used by `a` still logs `a` in. -/
theorem nonce_kept_for_owner (lib : AuthLibrary) (settings : AuthSettings) (audience : Text)
    (es : List AuthEvent) (own : ∀ e ∈ authLog lib settings audience es, ownNonce e = true) :
    let w := (authRun lib settings audience es).world
    w.nonces.taken ⊆ w.authentications ∧
    ∀ n a, (n, a) ∈ w.nonces.issued → n ∉ w.nonces.dropped → (n, a) ∉ w.authentications →
      w.nonces.find n = some a ∧
      ∀ i choose request siweMessage signature claim, Serves lib audience i choose →
        claim.message.nonce = n → claim.address = a →
        (∀ t, (choose .now w).outcome = .time t →
          Passes lib settings siweMessage signature claim t t) →
        (authenticateSiweMessage lib settings request siweMessage signature).Succeeds
          (servePerform lib audience i choose) w fun result _ => result.address = a := by
  intro w
  have consistent : AuthConsistent lib settings _ w := authRun_consistent
  have taken : w.nonces.taken ⊆ w.authentications := takenByOwner own
  refine ⟨taken, fun n a issued kept unused => ?_⟩
  have found := consistent.nonces.find_of_issued issued (fun mem => unused (taken mem)) kept
  refine ⟨found, ?_⟩
  rintro i choose request siweMessage signature claim serves rfl rfl passes
  exact serves.authenticate passes found

section Sample

def sampleNonce : Text := text "4f1d6a0c8b7e35924f1d6a0c8b7e35924f1d6a0c8b7e35924f1d6a0c8b7e3592"

def aliceText : Text := text "0x00000000000000000000000000000000000000a1"

def bobText : Text := text "0x00000000000000000000000000000000000000b2"

def alice : Address := 0xa1

/-- A message that an account signs to log in with the nonce. -/
def sampleSiwe (account : Text) : SiweMessage where
  domain := text "privana.example"
  address := account
  statement := some (text "Sign in to Privana on chain 23294")
  nonce := sampleNonce
  issuedAt := some (text "1970-01-01T00:00:00Z")
  expirationTime := some (text "1970-01-01T00:05:00Z")
  resources := []

def sampleSiweText (account : Text) : Text :=
  text "privana.example wants you to sign in with your Ethereum account:\n" ++ account ++
    text "\n\nSign in to Privana on chain 23294\n\nURI: https://privana.example\nVersion: 1" ++
    text "\nChain ID: 23294\nNonce: " ++ sampleNonce ++
    text "\nIssued At: 1970-01-01T00:00:00Z\nExpiration Time: 1970-01-01T00:05:00Z"

def sampleSiweSignature (account : Text) : Text := text "0x51" ++ account

/-- What the libraries do with the texts of this section. -/
def sampleLibrary : AuthLibrary where
  toAddressLibrary := sampleAddresses
  lower := lower
  validNetloc _ := true
  parseSiwe s := [aliceText, bobText].findSome? fun account =>
    if s = sampleSiweText account then some (sampleSiwe account) else none
  verifySiwe message signature domain nonce now :=
    if domain ≠ message.domain ∨ nonce ≠ message.nonce then .error .malformedSession
    else if 300 < now then .error .expiredMessage
    else if signature = sampleSiweSignature message.address then .ok ()
    else .error .invalidSignature
  canonicalDomain := lower
  isSpace c := c = ' '
  decimalDigit c := if c.isDigit then some (c.toNat - '0'.toNat) else none
  timestamp s :=
    if s = text "1970-01-01T00:00:00Z" then some 0
    else if s = text "1970-01-01T00:05:00Z" then some 300
    else none
  sha256 bs := bs
  decodeJwt _ := none

def sampleAuthSettings : AuthSettings where
  siweDomains := .ok [text "privana.example"]
  siweOrigins := [text "https://privana.example"]
  sapphireChainId := 23294
  authTokenValiditySeconds := 86400
  clients := []

def sampleClaim (account : Text) (address : Address) : SiweClaim :=
  ⟨sampleSiwe account, text "privana.example", address⟩

/-- A step of task `i` that is not lost. -/
def stepOf (i : ℕ) (outcome : AuthOutcome) : AuthEvent := .run i { outcome := outcome }

/-- A nonce is issued for Alice. -/
def nonceForAlice : List AuthEvent :=
  .start (.nonce none aliceText) :: [.limited none, .served, .fresh sampleNonce, .served,
    .served].map (stepOf 0)

/-- A login at time 0, with as many steps as it takes. -/
def loginEvents (i : ℕ) (account signature : Text) : List AuthEvent :=
  .start (.login none (sampleSiweText account) signature) :: [.limited none, .served, .time 0,
    .time 0, .bytes [], .served, .served].map (stepOf i)

/-- A key that is longer than all others together. -/
def freshKey (keys : List Text) : Text := '0' :: keys.flatten

theorem freshKey_not_mem (keys : List Text) : freshKey keys ∉ keys := fun mem =>
  (Nat.lt_succ_self keys.flatten.length).not_ge (List.sublist_flatten_of_mem mem).length_le

/-- A request that is served at time 0. -/
def sampleChoose (op : AuthOp) (w : AuthWorld) : AuthChoice where
  outcome := match op with
    | .rateLimit _ => .limited none
    | .now => .time 0
    | .storeNonce _ => .fresh (freshKey (w.nonces.issued.map Prod.fst))
    | .createCode _ => .fresh (freshKey (w.codes.issued.map Prod.fst))
    | .createRefreshToken .. => .fresh (freshKey (w.refresh.issued.map Prod.fst))
    | .createAuthToken .. => .bytes []
    | .verifyToken _ => .refused false "Not enough segments"
    | _ => .served

theorem sampleChoose_serves (lib : AuthLibrary) (audience : Text) (i : ℕ) :
    Serves lib audience i sampleChoose where
  possible op w := by
    have key := freshKey_not_mem
    cases op <;> simp [servePerform, authPerform, sampleChoose, authEffect, key]
  kept _ _ := rfl
  served op _ := by cases op <;> rintro ⟨⟩
  unlimited op _ n := by cases op <;> rintro ⟨⟩

/-- The run of the first sample, and what its libraries say of Alice's message. -/
theorem sampleRun_alice :
    let es := nonceForAlice ++ loginEvents 1 aliceText (sampleSiweSignature bobText)
    let w := (authRun sampleLibrary sampleAuthSettings [] es).world
    let claim := sampleClaim aliceText alice
    (readSiweMessage sampleLibrary sampleAuthSettings (sampleSiweText aliceText) = .ok claim ∧
      checkStatement sampleLibrary sampleAuthSettings claim.message = .ok () ∧
      checkSignature sampleLibrary claim (sampleSiweSignature aliceText) 0 = .ok () ∧
      checkTimes sampleLibrary sampleAuthSettings claim.message 0 = .ok 300) ∧
    (∀ e ∈ authLog sampleLibrary sampleAuthSettings [] es, ownNonce e = true) ∧
      (sampleNonce, alice) ∈ w.nonces.issued ∧ sampleNonce ∉ w.nonces.dropped ∧
      (sampleNonce, alice) ∉ w.authentications := by
  decide +kernel

theorem samplePasses_alice : Passes sampleLibrary sampleAuthSettings (sampleSiweText aliceText)
    (sampleSiweSignature aliceText) (sampleClaim aliceText alice) 0 0 := by
  obtain ⟨⟨read, statement, signature, times⟩, -⟩ := sampleRun_alice
  exact ⟨read, statement, signature, 300, times⟩

/-- Someone without Alice's key fails to use her nonce, and she logs in. -/
theorem nonce_kept_for_owner_alice :
    let es := nonceForAlice ++ loginEvents 1 aliceText (sampleSiweSignature bobText)
    let w := (authRun sampleLibrary sampleAuthSettings [] es).world
    w.nonces.find sampleNonce = some alice ∧
      (authenticateSiweMessage sampleLibrary sampleAuthSettings (.nonce none [])
        (sampleSiweText aliceText) (sampleSiweSignature aliceText)).Succeeds
        (servePerform sampleLibrary [] 2 sampleChoose) w fun result _ => result.address = alice := by
  dsimp only
  obtain ⟨-, own, issued, kept, unused⟩ := sampleRun_alice
  obtain ⟨found, usable⟩ := (nonce_kept_for_owner sampleLibrary sampleAuthSettings [] _ own).2
    sampleNonce alice issued kept unused
  refine ⟨found, usable 2 sampleChoose _ _ _ (sampleClaim aliceText alice)
    (sampleChoose_serves _ _ _) rfl rfl fun t time => ?_⟩
  obtain rfl := AuthOutcome.time.inj time
  exact samplePasses_alice

theorem sampleRun_bob :
    let es := nonceForAlice ++ loginEvents 1 bobText (sampleSiweSignature bobText)
    let w := (authRun sampleLibrary sampleAuthSettings [] es).world
    (sampleNonce, alice) ∈ w.nonces.issued ∧ sampleNonce ∉ w.nonces.dropped ∧
      (sampleNonce, alice) ∉ w.authentications ∧
      ((authenticateSiweMessage sampleLibrary sampleAuthSettings (.nonce none [])
        (sampleSiweText aliceText) (sampleSiweSignature aliceText)).alone
        (servePerform sampleLibrary [] 2 sampleChoose) w).map Prod.fst =
          some (.error (.answer invalidNonce)) := by
  decide +kernel

/-- Bob logs in with the nonce that was issued for Alice, and her valid login is refused. -/
theorem nonce_taken_from_owner :
    let es := nonceForAlice ++ loginEvents 1 bobText (sampleSiweSignature bobText)
    let w := (authRun sampleLibrary sampleAuthSettings [] es).world
    (sampleNonce, alice) ∈ w.nonces.issued ∧ sampleNonce ∉ w.nonces.dropped ∧
      (sampleNonce, alice) ∉ w.authentications ∧ Serves sampleLibrary [] 2 sampleChoose ∧
      Passes sampleLibrary sampleAuthSettings (sampleSiweText aliceText) (sampleSiweSignature aliceText)
        (sampleClaim aliceText alice) 0 0 ∧
      ((authenticateSiweMessage sampleLibrary sampleAuthSettings (.nonce none [])
        (sampleSiweText aliceText) (sampleSiweSignature aliceText)).alone
        (servePerform sampleLibrary [] 2 sampleChoose) w).map Prod.fst =
          some (.error (.answer invalidNonce)) := by
  dsimp only
  obtain ⟨issued, kept, unused, refused⟩ := sampleRun_bob
  exact ⟨issued, kept, unused, sampleChoose_serves _ _ _, samplePasses_alice, refused⟩

end Sample

end Privana
