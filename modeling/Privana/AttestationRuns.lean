import Privana.AttestationText
import Privana.TransactionMachine

/-! Both ends of the attestations together. The worker mints claims and the service verifies what
it is given, in any order; a claim is accepted once, within its window. -/

namespace Privana
open BigEndian

section Checks
variable {lib : AttestationLibrary}

theorem checkShape_eq_ok {claim : IpAttestation} : checkShape claim = .ok () ↔ claim.v = 1 ∧
    (isLowerHex claim.nonce = true ∧ claim.nonce.length = 32) ∧
    (isLowerHex claim.sig = true ∧ claim.sig.length = 64) ∧
    claim.ip ≠ [] ∧ (encodeText claim.ip).length ≤ 64 ∧ '%' ∉ claim.ip ∧ '|' ∉ claim.ip := by
  have shape : (claim.ip = [] ∨ 64 < (encodeText claim.ip).length ∨ '%' ∈ claim.ip ∨
      '|' ∈ claim.ip) ↔ ¬ (claim.ip ≠ [] ∧ (encodeText claim.ip).length ≤ 64 ∧ '%' ∉ claim.ip ∧
      '|' ∉ claim.ip) := by
    rw [← Nat.not_lt]
    tauto
  simp only [checkShape, ipAttestationVersion, shape, bind, Except.bind, throw, throwThe,
    MonadExceptOf.throw, pure, Except.pure]
  split_ifs <;> simp_all

theorem checkWindow_eq_ok {claim : IpAttestation} {current : ℚ} :
    checkWindow claim current = .ok () ↔ (0 < claim.iat ∧ 0 < claim.exp ∧
      claim.exp ≤ maxTimestamp) ∧ claim.iat ≤ current + maxClockSkewSeconds ∧
      current < claim.exp ∧ claim.iat < claim.exp ∧
      claim.exp - claim.iat ≤ maxWindowSeconds := by
  simp only [checkWindow, bind, Except.bind, throw, throwThe, MonadExceptOf.throw, pure, Except.pure]
  split_ifs <;> simp_all <;> grind

/-- An address that the service takes as one of the public internet. -/
def PublicIp (lib : AttestationLibrary) (ip : Text) : Prop :=
  ∃ a, ipAddress lib ip = some a ∧ isIpv4Mapped a = false ∧ checkPublic lib a = .ok ()

theorem checkIp_eq_ok {ip out : Text} : checkIp lib ip = .ok out ↔
    (∃ a, ipAddress lib ip = some a ∧ lower a.compressed = ip) ∧ PublicIp lib ip ∧ out = ip := by
  unfold checkIp PublicIp
  cases parsed : ipAddress lib ip with
  | none => simp
  | some a =>
    simp only [bind, Except.bind, throw, throwThe, MonadExceptOf.throw, pure, Except.pure,
      Option.some.injEq, exists_eq_left']
    split_ifs with mapped form
    · simp [mapped]
    · simp [Ne.symm form]
    · rw [not_not] at form
      subst form
      cases checkPublic lib a with
      | error e => simp
      | ok u => simp [mapped, eq_comm (a := out)]

theorem checkAttestation_eq_ok {domain : ReferrerDomain} {secret : Text} {claim : IpAttestation}
    {transactionId : Text} {current : ℚ} {out : Text} :
    checkAttestation lib domain ⟨text "attested", some secret⟩ claim transactionId current =
      .ok out ↔ secret ≠ [] ∧ checkShape claim = .ok () ∧ checkWindow claim current = .ok () ∧
      sign lib secret (attestationPayload (attestedTuple lib domain transactionId claim)) =
        claim.sig ∧ checkIp lib claim.ip = .ok out := by
  simp only [checkAttestation, ne_eq, not_true_eq_false, false_or, bind, Except.bind, throw,
    throwThe, MonadExceptOf.throw]
  cases checkShape claim <;> cases checkWindow claim current <;> split_ifs <;> simp_all

end Checks

section Store

/-- The nonces that are held once the expired ones are pruned. -/
def heldAt (nonces : Nonces) (now : ℚ) : Nonces := nonces.filter fun x => now < x.2

theorem mem_heldAt {nonces : Nonces} {now : ℚ} {x : Text × ℤ} :
    x ∈ heldAt nonces now ↔ x ∈ nonces ∧ now < x.2 := by
  rw [heldAt, List.mem_filter, decide_eq_true_eq]

theorem reserve_eq (capacity : ℕ) (nonce : Text) (expiresAt : ℤ) (now : ℚ) (nonces : Nonces) :
    reserveIpAttestationNonce capacity nonce expiresAt now nonces =
      if ((heldAt nonces now).lookup nonce).isSome then (.error .alreadyUsed, heldAt nonces now)
      else if capacity ≤ (heldAt nonces now).length then (.error .notRecorded, heldAt nonces now)
      else (.ok (), heldAt nonces now ++ [(nonce, expiresAt)]) :=
  rfl

theorem reserve_cases (capacity : ℕ) (nonce : Text) (expiresAt : ℤ) (now : ℚ) (nonces : Nonces) :
    (∃ e, reserveIpAttestationNonce capacity nonce expiresAt now nonces =
      (.error e, heldAt nonces now)) ∨
    ((heldAt nonces now).lookup nonce = none ∧
      reserveIpAttestationNonce capacity nonce expiresAt now nonces =
        (.ok (), heldAt nonces now ++ [(nonce, expiresAt)])) := by
  rw [reserve_eq]
  split_ifs with used full
  · exact .inl ⟨_, rfl⟩
  · exact .inl ⟨_, rfl⟩
  · exact .inr ⟨Option.not_isSome_iff_eq_none.mp used, rfl⟩

theorem reserve_of_room {capacity : ℕ} {nonce : Text} (expiresAt : ℤ) {now : ℚ} {nonces : Nonces}
    (unused : ∀ x ∈ nonces, x.1 ≠ nonce) (room : (heldAt nonces now).length < capacity) :
    (reserveIpAttestationNonce capacity nonce expiresAt now nonces).1 = .ok () := by
  have free : (heldAt nonces now).lookup nonce = none := by
    rw [List.lookup_eq_none_iff]
    intro x hx
    simpa using (unused x (mem_heldAt.mp hx).1).symm
  rw [reserve_eq, free, if_neg (by simp), if_neg (by omega)]

end Store

section World

/-- A claim that the worker minted, with what it was asked for and when, in milliseconds. -/
structure MintedClaim where
  referrerDomain : Text
  intentHash : Text
  dateNow : ℕ
  claim : IpAttestation
  deriving DecidableEq

def MintedClaim.tuple (m : MintedClaim) : AttestedTuple :=
  ⟨m.referrerDomain, m.intentHash, m.claim.ip, m.claim.iat, m.claim.exp, m.claim.nonce⟩

/-- A claim that the service accepted, and the address that it answered. -/
structure AcceptedClaim where
  claim : IpAttestation
  transactionId : Text
  now : ℚ
  ip : Text

structure AttestationWorld where
  minted : List MintedClaim
  accepted : List AcceptedClaim
  nonces : Nonces
  clock : ℚ

inductive AttestationEvent where
  | mint (referrerDomain : Option Text) (request : WorkerRequest) (dateNow : ℕ)
      (nonceBytes : {bs : Bytes // bs.length = 16})
  | verify (claim : IpAttestation) (transactionId : Text) (now : ℚ)

inductive AttestationReply where
  | minted (claim : IpAttestation)
  | verified (result : Except AttestationError Text)

variable (lib : AttestationLibrary)

def mintClaim (env : WorkerEnv) (request : WorkerRequest) (dateNow : ℕ) (nonceBytes : Bytes) :
    Except WorkerRefusal MintedClaim := do
  let (secret, domain, ip, intentHash) ← checkRequest lib env request
  return ⟨domain, intentHash, dateNow, mint lib secret domain ip intentHash dateNow nonceBytes⟩

theorem fetch_eq (env : WorkerEnv) (request : WorkerRequest) (dateNow : ℕ) (nonceBytes : Bytes) :
    fetch lib env request dateNow nonceBytes =
      (mintClaim lib env request dateNow nonceBytes).map (·.claim) := by
  unfold fetch mintClaim
  cases checkRequest lib env request <;> rfl

variable (domain : ReferrerDomain) (secret : Text) (capacity : ℕ)

def attestedSession : SessionIpConfig := ⟨text "attested", some secret⟩

def AttestationWorld.verify (w : AttestationWorld) (claim : IpAttestation) (transactionId : Text)
    (now : ℚ) : AttestationWorld × Except AttestationError Text :=
  let (result, nonces) := verifyIpAttestation lib domain (attestedSession secret) capacity claim
    transactionId now w.nonces
  let accepted := match result with
    | .ok ip => [⟨claim, transactionId, now, ip⟩]
    | .error _ => []
  ({ w with nonces, clock := now, accepted := w.accepted ++ accepted }, result)

/-- The worker and the service, with one secret. -/
def attestationSystem :
    TransactionMachine AttestationWorld AttestationEvent AttestationReply WorkerRefusal where
  exec w
    | .mint referrerDomain request dateNow nonceBytes => do
      let m ← mintClaim lib ⟨some secret, referrerDomain⟩ request dateNow nonceBytes
      return ({ w with minted := w.minted ++ [m] }, .minted m.claim)
    | .verify claim transactionId now =>
      let r := w.verify lib domain secret capacity claim transactionId now
      .ok (r.1, .verified r.2)

/-- The nonces of the worker are fresh, the clock of the service does not go back, and only the
worker signs with the secret. -/
def Attested : TransactionMachine.Entry AttestationWorld AttestationEvent AttestationReply → Prop
  | ⟨w, .mint _ _ _ nonceBytes, _, _⟩ => ∀ m ∈ w.minted, m.claim.nonce ≠ hexDigits nonceBytes
  | ⟨w, .verify claim transactionId now, _, _⟩ => w.clock ≤ now ∧
    (sign lib secret (attestationPayload (attestedTuple lib domain transactionId claim)) =
        claim.sig →
      ∃ m ∈ w.minted, attestationPayload m.tuple =
        attestationPayload (attestedTuple lib domain transactionId claim))

def AttestationWorld.start (clock : ℚ) : AttestationWorld := ⟨[], [], [], clock⟩

end World

end Privana
