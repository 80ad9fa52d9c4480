import Mathlib.Data.List.Nodup
import Privana.AttestationRuns

/-! A claim that the worker mints is accepted once, within its window, for exactly what it was
minted for. -/

namespace Privana
open BigEndian

section Minted
variable {lib : AttestationLibrary}

/-- What the worker says of a claim that it mints. -/
structure Minted (lib : AttestationLibrary) (secret : Text) (m : MintedClaim) : Prop where
  secret_ne : secret ≠ []
  referrerDomain : isReferrerDomain m.referrerDomain = true
  intentHash : isLowerHex m.intentHash = true
  ip : CanonicalIp lib m.claim.ip
  v : m.claim.v = ipAttestationVersion
  iat : m.claim.iat = (m.dateNow / 1000 : ℕ)
  exp : m.claim.exp = m.claim.iat + attestationTtlSeconds
  nonce : isLowerHex m.claim.nonce = true ∧ m.claim.nonce.length = 32
  sig : m.claim.sig = sign lib secret (attestationPayload m.tuple)

theorem secretOf_eq_ok {env : WorkerEnv} {secret domain : Text}
    (h : secretOf env = .ok (secret, domain)) :
    env.attestationSecret = some secret ∧ 32 ≤ secret.length ∧ isReferrerDomain domain = true := by
  unfold secretOf at h
  split at h
  · next stored named =>
    split at h
    · next valid =>
      cases h
      exact ⟨stored, valid.1, valid.2.2⟩
    · cases h
  · cases h

theorem intentHashOf_eq_ok {body : Bytes} {intentHash : Text}
    (h : intentHashOf lib body = .ok intentHash) :
    isLowerHex intentHash = true ∧ intentHash.length = 64 := by
  unfold intentHashOf at h
  grind

theorem ite_error_eq_ok {ε α : Type*} {c : Prop} [Decidable c] {e : ε} {x : Except ε α} {a : α} :
    (if c then .error e else x) = .ok a ↔ ¬ c ∧ x = .ok a := by
  split_ifs with h <;> simp [h]

theorem checkRequest_eq_ok {env : WorkerEnv} {request : WorkerRequest}
    {secret domain ip intentHash : Text}
    (h : checkRequest lib env request = .ok (secret, domain, ip, intentHash)) :
    secretOf env = .ok (secret, domain) ∧
      canonicalizeIp lib (request.header (text "cf-connecting-ip")) = some ip ∧
      intentHashOf lib request.body = .ok intentHash := by
  simp only [checkRequest, bind, Except.bind, throw, throwThe, MonadExceptOf.throw, pure,
    Except.pure, ite_error_eq_ok] at h
  obtain ⟨-, h⟩ := h
  split at h
  · cases h
  · next configured =>
    split at h
    · cases h
    · obtain ⟨-, -, h⟩ := (ite_error_eq_ok.mp h).imp_right ite_error_eq_ok.mp
      split at h
      · cases h
      · next observed =>
        simp only [ite_error_eq_ok] at h
        obtain ⟨-, -, -, -, h⟩ := h
        split at h
        · cases h
        · next asked =>
          obtain ⟨rfl, rfl, rfl, rfl⟩ : _ ∧ _ ∧ _ ∧ _ := by simpa using h
          exact ⟨configured, observed, asked⟩

theorem mintClaim_eq_ok (prints : PrintsCanonical lib) {secret : Text} {domain : Option Text}
    {request : WorkerRequest} {dateNow : ℕ} {nonceBytes : Bytes} (sixteen : nonceBytes.length = 16)
    {m : MintedClaim}
    (h : mintClaim lib ⟨some secret, domain⟩ request dateNow nonceBytes = .ok m) :
    Minted lib secret m ∧ m.claim.nonce = hexDigits nonceBytes := by
  unfold mintClaim at h
  cases checked : checkRequest lib ⟨some secret, domain⟩ request with
  | error e =>
    rw [checked] at h
    cases h
  | ok r =>
    obtain ⟨secret', domain', ip, intentHash⟩ := r
    rw [checked] at h
    obtain rfl := Except.ok.inj h
    obtain ⟨configured, observed, asked⟩ := checkRequest_eq_ok checked
    obtain ⟨stored, long, valid⟩ := secretOf_eq_ok configured
    obtain rfl := Option.some.inj stored
    refine ⟨?_, rfl⟩
    exact {
      secret_ne := List.ne_nil_of_length_pos (by omega)
      referrerDomain := valid
      intentHash := (intentHashOf_eq_ok asked).1
      ip := canonicalizeIp_canonical prints observed
      v := rfl
      iat := rfl
      exp := rfl
      nonce := ⟨isLowerHex_hexDigits _, by simp [mint, sixteen]⟩
      sig := congrArg (sign lib secret) (mintedPayload_eq _ _ _ _ _ _) }

theorem Minted.separable {secret : Text} {m : MintedClaim} (h : Minted lib secret m) :
    Separable m.tuple where
  referrerDomain := separator_notMem_of_isReferrerDomain h.referrerDomain
  intentHash := separator_notMem_of_isLowerHex h.intentHash
  ip := h.ip.separator
  nonce := separator_notMem_of_isLowerHex h.nonce.1

theorem attestedTuple_separable (domain : ReferrerDomain) (transactionId : Text)
    {claim : IpAttestation} (h : checkShape claim = .ok ()) :
    Separable (attestedTuple lib domain transactionId claim) where
  referrerDomain := separator_notMem_of_isReferrerDomain domain.valid
  intentHash := separator_notMem_hexDigits _
  ip := (checkShape_eq_ok.mp h).2.2.2.2.2.2
  nonce := separator_notMem_of_isLowerHex (checkShape_eq_ok.mp h).2.1.1

theorem Minted.sig_shape {secret : Text} {m : MintedClaim} (h : Minted lib secret m) :
    isLowerHex m.claim.sig = true ∧ m.claim.sig.length = 64 := by
  rw [h.sig, sign, hexDigits_length, lib.hmacSha256_length]
  exact ⟨isLowerHex_hexDigits _, rfl⟩

theorem Minted.checkShape {secret : Text} {m : MintedClaim} (h : Minted lib secret m) :
    checkShape m.claim = .ok () :=
  checkShape_eq_ok.mpr
    ⟨h.v, h.nonce, h.sig_shape, h.ip.nonempty, h.ip.length, h.ip.zone, h.ip.separator⟩

/-- The window of a claim runs from its skew before the second of the mint to its expiry. -/
theorem Minted.checkWindow {secret : Text} {m : MintedClaim} (h : Minted lib secret m)
    (positive : 0 < m.dateNow / 1000)
    (year : (m.dateNow / 1000 : ℕ) + attestationTtlSeconds ≤ maxTimestamp) {now : ℚ}
    (early : ((m.dateNow / 1000 : ℕ) : ℚ) - 30 ≤ now)
    (late : now < ((m.dateNow / 1000 : ℕ) : ℚ) + 60) : checkWindow m.claim now = .ok () := by
  rw [checkWindow_eq_ok, h.exp, h.iat]
  generalize m.dateNow / 1000 = s at positive year early late ⊢
  simp only [attestationTtlSeconds, maxClockSkewSeconds, maxWindowSeconds] at year ⊢
  refine ⟨⟨by omega, by omega, year⟩, ?_, ?_, by omega, by omega⟩
  · push_cast
    linarith
  · push_cast
    linarith

/-- A claim that was minted for the domain and the intent passes every check before its nonce. -/
theorem Minted.checkAttestation {secret : Text} {m : MintedClaim} (h : Minted lib secret m)
    (domain : ReferrerDomain) (same : m.referrerDomain = domain.name) {transactionId : Text}
    (intent : hexDigits (lib.sha256 (encodeText transactionId)) = m.intentHash) {now : ℚ}
    (public_ip : PublicIp lib m.claim.ip) (window : Privana.checkWindow m.claim now = .ok ()) :
    checkAttestation lib domain (attestedSession secret) m.claim transactionId now =
      .ok m.claim.ip := by
  have tuple : attestedTuple lib domain transactionId m.claim = m.tuple := by
    simp only [attestedTuple, MintedClaim.tuple, same, intent]
  rw [attestedSession, checkAttestation_eq_ok, tuple, h.sig]
  exact ⟨h.secret_ne, h.checkShape, window, rfl, checkIp_eq_ok.mpr ⟨h.ip.parsed, public_ip, rfl⟩⟩

end Minted

section Runs
variable {lib : AttestationLibrary} {domain : ReferrerDomain} {secret : Text} {capacity : ℕ}

/-- What the service lets through. -/
structure ClaimChecked (lib : AttestationLibrary) (domain : ReferrerDomain) (secret : Text)
    (claim : IpAttestation) (transactionId : Text) (now : ℚ) : Prop where
  shape : checkShape claim = .ok ()
  window : checkWindow claim now = .ok ()
  sig : sign lib secret (attestationPayload (attestedTuple lib domain transactionId claim)) =
    claim.sig

theorem AttestationWorld.verify_cases (w : AttestationWorld) (claim : IpAttestation)
    (transactionId : Text) (now : ℚ) :
    (∃ e nonces, heldAt w.nonces now ⊆ nonces ∧ nonces ⊆ w.nonces ∧
      w.verify lib domain secret capacity claim transactionId now =
        ({ w with nonces, clock := now }, .error e)) ∨
    (ClaimChecked lib domain secret claim transactionId now ∧
      (heldAt w.nonces now).lookup claim.nonce = none ∧
      w.verify lib domain secret capacity claim transactionId now =
        ({ w with nonces := heldAt w.nonces now ++ [(claim.nonce, claim.exp)], clock := now,
                  accepted := w.accepted ++ [⟨claim, transactionId, now, claim.ip⟩] },
          .ok claim.ip)) := by
  have held : heldAt w.nonces now ⊆ w.nonces := fun x hx => (mem_heldAt.mp hx).1
  unfold AttestationWorld.verify verifyIpAttestation
  cases checked : checkAttestation lib domain (attestedSession secret) claim transactionId now with
  | error e => exact .inl ⟨e, w.nonces, held, fun _ => id, by simp⟩
  | ok ip =>
    obtain ⟨-, shape, window, sig, address⟩ := checkAttestation_eq_ok.mp checked
    obtain rfl := (checkIp_eq_ok.mp address).2.2
    rcases reserve_cases capacity claim.nonce claim.exp now w.nonces with
      ⟨e, refused⟩ | ⟨unused, reserved⟩
    · exact .inl ⟨e, _, fun _ => id, held, by simp [refused, Except.map]⟩
    · exact .inr ⟨⟨shape, window, sig⟩, unused, by simp [reserved, Except.map]⟩

/-- What the acceptance of a claim shows. -/
structure Acceptance (lib : AttestationLibrary) (domain : ReferrerDomain)
    (minted : List MintedClaim) (a : AcceptedClaim) : Prop where
  authenticated : ∃ m ∈ minted, m.tuple = attestedTuple lib domain a.transactionId a.claim
  ip : a.ip = a.claim.ip
  early : a.claim.iat ≤ a.now + maxClockSkewSeconds
  late : a.now < a.claim.exp
  short : a.claim.exp - a.claim.iat ≤ maxWindowSeconds

structure AttestationWorld.Sound (lib : AttestationLibrary) (domain : ReferrerDomain)
    (secret : Text) (w : AttestationWorld) : Prop where
  minted : ∀ m ∈ w.minted, Minted lib secret m
  fresh : (w.minted.map (·.claim.nonce)).Nodup
  accepted : ∀ a ∈ w.accepted, Acceptance lib domain w.minted a
  once : (w.accepted.map (·.claim.nonce)).Nodup
  /-- A nonce is let go of when its claim has expired. -/
  kept : ∀ a ∈ w.accepted, (a.claim.nonce, a.claim.exp) ∈ w.nonces ∨ (a.claim.exp : ℚ) ≤ w.clock
  held : ∀ x ∈ w.nonces, ∃ a ∈ w.accepted, a.claim.nonce = x.1

theorem AttestationWorld.Sound.mint {w : AttestationWorld} (h : w.Sound lib domain secret)
    {m : MintedClaim} (truthful : Minted lib secret m)
    (fresh : ∀ x ∈ w.minted, x.claim.nonce ≠ m.claim.nonce) :
    ({ w with minted := w.minted ++ [m] } : AttestationWorld).Sound lib domain secret where
  minted := by
    simp only [List.forall_mem_append, List.forall_mem_singleton]
    exact ⟨h.minted, truthful⟩
  fresh := by
    rw [List.map_append, List.map_singleton, ← List.concat_eq_append, List.nodup_concat]
    refine ⟨?_, h.fresh⟩
    rw [List.mem_map]
    exact fun ⟨x, hx, same⟩ => fresh x hx same
  accepted a ha :=
    let ⟨x, hx, tuple⟩ := (h.accepted a ha).authenticated
    { h.accepted a ha with authenticated := ⟨x, List.mem_append_left _ hx, tuple⟩ }
  once := h.once
  kept := h.kept
  held := h.held

/-- A claim of a nonce that was accepted has expired, or its nonce is held. -/
theorem AttestationWorld.Sound.unaccepted {w : AttestationWorld} (h : w.Sound lib domain secret)
    {m : MintedClaim} (hm : m ∈ w.minted) {now : ℚ} (later : w.clock ≤ now)
    (alive : now < m.claim.exp) (unused : (heldAt w.nonces now).lookup m.claim.nonce = none) :
    ∀ a ∈ w.accepted, a.claim.nonce ≠ m.claim.nonce := by
  intro a ha same
  obtain ⟨x, hx, tuple⟩ := (h.accepted a ha).authenticated
  have nonce : x.claim.nonce = a.claim.nonce := congrArg AttestedTuple.nonce tuple
  have exp : x.claim.exp = a.claim.exp := congrArg AttestedTuple.expiresAt tuple
  obtain rfl := List.inj_on_of_nodup_map h.fresh hx hm (nonce.trans same)
  rcases h.kept a ha with kept | expired
  · rw [List.lookup_eq_none_iff] at unused
    have present : (a.claim.nonce, a.claim.exp) ∈ heldAt w.nonces now :=
      mem_heldAt.mpr ⟨kept, by rwa [← exp]⟩
    simpa [nonce] using unused _ present
  · rw [← exp] at expired
    exact absurd (expired.trans later) (not_le.mpr alive)

theorem AttestationWorld.Sound.verify {w : AttestationWorld} (h : w.Sound lib domain secret)
    {claim : IpAttestation} {transactionId : Text} {now : ℚ} (later : w.clock ≤ now)
    (unforged : sign lib secret (attestationPayload (attestedTuple lib domain transactionId claim)) =
        claim.sig →
      ∃ m ∈ w.minted, attestationPayload m.tuple =
        attestationPayload (attestedTuple lib domain transactionId claim)) :
    (w.verify lib domain secret capacity claim transactionId now).1.Sound lib domain secret := by
  have expire {a : AcceptedClaim} (ha : a ∈ w.accepted) :
      (a.claim.nonce, a.claim.exp) ∈ heldAt w.nonces now ∨ (a.claim.exp : ℚ) ≤ now := by
    rcases lt_or_ge now a.claim.exp with alive | expired
    · refine .inl (mem_heldAt.mpr ⟨(h.kept a ha).resolve_right fun expired => ?_, alive⟩)
      exact absurd (expired.trans later) (not_le.mpr alive)
    · exact .inr expired
  rcases @AttestationWorld.verify_cases lib domain secret capacity w claim transactionId now with
    ⟨e, nonces, keeps, prunes, result⟩ | ⟨passes, unused, result⟩
  · rw [result]
    exact { h with
      kept := fun a ha => (expire ha).imp_left fun held => keeps held
      held := fun x hx => h.held x (prunes hx) }
  · obtain ⟨m, hm, payload⟩ := unforged passes.sig
    have tuple := attestationPayload_injective (h.minted m hm).separable
      (attestedTuple_separable domain transactionId passes.shape) payload
    have nonce : m.claim.nonce = claim.nonce := congrArg AttestedTuple.nonce tuple
    have exp : m.claim.exp = claim.exp := congrArg AttestedTuple.expiresAt tuple
    obtain ⟨-, early, late, -, short⟩ := checkWindow_eq_ok.mp passes.window
    have unaccepted := h.unaccepted hm later (by rwa [exp]) (by rwa [nonce])
    rw [result]
    exact {
      minted := h.minted
      fresh := h.fresh
      accepted := by
        simp only [List.forall_mem_append, List.forall_mem_singleton]
        exact ⟨h.accepted, ⟨m, hm, tuple⟩, rfl, early, late, short⟩
      once := by
        rw [List.map_append, List.map_singleton, ← List.concat_eq_append, List.nodup_concat]
        refine ⟨?_, h.once⟩
        rw [List.mem_map]
        exact fun ⟨a, ha, same⟩ => unaccepted a ha (same.trans nonce.symm)
      kept := by
        simp only [List.forall_mem_append, List.forall_mem_singleton]
        exact ⟨fun a ha => (expire ha).imp_left (List.mem_append_left _), .inl (by simp)⟩
      held := by
        simp only [List.forall_mem_append, List.forall_mem_singleton]
        refine ⟨fun x hx => ?_, ⟨_, List.mem_append_right _ List.mem_cons_self, rfl⟩⟩
        obtain ⟨a, ha, same⟩ := h.held x (mem_heldAt.mp hx).1
        exact ⟨a, List.mem_append_left _ ha, same⟩ }

theorem AttestationWorld.start_sound (clock : ℚ) :
    (AttestationWorld.start clock).Sound lib domain secret := by
  constructor <;> simp [AttestationWorld.start]

theorem attestationSystem_sound (prints : PrintsCanonical lib) (clock : ℚ)
    (es : List AttestationEvent)
    (assumed : ∀ e ∈ (attestationSystem lib domain secret capacity).log (.start clock) es,
      Attested lib domain secret e) :
    ((attestationSystem lib domain secret capacity).run (.start clock) es).Sound
      lib domain secret := by
  refine TransactionMachine.run_invariant_where _ (AttestationWorld.start_sound clock) ?_ es assumed
  intro w event w' reply h step attested
  cases event with
  | mint referrerDomain request dateNow nonceBytes =>
    simp only [attestationSystem, bind, Except.bind, pure, Except.pure] at step
    split at step
    · cases step
    · next m made =>
      cases step
      obtain ⟨truthful, nonce⟩ := mintClaim_eq_ok prints nonceBytes.2 made
      exact h.mint truthful fun x hx => nonce ▸ attested x hx
  | verify claim transactionId now =>
    cases step
    exact h.verify attested.1 attested.2

/-- The texts that one of the ends signs. -/
inductive SignedTuple (lib : AttestationLibrary) : AttestedTuple → Prop
  | minted {secret : Text} {referrerDomain : Option Text} {request : WorkerRequest} {dateNow : ℕ}
      {nonceBytes : Bytes} {m : MintedClaim} (sixteen : nonceBytes.length = 16)
      (made : mintClaim lib ⟨some secret, referrerDomain⟩ request dateNow nonceBytes = .ok m) :
      SignedTuple lib m.tuple
  | verified {domain : ReferrerDomain} {transactionId : Text} {claim : IpAttestation}
      (shape : checkShape claim = .ok ()) :
      SignedTuple lib (attestedTuple lib domain transactionId claim)

theorem SignedTuple.separable (prints : PrintsCanonical lib) {t : AttestedTuple}
    (h : SignedTuple lib t) : Separable t := by
  cases h with
  | minted sixteen made => exact (mintClaim_eq_ok prints sixteen made).1.separable
  | verified shape => exact attestedTuple_separable _ _ shape

/-- No nonce is accepted twice; an acceptance shows that the worker signed just this tuple, and
that the time is in its window; a signed text has one tuple; and a claim that was minted in the
second `s`, for the domain, the intent and a public address, is accepted from `s - 30` on until
`s + 60`, while its nonce has not been accepted and there is room for it. -/
theorem attestations_one_time (prints : PrintsCanonical lib) (clock : ℚ)
    (es : List AttestationEvent)
    (assumed : ∀ e ∈ (attestationSystem lib domain secret capacity).log (.start clock) es,
      Attested lib domain secret e) :
    let w := (attestationSystem lib domain secret capacity).run (.start clock) es
    (w.accepted.map (·.claim.nonce)).Nodup ∧
      (∀ a ∈ w.accepted, Acceptance lib domain w.minted a) ∧
      (∀ t u, SignedTuple lib t → SignedTuple lib u →
        attestationPayload t = attestationPayload u → t = u) ∧
      ∀ m ∈ w.minted, ∀ (transactionId : Text) (now : ℚ), let s := m.dateNow / 1000
        m.referrerDomain = domain.name →
        hexDigits (lib.sha256 (encodeText transactionId)) = m.intentHash →
        PublicIp lib m.claim.ip →
        0 < s → (s : ℤ) + 60 ≤ maxTimestamp → (s : ℚ) - 30 ≤ now → now < (s : ℚ) + 60 →
        (∀ a ∈ w.accepted, a.claim.nonce ≠ m.claim.nonce) →
        (heldAt w.nonces now).length < capacity →
        (verifyIpAttestation lib domain (attestedSession secret) capacity m.claim transactionId now
          w.nonces).1 = .ok m.claim.ip := by
  intro w
  have sound : w.Sound lib domain secret := attestationSystem_sound prints clock es assumed
  refine ⟨sound.once, sound.accepted, fun t u ht hu => ?_, ?_⟩
  · exact attestationPayload_injective (ht.separable prints) (hu.separable prints)
  · intro m hm transactionId now s same intent public_ip positive year early late first room
    have minted := sound.minted m hm
    have unused : ∀ x ∈ w.nonces, x.1 ≠ m.claim.nonce := fun x hx =>
      let ⟨a, ha, nonce⟩ := sound.held x hx
      nonce ▸ first a ha
    rw [verifyIpAttestation, minted.checkAttestation domain same intent public_ip
      (minted.checkWindow positive year early late)]
    simp only [reserve_of_room m.claim.exp unused room, Except.map]

end Runs

namespace SampleAttestation

def intentDigest : Bytes :=
  [
    0xca, 0xd4, 0xae, 0xb7, 0x70, 0x2a, 0x4a, 0xf3, 0x3f, 0x8b, 0x48, 0xaf, 0x61, 0x75, 0x6b, 0x68,
    0xab, 0xfd, 0x18, 0x9b, 0xe8, 0x01, 0x97, 0xb2, 0xfa, 0xd2, 0xcb, 0xc4, 0xc9, 0xe5, 0x6c, 0xc6]

def claimDigest : Bytes :=
  [
    0x47, 0xa7, 0x03, 0xb7, 0xd5, 0xd1, 0xbf, 0xf8, 0x9f, 0x3e, 0x99, 0x2f, 0x73, 0x13, 0x17, 0xfe,
    0xe0, 0x6e, 0x25, 0xa9, 0x61, 0xf7, 0xe8, 0x4f, 0x38, 0x85, 0x84, 0x76, 0xd2, 0x6b, 0xf6, 0x75]

def intent : Text := text "v1.intent"

def secret : Text := List.replicate 32 'k'

def domain : ReferrerDomain := ⟨text "app.example.com", by decide +kernel⟩

def nonceBytes : {bs : Bytes // bs.length = 16} := ⟨List.ofFn fun i : Fin 16 => i.val.toUInt8, by simp⟩

def claim : IpAttestation where
  v := 1
  ip := text "8.8.8.8"
  iat := 1700000000
  exp := 1700000060
  nonce := hexDigits nonceBytes
  sig := hexDigits claimDigest

def minted : MintedClaim := ⟨domain.name, hexDigits intentDigest, 1700000000900, claim⟩

def body : Text := text "\x7b\"intentHash\":\"" ++ hexDigits intentDigest ++ text "\"\x7d"

def library : AttestationLibrary where
  sha256 message := if message = encodeText intent then intentDigest else List.replicate 32 0
  hmacSha256 key message :=
    if key = encodeText secret ∧ message = encodeText (attestationPayload minted.tuple) then
      claimDigest
    else List.replicate 32 0
  hmacSha256_length key message := by
    split
    · rfl
    · exact List.length_replicate
  parseIPv6 _ := none
  isGlobal a := a = .v4 ⟨[8, 8, 8, 8], rfl⟩
  isMulticast _ := false
  isReserved _ := false
  isSiteLocal _ := false
  urlHostname _ := none
  parseJson t :=
    if t = body then some (.obj [(text "intentHash", .str (hexDigits intentDigest))]) else none
  decodeText bs := bs.map fun b => Char.ofNat b.toNat
  number _ := none

def request : WorkerRequest where
  method := text "POST"
  url := some ⟨text "https:", text "app.example.com", [], attestationPath, []⟩
  header name :=
    if name = text "cf-connecting-ip" then some (text "8.8.8.8")
    else if name = text "content-type" then some (text "application/json")
    else none
  cf := some ⟨some (text "DE"), none⟩
  body := encodeText body

theorem mintClaim_request :
    mintClaim library ⟨some secret, some domain.name⟩ request 1700000000900 nonceBytes =
      .ok minted := by
  decide +kernel

theorem public_ip : PublicIp library claim.ip :=
  ⟨.v4 ⟨[8, 8, 8, 8], rfl⟩, by decide +kernel, rfl, by decide +kernel⟩

theorem payload : attestationPayload minted.tuple =
    attestationPayload (attestedTuple library domain intent claim) := by
  decide +kernel

def system : TransactionMachine AttestationWorld AttestationEvent AttestationReply WorkerRefusal :=
  attestationSystem library domain secret maxNonces

def minting : AttestationEvent := .mint (some domain.name) request 1700000000900 nonceBytes

theorem exec_minting : system.exec (.start 1700000000) minting =
    .ok (⟨[minted], [], [], 1700000000⟩, .minted claim) := by
  simp only [system, attestationSystem, minting, mintClaim_request]
  rfl

theorem run_minting :
    system.run (.start 1700000000) [minting] = ⟨[minted], [], [], 1700000000⟩ :=
  TransactionMachine.step_of_ok _ exec_minting

theorem minting_attested :
    ∀ e ∈ system.log (.start 1700000000) [minting], Attested library domain secret e := by
  rw [TransactionMachine.log, TransactionMachine.record_of_ok _ exec_minting]
  simp [Attested, minting, AttestationWorld.start]

theorem presented_attested : ∀ e ∈ system.log (.start 1700000000)
    [minting, .verify claim intent 1700000010, .verify claim intent 1700000010],
    Attested library domain secret e := by
  intro e he
  rw [TransactionMachine.log, TransactionMachine.log, TransactionMachine.log,
    TransactionMachine.log_nil, TransactionMachine.step_of_ok _ exec_minting, List.append_nil,
    List.mem_append, List.mem_append] at he
  rcases he with he | he | he
  · refine minting_attested e ?_
    rwa [TransactionMachine.log, TransactionMachine.log_nil, List.append_nil]
  · obtain rfl := List.mem_singleton.mp he
    exact ⟨by norm_num, fun _ => ⟨minted, List.mem_cons_self, payload⟩⟩
  · obtain rfl := List.mem_singleton.mp he
    exact ⟨le_rfl, fun _ => ⟨minted, List.mem_cons_self, payload⟩⟩

theorem attestations_one_time_sample :
    ((system.run (.start 1700000000) [minting, .verify claim intent 1700000010,
      .verify claim intent 1700000010]).accepted.map (·.claim.nonce)).Nodup ∧
    (verifyIpAttestation library domain (attestedSession secret) maxNonces claim intent 1700000010
      (system.run (.start 1700000000) [minting]).nonces).1 = .ok (text "8.8.8.8") := by
  have prints : PrintsCanonical library := fun _ _ h => nomatch h
  refine ⟨(attestations_one_time prints _ _ presented_attested).1, ?_⟩
  have accepted := (attestations_one_time prints _ _ minting_attested).2.2.2
  rw [show attestationSystem library domain secret maxNonces = system from rfl,
    run_minting] at accepted
  rw [run_minting]
  exact accepted minted List.mem_cons_self intent 1700000010 rfl (by decide +kernel) public_ip
    (by decide) (by decide) (by decide +kernel) (by decide +kernel) (fun _ h => nomatch h)
    (by decide)

/-- The worker drops the part of a second in which it mints, so that the claim is gone before its
sixty seconds are over. -/
theorem attestation_subsecond :
    fetch library ⟨some secret, some domain.name⟩ request 1700000000900 nonceBytes = .ok claim ∧
      PublicIp library claim.ip ∧
      (1700000000900 / 1000 : ℚ) - 30 ≤ 1700000060.5 ∧
      (1700000060.5 : ℚ) < 1700000000900 / 1000 + 60 ∧
      verifyIpAttestation library domain (attestedSession secret) maxNonces claim intent
        1700000060.5 [] = (.error .expired, []) := by
  refine ⟨?_, public_ip, by norm_num, by norm_num, by decide +kernel⟩
  rw [fetch_eq, mintClaim_request]
  rfl

end SampleAttestation

end Privana
