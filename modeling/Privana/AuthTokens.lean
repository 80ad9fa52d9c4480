import Privana.AbiLayout
import Privana.IpAttestation
import Privana.PrivateReads
import Privana.ReclaimableLocks

/-! The tokens of `auth_token_service.py`, and what `AccountingSiweAuth` makes of them. The service
lays a token out by the ABI and seals it; the contract opens it and decodes it by checks of its
own. Deoxys-II and the decoder of `eth_abi` are library code outside the repository. -/

namespace Privana
open BigEndian AbiLayout

/-- The dataclass `AuthToken`, the struct of the contract. -/
structure SiweAuthToken where
  domain : Text
  userAddr : Address
  validUntil : ℤ
  statement : Text
  resources : List Text

/-- `(string,address,uint256,string,string[])`. -/
def authTokenAbi : AbiType (Bytes × BitVec 160 × BitVec 256 × Bytes × List Bytes × Unit) :=
  tuple <| field bytes <| field (uint 160 (by decide)) <| field (uint 256 le_rfl) <|
    field bytes <| field (array bytes (by decide)) noFields

/-- A value outside `uint256` raises. -/
def SiweAuthToken.toAbiEncoded (token : SiweAuthToken) : Option Bytes :=
  if 0 ≤ token.validUntil ∧ token.validUntil < 2 ^ 256 then
    some <| encodeValue authTokenAbi (encodeText token.domain, token.userAddr,
      BitVec.ofInt 256 token.validUntil, encodeText token.statement,
      token.resources.map encodeText, ())
  else none

/-- `abi.decode(authTokenEncoded, (AuthToken))`, to the fields that the contract reads. -/
def abiDecodeAuthToken (authTokenEncoded : Bytes) : Option AuthToken :=
  (decodeValue authTokenAbi authTokenEncoded).map fun fields => ⟨fields.2.1, fields.2.2.1⟩

/-- Deoxys-II under a key: a nonce, associated data, and the text. It seals deterministically, and
opens only what it would sealing. -/
structure DeoxysII where
  encrypt : Bytes32 → Bytes → Bytes → Bytes → Bytes
  decrypt : Bytes32 → Bytes → Bytes → Bytes → Option Bytes
  decrypt_eq_some : ∀ key nonce ad ciphertext plaintext,
    decrypt key nonce ad ciphertext = some plaintext ↔ encrypt key nonce ad plaintext = ciphertext
  encrypt_length : ∀ key nonce ad plaintext,
    (encrypt key nonce ad plaintext).length = plaintext.length + 16

structure AuthTokenLibrary extends DeoxysII where
  /-- `eth_abi.decode` of the schema. -/
  abiDecode : Bytes → Option SiweAuthToken
  abiDecode_encode : ∀ token encoded, token.toAbiEncoded = some encoded →
    encoded.length ≤ maxLength → abiDecode encoded = some token

inductive AeadError where
  | invalidNonceSize
  | tooShort
  | authenticationFailure

def nonceSize : ℕ := 15
def tagSize : ℕ := 16

namespace AEAD

variable (lib : DeoxysII) (key : Bytes32) (nonce : Bytes)

def encrypt (plaintext associatedData : Bytes) : Except AeadError Bytes :=
  if nonce.length ≠ nonceSize then .error .invalidNonceSize
  else .ok (lib.encrypt key nonce associatedData plaintext)

def decrypt (ciphertext associatedData : Bytes) : Except AeadError Bytes :=
  if nonce.length ≠ nonceSize then .error .invalidNonceSize
  else if ciphertext.length < tagSize then .error .tooShort
  else match lib.decrypt key nonce associatedData ciphertext with
    | some plaintext => .ok plaintext
    | none => .error .authenticationFailure

end AEAD

def zeroNonce : Bytes := List.replicate nonceSize 0

inductive AuthTokenError where
  | invalid
  /-- What the decoder raises; an error of its own is not a `ValueError`. -/
  | undecodable
  | expired
  deriving DecidableEq

section Service
variable (lib : AuthTokenLibrary) (key : Bytes32)

def createAndEncrypt (token : SiweAuthToken) : Option Bytes :=
  match token.toAbiEncoded with
  | none => none
  | some encoded => (AEAD.encrypt lib.toDeoxysII key zeroNonce encoded []).toOption

def decodeAuthToken (ciphertext : Bytes) (validateExpiry : Bool) (now : ℤ) :
    Except AuthTokenError SiweAuthToken :=
  match AEAD.decrypt lib.toDeoxysII key zeroNonce ciphertext [] with
  | .error _ => .error .invalid
  | .ok encoded =>
    match lib.abiDecode encoded with
    | none => .error .undecodable
    | some token =>
      if validateExpiry ∧ token.validUntil < now then .error .expired else .ok token

/-- `Sapphire.decrypt` with a zero nonce and no associated data, and the contract's decoder. -/
def tokenPlatform : TokenPlatform where
  decrypt key token := lib.decrypt key zeroNonce [] token
  decodeAuthToken := abiDecodeAuthToken

end Service

section Minted
variable {lib : AuthTokenLibrary} {key : Bytes32} {token : SiweAuthToken}
  {ciphertext encoded : Bytes}

theorem createAndEncrypt_eq_some : createAndEncrypt lib key token = some ciphertext ↔
    ∃ encoded, token.toAbiEncoded = some encoded ∧
      lib.decrypt key zeroNonce [] ciphertext = some encoded := by
  unfold createAndEncrypt
  cases token.toAbiEncoded with
  | none => simp
  | some encoded =>
    have nonce : ¬ zeroNonce.length ≠ nonceSize := by simp [zeroNonce]
    simp [AEAD.encrypt, nonce, Except.toOption, lib.decrypt_eq_some]

theorem aeadDecrypt_eq_ok :
    AEAD.decrypt lib.toDeoxysII key zeroNonce ciphertext [] = .ok encoded ↔
      lib.decrypt key zeroNonce [] ciphertext = some encoded := by
  have nonce : ¬ zeroNonce.length ≠ nonceSize := by simp [zeroNonce]
  rw [AEAD.decrypt, if_neg nonce]
  constructor
  · intro h
    split at h
    · cases h
    · split at h
      · next opened => rw [opened, Except.ok.inj h]
      · cases h
  · intro opened
    have sealed := (lib.decrypt_eq_some ..).mp opened
    have length := lib.encrypt_length key zeroNonce [] encoded
    rw [sealed] at length
    rw [if_neg (by unfold tagSize; omega), opened]

/-- The contract reads the user and the time that the service wrote. -/
theorem abiDecode_toAbiEncoded (h : token.toAbiEncoded = some encoded)
    (short : encoded.length ≤ maxLength) :
    abiDecodeAuthToken encoded = some ⟨token.userAddr, BitVec.ofInt 256 token.validUntil⟩ := by
  unfold SiweAuthToken.toAbiEncoded at h
  split at h
  · obtain rfl := Option.some.inj h
    rw [abiDecodeAuthToken, decodeValue_encodeValue _ _ short]
    rfl
  · cases h

/-- As integers, so that both ends compare the same times. -/
theorem validUntil_toNat (h : token.toAbiEncoded = some encoded) :
    ((BitVec.ofInt 256 token.validUntil).toNat : ℤ) = token.validUntil := by
  unfold SiweAuthToken.toAbiEncoded at h
  split at h
  · next range =>
    rw [BitVec.toNat_ofInt, Int.toNat_of_nonneg (Int.emod_nonneg _ (by decide))]
    exact Int.emod_eq_of_lt range.1 range.2
  · cases h

theorem toAbiEncoded_injective {token' : SiweAuthToken} (lib : AuthTokenLibrary)
    (h : token.toAbiEncoded = some encoded) (h' : token'.toAbiEncoded = some encoded)
    (short : encoded.length ≤ maxLength) : token = token' := by
  have read := lib.abiDecode_encode token encoded h short
  rw [lib.abiDecode_encode token' encoded h' short] at read
  exact (Option.some.inj read).symm

end Minted

section Opened
variable {lib : AuthTokenLibrary} {key : Bytes32} {token : SiweAuthToken}
  {ciphertext encoded : Bytes}
  (opened : lib.decrypt key zeroNonce [] ciphertext = some encoded)
  (written : token.toAbiEncoded = some encoded) (short : ciphertext.length ≤ maxLength)
include opened

theorem encoded_length : encoded.length + 16 = ciphertext.length := by
  rw [← lib.encrypt_length key zeroNonce [] encoded, (lib.decrypt_eq_some ..).mp opened]

include written short

theorem decodeAuthToken_opened (validateExpiry : Bool) (now : ℤ) :
    decodeAuthToken lib key ciphertext validateExpiry now =
      if validateExpiry ∧ token.validUntil < now then .error .expired else .ok token := by
  unfold decodeAuthToken
  rw [aeadDecrypt_eq_ok.mpr opened]
  have length := encoded_length opened
  dsimp only
  rw [lib.abiDecode_encode token encoded written (by omega)]

theorem authMsgSender_opened (P : Platform) {auth : SiweAuthState} (m : Msg)
    (synced : auth.authTokenEncKey = key) :
    authMsgSender P (tokenPlatform lib) auth m ciphertext =
      if auth.revokedAuthTokens (P.keccak256 ciphertext) then .error .A13e_RevokedAuthToken
      else if token.validUntil < m.timestamp.toNat then .error .SiweAuth_Expired
      else .ok token.userAddr := by
  have length := encoded_length opened
  have nonempty : ¬ ciphertext.length = 0 := by omega
  have same : (BitVec.ofInt 256 token.validUntil < m.timestamp) ↔
      token.validUntil < m.timestamp.toNat := by
    have value := validUntil_toNat written
    rw [BitVec.lt_def]
    omega
  have decoded : decodeAndValidateToken (tokenPlatform lib) auth m ciphertext =
      if token.validUntil < m.timestamp.toNat then .error .SiweAuth_Expired
      else .ok ⟨token.userAddr, BitVec.ofInt 256 token.validUntil⟩ := by
    unfold decodeAndValidateToken tokenPlatform
    rw [synced]
    dsimp only
    rw [opened]
    dsimp only
    rw [abiDecode_toAbiEncoded written (by omega)]
    simp only [same]
  unfold authMsgSender
  rw [if_neg nonempty, decoded]
  split
  · rfl
  · split <;> rfl

end Opened

section Presented
variable {lib : AuthTokenLibrary} {key : Bytes32} {issued : List SiweAuthToken} {ciphertext : Bytes}
  (unforged : ∀ encoded, lib.decrypt key zeroNonce [] ciphertext = some encoded →
    ∃ token ∈ issued, token.toAbiEncoded = some encoded)
  (short : ciphertext.length ≤ maxLength)
include unforged short

/-- What is presented opens to nothing, or to one token that was issued. -/
theorem presented_cases :
    lib.decrypt key zeroNonce [] ciphertext = none ∨
      ∃ token ∈ issued, ∃ encoded, token.toAbiEncoded = some encoded ∧
        lib.decrypt key zeroNonce [] ciphertext = some encoded ∧
        ∀ t, createAndEncrypt lib key t = some ciphertext ↔ t = token := by
  cases opened : lib.decrypt key zeroNonce [] ciphertext with
  | none => exact .inl rfl
  | some encoded =>
    obtain ⟨token, mem, written⟩ := unforged encoded opened
    refine .inr ⟨token, mem, encoded, written, rfl, fun t => ⟨fun sealed => ?_, ?_⟩⟩
    · obtain ⟨encoded', written', opened'⟩ := createAndEncrypt_eq_some.mp sealed
      rw [opened, Option.some_inj] at opened'
      have length := encoded_length opened
      exact toAbiEncoded_injective lib (opened' ▸ written') written (by omega)
    · rintro rfl
      exact createAndEncrypt_eq_some.mpr ⟨encoded, written, opened⟩

theorem decodeAuthToken_eq_ok (validateExpiry : Bool) (now : ℤ) (token : SiweAuthToken) :
    decodeAuthToken lib key ciphertext validateExpiry now = .ok token ↔
      token ∈ issued ∧ createAndEncrypt lib key token = some ciphertext ∧
        (validateExpiry = true → now ≤ token.validUntil) := by
  rcases presented_cases unforged short with sealed | ⟨one, mem, encoded, written, opened, unique⟩
  · constructor
    · intro h
      unfold decodeAuthToken at h
      split at h
      · cases h
      · next opened =>
        rw [aeadDecrypt_eq_ok, sealed] at opened
        cases opened
    · rintro ⟨-, minted, -⟩
      obtain ⟨encoded, -, opened⟩ := createAndEncrypt_eq_some.mp minted
      rw [sealed] at opened
      cases opened
  · rw [decodeAuthToken_opened opened written short, unique]
    constructor
    · intro h
      split at h
      · cases h
      · next fresh =>
        obtain rfl := Except.ok.inj h
        exact ⟨mem, rfl, fun validate => not_lt.mp fun late => fresh ⟨validate, late⟩⟩
    · rintro ⟨-, rfl, fresh⟩
      rw [if_neg fun late => (fresh late.1).not_gt late.2]

theorem authMsgSender_eq_ok (P : Platform) {auth : SiweAuthState} (m : Msg) (u : Address)
    (synced : auth.authTokenEncKey = key) (nonempty : ciphertext ≠ []) :
    authMsgSender P (tokenPlatform lib) auth m ciphertext = .ok u ↔
      auth.revokedAuthTokens (P.keccak256 ciphertext) = false ∧ ∃ token ∈ issued,
        createAndEncrypt lib key token = some ciphertext ∧ token.userAddr = u ∧
        m.timestamp.toNat ≤ token.validUntil := by
  rcases presented_cases unforged short with sealed | ⟨one, mem, encoded, written, opened, unique⟩
  · constructor
    · intro h
      have refused : decodeAndValidateToken (tokenPlatform lib) auth m ciphertext =
          .error .decrypt := by
        unfold decodeAndValidateToken tokenPlatform
        rw [synced]
        dsimp only
        rw [sealed]
      rw [authMsgSender, refused, if_neg (mt List.length_eq_zero_iff.mp nonempty)] at h
      split at h <;> cases h
    · rintro ⟨-, token, -, minted, -⟩
      obtain ⟨encoded, -, opened⟩ := createAndEncrypt_eq_some.mp minted
      rw [sealed] at opened
      cases opened
  · rw [authMsgSender_opened opened written short P m synced]
    simp only [unique]
    constructor
    · intro h
      split at h
      · cases h
      · next valid =>
        split at h
        · cases h
        · next fresh =>
          exact ⟨Bool.not_eq_true _ ▸ valid, one, mem, rfl, Except.ok.inj h, not_lt.mp fresh⟩
    · rintro ⟨valid, token, -, rfl, rfl, fresh⟩
      rw [if_neg (by simp [valid]), if_neg fresh.not_gt]

end Presented

/-- Both ends agree on the tokens of the service. For whatever is presented that the key opens only
if the service has sealed it: the contract takes it for a user exactly if the service issued it to
that user, it is not revoked, and its time has not passed; the service reads back exactly the
token that it issued; and the contract then answers with the data of that user. -/
theorem auth_tokens_agree (lib : AuthTokenLibrary) (key : Bytes32) (issued : List SiweAuthToken)
    (ciphertext : Bytes) (nonempty : ciphertext ≠ []) (short : ciphertext.length ≤ maxLength)
    (unforged : ∀ encoded, lib.decrypt key zeroNonce [] ciphertext = some encoded →
      ∃ token ∈ issued, token.toAbiEncoded = some encoded) :
    (∀ P (auth : SiweAuthState) m u, auth.authTokenEncKey = key →
      (authMsgSender P (tokenPlatform lib) auth m ciphertext = .ok u ↔
        auth.revokedAuthTokens (P.keccak256 ciphertext) = false ∧ ∃ token ∈ issued,
          createAndEncrypt lib key token = some ciphertext ∧ token.userAddr = u ∧
          m.timestamp.toNat ≤ token.validUntil)) ∧
    (∀ validateExpiry now token,
      decodeAuthToken lib key ciphertext validateExpiry now = .ok token ↔
        token ∈ issued ∧ createAndEncrypt lib key token = some ciphertext ∧
          (validateExpiry = true → now ≤ token.validUntil)) ∧
    ∀ P (auth : SiweAuthState) m token (s : State) tokenId, auth.authTokenEncKey = key →
      decodeAuthToken lib key ciphertext true m.timestamp.toNat = .ok token →
      auth.revokedAuthTokens (P.keccak256 ciphertext) = false → token.userAddr ≠ 0 →
      balanceOf P (tokenPlatform lib) auth m tokenId ciphertext s =
          .ok (s.balances token.userAddr tokenId) ∧
        getUserLocks P (tokenPlatform lib) auth m ciphertext s =
          .ok (s.activeLocks token.userAddr) := by
  refine ⟨fun P auth m u synced => authMsgSender_eq_ok unforged short P m u synced nonempty,
    fun validateExpiry now token => decodeAuthToken_eq_ok unforged short validateExpiry now token,
    fun P auth m token s tokenId synced read valid user => ?_⟩
  obtain ⟨mem, minted, fresh⟩ := (decodeAuthToken_eq_ok unforged short _ _ _).mp read
  have taken := (authMsgSender_eq_ok unforged short P m token.userAddr synced nonempty).mpr
    ⟨valid, token, mem, minted, rfl, fresh rfl⟩
  have sender : authSender P (tokenPlatform lib) auth m ciphertext = .ok token.userAddr := by
    rw [authSender, if_pos (mt List.length_eq_zero_iff.mp nonempty), taken]
  have named : requireUser token.userAddr = .ok () := if_neg user
  simp only [balanceOf, getUserLocks, sender, named, bind, Except.bind, pure, Except.pure, and_self]

namespace SampleToken

def authToken : SiweAuthToken where
  domain := text "https://api.privana.finance"
  userAddr := sampleUser
  validUntil := 1800000000
  statement := []
  resources := [text "https://api.privana.finance/v1"]

def key : Bytes32 := 1

def encoded : Bytes := encodeValue authTokenAbi
  (encodeText authToken.domain, sampleUser, 1800000000, [], authToken.resources.map encodeText, ())

def tag : Bytes := List.replicate tagSize 0

/-- Deoxys-II seals the encoded token under the key to this. -/
def ciphertext : Bytes := List.flatMap (encode 36) [
  0x0aae8ca696d0cf2f17133176f36c56845df8ecf02a9d4e4117cdf9119280eb7fd6053cfb,
  0x5222f372bfb5e9c90a5780bcb0c61588652597af00057b4f0a86053865fd8ff335cebb1b,
  0xc656a783d458c08921dbdddd0d229bb0aac15e1bc375a5e48ea1a267c1ca80bc9ab5fb5f,
  0xdf0d3a886602481ab25494485840a86ca580cfa137b1bacb0f93f831afc1156d50f42dd9,
  0xad4bd0d7d9cfa481c12cf81353f209114d8badbdd235c4231f562dc6a043c1dad8afc05b,
  0x891799e799dfc468b49ef86288de6fbbee43f84250fb6db729e8e3f2ee21944b1f303dd5,
  0x580ca1283e90cf2887ef6e55e529f25e89b477968e76cedb98efecbfed9649fecce1c301,
  0x12560f7aa96f4ad86476215a0bc399a7be6301fa3e706237cc0e5952db3c753d3462aea9,
  0xdf2f7bbbd1daf556d32c40fef8569acba84a2d4490dbae1b02f427165a65f535b3d2ecd7,
  0x0f3e1de9499a7a95a0c63f0cb176fd28d3c3ca6203440421f1caa81582551cc0401600fe,
  0x304d2bd53cf4a9ec81774582f4595833b6bbc59d2294e2bd72425def9898d597660d4755,
  0xeb958d93628993e7a7684bd9814a872116eec0785ad6c8cb6e7670f0756a6c67abaa5d47]

/-- It seals this token as Deoxys-II does, and anything else to itself with an empty tag. -/
def sealing : Equiv.Perm Bytes := Equiv.swap (encoded ++ tag) ciphertext

theorem length_sealing (bs : Bytes) : (sealing bs).length = bs.length := by
  have same : (encoded ++ tag).length = ciphertext.length := by decide +kernel
  unfold sealing
  rw [Equiv.swap_apply_def]
  split
  · next h => rw [h, same]
  · split
    · next h => rw [h, same]
    · rfl

def opening (ciphertext : Bytes) : Option Bytes :=
  if tag <:+ sealing.symm ciphertext then
    some ((sealing.symm ciphertext).take ((sealing.symm ciphertext).length - tagSize))
  else none

theorem opening_eq_some (ciphertext plaintext : Bytes) :
    opening ciphertext = some plaintext ↔ sealing (plaintext ++ tag) = ciphertext := by
  rw [← Equiv.eq_symm_apply, opening]
  generalize sealing.symm ciphertext = text
  constructor
  · intro h
    split at h
    · next suffix =>
      obtain ⟨plain, rfl⟩ := suffix
      rw [← Option.some.inj h]
      simp [tag]
    · cases h
  · rintro rfl
    simp [tag]

def decodeUtf8 (bs : Bytes) : Option Text := bs.toByteArray.utf8Decode?.map Array.toList

theorem decodeUtf8_encodeText (t : Text) : decodeUtf8 (encodeText t) = some t := by
  have decoded := List.utf8Decode?_utf8Encode (l := t)
  rw [List.utf8Encode] at decoded
  rw [decodeUtf8, encodeText, decoded]
  rfl

def decodeFields (fields : Bytes × BitVec 160 × BitVec 256 × Bytes × List Bytes × Unit) :
    Option SiweAuthToken := do
  let domain ← decodeUtf8 fields.1
  let statement ← decodeUtf8 fields.2.2.2.1
  let resources ← fields.2.2.2.2.1.mapM decodeUtf8
  some ⟨domain, fields.2.1, fields.2.2.1.toNat, statement, resources⟩

def library : AuthTokenLibrary where
  encrypt _ _ _ plaintext := sealing (plaintext ++ tag)
  decrypt _ _ _ ciphertext := opening ciphertext
  decrypt_eq_some _ _ _ ciphertext plaintext := opening_eq_some ciphertext plaintext
  encrypt_length _ _ _ plaintext := by
    rw [length_sealing, List.length_append, tag, List.length_replicate, tagSize]
  abiDecode encoded := (decodeValue authTokenAbi encoded).bind decodeFields
  abiDecode_encode token encoded written short := by
    have validUntil := validUntil_toNat written
    unfold SiweAuthToken.toAbiEncoded at written
    split at written
    · obtain rfl := Option.some.inj written
      have resources : (token.resources.map encodeText).mapM decodeUtf8 = some token.resources := by
        induction token.resources with
        | nil => rfl
        | cons t ts ih => simp [decodeUtf8_encodeText, ih]
      rw [decodeValue_encodeValue _ _ short]
      simp only [Option.bind_some, decodeFields, decodeUtf8_encodeText, resources, validUntil,
        Option.bind_eq_bind]
    · cases written

theorem toAbiEncoded_authToken : authToken.toAbiEncoded = some encoded := rfl

theorem opened : library.decrypt key zeroNonce [] ciphertext = some encoded := by
  rw [library.decrypt_eq_some]
  exact Equiv.swap_apply_left _ _

def auth : SiweAuthState := ⟨key, fun _ => false⟩

def asked : Msg := ⟨0, false, 9, 1799999999⟩

def locked : State :=
  (accounting sampleLockPlatform).run (accountingInit sampleEvm sampleGasTank) sampleLockTxs

theorem auth_tokens_agree_sample :
    authMsgSender sampleLockPlatform (tokenPlatform library) auth asked ciphertext =
        .ok sampleUser ∧
      decodeAuthToken library key ciphertext true 1799999999 = .ok authToken ∧
      balanceOf sampleLockPlatform (tokenPlatform library) auth asked sampleTokenId ciphertext
        locked = .ok 4 := by
  have nonempty : ciphertext ≠ [] := by decide +kernel
  have short : ciphertext.length ≤ maxLength := by decide +kernel
  have unforged : ∀ encoded, library.decrypt key zeroNonce [] ciphertext = some encoded →
      ∃ token ∈ [authToken], token.toAbiEncoded = some encoded := by
    intro other h
    rw [opened] at h
    exact ⟨authToken, List.mem_singleton_self _, h ▸ toAbiEncoded_authToken⟩
  have sealed : createAndEncrypt library key authToken = some ciphertext :=
    createAndEncrypt_eq_some.mpr ⟨encoded, toAbiEncoded_authToken, opened⟩
  have agree := auth_tokens_agree library key [authToken] ciphertext nonempty short unforged
  have read := (agree.2.1 true 1799999999 authToken).mpr
    ⟨List.mem_singleton_self _, sealed, fun _ => by decide +kernel⟩
  refine ⟨(agree.1 _ _ _ _ rfl).mpr ⟨rfl, authToken, List.mem_singleton_self _, sealed, rfl,
    by decide +kernel⟩, read, ?_⟩
  rw [(agree.2.2 sampleLockPlatform auth asked authToken locked sampleTokenId rfl read rfl
    (by decide +kernel)).1]
  exact congrArg Except.ok (by decide +kernel)

end SampleToken

end Privana
