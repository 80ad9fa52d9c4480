import Privana.Types

/-! `EIP712SignatureVerifier.sol`: the seven signed messages, their digests under
the salted domain, and the verifiers, each of which consumes one nonce of the
signer in the map of its own kind. -/

namespace Privana
open BigEndian CheckedArithmetic

/-- One kind for each typehash and each nonce mapping. -/
inductive SignedKind where
  | withdraw
  | lock
  | transfer
  | transferLocked
  | transferToLock
  | modifyLock
  | withdrawFromLock
  deriving DecidableEq, Repr

def SignedKind.typeString : SignedKind → String
  | .withdraw => "Withdraw(bytes32 tokenId,uint256 amount,uint256 nonce)"
  | .lock =>
    "Lock(address serviceAddress,bytes32 tokenId,uint256 amount,uint256 expiry,uint256 nonce)"
  | .transfer => "Transfer(address toAddress,bytes32 tokenId,uint256 amount,uint256 nonce)"
  | .transferLocked =>
    "TransferLocked(address userAddress,address toAddress,uint256 lockId,uint256 amount,uint256 nonce,address serviceAddress)"
  | .transferToLock =>
    "TransferToLock(address userAddress,uint256 lockId,uint256 amount,uint256 nonce)"
  | .modifyLock => "ModifyLock(uint256 lockId,uint256 amount,uint256 newExpiry,uint256 nonce)"
  | .withdrawFromLock =>
    "WithdrawFromLock(address userAddress,address toAddress,uint256 lockId,uint256 amount,uint256 nonce)"

inductive Message where
  | withdraw (tokenId : Bytes32) (amount nonce : U256)
  | lock (serviceAddress : Address) (tokenId : Bytes32) (amount expiry nonce : U256)
  | transfer (toAddress : Address) (tokenId : Bytes32) (amount nonce : U256)
  | transferLocked (userAddress toAddress : Address) (lockId amount nonce : U256)
      (serviceAddress : Address)
  | transferToLock (userAddress : Address) (lockId amount nonce : U256)
  | modifyLock (lockId amount newExpiry nonce : U256)
  | withdrawFromLock (userAddress toAddress : Address) (lockId amount nonce : U256)
  deriving DecidableEq

namespace Message

def kind : Message → SignedKind
  | withdraw .. => .withdraw
  | lock .. => .lock
  | transfer .. => .transfer
  | transferLocked .. => .transferLocked
  | transferToLock .. => .transferToLock
  | modifyLock .. => .modifyLock
  | withdrawFromLock .. => .withdrawFromLock

def amount : Message → U256
  | withdraw _ amount _ => amount
  | lock _ _ amount _ _ => amount
  | transfer _ _ amount _ => amount
  | transferLocked _ _ _ amount _ _ => amount
  | transferToLock _ _ amount _ => amount
  | modifyLock _ amount _ _ => amount
  | withdrawFromLock _ _ _ amount _ => amount

def nonce : Message → U256
  | withdraw _ _ nonce => nonce
  | lock _ _ _ _ nonce => nonce
  | transfer _ _ _ nonce => nonce
  | transferLocked _ _ _ _ nonce _ => nonce
  | transferToLock _ _ _ nonce => nonce
  | modifyLock _ _ _ nonce => nonce
  | withdrawFromLock _ _ _ _ nonce => nonce

/-- The arguments of `abi.encode` after the typehash, in order. -/
def words : Message → List (BitVec 256)
  | withdraw tokenId amount nonce => [tokenId, amount, nonce]
  | lock serviceAddress tokenId amount expiry nonce =>
    [addressWord serviceAddress, tokenId, amount, expiry, nonce]
  | transfer toAddress tokenId amount nonce => [addressWord toAddress, tokenId, amount, nonce]
  | transferLocked userAddress toAddress lockId amount nonce serviceAddress =>
    [addressWord userAddress, addressWord toAddress, lockId, amount, nonce,
      addressWord serviceAddress]
  | transferToLock userAddress lockId amount nonce =>
    [addressWord userAddress, lockId, amount, nonce]
  | modifyLock lockId amount newExpiry nonce => [lockId, amount, newExpiry, nonce]
  | withdrawFromLock userAddress toAddress lockId amount nonce =>
    [addressWord userAddress, addressWord toAddress, lockId, amount, nonce]

end Message

section Digests
variable (P : Platform)

def typehash (k : SignedKind) : Bytes32 := P.keccak256 (utf8 k.typeString)

def structEncoding (msg : Message) : Bytes := abiEncode (typehash P msg.kind :: msg.words)

def structHash (msg : Message) : Bytes32 := P.keccak256 (structEncoding P msg)

def saltedDomainSeparator : Bytes32 :=
  P.keccak256 (abiEncode
    [P.keccak256 (utf8 "EIP712Domain(string name,string version,address verifyingContract,bytes32 salt)"),
      P.keccak256 (utf8 "AccountingModule"), P.keccak256 (utf8 "1"),
      addressWord P.contractAddress, P.chainid])

/-- The bytes `MessageHashUtils.toTypedDataHash` hashes. -/
def typedDataEncoding (msg : Message) : Bytes :=
  [0x19, 0x01] ++ word (saltedDomainSeparator P) ++ word (structHash P msg)

def hashTypedDataV4 (msg : Message) : Bytes32 := P.keccak256 (typedDataEncoding P msg)

/-- A signature accepted by a verifier: it recovers to `signer` on the digest of
`message`, so an approval that nobody signed cannot be built. -/
structure Approval where
  signer : Address
  message : Message
  signature : Bytes
  recovered : P.recover (hashTypedDataV4 P message) signature = some signer

def recoverApproval (message : Message) (signature : Bytes) : Except Error (Approval P) :=
  match h : P.recover (hashTypedDataV4 P message) signature with
  | some signer => .ok ⟨signer, message, signature, h⟩
  | none => .error .library

end Digests

structure VerifierState where
  /-- The seven nonce mappings, one for each kind. -/
  signNonces : SignedKind → Address → U256

namespace VerifierState

def withdrawalNonces (s : VerifierState) := s.signNonces .withdraw
def transferNonces (s : VerifierState) := s.signNonces .transfer
def createLockNonces (s : VerifierState) := s.signNonces .lock
def modifyLockNonces (s : VerifierState) := s.signNonces .modifyLock
def transferLockedNonces (s : VerifierState) := s.signNonces .transferLocked
def withdrawFromLockNonces (s : VerifierState) := s.signNonces .withdrawFromLock
def transferToLockNonces (s : VerifierState) := s.signNonces .transferToLock

def setNonce (s : VerifierState) (k : SignedKind) (a : Address) (n : U256) : VerifierState :=
  { signNonces := Function.update s.signNonces k (Function.update (s.signNonces k) a n) }

end VerifierState

section Verifiers
variable (P : Platform)

abbrev Verified := Except Error (Approval P × VerifierState)

/-- `nonces[signer]++`, checked. -/
def incrementNonce (k : SignedKind) (signer : Address) (s : VerifierState) :
    Except Error VerifierState := do
  let next ← checkedAdd .panic (s.signNonces k signer) 1
  return s.setNonce k signer next

/-- The five verifiers that return the recovered signer. -/
def verifyRecovered (message : Message) (signature : Bytes) (s : VerifierState) : Verified P := do
  let approval ← recoverApproval P message signature
  revertIf (approval.signer = 0) .InvalidSignature
  revertIf (message.nonce ≠ s.signNonces message.kind approval.signer) .InvalidNonce
  let s ← incrementNonce message.kind approval.signer s
  return (approval, s)

/-- The two verifiers that are given the signer and check the nonce first. -/
def verifyExpected (serviceAddress : Address) (message : Message) (signature : Bytes)
    (s : VerifierState) : Verified P := do
  revertIf (message.nonce ≠ s.signNonces message.kind serviceAddress) .InvalidNonce
  let approval ← recoverApproval P message signature
  revertIf (approval.signer ≠ serviceAddress) .InvalidSignature
  let s ← incrementNonce message.kind serviceAddress s
  return (approval, s)

def verifyWithdrawSignature (tokenId : Bytes32) (amount nonce : U256) (signature : Bytes)
    (s : VerifierState) : Verified P :=
  verifyRecovered P (.withdraw tokenId amount nonce) signature s

def verifyLockSignature (serviceAddress : Address) (tokenId : Bytes32)
    (amount expiry nonce : U256) (signature : Bytes) (s : VerifierState) : Verified P :=
  verifyRecovered P (.lock serviceAddress tokenId amount expiry nonce) signature s

def verifyTransferSignature (toAddress : Address) (tokenId : Bytes32) (amount nonce : U256)
    (signature : Bytes) (s : VerifierState) : Verified P :=
  verifyRecovered P (.transfer toAddress tokenId amount nonce) signature s

def verifyTransferLockedSignature (serviceAddress userAddress toAddress : Address)
    (lockId amount nonce : U256) (signature : Bytes) (s : VerifierState) : Verified P :=
  verifyExpected P serviceAddress
    (.transferLocked userAddress toAddress lockId amount nonce serviceAddress) signature s

def verifyWithdrawFromLockSignature (serviceAddress userAddress toAddress : Address)
    (lockId amount nonce : U256) (signature : Bytes) (s : VerifierState) : Verified P :=
  verifyExpected P serviceAddress
    (.withdrawFromLock userAddress toAddress lockId amount nonce) signature s

def verifyModifyLockSignature (lockId amount newExpiry nonce : U256) (signature : Bytes)
    (s : VerifierState) : Verified P :=
  verifyRecovered P (.modifyLock lockId amount newExpiry nonce) signature s

def verifyTransferToLockSignature (userAddress : Address) (lockId amount nonce : U256)
    (signature : Bytes) (s : VerifierState) : Verified P :=
  verifyRecovered P (.transferToLock userAddress lockId amount nonce) signature s

variable {P}

theorem recoverApproval_eq_ok {message : Message} {signature : Bytes} {a : Approval P} :
    recoverApproval P message signature = .ok a ↔
      a.message = message ∧ a.signature = signature := by
  unfold recoverApproval
  constructor
  · intro h
    split at h
    · obtain rfl := Except.ok.inj h
      exact ⟨rfl, rfl⟩
    · cases h
  · rintro ⟨rfl, rfl⟩
    split
    · next signer h =>
      have hs : signer = a.signer := Option.some.inj (h.symm.trans a.recovered)
      subst hs
      rfl
    · next h =>
      have := a.recovered
      simp [h] at this

/-- What every verifier does when it succeeds: the message carries the signer's
current nonce, and exactly that nonce moves on by one. -/
structure Consumes (a : Approval P) (s s' : VerifierState) : Prop where
  current : a.message.nonce = s.signNonces a.message.kind a.signer
  next : ∃ n, n.toNat = a.message.nonce.toNat + 1 ∧
    s' = s.setNonce a.message.kind a.signer n

theorem incrementNonce_eq_ok {k : SignedKind} {a : Address} {s s' : VerifierState} :
    incrementNonce k a s = .ok s' ↔
      ∃ n, n.toNat = (s.signNonces k a).toNat + 1 ∧ s' = s.setNonce k a n := by
  simp only [incrementNonce, bind_eq_ok, checkedAdd_eq_ok, pure_eq_ok]
  constructor <;> rintro ⟨n, hn, rfl⟩ <;> exact ⟨n, hn, rfl⟩

theorem verifyRecovered_ok {message : Message} {signature : Bytes} {s s' : VerifierState}
    {a : Approval P} (h : verifyRecovered P message signature s = .ok (a, s')) :
    a.message = message ∧ a.signature = signature ∧ a.signer ≠ 0 ∧ Consumes a s s' := by
  simp only [verifyRecovered, bind_eq_ok, revertIf_eq_ok, pure_eq_ok, recoverApproval_eq_ok,
    incrementNonce_eq_ok] at h
  obtain ⟨b, ⟨rfl, rfl⟩, _, hz, _, hn, t, ⟨n, hnext, rfl⟩, he⟩ := h
  obtain ⟨rfl, rfl⟩ := Prod.mk.inj he
  have hc := not_not.mp hn
  exact ⟨rfl, rfl, hz, hc, n, by rw [hnext, hc], rfl⟩

theorem verifyExpected_ok {serviceAddress : Address} {message : Message} {signature : Bytes}
    {s s' : VerifierState} {a : Approval P}
    (h : verifyExpected P serviceAddress message signature s = .ok (a, s')) :
    a.message = message ∧ a.signature = signature ∧ a.signer = serviceAddress ∧
      Consumes a s s' := by
  simp only [verifyExpected, bind_eq_ok, revertIf_eq_ok, pure_eq_ok, recoverApproval_eq_ok,
    incrementNonce_eq_ok] at h
  obtain ⟨_, hn, b, ⟨rfl, rfl⟩, _, hs, t, ⟨n, hnext, rfl⟩, he⟩ := h
  obtain ⟨rfl, rfl⟩ := Prod.mk.inj he
  have hsigner := not_not.mp hs
  have hc := not_not.mp hn
  subst hsigner
  exact ⟨rfl, rfl, rfl, hc, n, by rw [hnext, hc], rfl⟩

end Verifiers

end Privana
