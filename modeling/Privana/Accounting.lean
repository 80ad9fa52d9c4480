import Privana.EIP712SignatureVerifier
import Privana.EVMSignerAndVerifier
import Privana.SwapPop
import Privana.TransactionMachine

/-! `Accounting.sol`: balances, locks, the withdrawal queue and the user history,
and the machine whose inputs are the external calls. Every function takes the
state it starts from and either reverts or returns the new state with what it
emits and returns. -/

namespace Privana
open BigEndian CheckedArithmetic SwapPop

structure WithdrawalRequest where
  userAddress : Address
  toAddress : Address
  amount : U256
  blockNumber : U256
  tokenId : Bytes32
  resolved : Bool
  txIdentifier : Bytes
  deriving DecidableEq

structure EmergencyWithdrawRequest where
  toAddress : Address
  blockNumber : U256
  deriving DecidableEq

structure State extends VerifierState, SignerState where
  balances : Address → Bytes32 → U256
  tokens : Bytes32 → TokenInfo
  processedDeposits : Bytes32 → Bool
  userInfo : Address → UserInfo
  withdrawals : List WithdrawalRequest
  nextLockId : U256
  registeredTokenIds : List Bytes32
  emergencyWithdrawRequests : Bytes32 → EmergencyWithdrawRequest
  history : Address → List HistoryEntry

/-- What a successful call emits and returns, with the signature check that
authorised it, if it makes one. -/
structure Output (P : Platform) where
  events : List Event := []
  approval : Option (Approval P) := none
  signedTx : Option (SignedTx P) := none
  unlockedCount : U256 := 0
  requestId : Option Bytes32 := none

abbrev Result (P : Platform) := Except Error (State × Output P)

/-- The initializer, with the two keypairs `_generateKeypair` returned. -/
def accountingInit (evm gasTank : Address × Bytes32) : State where
  signNonces := fun _ _ => 0
  evmAddress := evm.1
  secretKey := evm.2
  gasTankAddress := gasTank.1
  gasTankSecret := gasTank.2
  nonces := fun _ => 0
  gasPrices := fun _ => 0
  roflSignerAddress := 0
  balances := fun _ _ => 0
  tokens := fun _ => ⟨.NativeEVM, []⟩
  processedDeposits := fun _ => false
  userInfo := fun _ => ⟨[]⟩
  withdrawals := []
  nextLockId := 1
  registeredTokenIds := []
  emergencyWithdrawRequests := fun _ => ⟨0, 0⟩
  history := fun _ => []

namespace State

def activeLocks (s : State) (u : Address) : List FundLock := (s.userInfo u).activeLocks

@[simps toVerifierState toSignerState balances tokens processedDeposits userInfo withdrawals
  nextLockId history]
def setLocks (s : State) (u : Address) (locks : List FundLock) : State :=
  { s with userInfo := Function.update s.userInfo u ⟨locks⟩ }

@[simps toVerifierState toSignerState balances tokens processedDeposits userInfo withdrawals
  nextLockId history]
def setBalance (s : State) (u : Address) (t : Bytes32) (b : U256) : State :=
  { s with balances := Function.update s.balances u (Function.update (s.balances u) t b) }

/-- `balances[u][t] += amount`. -/
def addBalance (s : State) (u : Address) (t : Bytes32) (amount : U256) : Except Error State := do
  let b ← checkedAdd .panic (s.balances u t) amount
  return s.setBalance u t b

/-- `balances[u][t] -= amount`. -/
def subBalance (s : State) (u : Address) (t : Bytes32) (amount : U256) : Except Error State := do
  let b ← checkedSub .panic (s.balances u t) amount
  return s.setBalance u t b

@[simps toVerifierState toSignerState balances tokens processedDeposits userInfo withdrawals
  nextLockId history]
def appendHistory (s : State) (m : Msg) (user : Address) (kind : HistoryKind)
    (payload : Bytes) : State :=
  let entry := ⟨kind, m.timestamp.setWidth 64, payload⟩
  { s with history := Function.update s.history user (s.history user ++ [entry]) }

@[simps! toVerifierState toSignerState balances tokens processedDeposits userInfo withdrawals
  nextLockId]
def appendUserCounterpartyHistory (s : State) (m : Msg) (user : Address) (kind : HistoryKind)
    (tokenId : Bytes32) (amount : U256) (counterparty : Address) : State :=
  s.appendHistory m user kind (word tokenId ++ word amount ++ packedAddress counterparty)

theorem activeLocks_setLocks (s : State) (u w : Address) (locks : List FundLock) :
    (s.setLocks u locks).activeLocks w = if w = u then locks else s.activeLocks w := by
  by_cases h : w = u
  · subst h
    simp [activeLocks]
  · simp [activeLocks, h]

@[simp] theorem activeLocks_setLocks_self (s : State) (u : Address) (locks : List FundLock) :
    (s.setLocks u locks).activeLocks u = locks := by
  rw [activeLocks_setLocks, if_pos rfl]

@[simp] theorem activeLocks_setBalance (s : State) (u w : Address) (t : Bytes32) (b : U256) :
    (s.setBalance u t b).activeLocks w = s.activeLocks w := rfl

@[simp] theorem activeLocks_appendHistory (s : State) (m : Msg) (u w : Address)
    (kind : HistoryKind) (payload : Bytes) :
    (s.appendHistory m u kind payload).activeLocks w = s.activeLocks w := rfl

@[simp] theorem activeLocks_appendUserCounterpartyHistory (s : State) (m : Msg)
    (u w c : Address) (kind : HistoryKind) (t : Bytes32) (amount : U256) :
    (s.appendUserCounterpartyHistory m u kind t amount c).activeLocks w = s.activeLocks w := rfl

theorem balances_setBalance (s : State) (u w : Address) (t t' : Bytes32) (b : U256) :
    (s.setBalance u t b).balances w t' = if w = u ∧ t' = t then b else s.balances w t' := by
  simp only [setBalance_balances, Function.update_apply]
  split_ifs <;> simp_all

end State

section Functions
variable (P : Platform) (m : Msg)

def creditDeposit (beneficiary : Address) (tokenId : Bytes32) (amount : U256)
    (depositId : Bytes32) (s : State) : Result P := do
  onlyROFL m
  revertIf (beneficiary = 0) .AddressMismatch
  revertIf (s.processedDeposits depositId = true) .DepositAlreadyProcessed
  revertIf (amount = 0) .InvalidAmount
  revertIf ((s.tokens tokenId).data.length = 0) .UnsupportedTokenType
  let s := { s with processedDeposits := Function.update s.processedDeposits depositId true }
  let s ← s.addBalance beneficiary tokenId amount
  let s := s.appendHistory m beneficiary .Deposit (word tokenId ++ word amount ++ word depositId)
  return (s, { events := [.Deposit tokenId amount depositId] })

def emergencyWithdrawKey (beneficiary : Address) (tokenId : Bytes32) (version : U256) : Bytes32 :=
  P.keccak256 (abiEncode [addressWord beneficiary, tokenId, version])

def requestEmergencyWithdraw (tokenId : Bytes32) (toAddress : Address) (version : U256)
    (s : State) : Result P := do
  revertIf (toAddress = 0) .AddressMismatch
  revertIf ((s.tokens tokenId).data.length = 0) .UnsupportedTokenType
  let requestId := emergencyWithdrawKey P m.sender tokenId version
  let requests := Function.update s.emergencyWithdrawRequests requestId
    ⟨toAddress, m.blockNumber⟩
  let s := { s with emergencyWithdrawRequests := requests }
  return (s, { events := [.EmergencyWithdrawRequested requestId tokenId],
               requestId := some requestId })

def executeEmergencyWithdraw (beneficiary : Address) (tokenId : Bytes32) (version : U256)
    (sourceChainNonce : U64) (amount gasPrice : U256) (s : State) : Result P := do
  let requestId := emergencyWithdrawKey P beneficiary tokenId version
  let req := s.emergencyWithdrawRequests requestId
  revertIf (req.blockNumber = 0) .EmergencyWithdrawNotFound
  let delay ← checkedSub .panic m.blockNumber req.blockNumber
  revertIf (delay < 1) .EmergencyWithdrawTooSoon
  let tInfo := s.tokens tokenId
  let signedTx ← match tInfo.tokenType with
    | .NativeEVM => do
      let chainId ← decodeEVMNativeTokenData tInfo.data
      generateDepositAddressTransfer P s.toSignerState beneficiary .EVM version chainId
        req.toAddress amount sourceChainNonce gasPrice
    | .ERC20 => do
      let (chainId, tokenAddress) ← decodeEVMErc20TokenData tInfo.data
      generateDepositAddressERC20Transfer P s.toSignerState beneficiary .EVM version chainId
        req.toAddress tokenAddress amount sourceChainNonce gasPrice
  return (s, { events := [.EmergencyWithdrawExecuted requestId], signedTx := some signedTx })

def createLock (serviceAddress : Address) (tokenId : Bytes32) (amount expiry nonce : U256)
    (signature : Bytes) (s : State) : Result P := do
  revertIf (expiry ≤ m.timestamp) .InvalidExpiry
  revertIf (amount = 0) .InvalidAmount
  let (approval, v) ← verifyLockSignature P serviceAddress tokenId amount expiry nonce signature
    s.toVerifierState
  let s := { s with toVerifierState := v }
  let userAddress := approval.signer
  let locks := s.activeLocks userAddress
  revertIf (10 ≤ locks.length) .TooManyActiveLocks
  revertIf (s.balances userAddress tokenId < amount) .InsufficientBalance
  let s ← s.subBalance userAddress tokenId amount
  let lockId := s.nextLockId
  let nextLockId ← checkedAdd .panic lockId 1
  let s := { s with nextLockId }
  let s := s.setLocks userAddress
    (locks ++ [⟨lockId, serviceAddress, tokenId, amount, expiry⟩])
  let s := s.appendUserCounterpartyHistory m userAddress .CreateLock tokenId amount serviceAddress
  return (s, { approval := some approval })

/-- The linear scan `_findLockIndex`, with the lock it points at. -/
def findLockIndex (locks : List FundLock) (lockId : U256) : Except Error (Fin locks.length) :=
  match locks.findFinIdx? (fun l => l.lockId = lockId) with
  | some i => .ok i
  | none => .error .InvalidLockId

def scheduleWithdrawal (userAddress toAddress : Address) (tokenId : Bytes32) (amount : U256)
    (s : State) : Except Error (State × Event) := do
  let tInfo := s.tokens tokenId
  let (txIdentifier, chainId, v) ← match tInfo.tokenType with
    | .NativeEVM => do
      let chainId ← decodeEVMNativeTokenData tInfo.data
      revertIf (s.gasPrices chainId = 0) (.GasPriceNotSet chainId)
      let (nonce, v) ← getEVMNonceAndIncrement chainId s.toSignerState
      pure (abiEncode [nonce.setWidth 256], chainId, v)
    | .ERC20 => do
      let (chainId, _) ← decodeEVMErc20TokenData tInfo.data
      revertIf (s.gasPrices chainId = 0) (.GasPriceNotSet chainId)
      let (nonce, v) ← getEVMNonceAndIncrement chainId s.toSignerState
      pure (abiEncode [nonce.setWidth 256], chainId, v)
  let s := { s with toSignerState := v }
  let request := { userAddress, toAddress, amount, blockNumber := m.blockNumber, tokenId,
                   txIdentifier, resolved := false }
  let s := { s with withdrawals := s.withdrawals ++ [request] }
  return (s, .Withdrawal userAddress tokenId amount chainId)

def modifyLock (lockId amount newExpiry nonce : U256) (signature : Bytes) (s : State) :
    Result P := do
  let (approval, v) ← verifyModifyLockSignature P lockId amount newExpiry nonce signature
    s.toVerifierState
  let s := { s with toVerifierState := v }
  let userAddress := approval.signer
  let locks := s.activeLocks userAddress
  let i ← findLockIndex locks lockId
  let lock := locks[i]
  revertIf (newExpiry < lock.expiry) .InvalidExpiry
  revertIf (amount = 0 ∧ newExpiry = lock.expiry) .InvalidAmount
  let (s, newAmount) ← if 0 < amount then do
      revertIf (s.balances userAddress lock.tokenId < amount) .InsufficientBalance
      let s ← s.subBalance userAddress lock.tokenId amount
      let newAmount ← checkedAdd .panic lock.amount amount
      pure (s, newAmount)
    else pure (s, lock.amount)
  let s := s.setLocks userAddress
    (locks.set i { lock with amount := newAmount, expiry := newExpiry })
  let s := s.appendUserCounterpartyHistory m userAddress .ModifyLock lock.tokenId amount
    lock.serviceId
  return (s, { approval := some approval })

def unlockSingleLock (userAddress : Address) (lockId : U256) (s : State) : Result P := do
  let locks := s.activeLocks userAddress
  let i ← findLockIndex locks lockId
  let lock := locks[i]
  let s ← if lock.amount ≠ 0 then do
      revertIf (m.timestamp < lock.expiry) .LockNotExpired
      let s ← s.addBalance userAddress lock.tokenId lock.amount
      pure (s.appendUserCounterpartyHistory m userAddress .UnlockLock lock.tokenId lock.amount
        lock.serviceId)
    else pure s
  return (s.setLocks userAddress (swapPop locks i), {})

/-- The loop of `unlockAllExpiredLocks` with `i` slots still to visit, from the last. -/
def unlockAllExpiredLocksLoop (userAddress : Address) :
    ℕ → State → U256 → Except Error (State × U256)
  | 0, s, unlockedCount => .ok (s, unlockedCount)
  | i + 1, s, unlockedCount =>
    let locks := s.activeLocks userAddress
    match locks[i]? with
    | none => .error .panic
    | some lock =>
      if lock.expiry ≤ m.timestamp ∧ 0 < lock.amount then do
        let s ← s.addBalance userAddress lock.tokenId lock.amount
        let s := s.appendUserCounterpartyHistory m userAddress .UnlockLock lock.tokenId
          lock.amount lock.serviceId
        let s := s.setLocks userAddress (swapPop locks i)
        let unlockedCount ← checkedAdd .panic unlockedCount 1
        unlockAllExpiredLocksLoop userAddress i s unlockedCount
      else unlockAllExpiredLocksLoop userAddress i s unlockedCount

def unlockAllExpiredLocks (userAddress : Address) (s : State) : Result P := do
  let (s, unlockedCount) ←
    unlockAllExpiredLocksLoop m userAddress (s.activeLocks userAddress).length s 0
  return (s, { unlockedCount })

def transferFromLock (userAddress toAddress : Address) (lockId amount nonce : U256)
    (signature : Bytes) (s : State) : Result P := do
  revertIf (amount = 0) .InvalidAmount
  revertIf (toAddress = 0) .AddressMismatch
  let locks := s.activeLocks userAddress
  let i ← findLockIndex locks lockId
  let lock := locks[i]
  let (approval, v) ← verifyTransferLockedSignature P lock.serviceId userAddress toAddress lockId
    amount nonce signature s.toVerifierState
  let s := { s with toVerifierState := v }
  revertIf (lock.amount < amount) .InsufficientLockedAmount
  let newAmount ← checkedSub .panic lock.amount amount
  let locks := locks.set i { lock with amount := newAmount }
  let s := s.setLocks userAddress locks
  let s ← s.addBalance toAddress lock.tokenId amount
  let s := s.appendUserCounterpartyHistory m userAddress .TransferFromLockOut lock.tokenId amount
    toAddress
  let s := if toAddress ≠ userAddress then
      s.appendUserCounterpartyHistory m toAddress .TransferFromLockIn lock.tokenId amount
        userAddress
    else s
  let s := if newAmount = 0 then s.setLocks userAddress (swapPop locks i) else s
  return (s, { approval := some approval })

def transferToLock (userAddress : Address) (lockId amount nonce : U256) (signature : Bytes)
    (s : State) : Result P := do
  revertIf (amount = 0) .InvalidAmount
  let locks := s.activeLocks userAddress
  let i ← findLockIndex locks lockId
  let lock := locks[i]
  let (approval, v) ← verifyTransferToLockSignature P userAddress lockId amount nonce signature
    s.toVerifierState
  let s := { s with toVerifierState := v }
  revertIf (approval.signer ≠ lock.serviceId) .InvalidSignature
  revertIf (s.balances lock.serviceId lock.tokenId < amount) .InsufficientBalance
  let s ← s.subBalance lock.serviceId lock.tokenId amount
  let newAmount ← checkedAdd .panic lock.amount amount
  let s := s.setLocks userAddress (locks.set i { lock with amount := newAmount })
  let s := s.appendUserCounterpartyHistory m lock.serviceId .TransferToLockOut lock.tokenId amount
    userAddress
  let s := s.appendUserCounterpartyHistory m userAddress .TransferToLockIn lock.tokenId amount
    lock.serviceId
  return (s, { approval := some approval })

def withdrawFromLock (userAddress toAddress : Address) (lockId amount nonce : U256)
    (signature : Bytes) (s : State) : Result P := do
  revertIf (amount = 0) .InvalidAmount
  revertIf (toAddress = 0) .AddressMismatch
  let locks := s.activeLocks userAddress
  let i ← findLockIndex locks lockId
  let lock := locks[i]
  let (approval, v) ← verifyWithdrawFromLockSignature P lock.serviceId userAddress toAddress
    lockId amount nonce signature s.toVerifierState
  let s := { s with toVerifierState := v }
  revertIf (lock.amount < amount) .InsufficientLockedAmount
  let newAmount ← checkedSub .panic lock.amount amount
  let locks := locks.set i { lock with amount := newAmount }
  let s := s.setLocks userAddress (if newAmount = 0 then swapPop locks i else locks)
  let (s, event) ← scheduleWithdrawal m userAddress toAddress lock.tokenId amount s
  let s := s.appendUserCounterpartyHistory m userAddress .Withdraw lock.tokenId amount toAddress
  return (s, { events := [event], approval := some approval })

def transferBalance (toAddress : Address) (tokenId : Bytes32) (amount nonce : U256)
    (signature : Bytes) (s : State) : Result P := do
  revertIf (amount = 0) .InvalidAmount
  revertIf (toAddress = 0) .AddressMismatch
  let (approval, v) ← verifyTransferSignature P toAddress tokenId amount nonce signature
    s.toVerifierState
  let s := { s with toVerifierState := v }
  let userAddress := approval.signer
  revertIf (s.balances userAddress tokenId < amount) .InsufficientBalance
  let s ← s.subBalance userAddress tokenId amount
  let s ← s.addBalance toAddress tokenId amount
  let s := s.appendUserCounterpartyHistory m userAddress .TransferBalanceOut tokenId amount
    toAddress
  let s := if toAddress ≠ userAddress then
      s.appendUserCounterpartyHistory m toAddress .TransferBalanceIn tokenId amount userAddress
    else s
  return (s, { approval := some approval })

def requestWithdrawal (tokenId : Bytes32) (amount nonce : U256) (signature : Bytes)
    (s : State) : Result P := do
  revertIf (amount = 0) .InvalidAmount
  let (approval, v) ← verifyWithdrawSignature P tokenId amount nonce signature s.toVerifierState
  let s := { s with toVerifierState := v }
  let userAddress := approval.signer
  revertIf (s.balances userAddress tokenId < amount) .InsufficientBalance
  let s ← s.subBalance userAddress tokenId amount
  let (s, event) ← scheduleWithdrawal m userAddress userAddress tokenId amount s
  let s := s.appendUserCounterpartyHistory m userAddress .Withdraw tokenId amount userAddress
  return (s, { events := [event], approval := some approval })

/-- `abi.decode(data, (uint64))`. -/
def abiDecodeU64 (data : Bytes) : Except Error U64 := do
  revertIf (data.length < 32) .abiDecode
  let x := ofBytes (data.take 32)
  revertIf (2 ^ 64 ≤ x.toNat) .abiDecode
  return x.setWidth 64

def resolveWithdrawal (index : ℕ) (s : State) : Result P := do
  match s.withdrawals[index]? with
  | none => .error .panic
  | some withdrawalRequest =>
    let delay ← checkedSub .panic m.blockNumber withdrawalRequest.blockNumber
    revertIf (delay < 1) .WithdrawalTooSoon
    let userAddress := withdrawalRequest.userAddress
    let toAddress := withdrawalRequest.toAddress
    let tokenId := withdrawalRequest.tokenId
    let amount := withdrawalRequest.amount
    let tInfo := s.tokens tokenId
    let (chainId, signedTx) ← match tInfo.tokenType with
      | .NativeEVM => do
        let chainId ← decodeEVMNativeTokenData tInfo.data
        let nonce ← abiDecodeU64 withdrawalRequest.txIdentifier
        let signedTx ← generateNativeTransfer P s.toSignerState chainId toAddress amount nonce
        pure (chainId, signedTx)
      | .ERC20 => do
        let (chainId, tokenAddress) ← decodeEVMErc20TokenData tInfo.data
        let nonce ← abiDecodeU64 withdrawalRequest.txIdentifier
        let signedTx ← generateERC20Transfer P s.toSignerState chainId toAddress tokenAddress
          amount nonce
        pure (chainId, signedTx)
    if withdrawalRequest.resolved = false then
      let withdrawals := s.withdrawals.set index { withdrawalRequest with resolved := true }
      return ({ s with withdrawals },
        { events := [.WithdrawalResolved index userAddress tokenId toAddress amount chainId],
          signedTx := some signedTx })
    else return (s, { signedTx := some signedTx })

/-- `abi.encode(info.tokenType, info.data)`. -/
def encodeTokenInfo (info : TokenInfo) : Bytes :=
  abiEncode [info.tokenType.index, 0x40, BitVec.ofNat 256 info.data.length] ++ info.data ++
    List.replicate ((32 - info.data.length % 32) % 32) 0

def getTokenId (info : TokenInfo) : Bytes32 := P.keccak256 (encodeTokenInfo info)

def setTokenInfo (info : TokenInfo) (s : State) : Result P := do
  onlyROFL m
  let tokenId := getTokenId P info
  let found := s.registeredTokenIds.any (· = tokenId)
  let s := if found then s
    else { s with registeredTokenIds := s.registeredTokenIds ++ [tokenId] }
  let s := { s with tokens := Function.update s.tokens tokenId info }
  return (s, { events := [.TokenRegistered tokenId info.tokenType] })

end Functions

/-- The external functions that change the state or sign. -/
inductive Call where
  | setGasPrice (chainId gasPrice : U256)
  | setRoflSignerAddress (newSigner : Address)
  | generateSweepNativeTransfer (beneficiary : Address) (chainType : ChainType)
      (version chainId amount : U256) (sourceChainNonce : U64) (gasPrice : U256)
  | generateSweepERC20Transfer (beneficiary : Address) (chainType : ChainType)
      (version chainId : U256) (tokenAddress : Address) (amount : U256)
      (sourceChainNonce : U64) (gasPrice : U256)
  | generateGasFundingTx (toDepositAddress : Address) (chainId gasAmount : U256)
      (gasTankNonce : U64) (gasPrice : U256)
  | creditDeposit (beneficiary : Address) (tokenId : Bytes32) (amount : U256)
      (depositId : Bytes32)
  | requestEmergencyWithdraw (tokenId : Bytes32) (toAddress : Address) (version : U256)
  | executeEmergencyWithdraw (beneficiary : Address) (tokenId : Bytes32) (version : U256)
      (sourceChainNonce : U64) (amount gasPrice : U256)
  | createLock (serviceAddress : Address) (tokenId : Bytes32) (amount expiry nonce : U256)
      (signature : Bytes)
  | modifyLock (lockId amount newExpiry nonce : U256) (signature : Bytes)
  | unlockSingleLock (userAddress : Address) (lockId : U256)
  | unlockAllExpiredLocks (userAddress : Address)
  | transferFromLock (userAddress toAddress : Address) (lockId amount nonce : U256)
      (signature : Bytes)
  | transferToLock (userAddress : Address) (lockId amount nonce : U256) (signature : Bytes)
  | withdrawFromLock (userAddress toAddress : Address) (lockId amount nonce : U256)
      (signature : Bytes)
  | transferBalance (toAddress : Address) (tokenId : Bytes32) (amount nonce : U256)
      (signature : Bytes)
  | requestWithdrawal (tokenId : Bytes32) (amount nonce : U256) (signature : Bytes)
  | resolveWithdrawal (index : ℕ)
  | setTokenInfo (info : TokenInfo)

structure Tx where
  msg : Msg
  call : Call

/-- A signing view: the state stays, the signed transaction is returned. -/
def signingView {P : Platform} (x : Except Error (SignedTx P)) (s : State) : Result P := do
  let signedTx ← x
  return (s, { signedTx := some signedTx })

def execute (P : Platform) (m : Msg) (call : Call) (s : State) : Result P :=
  match call with
  | .setGasPrice chainId gasPrice => do
    let v ← setGasPrice m chainId gasPrice s.toSignerState
    return ({ s with toSignerState := v }, { events := [.GasPriceSet chainId gasPrice] })
  | .setRoflSignerAddress newSigner => do
    let v ← setRoflSignerAddress m newSigner s.toSignerState
    return ({ s with toSignerState := v }, { events := [.RoflSignerUpdated newSigner] })
  | .generateSweepNativeTransfer beneficiary chainType version chainId amount nonce gasPrice =>
    signingView (generateSweepNativeTransfer P m s.toSignerState beneficiary chainType version
      chainId amount nonce gasPrice) s
  | .generateSweepERC20Transfer beneficiary chainType version chainId tokenAddress amount nonce
      gasPrice =>
    signingView (generateSweepERC20Transfer P m s.toSignerState beneficiary chainType version
      chainId tokenAddress amount nonce gasPrice) s
  | .generateGasFundingTx toDepositAddress chainId gasAmount nonce gasPrice =>
    signingView (generateGasFundingTx P m s.toSignerState toDepositAddress chainId gasAmount
      nonce gasPrice) s
  | .creditDeposit beneficiary tokenId amount depositId =>
    creditDeposit P m beneficiary tokenId amount depositId s
  | .requestEmergencyWithdraw tokenId toAddress version =>
    requestEmergencyWithdraw P m tokenId toAddress version s
  | .executeEmergencyWithdraw beneficiary tokenId version nonce amount gasPrice =>
    executeEmergencyWithdraw P m beneficiary tokenId version nonce amount gasPrice s
  | .createLock serviceAddress tokenId amount expiry nonce signature =>
    createLock P m serviceAddress tokenId amount expiry nonce signature s
  | .modifyLock lockId amount newExpiry nonce signature =>
    modifyLock P m lockId amount newExpiry nonce signature s
  | .unlockSingleLock userAddress lockId => unlockSingleLock P m userAddress lockId s
  | .unlockAllExpiredLocks userAddress => unlockAllExpiredLocks P m userAddress s
  | .transferFromLock userAddress toAddress lockId amount nonce signature =>
    transferFromLock P m userAddress toAddress lockId amount nonce signature s
  | .transferToLock userAddress lockId amount nonce signature =>
    transferToLock P m userAddress lockId amount nonce signature s
  | .withdrawFromLock userAddress toAddress lockId amount nonce signature =>
    withdrawFromLock P m userAddress toAddress lockId amount nonce signature s
  | .transferBalance toAddress tokenId amount nonce signature =>
    transferBalance P m toAddress tokenId amount nonce signature s
  | .requestWithdrawal tokenId amount nonce signature =>
    requestWithdrawal P m tokenId amount nonce signature s
  | .resolveWithdrawal index => resolveWithdrawal P m index s
  | .setTokenInfo info => setTokenInfo P m info s

def accounting (P : Platform) : TransactionMachine State Tx (Output P) Error :=
  ⟨fun s tx => execute P tx.msg tx.call s⟩

/-- A successful external call. -/
abbrev Receipt (P : Platform) := TransactionMachine.Entry State Tx (Output P)

end Privana
