import Privana.Accounting

/-! What each successful call of the Accounting contract does, said once. A
constructor of `Step` holds the guards the call passed and the state it ends in;
lock arrays are given up to order, which is all that swap-and-pop keeps. -/

namespace Privana
open BigEndian CheckedArithmetic SwapPop

variable {P : Platform} {m : Msg}

namespace State

@[simps toVerifierState toSignerState balances tokens processedDeposits userInfo withdrawals
  nextLockId history]
def withVerifier (s : State) (v : VerifierState) : State := { s with toVerifierState := v }

@[simp] theorem activeLocks_withVerifier (s : State) (v : VerifierState) (u : Address) :
    (s.withVerifier v).activeLocks u = s.activeLocks u := rfl

end State

/-- The chain of a token, and its contract there if it is an ERC-20. -/
def tokenTarget (info : TokenInfo) : Option (U256 × Option Address) :=
  match info.tokenType with
  | .NativeEVM =>
    if info.data.length = 32 then some (ofBytes (info.data.take 32), none) else none
  | .ERC20 =>
    if info.data.length = 52 then
      some (ofBytes (info.data.take 32), some ((ofBytes ((info.data.drop 20).take 32)).setWidth 160))
    else none

theorem tokenTarget_eq_some {info : TokenInfo} {target : U256 × Option Address}
    (h : tokenTarget info = some target) :
    (info.tokenType = .NativeEVM ∧ info.data.length = 32 ∧
      target = (ofBytes (info.data.take 32), none)) ∨
    (info.tokenType = .ERC20 ∧ info.data.length = 52 ∧
      target = (ofBytes (info.data.take 32),
        some ((ofBytes ((info.data.drop 20).take 32)).setWidth 160))) := by
  unfold tokenTarget at h
  cases ht : info.tokenType <;> simp only [ht, Option.ite_none_right_eq_some] at h
  · exact .inl ⟨rfl, h.1, (Option.some.inj h.2).symm⟩
  · exact .inr ⟨rfl, h.1, (Option.some.inj h.2).symm⟩

/-- The transfer of `amount` of a token to `recipient`, as an unsigned transaction. -/
def transferTx (P : Platform) (gasLimit : TokenType → U64) (target : U256 × Option Address)
    (recipient : Address) (amount : U256) (nonce : U64) (gasPrice : U256) : EthTx :=
  match target.2 with
  | none =>
    { nonce, gasPrice, gasLimit := gasLimit .NativeEVM, toAddress := recipient, value := amount,
      data := [], chainId := target.1 }
  | some token =>
    { nonce, gasPrice, gasLimit := gasLimit .ERC20, toAddress := token, value := 0,
      data := encodeTransferCall P recipient amount, chainId := target.1 }

def withdrawGasLimit : TokenType → U64
  | .NativeEVM => gasLimitNativeWithdraw
  | .ERC20 => gasLimitERC20Withdraw

def sweepGasLimit : TokenType → U64
  | .NativeEVM => gasLimitNativeSweep
  | .ERC20 => gasLimitERC20Sweep

/-- The lock that is left of `l` with amount `n`: none when it is drained. -/
def remainder (l : FundLock) (n : U256) : List FundLock :=
  if n = 0 then [] else [{ l with amount := n }]

/-- `s'` is `s` with one withdrawal of chain `chainId` queued under its next nonce. -/
structure Schedules (m : Msg) (userAddress toAddress : Address) (tokenId : Bytes32)
    (amount chainId : U256) (s s' : State) : Prop where
  target : ∃ token, tokenTarget (s.tokens tokenId) = some (chainId, token)
  priced : s.gasPrices chainId ≠ 0
  queued : ∃ next : U64, next.toNat = (s.nonces chainId).toNat + 1 ∧
    s' = { s with
      nonces := Function.update s.nonces chainId next
      withdrawals := s.withdrawals ++ [⟨userAddress, toAddress, amount, m.blockNumber, tokenId,
        false, abiEncode [(s.nonces chainId).setWidth 256]⟩] }

theorem Schedules.history {s s' : State} {userAddress toAddress : Address} {tokenId : Bytes32}
    {amount chainId : U256} (h : Schedules m userAddress toAddress tokenId amount chainId s s') :
    s'.history = s.history := by
  obtain ⟨_, -, rfl⟩ := h.queued
  rfl

/-- One expired lock is given back to its owner. -/
structure Unlock (m : Msg) (u : Address) (l : FundLock) (s s' : State) : Prop where
  expired : l.expiry ≤ m.timestamp
  positive : l.amount ≠ 0
  moved : ∃ (b : U256) (locks : List FundLock),
    b.toNat = (s.balances u l.tokenId).toNat + l.amount.toNat ∧
    (s.activeLocks u).Perm (l :: locks) ∧
    s' = ((s.setBalance u l.tokenId b).appendUserCounterpartyHistory m u .UnlockLock l.tokenId
      l.amount l.serviceId).setLocks u locks

/-- The given locks are given back one after the other. -/
inductive Unlocks (m : Msg) (u : Address) : List FundLock → State → State → Prop
  | nil (s : State) : Unlocks m u [] s s
  | cons {l : FundLock} {ls : List FundLock} {s s' s'' : State} (first : Unlock m u l s s')
      (rest : Unlocks m u ls s' s'') : Unlocks m u (l :: ls) s s''

theorem Unlocks.frame {u : Address} {ls : List FundLock} {s s' : State}
    (h : Unlocks m u ls s s') :
    ∃ balances userInfo history, s' = { s with balances, userInfo, history } := by
  induction h with
  | nil => exact ⟨_, _, _, rfl⟩
  | cons first _ ih =>
    obtain ⟨_, _, _, _, rfl⟩ := first.moved
    obtain ⟨_, _, _, rfl⟩ := ih
    exact ⟨_, _, _, rfl⟩

inductive Step (P : Platform) (m : Msg) : Call → State → State → Output P → Prop
  | setGasPrice {s : State} {chainId gasPrice : U256} (rofl : m.roflOrigin = true)
      (positive : gasPrice ≠ 0) :
      Step P m (.setGasPrice chainId gasPrice) s
        { s with gasPrices := Function.update s.gasPrices chainId gasPrice }
        { events := [.GasPriceSet chainId gasPrice] }
  | setRoflSignerAddress {s : State} {newSigner : Address} (rofl : m.roflOrigin = true)
      (nonzero : newSigner ≠ 0) :
      Step P m (.setRoflSignerAddress newSigner) s { s with roflSignerAddress := newSigner }
        { events := [.RoflSignerUpdated newSigner] }
  | generateSweepNativeTransfer {s : State} {beneficiary : Address} {chainType : ChainType}
      {version chainId amount gasPrice : U256} {nonce : U64} {x : SignedTx P}
      (signer : m.sender = s.roflSignerAddress)
      (key : (x.account, x.secret) =
        deriveDepositKeypair P s.toSignerState beneficiary chainType version)
      (tx : x.tx = transferTx P sweepGasLimit (chainId, none) s.evmAddress amount nonce gasPrice) :
      Step P m (.generateSweepNativeTransfer beneficiary chainType version chainId amount nonce
        gasPrice) s s { signedTx := some x }
  | generateSweepERC20Transfer {s : State} {beneficiary tokenAddress : Address}
      {chainType : ChainType} {version chainId amount gasPrice : U256} {nonce : U64}
      {x : SignedTx P} (signer : m.sender = s.roflSignerAddress)
      (key : (x.account, x.secret) =
        deriveDepositKeypair P s.toSignerState beneficiary chainType version)
      (tx : x.tx = transferTx P sweepGasLimit (chainId, some tokenAddress) s.evmAddress amount
        nonce gasPrice) :
      Step P m (.generateSweepERC20Transfer beneficiary chainType version chainId tokenAddress
        amount nonce gasPrice) s s { signedTx := some x }
  | generateGasFundingTx {s : State} {toDepositAddress : Address}
      {chainId gasAmount gasPrice : U256} {nonce : U64} {x : SignedTx P}
      (signer : m.sender = s.roflSignerAddress) (account : x.account = s.gasTankAddress)
      (secret : x.secret = s.gasTankSecret)
      (tx : x.tx = transferTx P sweepGasLimit (chainId, none) toDepositAddress gasAmount nonce
        gasPrice) :
      Step P m (.generateGasFundingTx toDepositAddress chainId gasAmount nonce gasPrice) s s
        { signedTx := some x }
  | creditDeposit {s : State} {beneficiary : Address} {tokenId depositId : Bytes32}
      {amount b : U256} (rofl : m.roflOrigin = true) (nonzero : beneficiary ≠ 0)
      (fresh : s.processedDeposits depositId = false) (positive : amount ≠ 0)
      (registered : (s.tokens tokenId).data ≠ [])
      (balance : b.toNat = (s.balances beneficiary tokenId).toNat + amount.toNat) :
      Step P m (.creditDeposit beneficiary tokenId amount depositId) s
        ((State.setBalance
          { s with processedDeposits := Function.update s.processedDeposits depositId true }
          beneficiary tokenId b).appendHistory m beneficiary .Deposit
            (word tokenId ++ word amount ++ word depositId))
        { events := [.Deposit tokenId amount depositId] }
  | requestEmergencyWithdraw {s : State} {tokenId : Bytes32} {toAddress : Address}
      {version : U256} (nonzero : toAddress ≠ 0) (registered : (s.tokens tokenId).data ≠ []) :
      Step P m (.requestEmergencyWithdraw tokenId toAddress version) s
        { s with
          emergencyWithdrawRequests := Function.update s.emergencyWithdrawRequests
            (emergencyWithdrawKey P m.sender tokenId version) ⟨toAddress, m.blockNumber⟩ }
        { events := [.EmergencyWithdrawRequested (emergencyWithdrawKey P m.sender tokenId version)
            tokenId],
          requestId := some (emergencyWithdrawKey P m.sender tokenId version) }
  | executeEmergencyWithdraw {s : State} {beneficiary : Address} {tokenId : Bytes32}
      {version amount gasPrice : U256} {nonce : U64} {x : SignedTx P}
      {req : EmergencyWithdrawRequest} {target : U256 × Option Address}
      (slot : s.emergencyWithdrawRequests (emergencyWithdrawKey P beneficiary tokenId version) =
        req)
      (requested : req.blockNumber ≠ 0) (later : req.blockNumber.toNat < m.blockNumber.toNat)
      (token : tokenTarget (s.tokens tokenId) = some target)
      (key : (x.account, x.secret) =
        deriveDepositKeypair P s.toSignerState beneficiary .EVM version)
      (tx : x.tx = transferTx P withdrawGasLimit target req.toAddress amount nonce gasPrice) :
      Step P m (.executeEmergencyWithdraw beneficiary tokenId version nonce amount gasPrice) s s
        { events := [.EmergencyWithdrawExecuted
            (emergencyWithdrawKey P beneficiary tokenId version)],
          signedTx := some x }
  | createLock {s : State} {serviceAddress : Address} {tokenId : Bytes32}
      {amount expiry nonce b next : U256} {signature : Bytes} {a : Approval P}
      {v : VerifierState} (future : m.timestamp < expiry) (positive : amount ≠ 0)
      (message : a.message = .lock serviceAddress tokenId amount expiry nonce)
      (signed : a.signature = signature) (consumes : Consumes a s.toVerifierState v)
      (room : (s.activeLocks a.signer).length < 10)
      (balance : b.toNat + amount.toNat = (s.balances a.signer tokenId).toNat)
      (nextId : next.toNat = s.nextLockId.toNat + 1) :
      Step P m (.createLock serviceAddress tokenId amount expiry nonce signature) s
        ((State.setLocks { (s.withVerifier v).setBalance a.signer tokenId b with nextLockId := next }
          a.signer (s.activeLocks a.signer ++
            [⟨s.nextLockId, serviceAddress, tokenId, amount, expiry⟩])
          ).appendUserCounterpartyHistory m a.signer .CreateLock tokenId amount serviceAddress)
        { approval := some a }
  | modifyLock {s : State} {lockId amount newExpiry nonce b n : U256} {signature : Bytes}
      {a : Approval P} {v : VerifierState} {l : FundLock} {locks locks' : List FundLock}
      (message : a.message = .modifyLock lockId amount newExpiry nonce)
      (signed : a.signature = signature) (consumes : Consumes a s.toVerifierState v)
      (found : (s.activeLocks a.signer).Perm (l :: locks)) (id : l.lockId = lockId)
      (extends_ : l.expiry ≤ newExpiry) (changes : ¬ (amount = 0 ∧ newExpiry = l.expiry))
      (balance : b.toNat + amount.toNat = (s.balances a.signer l.tokenId).toNat)
      (added : n.toNat = l.amount.toNat + amount.toNat)
      (left : locks'.Perm ({ l with amount := n, expiry := newExpiry } :: locks)) :
      Step P m (.modifyLock lockId amount newExpiry nonce signature) s
        ((((s.withVerifier v).setBalance a.signer l.tokenId b).setLocks a.signer locks'
          ).appendUserCounterpartyHistory m a.signer .ModifyLock l.tokenId amount l.serviceId)
        { approval := some a }
  | unlockSingleLock {s s' : State} {userAddress : Address} {lockId : U256} {l : FundLock}
      (id : l.lockId = lockId) (unlock : Unlock m userAddress l s s') :
      Step P m (.unlockSingleLock userAddress lockId) s s' {}
  | dropEmptyLock {s : State} {userAddress : Address} {lockId : U256} {l : FundLock}
      {locks : List FundLock} (id : l.lockId = lockId) (empty : l.amount = 0)
      (found : (s.activeLocks userAddress).Perm (l :: locks)) :
      Step P m (.unlockSingleLock userAddress lockId) s (s.setLocks userAddress locks) {}
  | unlockAllExpiredLocks {s s' : State} {userAddress : Address} {ls : List FundLock}
      {count : U256} (unlocks : Unlocks m userAddress ls s s')
      (rest : ∀ l ∈ s'.activeLocks userAddress, ¬ (l.expiry ≤ m.timestamp ∧ 0 < l.amount))
      (counted : count.toNat = ls.length) :
      Step P m (.unlockAllExpiredLocks userAddress) s s' { unlockedCount := count }
  | transferFromLock {s : State} {userAddress toAddress : Address}
      {lockId amount nonce b n : U256} {signature : Bytes} {a : Approval P} {v : VerifierState}
      {l : FundLock} {locks locks' : List FundLock} (positive : amount ≠ 0)
      (nonzero : toAddress ≠ 0)
      (message : a.message =
        .transferLocked userAddress toAddress lockId amount nonce l.serviceId)
      (signed : a.signature = signature) (service : a.signer = l.serviceId)
      (consumes : Consumes a s.toVerifierState v)
      (found : (s.activeLocks userAddress).Perm (l :: locks)) (id : l.lockId = lockId)
      (taken : n.toNat + amount.toNat = l.amount.toNat)
      (balance : b.toNat = (s.balances toAddress l.tokenId).toNat + amount.toNat)
      (left : locks'.Perm (remainder l n ++ locks)) :
      Step P m (.transferFromLock userAddress toAddress lockId amount nonce signature) s
        (let t := ((((s.withVerifier v).setBalance toAddress l.tokenId b).setLocks userAddress
            locks').appendUserCounterpartyHistory m userAddress .TransferFromLockOut l.tokenId
            amount toAddress)
         if toAddress ≠ userAddress then
           t.appendUserCounterpartyHistory m toAddress .TransferFromLockIn l.tokenId amount
             userAddress
         else t)
        { approval := some a }
  | transferToLock {s : State} {userAddress : Address} {lockId amount nonce b n : U256}
      {signature : Bytes} {a : Approval P} {v : VerifierState} {l : FundLock}
      {locks locks' : List FundLock} (positive : amount ≠ 0)
      (message : a.message = .transferToLock userAddress lockId amount nonce)
      (signed : a.signature = signature) (service : a.signer = l.serviceId)
      (consumes : Consumes a s.toVerifierState v)
      (found : (s.activeLocks userAddress).Perm (l :: locks)) (id : l.lockId = lockId)
      (balance : b.toNat + amount.toNat = (s.balances l.serviceId l.tokenId).toNat)
      (added : n.toNat = l.amount.toNat + amount.toNat)
      (left : locks'.Perm ({ l with amount := n } :: locks)) :
      Step P m (.transferToLock userAddress lockId amount nonce signature) s
        (((((s.withVerifier v).setBalance l.serviceId l.tokenId b).setLocks userAddress locks'
          ).appendUserCounterpartyHistory m l.serviceId .TransferToLockOut l.tokenId amount
            userAddress).appendUserCounterpartyHistory m userAddress .TransferToLockIn l.tokenId
            amount l.serviceId)
        { approval := some a }
  | withdrawFromLock {s s' : State} {userAddress toAddress : Address}
      {lockId amount nonce n chainId : U256} {signature : Bytes} {a : Approval P}
      {v : VerifierState} {l : FundLock} {locks locks' : List FundLock} (positive : amount ≠ 0)
      (nonzero : toAddress ≠ 0)
      (message : a.message = .withdrawFromLock userAddress toAddress lockId amount nonce)
      (signed : a.signature = signature) (service : a.signer = l.serviceId)
      (consumes : Consumes a s.toVerifierState v)
      (found : (s.activeLocks userAddress).Perm (l :: locks)) (id : l.lockId = lockId)
      (taken : n.toNat + amount.toNat = l.amount.toNat)
      (left : locks'.Perm (remainder l n ++ locks))
      (schedules : Schedules m userAddress toAddress l.tokenId amount chainId
        ((s.withVerifier v).setLocks userAddress locks') s') :
      Step P m (.withdrawFromLock userAddress toAddress lockId amount nonce signature) s
        (s'.appendUserCounterpartyHistory m userAddress .Withdraw l.tokenId amount toAddress)
        { events := [.Withdrawal userAddress l.tokenId amount chainId], approval := some a }
  | transferBalance {s : State} {toAddress : Address} {tokenId : Bytes32}
      {amount nonce b b' : U256} {signature : Bytes} {a : Approval P} {v : VerifierState}
      (positive : amount ≠ 0) (nonzero : toAddress ≠ 0)
      (message : a.message = .transfer toAddress tokenId amount nonce)
      (signed : a.signature = signature) (consumes : Consumes a s.toVerifierState v)
      (debit : b.toNat + amount.toNat = (s.balances a.signer tokenId).toNat)
      (credit : b'.toNat =
        (((s.withVerifier v).setBalance a.signer tokenId b).balances toAddress tokenId).toNat +
          amount.toNat) :
      Step P m (.transferBalance toAddress tokenId amount nonce signature) s
        (let t := (((s.withVerifier v).setBalance a.signer tokenId b).setBalance toAddress tokenId
            b').appendUserCounterpartyHistory m a.signer .TransferBalanceOut tokenId amount
            toAddress
         if toAddress ≠ a.signer then
           t.appendUserCounterpartyHistory m toAddress .TransferBalanceIn tokenId amount a.signer
         else t)
        { approval := some a }
  | requestWithdrawal {s s' : State} {tokenId : Bytes32} {amount nonce b chainId : U256}
      {signature : Bytes} {a : Approval P} {v : VerifierState} (positive : amount ≠ 0)
      (message : a.message = .withdraw tokenId amount nonce) (signed : a.signature = signature)
      (consumes : Consumes a s.toVerifierState v)
      (debit : b.toNat + amount.toNat = (s.balances a.signer tokenId).toNat)
      (schedules : Schedules m a.signer a.signer tokenId amount chainId
        ((s.withVerifier v).setBalance a.signer tokenId b) s') :
      Step P m (.requestWithdrawal tokenId amount nonce signature) s
        (s'.appendUserCounterpartyHistory m a.signer .Withdraw tokenId amount a.signer)
        { events := [.Withdrawal a.signer tokenId amount chainId], approval := some a }
  | resolveWithdrawal {s : State} {index : ℕ} {w : WithdrawalRequest}
      {target : U256 × Option Address} {nonce : U64} {x : SignedTx P}
      (entry : s.withdrawals[index]? = some w)
      (later : w.blockNumber.toNat < m.blockNumber.toNat)
      (token : tokenTarget (s.tokens w.tokenId) = some target)
      (decoded : abiDecodeU64 w.txIdentifier = .ok nonce)
      (priced : s.gasPrices target.1 ≠ 0)
      (account : x.account = s.evmAddress) (secret : x.secret = s.secretKey)
      (tx : x.tx = transferTx P withdrawGasLimit target w.toAddress w.amount nonce
        (s.gasPrices target.1)) :
      Step P m (.resolveWithdrawal index) s
        { s with withdrawals := s.withdrawals.set index { w with resolved := true } }
        { events := if w.resolved then [] else
            [.WithdrawalResolved index w.userAddress w.tokenId w.toAddress w.amount target.1],
          signedTx := some x }
  | setTokenInfo {s : State} {info : TokenInfo} {ids : List Bytes32}
      (rofl : m.roflOrigin = true)
      (registered : ids = if getTokenId P info ∈ s.registeredTokenIds then s.registeredTokenIds
        else s.registeredTokenIds ++ [getTokenId P info]) :
      Step P m (.setTokenInfo info) s
        { s with registeredTokenIds := ids
                 tokens := Function.update s.tokens (getTokenId P info) info }
        { events := [.TokenRegistered (getTokenId P info) info.tokenType] }

end Privana
