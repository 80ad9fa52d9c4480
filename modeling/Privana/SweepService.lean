import Mathlib.Data.List.Sort
import Privana.LedgerConservation
import Privana.SourceLedger
import Privana.TaskPool

/-! The world of the sweep engine: the record files, the locks and sets of the
process, the raw transactions that left it, the source chains, and the Accounting
contract with the deposit credits submitted to it. A remote call that writes has two
halves, the request that leaves and the reply, and either may be lost; nodes may lag.
The record files and the chains survive a crash of the process. -/

namespace Privana
open BigEndian CheckedArithmetic

inductive SweepState where
  | PENDING
  | GAS_FUNDED
  | SWEPT
  deriving DecidableEq

/-- The exceptions of the deposit code, with what their texts are made of. -/
inductive SweepError where
  /-- A failed remote call; `transient` if receipt polling catches its class. -/
  | rpcError (transient : Bool) (text : String)
  | transactionNotFound
  | chainNotServed (chainId : U256)
  | unsupportedChain (chainId : U256)
  | noGasPriceSignal (chainId : U256)
  | nothingToSweep (token : Option Address) (depositAddress : Address) (chainId : U256)
  | balanceBelowAmount (token : Option Address) (depositAddress : Address) (chainId : U256)
      (balance : ℕ) (amount : U256)
  | gasFundingReverted (hash : Bytes32)
  | sweepReverted (hash : Bytes32)
  | receiptTimeout (hash : Bytes32)
  | contractLogicError
  | transactionReverted (error : Error)
  | sweepCreditPending (depositId : Bytes32)
  | gasFundingClaim (hash : Bytes32)
  | belowMinimum
  | tokenNotSupported
  deriving DecidableEq

/-- `str(exc)` is empty for some failed calls, and then counts as no error. -/
def SweepError.isBlank : SweepError → Bool
  | .rpcError _ text => text = ""
  | _ => false

/-- The parameters of `sweep_native` and `sweep_erc20`; a native sweep has no token. -/
structure SweepCall where
  depositAddress : Address
  beneficiary : Address
  chainType : ChainType
  version : U256
  chainId : U256
  tokenAddress : Option Address
  tokenId : Bytes32
  amount : U256
  depositId : Bytes32
  deriving DecidableEq

structure SweepRecord extends SweepCall where
  state : SweepState := .PENDING
  sweepTxHash : Option Bytes32 := none
  gasFundingTxHash : Option Bytes32 := none
  error : Option SweepError := none
  deriving DecidableEq

/-- `record.error` is truthy. -/
def SweepRecord.isErrored (r : SweepRecord) : Bool := r.error.any fun e => !e.isBlank

/-- A user's retry deletes the record and starts over. -/
def SweepRecord.isRetryable (r : SweepRecord) : Bool := r.isErrored && r.sweepTxHash.isNone

inductive Purpose where
  | gasFunding
  | sweep (call : SweepCall)
  deriving DecidableEq

/-- A raw transaction that left the process, with what it was for. -/
structure Broadcast (P : Platform) where
  purpose : Purpose
  tx : SignedTx P

structure VerifiedDeposit where
  amount : U256
  tokenAddress : Option Address
  depositIndex : U256

inductive SweepOp (P : Platform) where
  | acquireAddressLock (depositAddress : Address) (chainId : U256)
  | releaseAddressLock (depositAddress : Address) (chainId : U256)
  | acquireGasTankLock
  | releaseGasTankLock
  /-- `_get_web3` and `_recheck_served`: the chain's endpoint is verified now. -/
  | requireServed (chainId : U256)
  | balance (chainId : U256) (token : Option Address) (holder : Address)
  | latestBaseFee (chainId : U256)
  | gasPrice (chainId : U256)
  /-- `estimate_l1_data_fee`, which never raises. -/
  | estimateL1DataFee (chainId : U256) (isErc20 : Bool)
  | transactionCount (chainId : U256) (address : Address)
  | pendingTransactionCount (chainId : U256) (address : Address)
  | gasTankAddress
  | generateGasFundingTx (toDepositAddress : Address) (chainId : U256) (gasAmount gasTankNonce
      gasPrice : ℕ)
  /-- `generate_sweep_native` or `generate_sweep_erc20`. -/
  | generateSweep (call : SweepCall) (nonce gasPrice : ℕ)
  | postRawTransaction (b : Broadcast P)
  | broadcastReply (b : Broadcast P)
  | transactionReceipt (chainId : U256) (hash : Bytes32)
  | deadlinePassed
  | submitCredit (record : SweepRecord)
  | creditReply (record : SweepRecord)
  | isDepositProcessed (depositId : Bytes32)
  | saveRecord (record : SweepRecord)
  | deleteRecord (depositId : Bytes32)
  /-- The body of `persist_error` and of `_persist_resume_error`. -/
  | persistError (depositId : Bytes32) (error : SweepError)
  /-- `get_record_by_deposit_id`, and `cleanup_record` for a retryable record. -/
  | retryCleanup (depositId : Bytes32)
  | loadIncompleteSweeps
  | rememberGasFunding (hash : Bytes32)
  | isGasFunding (hash : Bytes32)
  | isRecoveryRunning
  | depositAddress (beneficiary : Address) (chainType : ChainType) (version : U256)
  | verifyDeposit (chainId : U256) (txHash : Bytes32) (depositAddress : Address)
      (expectedAmount : U256) (logIndex : ℕ)
  | tokenId (chainId : U256) (tokenAddress : Option Address)
  | isTokenRegistered (tokenId : Bytes32)

abbrev SweepOp.Reply {P : Platform} : SweepOp P → Type
  | balance .. | latestBaseFee _ | gasPrice _ | estimateL1DataFee .. | transactionCount ..
  | pendingTransactionCount .. => ℕ
  | gasTankAddress | depositAddress .. => Address
  | generateGasFundingTx .. | generateSweep .. => SignedTx P
  | broadcastReply _ | tokenId .. => Bytes32
  | transactionReceipt .. | deadlinePassed | isDepositProcessed _ | isGasFunding _
  | isRecoveryRunning | isTokenRegistered _ => Bool
  -- the error of a reverted credit
  | creditReply _ => Option Error
  | retryCleanup _ => Option SweepRecord
  | loadIncompleteSweeps => List SweepRecord
  | verifyDeposit .. => VerifiedDeposit
  | _ => Unit

abbrev Sweep (P : Platform) := Coroutine (SweepOp P) SweepOp.Reply SweepError

structure SweepWorld (P : Platform) where
  accounting : State
  /-- Earlier states of the contract, the latest first. -/
  pastAccounting : List State := []
  ledger : SourceLedger P
  pastLedgers : List (SourceLedger P) := []
  wire : List (Broadcast P) := []
  /-- What a node has accepted, of all that left the process. -/
  accepted : List (Broadcast P) := []
  submissions : List SweepRecord := []
  /-- The submissions that the contract executed without a revert. -/
  credits : List SweepRecord := []
  creditReplies : List (SweepRecord × Option Error) := []
  records : List SweepRecord := []
  addressLocks : Address → U256 → Option ℕ := fun _ _ => none
  gasTankLock : Option ℕ := none
  gasFundingTxHashes : List Bytes32 := []
  recoveryRunning : Bool := false

/-- How the world answers: a failure, or what a node or the memory says. -/
inductive SweepAnswer where
  | fail (transient : Bool) (text : String)
  | node (lag : ℕ)
  | number (n : ℕ)
  | verified (tokenAddress : Option Address) (depositIndex : U256)

structure ChainConfig where
  minDepositNativeWei : ℕ
  minDepositErc20Wei : ℕ
  gasFundingAmountWei : ℕ
  minSweepGasPriceWei : ℕ

structure SweepSettings where
  chainConfigs : U256 → Option ChainConfig
  /-- The address of the key that signs the confidential queries. -/
  querySigner : Address

/-- The token info of a chain's native token or of an ERC-20. -/
def tokenInfoAt (chainId : U256) : Option Address → TokenInfo
  | none => ⟨.NativeEVM, encodeEVMNativeTokenData chainId⟩
  | some tokenAddress => ⟨.ERC20, encodeEVMErc20TokenData chainId tokenAddress⟩

namespace SweepWorld

variable {P : Platform}

def record (w : SweepWorld P) (depositId : Bytes32) : Option SweepRecord :=
  w.records.find? fun r => r.depositId = depositId

def deleteRecord (w : SweepWorld P) (depositId : Bytes32) : SweepWorld P :=
  { w with records := w.records.filter fun r => r.depositId ≠ depositId }

def saveRecord (w : SweepWorld P) (r : SweepRecord) : SweepWorld P :=
  { w with records := r :: (w.deleteRecord r.depositId).records }

/-- Only a record without a broadcast sweep is marked as failed. -/
def persistError (w : SweepWorld P) (depositId : Bytes32) (error : SweepError) : SweepWorld P :=
  match w.record depositId with
  | some r => if r.sweepTxHash.isSome then w else w.saveRecord { r with error := some error }
  | none => w

def retryCleanup (w : SweepWorld P) (depositId : Bytes32) : SweepWorld P :=
  if (w.record depositId).any SweepRecord.isRetryable then w.deleteRecord depositId else w

/-- The records in the order of their file names. -/
def incompleteSweeps (w : SweepWorld P) : List SweepRecord :=
  w.records.insertionSort fun r r' => r.depositId ≤ r'.depositId

def loadIncompleteSweeps (w : SweepWorld P) : SweepWorld P :=
  { w with
    gasFundingTxHashes :=
      w.incompleteSweeps.filterMap SweepRecord.gasFundingTxHash ++ w.gasFundingTxHashes }

def setAddressLock (w : SweepWorld P) (depositAddress : Address) (chainId : U256)
    (task : Option ℕ) : SweepWorld P :=
  { w with
    addressLocks := fun a c =>
      if a = depositAddress ∧ c = chainId then task else w.addressLocks a c }

/-- A cancelled task gives back its locks. -/
def releaseLocks (w : SweepWorld P) (task : ℕ) : SweepWorld P :=
  { w with
    addressLocks := fun a c =>
      if w.addressLocks a c = some task then none else w.addressLocks a c
    gasTankLock := if w.gasTankLock = some task then none else w.gasTankLock }

/-- What survives a crash of the process. -/
def restarted (w : SweepWorld P) : SweepWorld P :=
  { accounting := w.accounting, pastAccounting := w.pastAccounting, ledger := w.ledger,
    pastLedgers := w.pastLedgers, wire := w.wire, accepted := w.accepted,
    submissions := w.submissions, credits := w.credits, records := w.records }

end SweepWorld

section Perform
variable (P : Platform) (settings : SweepSettings)

/-- A confidential view that signs; arguments outside their ABI types raise. -/
def signingQuery (encodable : Bool) (call : Call) (s : State) : Except SweepError (SignedTx P) :=
  if encodable then
    match execute P ⟨settings.querySigner, false, 0, 0⟩ call s with
    | .ok (_, { signedTx := some x, .. }) => .ok x
    | _ => .error .contractLogicError
  else .error (.rpcError false "argument out of range")

/-- The contract call behind `generate_sweep_native` and `generate_sweep_erc20`. -/
def SweepCall.query (call : SweepCall) (nonce gasPrice : ℕ) : Call :=
  let nonce := BitVec.ofNat 64 nonce
  let gasPrice := BitVec.ofNat 256 gasPrice
  match call.tokenAddress with
  | none => .generateSweepNativeTransfer call.beneficiary call.chainType call.version call.chainId
      call.amount nonce gasPrice
  | some tokenAddress => .generateSweepERC20Transfer call.beneficiary call.chainType call.version
      call.chainId tokenAddress call.amount nonce gasPrice

def accountingReads (s : State) : (op : SweepOp P) → Option (Except SweepError op.Reply)
  | .gasTankAddress => some (.ok s.gasTankAddress)
  | .isDepositProcessed depositId => some (.ok (s.processedDeposits depositId))
  | .depositAddress beneficiary chainType version =>
    some (.ok (deriveDepositKeypair P s.toSignerState beneficiary chainType version).1)
  | .tokenId chainId tokenAddress => some (.ok (getTokenId P (tokenInfoAt chainId tokenAddress)))
  | .isTokenRegistered tokenId => some (.ok (decide ((s.tokens tokenId).data ≠ [])))
  | .generateGasFundingTx toDepositAddress chainId gasAmount gasTankNonce gasPrice =>
    some (signingQuery P settings
      (gasAmount < 2 ^ 256 ∧ gasTankNonce < 2 ^ 64 ∧ gasPrice < 2 ^ 256)
      (.generateGasFundingTx toDepositAddress chainId (BitVec.ofNat 256 gasAmount)
        (BitVec.ofNat 64 gasTankNonce) (BitVec.ofNat 256 gasPrice)) s)
  | .generateSweep call nonce gasPrice =>
    some (signingQuery P settings (nonce < 2 ^ 64 ∧ gasPrice < 2 ^ 256)
      (call.query nonce gasPrice) s)
  | _ => none

def ledgerReads (l : SourceLedger P) : (op : SweepOp P) → Option (Except SweepError op.Reply)
  | .balance chainId token holder => some (.ok (l.balances chainId token holder))
  | .transactionCount chainId address => some (.ok (l.nonces chainId address))
  | .transactionReceipt chainId hash =>
    some <| match l.receipt chainId hash with
      | some m => .ok m.succeeded
      | none => .error .transactionNotFound
  | _ => none

/-- Answers that say nothing about what is stored anywhere. -/
def freeReplies : (op : SweepOp P) → SweepAnswer → Option (Except SweepError op.Reply)
  | .requireServed _, .number _ => some (.ok ())
  | .latestBaseFee _, .number n => some (.ok n)
  | .gasPrice _, .number n => some (.ok n)
  | .pendingTransactionCount .., .number n => some (.ok n)
  | .verifyDeposit _ _ _ expectedAmount _, .verified tokenAddress depositIndex =>
    some (.ok ⟨expectedAmount, tokenAddress, depositIndex⟩)
  | _, _ => none

/-- The requests that write, and the replies to them. -/
def remoteWrites (w : SweepWorld P) :
    (op : SweepOp P) → SweepAnswer → Option (Except SweepError op.Reply × SweepWorld P)
  | .postRawTransaction b, .number _ => some (.ok (), { w with wire := w.wire ++ [b] })
  | .broadcastReply b, .number _ =>
    if w.accepted.any fun a => a.purpose = b.purpose ∧ a.tx.hash = b.tx.hash then
      some (.ok b.tx.hash, w)
    else none
  | .submitCredit record, .number _ =>
    some (.ok (), { w with submissions := w.submissions ++ [record] })
  | .creditReply record, .number i =>
    match w.creditReplies[i]? with
    | some (r, reply) => if r = record then some (.ok reply, w) else none
    | none => none
  | _, _ => none

/-- The process's own memory and files. -/
def localAccess (task : ℕ) (w : SweepWorld P) (answer : SweepAnswer) :
    (op : SweepOp P) → Option (op.Reply × SweepWorld P)
  | .acquireAddressLock a c =>
    if w.addressLocks a c = none then some ((), w.setAddressLock a c (some task)) else none
  | .releaseAddressLock a c => some ((), w.setAddressLock a c none)
  | .acquireGasTankLock =>
    if w.gasTankLock = none then some ((), { w with gasTankLock := some task }) else none
  | .releaseGasTankLock => some ((), { w with gasTankLock := none })
  | .estimateL1DataFee .. =>
    match answer with
    | .number n => some (n, w)
    | _ => some (0, w)
  | .deadlinePassed =>
    match answer with
    | .number n => some (decide (n ≠ 0), w)
    | _ => none
  | .saveRecord r => some ((), w.saveRecord r)
  | .deleteRecord depositId => some ((), w.deleteRecord depositId)
  | .persistError depositId error => some ((), w.persistError depositId error)
  | .retryCleanup depositId => some (w.record depositId, w.retryCleanup depositId)
  | .loadIncompleteSweeps => some (w.incompleteSweeps, w.loadIncompleteSweeps)
  | .rememberGasFunding hash =>
    some ((), { w with gasFundingTxHashes := hash :: w.gasFundingTxHashes })
  | .isGasFunding hash => some (decide (hash ∈ w.gasFundingTxHashes), w)
  | .isRecoveryRunning => some (w.recoveryRunning, w)
  | _ => none

def SweepOp.isLocal {P : Platform} : SweepOp P → Bool
  | .acquireAddressLock .. | .releaseAddressLock .. | .acquireGasTankLock | .releaseGasTankLock
  | .estimateL1DataFee .. | .deadlinePassed | .saveRecord _ | .deleteRecord _ | .persistError ..
  | .retryCleanup _ | .loadIncompleteSweeps | .rememberGasFunding _ | .isGasFunding _
  | .isRecoveryRunning => true
  | _ => false

/-- A read of the contract or of a source chain, from a node `lag` states behind. -/
def nodeReads (lag : ℕ) (w : SweepWorld P) (op : SweepOp P) :
    Option (Except SweepError op.Reply) :=
  ((w.accounting :: w.pastAccounting)[lag]?.bind fun s => accountingReads P settings s op) <|>
    ((w.ledger :: w.pastLedgers)[lag]?.bind fun l => ledgerReads P l op)

def sweepPerform (task : ℕ) (op : SweepOp P) (answer : SweepAnswer) (w : SweepWorld P) :
    Option (Except SweepError op.Reply × SweepWorld P) :=
  if op.isLocal then (localAccess P task w answer op).map fun r => (.ok r.1, r.2)
  else match answer with
    | .fail transient text => some (.error (.rpcError transient text), w)
    | .node lag => (nodeReads P settings lag w op).map fun r => (r, w)
    | answer =>
      ((freeReplies P op answer).map fun r => (r, w)) <|> remoteWrites P w op answer

end Perform

/-- What happens outside the process. -/
inductive SweepMove where
  /-- A call of the contract that is not a deposit credit, which only the engine makes. -/
  | transact (tx : Tx)
  /-- The contract executes a submitted credit. -/
  | credit (submission : ℕ) (msg : Msg)
  /-- A node accepts a raw transaction that left the process. -/
  | accept (broadcast : ℕ)
  | mine (accepted : ℕ) (succeeded : Bool) (fee : ℕ)
  | receive (chainId : U256) (token : Option Address) (holder : Address) (amount : ℕ)
  | foreignSpend (chainId : U256) (token : Option Address) (holder : Address) (amount : ℕ)
  | stopRecovery

namespace SweepWorld

variable {P : Platform}

def setAccounting (w : SweepWorld P) (s : State) : SweepWorld P :=
  { w with accounting := s, pastAccounting := w.accounting :: w.pastAccounting }

def setLedger (w : SweepWorld P) (l : SourceLedger P) : SweepWorld P :=
  { w with ledger := l, pastLedgers := w.ledger :: w.pastLedgers }

/-- `creditDeposit` runs for a submission; its outcome is on its way back. -/
def credit (w : SweepWorld P) (record : SweepRecord) (msg : Msg) : SweepWorld P :=
  match execute P msg (.creditDeposit record.beneficiary record.tokenId record.amount
      record.depositId) w.accounting with
  | .ok (s, _) => { w.setAccounting s with
      credits := w.credits ++ [record]
      creditReplies := w.creditReplies ++ [(record, none)] }
  | .error e => { w with creditReplies := w.creditReplies ++ [(record, some e)] }

end SweepWorld

def sweepMove (P : Platform) (w : SweepWorld P) : SweepMove → Option (SweepWorld P)
  | .transact tx =>
    if tx.call.depositId? = none then
      match execute P tx.msg tx.call w.accounting with
      | .ok (s, _) => some (w.setAccounting s)
      | .error _ => none
    else none
  | .credit submission msg => w.submissions[submission]?.map fun record => w.credit record msg
  | .accept broadcast => w.wire[broadcast]?.map fun b => { w with accepted := w.accepted ++ [b] }
  | .mine accepted succeeded fee => do
    let b ← w.accepted[accepted]?
    let l ← w.ledger.mine b.tx succeeded fee
    some (w.setLedger l)
  | .receive chainId token holder amount =>
    some (w.setLedger (w.ledger.receive chainId token holder amount))
  | .foreignSpend chainId token holder amount =>
    (w.ledger.foreignSpend chainId token holder amount).map w.setLedger
  | .stopRecovery => some { w with recoveryRunning := false }

end Privana
