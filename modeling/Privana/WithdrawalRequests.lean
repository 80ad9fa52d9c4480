import Privana.LockStructure
import Privana.PendingWithdrawals
import Privana.Typestate

/-! Withdrawal requests of `AccountingContractService`. Every request is a task: it looks at the
wallet on the destination chain, submits its call, and searches the queue for the entry it made. The
nodes of the contract may lag, and what a cache gives was read from some node before. -/

namespace Privana
open BigEndian Coroutine

def withdrawalGasBufferPercent : ℕ := 20
def withdrawalIndexScanWindow : ℕ := 16

structure RequestSettings where
  minWithdrawalGasBalance : ℕ

/-- The contract's platform, and the library that recovers signers. -/
structure RequestPlatform where
  contract : Platform
  /-- The signer of typed data in the domain that the contract reports. -/
  recoverMessage : Message → Bytes → Option Address
  /-- The library recovers what the contract recovers. -/
  recovers : ∀ message signature signer,
    contract.recover (hashTypedDataV4 contract message) signature = some signer →
      recoverMessage message signature = some signer

inductive RequestError where
  | notPositive
  | invalidSignature
  | zeroAddress
  | lockNotFound
  | invalidChain
  | noRpcUrl
  | noGasPrice
  | insufficientBalance (balance required : ℕ)
  | remote
  | reverted
  deriving DecidableEq

inductive RequestOp where
  | recoverSigner (message : Message) (signature : Bytes)
  | userLocks (user : Address)
  | tokenContext (tokenId : Bytes32)
  /-- `chain_id in settings.chain_rpc_urls`. -/
  | hasRpcUrl (chainId : U256)
  | gasPrice (chainId : U256)
  | withdrawalGasLimit (isNative : Bool)
  /-- The startup-verified client of a destination chain. -/
  | chainWeb3 (chainId : U256)
  | depositAddress
  | nativeBalance (chainId : U256) (address : Address)
  /-- `submit_tx` of an encoded call. -/
  | submitTx (call : Call)
  | withdrawalCount
  | withdrawal (index : ℕ)

abbrev RequestOp.Reply : RequestOp → Type
  | recoverSigner .. | depositAddress => Address
  | userLocks _ => List FundLock
  | tokenContext _ => TokenContext
  | hasRpcUrl _ => Bool
  | gasPrice _ | withdrawalGasLimit _ | nativeBalance .. | withdrawalCount => ℕ
  | chainWeb3 _ | submitTx _ => Unit
  | withdrawal _ => WithdrawalRequest

/-- A submission, with the token context that its detail names. -/
structure WithdrawalSubmission where
  context : TokenContext
  index : Option ℕ
  deriving DecidableEq

abbrev RequestTask := Coroutine RequestOp RequestOp.Reply RequestError

section Programs

def requestOp (op : RequestOp) : RequestTask op.Reply := await op

def requireThat (condition : Prop) [Decidable condition] (e : RequestError) : RequestTask Unit :=
  if condition then pure () else raise e

/-- What the wallet needs for one withdrawal, its gas with a buffer and above a floor. -/
def requiredBalance (S : RequestSettings) (gasPrice gasLimit : ℕ) (isNative : Bool) (amount : ℕ) :
    ℕ :=
  max (gasPrice * gasLimit * (100 + withdrawalGasBufferPercent) / 100) S.minWithdrawalGasBalance +
    if isNative then amount else 0

def checkDestinationBalance (S : RequestSettings) (chainId : U256) (isNative : Bool)
    (amount : U256) : RequestTask Unit := do
  let gasPrice ← requestOp (.gasPrice chainId)
  requireThat (0 < gasPrice) .noGasPrice
  let gasLimit ← requestOp (.withdrawalGasLimit isNative)
  requestOp (.chainWeb3 chainId)
  let evmAddress ← requestOp .depositAddress
  let balance ← requestOp (.nativeBalance chainId evmAddress)
  let required := requiredBalance S gasPrice gasLimit isNative amount.toNat
  requireThat (required ≤ balance) (.insufficientBalance balance required)

/-- An entry of the user for the token and the amount. -/
def isRequestOf (user : Address) (tokenId : Bytes32) (amount : U256) (entry : WithdrawalRequest) :
    Bool :=
  entry.userAddress = user && entry.amount = amount && entry.tokenId = tokenId

/-- The indices from `floor` on, the last one first. -/
def scanWithdrawals (user : Address) (tokenId : Bytes32) (amount : U256) (floor : ℕ) :
    ℕ → RequestTask (Option ℕ)
  | 0 => pure none
  | left + 1 => do
    let result ← requestOp (.withdrawal (floor + left))
    if isRequestOf user tokenId amount result then pure (some (floor + left))
    else scanWithdrawals user tokenId amount floor left

def locateWithdrawalIndex (user : Address) (tokenId : Bytes32) (amount : U256) :
    RequestTask (Option ℕ) :=
  Coroutine.except
    (do
      let count ← requestOp .withdrawalCount
      let floor := count - withdrawalIndexScanWindow
      scanWithdrawals user tokenId amount floor (count - floor))
    fun _ => pure none

def requestWithdrawalTask (S : RequestSettings) (tokenId : Bytes32) (amount nonce : U256)
    (signature : Bytes) : RequestTask (Option WithdrawalSubmission) := do
  requireThat (0 < amount.toNat) .notPositive
  let user ← requestOp (.recoverSigner (.withdraw tokenId amount nonce) signature)
  let context ← requestOp (.tokenContext tokenId)
  requireThat (context.chainId ≠ 0) .invalidChain
  let supported ← requestOp (.hasRpcUrl context.chainId)
  requireThat (supported = true) .noRpcUrl
  checkDestinationBalance S context.chainId context.isNative amount
  requestOp (.submitTx (.requestWithdrawal tokenId amount nonce signature))
  let index ← locateWithdrawalIndex user tokenId amount
  return some ⟨context, index⟩

def withdrawFromLockTask (S : RequestSettings) (user toAddress : Address)
    (lockId amount nonce : U256) (signature : Bytes) :
    RequestTask (Option WithdrawalSubmission) := do
  requireThat (0 < lockId.toNat ∧ 0 < amount.toNat) .notPositive
  requireThat (toAddress ≠ 0) .zeroAddress
  let userLocks ← requestOp (.userLocks user)
  match userLocks.find? fun entry => entry.lockId = lockId with
  | none => raise .lockNotFound
  | some lock =>
    let context ← requestOp (.tokenContext lock.tokenId)
    let supported ← requestOp (.hasRpcUrl context.chainId)
    requireThat (supported = true) .noRpcUrl
    checkDestinationBalance S context.chainId context.isNative amount
    requestOp (.submitTx (.withdrawFromLock user toAddress lockId amount nonce signature))
    return some ⟨context, none⟩

end Programs

/-- A task of one process of the service: the processes are counted. -/
structure TaskId where
  process : ℕ
  task : ℕ
  deriving DecidableEq

/-- The wallet's balance on a chain as a task has read it, with what mined withdrawals had taken
from the wallet there before. -/
structure WalletReading where
  reader : TaskId
  chainId : U256
  address : Address
  balance : ℕ
  taken : ℕ
  deriving DecidableEq

/-- The contract and its wallet, with what the tasks of the processes have done. -/
structure RequestWorld (P : Platform) where
  accounting : State
  /-- Earlier states of the contract, the latest first. -/
  past : List State
  receipts : List (Receipt P)
  native : U256 × Address → ℕ
  /-- What mined withdrawals have taken from the wallet on a chain. -/
  taken : U256 → ℕ
  /-- The withdrawals whose transactions are mined. -/
  mined : List ℕ
  process : ℕ
  readings : List WalletReading
  /-- Tasks with the index of the entry that their own transaction has made. -/
  created : List (TaskId × ℕ)

/-- How the world answers. -/
inductive RequestAnswer where
  | fail
  | node (lag : ℕ)
  /-- The node that tells the number of withdrawals. -/
  | count (lag : ℕ)
  | direct
  /-- What the settings list now. -/
  | listed (supported : Bool)
  /-- The transaction is executed or reverts, and the reply comes or is lost. -/
  | executed (msg : Msg) (reply : Bool)

inductive RequestMove where
  /-- A transaction of anybody. -/
  | transact (tx : Tx)
  /-- The signed transaction of a withdrawal is mined. -/
  | mine (index spent : ℕ)
  /-- Somebody funds an account. -/
  | fund (chainId : U256) (address : Address) (amount : ℕ)

inductive RequestCall where
  | requestWithdrawal (tokenId : Bytes32) (amount nonce : U256) (signature : Bytes)
  | withdrawFromLock (user toAddress : Address) (lockId amount nonce : U256) (signature : Bytes)

section World
variable {P : Platform}

/-- The chain of a withdrawal, and what its transaction needs there: its gas limit at the published
price, and for a native token the amount. -/
def withdrawalCost (s : State) (entry : WithdrawalRequest) : Option (U256 × ℕ) := do
  let (chainId, token) ← tokenTarget (s.tokens entry.tokenId)
  let gasLimit := withdrawGasLimit (if token.isNone then .NativeEVM else .ERC20)
  return (chainId, (s.gasPrices chainId).toNat * gasLimit.toNat +
    if token.isNone then entry.amount.toNat else 0)

namespace RequestWorld

def states (w : RequestWorld P) : List State := w.accounting :: w.past

def node (w : RequestWorld P) (lag : ℕ) : Option State := w.states[lag]?

def transact (w : RequestWorld P) (tx : Tx) : Option (RequestWorld P) :=
  match execute P tx.msg tx.call w.accounting with
  | .error _ => none
  | .ok (s, o) => some { w with
      accounting := s
      past := w.accounting :: w.past
      receipts := w.receipts ++ [⟨w.accounting, tx, o, s⟩] }

def id (w : RequestWorld P) (task : ℕ) : TaskId := ⟨w.process, task⟩

/-- The last withdrawal is the task's own. -/
def create (w : RequestWorld P) (task : ℕ) : RequestWorld P :=
  { w with created := w.created ++ [(w.id task, w.accounting.withdrawals.length - 1)] }

def read (w : RequestWorld P) (task : ℕ) (chainId : U256) (address : Address) : RequestWorld P :=
  { w with readings := w.readings ++
      [⟨w.id task, chainId, address, w.native (chainId, address), w.taken chainId⟩] }

/-- The wallet pays for a resolved withdrawal, which needs its whole cost to be there. -/
def mine (w : RequestWorld P) (index spent : ℕ) : Option (RequestWorld P) := do
  let entry ← w.accounting.withdrawals[index]?
  let (chainId, cost) ← withdrawalCost w.accounting entry
  let wallet := (chainId, w.accounting.evmAddress)
  if entry.resolved ∧ index ∉ w.mined ∧ spent ≤ cost ∧ cost ≤ w.native wallet then
    some { w with
      native := Function.update w.native wallet (w.native wallet - spent)
      taken := Function.update w.taken chainId (w.taken chainId + spent)
      mined := index :: w.mined }
  else none

end RequestWorld

/-- What a node answers. -/
def requestReads (s : State) : (op : RequestOp) → Option (Except RequestError op.Reply)
  | .userLocks user => some (.ok (s.activeLocks user))
  | .tokenContext tokenId =>
    some <| match tokenContext (s.tokens tokenId) with
      | .ok context => .ok context
      | .error _ => .error .remote
  | .gasPrice chainId => some (.ok (s.gasPrices chainId).toNat)
  | .depositAddress => some (.ok s.evmAddress)
  | .withdrawal index =>
    some <| match s.withdrawals[index]? with
      | some entry => .ok entry
      | none => .error .remote
  | _ => none

/-- `submit_tx` raises what a revert or a lost reply makes it raise. -/
def submitTx (w : RequestWorld P) (i : ℕ) (tx : Tx) (reply : Bool) :
    Except RequestError Unit × RequestWorld P :=
  match w.transact tx with
  | some v => (if reply then .ok () else .error .remote, v.create i)
  | none => (.error .reverted, w)

def requestPerform (R : RequestPlatform) (i : ℕ) (op : RequestOp) (answer : RequestAnswer)
    (w : RequestWorld R.contract) :
    Option (Except RequestError op.Reply × RequestWorld R.contract) :=
  match answer, op with
  | .fail, _ => some (.error .remote, w)
  | .node lag, op => do
    let s ← w.node lag
    let r ← requestReads s op
    return (r, w)
  | .count lag, .withdrawalCount => (w.node lag).map fun s => (.ok s.withdrawals.length, w)
  | .direct, .recoverSigner message signature =>
    match R.recoverMessage message signature with
    | some signer => some (.ok signer, w)
    | none => some (.error .invalidSignature, w)
  | .listed supported, .hasRpcUrl _ => some (.ok supported, w)
  | .direct, .withdrawalGasLimit isNative =>
    some (.ok (withdrawGasLimit (if isNative then .NativeEVM else .ERC20)).toNat, w)
  | .direct, .chainWeb3 _ => some (.ok (), w)
  | .direct, .nativeBalance chainId address =>
    some (.ok (w.native (chainId, address)), w.read i chainId address)
  | .executed msg reply, .submitTx call => some (submitTx w i ⟨msg, call⟩ reply)
  | _, _ => none

def requestMove (e : RequestMove) (w : RequestWorld P) : Option (RequestWorld P) :=
  match e with
  | .transact tx => w.transact tx
  | .mine index spent => w.mine index spent
  | .fund chainId address amount =>
    some { w with
      native := Function.update w.native (chainId, address) (w.native (chainId, address) + amount) }

def requestBody (S : RequestSettings) : RequestCall → RequestTask (Option WithdrawalSubmission)
  | .requestWithdrawal tokenId amount nonce signature =>
    requestWithdrawalTask S tokenId amount nonce signature
  | .withdrawFromLock user toAddress lockId amount nonce signature =>
    withdrawFromLockTask S user toAddress lockId amount nonce signature

def requestSystem (R : RequestPlatform) (S : RequestSettings) :
    TaskSystem (RequestWorld R.contract) RequestOp RequestOp.Reply RequestError RequestAnswer
      RequestMove RequestCall (Option WithdrawalSubmission) where
  perform i op answer w := requestPerform R i op answer w
  move := requestMove
  body := requestBody S
  start _ w := some w
  leave _ w := w
  restart w := { w with process := w.process + 1 }

abbrev RequestPool (P : Platform) :=
  TaskPool (RequestWorld P) RequestOp RequestOp.Reply RequestError (Option WithdrawalSubmission)

abbrev RequestEvent := TaskEvent RequestAnswer RequestMove RequestCall

/-- A new contract and the first process of the service. -/
def requestStart (P : Platform) (evm gasTank : Address × Bytes32)
    (native : U256 × Address → ℕ) : RequestPool P :=
  ⟨⟨accountingInit evm gasTank, [], [], native, fun _ => 0, [], 0, [], []⟩, []⟩

/-- The state of the service after a run. -/
abbrev requestRun (R : RequestPlatform) (S : RequestSettings) (evm gasTank : Address × Bytes32)
    (native : U256 × Address → ℕ) (es : List RequestEvent) : RequestPool R.contract :=
  (requestSystem R S).machine.run (requestStart R.contract evm gasTank native) es

end World

end Privana
