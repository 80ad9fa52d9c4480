import Privana.SweepService

/-! `SweepEngine`: the sweep of one deposit, its credit, and the recovery of the
records that an earlier attempt or process left. `sweep_native` and `sweep_erc20` are
one program up to the token. Log lines and sleeps are left out; a number bounds each
loop that runs on a clock. -/

namespace Privana
open BigEndian Coroutine SweepOp

def gasFundingHeadroom : ℕ := 2

/-- Polls of `_wait_for_receipt` before its deadline: one in two seconds for 120 seconds. -/
def receiptPolls : ℕ := 60

/-- The classes that `_wait_for_receipt` catches. -/
def SweepError.isTransient : SweepError → Bool
  | .rpcError transient _ => transient
  | .transactionNotFound => true
  | _ => false

section Engine
variable {P : Platform} (settings : SweepSettings)

def getSafeGasPrice (chainId : U256) : Sweep P ℕ := do
  let baseFee : ℕ ← await (latestBaseFee chainId)
  let rpcGasPrice : ℕ ← await (gasPrice chainId)
  if baseFee = 0 ∧ rpcGasPrice = 0 then raise (.noGasPriceSignal chainId)
  else match settings.chainConfigs chainId with
    | some config => return max (baseFee * 5 / 4) (max rpcGasPrice config.minSweepGasPriceWei)
    | none => raise (.unsupportedChain chainId)

/-- The request and its reply: the hash the node knows the transaction by. -/
def sendRawTransaction (b : Broadcast P) : Sweep P Bytes32 := do
  await (postRawTransaction b)
  await (broadcastReply b)

def pollReceipt (chainId : U256) (hash : Bytes32) : Sweep P (Option Bool) :=
  except (do
    let status : Bool ← await (transactionReceipt chainId hash)
    return some status) fun e => if e.isTransient then pure none else raise e

/-- At most `polls` more polls; the clock may run out earlier. -/
def waitForReceipt (chainId : U256) (hash : Bytes32) : ℕ → Sweep P Bool
  | 0 => raise (.receiptTimeout hash)
  | polls + 1 => do
    let late : Bool ← await deadlinePassed
    if late then raise (.receiptTimeout hash)
    else do
      let receipt ← pollReceipt chainId hash
      match receipt with
      | some status => return status
      | none => waitForReceipt chainId hash polls

/-- `DepositAlreadyProcessed` counts as success. -/
def idempotentCredit (record : SweepRecord) : Sweep P Unit := do
  await (submitCredit record)
  let reply : Option Error ← await (creditReply record)
  match reply with
  | none => return ()
  | some .DepositAlreadyProcessed => return ()
  | some e => raise (.transactionReverted e)

def sweepGasLimitWei : Option Address → ℕ
  | none => (sweepGasLimit .NativeEVM).toNat
  | some _ => (sweepGasLimit .ERC20).toNat

/-- Step 1: gas for the deposit address, under the gas-tank lock until it is mined. -/
def fundGas (record : SweepRecord) (gasPrice : ℕ) : Sweep P SweepRecord := do
  let l1DataFee : ℕ ← await (estimateL1DataFee record.chainId record.tokenAddress.isSome)
  match settings.chainConfigs record.chainId with
  | none => raise (.unsupportedChain record.chainId)
  | some config => do
    let gasAmount := min (sweepGasLimitWei record.tokenAddress * gasPrice * gasFundingHeadroom +
      l1DataFee) config.gasFundingAmountWei
    await acquireGasTankLock
    ensure (do
      let gasTank : Address ← await gasTankAddress
      let gasTankNonce : ℕ ← await (pendingTransactionCount record.chainId gasTank)
      let gasTx : SignedTx P ← await (SweepOp.generateGasFundingTx record.depositAddress record.chainId
        gasAmount gasTankNonce gasPrice)
      await (requireServed record.chainId)
      let gasTxHash ← sendRawTransaction ⟨.gasFunding, gasTx⟩
      await (rememberGasFunding gasTxHash)
      let record := { record with gasFundingTxHash := some gasTxHash, state := .GAS_FUNDED }
      await (saveRecord record)
      let status ← waitForReceipt record.chainId gasTxHash receiptPolls
      if status then return record else raise (.gasFundingReverted gasTxHash))
      (await releaseGasTankLock)

/-- Step 2: broadcast the sweep, and confirm it. -/
def broadcastSweep (record : SweepRecord) : Sweep P SweepRecord := do
  let gasPrice ← getSafeGasPrice settings record.chainId
  let nonce : ℕ ← await (transactionCount record.chainId record.depositAddress)
  let signedTx : SignedTx P ← await (generateSweep record.toSweepCall nonce gasPrice)
  await (requireServed record.chainId)
  let txHash ← sendRawTransaction ⟨.sweep record.toSweepCall, signedTx⟩
  let record := { record with sweepTxHash := some txHash }
  await (saveRecord record)
  let status ← waitForReceipt record.chainId txHash receiptPolls
  if status then do
    await (requireServed record.chainId)
    let record := { record with state := .SWEPT }
    await (saveRecord record)
    return record
  else raise (.sweepReverted txHash)

/-- What a sweep does once the deposit address is its own. -/
def sweepLocked (call : SweepCall) : Sweep P Unit := do
  await (requireServed call.chainId)
  let held : ℕ ← await (balance call.chainId call.tokenAddress call.depositAddress)
  if held = 0 then do
    let processed : Bool ← await (isDepositProcessed call.depositId)
    if processed then return ()
    else raise (.nothingToSweep call.tokenAddress call.depositAddress call.chainId)
  else if held < call.amount.toNat then
    raise (.balanceBelowAmount call.tokenAddress call.depositAddress call.chainId held call.amount)
  else do
    let gasPrice ← getSafeGasPrice settings call.chainId
    let record : SweepRecord := { call with }
    await (saveRecord record)
    let record ← fundGas settings record gasPrice
    let record ← broadcastSweep settings record
    except (idempotentCredit record) fun _ => raise (.sweepCreditPending record.depositId)
    await (deleteRecord record.depositId)

def sweep (call : SweepCall) : Sweep P Unit := do
  await (acquireAddressLock call.depositAddress call.chainId)
  ensure (sweepLocked settings call) (await (releaseAddressLock call.depositAddress call.chainId))

def sweepNative (call : SweepCall) : Sweep P Unit := sweep settings { call with tokenAddress := none }

def sweepErc20 (call : SweepCall) (tokenAddress : Address) : Sweep P Unit :=
  sweep settings { call with tokenAddress := some tokenAddress }

/-- A record whose sweep was mined is promoted; any failure leaves it untouched. -/
def reconcileSweepTx (record : SweepRecord) : Sweep P SweepRecord :=
  if record.state = .SWEPT then return record
  else match record.sweepTxHash with
    | none => return record
    | some hash => do
      let receipt ← except (do
        await (requireServed record.chainId)
        let status : Bool ← await (transactionReceipt record.chainId hash)
        await (requireServed record.chainId)
        return some status) fun _ => pure none
      match receipt with
      | some true => do
        let record := { record with state := .SWEPT }
        await (saveRecord record)
        return record
      | _ => return record

def persistResumeError (record : SweepRecord) (e : SweepError) : Sweep P Unit :=
  await (SweepOp.persistError record.depositId e)

def resumeSweepFromPending (record : SweepRecord) : Sweep P Unit :=
  match record.tokenAddress with
  | none => sweepNative settings record.toSweepCall
  | some tokenAddress => sweepErc20 settings record.toSweepCall tokenAddress

/-- The credit of a swept record, which is then done. -/
def creditSwept (record : SweepRecord) : Sweep P Unit := do
  idempotentCredit record
  await (deleteRecord record.depositId)

/-- A pending credit is left to the next pass, any other failure is recorded. -/
def onResumeError (record : SweepRecord) : SweepError → Sweep P Unit
  | .sweepCreditPending _ => return ()
  | e => persistResumeError record e

def resumeIncompleteSweeps : Sweep P Unit := do
  let records : List SweepRecord ← await SweepOp.loadIncompleteSweeps
  let records ← mapEach reconcileSweepTx records
  forEach (fun record => except
    (if record.state = .SWEPT then creditSwept record
    else if record.sweepTxHash = none then resumeSweepFromPending settings record
    else return ()) (onResumeError record)) records

/-- One pass of the recovery loop, on the records as they were loaded. -/
def recoveryPass : Sweep P Unit := do
  let records : List SweepRecord ← await SweepOp.loadIncompleteSweeps
  let records ← mapEach reconcileSweepTx records
  let resumable := records.filter fun r => r.state ≠ .SWEPT ∧ r.sweepTxHash = none
  let swept := records.filter fun r => r.state = .SWEPT
  forEach (fun record => except (resumeSweepFromPending settings record) (onResumeError record))
    resumable
  forEach (fun record => except (creditSwept record) fun _ => pure ()) swept

def runRecoveryLoop : ℕ → Sweep P Unit
  | 0 => return ()
  | passes + 1 => do
    let running : Bool ← await isRecoveryRunning
    if running then do
      -- the flag is read again after the sleep
      let running : Bool ← await isRecoveryRunning
      if running then do
        recoveryPass settings
        runRecoveryLoop passes
      else return ()
    else return ()

end Engine

end Privana
