import Privana.SweepEngine

/-! `DepositProcessor`: a verified deposit claim starts a sweep in the background, which
records its failure. The tasks of the process are such claims, the resumption at
startup and the recovery loop. What `verify_deposit` accepts is left open. -/

namespace Privana
open BigEndian Coroutine SweepOp

/-- The arguments of `process_deposit`, for the user that the read token names. -/
structure DepositRequest where
  user : Address
  chainType : ChainType
  chainId : U256
  txHash : Bytes32
  amount : U256
  logIndex : ℕ
  version : U256

structure DepositResponse where
  credited : Bool
  depositId : Bytes32
  amount : U256
  tokenAddress : Option Address

def computeDepositId (P : Platform) (chainId : U256) (txHash tokenId : Bytes32)
    (depositIndex : U256) : Bytes32 :=
  P.keccak256 (abiEncode [chainId, txHash, tokenId, depositIndex])

def ChainConfig.minDepositWei (config : ChainConfig) : Option Address → ℕ
  | none => config.minDepositNativeWei
  | some _ => config.minDepositErc20Wei

section Processor
variable {P : Platform} (settings : SweepSettings)

/-- The response, and the sweep that goes on in the background. -/
def processDeposit (request : DepositRequest) :
    Sweep P (DepositResponse × Option SweepCall) :=
  match settings.chainConfigs request.chainId with
  | none => raise (.unsupportedChain request.chainId)
  | some config => do
    let funding : Bool ← await (isGasFunding request.txHash)
    if funding then raise (.gasFundingClaim request.txHash)
    else do
      let depositAddress : Address ←
        await (depositAddress request.user request.chainType request.version)
      let verified : VerifiedDeposit ← await (verifyDeposit request.chainId request.txHash
        depositAddress request.amount request.logIndex)
      if verified.amount.toNat < config.minDepositWei verified.tokenAddress then raise .belowMinimum
      else do
        let tokenId : Bytes32 ← await (tokenId request.chainId verified.tokenAddress)
        let registered : Bool ← await (isTokenRegistered tokenId)
        if !registered then raise .tokenNotSupported
        else do
          let depositId :=
            computeDepositId P request.chainId request.txHash tokenId verified.depositIndex
          let response (credited : Bool) : DepositResponse :=
            ⟨credited, depositId, verified.amount, verified.tokenAddress⟩
          let processed : Bool ← await (isDepositProcessed depositId)
          if processed then return (response true, none)
          else do
            let existing : Option SweepRecord ← await (retryCleanup depositId)
            -- a record in progress, or with a broadcast sweep, is left to run
            if existing.any fun r => !r.isRetryable then return (response false, none)
            else return (response false, some
              { depositAddress, beneficiary := request.user, chainType := request.chainType,
                version := request.version, chainId := request.chainId,
                tokenAddress := verified.tokenAddress, tokenId, amount := verified.amount,
                depositId })

def backgroundSweep (call : SweepCall) : Sweep P Unit :=
  except
    (match call.tokenAddress with
    | none => sweepNative settings call
    | some tokenAddress => sweepErc20 settings call tokenAddress)
    fun
    | .sweepCreditPending _ => return ()
    | e => await (SweepOp.persistError call.depositId e)

def depositTask (request : DepositRequest) : Sweep P Unit := do
  let (_, background) ← processDeposit settings request
  match background with
  | some call => backgroundSweep settings call
  | none => return ()

end Processor

inductive SweepTask where
  | deposit (request : DepositRequest)
  | resume
  /-- The recovery loop, for at most this many passes. -/
  | recovery (passes : ℕ)

def sweepSystem (P : Platform) (settings : SweepSettings) :
    TaskSystem (SweepWorld P) (SweepOp P) SweepOp.Reply SweepError SweepAnswer SweepMove
      SweepTask where
  perform := sweepPerform P settings
  move e w := sweepMove P w e
  body
    | .deposit request => depositTask settings request
    | .resume => resumeIncompleteSweeps settings
    | .recovery passes => runRecoveryLoop settings passes
  start
    | .recovery _, w => if w.recoveryRunning then none else some { w with recoveryRunning := true }
    | _, w => some w
  leave task w := w.releaseLocks task
  restart w := w.restarted

end Privana
