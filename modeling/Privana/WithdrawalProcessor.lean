import Mathlib.Data.Finset.Option
import Mathlib.Order.Interval.Finset.Nat
import Privana.PendingWithdrawals

/-! `WithdrawalProcessor`: polling, resolving and broadcasting, with the catch-up
pass. Sleeps, log lines and the alarm counters that only choose log levels are
left out; a number bounds each loop that runs until something outside happens. -/

namespace Privana
open BigEndian Coroutine ServiceOp

structure ProcessorSettings where
  /-- The chains of `chain_rpc_urls`. -/
  chainIds : List U256
  withdrawalResolutionTimeout : ℕ

section Processor
variable {α : Type} (P : Platform) (settings : ProcessorSettings)

/-- `n` retries after a failure. -/
def retrying : ℕ → Service α → Service α
  | 0, call => call
  | n + 1, call => except call fun _ => retrying n call

def rateLimitedCall (call : Service α) : Service α := retrying 4 call

/-- `withdrawals(index).call()`. -/
def readWithdrawal (index : ℕ) : Service WithdrawalRequest := do
  let results : List WithdrawalRequest ← await (withdrawals [index])
  match results with
  | [result] => return result
  | _ => raise .batchLength

def getEvmAddress : Service Address := do
  let cached : Option Address ← await cachedEvmAddress
  match cached with
  | some address => return address
  | none => do
    let address : Address ← rateLimitedCall (await evmAddress)
    await (cacheEvmAddress address)
    return address

/-- The contract's next nonce and the chain's latest; `none` refuses the chain. -/
def chainNonceState (chainId : U256) : Service (Option (ℕ × ℕ)) := do
  let contractNextNonce : ℕ ← rateLimitedCall (await (nonces chainId))
  let address ← getEvmAddress
  await (destinationWeb3 chainId)
  let chainPendingNonce : ℕ ← rateLimitedCall (await (transactionCount chainId address true))
  let chainLatestNonce : ℕ ← rateLimitedCall (await (transactionCount chainId address false))
  if chainPendingNonce ≤ contractNextNonce then return some (contractNextNonce, chainLatestNonce)
  else return none

/-- The status of a receipt; `none` when it is absent or unreadable. -/
def fetchReceipt (chainId : U256) (hash : Bytes32) : Service (Option ℕ) := do
  await (destinationWeb3 chainId)
  let fetch : Service (Option ℕ) := except (do
    let status : ℕ ← await (transactionReceipt chainId hash)
    return some status) fun
      | .transactionNotFound => return none
      | e => raise e
  except (rateLimitedCall fetch) fun _ => return none

def expectedTxHash (signedTx : Bytes) : Bytes32 := P.keccak256 signedTx

/-- The first candidate that has a receipt decides: `some` of the answer. -/
def firstReceipt (chainId : U256) : List Bytes32 → Service (Option (Option Bytes32))
  | [] => return none
  | candidate :: candidates => do
    let status ← fetchReceipt chainId candidate
    match status with
    | none => firstReceipt chainId candidates
    | some status => return some (if status = 1 then some candidate else none)

def findBroadcastTx (chainId : U256) (index : ℕ) (signedTx : Bytes) :
    Service (Option Bytes32) := do
  let expectedHash := expectedTxHash P signedTx
  let remembered : Option Bytes32 ← await (lastBroadcastHash chainId index)
  let candidates := remembered.toList ++
    if remembered = some expectedHash then [] else [expectedHash]
  let decided ← firstReceipt chainId candidates
  match decided with
  | some answer => return answer
  | none => do
    await (destinationWeb3 chainId)
    -- a mempool entry proves nothing, it is only logged
    except (rateLimitedCall (except (await (transaction chainId expectedHash)) fun
      | .transactionNotFound => return ()
      | e => raise e)) fun _ => return ()
    return none

/-- One step of `_broadcast_missing_for_chain`: the nonce that it finds sent. -/
def broadcastMissingEntry (chainId : U256) (targetNonces : Finset ℕ) (index : ℕ) :
    Service (Option ℕ) := do
  let read ← except (some <$> rateLimitedCall (readWithdrawal index)) fun _ => return none
  match read with
  | none => return none
  | some result =>
    if !result.resolved || result.txIdentifier.length < 32 then return none
    else match abiDecodeU64 result.txIdentifier with
      | .error _ => raise .abiDecode
      | .ok nonce =>
        if nonce.toNat ∉ targetNonces then return none
        else do
          let withdrawalChainId ← except
            (TokenContext.chainId <$> getTokenContext result.tokenId) fun _ => return 0
          if withdrawalChainId ≠ chainId then return none
          else do
            await (broadcastingMissing chainId index nonce.toNat)
            let signedTx : Bytes ← rateLimitedCall (await (resolveWithdrawalCall index))
            let sent ← except (do
              let hash : Bytes32 ← rateLimitedCall (await (ServiceOp.sendRawTransaction chainId signedTx))
              await (rememberBroadcast chainId index hash)
              return true) fun _ => do
                let hash ← findBroadcastTx P chainId index signedTx
                return hash.isSome
            return if sent then some nonce.toNat else none

/-- The scan below an index, in reverse. -/
def broadcastMissing (chainId : U256) (targetNonces : Finset ℕ) : ℕ → Finset ℕ → Service Unit
  | 0, _ => return ()
  | index + 1, foundNonces =>
    if targetNonces.card ≤ foundNonces.card then return ()
    else do
      let found ← broadcastMissingEntry P chainId targetNonces index
      broadcastMissing chainId targetNonces index (foundNonces ∪ found.toFinset)

def broadcastMissingForChain (chainId : U256) (targetNonces : Finset ℕ) : Service Unit :=
  if targetNonces = ∅ then return ()
  else do
    let total : Option ℕ ←
      except (some <$> rateLimitedCall (await withdrawalCount)) fun _ => return none
    match total with
    | some total => broadcastMissing P chainId targetNonces total ∅
    | none => return ()

def catchUpMissingBroadcasts : List U256 → Service Unit
  | [] => return ()
  | chainId :: chainIds => do
    except (do
      let nonceState ← chainNonceState chainId
      match nonceState with
      | none => return ()
      | some (contractNextNonce, chainLatestNonce) =>
        if contractNextNonce = chainLatestNonce then return ()
        else broadcastMissingForChain P chainId (Finset.Ico chainLatestNonce contractNextNonce))
      fun _ => return ()
    catchUpMissingBroadcasts chainIds

/-- The chains of `by_chain` in the order they appear; `None` and `0` are skipped. -/
def chainsOf : List PendingWithdrawal → List U256 → List U256
  | [], seen => seen
  | w :: ws, seen =>
    match w.chainId with
    | some chainId => chainsOf ws (if chainId = 0 ∨ chainId ∈ seen then seen else seen ++ [chainId])
    | none => chainsOf ws seen

/-- `by_chain`, each chain's withdrawals sorted by index. -/
def groupByChain (chosen : List PendingWithdrawal) : List (U256 × List PendingWithdrawal) :=
  (chainsOf chosen []).map fun chainId =>
    (chainId, (chosen.filter fun w => w.chainId = some chainId).insertionSort
      fun v w => v.index ≤ w.index)

/-- The block delay and the high-water mark, which an entry without a chain passes. -/
def eligible (currentBlock : ℕ) (w : PendingWithdrawal) : Service Bool := do
  let mark : Option ℕ ← match w.chainId with
    | some chainId => await (highWaterMark chainId)
    | none => pure none
  return (w.blockNumber.toNat + 1 ≤ currentBlock) ∧ mark.all (· < w.index)

def eligibleOnly (currentBlock : ℕ) : List PendingWithdrawal → Service (List PendingWithdrawal)
  | [] => return []
  | w :: ws => do
    let keep ← eligible currentBlock w
    let rest ← eligibleOnly currentBlock ws
    return if keep then w :: rest else rest

def pendingByChain : Service (List (U256 × List PendingWithdrawal)) :=
  except (do
    let listing ← rateLimitedCall getAllPendingWithdrawals
    let chosen ← eligibleOnly listing.currentBlock listing.pending
    return groupByChain chosen) fun _ => return []

/-- Poll until the contract shows the withdrawal as resolved. -/
def awaitResolution (index : ℕ) : ℕ → Service Bool
  | 0 => return false
  | n + 1 => do
    let result ← rateLimitedCall (readWithdrawal index)
    if result.resolved then return true else awaitResolution index n

def resolveWithdrawalOnce (index : ℕ) : Service Bool := do
  let result ← rateLimitedCall (readWithdrawal index)
  if result.resolved then return true
  else do
    rateLimitedCall (await (submitResolveWithdrawal index))
    awaitResolution index settings.withdrawalResolutionTimeout

/-- Whether the signed payout is on its way: sent now, or already mined. -/
def broadcastPayout (chainId : U256) (index : ℕ) (signedTx : Bytes) : Service Bool := do
  let sent : Option Bytes32 ←
    except (some <$> rateLimitedCall (await (ServiceOp.sendRawTransaction chainId signedTx)))
      fun _ => return none
  match sent with
  | some hash => do
    await (rememberBroadcast chainId index hash)
    return true
  | none => do
    let proof ← findBroadcastTx P chainId index signedTx
    return proof.isSome

/-- `true` to go on with the chain, `false` to retry in the next poll. -/
def resolveAndBroadcast (w : PendingWithdrawal) : Service Bool :=
  match w.chainId with
  | none => return true
  | some chainId =>
    if chainId = 0 then return true
    else except (do
      let isResolved ← resolveWithdrawalOnce settings w.index
      if !isResolved then return false
      else do
        let signedTx : Bytes ← rateLimitedCall (await (resolveWithdrawalCall w.index))
        let paid ← broadcastPayout P chainId w.index signedTx
        if !paid then return false
        else do
          await (raiseHighWaterMark chainId w.index)
          return true) fun _ => return false

def processWithdrawals (chainId : U256) : List PendingWithdrawal → Service Unit
  | [] => return ()
  | w :: ws => do
    let running : Bool ← await isRunning
    if !running then return ()
    else do
      let done ← resolveAndBroadcast P settings w
      if done then processWithdrawals chainId ws
      else catchUpMissingBroadcasts P [chainId]

def processChain (chainId : U256) (ws : List PendingWithdrawal) : Service Unit := do
  let nonceState ← except (chainNonceState chainId) fun _ => return none
  match nonceState with
  | none => return ()
  | some _ => processWithdrawals P settings chainId ws

def processChains : List (U256 × List PendingWithdrawal) → Service Unit
  | [] => return ()
  | (chainId, ws) :: rest => do
    let running : Bool ← await isRunning
    if !running then return ()
    else do
      processChain P settings chainId ws
      processChains rest

def catchupInterval : ℕ := 10

def poll (pollCount : ℕ) : Service Unit := do
  if pollCount % catchupInterval = 0 then catchUpMissingBroadcasts P settings.chainIds
  let byChain ← pendingByChain
  processChains P settings byChain

/-- The loop of `_run_processor` for the polls that are still to come. -/
def runPolls : ℕ → ℕ → Service Unit
  | 0, _ => return ()
  | n + 1, pollCount => do
    let running : Bool ← await isRunning
    if !running then return ()
    else do
      except (poll P settings (pollCount + 1)) fun _ => return ()
      runPolls n (pollCount + 1)

def runProcessor (polls : ℕ) : Service Unit := do
  catchUpMissingBroadcasts P settings.chainIds
  runPolls P settings polls 0

end Processor

/-- The tasks of the process that touch the withdrawals: the processor, for some
number of polls, and requests for a user's pending withdrawals. -/
inductive ServiceTask where
  | processor (polls : ℕ)
  | pendingWithdrawals (user : Address)

def withdrawalSystem (P : Platform) (settings : ProcessorSettings) :
    TaskSystem ServiceWorld ServiceOp ServiceOp.Reply ServiceError Answer ServiceMove
      ServiceTask where
  perform := servicePerform P
  move e w := serviceMove P w e
  body
    | .processor polls => runProcessor P settings polls
    | .pendingWithdrawals user => do
      let _ ← getPendingWithdrawals user
      return ()
  start
    | .processor _, w => if w.isRunning then none else some { w with isRunning := true }
    | .pendingWithdrawals _, w => some w
  leave task w :=
    if w.withdrawalsLock = some task then { w with withdrawalsLock := none } else w
  restart := ServiceWorld.restarted

end Privana
