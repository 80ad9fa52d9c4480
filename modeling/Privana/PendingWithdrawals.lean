import Privana.WithdrawalService

/-! `AccountingContractService`: the index of unresolved withdrawals, the cached
token contexts, and the listing of all pending withdrawals with their chains. -/

namespace Privana
open BigEndian Coroutine ServiceOp

def withdrawalReadBatchSize : ℕ := 50

/-- The batches of `_read_withdrawals`; `n` bounds their number. -/
def readBatches : ℕ → List ℕ → Service (List WithdrawalRequest)
  | 0, _ => pure []
  | n + 1, indices =>
    if indices = [] then pure []
    else do
      let results : List WithdrawalRequest ← await (withdrawals (indices.take withdrawalReadBatchSize))
      let rest ← readBatches n (indices.drop withdrawalReadBatchSize)
      return results ++ rest

def readWithdrawals (indices : List ℕ) : Service (List WithdrawalRequest) := do
  let results ← readBatches indices.length indices
  if results.length ≠ indices.length then raise .batchLength
  return results

/-- The loop of `_refresh_withdrawal_index`; `n` bounds the number of batches. -/
def indexFrom (count : ℕ) : ℕ → ℕ → Service Unit
  | 0, _ => pure ()
  | n + 1, start =>
    if start < count then do
      let stop := min (start + withdrawalReadBatchSize) count
      let results ← readWithdrawals (List.range' start (stop - start))
      await (indexWithdrawals start results)
      indexFrom count n (start + withdrawalReadBatchSize)
    else pure ()

def refreshWithdrawalIndex : Service ℕ := do
  let count : ℕ ← await withdrawalCount
  let scanned : ℕ ← await withdrawalsScanned
  -- a smaller count means that the node lags behind one that was read earlier
  if count ≤ scanned then return count
  else do
    await acquireWithdrawalsLock
    ensure (do
      let firstNew : ℕ ← await withdrawalsScanned
      indexFrom count (count - firstNew) firstNew
      return count) (await releaseWithdrawalsLock)

/-- Entries found resolved leave the index, the others are returned. -/
def collectUnresolved (resolved : List ℕ) : List ℕ → Service (List (ℕ × WithdrawalRequest))
  | [] => pure []
  | index :: candidates =>
    if index ∈ resolved then do
      await (popUnresolved index)
      collectUnresolved resolved candidates
    else do
      let entry : Option WithdrawalRequest ← await (unresolvedEntry index)
      let pending ← collectUnresolved resolved candidates
      match entry with
      | some entry => return (index, entry) :: pending
      | none => return pending

/-- Entries at or past a lagging node's count are served as cached. -/
def unresolvedWithdrawalEntries (user : Option Address) :
    Service (List (ℕ × WithdrawalRequest)) := do
  let count ← refreshWithdrawalIndex
  let entries : List (ℕ × WithdrawalRequest) ← await unresolvedWithdrawals
  let chosen := entries.filter fun p => user.all (· = p.2.userAddress)
  let candidates := (chosen.map Prod.fst).insertionSort (· ≤ ·)
  let readable := candidates.filter (· < count)
  let results ← readWithdrawals readable
  let resolved := ((readable.zip results).filter fun p => p.2.resolved).map Prod.fst
  collectUnresolved resolved candidates

/-- What `_fetch_token_context` makes of a `tokens(tokenId)` result. -/
def tokenContext (info : TokenInfo) : Except ServiceError TokenContext :=
  let chainId := ofBytes (info.data.take 32)
  if chainId = 0 then .error .tokenNotRegistered
  else match info.tokenType with
    | .NativeEVM => .ok ⟨chainId, none⟩
    | .ERC20 =>
      let tokenAddress := (info.data.drop 32).take 20
      if tokenAddress.length ≠ 20 then .error .invalidTokenAddress
      else .ok ⟨chainId, some ((ofBytes tokenAddress).setWidth 160)⟩

def fetchTokenContext (tokenId : Bytes32) : Service TokenContext := do
  let info : TokenInfo ← await (tokens tokenId)
  match tokenContext info with
  | .ok context => return context
  | .error e => raise e

/-- Without the per-key lock of the cache, which only saves duplicate reads. -/
def getTokenContext (tokenId : Bytes32) : Service TokenContext := do
  let cached : Option TokenContext ← await (cachedTokenContext tokenId)
  match cached with
  | some context => return context
  | none => do
    let context ← fetchTokenContext tokenId
    await (cacheTokenContext tokenId context)
    return context

structure PendingWithdrawal where
  index : ℕ
  userAddress : Address
  toAddress : Address
  amount : U256
  tokenId : Bytes32
  blockNumber : U256
  canResolve : Bool
  chainId : Option U256

def PendingWithdrawal.ofEntry (currentBlock : ℕ) (p : ℕ × WithdrawalRequest)
    (chainId : Option U256) : PendingWithdrawal where
  index := p.1
  userAddress := p.2.userAddress
  toAddress := p.2.toAddress
  amount := p.2.amount
  tokenId := p.2.tokenId
  blockNumber := p.2.blockNumber
  canResolve := p.2.blockNumber.toNat + 1 ≤ currentBlock
  chainId

/-- The destination chain of an entry, `none` when its token context cannot be read. -/
def destinationChain (p : ℕ × WithdrawalRequest) : Service (Option U256) :=
  except (do
    let context ← getTokenContext p.2.tokenId
    return some context.chainId) fun _ => return none

/-- The loop over the entries, with what is in `pending` before it. -/
def withChains (currentBlock : ℕ) :
    List PendingWithdrawal → List (ℕ × WithdrawalRequest) → Service (List PendingWithdrawal)
  | pending, [] => return pending
  | pending, p :: entries => do
    let chainId ← destinationChain p
    await (appendPending (pending.map fun x => (x.index, x.chainId)) p.1 chainId)
    withChains currentBlock (pending ++ [.ofEntry currentBlock p chainId]) entries

structure PendingListing where
  pending : List PendingWithdrawal
  currentBlock : ℕ

def getPendingWithdrawals (user : Address) : Service (List (ℕ × WithdrawalRequest)) :=
  unresolvedWithdrawalEntries (some user)

def getAllPendingWithdrawals : Service PendingListing := do
  let currentBlock : ℕ ← await blockNumber
  let entries ← unresolvedWithdrawalEntries none
  let pending ← withChains currentBlock [] entries
  return ⟨pending, currentBlock⟩

end Privana
