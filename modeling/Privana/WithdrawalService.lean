import Mathlib.Data.List.Sort
import Privana.Accounting
import Privana.TaskPool

/-! The world of the withdrawal processor: the Accounting contract behind nodes
that may lag, the memory of `AccountingContractService` and of
`WithdrawalProcessor`, and what each operation of their code does to it. Nodes of
the destination chains answer anything; every remote call may fail. -/

namespace Privana
open BigEndian CheckedArithmetic

inductive ServiceError where
  | rpcError
  | transactionNotFound
  | tokenNotRegistered
  | unsupportedTokenType
  | invalidTokenAddress
  | batchLength
  | abiDecode
  deriving DecidableEq

structure TokenContext where
  chainId : U256
  tokenAddress : Option Address
  deriving DecidableEq

def TokenContext.isNative (c : TokenContext) : Bool := c.tokenAddress.isNone

inductive ServiceOp where
  | blockNumber
  | withdrawalCount
  /-- One JSON-RPC batch of `withdrawals(i)` reads. -/
  | withdrawals (indices : List ℕ)
  | tokens (tokenId : Bytes32)
  | nonces (chainId : U256)
  | evmAddress
  /-- `resolveWithdrawal(index)` as a read: the signed transaction. -/
  | resolveWithdrawalCall (index : ℕ)
  | submitResolveWithdrawal (index : ℕ)
  /-- The startup-verified client of a destination chain. -/
  | destinationWeb3 (chainId : U256)
  | transactionCount (chainId : U256) (address : Address) (pending : Bool)
  | sendRawTransaction (chainId : U256) (raw : Bytes)
  | transactionReceipt (chainId : U256) (hash : Bytes32)
  | transaction (chainId : U256) (hash : Bytes32)
  | acquireWithdrawalsLock
  | releaseWithdrawalsLock
  | withdrawalsScanned
  /-- Keep the unresolved entries of a batch that starts at `start`. -/
  | indexWithdrawals (start : ℕ) (results : List WithdrawalRequest)
  | unresolvedWithdrawals
  | unresolvedEntry (index : ℕ)
  | popUnresolved (index : ℕ)
  | cachedTokenContext (tokenId : Bytes32)
  | cacheTokenContext (tokenId : Bytes32) (context : TokenContext)
  /-- `pending.append(…)` of a listing, with the indices and chains it has so far. -/
  | appendPending (pending : List (ℕ × Option U256)) (index : ℕ) (chainId : Option U256)
  | cachedEvmAddress
  | cacheEvmAddress (address : Address)
  | isRunning
  /-- The catch-up pass has found a nonce that it is to broadcast. -/
  | broadcastingMissing (chainId : U256) (index nonce : ℕ)
  | highWaterMark (chainId : U256)
  | raiseHighWaterMark (chainId : U256) (index : ℕ)
  | lastBroadcastHash (chainId : U256) (index : ℕ)
  | rememberBroadcast (chainId : U256) (index : ℕ) (hash : Bytes32)

abbrev ServiceOp.Reply : ServiceOp → Type
  | blockNumber | withdrawalCount | withdrawalsScanned => ℕ
  | withdrawals _ => List WithdrawalRequest
  | tokens _ => TokenInfo
  | nonces _ | transactionCount .. => ℕ
  | evmAddress => Address
  | resolveWithdrawalCall _ => Bytes
  | sendRawTransaction .. => Bytes32
  | transactionReceipt .. => ℕ
  | unresolvedWithdrawals => List (ℕ × WithdrawalRequest)
  | unresolvedEntry _ => Option WithdrawalRequest
  | cachedTokenContext _ => Option TokenContext
  | cachedEvmAddress => Option Address
  | isRunning => Bool
  | highWaterMark _ => Option ℕ
  | lastBroadcastHash .. => Option Bytes32
  | _ => Unit

abbrev Service := Coroutine ServiceOp ServiceOp.Reply ServiceError

structure ServiceWorld where
  accounting : State
  /-- Earlier states of the contract, the latest first. -/
  past : List State := []
  block : ℕ := 0
  withdrawalsLock : Option ℕ := none
  withdrawalsScanned : ℕ := 0
  unresolvedWithdrawals : List (ℕ × WithdrawalRequest) := []
  tokenContextCache : Bytes32 → Option TokenContext := fun _ => none
  evmAddress : Option Address := none
  isRunning : Bool := false
  chainHighWaterMark : U256 → Option ℕ := fun _ => none
  lastBroadcastHash : U256 → ℕ → Option Bytes32 := fun _ _ => none

namespace ServiceWorld

/-- The state a node serves that is `lag` transactions behind. -/
def node (w : ServiceWorld) (lag : ℕ) : Option State := (w.accounting :: w.past)[lag]?

/-- The unresolved entries among results read from index `start` on. -/
def unresolvedAmong (start : ℕ) (results : List WithdrawalRequest) :
    List (ℕ × WithdrawalRequest) :=
  ((results.zipIdx start).filter fun p => !p.1.resolved).map Prod.swap

def indexWithdrawals (w : ServiceWorld) (start : ℕ) (results : List WithdrawalRequest) :
    ServiceWorld :=
  let entries := unresolvedAmong start results
  let kept := w.unresolvedWithdrawals.filter fun p => p.1 ∉ entries.map Prod.fst
  { w with unresolvedWithdrawals := kept ++ entries, withdrawalsScanned := start + results.length }

def popUnresolved (w : ServiceWorld) (index : ℕ) : ServiceWorld :=
  { w with unresolvedWithdrawals := w.unresolvedWithdrawals.filter fun p => p.1 ≠ index }

def cacheTokenContext (w : ServiceWorld) (tokenId : Bytes32) (context : Option TokenContext) :
    ServiceWorld :=
  { w with tokenContextCache := Function.update w.tokenContextCache tokenId context }

def raiseHighWaterMark (w : ServiceWorld) (chainId : U256) (index : ℕ) : ServiceWorld :=
  let mark := ((w.chainHighWaterMark chainId).map (max index)).getD index
  { w with chainHighWaterMark := Function.update w.chainHighWaterMark chainId (some mark) }

def rememberBroadcast (w : ServiceWorld) (chainId : U256) (index : ℕ) (hash : Bytes32) :
    ServiceWorld :=
  let hashes := Function.update (w.lastBroadcastHash chainId) index (some hash)
  { w with lastBroadcastHash := Function.update w.lastBroadcastHash chainId hashes }

end ServiceWorld

/-- How the world answers: a failure, or what a node or the memory says. -/
inductive Answer where
  | fail
  | node (lag : ℕ)
  | number (n : ℕ)
  | hash (h : Bytes32)
  deriving DecidableEq

def contractReads (P : Platform) (block : ℕ) (s : State) :
    (op : ServiceOp) → Option (Except ServiceError op.Reply)
  | .withdrawalCount => some (.ok s.withdrawals.length)
  | .withdrawals indices =>
    some <| match indices.mapM fun i => s.withdrawals[i]? with
      | some results => .ok results
      | none => .error .rpcError
  | .tokens tokenId => some (.ok (s.tokens tokenId))
  | .nonces chainId => some (.ok (s.nonces chainId).toNat)
  | .evmAddress => some (.ok s.evmAddress)
  | .resolveWithdrawalCall index =>
    let msg : Msg := ⟨0, false, BitVec.ofNat 256 block, 0⟩
    some <| match execute P msg (.resolveWithdrawal index) s with
      | .ok (_, { signedTx := some x, .. }) => .ok x.raw
      | _ => .error .rpcError
  | _ => none

/-- Calls that leave the process and are not reads of the contract. -/
def remoteCalls : (op : ServiceOp) → Answer → Option (Except ServiceError op.Reply)
  | .blockNumber, .number n => some (.ok n)
  | .submitResolveWithdrawal _, .number _ => some (.ok ())
  | .destinationWeb3 _, .number _ => some (.ok ())
  | .transactionCount .., .number n => some (.ok n)
  | .sendRawTransaction .., .hash h => some (.ok h)
  | .transactionReceipt .., .number status => some (.ok status)
  | .transactionReceipt .., .hash _ => some (.error .transactionNotFound)
  | .transaction .., .number _ => some (.ok ())
  | .transaction .., .hash _ => some (.error .transactionNotFound)
  | _, _ => none

/-- The code's own memory. -/
def memoryAccess (task : ℕ) (w : ServiceWorld) : (op : ServiceOp) → Option (op.Reply × ServiceWorld)
  | .acquireWithdrawalsLock =>
    if w.withdrawalsLock = none then some ((), { w with withdrawalsLock := some task }) else none
  | .releaseWithdrawalsLock => some ((), { w with withdrawalsLock := none })
  | .withdrawalsScanned => some (w.withdrawalsScanned, w)
  | .indexWithdrawals start results => some ((), w.indexWithdrawals start results)
  | .unresolvedWithdrawals => some (w.unresolvedWithdrawals, w)
  | .unresolvedEntry index => some (w.unresolvedWithdrawals.lookup index, w)
  | .popUnresolved index => some ((), w.popUnresolved index)
  | .cachedTokenContext tokenId => some (w.tokenContextCache tokenId, w)
  | .cacheTokenContext tokenId context => some ((), w.cacheTokenContext tokenId (some context))
  | .appendPending .. => some ((), w)
  | .cachedEvmAddress => some (w.evmAddress, w)
  | .cacheEvmAddress address => some ((), { w with evmAddress := some address })
  | .isRunning => some (w.isRunning, w)
  | .broadcastingMissing .. => some ((), w)
  | .highWaterMark chainId => some (w.chainHighWaterMark chainId, w)
  | .raiseHighWaterMark chainId index => some ((), w.raiseHighWaterMark chainId index)
  | .lastBroadcastHash chainId index => some (w.lastBroadcastHash chainId index, w)
  | .rememberBroadcast chainId index hash => some ((), w.rememberBroadcast chainId index hash)
  | _ => none

/-- What an access to the memory can do: it reads, or it writes one of the fields. -/
inductive MemoryStep (task : ℕ) (w : ServiceWorld) : ServiceOp → ServiceWorld → Prop where
  | read (op : ServiceOp) : MemoryStep task w op w
  | acquireWithdrawalsLock (free : w.withdrawalsLock = none) :
    MemoryStep task w .acquireWithdrawalsLock { w with withdrawalsLock := some task }
  | releaseWithdrawalsLock :
    MemoryStep task w .releaseWithdrawalsLock { w with withdrawalsLock := none }
  | indexWithdrawals (start : ℕ) (results : List WithdrawalRequest) :
    MemoryStep task w (.indexWithdrawals start results) (w.indexWithdrawals start results)
  | popUnresolved (index : ℕ) : MemoryStep task w (.popUnresolved index) (w.popUnresolved index)
  | cacheTokenContext (tokenId : Bytes32) (context : TokenContext) :
    MemoryStep task w (.cacheTokenContext tokenId context)
      (w.cacheTokenContext tokenId (some context))
  | cacheEvmAddress (address : Address) :
    MemoryStep task w (.cacheEvmAddress address) { w with evmAddress := some address }
  | raiseHighWaterMark (chainId : U256) (index : ℕ) :
    MemoryStep task w (.raiseHighWaterMark chainId index) (w.raiseHighWaterMark chainId index)
  | rememberBroadcast (chainId : U256) (index : ℕ) (hash : Bytes32) :
    MemoryStep task w (.rememberBroadcast chainId index hash)
      (w.rememberBroadcast chainId index hash)

theorem memoryAccess_step {task : ℕ} {w v : ServiceWorld} {op : ServiceOp} {a : op.Reply}
    (h : memoryAccess task w op = some (a, v)) : MemoryStep task w op v := by
  cases op with
  | acquireWithdrawalsLock =>
    simp only [memoryAccess] at h
    split at h
    · next free =>
      obtain ⟨-, rfl⟩ := Prod.mk.inj (Option.some.inj h)
      exact .acquireWithdrawalsLock free
    · cases h
  | blockNumber | withdrawalCount | withdrawals | tokens | nonces | evmAddress
  | resolveWithdrawalCall | submitResolveWithdrawal | destinationWeb3 | transactionCount
  | sendRawTransaction | transactionReceipt | transaction => cases h
  | _ =>
    obtain ⟨-, rfl⟩ := Prod.mk.inj (Option.some.inj h)
    constructor

def ServiceOp.isMemory : ServiceOp → Bool
  | .blockNumber | .withdrawalCount | .withdrawals _ | .tokens _ | .nonces _ | .evmAddress
  | .resolveWithdrawalCall _ | .submitResolveWithdrawal _ | .destinationWeb3 _
  | .transactionCount .. | .sendRawTransaction .. | .transactionReceipt .. | .transaction .. =>
    false
  | _ => true

def servicePerform (P : Platform) (task : ℕ) (op : ServiceOp) (answer : Answer)
    (w : ServiceWorld) : Option (Except ServiceError op.Reply × ServiceWorld) :=
  if op.isMemory then (memoryAccess task w op).map fun r => (.ok r.1, r.2)
  else match answer with
    | .fail => some (.error .rpcError, w)
    | .node lag => do
      let s ← w.node lag
      let r ← contractReads P w.block s op
      some (r, w)
    | answer => (remoteCalls op answer).map fun r => (r, w)

/-- An operation accesses the memory, or leaves all as it is and gets a reply. -/
theorem servicePerform_cases {P : Platform} {task : ℕ} {op : ServiceOp} {answer : Answer}
    {w v : ServiceWorld} {r : Except ServiceError op.Reply}
    (h : servicePerform P task op answer w = some (r, v)) :
    (∃ a, memoryAccess task w op = some (a, v) ∧ r = .ok a) ∨
      v = w ∧ ∀ a, r = .ok a →
        (∃ lag s, w.node lag = some s ∧ contractReads P w.block s op = some (.ok a)) ∨
          ∃ answer, remoteCalls op answer = some (.ok a) := by
  unfold servicePerform at h
  split at h
  · obtain ⟨⟨a, u⟩, hm, he⟩ := Option.map_eq_some_iff.mp h
    obtain ⟨rfl, rfl⟩ := Prod.mk.inj he
    exact .inl ⟨a, hm, rfl⟩
  · split at h
    · obtain ⟨rfl, rfl⟩ := Prod.mk.inj (Option.some.inj h)
      exact .inr ⟨rfl, by rintro _ ⟨⟩⟩
    · next lag =>
      obtain ⟨s, hs, h⟩ := Option.bind_eq_some_iff.mp h
      obtain ⟨x, hx, h⟩ := Option.bind_eq_some_iff.mp h
      obtain ⟨rfl, rfl⟩ := Prod.mk.inj (Option.some.inj h)
      exact .inr ⟨rfl, by rintro a rfl; exact .inl ⟨lag, s, hs, hx⟩⟩
    · obtain ⟨x, hx, he⟩ := Option.map_eq_some_iff.mp h
      obtain ⟨rfl, rfl⟩ := Prod.mk.inj he
      exact .inr ⟨rfl, by rintro a rfl; exact .inr ⟨_, hx⟩⟩

/-- What happens to the contract and the process from outside. -/
inductive ServiceMove where
  | transact (tx : Tx)
  | expireTokenContext (tokenId : Bytes32)
  | stop

def serviceMove (P : Platform) (w : ServiceWorld) : ServiceMove → Option ServiceWorld
  | .transact tx =>
    if w.block ≤ tx.msg.blockNumber.toNat then
      match execute P tx.msg tx.call w.accounting with
      | .ok (s, _) => some { w with
          accounting := s
          past := w.accounting :: w.past
          block := tx.msg.blockNumber.toNat }
      | .error _ => none
    else none
  | .expireTokenContext tokenId => some (w.cacheTokenContext tokenId none)
  | .stop => some { w with isRunning := false }

/-- What happens, and what it changes. -/
inductive MoveStep (P : Platform) (w : ServiceWorld) : ServiceMove → ServiceWorld → Prop where
  | transact {tx : Tx} {s : State} {o : Output P} (block : w.block ≤ tx.msg.blockNumber.toNat)
      (executed : execute P tx.msg tx.call w.accounting = .ok (s, o)) :
    MoveStep P w (.transact tx) { w with
      accounting := s
      past := w.accounting :: w.past
      block := tx.msg.blockNumber.toNat }
  | expireTokenContext (tokenId : Bytes32) :
    MoveStep P w (.expireTokenContext tokenId) (w.cacheTokenContext tokenId none)
  | stop : MoveStep P w .stop { w with isRunning := false }

theorem serviceMove_step {P : Platform} {w v : ServiceWorld} {e : ServiceMove}
    (h : serviceMove P w e = some v) : MoveStep P w e v := by
  cases e with
  | transact tx =>
    simp only [serviceMove] at h
    split at h
    · next block =>
      split at h
      · next executed =>
        obtain rfl := Option.some.inj h
        exact .transact block executed
      · cases h
    · cases h
  | expireTokenContext tokenId =>
    obtain rfl := Option.some.inj h
    exact .expireTokenContext tokenId
  | stop =>
    obtain rfl := Option.some.inj h
    exact .stop

/-- The memory is lost, the contract is not. -/
def ServiceWorld.restarted (w : ServiceWorld) : ServiceWorld :=
  { accounting := w.accounting, past := w.past, block := w.block }

end Privana
