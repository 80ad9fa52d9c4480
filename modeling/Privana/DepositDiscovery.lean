import Mathlib.Data.Prod.Lex
import Privana.DepositVerifier
import Privana.Descending

/-! `deposit_discovery.py`: a descending scan of a chain's transfer logs, each classified
against the sweep records and the contract. The cache of scans is left out. -/

namespace Privana
open BigEndian

structure DiscoveryLog extends LogEntry where
  transactionHash : Option HexField := none
  blockNumber : ℕ := 0
  deriving DecidableEq

structure LogQuery where
  fromBlock : ℤ
  toBlock : ℤ
  addresses : List Address
  topics : List (Option Text)

/-- One entry of `list_all_tokens`. -/
structure TokenListing where
  tokenId : Bytes32
  tokenType : ℕ
  chainId : Option U256 := none
  tokenAddress : Option Address := none

namespace DepositDiscovery
open DepositVerifier Descending

def maxPendingCandidates : ℕ := 20

def maxClassifiedCandidates : ℕ := 60

inductive DiscoveryError where
  | unsupportedChain (chainId : U256)
  | lookbackNotPositive
  | notConfigured (chainId : U256)
  | tokenNotRegistered (token : Text)
  | rpcFailed
  | registryFailed
  | recordUnreadable
  | processedCheckFailed
  | malformedLog (log : DiscoveryLog)
  | malformedHash (txHash : Text)
  | malformedToken (token : Text)
  deriving DecidableEq

inductive DepositStatus where
  | discovered
  | processing
  deriving DecidableEq

structure DiscoveredDeposit where
  chainId : U256
  txHash : Text
  logIndex : ℕ
  amount : ℤ
  tokenAddress : Address
  tokenId : Bytes32
  blockNumber : ℕ
  version : U256
  status : DepositStatus
  depositId : Option Bytes32
  depositId_processing : depositId.isSome ↔ status = .processing
  deriving DecidableEq

structure DiscoveryResult where
  pending : List DiscoveredDeposit
  scannedFromBlock : ℤ
  scannedToBlock : ℤ
  deriving DecidableEq

/-- What a source-chain client answers during one scan. -/
structure SourceNode where
  latest : Except DiscoveryError ℕ
  getLogs : LogQuery → Except DiscoveryError (List DiscoveryLog)

/-- The clients, the contract and the sweep records during one scan. -/
structure DiscoveryView where
  web3 : U256 → Option SourceNode
  tokens : Except DiscoveryError (List TokenListing)
  record : Bytes32 → Except DiscoveryError (Option SweepRecord)
  isProcessed : Bytes32 → Except DiscoveryError Bool

/-- `bytes.fromhex`: pairs of digits, with white space between them. -/
def bytesFromHex : Text → Option Bytes
  | [] => some []
  | c :: rest =>
    if c.isWhitespace then bytesFromHex rest
    else match rest with
      | [] => none
      | d :: rest => do
        let high ← hexValue c
        let low ← hexValue d
        let bs ← bytesFromHex rest
        return UInt8.ofNat (16 * high + low) :: bs

def removePrefix : Text → Text
  | '0' :: 'x' :: rest => rest
  | s => s

/-- `_address_topic`: the address, padded to the left to a word. -/
def addressTopic (address : Address) : Text :=
  let digits := removePrefix (addressText address)
  '0' :: 'x' :: (List.replicate (64 - digits.length) '0' ++ digits)

structure Candidate where
  txHash : Text
  logIndex : ℕ
  amount : ℤ
  tokenAddress : Text
  blockNumber : ℕ
  deriving DecidableEq

/-- The first word of bytes; text without digits is zero. -/
def transferAmount : HexField → Option ℤ
  | .bytes bs => some (decode (bs.take 32))
  | .str s => if s = [] ∨ s = text "0x" then some 0 else parseHex s

def decodeTransferLog (entry : DiscoveryLog) : Except DiscoveryError (Option Candidate) :=
  match transferAmount entry.data with
  | none => .error (.malformedLog entry)
  | some amount =>
    let txHash := (entry.transactionHash.map HexField.hexString).getD []
    let tokenAddress := entry.address.hexString
    if txHash = [] ∨ tokenAddress = [] then .ok none
    else .ok (some ⟨txHash, entry.logIndex, amount, tokenAddress, entry.blockNumber⟩)

def logOrder (entry : DiscoveryLog) : ℕ ×ₗ ℕ := toLex (entry.blockNumber, entry.logIndex)

def newestFirst (logs : List DiscoveryLog) : List DiscoveryLog := descending logOrder logs

/-- `_registered_erc20s`: the keys are the addresses in lower case. -/
def registeredErc20s (chainId : U256) (tokens : List TokenListing) : List (Address × Bytes32) :=
  tokens.filterMap fun t =>
    if t.chainId = some chainId ∧ t.tokenType = 1 then
      t.tokenAddress.map fun address => (address, t.tokenId)
    else none

/-- A later entry replaces an earlier one with its key. -/
def lookupToken (token : Text) (tokens : List (Address × Bytes32)) : Option (Address × Bytes32) :=
  tokens.reverse.find? fun t => addressText t.1 = token

def scannedTokens (tokenLower : Option Text) (tokens : List (Address × Bytes32)) :
    Except DiscoveryError (List (Address × Bytes32)) :=
  match tokenLower with
  | none => .ok tokens
  | some token =>
    match lookupToken token tokens with
    | none => .error (.tokenNotRegistered token)
    | some entry => .ok [entry]

/-- The deposit id of a candidate, from the bytes of its hash. -/
def candidateId (P : Platform) (chainId : U256) (txHash : Bytes) (tokenId : Bytes32)
    (logIndex : ℕ) : Bytes32 :=
  P.keccak256 (word chainId ++ txHash ++ word tokenId ++ word (BitVec.ofNat 256 logIndex))

structure ScanState where
  pending : List DiscoveredDeposit
  classified : ℕ
  boundReached : Bool
  scannedFrom : ℤ

/-- The condition under which the scan goes on to an older chunk. -/
def ScanState.running (st : ScanState) : Bool :=
  st.pending.length < maxPendingCandidates && !st.boundReached

section Scan
variable (P : Platform) (view : DiscoveryView) (chainId version : U256) (beneficiary : Address)

def discoveredStatus (depositId : Bytes32) : Except DiscoveryError (Option DepositStatus) := do
  let record ← view.record depositId
  let inFlight := record.any fun r => !r.isRetryable
  if record.any fun r => r.beneficiary ≠ beneficiary then return none
  else if inFlight then return some .processing
  else
    let processed ← view.isProcessed depositId
    return if processed then none else some .discovered

def Candidate.deposit (candidate : Candidate) (tokenAddress : Address) (tokenId depositId : Bytes32)
    (status : DepositStatus) : DiscoveredDeposit where
  chainId := chainId
  txHash := candidate.txHash
  logIndex := candidate.logIndex
  amount := candidate.amount
  tokenAddress := tokenAddress
  tokenId := tokenId
  blockNumber := candidate.blockNumber
  version := version
  status := status
  depositId := if status = .processing then some depositId else none
  depositId_processing := by split <;> simp [*]

def classify (tokens : List (Address × Bytes32)) (candidate : Candidate) :
    Except DiscoveryError (Option DiscoveredDeposit) :=
  match lookupToken (lower candidate.tokenAddress) tokens with
  | none => .ok none
  | some (_, tokenId) =>
    match bytesFromHex (removePrefix candidate.txHash) with
    | none => .error (.malformedHash candidate.txHash)
    | some txHash =>
      let depositId := candidateId P chainId txHash tokenId candidate.logIndex
      match discoveredStatus view beneficiary depositId with
      | .error e => .error e
      | .ok none => .ok none
      | .ok (some status) =>
        match P.toChecksumAddress candidate.tokenAddress with
        | none => .error (.malformedToken candidate.tokenAddress)
        | some tokenAddress =>
          .ok (some (candidate.deposit chainId version tokenAddress tokenId depositId status))

variable (cfg : ChainEntry) (tokens : List (Address × Bytes32))

/-- The logs of one chunk. -/
def scanEntries : List DiscoveryLog → ScanState → Except DiscoveryError ScanState
  | [], st => .ok st
  | entry :: entries, st =>
    match decodeTransferLog entry with
    | .error e => .error e
    | .ok none => scanEntries entries st
    | .ok (some candidate) =>
      if candidate.amount < cfg.minDepositErc20Wei then scanEntries entries st
      else if maxClassifiedCandidates ≤ st.classified then
        .ok { st with boundReached := true, scannedFrom := candidate.blockNumber + 1 }
      else
        match classify P view chainId version beneficiary tokens candidate with
        | .error e => .error e
        | .ok none => scanEntries entries { st with classified := st.classified + 1 }
        | .ok (some discovered) =>
          let pending := st.pending ++ [discovered]
          let st := { st with pending, classified := st.classified + 1 }
          if maxPendingCandidates ≤ pending.length then
            .ok { st with scannedFrom := candidate.blockNumber + 1 }
          else scanEntries entries st

variable (w3 : SourceNode) (depositAddress : Address) (fromBlock : ℤ)

def chunkQuery (chunkStart chunkEnd : ℤ) : LogQuery where
  fromBlock := chunkStart
  toBlock := chunkEnd
  addresses := tokens.map Prod.fst
  topics := [some transferEventTopic, none, some (addressTopic depositAddress)]

/-- The chunks from `chunkEnd` down; the first number bounds how many there are. -/
def scanChunks : ℕ → ℤ → ScanState → Except DiscoveryError ScanState
  | 0, _, st => .ok st
  | chunks + 1, chunkEnd, st =>
    if fromBlock ≤ chunkEnd ∧ st.running then
      let chunkStart := max (chunkEnd - cfg.discoveryScanChunkBlocks + 1) fromBlock
      match w3.getLogs (chunkQuery tokens depositAddress chunkStart chunkEnd) with
      | .error e => .error e
      | .ok logs =>
        match scanEntries P view chainId version beneficiary cfg tokens (newestFirst logs)
          { st with scannedFrom := chunkStart } with
        | .error e => .error e
        | .ok st => scanChunks chunks (chunkStart - 1) st
    else .ok st

/-- A chunk has at least one block, so the window has no more chunks than blocks. -/
def scanWindow (toBlock : ℤ) : Except DiscoveryError ScanState :=
  scanChunks P view chainId version beneficiary cfg tokens w3 depositAddress fromBlock
    (toBlock - fromBlock + 1).toNat toBlock
    { pending := [], classified := 0, boundReached := false, scannedFrom := toBlock }

end Scan

section Discover
variable (P : Platform) (configs : List ChainEntry) (view : DiscoveryView)
  (depositAddress beneficiary : Address) (chainId version : U256) (tokenLower : Option Text)

/-- What is scanned, and from which client. -/
def scanTokens : Except DiscoveryError (SourceNode × List (Address × Bytes32)) :=
  match view.web3 chainId with
  | none => .error (.notConfigured chainId)
  | some w3 => do
    let listed ← view.tokens
    let tokens ← scannedTokens tokenLower (registeredErc20s chainId listed)
    return (w3, tokens)

def windowStart (lookback toBlock : ℤ) : ℤ := max (toBlock - lookback + 1) 0

/-- `_scan` -/
def scan (lookback : ℤ) : Except DiscoveryError DiscoveryResult :=
  match chainEntry configs chainId with
  | none => .error (.unsupportedChain chainId)
  | some cfg => do
    let (w3, tokens) ← scanTokens view chainId tokenLower
    if tokens = [] then return ⟨[], 0, 0⟩
    else
      let latest ← w3.latest
      let toBlock : ℤ := latest - getFinalityDepth configs chainId
      if toBlock < 0 then return ⟨[], 0, 0⟩
      else
        let st ← scanWindow P view chainId version beneficiary cfg tokens w3 depositAddress
          (windowStart lookback toBlock) toBlock
        return ⟨st.pending, st.scannedFrom, toBlock⟩

/-- An explicit lookback is rounded up to whole chunks. -/
def scanLookback (cfg : ChainEntry) (lookbackBlocks : Option ℤ) : Option ℤ :=
  let lookback := min (lookbackBlocks.getD cfg.discoveryLookbackBlocks)
    (cfg.discoveryMaxLookbackBlocks : ℤ)
  if lookback < 1 then none
  else
    let chunk : ℤ := cfg.discoveryScanChunkBlocks
    match lookbackBlocks with
    | none => some lookback
    | some _ => some (min ((lookback + chunk - 1) / chunk * chunk) cfg.discoveryMaxLookbackBlocks)

def discoverPendingDeposits (tokenAddress : Option Text) (lookbackBlocks : Option ℤ) :
    Except DiscoveryError DiscoveryResult :=
  match chainEntry configs chainId with
  | none => .error (.unsupportedChain chainId)
  | some cfg =>
    match scanLookback cfg lookbackBlocks with
    | none => .error .lookbackNotPositive
    | some lookback =>
      let tokenLower := (tokenAddress.filter (· ≠ [])).map lower
      scan P configs view depositAddress beneficiary chainId version tokenLower lookback

end Discover
end DepositDiscovery
end Privana
