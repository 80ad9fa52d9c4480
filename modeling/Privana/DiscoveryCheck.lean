import Privana.ClaimableDeposits
import Privana.DiscoveryCoverage
import Privana.SoloRun
import Privana.TokenRegistry

/-! Discovery and check agree. What a scan returns is a log of a final block, and a claim made for
it later selects the same log, computes the same deposit id and starts the sweep. -/

namespace Privana
open BigEndian Coroutine

theorem Coroutine.Succeeds.ask {σ Op : Type} {Reply : Op → Type} {ε α : Type}
    {perform : (op : Op) → σ → Option (Except ε (Reply op) × σ)} {w v : σ} {post : α → σ → Prop}
    {op : Op} {f : Reply op → Coroutine Op Reply ε α} {a : Reply op}
    (h : perform op w = some (.ok a, v)) (next : (f a).Succeeds perform v post) :
    (Coroutine.await op >>= f).Succeeds perform w post :=
  .bind (R := fun b u => b = a ∧ u = v) (.await h ⟨rfl, rfl⟩) fun _ _ ⟨hb, hu⟩ => hb ▸ hu ▸ next

namespace DepositDiscovery
open DepositVerifier

/-- A log where it was mined, in a transaction that succeeded. -/
structure MinedIn (blocks : List ChainBlock) (entry : DiscoveryLog) (b : ChainBlock)
    (tx : ChainTx) : Prop where
  block : b ∈ blocks
  mem : tx ∈ b.txs
  succeeded : tx.succeeded = true
  log : entry.toLogEntry ∈ tx.logs
  number : entry.blockNumber = b.number
  hash : ∃ field, entry.transactionHash = some field ∧ Denotes field (word tx.hash)

/-- The node lists what a query selects, from these blocks. -/
def ListsFrom (w3 : SourceNode) (blocks : List ChainBlock) : Prop :=
  ∀ q logs, w3.getLogs q = .ok logs → ∀ entry ∈ logs,
    q.selects entry = true ∧ ∃ b tx, MinedIn blocks entry b tx

section Scan

variable {P : Platform} {view : DiscoveryView} {chainId version : U256} {beneficiary : Address}
  {cfg : ChainEntry} {tokens : List (Address × Bytes32)} {Q : DiscoveredDeposit → Prop}
  {st st' : ScanState}

/-- What is so of every classified entry of a chunk is so of what the chunk adds. -/
theorem scanEntries_pending {entries : List DiscoveryLog}
    (found : ∀ entry ∈ entries, ∀ c d, decodeTransferLog entry = .ok (some c) →
      (cfg.minDepositErc20Wei : ℤ) ≤ c.amount →
      classify P view chainId version beneficiary tokens c = .ok (some d) → Q d)
    (before : ∀ d ∈ st.pending, Q d)
    (h : scanEntries P view chainId version beneficiary cfg tokens entries st = .ok st') :
    ∀ d ∈ st'.pending, Q d := by
  induction entries generalizing st with
  | nil =>
    cases h
    exact before
  | cons entry entries ih =>
    have rest := fun e he => found e (List.mem_cons_of_mem _ he)
    unfold scanEntries at h
    split at h
    · cases h
    · exact ih rest before h
    · next c decoded =>
      split at h
      · exact ih rest before h
      · next enough =>
        split at h
        · cases h
          exact before
        · split at h
          · cases h
          · have same : ∀ d ∈ ({ st with classified := st.classified + 1 } : ScanState).pending, Q d :=
              before
            exact ih rest same h
          · next d classified =>
            have after : ∀ d' ∈ st.pending ++ [d], Q d' := fun d' hd' => by
              rcases List.mem_append.mp hd' with old | new
              · exact before d' old
              · rw [List.mem_singleton.mp new]
                exact found entry List.mem_cons_self c d decoded (not_lt.mp enough) classified
            dsimp only at h
            split at h
            · cases h
              exact after
            · exact ih rest after h

/-- The same for all chunks of a window. -/
theorem scanChunks_pending {w3 : SourceNode} {depositAddress : Address} {fromBlock toBlock : ℤ}
    (found : ∀ chunkStart chunkEnd logs, chunkEnd ≤ toBlock →
      w3.getLogs (chunkQuery tokens depositAddress chunkStart chunkEnd) = .ok logs →
      ∀ entry ∈ logs, ∀ c d, decodeTransferLog entry = .ok (some c) →
      (cfg.minDepositErc20Wei : ℤ) ≤ c.amount →
      classify P view chainId version beneficiary tokens c = .ok (some d) → Q d)
    {chunks : ℕ} {chunkEnd : ℤ} (within : chunkEnd ≤ toBlock) (before : ∀ d ∈ st.pending, Q d)
    (h : scanChunks P view chainId version beneficiary cfg tokens w3 depositAddress fromBlock
      chunks chunkEnd st = .ok st') : ∀ d ∈ st'.pending, Q d := by
  induction chunks generalizing chunkEnd st with
  | zero =>
    cases h
    exact before
  | succ chunks ih =>
    unfold scanChunks at h
    split at h
    · next open_ =>
      dsimp only at h
      split at h
      · cases h
      · next logs answered =>
        split at h
        · cases h
        · next st₁ scanned =>
          refine ih ?_ (scanEntries_pending (fun entry mem => ?_) ?_ scanned) h
          · have chunk := cfg.chunk_pos
            omega
          · exact found _ _ logs within answered entry
              ((Descending.mem_descending logOrder).mp mem)
          · exact before
    · cases h
      exact before

theorem classify_eq_some {c : Candidate} {d : DiscoveredDeposit}
    (h : classify P view chainId version beneficiary tokens c = .ok (some d)) :
    ∃ token tokenId txHash tokenAddress status,
      lookupToken (lower c.tokenAddress) tokens = some (token, tokenId) ∧
      bytesFromHex (removePrefix c.txHash) = some txHash ∧
      P.toChecksumAddress c.tokenAddress = some tokenAddress ∧
      discoveredStatus view beneficiary (candidateId P chainId txHash tokenId c.logIndex) =
        .ok (some status) ∧
      d = c.deposit chainId version tokenAddress tokenId
        (candidateId P chainId txHash tokenId c.logIndex) status := by
  unfold classify at h
  split at h
  · cases h
  · next token tokenId known =>
    split at h
    · cases h
    · next txHash read =>
      dsimp only at h
      split at h
      · cases h
      · cases h
      · next status found =>
        split at h
        · cases h
        · next tokenAddress checksum =>
          cases h
          exact ⟨token, tokenId, txHash, tokenAddress, status, known, read, checksum, found, rfl⟩

end Scan

section Hashes

theorem bytesFromHex_lower (s : Text) : bytesFromHex (lower s) = bytesFromHex s := by
  fun_induction bytesFromHex s with
  | case1 => rfl
  | case2 c rest white ih =>
    rw [lower, List.map_cons, bytesFromHex.eq_def]
    dsimp only
    rw [if_pos (by rw [isWhitespace_toLower]; exact white)]
    exact ih
  | case3 c white =>
    rw [lower, List.map_cons, bytesFromHex.eq_def]
    dsimp only
    rw [if_neg (by rw [isWhitespace_toLower]; exact white)]
    rfl
  | case4 c white d rest ih =>
    rw [lower, List.map_cons, List.map_cons, bytesFromHex.eq_def]
    dsimp only
    rw [if_neg (by rw [isWhitespace_toLower]; exact white), hexValue_toLower, hexValue_toLower]
    rw [show bytesFromHex (rest.map Char.toLower) = bytesFromHex rest from ih]

theorem bytesFromHex_hexDigits (bs : Bytes) : bytesFromHex (hexDigits bs) = some bs := by
  induction bs with
  | nil => rfl
  | cons b bs ih =>
    obtain ⟨high, low⟩ := halves_lt b
    rw [hexDigits_cons, bytesFromHex, if_neg (by rw [not_isWhitespace_hexDigit high]; simp)]
    simp only [hexValue_hexDigit high, hexValue_hexDigit low, ih]
    have whole : 16 * (b.toNat / 16) + b.toNat % 16 = b.toNat := Nat.div_add_mod _ _
    simp only [Option.bind_eq_bind, Option.bind_some, Option.pure_def, whole, UInt8.ofNat_toNat]

/-- A hash that is read is the one that is written. -/
theorem bytesFromHex_of_denotes {field : HexField} {bs bs' : Bytes} (h : Denotes field bs)
    (read : bytesFromHex (removePrefix field.hexString) = some bs') : bs' = bs := by
  unfold Denotes at h
  generalize field.hexString = s at h read
  rcases s with _ | ⟨zero, _ | ⟨x, digits⟩⟩
  · cases h
  · cases (List.cons.inj h).2
  obtain ⟨hzero, prefixed⟩ := List.cons.inj h
  obtain ⟨hx, same⟩ := List.cons.inj prefixed
  obtain rfl : zero = '0' := (toLower_eq_iff (by decide) zero).mp hzero
  have value : bytesFromHex digits = some bs := by
    rw [← bytesFromHex_lower]
    exact (congrArg bytesFromHex same).trans (bytesFromHex_hexDigits bs)
  by_cases small : x = 'x'
  · subst small
    exact Option.some_inj.mp (read.symm.trans value)
  · have kept : removePrefix ('0' :: x :: digits) = '0' :: x :: digits := by
      unfold removePrefix
      split
      · next same => exact absurd (List.cons.inj (List.cons.inj same).2).1 small
      · rfl
    have none : hexValue x = none := by
      rw [← hexValue_toLower, hx]
      rfl
    rw [kept, bytesFromHex, if_neg (by decide)] at read
    simp only [none] at read
    cases h0 : hexValue '0' <;> rw [h0] at read <;> cases read

end Hashes

section Found

variable {P : Platform} {view : DiscoveryView} {chainId version : U256} {beneficiary : Address}
  {cfg : ChainEntry}

/-- What stands behind a discovered deposit: a log of a final block, of a registered token. -/
structure Found (P : Platform) (registry : State) (view : DiscoveryView)
    (blocks : List ChainBlock) (chainId version : U256) (beneficiary depositAddress : Address)
    (minDeposit : ℕ) (toBlock : ℤ) (d : DiscoveredDeposit) (b : ChainBlock) (tx : ChainTx)
    (log : LogEntry) : Prop where
  block : b ∈ blocks
  mem : tx ∈ b.txs
  succeeded : tx.succeeded = true
  logged : log ∈ tx.logs
  final : (b.number : ℤ) ≤ toBlock
  addressed : log.isTransferTo depositAddress = true
  index : d.logIndex = log.logIndex
  amount : transferAmount log.data = some d.amount
  enough : (minDeposit : ℤ) ≤ d.amount
  token : Denotes log.address (packedAddress d.tokenAddress)
  registered : d.tokenId ∈ registry.registeredTokenIds
  tokenId : d.tokenId = getTokenId P (tokenInfoAt chainId (some d.tokenAddress))
  txHash : bytesFromHex (removePrefix d.txHash) = some (word tx.hash)
  atChain : d.chainId = chainId
  atVersion : d.version = version
  status : discoveredStatus view beneficiary
    (computeDepositId P chainId tx.hash d.tokenId (BitVec.ofNat 256 d.logIndex)) =
      .ok (some d.status)
  depositId : d.status = .processing → d.depositId =
    some (computeDepositId P chainId tx.hash d.tokenId (BitVec.ofNat 256 d.logIndex))

theorem word_addressWord (a : Address) :
    word (addressWord a) = List.replicate 12 0 ++ packedAddress a := by
  have lt : a.toNat < 256 ^ 20 := a.isLt.trans_eq (by norm_num)
  have same : addressWord a = ofBytes (List.replicate 12 0 ++ packedAddress a) := by
    rw [ofBytes, decode_append, packedAddress, decode_encode_of_lt lt, addressWord]
    exact BitVec.eq_of_toNat_eq (by simp [decode])
  rw [same, word_ofBytes (by simp)]

theorem addressTopic_eq (a : Address) : addressTopic a = hexText (word (addressWord a)) := by
  have digits : removePrefix (addressText a) = hexDigits (packedAddress a) := by
    rw [addressText, hexText, removePrefix]
  have zeros : hexDigits (List.replicate 12 0) = List.replicate 24 '0' := by decide
  have append : hexDigits (List.replicate 12 0 ++ packedAddress a) =
      hexDigits (List.replicate 12 0) ++ hexDigits (packedAddress a) := List.flatMap_append
  unfold addressTopic
  simp only [digits, hexDigits_length, packedAddress_length, hexText, word_addressWord, append,
    zeros]

/-- A log that the query selects is a transfer to the address. -/
theorem isTransferTo_of_selects {tokens : List (Address × Bytes32)} {a : Address}
    {first last : ℤ} {entry : DiscoveryLog}
    (h : (chunkQuery tokens a first last).selects entry = true) :
    entry.toLogEntry.isTransferTo a = true ∧ (entry.blockNumber : ℤ) ≤ last := by
  simp only [LogQuery.selects, Bool.and_eq_true, decide_eq_true_eq] at h
  obtain ⟨⟨⟨-, within⟩, -⟩, topics⟩ := h
  refine ⟨?_, within⟩
  simp only [LogQuery.wantsTopics, chunkQuery, Bool.and_eq_true] at topics
  obtain ⟨long, same⟩ := topics
  rcases found : entry.topics with _ | ⟨topic0, _ | ⟨topic1, _ | ⟨topic2, more⟩⟩⟩ <;>
    rw [found] at long same
  · simp at long
  · simp at long
  · simp at long
  · simp only [List.zip_cons_cons, List.all_cons, Option.all_some, Option.all_none,
      Bool.and_eq_true, decide_eq_true_eq, true_and] at same
    obtain ⟨event, recipient, -⟩ := same
    have denotes : Denotes topic2 (word (addressWord a)) := by
      rw [Denotes, recipient, addressTopic_eq, lower_hexText]
    have part := addressPart_of_denotes denotes (by simp)
    rw [word_length, show 32 - 20 = 12 from rfl, drop_word_address] at part
    simp only [LogEntry.isTransferTo, found, Bool.and_eq_true, decide_eq_true_eq]
    exact ⟨event, part⟩

theorem mem_of_lookupToken {token : Text} {tokens : List (Address × Bytes32)}
    {entry : Address × Bytes32} (h : lookupToken token tokens = some entry) :
    entry ∈ tokens ∧ addressText entry.1 = token :=
  ⟨List.mem_reverse.mp (List.mem_of_find?_eq_some h), by simpa using List.find?_some h⟩

theorem mem_registeredErc20s {listed : List TokenListing} {entry : Address × Bytes32}
    (h : entry ∈ registeredErc20s chainId listed) : ∃ t ∈ listed, t.tokenType = 1 ∧
      t.chainId = some chainId ∧ t.tokenAddress = some entry.1 ∧ t.tokenId = entry.2 := by
  obtain ⟨t, mem, found⟩ := List.mem_filterMap.mp h
  obtain ⟨⟨chain, erc20⟩, address⟩ := Option.ite_none_right_eq_some.mp found
  obtain ⟨a, own, rfl⟩ := Option.map_eq_some_iff.mp address
  exact ⟨t, mem, erc20, chain, own, rfl⟩

theorem scannedTokens_subset {tokenLower : Option Text} {all chosen : List (Address × Bytes32)}
    (h : scannedTokens tokenLower all = .ok chosen) : chosen ⊆ all := by
  unfold scannedTokens at h
  split at h
  · cases h
    exact List.Subset.refl _
  · split at h
    · cases h
    · next entry found =>
      cases h
      exact List.cons_subset.mpr ⟨(mem_of_lookupToken found).1, List.nil_subset _⟩

theorem candidateId_eq (P : Platform) (chainId : U256) (txHash tokenId : Bytes32) (index : ℕ) :
    candidateId P chainId (word txHash) tokenId index =
      computeDepositId P chainId txHash tokenId (BitVec.ofNat 256 index) := by
  simp [candidateId, computeDepositId, abiEncode]

/-- The two readings of an amount agree, unless it is zero. -/
theorem amount_of_transferAmount {field : HexField} {n : ℤ} (h : transferAmount field = some n)
    (positive : 0 < n) : field.amount = some n := by
  cases field with
  | bytes bs => exact h
  | str s =>
    rw [transferAmount] at h
    split at h
    · next zero =>
      obtain rfl := Option.some_inj.mp h
      exact absurd positive (lt_irrefl _)
    · next digits =>
      cases s with
      | nil => exact absurd (.inl rfl) digits
      | cons c s => exact h

theorem decodeTransferLog_candidate {entry : DiscoveryLog} {c : Candidate}
    (h : decodeTransferLog entry = .ok (some c)) : transferAmount entry.data = some c.amount ∧
      c.txHash = (entry.transactionHash.map HexField.hexString).getD [] := by
  unfold decodeTransferLog at h
  split at h
  · cases h
  · next amount read =>
    dsimp only at h
    split at h
    · cases h
    · cases h
      exact ⟨read, rfl⟩

section Registry

variable {registry : State} {blocks : List ChainBlock} {depositAddress : Address}
  {listed : List TokenListing} {tokens : List (Address × Bytes32)} {first last : ℤ}
  {entry : DiscoveryLog} {c : Candidate} {d : DiscoveredDeposit}

/-- What is classified stands in a block, and is of a registered token. -/
theorem found_of_classify {readable : Bytes32 → Bool} (sound : RegistrySound P registry)
    (subset : tokens ⊆ registeredErc20s chainId (fetchAllTokens readable registry))
    (selected : (chunkQuery tokens depositAddress first last).selects entry = true)
    {b : ChainBlock} {tx : ChainTx} (mined : MinedIn blocks entry b tx)
    (decoded : decodeTransferLog entry = .ok (some c))
    (enough : (cfg.minDepositErc20Wei : ℤ) ≤ c.amount)
    (classified : classify P view chainId version beneficiary tokens c = .ok (some d)) :
    Found P registry view blocks chainId version beneficiary depositAddress cfg.minDepositErc20Wei
      last d b tx entry.toLogEntry := by
  obtain ⟨token, tokenId, txHash, tokenAddress, status, known, read, checksum, sighted, rfl⟩ :=
    classify_eq_some classified
  obtain ⟨number, index, address⟩ := decodeTransferLog_eq decoded
  obtain ⟨amount, hash⟩ := decodeTransferLog_candidate decoded
  obtain ⟨addressed, within⟩ := isTransferTo_of_selects selected
  obtain ⟨field, present, denotes⟩ := mined.hash
  obtain ⟨mem, own⟩ := mem_of_lookupToken known
  have token_eq : Denotes entry.address (packedAddress token) := by
    rw [Denotes, ← address]
    exact own.symm
  obtain rfl : tokenAddress = token := by
    rw [address, P.toChecksumAddress_hexText _ _ token_eq] at checksum
    exact (Option.some_inj.mp checksum).symm
  rw [present, Option.map_some, Option.getD_some] at hash
  have whole : txHash = word tx.hash := by
    rw [hash] at read
    exact bytesFromHex_of_denotes denotes read
  obtain ⟨t, ht, erc20, chain, own', id⟩ := mem_registeredErc20s (subset mem)
  obtain ⟨registered, hashed⟩ := sound.listed ht erc20 chain own'
  rw [id] at registered hashed
  have sameId : candidateId P chainId txHash tokenId c.logIndex =
      computeDepositId P chainId tx.hash tokenId (BitVec.ofNat 256 c.logIndex) := by
    rw [whole, candidateId_eq]
  exact {
    block := mined.block
    mem := mined.mem
    succeeded := mined.succeeded
    logged := mined.log
    final := by rw [← mined.number]; exact within
    addressed := addressed
    index := index
    amount := amount
    enough := enough
    token := token_eq
    registered := registered
    tokenId := hashed
    txHash := read.trans (congrArg some whole)
    atChain := rfl
    atVersion := rfl
    status := sameId ▸ sighted
    depositId := fun processing => (if_pos processing).trans (congrArg some sameId) }

/-- Everything that a scan returns stands in a final block of the chain. -/
theorem found_of_discover {configs : List ChainEntry} {tokenAddress : Option Text}
    {lookback : Option ℤ} {readable : Bytes32 → Bool} {w3 : SourceNode} {result : DiscoveryResult}
    (sound : RegistrySound P registry) (listing : view.tokens = .ok (fetchAllTokens readable registry))
    (scanned : view.web3 chainId = some w3) (lists : ListsFrom w3 blocks)
    (run : discoverPendingDeposits P configs view depositAddress beneficiary chainId version
      tokenAddress lookback = .ok result) :
    ∀ d ∈ result.pending, ∃ cfg head b tx log, chainEntry configs chainId = some cfg ∧
      w3.latest = .ok head ∧
      Found P registry view blocks chainId version beneficiary depositAddress
        cfg.minDepositErc20Wei (head - getFinalityDepth configs chainId) d b tx log := by
  unfold discoverPendingDeposits at run
  split at run
  · cases run
  · next cfg supported =>
    split at run
    · cases run
    · dsimp only at run
      unfold scan at run
      rw [supported] at run
      simp only [scanTokens, scanned, listing, bind, Except.bind] at run
      split at run
      · cases run
      · next chosen =>
        split at chosen
        · cases chosen
        · next tokens known =>
          cases chosen
          split at run
          · cases run
            nofun
          · split at run
            · cases run
            · next head latest =>
              split at run
              · cases run
                nofun
              · split at run
                · cases run
                · next st window =>
                  cases run
                  refine scanChunks_pending (Q := fun d => ∃ cfg head b tx log, _) ?_ le_rfl
                    (fun _ h => (List.not_mem_nil h).elim) window
                  intro chunkStart chunkEnd logs within answered entry mem c d decoded enough found
                  obtain ⟨selected, b, tx, mined⟩ := lists _ _ answered entry mem
                  have stands := found_of_classify sound (scannedTokens_subset known) selected mined
                    decoded enough found
                  exact ⟨cfg, head, b, tx, _, supported, latest,
                    { stands with final := stands.final.trans within }⟩

/-- A claim for what was found selects the log it stands behind, and has the id of the scan. -/
theorem verifyDeposit_found {configs : List ChainEntry} {nodes : U256 → Option NodeView}
    {w3 : NodeView} {minDeposit : ℕ} {toBlock : ℤ} {b : ChainBlock} {tx : ChainTx} {log : LogEntry}
    (found : Found P registry view blocks chainId version beneficiary depositAddress minDeposit
      toBlock d b tx log) (served : nodes chainId = some w3)
    (reports : ∀ b ∈ blocks, DepositVerifier.Reports w3 b)
    (final : toBlock + getFinalityDepth configs chainId ≤ w3.latestBlock) (positive : 0 < d.amount) :
    ∃ v, verifyDeposit chainId tx.hash depositAddress d.amount d.logIndex configs nodes = .ok v ∧
      v.amount = d.amount ∧ v.depositIndex = d.logIndex ∧
      v.tokenAddress.bind P.toChecksumAddress = some d.tokenAddress := by
  have deep : b.number + getFinalityDepth configs chainId ≤ w3.latestBlock := by
    have within := found.final
    omega
  have inside : (log.logIndex, log) ∈ matchingTransfers ⟨some 1, b.number, tx.logs⟩ depositAddress :=
    List.mem_map.mpr ⟨log, List.mem_filter.mpr ⟨found.logged, found.addressed⟩, rfl⟩
  have nodup : ((matchingTransfers ⟨some 1, b.number, tx.logs⟩ depositAddress).map
      Prod.fst).Nodup := by
    have all := b.indices_nodup
    rw [List.map_flatMap] at all
    have own : (tx.logs.map LogEntry.logIndex).Nodup := (List.nodup_flatMap.mp all).1 tx found.mem
    rw [matchingTransfers, List.map_map]
    exact own.sublist (List.filter_sublist.map _)
  have selected : selectTransfer d.logIndex
      (matchingTransfers ⟨some 1, b.number, tx.logs⟩ depositAddress) = .ok (log.logIndex, log) := by
    rw [found.index]
    exact selectTransfer_of_mem nodup inside
  have amount : log.data.amount = some d.amount := amount_of_transferAmount found.amount positive
  have nonempty : log.address.hexString ≠ [] := by
    have length := length_of_denotes found.token
    intro empty
    rw [empty, packedAddress_length, List.length_nil] at length
    omega
  rw [verifyDeposit_final served (reports b found.block) found.mem found.succeeded deep,
    verifyEvidence]
  split
  · next none => rw [none] at inside; cases inside
  · unfold verifyTransfer
    rw [selected]
    dsimp only
    rw [amount]
    dsimp only
    rw [if_neg (lt_irrefl _), dif_neg nonempty]
    exact ⟨_, rfl, rfl, found.index.symm, P.toChecksumAddress_hexText _ _ found.token⟩

end Registry
end Found
end DepositDiscovery

open DepositVerifier DepositDiscovery

section Check
variable {P : Platform} (settings : SweepSettings) (configs : List ChainEntry)
  (nodes : U256 → Option NodeView)

variable (P) in
/-- What `verify_deposit` gives to `process_deposit`; the text of a refusal is left out. -/
def verifierReply :
    Except VerifyError DepositVerifier.VerifiedDeposit → Except SweepError VerifiedDeposit
  | .error _ => .error (.rpcError false "")
  | .ok v =>
    match v.tokenAddress with
    | none => .ok ⟨BitVec.ofInt 256 v.amount, none, BitVec.ofNat 256 v.depositIndex⟩
    | some token =>
      match P.toChecksumAddress token with
      | none => .error (.rpcError false "")
      | some a => .ok ⟨BitVec.ofInt 256 v.amount, some a, BitVec.ofNat 256 v.depositIndex⟩

/-- A claim checked by itself: the verifier looks at the source chain, and the contract and the
records answer as in every run. -/
def checkPerform (op : SweepOp P) (w : SweepWorld P) :
    Option (Except SweepError op.Reply × SweepWorld P) :=
  match op with
  | .verifyDeposit chainId txHash depositAddress expectedAmount logIndex =>
    some (verifierReply P (DepositVerifier.verifyDeposit chainId txHash depositAddress
      expectedAmount.toNat logIndex configs nodes), w)
  | op => sweepPerform P settings 0 op (.node 0) w

/-- The answer to a claim, and the sweep that it starts unless one is done or in progress. -/
structure Accepts (w : SweepWorld P) (request : DepositRequest) (depositAddress token : Address)
    (tokenId : Bytes32) (answer : DepositResponse × Option SweepCall) : Prop where
  credited : answer.1.credited = w.accounting.processedDeposits answer.1.depositId
  depositId : answer.1.depositId = computeDepositId P request.chainId request.txHash tokenId
    (BitVec.ofNat 256 request.logIndex)
  amount : answer.1.amount = request.amount
  tokenAddress : answer.1.tokenAddress = some token
  sweeps : answer.2 =
    if answer.1.credited || (w.record answer.1.depositId).any (!·.isRetryable) then none
    else some
      { depositAddress, beneficiary := request.user, chainType := request.chainType,
        version := request.version, chainId := request.chainId, tokenAddress := some token,
        tokenId, amount := request.amount, depositId := answer.1.depositId }

variable {settings configs nodes}

/-- A claim that verifies, for a registered token and enough, is accepted. -/
theorem processDeposit_accepts {w : SweepWorld P} {request : DepositRequest} {config : ChainConfig}
    {depositAddress token : Address} {tokenId : Bytes32} {v : DepositVerifier.VerifiedDeposit}
    (supported : settings.chainConfigs request.chainId = some config)
    (notFunding : request.txHash ∉ w.gasFundingTxHashes)
    (address : (deriveDepositKeypair P w.accounting.toSignerState request.user request.chainType
      request.version).1 = depositAddress)
    (verified : DepositVerifier.verifyDeposit request.chainId request.txHash depositAddress
      request.amount.toNat request.logIndex configs nodes = .ok v)
    (amount : v.amount = request.amount.toNat) (index : v.depositIndex = request.logIndex)
    (asset : v.tokenAddress.bind P.toChecksumAddress = some token)
    (enough : config.minDepositErc20Wei ≤ request.amount.toNat)
    (id : tokenId = getTokenId P (tokenInfoAt request.chainId (some token)))
    (registered : (w.accounting.tokens tokenId).data ≠ []) :
    (processDeposit settings request).Succeeds (checkPerform settings configs nodes) w
      fun answer _ => Accepts w request depositAddress token tokenId answer := by
  have reply : verifierReply P (.ok v) =
      .ok ⟨request.amount, some token, BitVec.ofNat 256 request.logIndex⟩ := by
    obtain ⟨t, present, checksum⟩ := Option.bind_eq_some_iff.mp asset
    simp only [verifierReply, present, checksum, amount, index]
    rw [BitVec.ofInt_natCast, BitVec.ofNat_toNat, BitVec.setWidth_eq]
  have small : ¬ request.amount.toNat < config.minDepositWei (some token) := not_lt.mpr enough
  have held : ¬ (!decide ((w.accounting.tokens tokenId).data ≠ [])) = true := by simp [registered]
  unfold processDeposit
  rw [supported]
  dsimp only
  refine .ask (congrArg (fun b => some (Except.ok b, w)) (decide_eq_false notFunding)) ?_
  rw [if_neg Bool.false_ne_true]
  refine .ask (a := depositAddress) (congrArg (fun a => some (Except.ok a, w)) address) ?_
  refine .ask (congrArg (fun r => some (r, w))
    ((congrArg (verifierReply P) verified).trans reply)) ?_
  dsimp only
  rw [if_neg small]
  refine .ask (congrArg (fun t => some (Except.ok t, w)) id.symm) ?_
  refine .ask (a := decide ((w.accounting.tokens tokenId).data ≠ [])) rfl ?_
  rw [if_neg held]
  refine .ask (a := w.accounting.processedDeposits (computeDepositId P request.chainId
    request.txHash tokenId (BitVec.ofNat 256 request.logIndex))) rfl ?_
  cases processed : w.accounting.processedDeposits (computeDepositId P request.chainId
    request.txHash tokenId (BitVec.ofNat 256 request.logIndex)) with
  | true =>
    rw [if_pos rfl]
    exact .result ⟨processed.symm, rfl, rfl, rfl, rfl⟩
  | false =>
    rw [if_neg Bool.false_ne_true]
    refine .ask (a := w.record _) (v := w.retryCleanup _) rfl ?_
    split
    · next going => exact .result ⟨processed.symm, rfl, rfl, rfl, by rw [if_pos]; simp [going]⟩
    · next free => exact .result ⟨processed.symm, rfl, rfl, rfl, by rw [if_neg]; simp [free]⟩

end Check

section Agreement
variable {P : Platform} {s : State}

theorem deriveDepositKeypair_congr {s t : SignerState} (h : s.secretKey = t.secretKey)
    (beneficiary : Address) (chainType : ChainType) (version : U256) :
    deriveDepositKeypair P s beneficiary chainType version =
      deriveDepositKeypair P t beneficiary chainType version := by
  rw [deriveDepositKeypair, deriveDepositKeypair, h]

theorem secretKey_run (s : State) (txs : List Tx) :
    ((accounting P).run s txs).secretKey = s.secretKey :=
  (accounting P).run_invariant (I := fun t => t.secretKey = s.secretKey) rfl
    (fun _ _ _ _ h executed => (execute_step executed).keys.2.1.trans h) txs

theorem isProcessed_of_discovered {view : DiscoveryView} {beneficiary : Address}
    {depositId : Bytes32}
    (h : discoveredStatus view beneficiary depositId = .ok (some .discovered)) :
    view.isProcessed depositId = .ok false := by
  simp only [discoveredStatus, bind, Except.bind] at h
  split at h
  · cases h
  · split at h
    · cases h
    · split at h
      · cases h
      · split at h
        · cases h
        · next processed answer =>
          cases processed
          · exact answer
          · cases h

/-- The claim that a user makes for a discovered deposit. -/
def DepositDiscovery.DiscoveredDeposit.claim (d : DiscoveredDeposit) (user : Address)
    (chainType : ChainType) (txHash : Bytes32) : DepositRequest where
  user := user
  chainType := chainType
  chainId := d.chainId
  txHash := txHash
  amount := BitVec.ofInt 256 d.amount
  logIndex := d.logIndex
  version := d.version

/-- Discovery and check agree: what a scan returns is accepted at any later head, under the deposit
id of the scan and for the asset and the amount that it gave. -/
theorem discovered_deposits_accepted (P : Platform) (settings : SweepSettings)
    (configs : List ChainEntry) (evm gasTank : Address × Bytes32) (txs later : List Tx)
    (canonical : ∀ info ∈ infosOf (txs ++ later), info.Canonical)
    (chains : ∀ c, settings.chainConfigs c = (chainEntry configs c).map ChainEntry.toChainConfig)
    (user : Address) (chainType : ChainType) (chainId version : U256) (tokenAddress : Option Text)
    (lookback : Option ℤ) {view : DiscoveryView} {readable : Bytes32 → Bool} {w3 : SourceNode}
    {blocks : List ChainBlock} {depositAddress : Address} {result : DiscoveryResult}
    (address : (deriveDepositKeypair P
      ((accounting P).run (accountingInit evm gasTank) txs).toSignerState user chainType version).1 =
        depositAddress)
    (listing : view.tokens =
      .ok (fetchAllTokens readable ((accounting P).run (accountingInit evm gasTank) txs)))
    (scanned : view.web3 chainId = some w3) (lists : ListsFrom w3 blocks)
    (found : discoverPendingDeposits P configs view depositAddress user chainId version tokenAddress
      lookback = .ok result) {nodes : U256 → Option NodeView} {node : NodeView}
    (served : nodes chainId = some node) (reports : ∀ b ∈ blocks, DepositVerifier.Reports node b)
    (head : ∀ n, w3.latest = .ok n → n ≤ node.latestBlock) {w : SweepWorld P}
    (ran : w.accounting = (accounting P).run (accountingInit evm gasTank) (txs ++ later))
    (funding : ∀ b ∈ blocks, ∀ tx ∈ b.txs, tx.hash ∈ w.gasFundingTxHashes →
      ∀ log ∈ tx.logs, log.isTransferTo depositAddress = false) :
    ∀ d ∈ result.pending, 0 < d.amount → d.amount < 2 ^ 256 → ∃ txHash,
      bytesFromHex (DepositDiscovery.removePrefix d.txHash) = some (word txHash) ∧
      (let depositId := computeDepositId P d.chainId txHash d.tokenId (BitVec.ofNat 256 d.logIndex)
       (d.status = .discovered → view.isProcessed depositId = .ok false) ∧
       (d.status = .processing → d.depositId = some depositId)) ∧
      (processDeposit settings (d.claim user chainType txHash)).Succeeds
        (checkPerform settings configs nodes) w fun answer _ =>
          Accepts w (d.claim user chainType txHash) depositAddress d.tokenAddress d.tokenId
            answer := by
  intro d hd positive small
  have sound : RegistrySound P ((accounting P).run (accountingInit evm gasTank) txs) :=
    registrySound_run evm gasTank txs fun info ⟨tx, mem, call⟩ =>
      canonical info ⟨tx, List.mem_append_left _ mem, call⟩
  have soundLater : RegistrySound P w.accounting := by
    rw [ran]
    exact registrySound_run evm gasTank _ canonical
  obtain ⟨cfg, n, b, tx, log, supported, latest, stands⟩ :=
    found_of_discover sound listing scanned lists found d hd
  have final : (n : ℤ) - getFinalityDepth configs chainId + getFinalityDepth configs chainId ≤
      node.latestBlock := by
    have reached := head n latest
    omega
  obtain ⟨v, verified, amount, index, asset⟩ :=
    verifyDeposit_found stands served reports final positive
  have value : ((BitVec.ofInt 256 d.amount).toNat : ℤ) = d.amount := by
    rw [BitVec.toNat_ofInt, Int.toNat_of_nonneg (Int.emod_nonneg _ (by norm_num))]
    exact Int.emod_eq_of_lt positive.le (by exact_mod_cast small)
  have registered : d.tokenId ∈ w.accounting.registeredTokenIds := by
    rw [ran, TransactionMachine.run_append]
    exact registered_run _ later stands.registered
  have key : w.accounting.secretKey =
      ((accounting P).run (accountingInit evm gasTank) txs).secretKey := by
    rw [ran, TransactionMachine.run_append, secretKey_run]
  refine ⟨tx.hash, stands.txHash, ⟨fun discovered => ?_, fun processing => ?_⟩, ?_⟩
  · rw [stands.atChain]
    exact isProcessed_of_discovered (discovered ▸ stands.status)
  · rw [stands.atChain]
    exact stands.depositId processing
  · have configured : settings.chainConfigs d.chainId = some cfg.toChainConfig := by
      rw [chains, stands.atChain, supported]
      rfl
    refine processDeposit_accepts configured ?_ ?_ ?_ ?_ index asset ?_ ?_
      (soundLater _ registered).1.data_ne_nil
    · intro taken
      have clear := funding b stands.block tx stands.mem taken log stands.logged
      rw [stands.addressed] at clear
      cases clear
    · rw [← address]
      exact congrArg Prod.fst (stands.atVersion ▸ deriveDepositKeypair_congr key _ _ _)
    · show DepositVerifier.verifyDeposit d.chainId tx.hash depositAddress
        ((BitVec.ofInt 256 d.amount).toNat : ℤ) d.logIndex configs nodes = _
      rw [stands.atChain, value]
      exact verified
    · exact amount.trans value.symm
    · show cfg.minDepositErc20Wei ≤ (BitVec.ofInt 256 d.amount).toNat
      have enough := stands.enough
      omega
    · show d.tokenId = getTokenId P (tokenInfoAt d.chainId _)
      rw [stands.atChain]
      exact stands.tokenId

end Agreement

namespace SampleCheck

def txs : List Tx := [⟨SampleSweep.rofl 1, .setTokenInfo sampleToken⟩]

def registry : State :=
  (accounting sampleSweepPlatform).run (accountingInit sampleEvm sampleGasTank) txs

def settings : SweepSettings where
  chainConfigs c := (chainEntry (chainConfigs false) c).map ChainEntry.toChainConfig
  querySigner := sampleQuerySigner

/-- The second transaction also moves an unregistered token to the address. -/
def tx (second : Bool) : ChainTx where
  hash := sampleDepositTx second
  succeeded := true
  recipient := some sampleErc20
  value := 0
  logs := if second then
      [sampleTransfer sampleErc20 true 8000 0, sampleTransfer 0x70ce true 8000 1].map
        DiscoveryLog.toLogEntry
    else [(sampleTransfer sampleErc20 false 90 0).toLogEntry]

def block (second : Bool) : ChainBlock :=
  ⟨if second then 8000 else 90, [tx second], by cases second <;> decide⟩

def node : NodeView where
  receipt h := ([tx false, tx true].find? (·.hash = h)).map fun t =>
    ⟨some 1, if t.hash = sampleDepositTx true then 8000 else 90, t.logs⟩
  latestBlock := 9100
  transaction h := ([tx false, tx true].find? (·.hash = h)).map fun t =>
    ⟨some (.bytes (packedAddress sampleErc20)), t.value⟩
  balance _ _ := 0

def view : DiscoveryView := sampleView 9015 sampleLogs (fetchAllTokens (fun _ => true) registry)

def world : SweepWorld sampleSweepPlatform := { sampleSweepStart.world with accounting := registry }

theorem listsFrom : ListsFrom (sampleSource 9015 sampleLogs) [block false, block true] := by
  rintro q logs ⟨⟩ entry mem
  obtain ⟨listed, selected⟩ := List.mem_filter.mp mem
  have mined (second : Bool) (log : entry.toLogEntry ∈ (tx second).logs)
      (number : entry.blockNumber = (block second).number)
      (hash : entry.transactionHash = some (.bytes (word (sampleDepositTx second)))) :
      ∃ b t, MinedIn [block false, block true] entry b t :=
    ⟨block second, tx second, by cases second <;> simp, List.mem_singleton_self _, rfl, log,
      number, _, hash, lower_hexText _⟩
  refine ⟨selected, ?_⟩
  simp only [sampleLogs, List.mem_cons, List.not_mem_nil, or_false] at listed
  rcases listed with rfl | rfl | rfl
  · exact mined false (List.mem_singleton_self _) rfl rfl
  · exact mined true List.mem_cons_self rfl rfl
  · exact mined true (List.mem_cons_of_mem _ (List.mem_singleton_self _)) rfl rfl

theorem reports : ∀ b ∈ [block false, block true], DepositVerifier.Reports node b := by
  have each (second : Bool) : DepositVerifier.Reports node (block second) := by
    have only : ∀ t ∈ (block second).txs, t = tx second := fun t ht => List.mem_singleton.mp ht
    refine ⟨fun t ht => ?_, fun t ht => ?_, fun a => ?_⟩
    · obtain rfl := only t ht
      cases second <;> decide +kernel
    · obtain rfl := only t ht
      refine ⟨⟨some (.bytes (packedAddress sampleErc20)), 0⟩, ?_, rfl, _, rfl, lower_hexText _⟩
      cases second <;> rfl
    · have inflow : (block second).inflow a = 0 := by
        simp [block, tx, ChainBlock.inflow, ChainTx.inflow, paidTo]
      have outflow : (block second).outflow a = 0 := by
        simp [block, tx, ChainBlock.outflow, paidTo]
      rw [inflow, outflow]
      rfl
  intro b hb
  rcases List.mem_cons.mp hb with rfl | hb
  · exact each false
  · obtain rfl := List.mem_singleton.mp hb
    exact each true

theorem canonical : ∀ info ∈ infosOf (txs ++ []), info.Canonical := by
  rintro info ⟨tx, mem, call⟩
  obtain rfl := List.mem_singleton.mp mem
  cases call
  exact ⟨84532, some sampleErc20, by decide⟩

theorem discover : discoverPendingDeposits sampleSweepPlatform (chainConfigs false) view
    Privana.sampleDepositAddress sampleUser 84532 0 none (some 10_000) = .ok sampleResult := by
  decide +kernel

/-- The claim made for a discovered deposit names its log, and is accepted. -/
def Accepted (d : DiscoveredDeposit) : Prop := ∃ txHash,
  bytesFromHex (DepositDiscovery.removePrefix d.txHash) = some (word txHash) ∧
    (let depositId := computeDepositId sampleSweepPlatform d.chainId txHash d.tokenId
      (BitVec.ofNat 256 d.logIndex)
     (d.status = .discovered → view.isProcessed depositId = .ok false) ∧
     (d.status = .processing → d.depositId = some depositId)) ∧
    (processDeposit settings (d.claim sampleUser .EVM txHash)).Succeeds
      (checkPerform settings (chainConfigs false) fun _ => some node) world fun answer _ =>
        Accepts world (d.claim sampleUser .EVM txHash) Privana.sampleDepositAddress d.tokenAddress
          d.tokenId answer

/-- Both deposits that the scan of two chunks found are accepted. -/
theorem discovered_deposit_accepted :
    Accepted (sampleDiscovered true 8000) ∧ Accepted (sampleDiscovered false 90) := by
  have accepted : ∀ d ∈ sampleResult.pending, 0 < d.amount → d.amount < 2 ^ 256 → Accepted d :=
    discovered_deposits_accepted sampleSweepPlatform settings (chainConfigs false) sampleEvm
      sampleGasTank txs [] canonical (fun _ => rfl) sampleUser .EVM 84532 0 none (some 10_000)
      rfl rfl rfl listsFrom discover rfl reports (fun n hn => by cases hn; decide) rfl
      (fun _ _ _ _ h => (List.not_mem_nil h).elim)
  exact ⟨accepted _ List.mem_cons_self (by decide) (by decide),
    accepted _ (List.mem_cons_of_mem _ (List.mem_singleton_self _)) (by decide) (by decide)⟩

end SampleCheck
end Privana
