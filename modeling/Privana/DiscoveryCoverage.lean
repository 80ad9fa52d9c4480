import Privana.DepositDiscovery
import Privana.SweepSolvency

/-! What the reported interval of a scan covers. The logs of the window, the newest first,
are examined up to a point, and every block from the reported one on lies before it. -/

namespace Privana

def LogQuery.wantsTopics (q : LogQuery) (topics : List HexField) : Bool :=
  q.topics.length ≤ topics.length && (q.topics.zip topics).all fun (want, topic) =>
    want.all fun t => lower topic.hexString = lower t

/-- `eth_getLogs`; without addresses every contract is meant. -/
def LogQuery.selects (q : LogQuery) (log : DiscoveryLog) : Bool :=
  decide (q.fromBlock ≤ log.blockNumber ∧ log.blockNumber ≤ q.toBlock) &&
    (q.addresses.isEmpty ||
      q.addresses.any fun a => lower log.address.hexString = DepositVerifier.addressText a) &&
    q.wantsTopics log.topics

namespace DepositDiscovery
open BigEndian DepositVerifier Descending

/-- The node answers from this chain, in any order. -/
structure Answers (w3 : SourceNode) (chain : List DiscoveryLog) : Prop where
  distinct : (chain.map logOrder).Nodup
  logs : ∀ q logs, w3.getLogs q = .ok logs → logs.Perm (chain.filter q.selects)

/-- A transfer to the address, by the event of one of the tokens. -/
def isTransferOf (tokens : List (Address × Bytes32)) (depositAddress : Address)
    (log : DiscoveryLog) : Bool :=
  (tokens.any fun t => lower log.address.hexString = addressText t.1) &&
    match log.topics with
    | topic0 :: _ :: toTopic :: _ =>
      lower topic0.hexString = lower transferEventTopic &&
        lower toTopic.hexString = lower (addressTopic depositAddress)
    | _ => false

/-- The transfer that an entry is classified as. -/
def candidateOf (minDeposit : ℕ) (entry : DiscoveryLog) : Option Candidate :=
  match decodeTransferLog entry with
  | .ok (some candidate) => if candidate.amount < minDeposit then none else some candidate
  | _ => none

/-- What the contract and the records say of an uncredited transfer. -/
def Uncredited (P : Platform) (view : DiscoveryView) (chainId : U256) (beneficiary : Address)
    (tokens : List (Address × Bytes32)) (c : Candidate) : Prop :=
  ∀ token tokenId txHash, lookupToken (lower c.tokenAddress) tokens = some (token, tokenId) →
    bytesFromHex (removePrefix c.txHash) = some txHash →
    let depositId := candidateId P chainId txHash tokenId c.logIndex
    view.isProcessed depositId ≠ .ok true ∧
      ∀ r, view.record depositId = .ok (some r) → r.beneficiary = beneficiary

def DiscoveredDeposit.reports (d : DiscoveredDeposit) (c : Candidate) : Bool :=
  d.txHash = c.txHash && d.logIndex = c.logIndex && d.amount = c.amount &&
    d.blockNumber = c.blockNumber

def DiscoveredDeposit.order (d : DiscoveredDeposit) : ℕ ×ₗ ℕ := toLex (d.blockNumber, d.logIndex)

def windowLogs (tokens : List (Address × Bytes32)) (depositAddress : Address)
    (chain : List DiscoveryLog) (first last : ℤ) : List DiscoveryLog :=
  chain.filter fun log => decide (first ≤ log.blockNumber ∧ log.blockNumber ≤ last) &&
    isTransferOf tokens depositAddress log

section Scan
variable (P : Platform) (view : DiscoveryView) (chainId version : U256) (beneficiary : Address)
  (cfg : ChainEntry) (tokens : List (Address × Bytes32)) (depositAddress : Address)
  (chain : List DiscoveryLog)

/-- What is promised of a result over the window that was asked for. -/
structure Truthful (head : ℕ) (finalityDepth : ℕ) (fromBlock : ℤ) (st : ScanState)
    (result : DiscoveryResult) : Prop where
  complete : ∀ log ∈ chain, isTransferOf tokens depositAddress log = true →
    ∀ c, decodeTransferLog log = .ok (some c) → (cfg.minDepositErc20Wei : ℤ) ≤ c.amount →
    result.scannedFromBlock ≤ log.blockNumber → log.blockNumber ≤ result.scannedToBlock →
    Uncredited P view chainId beneficiary tokens c →
    result.pending.countP (·.reports c) = 1
  newest : result.pending.Pairwise fun d d' => d'.order < d.order
  capped : result.pending.length ≤ maxPendingCandidates
  classified : st.classified ≤ maxClassifiedCandidates
  final : result.scannedToBlock + finalityDepth ≤ head
  inside : fromBlock ≤ result.scannedFromBlock
  whole : result.pending.length < maxPendingCandidates →
    ((windowLogs tokens depositAddress chain fromBlock (head - finalityDepth)).filterMap
      (candidateOf cfg.minDepositErc20Wei)).length ≤ maxClassifiedCandidates →
    result.scannedFromBlock = fromBlock ∧ result.scannedToBlock = head - finalityDepth

def foundOf (c : Candidate) : Option DiscoveredDeposit :=
  match classify P view chainId version beneficiary tokens c with
  | .ok d => d
  | .error _ => none

/-- The logs before `rest` were read, and nothing else. -/
structure Examined (logs done rest : List DiscoveryLog) (st : ScanState) : Prop where
  split : logs = done ++ rest
  decoded : ∀ log ∈ done, ∃ c, decodeTransferLog log = .ok c
  looked : ∀ c ∈ done.filterMap (candidateOf cfg.minDepositErc20Wei),
    ∃ d, classify P view chainId version beneficiary tokens c = .ok d
  pending : st.pending = (done.filterMap (candidateOf cfg.minDepositErc20Wei)).filterMap
    (foundOf P view chainId version beneficiary tokens)
  classified : st.classified = (done.filterMap (candidateOf cfg.minDepositErc20Wei)).length
  pending_le : st.pending.length ≤ maxPendingCandidates
  classified_le : st.classified ≤ maxClassifiedCandidates

/-- How the scan of a chunk ends: the chunk is read, or a cap is met at one of its entries. -/
inductive ChunkRead (logs done entries rest : List DiscoveryLog) (st st' : ScanState) : Prop
  | all (running : st'.running = true) (scannedFrom : st'.scannedFrom = st.scannedFrom)
      (examined : Examined P view chainId version beneficiary cfg tokens logs (done ++ entries)
        rest st')
  | capped (stopped : st'.running = false) (done' rest' : List DiscoveryLog) (last : DiscoveryLog)
      (mem : last ∈ entries)
      (examined : Examined P view chainId version beneficiary cfg tokens logs done' rest' st')
      (scannedFrom : st'.scannedFrom = last.blockNumber + 1)
      (older : ∀ log ∈ rest', log.blockNumber ≤ last.blockNumber)
      (bound : st'.pending.length < maxPendingCandidates → maxClassifiedCandidates <
        (logs.filterMap (candidateOf cfg.minDepositErc20Wei)).length)

/-- How the scan of a window ends. -/
structure WindowRead (logs : List DiscoveryLog) (fromBlock : ℤ) (st : ScanState) : Prop where
  examined : ∃ done rest, Examined P view chainId version beneficiary cfg tokens logs done rest st ∧
    ∀ log ∈ rest, (log.blockNumber : ℤ) < st.scannedFrom
  inside : fromBlock ≤ st.scannedFrom
  whole : st.pending.length < maxPendingCandidates →
    (logs.filterMap (candidateOf cfg.minDepositErc20Wei)).length ≤ maxClassifiedCandidates →
    st.scannedFrom = fromBlock

end Scan

section Entries
variable {P : Platform} {view : DiscoveryView} {chainId version : U256} {beneficiary : Address}
  {cfg : ChainEntry} {tokens : List (Address × Bytes32)} {logs done rest : List DiscoveryLog}
  {st st' : ScanState} {entry : DiscoveryLog}

theorem candidateOf_skip {minDeposit : ℕ} (h : decodeTransferLog entry = .ok none) :
    candidateOf minDeposit entry = none := by
  rw [candidateOf, h]

theorem candidateOf_small {minDeposit : ℕ} {c : Candidate}
    (h : decodeTransferLog entry = .ok (some c)) (small : c.amount < minDeposit) :
    candidateOf minDeposit entry = none := by
  rw [candidateOf, h]
  exact if_pos small

theorem candidateOf_some {minDeposit : ℕ} {c : Candidate}
    (h : decodeTransferLog entry = .ok (some c)) (enough : ¬ c.amount < minDeposit) :
    candidateOf minDeposit entry = some c := by
  rw [candidateOf, h]
  exact if_neg enough

theorem decodeTransferLog_eq {c : Candidate} (h : decodeTransferLog entry = .ok (some c)) :
    c.blockNumber = entry.blockNumber ∧ c.logIndex = entry.logIndex ∧
      c.tokenAddress = entry.address.hexString := by
  unfold decodeTransferLog at h
  split at h
  · cases h
  · simp only at h
    split at h
    · cases h
    · cases h
      exact ⟨rfl, rfl, rfl⟩

theorem candidateOf_eq {minDeposit : ℕ} {c : Candidate} (h : candidateOf minDeposit entry = some c) :
    decodeTransferLog entry = .ok (some c) ∧ (minDeposit : ℤ) ≤ c.amount := by
  unfold candidateOf at h
  split at h
  · next c' decoded =>
    split at h
    · cases h
    · next enough =>
      cases h
      exact ⟨decoded, not_lt.mp enough⟩
  · cases h

theorem Examined.skip (h : Examined P view chainId version beneficiary cfg tokens logs done
    (entry :: rest) st) {c : Option Candidate} (decoded : decodeTransferLog entry = .ok c)
    (skipped : candidateOf cfg.minDepositErc20Wei entry = none) :
    Examined P view chainId version beneficiary cfg tokens logs (done ++ [entry]) rest st := by
  have same : (done ++ [entry]).filterMap (candidateOf cfg.minDepositErc20Wei) =
      done.filterMap (candidateOf cfg.minDepositErc20Wei) := by
    rw [List.filterMap_append, List.filterMap_cons_none skipped, List.filterMap_nil, List.append_nil]
  refine ⟨by rw [h.split, List.append_assoc]; rfl, ?_, ?_, ?_, ?_, h.pending_le, h.classified_le⟩
  · intro log hlog
    rcases List.mem_append.mp hlog with old | new
    · exact h.decoded log old
    · rw [List.mem_singleton.mp new]
      exact ⟨c, decoded⟩
  · rw [same]
    exact h.looked
  · rw [same]
    exact h.pending
  · rw [same]
    exact h.classified

theorem Examined.look (h : Examined P view chainId version beneficiary cfg tokens logs done
    (entry :: rest) st) {c : Candidate} (decoded : decodeTransferLog entry = .ok (some c))
    (candidate : candidateOf cfg.minDepositErc20Wei entry = some c)
    (below : st.classified < maxClassifiedCandidates) (running : st.running = true)
    {d : Option DiscoveredDeposit}
    (found : classify P view chainId version beneficiary tokens c = .ok d) (boundReached : Bool)
    (scannedFrom : ℤ) :
    Examined P view chainId version beneficiary cfg tokens logs (done ++ [entry]) rest
      ⟨st.pending ++ d.toList, st.classified + 1, boundReached, scannedFrom⟩ := by
  have more : (done ++ [entry]).filterMap (candidateOf cfg.minDepositErc20Wei) =
      done.filterMap (candidateOf cfg.minDepositErc20Wei) ++ [c] := by
    rw [List.filterMap_append, List.filterMap_cons_some candidate, List.filterMap_nil]
  refine ⟨by rw [h.split, List.append_assoc]; rfl, ?_, ?_, ?_, ?_, ?_, below⟩
  · intro log hlog
    rcases List.mem_append.mp hlog with old | new
    · exact h.decoded log old
    · rw [List.mem_singleton.mp new]
      exact ⟨some c, decoded⟩
  · intro c' hc'
    rw [more] at hc'
    rcases List.mem_append.mp hc' with old | new
    · exact h.looked c' old
    · rw [List.mem_singleton.mp new]
      exact ⟨d, found⟩
  · have one : foundOf P view chainId version beneficiary tokens c = d := by rw [foundOf, found]
    rw [more, List.filterMap_append, ← h.pending]
    cases d <;> simp [one]
  · rw [more, List.length_append, ← h.classified]
    rfl
  · have few : st.pending.length < maxPendingCandidates := by
      simp only [ScanState.running, Bool.and_eq_true, decide_eq_true_eq] at running
      exact running.1
    have one := Option.length_toList_le (o := d)
    rw [List.length_append]
    omega

theorem block_le_of_lt {a b : DiscoveryLog} (h : logOrder a < logOrder b) :
    a.blockNumber ≤ b.blockNumber := by
  rcases Prod.Lex.lt_iff.mp h with older | same
  · exact older.le
  · exact same.1.le

theorem scanEntries_read {entries : List DiscoveryLog}
    (sorted : logs.Pairwise fun a b => logOrder b < logOrder a)
    (h : Examined P view chainId version beneficiary cfg tokens logs done (entries ++ rest) st)
    (running : st.running = true)
    (run : scanEntries P view chainId version beneficiary cfg tokens entries st = .ok st') :
    ChunkRead P view chainId version beneficiary cfg tokens logs done entries rest st st' := by
  induction entries generalizing done st with
  | nil =>
    cases run
    exact .all running rfl (by simpa using h)
  | cons entry entries ih =>
    have older : ∀ log ∈ entry :: (entries ++ rest), log.blockNumber ≤ entry.blockNumber := by
      have tail := (List.pairwise_append.mp (h.split ▸ sorted)).2.1
      intro log hlog
      rcases List.mem_cons.mp hlog with rfl | hlog
      · exact le_rfl
      · exact block_le_of_lt ((List.pairwise_cons.mp tail).1 log hlog)
    have resume {st₁ : ScanState} (running₁ : st₁.running = true)
        (from₁ : st₁.scannedFrom = st.scannedFrom)
        (h₁ : Examined P view chainId version beneficiary cfg tokens logs (done ++ [entry])
          (entries ++ rest) st₁)
        (run₁ : scanEntries P view chainId version beneficiary cfg tokens entries st₁ = .ok st') :
        ChunkRead P view chainId version beneficiary cfg tokens logs done (entry :: entries) rest
          st st' := by
      cases ih h₁ running₁ run₁ with
      | all running scannedFrom examined =>
        exact .all running (scannedFrom.trans from₁) (by simpa using examined)
      | capped stopped done' rest' last mem examined scannedFrom older bound =>
        exact .capped stopped done' rest' last (List.mem_cons_of_mem _ mem) examined scannedFrom
          older bound
    rw [scanEntries] at run
    split at run
    · cases run
    · next decoded =>
      exact resume running rfl (h.skip decoded (candidateOf_skip decoded)) run
    · next c decoded =>
      split at run
      · next small =>
        exact resume running rfl (h.skip decoded (candidateOf_small decoded small)) run
      · next enough =>
        have candidate := candidateOf_some decoded enough
        have block := (decodeTransferLog_eq decoded).1
        split at run
        · next bound =>
          cases run
          refine .capped (by simp [ScanState.running]) done _ entry List.mem_cons_self
            ⟨h.split, h.decoded, h.looked, h.pending, h.classified, h.pending_le, h.classified_le⟩
            (by rw [block]) older fun _ => ?_
          have count := h.classified
          rw [h.split, List.filterMap_append, List.length_append, List.cons_append,
            List.filterMap_cons_some candidate, List.length_cons]
          omega
        · next below =>
          have below := not_le.mp below
          split at run
          · cases run
          · next found =>
            refine resume ?_ ?_ ?_ run
            · exact running
            · rfl
            · simpa using h.look decoded candidate below running found st.boundReached st.scannedFrom
          · next d found =>
            have look := h.look decoded candidate below running found st.boundReached
            simp only at run
            split at run
            · next full =>
              cases run
              have stopped : decide ((st.pending ++ [d]).length < maxPendingCandidates) = false :=
                decide_eq_false (not_lt.mpr full)
              refine .capped (by rw [ScanState.running, stopped]; rfl) (done ++ [entry])
                (entries ++ rest) entry List.mem_cons_self (look _) (by rw [block])
                (fun log hlog => older log (List.mem_cons_of_mem _ hlog)) fun few => ?_
              exact absurd full (not_le.mpr few)
            · next room =>
              refine resume ?_ ?_ (look _) run
              rotate_left
              · rfl
              simp only [ScanState.running, Bool.and_eq_true, decide_eq_true_eq] at running ⊢
              exact ⟨not_le.mp room, running.2⟩

end Entries

section Chunks
variable {P : Platform} {view : DiscoveryView} {chainId version : U256} {beneficiary : Address}
  {cfg : ChainEntry} {tokens : List (Address × Bytes32)} {w3 : SourceNode}
  {depositAddress : Address} {chain logs done : List DiscoveryLog} {st st' : ScanState}
  {fromBlock chunkEnd : ℤ}

theorem selects_chunkQuery (listed : tokens ≠ []) (first last : ℤ) (log : DiscoveryLog) :
    (chunkQuery tokens depositAddress first last).selects log =
      (decide (first ≤ log.blockNumber ∧ log.blockNumber ≤ last) &&
        isTransferOf tokens depositAddress log) := by
  have some_address : (tokens.map Prod.fst).isEmpty = false := by simpa using listed
  rw [LogQuery.selects, isTransferOf, Bool.and_assoc]
  congr 1
  rw [chunkQuery, some_address, Bool.false_or, List.any_map]
  congr 1
  unfold LogQuery.wantsTopics
  rcases log.topics with _ | ⟨topic0, _ | ⟨fromTopic, _ | ⟨toTopic, rest⟩⟩⟩
  · rfl
  · rfl
  · rfl
  · simp

theorem windowLogs_answer (answers : Answers w3 chain) (listed : tokens ≠ []) {first last : ℤ}
    {answer : List DiscoveryLog}
    (h : w3.getLogs (chunkQuery tokens depositAddress first last) = .ok answer) :
    newestFirst answer = newestFirst (windowLogs tokens depositAddress chain first last) := by
  have perm := answers.logs _ _ h
  have same : chain.filter (chunkQuery tokens depositAddress first last).selects =
      windowLogs tokens depositAddress chain first last :=
    List.filter_congr fun log _ => selects_chunkQuery listed first last log
  rw [same] at perm
  refine descending_congr perm ((perm.map _).nodup_iff.mpr ?_)
  exact answers.distinct.sublist (List.filter_sublist.map _)

/-- A window is read as the chunk at its newer end, and then the rest. -/
theorem windowLogs_split (answers : Answers w3 chain) {first start last : ℤ} (above : first ≤ start)
    (below : start ≤ last + 1) :
    newestFirst (windowLogs tokens depositAddress chain first last) =
      newestFirst (windowLogs tokens depositAddress chain start last) ++
        newestFirst (windowLogs tokens depositAddress chain first (start - 1)) := by
  refine (congrArg newestFirst (List.filter_congr fun log _ => ?_)).trans
    (descending_filter_or _ _ answers.distinct fun a ha b hb => ?_)
  · rw [← Bool.and_or_distrib_right]
    congr 1
    rw [← Bool.decide_or]
    exact decide_eq_decide.mpr (by omega)
  · simp only [Bool.and_eq_true, decide_eq_true_eq] at ha hb
    exact Prod.Lex.lt_iff.mpr (.inl (by simp only [logOrder, ofLex_toLex]; omega))

theorem windowLogs_empty {first last : ℤ} (h : last < first) :
    newestFirst (windowLogs tokens depositAddress chain first last) = [] := by
  have none : windowLogs tokens depositAddress chain first last = [] :=
    List.filter_eq_nil_iff.mpr fun log _ => by
      simp only [Bool.and_eq_true, decide_eq_true_eq, not_and]
      omega
  rw [none, newestFirst, descending, List.mergeSort_nil]

theorem scanChunks_stopped (stopped : st.running = false) (chunks : ℕ) :
    scanChunks P view chainId version beneficiary cfg tokens w3 depositAddress fromBlock chunks
      chunkEnd st = .ok st := by
  cases chunks with
  | zero => rfl
  | succ chunks => rw [scanChunks, if_neg (by simp [stopped])]

theorem windowRead_of_spent (spent : chunkEnd < fromBlock)
    (start : fromBlock ≤ chunkEnd ∨ st.scannedFrom = fromBlock)
    (h : Examined P view chainId version beneficiary cfg tokens logs done
      (newestFirst (windowLogs tokens depositAddress chain fromBlock chunkEnd)) st) :
    WindowRead P view chainId version beneficiary cfg tokens logs fromBlock st := by
  have scannedFrom := start.resolve_left (not_le.mpr spent)
  rw [windowLogs_empty spent] at h
  exact ⟨⟨done, [], h, by simp⟩, scannedFrom.ge, fun _ _ => scannedFrom⟩

theorem windowRead_of_capped {done' rest : List DiscoveryLog} {last : DiscoveryLog}
    (examined : Examined P view chainId version beneficiary cfg tokens logs done' rest st)
    (scannedFrom : st.scannedFrom = last.blockNumber + 1) (inside : fromBlock ≤ last.blockNumber)
    (older : ∀ log ∈ rest, log.blockNumber ≤ last.blockNumber)
    (bound : st.pending.length < maxPendingCandidates → maxClassifiedCandidates <
      (logs.filterMap (candidateOf cfg.minDepositErc20Wei)).length) :
    WindowRead P view chainId version beneficiary cfg tokens logs fromBlock st := by
  refine ⟨⟨done', rest, examined, fun log hlog => ?_⟩, by omega, fun few count => ?_⟩
  · have := older log hlog
    omega
  · exact absurd count (not_le.mpr (bound few))

theorem scanChunks_read (answers : Answers w3 chain) (listed : tokens ≠ [])
    (sorted : logs.Pairwise fun a b => logOrder b < logOrder a) {chunks : ℕ}
    (enough : chunkEnd + 1 - fromBlock ≤ chunks)
    (start : fromBlock ≤ chunkEnd ∨ st.scannedFrom = fromBlock)
    (h : Examined P view chainId version beneficiary cfg tokens logs done
      (newestFirst (windowLogs tokens depositAddress chain fromBlock chunkEnd)) st)
    (running : st.running = true)
    (run : scanChunks P view chainId version beneficiary cfg tokens w3 depositAddress fromBlock
      chunks chunkEnd st = .ok st') :
    WindowRead P view chainId version beneficiary cfg tokens logs fromBlock st' := by
  induction chunks generalizing chunkEnd st done with
  | zero =>
    cases run
    exact windowRead_of_spent (by simp only [Nat.cast_zero] at enough; omega) start h
  | succ chunks ih =>
    rw [scanChunks] at run
    split at run
    · next goes =>
      have chunk := cfg.chunk_pos
      set chunkStart := max (chunkEnd - cfg.discoveryScanChunkBlocks + 1) fromBlock
      have bounds : fromBlock ≤ chunkStart ∧ chunkStart ≤ chunkEnd := by omega
      have next_start : fromBlock ≤ chunkStart - 1 ∨ chunkStart = fromBlock := by omega
      rw [windowLogs_split answers bounds.1 (by omega)] at h
      simp only at run
      split at run
      · cases run
      · next answer logsAnswer =>
        rw [windowLogs_answer answers listed logsAnswer] at run
        split at run
        · cases run
        · next st₁ entries =>
          have h : Examined P view chainId version beneficiary cfg tokens logs done _
              { st with scannedFrom := chunkStart } :=
            ⟨h.split, h.decoded, h.looked, h.pending, h.classified, h.pending_le, h.classified_le⟩
          cases scanEntries_read sorted h running entries with
          | all running₁ from₁ examined =>
            exact ih (by omega) (next_start.imp_right from₁.trans) examined running₁ run
          | capped stopped done' rest' last mem examined from₁ older bound =>
            rw [scanChunks_stopped stopped] at run
            cases run
            have inside := (List.mem_filter.mp ((mem_descending logOrder).mp mem)).2
            simp only [Bool.and_eq_true, decide_eq_true_eq] at inside
            exact windowRead_of_capped examined from₁ (bounds.1.trans inside.1.1) older bound
    · next spent =>
      cases run
      exact windowRead_of_spent (not_le.mp fun left => spent ⟨left, running⟩) start h

theorem scanWindow_read (answers : Answers w3 chain) (listed : tokens ≠ []) {toBlock : ℤ}
    (nonempty : fromBlock ≤ toBlock)
    (run : scanWindow P view chainId version beneficiary cfg tokens w3 depositAddress fromBlock
      toBlock = .ok st) :
    WindowRead P view chainId version beneficiary cfg tokens
      (newestFirst (windowLogs tokens depositAddress chain fromBlock toBlock)) fromBlock st := by
  have sorted := descending_strict logOrder (l := windowLogs tokens depositAddress chain fromBlock
    toBlock) (answers.distinct.sublist (List.filter_sublist.map _))
  have unread : Examined P view chainId version beneficiary cfg tokens
      (newestFirst (windowLogs tokens depositAddress chain fromBlock toBlock)) []
      (newestFirst (windowLogs tokens depositAddress chain fromBlock toBlock)) ⟨[], 0, false, toBlock⟩ :=
    ⟨rfl, by simp, by simp, rfl, rfl, Nat.zero_le _, Nat.zero_le _⟩
  exact scanChunks_read answers listed sorted (by omega) (.inl nonempty) unread rfl run

end Chunks

section Found
variable {P : Platform} {view : DiscoveryView} {chainId version : U256} {beneficiary : Address}
  {cfg : ChainEntry} {tokens : List (Address × Bytes32)} {depositAddress : Address} {c : Candidate}

theorem reports_order {d : DiscoveredDeposit} (h : d.reports c = true) :
    d.order = toLex (c.blockNumber, c.logIndex) := by
  simp only [DiscoveredDeposit.reports, Bool.and_eq_true, decide_eq_true_eq] at h
  rw [DiscoveredDeposit.order, h.2, h.1.1.2]

theorem classify_reports {d : DiscoveredDeposit}
    (h : classify P view chainId version beneficiary tokens c = .ok (some d)) :
    d.reports c = true := by
  unfold classify at h
  split at h
  · cases h
  split at h
  · cases h
  simp only at h
  split at h
  · cases h
  · cases h
  split at h
  · cases h
  · cases h
    simp [DiscoveredDeposit.reports, Candidate.deposit]

theorem foundOf_reports {d : DiscoveredDeposit}
    (h : foundOf P view chainId version beneficiary tokens c = some d) : d.reports c = true := by
  unfold foundOf at h
  split at h
  · next found => exact classify_reports (h ▸ found)
  · cases h

theorem lookupToken_isSome {t : Address × Bytes32} (h : t ∈ tokens) :
    (lookupToken (addressText t.1) tokens).isSome = true :=
  List.find?_isSome.mpr ⟨t, List.mem_reverse.mpr h, decide_eq_true rfl⟩

theorem discoveredStatus_none {depositId : Bytes32}
    (h : discoveredStatus view beneficiary depositId = .ok none) :
    view.isProcessed depositId = .ok true ∨
      ∃ r, view.record depositId = .ok (some r) ∧ r.beneficiary ≠ beneficiary := by
  unfold discoveredStatus at h
  cases record : view.record depositId with
  | error e => rw [record] at h; cases h
  | ok r =>
    rw [record] at h
    simp only [bind, Except.bind] at h
    split at h
    · next foreign =>
      obtain ⟨r, rfl, foreign⟩ := (Option.any_eq_true _ _).mp foreign
      exact .inr ⟨r, rfl, by simpa using foreign⟩
    split at h
    · cases h
    · cases processed : view.isProcessed depositId with
      | error e => rw [processed] at h; cases h
      | ok b =>
        rw [processed] at h
        cases b with
        | true => exact .inl rfl
        | false => cases h

/-- Classification keeps every uncredited transfer of a scanned token. -/
theorem classify_uncredited {d : Option DiscoveredDeposit}
    (h : classify P view chainId version beneficiary tokens c = .ok d)
    (scanned : (lookupToken (lower c.tokenAddress) tokens).isSome = true)
    (uncredited : Uncredited P view chainId beneficiary tokens c) : d.isSome = true := by
  unfold classify at h
  split at h
  · next none => simp [none] at scanned
  next token tokenId found =>
  split at h
  · cases h
  next txHash bytes =>
  simp only at h
  split at h
  · cases h
  · next hidden =>
    obtain ⟨fresh, own⟩ := uncredited token tokenId txHash found bytes
    rcases discoveredStatus_none hidden with processed | ⟨r, record, foreign⟩
    · exact absurd processed fresh
    · exact absurd (own r record) foreign
  split at h
  · cases h
  · cases h
    rfl

theorem scanned_of_isTransferOf {log : DiscoveryLog}
    (transfer : isTransferOf tokens depositAddress log = true)
    (decoded : decodeTransferLog log = .ok (some c)) :
    (lookupToken (lower c.tokenAddress) tokens).isSome = true := by
  simp only [isTransferOf, Bool.and_eq_true, List.any_eq_true, decide_eq_true_eq] at transfer
  obtain ⟨⟨t, mem, same⟩, -⟩ := transfer
  rw [(decodeTransferLog_eq decoded).2.2, same]
  exact lookupToken_isSome mem

end Found

section Window
variable {P : Platform} {view : DiscoveryView} {chainId version : U256} {beneficiary : Address}
  {cfg : ChainEntry} {tokens : List (Address × Bytes32)} {depositAddress : Address}
  {chain logs done rest : List DiscoveryLog} {st : ScanState} {fromBlock toBlock : ℤ}

theorem candidateOf_order {minDeposit : ℕ} {log : DiscoveryLog} {c : Candidate}
    (h : candidateOf minDeposit log = some c) : toLex (c.blockNumber, c.logIndex) = logOrder log := by
  obtain ⟨block, index, -⟩ := decodeTransferLog_eq (candidateOf_eq h).1
  rw [logOrder, block, index]

/-- The answer lists what was read in its order. -/
theorem Examined.newest
    (h : Examined P view chainId version beneficiary cfg tokens logs done rest st)
    (sorted : logs.Pairwise fun a b => logOrder b < logOrder a) :
    st.pending.Pairwise fun d d' => d'.order < d.order := by
  have sorted := (List.pairwise_append.mp (h.split ▸ sorted)).1
  rw [h.pending, List.filterMap_filterMap]
  refine List.pairwise_filterMap.mpr (sorted.imp fun {a b} lt d hd d' hd' => ?_)
  obtain ⟨c, hc, hd⟩ := Option.bind_eq_some_iff.mp hd
  obtain ⟨c', hc', hd'⟩ := Option.bind_eq_some_iff.mp hd'
  rw [reports_order (foundOf_reports hd), reports_order (foundOf_reports hd'),
    candidateOf_order hc, candidateOf_order hc']
  exact lt

/-- What was read and is uncredited is in the answer, and once. -/
theorem Examined.complete
    (h : Examined P view chainId version beneficiary cfg tokens logs done rest st)
    (sorted : logs.Pairwise fun a b => logOrder b < logOrder a) {log : DiscoveryLog}
    (mem : log ∈ done) (transfer : isTransferOf tokens depositAddress log = true) {c : Candidate}
    (decoded : decodeTransferLog log = .ok (some c))
    (enough : (cfg.minDepositErc20Wei : ℤ) ≤ c.amount)
    (uncredited : Uncredited P view chainId beneficiary tokens c) :
    st.pending.countP (·.reports c) = 1 := by
  have candidate := candidateOf_some decoded (not_lt.mpr enough)
  have candidates := List.mem_filterMap.mpr ⟨log, mem, candidate⟩
  obtain ⟨d, found⟩ := h.looked c candidates
  have kept := classify_uncredited found (scanned_of_isTransferOf transfer decoded) uncredited
  obtain ⟨d, rfl⟩ := Option.isSome_iff_exists.mp kept
  have found_of : foundOf P view chainId version beneficiary tokens c = some d := by
    rw [foundOf, found]
  have pending : d ∈ st.pending := by
    rw [h.pending]
    exact List.mem_filterMap.mpr ⟨c, candidates, found_of⟩
  exact countP_eq_one (h.newest sorted) (fun _ _ => reports_order) pending (classify_reports found)

theorem WindowRead.truthful {head finalityDepth : ℕ} (distinct : (chain.map logOrder).Nodup)
    (h : WindowRead P view chainId version beneficiary cfg tokens
      (newestFirst (windowLogs tokens depositAddress chain fromBlock toBlock)) fromBlock st)
    (final : toBlock = head - finalityDepth) :
    Truthful P view chainId beneficiary cfg tokens depositAddress chain head finalityDepth fromBlock
      st ⟨st.pending, st.scannedFrom, toBlock⟩ := by
  obtain ⟨⟨done, rest, examined, older⟩, inside, whole⟩ := h
  have sorted := descending_strict logOrder (l := windowLogs tokens depositAddress chain fromBlock
    toBlock) (distinct.sublist (List.filter_sublist.map _))
  have final_le : toBlock + finalityDepth ≤ head := by omega
  refine ⟨?_, examined.newest sorted, examined.pending_le, examined.classified_le, final_le, inside,
    fun few count => ⟨whole few ?_, final⟩⟩
  · intro log mem transfer c decoded enough above below uncredited
    have inWindow : log ∈ newestFirst (windowLogs tokens depositAddress chain fromBlock toBlock) := by
      refine (mem_descending logOrder).mpr (List.mem_filter.mpr ⟨mem, ?_⟩)
      rw [transfer, Bool.and_true, decide_eq_true_eq]
      exact ⟨inside.trans above, below⟩
    rw [examined.split] at inWindow
    rcases List.mem_append.mp inWindow with read | unread
    · exact examined.complete sorted read transfer decoded enough uncredited
    · exact absurd above (not_le.mpr (older log unread))
  · rw [← final] at count
    exact ((descending_perm logOrder _).filterMap _).length_eq.trans_le count

end Window

theorem scanLookback_bounds {cfg : ChainEntry} {lookbackBlocks : Option ℤ} {lookback : ℤ}
    (h : scanLookback cfg lookbackBlocks = some lookback) :
    0 < lookback ∧ lookback ≤ cfg.discoveryMaxLookbackBlocks := by
  have chunk := cfg.chunk_pos
  unfold scanLookback at h
  simp only at h
  split at h
  · cases h
  next positive =>
  split at h
  · cases h
    exact ⟨by omega, min_le_right _ _⟩
  · cases h
    have rounded {n : ℤ} (h : ¬ n < 1) : 1 ≤ (n + cfg.discoveryScanChunkBlocks - 1) /
        cfg.discoveryScanChunkBlocks := Int.le_ediv_of_mul_le (by omega) (by omega)
    exact ⟨lt_min (Int.mul_pos (rounded positive) (by omega)) (by omega), min_le_right _ _⟩

section Discover
variable (P : Platform) (configs : List ChainEntry) (view : DiscoveryView)
  (depositAddress beneficiary : Address) (chainId version : U256) (tokenLower : Option Text)

/-- A request is a scan over a positive number of blocks, at most the chain's maximum. -/
theorem discoverPendingDeposits_scans {tokenAddress : Option Text} {lookbackBlocks : Option ℤ}
    {result : DiscoveryResult}
    (h : discoverPendingDeposits P configs view depositAddress beneficiary chainId version
      tokenAddress lookbackBlocks = .ok result) :
    ∃ cfg, chainEntry configs chainId = some cfg ∧ ∃ lookback : ℤ, 0 < lookback ∧
      lookback ≤ cfg.discoveryMaxLookbackBlocks ∧ ∃ tokenLower,
      scan P configs view depositAddress beneficiary chainId version tokenLower lookback =
        .ok result := by
  unfold discoverPendingDeposits at h
  split at h
  · cases h
  next cfg supported =>
  split at h
  · cases h
  next lookback clamped =>
  refine ⟨cfg, supported, lookback, ?_, ?_, _, h⟩
  all_goals
    have bounds := scanLookback_bounds clamped
    omega

/-- The reported interval is truthful whenever there is a block and a token to scan for; else
nothing is read, and the answer says so with the block 0 at both ends. -/
theorem discovery_coverage (lookback : ℤ) (positive : 0 < lookback) {cfg : ChainEntry}
    (supported : chainEntry configs chainId = some cfg) {w3 : SourceNode}
    {tokens : List (Address × Bytes32)} (scanned : scanTokens view chainId tokenLower = .ok (w3, tokens))
    {chain : List DiscoveryLog} (answers : Answers w3 chain) {result : DiscoveryResult}
    (run : scan P configs view depositAddress beneficiary chainId version tokenLower lookback =
      .ok result) :
    (tokens = [] → result = ⟨[], 0, 0⟩) ∧
    ∀ head, w3.latest = .ok head →
      (head < getFinalityDepth configs chainId → result = ⟨[], 0, 0⟩) ∧
      (tokens ≠ [] → getFinalityDepth configs chainId ≤ head →
        let toBlock : ℤ := head - getFinalityDepth configs chainId
        ∃ st, scanWindow P view chainId version beneficiary cfg tokens w3 depositAddress
            (windowStart lookback toBlock) toBlock = .ok st ∧
          Truthful P view chainId beneficiary cfg tokens depositAddress chain head
            (getFinalityDepth configs chainId) (windowStart lookback toBlock) st result) := by
  unfold scan at run
  rw [supported] at run
  simp only [scanned, bind, Except.bind] at run
  by_cases none : tokens = []
  · rw [if_pos none] at run
    cases run
    exact ⟨fun _ => rfl, fun head _ => ⟨fun _ => rfl, fun listed => absurd none listed⟩⟩
  rw [if_neg none] at run
  refine ⟨fun h => absurd h none, fun head latest => ?_⟩
  simp only [latest] at run
  split at run
  · next early =>
    cases run
    exact ⟨fun _ => rfl, fun _ deep => by omega⟩
  · next deep =>
    refine ⟨fun early => by omega, fun listed _ => ?_⟩
    split at run
    · cases run
    · next st window =>
      cases run
      refine ⟨st, window, ?_⟩
      have nonempty : windowStart lookback (head - getFinalityDepth configs chainId) ≤
          head - getFinalityDepth configs chainId := by
        rw [windowStart]
        omega
      exact (scanWindow_read answers listed nonempty window).truthful answers.distinct rfl

end Discover

def sampleErc20 : Address := 0x036cbd53842c5426634e7929541ec2318f3dcf7e

/-- One dollar, or what a token claims to be one, to the sample deposit address. -/
def sampleTransfer (token : Address) (second : Bool) (blockNumber logIndex : ℕ) :
    DiscoveryLog where
  address := .bytes (packedAddress token)
  topics := [.str transferEventTopic, .str (addressTopic sampleUser),
    .str (addressTopic sampleDepositAddress)]
  data := .bytes (word 1_000_000)
  logIndex := logIndex
  transactionHash := some (.bytes (word (sampleDepositTx second)))
  blockNumber := blockNumber

/-- One dollar, and later another in a transaction that also moves an unregistered token. -/
def sampleLogs : List DiscoveryLog :=
  [sampleTransfer sampleErc20 false 90 0, sampleTransfer sampleErc20 true 8000 0,
    sampleTransfer 0x70ce true 8000 1]

def sampleSource (head : ℕ) (chain : List DiscoveryLog) : SourceNode where
  latest := .ok head
  getLogs q := .ok (chain.filter q.selects)

theorem answers_sampleSource (head : ℕ) {chain : List DiscoveryLog}
    (distinct : (chain.map logOrder).Nodup) : Answers (sampleSource head chain) chain where
  distinct := distinct
  logs q logs h := by cases h; rfl

/-- The token is registered, and nothing of the deposit is known yet. -/
def sampleView (head : ℕ) (chain : List DiscoveryLog) (tokens : List TokenListing) :
    DiscoveryView where
  web3 _ := some (sampleSource head chain)
  tokens := .ok tokens
  record _ := .ok none
  isProcessed _ := .ok false

def sampleListing : List TokenListing := [⟨sampleTokenId, 1, some 84532, some sampleErc20⟩]

def sampleScan (head : ℕ) (chain : List DiscoveryLog) (tokens : List TokenListing) :
    Except DiscoveryError DiscoveryResult :=
  scan sampleSweepPlatform (chainConfigs false) (sampleView head chain tokens) sampleDepositAddress
    sampleUser 84532 0 none 10_000

def sampleDiscovered (second : Bool) (blockNumber : ℕ) : DiscoveredDeposit :=
  (⟨hexText (word (sampleDepositTx second)), 0, 1_000_000, addressText sampleErc20, blockNumber⟩ :
    Candidate).deposit 84532 0 sampleErc20 sampleTokenId (sampleDepositId second) .discovered

def sampleResult : DiscoveryResult :=
  ⟨[sampleDiscovered true 8000, sampleDiscovered false 90], 0, 9000⟩

/-- The window reaches back to block 0; its two chunks hold one deposit each. -/
theorem discovery_coverage_two_chunks :
    ∃ st, scanWindow sampleSweepPlatform (sampleView 9015 sampleLogs sampleListing) 84532 0
        sampleUser baseSepolia [(sampleErc20, sampleTokenId)]
        (sampleSource 9015 sampleLogs) sampleDepositAddress 0 9000 = .ok st ∧
      Truthful sampleSweepPlatform (sampleView 9015 sampleLogs sampleListing) 84532
        sampleUser baseSepolia [(sampleErc20, sampleTokenId)] sampleDepositAddress
        sampleLogs 9015 15 0 st sampleResult :=
  ((discovery_coverage sampleSweepPlatform (chainConfigs false)
    (sampleView 9015 sampleLogs sampleListing) sampleDepositAddress sampleUser 84532 0 none
    10_000 (by decide) rfl rfl (answers_sampleSource 9015 (by decide))
    (by decide +kernel)).2 9015 rfl).2 (by decide) (by decide)

/-- On a chain younger than its finality depth, or without a token, the answer is 0..0: block
0 is not final there, or the interval is not the window that was asked for. -/
theorem discovery_coverage_nothing_scanned :
    (sampleScan 5 [sampleTransfer sampleErc20 false 0 0] sampleListing = .ok ⟨[], 0, 0⟩ ∧
      ∀ st, ¬ Truthful sampleSweepPlatform
        (sampleView 5 [sampleTransfer sampleErc20 false 0 0] sampleListing) 84532
        sampleUser baseSepolia [(sampleErc20, sampleTokenId)] sampleDepositAddress
        [sampleTransfer sampleErc20 false 0 0] 5 15 (windowStart 10_000 (5 - 15)) st ⟨[], 0, 0⟩) ∧
    (sampleScan 105 [] [] = .ok ⟨[], 0, 0⟩ ∧
      ∀ st, ¬ Truthful sampleSweepPlatform (sampleView 105 [] []) 84532 sampleUser baseSepolia []
        sampleDepositAddress [] 105 15 (windowStart 10_000 (105 - 15)) st ⟨[], 0, 0⟩) := by
  refine ⟨⟨by decide +kernel, fun st h => ?_⟩, ⟨by decide +kernel, fun st h => ?_⟩⟩
  · have final := h.final
    revert final
    decide
  · have whole := h.whole (by decide) (by decide)
    revert whole
    decide

end DepositDiscovery
end Privana
