import Privana.DepositVerifier
import Privana.WithdrawalPayout

/-! What a successful verification rests on, and that the deposit id names it: two ERC-20
verifications get one id exactly when they rest on one log of one transaction. -/

namespace Privana.DepositVerifier
open BigEndian

/-- The arguments of `verify_deposit`. -/
structure DepositClaim where
  chainId : U256
  txHash : Bytes32
  depositAddress : Address
  expectedAmount : ℤ
  logIndex : ℤ

def DepositClaim.verify (c : DepositClaim) (configs : List ChainEntry)
    (nodes : U256 → Option NodeView) : Except VerifyError VerifiedDeposit :=
  verifyDeposit c.chainId c.txHash c.depositAddress c.expectedAmount c.logIndex configs nodes

/-- The log says what the result says, and enough. -/
structure Supports (c : DepositClaim) (d : VerifiedDeposit) (log : LogEntry) : Prop where
  recipient : log.isTransferTo c.depositAddress = true
  token : d.tokenAddress = some log.address.hexString
  index : d.depositIndex = log.logIndex
  amount : ∃ onChain, log.data.amount = some onChain ∧ c.expectedAmount ≤ onChain

/-- The value of the transaction, or the balance of its block, supports the claim. -/
def Paid (c : DepositClaim) (w3 : NodeView) (txBlock : ℕ) : Prop :=
  (∃ tx, w3.transaction c.txHash = some tx ∧ tx.isTo c.depositAddress = true ∧
    c.expectedAmount ≤ tx.value) ∨
  c.expectedAmount ≤ balanceDelta c.depositAddress w3 txBlock

structure Verified (configs : List ChainEntry) (c : DepositClaim) (w3 : NodeView)
    (receipt : TxReceipt) (d : VerifiedDeposit) : Prop where
  status : receipt.status = some 1
  finality : receipt.blockNumber + getFinalityDepth configs c.chainId ≤ w3.latestBlock
  chainId : d.chainId = c.chainId
  txHash : d.txHash = c.txHash
  amount : d.amount = c.expectedAmount
  evidence : (d.isNative = false ∧ ∃ log ∈ receipt.logs, Supports c d log) ∨
    (d.isNative = true ∧ (∀ log ∈ receipt.logs, log.isTransferTo c.depositAddress = false) ∧
      Paid c w3 receipt.blockNumber)

/-- The log that the verification selects stands at place `k` of the receipt. -/
def DepositClaim.RestsOn (c : DepositClaim) (nodes : U256 → Option NodeView) (k : ℕ) : Prop :=
  ∃ w3 receipt index log, nodes c.chainId = some w3 ∧ w3.receipt c.txHash = some receipt ∧
    selectTransfer c.logIndex (matchingTransfers receipt c.depositAddress) = .ok (index, log) ∧
    receipt.logs[k]? = some log

def UniqueLogIndices (nodes : U256 → Option NodeView) : Prop :=
  ∀ chainId w3, nodes chainId = some w3 → ∀ h h' r r', w3.receipt h = some r →
    w3.receipt h' = some r' → r.blockNumber = r'.blockNumber → ∀ (k k' : ℕ) (l l' : LogEntry),
      r.logs[k]? = some l → r'.logs[k']? = some l' → l.logIndex = l'.logIndex → h = h' ∧ k = k'

/-- A later view has the same receipts; its head and its balances may differ. -/
def SameReceipts (nodes later : U256 → Option NodeView) : Prop :=
  ∀ chainId w3 w3', nodes chainId = some w3 → later chainId = some w3' →
    w3.receipt = w3'.receipt

theorem mem_matchingTransfers {receipt : TxReceipt} {a : Address} {t : ℕ × LogEntry}
    (h : t ∈ matchingTransfers receipt a) :
    t.2 ∈ receipt.logs ∧ t.2.isTransferTo a = true ∧ t.1 = t.2.logIndex := by
  obtain ⟨log, hlog, rfl⟩ := List.mem_map.mp h
  obtain ⟨mem, addressed⟩ := List.mem_filter.mp hlog
  exact ⟨mem, addressed, rfl⟩

theorem matchingTransfers_eq_nil {receipt : TxReceipt} {a : Address} :
    matchingTransfers receipt a = [] ↔ ∀ log ∈ receipt.logs, log.isTransferTo a = false := by
  simp [matchingTransfers, List.filter_eq_nil_iff]

theorem mem_of_selectTransfer {i : ℤ} {ts : List (ℕ × LogEntry)} {t : ℕ × LogEntry}
    (h : selectTransfer i ts = .ok t) : t ∈ ts := by
  unfold selectTransfer at h
  split at h
  · rw [← Except.ok.inj h]
    exact List.mem_singleton_self _
  · split at h
    · cases h
    · next transfer rest chosen =>
      rw [← Except.ok.inj h]
      exact List.mem_of_mem_filter (chosen ▸ List.mem_cons_self)

theorem verifyTransfer_eq_ok {chainId : U256} {txHash : Bytes32} {claimed i : ℤ} {txBlock : ℕ}
    {ts : List (ℕ × LogEntry)} {d : VerifiedDeposit}
    (h : verifyTransfer chainId txHash claimed i txBlock ts = .ok d) :
    ∃ index log onChain, selectTransfer i ts = .ok (index, log) ∧
      log.data.amount = some onChain ∧ claimed ≤ onChain ∧ d.chainId = chainId ∧
      d.txHash = txHash ∧ d.amount = claimed ∧ d.isNative = false ∧
      d.tokenAddress = some log.address.hexString ∧ d.depositIndex = index := by
  unfold verifyTransfer at h
  split at h
  · cases h
  · next index log selected =>
    split at h
    · cases h
    · next onChain amount =>
      split at h
      · cases h
      · next enough =>
        split at h
        · cases h
        · cases h
          exact ⟨index, log, onChain, selected, amount, not_lt.mp enough, rfl, rfl, rfl, rfl, rfl,
            rfl⟩

theorem verifyTransfer_ok {chainId : U256} {txHash : Bytes32} {claimed i onChain : ℤ} {txBlock index : ℕ}
    {ts : List (ℕ × LogEntry)} {log : LogEntry} (selected : selectTransfer i ts = .ok (index, log))
    (amount : log.data.amount = some onChain) (enough : claimed ≤ onChain)
    (nonempty : log.address.hexString ≠ []) :
    ∃ d, verifyTransfer chainId txHash claimed i txBlock ts = .ok d ∧ d.isNative = false ∧
      d.tokenAddress = some log.address.hexString := by
  unfold verifyTransfer
  rw [selected]
  dsimp only
  rw [amount]
  dsimp only
  rw [if_neg (not_lt.mpr enough), dif_neg nonempty]
  exact ⟨_, rfl, rfl, rfl⟩

theorem verifyNative_eq_ok {c : DepositClaim} {w3 : NodeView} {txBlock : ℕ} {d : VerifiedDeposit}
    (h : verifyNative c.chainId c.txHash c.depositAddress c.expectedAmount c.logIndex w3 txBlock =
      .ok d) :
    Paid c w3 txBlock ∧ d = nativeDeposit c.chainId c.txHash c.expectedAmount txBlock := by
  unfold verifyNative at h
  split at h
  · cases h
  · split at h
    · cases h
    · next tx known =>
      split at h
      · next direct =>
        split at h
        · cases h
        · next enough => exact ⟨.inl ⟨tx, known, direct.1, not_lt.mp enough⟩, (Except.ok.inj h).symm⟩
      · split at h
        · next enough => exact ⟨.inr enough, (Except.ok.inj h).symm⟩
        · cases h

/-- A success went through every check, and one of the two last parts. -/
theorem verify_eq_ok {configs : List ChainEntry} {nodes : U256 → Option NodeView}
    {c : DepositClaim} {d : VerifiedDeposit} (h : c.verify configs nodes = .ok d) :
    ∃ w3 receipt, nodes c.chainId = some w3 ∧ w3.receipt c.txHash = some receipt ∧
      receipt.status = some 1 ∧
      receipt.blockNumber + getFinalityDepth configs c.chainId ≤ w3.latestBlock ∧
      ((matchingTransfers receipt c.depositAddress = [] ∧
        verifyNative c.chainId c.txHash c.depositAddress c.expectedAmount c.logIndex w3
          receipt.blockNumber = .ok d) ∨
       verifyTransfer c.chainId c.txHash c.expectedAmount c.logIndex receipt.blockNumber
        (matchingTransfers receipt c.depositAddress) = .ok d) := by
  unfold DepositClaim.verify verifyDeposit at h
  split at h
  · cases h
  · next w3 served =>
    split at h
    · cases h
    · next receipt known =>
      split at h
      · cases h
      · next status hstatus =>
        split at h
        · cases h
        · next success =>
          dsimp only at h
          split at h
          · cases h
          · next deep =>
            refine ⟨w3, receipt, served, known, by rw [hstatus, not_not.mp success], by omega, ?_⟩
            unfold verifyEvidence at h
            split at h
            · next none => exact .inl ⟨none, h⟩
            · exact .inr h

/-- Soundness: success rests on a final, successful transaction that pays enough. -/
theorem verified_of_verify {configs : List ChainEntry} {nodes : U256 → Option NodeView}
    {c : DepositClaim} {d : VerifiedDeposit} (h : c.verify configs nodes = .ok d) :
    ∃ w3 receipt, nodes c.chainId = some w3 ∧ w3.receipt c.txHash = some receipt ∧
      Verified configs c w3 receipt d := by
  obtain ⟨w3, receipt, served, known, status, finality, native | erc20⟩ := verify_eq_ok h
  · obtain ⟨none, native⟩ := native
    obtain ⟨paid, rfl⟩ := verifyNative_eq_ok native
    exact ⟨w3, receipt, served, known, status, finality, rfl, rfl, rfl,
      .inr ⟨rfl, matchingTransfers_eq_nil.mp none, paid⟩⟩
  · obtain ⟨index, log, onChain, selected, amount, enough, chainId, txHash, claimed, asset, token,
      place⟩ := verifyTransfer_eq_ok erc20
    obtain ⟨mem, recipient, indexed⟩ := mem_matchingTransfers (mem_of_selectTransfer selected)
    exact ⟨w3, receipt, served, known, status, finality, chainId, txHash, claimed,
      .inl ⟨asset, log, mem, recipient, token, place.trans indexed, onChain, amount, enough⟩⟩

/-- An ERC-20 verification rests on the log it selected. -/
theorem restsOn_of_verify {configs : List ChainEntry} {nodes : U256 → Option NodeView}
    {c : DepositClaim} {d : VerifiedDeposit} (h : c.verify configs nodes = .ok d)
    (erc20 : d.isNative = false) :
    ∃ (w3 : NodeView) (receipt : TxReceipt) (log : LogEntry) (k : ℕ),
      nodes c.chainId = some w3 ∧ w3.receipt c.txHash = some receipt ∧
      selectTransfer c.logIndex (matchingTransfers receipt c.depositAddress) =
        .ok (d.depositIndex, log) ∧
      receipt.logs[k]? = some log ∧ d.depositIndex = log.logIndex ∧
      d.tokenAddress = some log.address.hexString ∧ d.chainId = c.chainId ∧
      d.txHash = c.txHash := by
  obtain ⟨w3, receipt, served, known, -, -, native | transfer⟩ := verify_eq_ok h
  · obtain ⟨-, rfl⟩ := verifyNative_eq_ok native.2
    cases erc20
  · obtain ⟨index, log, -, selected, -, -, chainId, txHash, -, -, token, rfl⟩ :=
      verifyTransfer_eq_ok transfer
    obtain ⟨mem, -, indexed⟩ := mem_matchingTransfers (mem_of_selectTransfer selected)
    obtain ⟨k, place⟩ := List.mem_iff_getElem?.mp mem
    exact ⟨w3, receipt, log, k, served, known, selected, place, indexed, token, chainId, txHash⟩

/-- The bytes that `compute_deposit_id` hashes for a result. -/
def VerifiedDeposit.idEncodings (P : Platform) (d : VerifiedDeposit) : Set Bytes :=
  {bs | ∃ tokenId, d.tokenId P = some tokenId ∧
    bs = abiEncode [d.chainId, d.txHash, tokenId, BitVec.ofNat 256 d.depositIndex]}

theorem depositId_eq_some {P : Platform} {d : VerifiedDeposit} {i : Bytes32}
    (h : d.depositId P = some i) :
    d.depositIndex < 2 ^ 256 ∧ ∃ tokenId, d.tokenId P = some tokenId ∧
      i = P.keccak256
        (abiEncode [d.chainId, d.txHash, tokenId, BitVec.ofNat 256 d.depositIndex]) := by
  obtain ⟨tokenId, token, h⟩ := Option.bind_eq_some_iff.mp h
  obtain ⟨fits, h⟩ := Option.ite_none_right_eq_some.mp h
  exact ⟨fits, tokenId, token, (Option.some.inj h).symm⟩

/-- What an id determines: the chain, the transaction and the log index. -/
theorem eq_of_depositId_eq {P : Platform} {d d' : VerifiedDeposit} {i : Bytes32}
    (inj : Set.InjOn P.keccak256 (d.idEncodings P ∪ d'.idEncodings P))
    (h : d.depositId P = some i) (h' : d'.depositId P = some i) :
    d.chainId = d'.chainId ∧ d.txHash = d'.txHash ∧ d.depositIndex = d'.depositIndex := by
  obtain ⟨fits, tokenId, token, rfl⟩ := depositId_eq_some h
  obtain ⟨fits', tokenId', token', hash⟩ := depositId_eq_some h'
  have words := abiEncode_injective
    (inj (.inl ⟨tokenId, token, rfl⟩) (.inr ⟨tokenId', token', rfl⟩) hash)
  simp only [List.cons.injEq, and_true] at words
  obtain ⟨chainId, txHash, -, index⟩ := words
  have index := congrArg BitVec.toNat index
  rw [BitVec.toNat_ofNat, BitVec.toNat_ofNat, Nat.mod_eq_of_lt fits, Nat.mod_eq_of_lt fits'] at index
  exact ⟨chainId, txHash, index⟩

theorem depositId_congr {P : Platform} {d d' : VerifiedDeposit} (chainId : d.chainId = d'.chainId)
    (txHash : d.txHash = d'.txHash) (token : d.tokenAddress = d'.tokenAddress)
    (index : d.depositIndex = d'.depositIndex) : d.depositId P = d'.depositId P := by
  simp only [VerifiedDeposit.depositId, VerifiedDeposit.tokenId, chainId, txHash, token, index]

section Identity
variable {P : Platform} {configs : List ChainEntry} {nodes later : U256 → Option NodeView}
  {c c' : DepositClaim} {d d' : VerifiedDeposit}

/-- Equal ids come from one log. -/
theorem restsOn_of_depositId_eq (unique : UniqueLogIndices nodes) (same : SameReceipts nodes later)
    (h : c.verify configs nodes = .ok d) (h' : c'.verify configs later = .ok d')
    (erc20 : d.isNative = false) (erc20' : d'.isNative = false)
    (chainId : d.chainId = d'.chainId) (txHash : d.txHash = d'.txHash)
    (index : d.depositIndex = d'.depositIndex) :
    ∃ k, c.RestsOn nodes k ∧ c'.RestsOn later k := by
  obtain ⟨w3, receipt, log, k, served, known, selected, place, indexed, -, atChain, atTx⟩ :=
    restsOn_of_verify h erc20
  obtain ⟨w3', receipt', log', k', served', known', selected', place', indexed', -, atChain', atTx'⟩ :=
    restsOn_of_verify h' erc20'
  have chains : c.chainId = c'.chainId := by rw [← atChain, ← atChain', chainId]
  have txs : c.txHash = c'.txHash := by rw [← atTx, ← atTx', txHash]
  have receipts : receipt = receipt' := by
    have shared := same _ _ _ served (chains ▸ served')
    rw [shared, txs, known'] at known
    exact (Option.some.inj known).symm
  subst receipts
  have places := (unique _ _ served _ _ _ _ known known rfl k k' log log' place place'
    (by rw [← indexed, ← indexed', index])).2
  subst places
  exact ⟨k, ⟨w3, receipt, _, log, served, known, selected, place⟩,
    ⟨w3', receipt, _, log', served', known', selected', place'⟩⟩

/-- One log has one id, whatever the log index of the claim and the two views are. -/
theorem depositId_eq_of_restsOn (same : SameReceipts nodes later)
    (h : c.verify configs nodes = .ok d) (h' : c'.verify configs later = .ok d')
    (erc20 : d.isNative = false) (erc20' : d'.isNative = false) (chains : c.chainId = c'.chainId)
    (txs : c.txHash = c'.txHash) {k : ℕ} (rests : c.RestsOn nodes k)
    (rests' : c'.RestsOn later k) : d.depositId P = d'.depositId P := by
  obtain ⟨w3, receipt, log, -, served, known, selected, -, indexed, token, atChain, atTx⟩ :=
    restsOn_of_verify h erc20
  obtain ⟨w3', receipt', log', -, served', known', selected', -, indexed', token', atChain', atTx'⟩ :=
    restsOn_of_verify h' erc20'
  obtain ⟨v, r, i, l, hv, hr, hl, place⟩ := rests
  obtain ⟨v', r', i', l', hv', hr', hl', place'⟩ := rests'
  obtain rfl := Option.some.inj (hv.symm.trans served)
  obtain rfl := Option.some.inj (hr.symm.trans known)
  obtain rfl := Option.some.inj (hv'.symm.trans served')
  obtain rfl := Option.some.inj (hr'.symm.trans known')
  have receipts : r = r' := by
    have shared := same _ _ _ hv (chains ▸ hv')
    rw [shared, txs, hr'] at hr
    exact (Option.some.inj hr).symm
  subst receipts
  have logs : log = log' := by
    have first : l = log := (Prod.mk.inj (Except.ok.inj (hl.symm.trans selected))).2
    have second : l' = log' := (Prod.mk.inj (Except.ok.inj (hl'.symm.trans selected'))).2
    rw [← first, ← second]
    exact Option.some.inj (place.symm.trans place')
  subst logs
  exact depositId_congr (by rw [atChain, atChain', chains]) (by rw [atTx, atTx', txs])
    (token.trans token'.symm) (indexed.trans indexed'.symm)

end Identity

/-- Deposit verification is sound, and the ids of two ERC-20 verifications agree exactly
when both rest on the same log of the same transaction. -/
theorem deposit_verification (P : Platform) (configs : List ChainEntry) :
    (∀ nodes (c : DepositClaim) d, c.verify configs nodes = .ok d →
      ∃ w3 receipt, nodes c.chainId = some w3 ∧ w3.receipt c.txHash = some receipt ∧
        Verified configs c w3 receipt d) ∧
    ∀ nodes later, UniqueLogIndices nodes → SameReceipts nodes later →
      ∀ (c c' : DepositClaim) d d' id id', c.verify configs nodes = .ok d →
        c'.verify configs later = .ok d' → d.isNative = false → d'.isNative = false →
        d.depositId P = some id → d'.depositId P = some id' →
        Set.InjOn P.keccak256 (d.idEncodings P ∪ d'.idEncodings P) →
        (id = id' ↔ c.chainId = c'.chainId ∧ c.txHash = c'.txHash ∧
          ∃ k, c.RestsOn nodes k ∧ c'.RestsOn later k) := by
  refine ⟨fun nodes c d h => verified_of_verify h, ?_⟩
  intro nodes later unique same c c' d d' id id' h h' erc20 erc20' hid hid' inj
  have atChain : d.chainId = c.chainId ∧ d.txHash = c.txHash := by
    obtain ⟨-, -, -, -, -, -, -, -, -, -, chainId, txHash⟩ := restsOn_of_verify h erc20
    exact ⟨chainId, txHash⟩
  have atChain' : d'.chainId = c'.chainId ∧ d'.txHash = c'.txHash := by
    obtain ⟨-, -, -, -, -, -, -, -, -, -, chainId, txHash⟩ := restsOn_of_verify h' erc20'
    exact ⟨chainId, txHash⟩
  constructor
  · rintro rfl
    obtain ⟨chainId, txHash, index⟩ := eq_of_depositId_eq inj hid hid'
    exact ⟨by rw [← atChain.1, ← atChain'.1, chainId], by rw [← atChain.2, ← atChain'.2, txHash],
      restsOn_of_depositId_eq unique same h h' erc20 erc20' chainId txHash index⟩
  · rintro ⟨chains, txs, k, rests, rests'⟩
    have ids := depositId_eq_of_restsOn (P := P) same h h' erc20 erc20' chains txs rests rests'
    rw [hid, hid'] at ids
    exact Option.some.inj ids

def sampleDepositor : Address := 0xb0b

def sampleDepositAddress : Address := 0xdec0de

/-- A transaction that pays one dollar into the deposit address twice, by two logs. -/
def samplePaidTwice : TxReceipt where
  status := some 1
  blockNumber := 90
  logs := [0, 3].map fun logIndex =>
    { address := .bytes (packedAddress 0x036cbd53842c5426634e7929541ec2318f3dcf7e)
      topics := [.str transferEventTopic, .bytes (word (addressWord sampleDepositor)),
        .bytes (word (addressWord sampleDepositAddress))]
      data := .bytes (word 1_000_000)
      logIndex }

def samplePaidTx : Bytes32 := 0xc28aba9a58689b7afcf8a47af32b655cc5522a94200d870e65ff1df1a710d53c

/-- What the nodes show at a head; only the transaction is known to them. -/
def sampleNodes (head : ℕ) : U256 → Option NodeView := fun chainId =>
  if chainId = 84532 then
    some ⟨fun h => if h = samplePaidTx then some samplePaidTwice else none, head, fun _ => none,
      fun _ _ => 0⟩
  else none

def sampleClaim (logIndex : ℕ) : DepositClaim :=
  ⟨84532, samplePaidTx, sampleDepositAddress, 1_000_000, logIndex⟩

def sampleVerified (logIndex : ℕ) : VerifiedDeposit where
  chainId := 84532
  txHash := samplePaidTx
  amount := 1_000_000
  isNative := false
  tokenAddress := some (addressText 0x036cbd53842c5426634e7929541ec2318f3dcf7e)
  depositIndex := logIndex
  blockNumber := 90
  native_token h := by cases h
  erc20_token _ := ⟨_, rfl, List.cons_ne_nil _ _⟩

def sampleIdEncoding (logIndex : ℕ) : Bytes :=
  abiEncode [84532, samplePaidTx, sampleTokenId, BitVec.ofNat 256 logIndex]

def sampleIds : List (Bytes × Bytes32) :=
  [(sampleIdEncoding 0, 0xd6c7149af99d04ce4632266b999fb659cae5b8223a2af2cd7b18706b6b84a8ff),
    (sampleIdEncoding 3, 0x3b813f041faedb254d556fa80810ae227aceb5fac79032aed495bfa0145c3a1f)]

def sampleDepositPlatform : Platform :=
  { samplePlatform with
    keccak256 := fun bs => ((sampleKeccak ++ sampleIds).lookup bs).getD 0 }

theorem sampleNodes_known {head : ℕ} {chainId : U256} {w3 : NodeView} {h : Bytes32} {r : TxReceipt}
    (served : sampleNodes head chainId = some w3) (known : w3.receipt h = some r) :
    h = samplePaidTx ∧ r = samplePaidTwice := by
  unfold sampleNodes at served
  split at served
  · obtain rfl := Option.some.inj served
    dsimp only at known
    split at known
    · next tx => exact ⟨tx, (Option.some.inj known).symm⟩
    · cases known
  · cases served

theorem sampleNodes_unique (head : ℕ) : UniqueLogIndices (sampleNodes head) := by
  intro chainId w3 served h h' r r' known known' _ k k' l l' place place' index
  obtain ⟨rfl, rfl⟩ := sampleNodes_known served known
  obtain ⟨rfl, rfl⟩ := sampleNodes_known served known'
  have nodup : (samplePaidTwice.logs.map LogEntry.logIndex).Nodup := by decide
  have inside : k < (samplePaidTwice.logs.map LogEntry.logIndex).length := by
    rw [List.length_map]
    exact (List.getElem?_eq_some_iff.mp place).1
  refine ⟨rfl, (List.getElem?_inj inside nodup).mp ?_⟩
  rw [List.getElem?_map, List.getElem?_map, place, place', Option.map_some, Option.map_some, index]

theorem sampleNodes_later (head later : ℕ) :
    SameReceipts (sampleNodes head) (sampleNodes later) := by
  intro chainId w3 w3' served served'
  unfold sampleNodes at served served'
  split at served
  · next chain =>
    rw [if_pos chain] at served'
    obtain rfl := Option.some.inj served
    obtain rfl := Option.some.inj served'
    rfl
  · cases served

theorem sampleVerified_tokenId (logIndex : ℕ) :
    (sampleVerified logIndex).tokenId sampleDepositPlatform = some sampleTokenId := by
  have address := sampleDepositPlatform.toChecksumAddress_hexText
    (addressText 0x036cbd53842c5426634e7929541ec2318f3dcf7e) _ (lower_hexText _)
  simp only [VerifiedDeposit.tokenId, sampleVerified, address, Option.map_some]
  decide +kernel

theorem eq_of_mem_sampleIdEncodings {logIndex : ℕ} {bs : Bytes}
    (mem : bs ∈ (sampleVerified logIndex).idEncodings sampleDepositPlatform) :
    bs = sampleIdEncoding logIndex := by
  have ⟨tokenId, token, encoded⟩ := mem
  have same := Option.some.inj ((sampleVerified_tokenId logIndex).symm.trans token)
  rw [encoded, ← same, sampleIdEncoding, sampleVerified]

theorem sampleIds_apart : sampleDepositPlatform.keccak256 (sampleIdEncoding 0) ≠
    sampleDepositPlatform.keccak256 (sampleIdEncoding 3) := by
  decide +kernel

theorem sampleVerified_injOn : Set.InjOn sampleDepositPlatform.keccak256
    ((sampleVerified 0).idEncodings sampleDepositPlatform ∪
      (sampleVerified 3).idEncodings sampleDepositPlatform) := by
  intro x hx y hy same
  rcases hx with hx | hx <;> rcases hy with hy | hy <;>
    obtain rfl := eq_of_mem_sampleIdEncodings hx <;> obtain rfl := eq_of_mem_sampleIdEncodings hy
  · rfl
  · exact absurd same sampleIds_apart
  · exact absurd same.symm sampleIds_apart
  · rfl

theorem sampleClaim_verify :
    (sampleClaim 0).verify (chainConfigs false) (sampleNodes 120) = .ok (sampleVerified 0) ∧
      (sampleClaim 0).verify (chainConfigs false) (sampleNodes 200) = .ok (sampleVerified 0) ∧
      (sampleClaim 3).verify (chainConfigs false) (sampleNodes 200) = .ok (sampleVerified 3) := by
  decide +kernel

theorem sampleVerified_depositId :
    (sampleVerified 0).depositId sampleDepositPlatform =
        some 0xd6c7149af99d04ce4632266b999fb659cae5b8223a2af2cd7b18706b6b84a8ff ∧
      (sampleVerified 3).depositId sampleDepositPlatform =
        some 0x3b813f041faedb254d556fa80810ae227aceb5fac79032aed495bfa0145c3a1f := by
  simp only [VerifiedDeposit.depositId, sampleVerified_tokenId, Option.bind_some]
  decide +kernel

/-- Two claims of the one log rest on it at both heads; those of the two logs rest on no
common one. -/
theorem deposit_verification_paid_twice :
    (∃ k, (sampleClaim 0).RestsOn (sampleNodes 120) k ∧
      (sampleClaim 0).RestsOn (sampleNodes 200) k) ∧
    ¬ ∃ k, (sampleClaim 0).RestsOn (sampleNodes 120) k ∧
      (sampleClaim 3).RestsOn (sampleNodes 200) k := by
  have ids := (deposit_verification sampleDepositPlatform (chainConfigs false)).2 (sampleNodes 120)
    (sampleNodes 200) (sampleNodes_unique 120) (sampleNodes_later 120 200)
  obtain ⟨first, again, second⟩ := sampleClaim_verify
  obtain ⟨firstId, secondId⟩ := sampleVerified_depositId
  have injOn := sampleVerified_injOn.mono Set.subset_union_left
  constructor
  · exact ((ids _ _ _ _ _ _ first again rfl rfl firstId firstId
      (by rwa [Set.union_self])).mp rfl).2.2
  · intro shared
    have same := (ids _ _ _ _ _ _ first second rfl rfl firstId secondId sampleVerified_injOn).mpr
      ⟨rfl, rfl, shared⟩
    revert same
    decide

end Privana.DepositVerifier
