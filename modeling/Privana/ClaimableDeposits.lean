import Mathlib.Algebra.Order.BigOperators.Group.List
import Privana.DepositSoundness
import Privana.HistoryCodec

/-! Which inbound transfers can be claimed. A block lists what its transactions move; the
node renders the fields in either form, and an account's balance changes by what the
block moves. Every ERC-20 transfer can be claimed. A native one is looked for only in a
transaction without a matching log, and one that is not direct is measured by the balance
of the whole block. -/

namespace Privana.DepositVerifier
open BigEndian

def transferTopicBytes : Bytes :=
  word 0xddf252ad1be2c89b69c2b068fc378daa952ba7f163c4a11628f55a4df523b3ef

/-- The field is a rendering of the bytes. -/
def Denotes (field : HexField) (bs : Bytes) : Prop := lower field.hexString = hexText bs

/-- A transfer event of a token, as ERC-20 defines it. -/
structure Records (log : LogEntry) (token sender recipient : Address) (amount : U256) : Prop where
  address : Denotes log.address (packedAddress token)
  topics : ∃ topic0 fromTopic toTopic, log.topics = [topic0, fromTopic, toTopic] ∧
    Denotes topic0 transferTopicBytes ∧ Denotes fromTopic (word (addressWord sender)) ∧
    Denotes toTopic (word (addressWord recipient))
  data : Denotes log.data (word amount)

/-- A mined transaction, with what its calls pay and what it takes from accounts. -/
structure ChainTx where
  hash : Bytes32
  succeeded : Bool
  recipient : Option Address
  value : ℕ
  internal : List (Address × ℕ) := []
  spent : List (Address × ℕ) := []
  logs : List LogEntry := []
  deriving DecidableEq

def paidTo (a : Address) (payments : List (Address × ℕ)) : ℕ :=
  ((payments.filter (·.1 = a)).map Prod.snd).sum

theorem paidTo_le (a : Address) (payments : List (Address × ℕ)) :
    paidTo a payments ≤ (payments.map Prod.snd).sum :=
  (List.filter_sublist.map Prod.snd).sum_le_sum fun _ _ => Nat.zero_le _

def ChainTx.inflow (tx : ChainTx) (a : Address) : ℕ :=
  if tx.succeeded then (if tx.recipient = some a then tx.value else 0) + paidTo a tx.internal else 0

structure ChainBlock where
  number : ℕ
  txs : List ChainTx
  indices_nodup : ((txs.flatMap ChainTx.logs).map LogEntry.logIndex).Nodup

namespace ChainBlock

def inflow (b : ChainBlock) (a : Address) : ℕ := (b.txs.map (·.inflow a)).sum

def outflow (b : ChainBlock) (a : Address) : ℕ := (b.txs.map fun tx => paidTo a tx.spent).sum

theorem outflow_le (b : ChainBlock) (a : Address) :
    b.outflow a ≤ (b.txs.map fun tx => (tx.spent.map Prod.snd).sum).sum :=
  List.sum_le_sum fun _ _ => paidTo_le a _

end ChainBlock

/-- What a node answers about a block. -/
structure Reports (w3 : NodeView) (b : ChainBlock) : Prop where
  receipt : ∀ tx ∈ b.txs, w3.receipt tx.hash =
    some ⟨some (if tx.succeeded then 1 else 0), b.number, tx.logs⟩
  transaction : ∀ tx ∈ b.txs, ∃ nodeTx, w3.transaction tx.hash = some nodeTx ∧
    nodeTx.value = tx.value ∧ match tx.recipient with
      | some a => ∃ field, nodeTx.recipient = some field ∧ Denotes field (packedAddress a)
      | none => nodeTx.recipient = none
  balance : ∀ a, (w3.balance a b.number : ℤ) - w3.balance a (b.number - 1) =
    (b.inflow a : ℤ) - b.outflow a

/-- The transaction moves this much of an asset to the address. -/
inductive Inbound (tx : ChainTx) (a : Address) : Option Address → ℕ → Prop
  | erc20 {log : LogEntry} {token sender : Address} {amount : U256} (mem : log ∈ tx.logs)
      (records : Records log token sender a amount) : Inbound tx a (some token) amount.toNat
  | direct (recipient : tx.recipient = some a) : Inbound tx a none tx.value
  | internal {amount : ℕ} (mem : (a, amount) ∈ tx.internal) : Inbound tx a none amount

/-- The asset that a verification returns. -/
def VerifiedDeposit.IsOf (A : AddressLibrary) (d : VerifiedDeposit) : Option Address → Prop
  | none => d.isNative = true
  | some token => d.isNative = false ∧ d.tokenAddress.bind A.toChecksumAddress = some token

/-- Some log index makes `verify_deposit` accept the amount for the asset. -/
def CanBeClaimed (A : AddressLibrary) (configs : List ChainEntry)
    (nodes : U256 → Option NodeView) (chainId : U256) (tx : ChainTx) (a : Address)
    (asset : Option Address) (amount : ℕ) : Prop :=
  ∃ logIndex d, verifyDeposit chainId tx.hash a amount logIndex configs nodes = .ok d ∧
    d.IsOf A asset

/-- No log of the transaction is addressed to the deposit address, and the value of the
transaction covers the amount or, if it is not direct, the balance of the block does. -/
def Countable (b : ChainBlock) (tx : ChainTx) (a : Address) : Option Address → ℕ → Prop
  | some _, _ => True
  | none, amount => (∀ log ∈ tx.logs, log.isTransferTo a = false) ∧
    if tx.recipient = some a ∧ 0 < tx.value then amount ≤ tx.value
    else amount + b.outflow a ≤ b.inflow a

theorem packedAddress_injective {a b : Address} (h : packedAddress a = packedAddress b) : a = b := by
  rw [← address_packedAddress a, ← address_packedAddress b, h]

theorem addressText_injective {a b : Address} (h : addressText a = addressText b) : a = b :=
  packedAddress_injective (hexText_injective h)

theorem length_of_denotes {field : HexField} {bs : Bytes} (h : Denotes field bs) :
    field.hexString.length = 2 + 2 * bs.length := by
  have length := congrArg List.length h
  rw [lower, List.length_map, hexText, List.length_cons, List.length_cons, hexDigits_length]
    at length
  omega

theorem addressPart_of_denotes {field : HexField} {bs : Bytes} (h : Denotes field bs)
    (long : 20 ≤ bs.length) :
    lower field.addressPart = hexText (bs.drop (bs.length - 20)) := by
  cases field with
  | bytes as =>
    have same : as = bs := hexText_injective ((lower_hexText as).symm.trans h)
    rw [HexField.addressPart, lower_hexText, same]
  | str s =>
    have length := length_of_denotes h
    have tail : (hexText bs).drop (s.length - 40) = hexDigits (bs.drop (bs.length - 20)) := by
      rw [← hexDigits_drop, hexText, show s.length - 40 = 2 * (bs.length - 20) + 1 + 1 by
        simp only [HexField.hexString] at length; omega, List.drop_succ_cons, List.drop_succ_cons]
    have dropped : lower (s.drop (s.length - 40)) = (lower s).drop (s.length - 40) := List.map_drop
    have whole : lower s = hexText bs := h
    rw [HexField.addressPart, hexText, ← tail, ← whole, ← dropped]
    rfl

theorem drop_word_address (a : Address) : (word (addressWord a)).drop 12 = packedAddress a := by
  have same : (addressWord a).toNat = a.toNat := by
    rw [addressWord, BitVec.toNat_setWidth]
    exact Nat.mod_eq_of_lt (a.isLt.trans (by decide))
  rw [word, same]
  exact drop_encode 12 20 a.toNat

theorem isTransferTo_of_records {log : LogEntry} {token sender a : Address} {amount : U256}
    (h : Records log token sender a amount) : log.isTransferTo a = true := by
  obtain ⟨topic0, fromTopic, toTopic, topics, event, -, recipient⟩ := h.topics
  have part := addressPart_of_denotes recipient (by simp)
  have topic : lower transferEventTopic = hexText transferTopicBytes := by decide
  rw [word_length, show 32 - 20 = 12 from rfl, drop_word_address] at part
  simp only [LogEntry.isTransferTo, topics, Bool.and_eq_true, decide_eq_true_eq]
  exact ⟨event.trans topic.symm, part⟩

theorem amount_of_denotes {field : HexField} {amount : U256} (h : Denotes field (word amount)) :
    field.amount = some (amount.toNat : ℤ) := by
  have value : decode (word amount) = amount.toNat := by
    rw [word, decode_encode_of_lt]
    rw [word_width]
    exact amount.isLt
  cases field with
  | bytes bs =>
    have same : bs = word amount := hexText_injective ((lower_hexText bs).symm.trans h)
    rw [HexField.amount, same, List.take_of_length_le (word_length _).le, value]
  | str s =>
    have parsed := parseHex_of_lower h (List.ne_nil_of_length_pos (by simp))
    rw [value] at parsed
    cases s with
    | nil => cases h
    | cons c s => exact parsed

theorem selectTransfer_of_mem {ts : List (ℕ × LogEntry)} (nodup : (ts.map Prod.fst).Nodup)
    {t : ℕ × LogEntry} (h : t ∈ ts) : selectTransfer t.1 ts = .ok t := by
  have chosen : ∀ {u : ℕ × LogEntry}, u ∈ ts → (u.1 : ℤ) = t.1 → u = t := fun hu same =>
    List.inj_on_of_nodup_map nodup hu h (Int.ofNat.inj same)
  have mem : t ∈ ts.filter fun u => (u.1 : ℤ) = t.1 := List.mem_filter.mpr ⟨h, by simp⟩
  unfold selectTransfer
  split
  · rw [List.mem_singleton.mp h]
  · split
    · next none => rw [none] at mem; cases mem
    · next first rest cons =>
      have hfirst := List.mem_filter.mp (cons ▸ List.mem_cons_self : first ∈ _)
      rw [chosen hfirst.1 (by simpa using hfirst.2)]

/-- With log index 0 and no matching log, the value or the balance decides. -/
theorem verifyNative_iff {w3 : NodeView} {b : ChainBlock} {tx : ChainTx} (reports : Reports w3 b)
    (mem : tx ∈ b.txs) (chainId : U256) (a : Address) (amount : ℕ) :
    (∃ logIndex d, verifyNative chainId tx.hash a amount logIndex w3 b.number = .ok d) ↔
      if tx.recipient = some a ∧ 0 < tx.value then amount ≤ tx.value
      else amount + b.outflow a ≤ b.inflow a := by
  obtain ⟨nodeTx, known, value, recipient⟩ := reports.transaction tx mem
  have isTo : nodeTx.isTo a = true ↔ tx.recipient = some a := by
    cases sent : tx.recipient with
    | none =>
      rw [sent] at recipient
      simp [NodeTx.isTo, recipient]
    | some recipient' =>
      rw [sent] at recipient
      obtain ⟨field, shown, denotes⟩ := recipient
      have same : lower field.hexString = addressText recipient' := denotes
      simp only [NodeTx.isTo, shown, Option.any_some, same, decide_eq_true_eq, Option.some_inj]
      exact ⟨addressText_injective, congrArg _⟩
  have delta : balanceDelta a w3 b.number = (b.inflow a : ℤ) - b.outflow a := reports.balance a
  constructor
  · rintro ⟨logIndex, d, h⟩
    unfold verifyNative at h
    rw [known] at h
    dsimp only at h
    simp only [isTo, value, delta] at h
    split at h
    · cases h
    · split at h
      · next direct =>
        rw [if_pos direct]
        split at h
        · cases h
        · omega
      · next indirect =>
        rw [if_neg indirect]
        split at h
        · omega
        · cases h
  · intro enough
    refine ⟨0, nativeDeposit chainId tx.hash amount b.number, ?_⟩
    unfold verifyNative
    rw [known]
    dsimp only
    simp only [isTo, value, delta]
    rw [if_neg (not_not.mpr rfl)]
    split at enough
    · next direct => rw [if_pos direct, if_neg (by omega)]
    · next indirect => rw [if_neg indirect, if_pos (by omega)]

section Final
variable {A : AddressLibrary} {configs : List ChainEntry} {nodes : U256 → Option NodeView}
  {chainId : U256} {w3 : NodeView} {b : ChainBlock} {tx : ChainTx} {a : Address}
  (served : nodes chainId = some w3) (reports : Reports w3 b) (mem : tx ∈ b.txs)
  (succeeded : tx.succeeded = true)
  (final : b.number + getFinalityDepth configs chainId ≤ w3.latestBlock)

include served reports mem succeeded final

/-- A final, successful transaction is decided by its logs and its native payment. -/
theorem verifyDeposit_final (amount logIndex : ℤ) :
    verifyDeposit chainId tx.hash a amount logIndex configs nodes =
      verifyEvidence chainId tx.hash a amount logIndex w3 ⟨some 1, b.number, tx.logs⟩ := by
  have known := reports.receipt tx mem
  rw [succeeded, if_pos rfl] at known
  have deep : ¬ ((w3.latestBlock : ℤ) - b.number < getFinalityDepth configs chainId) := by omega
  unfold verifyDeposit
  rw [served]
  dsimp only
  rw [known]
  dsimp only
  rw [if_neg (not_not.mpr rfl), if_neg deep]

theorem erc20_canBeClaimed {log : LogEntry} {token sender : Address} {amount : U256}
    (hlog : log ∈ tx.logs) (records : Records log token sender a amount) :
    CanBeClaimed A configs nodes chainId tx a (some token) amount.toNat := by
  have inside : (log.logIndex, log) ∈ matchingTransfers ⟨some 1, b.number, tx.logs⟩ a :=
    List.mem_map.mpr ⟨log, List.mem_filter.mpr ⟨hlog, isTransferTo_of_records records⟩, rfl⟩
  have nodup : ((matchingTransfers ⟨some 1, b.number, tx.logs⟩ a).map Prod.fst).Nodup := by
    have all := b.indices_nodup
    rw [List.map_flatMap] at all
    have own : (tx.logs.map LogEntry.logIndex).Nodup := (List.nodup_flatMap.mp all).1 tx mem
    rw [matchingTransfers, List.map_map]
    exact own.sublist (List.filter_sublist.map _)
  have selected := selectTransfer_of_mem nodup inside
  have nonempty : log.address.hexString ≠ [] := by
    have length := length_of_denotes records.address
    intro empty
    rw [empty, packedAddress_length, List.length_nil] at length
    omega
  obtain ⟨d, hd, asset, token⟩ := verifyTransfer_ok selected (amount_of_denotes records.data) le_rfl nonempty
  refine ⟨log.logIndex, d, ?_, asset, by
    rw [token]; exact A.toChecksumAddress_hexText _ _ records.address⟩
  rw [verifyDeposit_final served reports mem succeeded final, verifyEvidence]
  split
  · next none => rw [none] at inside; cases inside
  · exact hd

theorem native_canBeClaimed_iff (amount : ℕ) :
    CanBeClaimed A configs nodes chainId tx a none amount ↔ Countable b tx a none amount := by
  have decided := verifyNative_iff reports mem chainId a amount
  have nil : matchingTransfers ⟨some 1, b.number, tx.logs⟩ a = [] ↔
      ∀ log ∈ tx.logs, log.isTransferTo a = false := matchingTransfers_eq_nil
  constructor
  · rintro ⟨logIndex, d, h, asset⟩
    rw [verifyDeposit_final served reports mem succeeded final, verifyEvidence] at h
    split at h
    · next none => exact ⟨nil.mp none, decided.mp ⟨logIndex, d, h⟩⟩
    · obtain ⟨-, -, -, -, -, -, -, -, -, erc20, -⟩ := verifyTransfer_eq_ok h
      rw [VerifiedDeposit.IsOf, erc20] at asset
      cases asset
  · rintro ⟨none, enough⟩
    obtain ⟨logIndex, d, h⟩ := decided.mpr enough
    refine ⟨logIndex, d, ?_, ?_⟩
    · rw [verifyDeposit_final served reports mem succeeded final, verifyEvidence, nil.mpr none]
      exact h
    · rw [(verifyNative_eq_ok (c := ⟨chainId, tx.hash, a, amount, logIndex⟩) h).2]
      rfl

end Final

/-- A final inbound transfer can be claimed exactly when its asset is a token, or its
native value is not hidden by a log or by what else the block takes from the address. -/
theorem deposits_claimable {A : AddressLibrary} {configs : List ChainEntry}
    {nodes : U256 → Option NodeView} {chainId : U256} {w3 : NodeView} {b : ChainBlock}
    {tx : ChainTx} {a : Address} {asset : Option Address} {amount : ℕ}
    (served : nodes chainId = some w3)
    (reports : Reports w3 b) (mem : tx ∈ b.txs) (succeeded : tx.succeeded = true)
    (final : b.number + getFinalityDepth configs chainId ≤ w3.latestBlock)
    (inbound : Inbound tx a asset amount) :
    CanBeClaimed A configs nodes chainId tx a asset amount ↔ Countable b tx a asset amount := by
  cases inbound with
  | erc20 hlog records =>
    exact iff_of_true (erc20_canBeClaimed served reports mem succeeded final hlog records) trivial
  | direct | internal => exact native_canBeClaimed_iff served reports mem succeeded final _

/-- A node that has the block, over accounts that held `base` before it. -/
def viewOf (b : ChainBlock) (latestBlock : ℕ) (base : Address → ℕ) : NodeView where
  receipt h := (b.txs.find? (·.hash = h)).map fun tx =>
    ⟨some (if tx.succeeded then 1 else 0), b.number, tx.logs⟩
  latestBlock := latestBlock
  transaction h := (b.txs.find? (·.hash = h)).map fun tx =>
    ⟨tx.recipient.map fun a => .bytes (packedAddress a), tx.value⟩
  balance a n := if n = b.number then base a + b.inflow a - b.outflow a else base a

theorem reports_viewOf {b : ChainBlock} {latestBlock : ℕ} {base : Address → ℕ}
    (nodup : (b.txs.map ChainTx.hash).Nodup) (funded : ∀ a, b.outflow a ≤ base a + b.inflow a) :
    Reports (viewOf b latestBlock base) b := by
  have found : ∀ tx ∈ b.txs, b.txs.find? (·.hash = tx.hash) = some tx := by
    intro tx mem
    have known : (b.txs.find? (·.hash = tx.hash)).isSome = true :=
      List.find?_isSome.mpr ⟨tx, mem, decide_eq_true rfl⟩
    obtain ⟨tx', htx'⟩ := Option.isSome_iff_exists.mp known
    have same : tx'.hash = tx.hash := by simpa using List.find?_some htx'
    rw [htx', List.inj_on_of_nodup_map nodup (List.mem_of_find?_eq_some htx') mem same]
  refine ⟨fun tx mem => ?_, fun tx mem => ?_, fun a => ?_⟩
  · simp only [viewOf, found tx mem, Option.map_some]
  · refine ⟨_, by simp only [viewOf, found tx mem, Option.map_some]; rfl, rfl, ?_⟩
    cases tx.recipient with
    | none => rfl
    | some a => exact ⟨_, rfl, lower_hexText _⟩
  · have before : (b.number : ℤ) - 1 ≠ b.number := by omega
    have covered := funded a
    simp only [viewOf, if_true, if_neg before]
    omega

/-- Anyone's token can emit such a log, here of amount 0. -/
def sampleTransferLog : LogEntry where
  address := .bytes (packedAddress 0x70ce)
  topics := [.bytes transferTopicBytes, .bytes (word (addressWord sampleDepositor)),
    .bytes (word (addressWord sampleDepositAddress))]
  data := .bytes (word 0)
  logIndex := 4

/-- A native deposit of 1 ETH in a transaction that also transfers a token. -/
def sampleMixedTx : ChainTx where
  hash := 1
  succeeded := true
  recipient := some sampleDepositAddress
  value := 1_000_000_000_000_000_000
  spent := [(sampleDepositor, 1_000_100_000_000_000_000)]
  logs := [sampleTransferLog]

def sampleMixedBlock : ChainBlock := ⟨100, [sampleMixedTx], by decide⟩

/-- A contract wallet's deposit of 1 ETH. -/
def sampleForwardedTx : ChainTx where
  hash := 2
  succeeded := true
  recipient := some sampleDepositor
  value := 0
  internal := [(sampleDepositAddress, 1_000_000_000_000_000_000)]
  spent := [(sampleDepositor, 1_000_100_000_000_000_000)]

def sampleForwardedBlock : ChainBlock := ⟨100, [sampleForwardedTx], by decide⟩

theorem deposits_claimable_forwarded :
    CanBeClaimed sampleAddresses (chainConfigs false)
        (fun _ => some (viewOf sampleForwardedBlock 200 fun _ => 2 ^ 64)) 84532 sampleForwardedTx
        sampleDepositAddress none 1_000_000_000_000_000_000 ↔
      Countable sampleForwardedBlock sampleForwardedTx sampleDepositAddress none
        1_000_000_000_000_000_000 :=
  deposits_claimable rfl
    (reports_viewOf (by decide) fun a =>
      le_add_right ((sampleForwardedBlock.outflow_le a).trans (by decide)))
    (by decide) rfl (by decide) (.internal (by decide))

/-- The sweep of an earlier deposit of half an ETH. -/
def sampleSweepTx : ChainTx where
  hash := 3
  succeeded := true
  recipient := some 0x4078
  value := 500_000_000_000_000_000
  spent := [(sampleDepositAddress, 500_100_000_000_000_000)]

def sampleSweptBlock : ChainBlock := ⟨100, [sampleForwardedTx, sampleSweepTx], by decide⟩

/-- The transfer is real and final, and no log index makes the verifier accept it. -/
structure Unclaimable (configs : List ChainEntry) (chainId : U256) (w3 : NodeView)
    (b : ChainBlock) (tx : ChainTx) (a : Address) (asset : Option Address) (amount : ℕ) : Prop where
  reports : Reports w3 b
  mem : tx ∈ b.txs
  succeeded : tx.succeeded = true
  final : b.number + getFinalityDepth configs chainId ≤ w3.latestBlock
  inbound : Inbound tx a asset amount
  refused : ∀ A, ¬ CanBeClaimed A configs (fun _ => some w3) chainId tx a asset amount

theorem unclaimable_of_not_countable {configs : List ChainEntry} {chainId : U256} {w3 : NodeView}
    {b : ChainBlock} {tx : ChainTx} {a : Address} {amount : ℕ} (reports : Reports w3 b)
    (mem : tx ∈ b.txs) (succeeded : tx.succeeded = true)
    (final : b.number + getFinalityDepth configs chainId ≤ w3.latestBlock)
    (inbound : Inbound tx a none amount) (hidden : ¬ Countable b tx a none amount) :
    Unclaimable configs chainId w3 b tx a none amount :=
  ⟨reports, mem, succeeded, final, inbound, fun _ claimed =>
    hidden ((native_canBeClaimed_iff rfl reports mem succeeded final amount).mp claimed)⟩

/-- A token log hides the native deposit beside it, and a sweep the one of its block. -/
theorem deposits_claimable_hidden :
    Unclaimable (chainConfigs false) 84532 (viewOf sampleMixedBlock 200 fun _ => 2 ^ 64)
      sampleMixedBlock sampleMixedTx sampleDepositAddress none 1_000_000_000_000_000_000 ∧
    Unclaimable (chainConfigs false) 84532 (viewOf sampleSweptBlock 200 fun _ => 2 ^ 64)
      sampleSweptBlock sampleForwardedTx sampleDepositAddress none 1_000_000_000_000_000_000 := by
  constructor
  · refine unclaimable_of_not_countable (reports_viewOf (by decide) ?_) (by decide) rfl (by decide)
      (.direct rfl) ?_
    · exact fun a => le_add_right ((sampleMixedBlock.outflow_le a).trans (by decide))
    · rintro ⟨none, -⟩
      exact absurd (none sampleTransferLog (by decide)) (by decide)
  · refine unclaimable_of_not_countable (reports_viewOf (by decide) ?_) (by decide) rfl (by decide)
      (.internal (by decide)) ?_
    · exact fun a => le_add_right ((sampleSweptBlock.outflow_le a).trans (by decide))
    · rintro ⟨-, covered⟩
      revert covered
      decide

end Privana.DepositVerifier
