import Privana.Accounting

/-! The packed history payloads and their reader `_decode_history_payload`: a token
id, an amount, and either the deposit id or the counterparty, told apart by the
kind of the entry and checked by length. -/

namespace Privana
open BigEndian CheckedArithmetic

structure DecodedPayload where
  tokenId : Bytes32
  amount : U256
  counterparty : Option Address
  depositId : Option Bytes32
  deriving DecidableEq

/-- `History payload for {kind} must be {expected} bytes, got {actual} bytes`. -/
structure PayloadLengthError where
  kind : HistoryKind
  expected : ℕ
  actual : ℕ
  deriving DecidableEq

def historyTokenIdLen : ℕ := 32
def historyAmountLen : ℕ := 32
def historyDepositIdLen : ℕ := 32
def historyAddressLen : ℕ := 20

def historyDepositPayloadLen : ℕ := historyTokenIdLen + historyAmountLen + historyDepositIdLen

def historyCounterpartyPayloadLen : ℕ := historyTokenIdLen + historyAmountLen + historyAddressLen

def decodeHistoryPayload (kind : HistoryKind) (payload : Bytes) :
    Except PayloadLengthError DecodedPayload := do
  let expectedLen :=
    if kind = .Deposit then historyDepositPayloadLen else historyCounterpartyPayloadLen
  revertIf (payload.length ≠ expectedLen) ⟨kind, expectedLen, payload.length⟩
  let tokenId := ofBytes (payload.take historyTokenIdLen)
  let amount := ofBytes ((payload.drop historyTokenIdLen).take historyAmountLen)
  let tail := payload.drop (historyTokenIdLen + historyAmountLen)
  if kind = .Deposit then return ⟨tokenId, amount, none, some (ofBytes tail)⟩
  else return ⟨tokenId, amount, some (BitVec.ofNat 160 (decode tail)), none⟩

theorem drop_word (x : BitVec 256) (bs : Bytes) : (word x ++ bs).drop 32 = bs := by
  rw [List.drop_append_of_le_length (by simp), List.drop_of_length_le (by simp), List.nil_append]

theorem drop_two_words (x y : BitVec 256) (bs : Bytes) :
    (word x ++ (word y ++ bs)).drop (32 + 32) = bs := by
  rw [← List.drop_drop, drop_word, drop_word]

/-- The reader gives back what `creditDeposit` packed. -/
theorem decodeHistoryPayload_deposit (t n d : BitVec 256) :
    decodeHistoryPayload .Deposit (word t ++ word n ++ word d) = .ok ⟨t, n, none, some d⟩ := by
  simp [decodeHistoryPayload, historyDepositPayloadLen, historyTokenIdLen, historyAmountLen,
    historyDepositIdLen, revertIf, drop_two_words, bind, Except.bind, pure,
    Except.pure]

/-- The reader gives back what `_appendUserCounterpartyHistory` packed. -/
theorem decodeHistoryPayload_counterparty {kind : HistoryKind} (hk : kind ≠ .Deposit)
    (t n : BitVec 256) (c : Address) :
    decodeHistoryPayload kind (word t ++ word n ++ packedAddress c) = .ok ⟨t, n, some c, none⟩ := by
  simp [decodeHistoryPayload, historyCounterpartyPayloadLen, historyTokenIdLen, historyAmountLen,
    historyAddressLen, revertIf, drop_two_words, bind, Except.bind, pure, Except.pure, hk, address_packedAddress]

/-- The kinds whose amount came to the user from elsewhere. -/
@[grind =]
def HistoryKind.Incoming (k : HistoryKind) : Prop :=
  k = .Deposit ∨ k = .TransferBalanceIn ∨ k = .TransferFromLockIn ∨ k = .TransferToLockIn

/-- The kinds whose amount left the user, given the counterparty of the entry. -/
@[grind =]
def HistoryKind.Outgoing (k : HistoryKind) (u : Address) (counterparty : Option Address) : Prop :=
  k = .TransferToLockOut ∨ k = .Withdraw ∨
    ((k = .TransferBalanceOut ∨ k = .TransferFromLockOut) ∧ counterparty ≠ some u)

instance (k : HistoryKind) : Decidable k.Incoming := by unfold HistoryKind.Incoming; infer_instance

instance (k : HistoryKind) (u : Address) (c : Option Address) : Decidable (k.Outgoing u c) := by
  unfold HistoryKind.Outgoing
  infer_instance

namespace HistoryEntry

def incoming (t : Bytes32) (e : HistoryEntry) : ℕ :=
  match decodeHistoryPayload e.kind e.payload with
  | .ok d => if d.tokenId = t ∧ e.kind.Incoming then d.amount.toNat else 0
  | .error _ => 0

def outgoing (u : Address) (t : Bytes32) (e : HistoryEntry) : ℕ :=
  match decodeHistoryPayload e.kind e.payload with
  | .ok d => if d.tokenId = t ∧ e.kind.Outgoing u d.counterparty then d.amount.toNat else 0
  | .error _ => 0

/-- The entry is readable and speaks of amount `n` of token `t`. -/
def Carries (e : HistoryEntry) (t : Bytes32) (n : ℕ) : Prop :=
  ∃ d, decodeHistoryPayload e.kind e.payload = .ok d ∧ d.tokenId = t ∧ d.amount.toNat = n

/-- The entry `creditDeposit` appends. -/
def deposit (m : Msg) (t : Bytes32) (n : U256) (d : Bytes32) : HistoryEntry :=
  ⟨.Deposit, m.timestamp.setWidth 64, word t ++ word n ++ word d⟩

/-- The entry `_appendUserCounterpartyHistory` appends. -/
def withCounterparty (m : Msg) (kind : HistoryKind) (t : Bytes32) (n : U256) (c : Address) :
    HistoryEntry :=
  ⟨kind, m.timestamp.setWidth 64, word t ++ word n ++ packedAddress c⟩

variable (m : Msg) (t : Bytes32) (n : U256) (d : Bytes32) (c : Address)

theorem deposit_carries : (deposit m t n d).Carries t n.toNat :=
  ⟨_, decodeHistoryPayload_deposit t n d, rfl, rfl⟩

@[simp] theorem deposit_incoming (t' : Bytes32) :
    (deposit m t n d).incoming t' = if t = t' then n.toNat else 0 := by
  simp only [incoming, deposit, decodeHistoryPayload_deposit]
  simp [HistoryKind.Incoming]

@[simp] theorem deposit_outgoing (u : Address) (t' : Bytes32) :
    (deposit m t n d).outgoing u t' = 0 := by
  simp only [outgoing, deposit, decodeHistoryPayload_deposit]
  simp [HistoryKind.Outgoing]

variable {kind : HistoryKind} (hk : kind ≠ .Deposit)
include hk

theorem withCounterparty_carries : (withCounterparty m kind t n c).Carries t n.toNat :=
  ⟨_, decodeHistoryPayload_counterparty hk t n c, rfl, rfl⟩

@[grind =] theorem withCounterparty_incoming (t' : Bytes32) :
    (withCounterparty m kind t n c).incoming t' =
      if t = t' ∧ kind.Incoming then n.toNat else 0 := by
  simp only [incoming, withCounterparty, decodeHistoryPayload_counterparty hk]
  rfl

@[grind =] theorem withCounterparty_outgoing (u : Address) (t' : Bytes32) :
    (withCounterparty m kind t n c).outgoing u t' =
      if t = t' ∧ kind.Outgoing u (some c) then n.toNat else 0 := by
  simp only [outgoing, withCounterparty, decodeHistoryPayload_counterparty hk]
  rfl

end HistoryEntry

end Privana
