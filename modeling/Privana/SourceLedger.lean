import Privana.AccountingStep

/-! The source chains: balances, nonces and the transactions their nodes have mined. A
transaction is mined at most once, under the next nonce of its sender; if it succeeds
it moves what its value, or its ERC-20 call, says. -/

namespace Privana
open BigEndian

structure Payment where
  token : Option Address
  recipient : Address
  amount : U256
  deriving DecidableEq

/-- What a transaction moves: its value, or the arguments of its ERC-20 `transfer`. -/
def EthTx.payment (t : EthTx) : Payment :=
  if t.data = [] then ⟨none, t.toAddress, t.value⟩
  else ⟨some t.toAddress, (ofBytes ((t.data.drop 4).take 32)).setWidth 160,
    ofBytes ((t.data.drop 36).take 32)⟩

theorem payment_transferTx (P : Platform) (gasLimit : TokenType → U64)
    (target : U256 × Option Address) (recipient : Address) (amount : U256) (nonce : U64)
    (gasPrice : U256) :
    (transferTx P gasLimit target recipient amount nonce gasPrice).payment =
      ⟨target.2, recipient, amount⟩ := by
  obtain ⟨chainId, token⟩ := target
  cases token with
  | none => rfl
  | some token =>
    have selector : ((word (P.keccak256 (utf8 "transfer(address,uint256)"))).take 4).length = 4 := by
      simp
    have call : encodeTransferCall P recipient amount =
        (word (P.keccak256 (utf8 "transfer(address,uint256)"))).take 4 ++
          (word (addressWord recipient) ++ word amount) := by
      simp [encodeTransferCall, abiEncode]
    have nonempty : encodeTransferCall P recipient amount ≠ [] := by
      intro h
      have hl := congrArg List.length h
      simp [call] at hl
    have args : (encodeTransferCall P recipient amount).drop 4 =
        word (addressWord recipient) ++ word amount := by
      rw [call, List.drop_left' selector]
    have first : ((encodeTransferCall P recipient amount).drop 4).take 32 =
        word (addressWord recipient) := by
      rw [args, List.take_left' (word_length _)]
    have second : ((encodeTransferCall P recipient amount).drop 36).take 32 = word amount := by
      rw [show 36 = 4 + 32 from rfl, ← List.drop_drop, args, List.drop_left' (word_length _),
        List.take_of_length_le (word_length _).le]
    have address : (addressWord recipient).setWidth 160 = recipient := by
      apply BitVec.eq_of_toNat_eq
      have hr := recipient.isLt
      simp only [addressWord, BitVec.toNat_setWidth]
      omega
    simp only [transferTx, EthTx.payment, if_neg nonempty, first, second, ofBytes_word, address]

/-- The hash a node knows a raw transaction by. -/
def SignedTx.hash {P : Platform} (x : SignedTx P) : Bytes32 := P.keccak256 x.raw

structure MinedTx (P : Platform) where
  tx : SignedTx P
  succeeded : Bool

structure SourceLedger (P : Platform) where
  balances : U256 → Option Address → Address → ℕ
  nonces : U256 → Address → ℕ
  mined : List (MinedTx P)

namespace SourceLedger

variable {P : Platform}

def setBalance (l : SourceLedger P) (chainId : U256) (token : Option Address) (holder : Address)
    (balance : ℕ) : SourceLedger P :=
  { l with
    balances := fun c t h =>
      if c = chainId ∧ t = token ∧ h = holder then balance else l.balances c t h }

def receive (l : SourceLedger P) (chainId : U256) (token : Option Address) (holder : Address)
    (amount : ℕ) : SourceLedger P :=
  l.setBalance chainId token holder (l.balances chainId token holder + amount)

def spend (l : SourceLedger P) (chainId : U256) (token : Option Address) (holder : Address)
    (amount : ℕ) : Option (SourceLedger P) :=
  if amount ≤ l.balances chainId token holder then
    some (l.setBalance chainId token holder (l.balances chainId token holder - amount))
  else none

def useNonce (l : SourceLedger P) (chainId : U256) (holder : Address) : SourceLedger P :=
  { l with
    nonces := fun c h =>
      if c = chainId ∧ h = holder then l.nonces c h + 1 else l.nonces c h }

/-- A transaction that succeeds moves its payment, one that reverts moves nothing. -/
def transfer (l : SourceLedger P) (x : SignedTx P) (succeeded : Bool) : Option (SourceLedger P) :=
  let p := x.tx.payment
  if succeeded then
    (l.spend x.tx.chainId p.token x.account p.amount.toNat).map fun l =>
      l.receive x.tx.chainId p.token p.recipient p.amount.toNat
  else some l

/-- A block includes `x`, which pays `fee` for its gas. -/
def mine (l : SourceLedger P) (x : SignedTx P) (succeeded : Bool) (fee : ℕ) :
    Option (SourceLedger P) :=
  if x.tx.nonce.toNat = l.nonces x.tx.chainId x.account ∧
      x.hash ∉ l.mined.map (fun m => m.tx.hash) ∧
      fee ≤ x.tx.gasLimit.toNat * x.tx.gasPrice.toNat then do
    let paid ← l.spend x.tx.chainId none x.account fee
    let moved ← paid.transfer x succeeded
    let next := moved.useNonce x.tx.chainId x.account
    some { next with mined := l.mined ++ [⟨x, succeeded⟩] }
  else none

/-- Someone else's transaction out of an address. -/
def foreignSpend (l : SourceLedger P) (chainId : U256) (token : Option Address)
    (holder : Address) (amount : ℕ) : Option (SourceLedger P) :=
  (l.spend chainId token holder amount).map fun l => l.useNonce chainId holder

theorem mined_of_spend {l l' : SourceLedger P} {chainId : U256} {token : Option Address}
    {holder : Address} {amount : ℕ} (h : l.spend chainId token holder amount = some l') :
    l'.mined = l.mined := by
  simp only [spend] at h
  split at h
  · obtain rfl := Option.some.inj h
    rfl
  · cases h

theorem mined_of_foreignSpend {l l' : SourceLedger P} {chainId : U256} {token : Option Address}
    {holder : Address} {amount : ℕ} (h : l.foreignSpend chainId token holder amount = some l') :
    l'.mined = l.mined := by
  obtain ⟨l₁, hs, rfl⟩ := Option.map_eq_some_iff.mp h
  exact (mined_of_spend hs : l₁.mined = l.mined)

/-- A transaction is mined at most once. -/
theorem mined_of_mine {l l' : SourceLedger P} {x : SignedTx P} {succeeded : Bool} {fee : ℕ}
    (h : l.mine x succeeded fee = some l') :
    l'.mined = l.mined ++ [⟨x, succeeded⟩] ∧ x.hash ∉ l.mined.map fun m => m.tx.hash := by
  unfold mine at h
  split at h
  · next hc =>
    obtain ⟨paid, -, h⟩ := Option.bind_eq_some_iff.mp h
    obtain ⟨moved, -, h⟩ := Option.bind_eq_some_iff.mp h
    obtain rfl := Option.some.inj h
    exact ⟨rfl, hc.2.1⟩
  · cases h

/-- The receipt a node gives for a hash. -/
def receipt (l : SourceLedger P) (chainId : U256) (hash : Bytes32) : Option (MinedTx P) :=
  l.mined.find? fun m => m.tx.tx.chainId = chainId ∧ m.tx.hash = hash

theorem receipt_eq_some {l : SourceLedger P} {chainId : U256} {hash : Bytes32} {m : MinedTx P}
    (h : l.receipt chainId hash = some m) :
    m ∈ l.mined ∧ m.tx.tx.chainId = chainId ∧ m.tx.hash = hash :=
  ⟨List.mem_of_find?_eq_some h, by simpa using List.find?_some h⟩

end SourceLedger

end Privana
