import Privana.ChainConfigs
import Privana.DepositProcessor
import Privana.HexText

/-! `verify_deposit` over the answers of a node. A node renders the fields of a log as
bytes or as text, and a missing field reads as the default it is given here. -/

namespace Privana
open BigEndian

inductive HexField where
  | bytes (bs : Bytes)
  | str (s : Text)
  deriving DecidableEq

structure LogEntry where
  address : HexField := .str []
  topics : List HexField := []
  data : HexField := .bytes []
  logIndex : ℕ := 0
  deriving DecidableEq

structure TxReceipt where
  status : Option ℤ
  blockNumber : ℕ
  logs : List LogEntry := []
  deriving DecidableEq

structure NodeTx where
  recipient : Option HexField
  value : ℕ := 0

/-- What a node answers while one deposit is verified. -/
structure NodeView where
  receipt : Bytes32 → Option TxReceipt
  latestBlock : ℕ
  transaction : Bytes32 → Option NodeTx
  balance : Address → ℤ → ℕ

namespace DepositVerifier

inductive VerifyError where
  | chainNotServed (chainId : U256)
  | transactionNotFound (txHash : Bytes32)
  | missingStatus
  | reverted (txHash : Bytes32)
  | insufficientFinality (confirmations : ℤ) (required : ℕ)
  | noTransferEvent (logIndex : ℤ) (valid : List ℕ)
  | invalidAmount (data : HexField)
  | transferTooSmall (onChain claimed : ℤ)
  | missingToken
  | valueTooSmall (value : ℕ) (claimed : ℤ)
  | noDeposit (logIndex : ℤ)
  deriving DecidableEq

structure VerifiedDeposit where
  chainId : U256
  txHash : Bytes32
  amount : ℤ
  isNative : Bool
  tokenAddress : Option Text
  depositIndex : ℕ
  blockNumber : ℕ
  native_token : isNative = true → tokenAddress = none
  erc20_token : isNative = false → ∃ t, tokenAddress = some t ∧ t ≠ []
  deriving DecidableEq

def transferEventTopic : Text :=
  text "0xddf252ad1be2c89b69c2b068fc378daa952ba7f163c4a11628f55a4df523b3ef"

/-- An address of the contract, in lower case. -/
def addressText (a : Address) : Text := hexText (packedAddress a)

end DepositVerifier

def HexField.hexString : HexField → Text
  | .bytes bs => hexText bs
  | .str s => s

/-- The last 20 bytes, or the last 40 characters. -/
def HexField.addressPart : HexField → Text
  | .bytes bs => hexText (bs.drop (bs.length - 20))
  | .str s => '0' :: 'x' :: s.drop (s.length - 40)

/-- The first word of bytes; text is one number. -/
def HexField.amount : HexField → Option ℤ
  | .bytes bs => some (decode (bs.take 32))
  | .str [] => some 0
  | .str s => parseHex s

open DepositVerifier in
/-- A `Transfer(from, to, amount)` event to the address, by its topics. -/
def LogEntry.isTransferTo (log : LogEntry) (depositAddress : Address) : Bool :=
  match log.topics with
  | topic0 :: _ :: toTopic :: _ =>
    lower topic0.hexString = lower transferEventTopic &&
      lower toTopic.addressPart = addressText depositAddress
  | _ => false

open DepositVerifier in
def NodeTx.isTo (tx : NodeTx) (depositAddress : Address) : Bool :=
  tx.recipient.any fun field => lower field.hexString = addressText depositAddress

namespace DepositVerifier

def matchingTransfers (receipt : TxReceipt) (depositAddress : Address) : List (ℕ × LogEntry) :=
  (receipt.logs.filter (·.isTransferTo depositAddress)).map fun log => (log.logIndex, log)

/-- A single match is taken whatever `log_index` says. -/
def selectTransfer (logIndex : ℤ) : List (ℕ × LogEntry) → Except VerifyError (ℕ × LogEntry)
  | [transfer] => .ok transfer
  | transfers =>
    match transfers.filter fun t => (t.1 : ℤ) = logIndex with
    | [] => .error (.noTransferEvent logIndex (transfers.map Prod.fst))
    | transfer :: _ => .ok transfer

section Verify
variable (chainId : U256) (txHash : Bytes32) (depositAddress : Address) (expectedAmount : ℤ)
  (logIndex : ℤ)

def verifyTransfer (txBlock : ℕ) (transfers : List (ℕ × LogEntry)) :
    Except VerifyError VerifiedDeposit :=
  match selectTransfer logIndex transfers with
  | .error e => .error e
  | .ok (actualLogIndex, log) =>
    match log.data.amount with
    | none => .error (.invalidAmount log.data)
    | some onChainAmount =>
      if onChainAmount < expectedAmount then
        .error (.transferTooSmall onChainAmount expectedAmount)
      else if empty : log.address.hexString = [] then .error .missingToken
      else .ok
        { chainId, txHash, amount := expectedAmount, isNative := false,
          tokenAddress := some log.address.hexString, depositIndex := actualLogIndex,
          blockNumber := txBlock, native_token := nofun,
          erc20_token := fun _ => ⟨_, rfl, empty⟩ }

def nativeDeposit (txBlock : ℕ) : VerifiedDeposit where
  chainId := chainId
  txHash := txHash
  amount := expectedAmount
  isNative := true
  tokenAddress := none
  depositIndex := 0
  blockNumber := txBlock
  native_token _ := rfl
  erc20_token := nofun

def balanceDelta (w3 : NodeView) (txBlock : ℕ) : ℤ :=
  (w3.balance depositAddress txBlock : ℤ) - w3.balance depositAddress (txBlock - 1)

def verifyNative (w3 : NodeView) (txBlock : ℕ) : Except VerifyError VerifiedDeposit :=
  if logIndex ≠ 0 then .error (.noDeposit logIndex)
  else match w3.transaction txHash with
    | none => .error (.transactionNotFound txHash)
    | some tx =>
      if tx.isTo depositAddress ∧ 0 < tx.value then
        if (tx.value : ℤ) < expectedAmount then .error (.valueTooSmall tx.value expectedAmount)
        else .ok (nativeDeposit chainId txHash expectedAmount txBlock)
      else if expectedAmount ≤ balanceDelta depositAddress w3 txBlock then
        .ok (nativeDeposit chainId txHash expectedAmount txBlock)
      else .error (.noDeposit logIndex)

/-- Without a matching log the claim is for the native token. -/
def verifyEvidence (w3 : NodeView) (receipt : TxReceipt) : Except VerifyError VerifiedDeposit :=
  match matchingTransfers receipt depositAddress with
  | [] => verifyNative chainId txHash depositAddress expectedAmount logIndex w3 receipt.blockNumber
  | transfers =>
    verifyTransfer chainId txHash expectedAmount logIndex receipt.blockNumber transfers

def verifyDeposit (configs : List ChainEntry) (nodes : U256 → Option NodeView) :
    Except VerifyError VerifiedDeposit :=
  match nodes chainId with
  | none => .error (.chainNotServed chainId)
  | some w3 =>
    match w3.receipt txHash with
    | none => .error (.transactionNotFound txHash)
    | some receipt =>
      match receipt.status with
      | none => .error .missingStatus
      | some status =>
        if status ≠ 1 then .error (.reverted txHash)
        else
          let confirmations : ℤ := (w3.latestBlock : ℤ) - receipt.blockNumber
          let required := getFinalityDepth configs chainId
          if confirmations < required then .error (.insufficientFinality confirmations required)
          else verifyEvidence chainId txHash depositAddress expectedAmount logIndex w3 receipt

end Verify

namespace VerifiedDeposit

/-- `get_token_id` for the token of the deposit. -/
def tokenId (P : Platform) (d : VerifiedDeposit) : Option Bytes32 :=
  match d.tokenAddress with
  | none => some (getTokenId P (tokenInfoAt d.chainId none))
  | some token =>
    (P.toChecksumAddress token).map fun a => getTokenId P (tokenInfoAt d.chainId (some a))

/-- The key under which `process_deposit` credits; an index beyond 256 bits is refused. -/
def depositId (P : Platform) (d : VerifiedDeposit) : Option Bytes32 :=
  (d.tokenId P).bind fun tokenId =>
    if d.depositIndex < 2 ^ 256 then
      some (computeDepositId P d.chainId d.txHash tokenId (BitVec.ofNat 256 d.depositIndex))
    else none

end VerifiedDeposit
end DepositVerifier
end Privana
