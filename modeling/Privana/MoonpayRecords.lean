import Privana.IntentCanonical
import Privana.KeyedDedup

/-! The MoonPay rows of `onramp.py`. A list of transactions is de-duplicated by the first of three
identifiers, and what is left is judged one by one. -/

namespace Privana
open BigEndian CheckedArithmetic

/-- A decoded JSON object. -/
abbrev JsonObject := List (Text × Json)

/-- What the rows are made with: the intents, and Python's readings of JSON values. -/
structure MoonpayPlatform where
  intents : IntentPlatform
  keyRing : Option KeyRing
  now : ℤ
  /-- `str(value)`. -/
  str : Json → Text
  str_text : ∀ s, str (.str s) = s
  /-- Whether a number with a fraction is zero. -/
  floatIsZero : Text → Bool
  /-- `int(value)`, which raises for what is not finite. -/
  intOfFloat : Text → Option ℤ
  /-- The whole seconds of `datetime.fromisoformat(value.replace("Z", "+00:00"))`. -/
  isoTimestamp : Text → Option ℤ

inductive MoonpayFault where
  | notConfigured
  | timestamp
  deriving DecidableEq

structure OnrampRecord where
  transactionId : Text
  externalTransactionId : Text
  provider : Text
  providerTransactionId : Option Text
  providerAssetCode : Text
  moonpayTransactionId : Option Text
  status : Text
  walletAddress : Text
  tokenId : Text
  chainId : ℤ
  moonpayCurrencyCode : Option Text
  baseCurrencyCode : Option Text
  baseCurrencyAmount : Option Text
  quoteCurrencyAmount : Option Text
  onChainTxHash : Text
  createdAt : ℤ
  updatedAt : ℤ
  deriving DecidableEq

/-- A row, or the reason for leaving the transaction out. -/
abbrev MoonpayOutcome := Except Text OnrampRecord

section Values
variable (M : MoonpayPlatform)

def valueOf (data : JsonObject) (key : String) : Json := fieldOf data (text key)

def truthy : Json → Bool
  | .null => false
  | .bool b => b
  | .int n => n ≠ 0
  | .float lexeme => !M.floatIsZero lexeme
  | .str s => !s.isEmpty
  | .arr items => !items.isEmpty
  | .obj members => !members.isEmpty

/-- Python's `or`. -/
def orValue (a b : Json) : Json := if truthy M a then a else b

def orText (a b : Option Text) : Option Text :=
  match a with
  | some (c :: s) => some (c :: s)
  | _ => b

def stringOrNone : Json → Option Text
  | .null => none
  | value => some (M.str value)

def addressOrNone : Json → Option Text
  | .str s => if M.intents.isAddress s then some (M.intents.toChecksumAddress s) else none
  | _ => none

def hexOrNone : Json → Option Text
  | .str [] => none
  | .str s =>
    let value := M.intents.lower (M.intents.strip s)
    some (if (text "0x").isPrefixOf value then value else text "0x" ++ value)
  | _ => none

def currencyCode : Json → Option Text
  | .obj members =>
    match valueOf members "code" with
    | .null => none
    | code => some (M.intents.lower (M.str code))
  | .str s => some (M.intents.lower s)
  | _ => none

def normalizeStatus (value : Json) : Text :=
  let status := M.intents.lower (M.str (orValue M value (.str (text "pending"))))
  if status = text "completed" ∨ status = text "complete" then text "completed"
  else if status = text "failed" ∨ status = text "cancelled" then status
  else text "pending"

def timestampOf (fallback : ℤ) : Json → Except MoonpayFault ℤ
  | .int n => .ok n
  | .bool b => .ok b.toNat
  | .float lexeme =>
    match M.intOfFloat lexeme with
    | some n => .ok n
    | none => .error .timestamp
  | .str [] => .ok fallback
  | .str s => .ok ((M.isoTimestamp s).getD fallback)
  | _ => .ok fallback

/-- `_transaction_data`. -/
def transactionData (payload : JsonObject) : JsonObject :=
  match valueOf payload "data" with
  | .obj data => data
  | _ =>
    match valueOf payload "transaction" with
    | .obj transaction => transaction
    | _ => payload

end Values

section Records
variable (M : MoonpayPlatform)

def decodeOnrampIntent (transactionId : Text) : Except IntentError IntentPayload := do
  let payload ← decodeIntent M.intents M.keyRing M.now true transactionId
  if payload.p ≠ text "moonpay" then .error .unsupportedProvider else .ok payload

/-- The row of a completed transaction. -/
def completedRecord (data : JsonObject) (transactionId : Text) (intent : IntentPayload)
    (intentWallet onChainTxHash : Text) : Except MoonpayFault OnrampRecord := do
  let createdAt ← timestampOf M intent.iat (valueOf data "createdAt")
  let updatedAt ← timestampOf M createdAt (valueOf data "updatedAt")
  return {
    transactionId
    externalTransactionId := transactionId
    provider := intent.p
    providerTransactionId := stringOrNone M (valueOf data "id")
    providerAssetCode := M.intents.lower intent.a
    moonpayTransactionId := stringOrNone M (valueOf data "id")
    status := text "completed"
    walletAddress := intentWallet
    tokenId := text "0x" ++ M.intents.lower intent.t
    chainId := intent.c
    moonpayCurrencyCode :=
      if intent.p = text "moonpay" then some (M.intents.lower intent.a) else none
    baseCurrencyCode := orText (currencyCode M (valueOf data "baseCurrency")) none
    baseCurrencyAmount := orText (stringOrNone M (valueOf data "baseCurrencyAmount")) none
    quoteCurrencyAmount := stringOrNone M (valueOf data "quoteCurrencyAmount")
    onChainTxHash
    createdAt
    updatedAt }

/-- A signed transaction, whose user and wallet are still to be compared. -/
def intentRecord (data : JsonObject) (transactionId : Text) (intent : IntentPayload)
    (expectedUser expectedWallet : Text) : Except MoonpayFault MoonpayOutcome :=
  let checksum := M.intents.toChecksumAddress
  let intentWallet := checksum (text "0x" ++ intent.w)
  let wallet := orValue M (valueOf data "walletAddress") (orValue M
    (memberOf (valueOf data "wallet") "address") (memberOf (valueOf data "crypto") "address"))
  let hash := orValue M (valueOf data "cryptoTransactionId")
    (orValue M (valueOf data "transactionHash") (valueOf data "txHash"))
  let currency := orText (currencyCode M (valueOf data "currency"))
    (currencyCode M (valueOf data "crypto"))
  if checksum (text "0x" ++ intent.u) ≠ checksum expectedUser then
    .ok (.error (text "user_address_mismatch"))
  else if intentWallet ≠ checksum expectedWallet then .ok (.error (text "wallet_address_mismatch"))
  else if addressOrNone M wallet ≠ some intentWallet then
    .ok (.error (text "moonpay_wallet_mismatch"))
  else if normalizeStatus M (valueOf data "status") ≠ text "completed" then
    .ok (.error (text "not_completed"))
  else
    match hexOrNone M hash with
    | none => .ok (.error (text "missing_on_chain_tx_hash"))
    | some onChainTxHash =>
      if currency.any fun code => code ≠ [] ∧ code ≠ M.intents.lower intent.a then
        .ok (.error (text "currency_mismatch"))
      else .ok <$> completedRecord M data transactionId intent intentWallet onChainTxHash

def moonpayTransactionToOnrampRecord (transaction : JsonObject)
    (expectedUser expectedWallet : Text) : Except MoonpayFault MoonpayOutcome :=
  let data := transactionData transaction
  match stringOrNone M (orValue M (valueOf data "externalTransactionId")
    (valueOf data "externalId")) with
  | none | some [] => .ok (.error (text "missing_external_transaction_id"))
  | some transactionId =>
    match decodeOnrampIntent M transactionId with
    | .error .notConfigured => .error .notConfigured
    | .error _ => .ok (.error (text "invalid_external_transaction_id"))
    | .ok intent => intentRecord M data transactionId intent expectedUser expectedWallet

/-- The identifier that a transaction is de-duplicated by. -/
def dedupeKey (transaction : JsonObject) : Option Text :=
  let data := transactionData transaction
  orText (stringOrNone M (valueOf data "id"))
    (orText (stringOrNone M (valueOf data "externalTransactionId"))
      (stringOrNone M (valueOf data "cryptoTransactionId")))

def dedupeMoonpayTransactions (transactions : List JsonObject) : List JsonObject :=
  dedupeBy (dedupeKey M) transactions

structure MoonpayDiagnostics where
  totalRecords : ℕ
  reasonCounts : List (Text × ℕ)

/-- One more of a reason. -/
def countReason (counts : List (Text × ℕ)) (reason : Text) : List (Text × ℕ) :=
  match counts with
  | [] => [(reason, 1)]
  | (r, n) :: counts =>
    if r = reason then (r, n + 1) :: counts else (r, n) :: countReason counts reason

def reasonOf : MoonpayOutcome → Text
  | .ok _ => text "included"
  | .error reason => reason

/-- What a transaction is worth to the user and the wallet that the rows are for. -/
def moonpayOutcome (user wallet : Text) (transaction : JsonObject) :
    Except MoonpayFault MoonpayOutcome :=
  moonpayTransactionToOnrampRecord M transaction (M.intents.toChecksumAddress user)
    (M.intents.toChecksumAddress wallet)

def includedRecords (outcomes : List MoonpayOutcome) : List OnrampRecord :=
  (outcomes.filterMap Except.toOption).mergeSort fun a b => b.updatedAt ≤ a.updatedAt

def pendingRecordsFromMoonpayTransactions (transactions : List JsonObject) (user wallet : Text) :
    Except MoonpayFault (List OnrampRecord × MoonpayDiagnostics) := do
  let outcomes ← transactions.mapM (moonpayOutcome M user wallet)
  return (includedRecords outcomes,
    ⟨transactions.length, (outcomes.map reasonOf).foldl countReason []⟩)

end Records

end Privana
