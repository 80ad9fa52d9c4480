import Mathlib.Data.Char
import Mathlib.Data.List.DropRight
import Mathlib.Data.List.Lex
import Mathlib.Data.Prod.Lex
import Privana.Descending
import Privana.IpAttestation
import Privana.MoonpayRecords
import Privana.SkipPaging
import Privana.TransakTokens

/-! The orders of `transak.py`: the configured asset, the pages of the partner API, and the rows
that completed orders with a signed intent are turned into. -/

namespace Privana
open BigEndian CheckedArithmetic Descending SkipPaging

structure TransakSettings where
  apiKey : Option Text
  apiSecret : Option Text
  apiBaseUrl : Option Text
  gatewayBaseUrl : Option Text
  referrerDomain : Option Text
  cryptoCurrencyCode : Option Text
  network : Option Text
  chainId : Option ℤ
  tokenAddress : Option Text

structure TransakConfig where
  apiKey : Text
  apiSecret : Text
  apiBaseUrl : Text
  gatewayBaseUrl : Text
  referrerDomain : Text
  cryptoCurrencyCode : Text
  network : Text
  chainId : ℤ
  tokenAddress : Text
  deriving DecidableEq

/-- What the orders are read with, beside what the MoonPay rows are made with. -/
structure OrderPlatform extends MoonpayPlatform where
  upper : Text → Text
  /-- The value of a number with a fraction, where it is finite. -/
  floatValue : Text → Option ℚ
  /-- The instant of `datetime.fromisoformat(value.replace("Z", "+00:00"))`, in UTC if it has no
  zone. -/
  isoInstant : Text → Option ℚ
  /-- What `urlparse` and `httpx.URL` make of a base URL of visible characters. -/
  isHttpsBase : Text → Bool
  /-- `date.isoformat` of the day with a number. -/
  isoDate : ℤ → Text

def transakOrderPageLimit : ℕ := 100
def transakOrderMaxPages : ℕ := 10
def transakExactOrderWindowDays : ℤ := 31
def maxDisplayValueBytes : ℕ := 256

section Config
variable (M : OrderPlatform)

def transakNotConfigured : TransakError :=
  .notConfigured (text "Transak on-ramp is not configured")

def requiredSetting : Option Text → Except TransakError Text
  | some value =>
    if value ≠ [] ∧ value = M.intents.strip value ∧
        value.all (fun c => 0x21 ≤ c.toNat && c.toNat ≤ 0x7E) then .ok value
    else .error transakNotConfigured
  | none => .error transakNotConfigured

def httpsBaseUrl (value : Option Text) : Except TransakError Text := do
  let value ← requiredSetting M value
  let candidate := value.rdropWhile (· = '/')
  if isVisibleAscii candidate maxProviderTextBytes && M.isHttpsBase candidate then .ok candidate
  else .error transakNotConfigured

def referrerDomainSetting (value : Option Text) : Except TransakError Text := do
  let candidate ← requiredSetting M value
  if isReferrerDomain candidate then .ok candidate else .error transakNotConfigured

def isCodeHead (c : Char) : Bool := c.isAlphanum

def isCodeTail (c : Char) : Bool := c.isAlphanum || (text "._:-").contains c

def isProviderCode : Text → Bool
  | [] => false
  | c :: rest => isCodeHead c && rest.all isCodeTail && rest.length ≤ 31

def providerCode (value : Option Text) : Except TransakError Text := do
  let candidate ← requiredSetting M value
  if isProviderCode candidate then .ok candidate else .error transakNotConfigured

def chainIdSetting : Option ℤ → Except TransakError ℤ
  | some n => if n ≤ 0 ∨ 0xFFFFFFFF < n then .error transakNotConfigured else .ok n
  | none => .error transakNotConfigured

/-- `int(token_address, 16)` is zero for an address of zeros alone. -/
def tokenAddressSetting : Option Text → Except TransakError Text
  | some value =>
    if M.intents.isAddress value = false ∨
        (removePrefix (text "0x") (M.intents.lower value)).all (· = '0') then
      .error transakNotConfigured
    else .ok (M.intents.toChecksumAddress value)
  | none => .error transakNotConfigured

def loadTransakConfig (settings : TransakSettings) : Except TransakError TransakConfig := do
  let apiKey ← requiredSetting M settings.apiKey
  let apiSecret ← requiredSetting M settings.apiSecret
  let apiBaseUrl ← httpsBaseUrl M settings.apiBaseUrl
  let gatewayBaseUrl ← httpsBaseUrl M settings.gatewayBaseUrl
  let referrerDomain ← referrerDomainSetting M settings.referrerDomain
  let cryptoCurrencyCode ← providerCode M settings.cryptoCurrencyCode
  let network ← providerCode M settings.network
  let chainId ← chainIdSetting settings.chainId
  let tokenAddress ← tokenAddressSetting M settings.tokenAddress
  return { apiKey, apiSecret, apiBaseUrl, gatewayBaseUrl, referrerDomain, cryptoCurrencyCode,
           network, chainId, tokenAddress }

def TransakConfig.canonicalAssetCode (config : TransakConfig) : Text :=
  M.intents.lower config.cryptoCurrencyCode

def TransakConfig.canonicalNetwork (config : TransakConfig) : Text :=
  M.intents.lower config.network

end Config

section Values
variable (M : OrderPlatform)

def nonemptyString : Json → Option Text
  | .str s =>
    let stripped := M.intents.strip s
    if stripped = [] ∨ maxProviderTextBytes < (encodeText stripped).length then none
    else some stripped
  | _ => none

def lowerString (value : Json) : Option Text := (nonemptyString M value).map M.intents.lower

def rendered (s : Text) : Option Text :=
  if s = [] ∨ maxDisplayValueBytes < (encodeText s).length then none else some s

def displayValue : Json → Option Text
  | .str s => rendered (M.intents.strip s)
  | .int n => rendered (M.str (.int n))
  | .float lexeme =>
    if (M.floatValue lexeme).isSome then rendered (M.str (.float lexeme)) else none
  | _ => none

/-- `str(value or "")`. -/
def textOrEmpty (value : Json) : Text := M.str (orValue M.toMoonpayPlatform value (.str []))

def transactionHashOrNone : Json → Option Text
  | .str s =>
    let candidate := if (text "0x").isPrefixOf s then s else text "0x" ++ s
    if candidate.length = 66 ∧ (candidate.drop 2).all fun c => (hexValue c).isSome then
      some (M.intents.lower candidate)
    else none
  | _ => none

def inTimestampRange (fallback : ℤ) (value : Option ℚ) : ℤ :=
  match value with
  | some q => if 0 ≤ q ∧ q ≤ maxTimestamp then truncate q else fallback
  | none => fallback

def orderTimestamp (fallback : ℤ) : Json → ℤ
  | .int n => if 0 ≤ n ∧ n ≤ maxTimestamp then n else fallback
  | .float lexeme => inTimestampRange fallback (M.floatValue lexeme)
  | .str [] => fallback
  | .str s => inTimestampRange fallback (M.isoInstant s)
  | _ => fallback

end Values

section Records
variable (M : OrderPlatform)

/-- Whose orders are looked for, and for which asset. -/
structure OrderFilter where
  userAddress : Text
  walletAddress : Text
  tokenId : Text
  config : TransakConfig
  transactionId : Option Text

/-- What the intent of an order has to agree with. -/
def checkOrderIntent (f : OrderFilter) (intent : IntentPayload) : Except Text Unit := do
  let checksum := M.intents.toChecksumAddress
  revertIf (intent.p ≠ text "transak") (text "provider_mismatch")
  revertIf (checksum (text "0x" ++ intent.u) ≠ checksum f.userAddress)
    (text "user_address_mismatch")
  revertIf (checksum (text "0x" ++ intent.w) ≠ checksum f.walletAddress)
    (text "wallet_address_mismatch")
  revertIf (intent.c ≠ f.config.chainId) (text "chain_mismatch")
  revertIf (text "0x" ++ M.intents.lower intent.t ≠ M.intents.lower f.tokenId)
    (text "token_mismatch")
  revertIf (M.intents.lower intent.a ≠ f.config.canonicalAssetCode M)
    (text "intent_asset_mismatch")

/-- What the order itself has to agree with, and its transaction on the chain. -/
def checkOrder (f : OrderFilter) (order : JsonObject) (intent : IntentPayload) :
    Except Text Text := do
  let field (key : String) := textOrEmpty M (valueOf order key)
  revertIf (addressOrNone M.toMoonpayPlatform (valueOf order "walletAddress") ≠
    some (M.intents.toChecksumAddress (text "0x" ++ intent.w))) (text "transak_wallet_mismatch")
  revertIf (M.upper (field "status") ≠ text "COMPLETED") (text "not_completed")
  revertIf (M.upper (field "isBuyOrSell") ≠ text "BUY") (text "not_buy")
  revertIf (M.intents.lower (field "cryptoCurrency") ≠ f.config.canonicalAssetCode M)
    (text "order_asset_mismatch")
  revertIf (M.intents.lower (field "network") ≠ f.config.canonicalNetwork M)
    (text "network_mismatch")
  match transactionHashOrNone M (valueOf order "transactionHash") with
  | none => .error (text "missing_on_chain_tx_hash")
  | some onChainTxHash => .ok onChainTxHash

/-- `record_from_intent`, with what the order adds to it. -/
def orderRecord (order : JsonObject) (providerTransactionId transactionId : Text)
    (intent : IntentPayload) (onChainTxHash : Text) : OnrampRecord :=
  let createdAt := orderTimestamp M intent.iat (valueOf order "createdAt")
  { transactionId
    externalTransactionId := transactionId
    provider := intent.p
    providerTransactionId := some providerTransactionId
    providerAssetCode := M.intents.lower intent.a
    moonpayTransactionId := none
    status := text "completed"
    walletAddress := M.intents.toChecksumAddress (text "0x" ++ intent.w)
    tokenId := text "0x" ++ M.intents.lower intent.t
    chainId := intent.c
    moonpayCurrencyCode :=
      if intent.p = text "moonpay" then some (M.intents.lower intent.a) else none
    baseCurrencyCode := lowerString M (valueOf order "fiatCurrency")
    baseCurrencyAmount := displayValue M (valueOf order "fiatAmount")
    quoteCurrencyAmount := displayValue M (valueOf order "cryptoAmount")
    onChainTxHash
    createdAt
    updatedAt := orderTimestamp M createdAt (valueOf order "updatedAt") }

def signedOrderRecord (f : OrderFilter) (order : JsonObject)
    (providerTransactionId transactionId : Text) (intent : IntentPayload) : MoonpayOutcome := do
  checkOrderIntent M f intent
  let onChainTxHash ← checkOrder M f order intent
  return orderRecord M order providerTransactionId transactionId intent onChainTxHash

def intentsNotConfigured : TransakError :=
  .notConfigured (text "On-ramp intents are not configured")

def transakOrderToOnrampRecord (f : OrderFilter) (order : JsonObject) :
    Except TransakError MoonpayOutcome :=
  match nonemptyString M (valueOf order "_id"),
    nonemptyString M (valueOf order "partnerOrderId") with
  | none, _ => .ok (.error (text "missing_provider_transaction_id"))
  | some _, none => .ok (.error (text "missing_partner_order_id"))
  | some providerTransactionId, some transactionId =>
    if f.transactionId.any (transactionId ≠ ·) then
      .ok (.error (text "partner_order_id_mismatch"))
    else
      match decodeIntent M.intents M.keyRing M.now true transactionId with
      | .error .notConfigured => .error intentsNotConfigured
      | .error _ => .ok (.error (text "invalid_partner_order_id"))
      | .ok intent =>
        .ok (signedOrderRecord M f order providerTransactionId transactionId intent)

/-- The order of rows: the last update, then the creation, then the name. -/
def rowOrder (row : OnrampRecord) : ℤ ×ₗ (ℤ ×ₗ Text) :=
  toLex (row.updatedAt, toLex (row.createdAt, row.providerTransactionId.getD []))

def pendingRecordsFromTransakOrders (f : OrderFilter) (orders : List JsonObject) :
    Except TransakError (List OnrampRecord × MoonpayDiagnostics) := do
  let outcomes ← orders.mapM (transakOrderToOnrampRecord M f)
  return (descending rowOrder (outcomes.filterMap Except.toOption),
    ⟨orders.length, (outcomes.map reasonOf).foldl countReason []⟩)

end Records

section Lookup
variable (M : OrderPlatform)

def orderResponseMalformed : TransakError :=
  .api (text "Transak order response is malformed")

def asObject : Json → Option JsonObject
  | .obj members => some members
  | _ => none

def totalCount : Json → Except TransakError (Option ℕ)
  | .null => .ok none
  | .obj pageMeta =>
    match valueOf pageMeta "totalCount" with
    | .null => .ok none
    | .int n => if n < 0 then .error orderResponseMalformed else .ok (some n.toNat)
    | _ => .error orderResponseMalformed
  | _ => .error orderResponseMalformed

def ordersPage (payload : Json) : Except TransakError (List JsonObject × Option ℕ) :=
  match memberOf payload "data" with
  | .arr rawOrders =>
    if transakOrderPageLimit < rawOrders.length ∨
        rawOrders.any (fun order => (asObject order).isNone) = true then
      .error orderResponseMalformed
    else do
      let total ← totalCount (memberOf payload "meta")
      return (rawOrders.filterMap asObject, total)
  | _ => .error orderResponseMalformed

/-- The parameters of a request for orders. -/
def orderParams (filter : Text × Text) (dateBounds : Option (Text × Text)) (skip : ℕ) :
    List (Text × Scalar) :=
  [(text "limit", .int transakOrderPageLimit), (text "skip", .int skip),
    (text "filter[productsAvailed]", .str (text "[\"BUY\"]")),
    (text "filter[status]", .str (text "COMPLETED")),
    (text "filter[sortOrder]", .str (text "desc")), (filter.1, .str filter.2)] ++
  match dateBounds with
  | some (startDate, endDate) =>
    [(text "startDate", .str startDate), (text "endDate", .str endDate)]
  | none => []

/-- What an authenticated request for orders is answered with. -/
abbrev PartnerApi := ApiRequest → List (Text × Scalar) → TransakAnswer

def ordersRequest (config : TransakConfig) (exactNotFoundIsEmpty : Bool) : ApiRequest where
  method := text "GET"
  url := config.apiBaseUrl ++ text "/partners/api/v2/orders"
  operation := text "order lookup"
  exactNotFoundIsEmpty

def getOrdersPage (api : PartnerApi) (config : TransakConfig) (filter : Text × Text)
    (dateBounds : Option (Text × Text)) (exactNotFoundIsEmpty : Bool) (page : ℕ) :
    Except TransakError (List JsonObject × Option ℕ) := do
  let request := ordersRequest config exactNotFoundIsEmpty
  let response ← api request (orderParams filter dateBounds (page * transakOrderPageLimit))
  let payload ← requestPayload request response
  ordersPage payload

def getOrders (api : PartnerApi) (config : TransakConfig) (filter : Text × Text)
    (dateBounds : Option (Text × Text)) (exactNotFoundIsEmpty : Bool) (maxPages : ℕ) :
    Except TransakError (List JsonObject) :=
  readPages transakOrderPageLimit
    (getOrdersPage api config filter dateBounds exactNotFoundIsEmpty) maxPages 0

/-- The days from the one that the intent was issued on. -/
def exactOrderDays (issuedAt : ℤ) (now : ℚ) : ℤ × ℤ :=
  let start := issuedAt / 86400
  let today := ⌊now / 86400⌋
  (start, max start (min today (start + transakExactOrderWindowDays)))

def exactOrderDateBounds (issuedAt : ℤ) (now : ℚ) : Text × Text :=
  let days := exactOrderDays issuedAt now
  (M.isoDate days.1, M.isoDate days.2)

def walletFilter (walletAddress : Text) : Text × Text :=
  (text "filter[walletAddress]", M.intents.toChecksumAddress walletAddress)

def getOrdersByPartnerOrderId (api : PartnerApi) (config : TransakConfig) (now : ℚ)
    (transactionId : Text) (issuedAt : ℤ) : Except TransakError (List JsonObject) :=
  getOrders api config (text "filter[partnerOrderId]", transactionId)
    (some (exactOrderDateBounds M issuedAt now)) true 1

def getOrdersByWallet (api : PartnerApi) (config : TransakConfig) (walletAddress : Text) :
    Except TransakError (List JsonObject) :=
  getOrders api config (walletFilter M walletAddress) none false transakOrderMaxPages

end Lookup

end Privana
