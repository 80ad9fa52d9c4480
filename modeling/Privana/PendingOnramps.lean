import Privana.TransakOrders

/-! `GET /onramp/pending`. The signed intents that a caller names are looked up one by one, then the
purchases for the caller's wallet; a lookup that its provider fails leaves the rows of the others,
and every other exception ends the request. -/

namespace Privana
open BigEndian CheckedArithmetic Descending SkipPaging

inductive OnrampFault where
  | rateLimited
  | contractLogic (siwe : Bool)
  | other
  | onRamp (message : Text)
  | notConfigured (message : Text)
  | intent (error : IntentError)
  | moonpayApi (message : Text)
  | transak (error : TransakError)

def OnrampFault.isOnRampError : OnrampFault → Bool
  | rateLimited | contractLogic _ | other | transak .jwt => false
  | _ => true

/-- The status that the route answers with. -/
def OnrampFault.httpStatus : OnrampFault → ℕ
  | rateLimited | transak (.rateLimit _) => 429
  | contractLogic siwe => if siwe then 401 else 422
  | notConfigured _ | intent .notConfigured | transak (.notConfigured _) => 503
  | moonpayApi _ | transak (.api _) => 502
  | other | transak .jwt => 500
  | _ => 400

/-- A body that is no JSON has no payload. -/
structure MoonpayResponse where
  status : ℤ
  payload : Option Json

section Moonpay

def objectsOf : Json → Option (List JsonObject)
  | .arr items => some (items.filterMap asObject)
  | _ => none

def extractTransactionItems (payload : Json) : List JsonObject :=
  match payload with
  | .arr items => items.filterMap asObject
  | _ => ((["transactions", "data", "items", "results"].map (memberOf payload)).findSome?
      objectsOf).getD []

def moonpayResponseItems (response : MoonpayResponse) : Except OnrampFault (List JsonObject) :=
  if response.status = 401 then
    .error (.moonpayApi (text "MoonPay transaction lookup is unauthorized"))
  else if 400 ≤ response.status then
    .error (.moonpayApi (text "MoonPay transaction lookup failed with status " ++
      dumpInt response.status))
  else
    match response.payload with
    | none => .error (.moonpayApi (text "MoonPay transaction lookup returned invalid JSON"))
    | some payload => .ok (extractTransactionItems payload)

end Moonpay

def moonpayTransactionPageLimit : ℕ := 50
def moonpayTransactionMaxPages : ℕ := 10
def onrampPendingMaxIntentLookups : ℕ := 10

/-- What a request is served with: the settings, and the answers of the contract and of the
providers. The reads of the contract are counted, since one may fail and the next succeed. -/
structure OnrampService where
  platform : OrderPlatform
  settings : TransakSettings
  onrampProvider : Option Text
  moonpaySecretKey : Option Text
  now : ℚ
  limited : Bool
  depositAddress : Except OnrampFault Text
  partner : PartnerApi
  /-- Of one `externalTransactionId`; `none` where `httpx` raises. -/
  moonpayByExternalId : Text → Option MoonpayResponse
  /-- Of one customer, from an offset on. -/
  moonpayTransactions : Text → ℕ → Option MoonpayResponse
  getTokenId : ℕ → ℤ → Text → Except OnrampFault Bytes32
  isTokenRegistered : ℕ → Bytes32 → Except OnrampFault Bool

/-- The configured asset, found registered. -/
structure OnrampAsset where
  config : TransakConfig
  tokenId : Text

def OnrampAsset.filter (asset : OnrampAsset) (user deposit : Text) (transactionId : Option Text) :
    OrderFilter :=
  ⟨user, deposit, asset.tokenId, asset.config, transactionId⟩

structure LookupDiagnostics where
  provider : Text
  outcome : Except OnrampFault MoonpayDiagnostics

/-- Rows of one lookup. -/
abbrev LookupRows := Except OnrampFault (List OnrampRecord × MoonpayDiagnostics)

/-- What the lookups of intents have come to. -/
structure ExactLookups where
  rows : List OnrampRecord
  diagnostics : List LookupDiagnostics
  succeeded : Bool
  asset : Option OnrampAsset
  attempts : ℕ

structure PendingOnramps where
  pending : List OnrampRecord
  walletLookup : LookupDiagnostics
  exactLookups : List LookupDiagnostics

/-- What a row is de-duplicated by. -/
def rowKey (row : OnrampRecord) : Option (Text × Text) :=
  match orText row.providerTransactionId (some row.transactionId) with
  | some (c :: identifier) => some (row.provider, c :: identifier)
  | _ => none

def dedupeOnrampRows (rows : List OnrampRecord) : List OnrampRecord :=
  descending rowOrder (dedupeBy rowKey rows)

namespace OnrampService
variable (S : OnrampService) (user deposit : Text)

def requireMoonpayKey : Except OnrampFault Unit :=
  match S.moonpaySecretKey with
  | some (_ :: _) => .ok ()
  | _ => .error (.notConfigured (text "MoonPay transaction lookup is not configured"))

def moonpayItems : Option MoonpayResponse → Except OnrampFault (List JsonObject)
  | none => .error (.moonpayApi (text "MoonPay transaction lookup failed"))
  | some response => moonpayResponseItems response

def moonpayPage (customer : Text) (page : ℕ) :
    Except OnrampFault (List JsonObject × Option ℕ) := do
  let items ← moonpayItems (S.moonpayTransactions customer (page * moonpayTransactionPageLimit))
  return (items, none)

def fetchMoonpayBuyTransactions (externalCustomerId : Text) :
    Except OnrampFault (List JsonObject) := do
  S.requireMoonpayKey
  readPages moonpayTransactionPageLimit (S.moonpayPage externalCustomerId)
    moonpayTransactionMaxPages 0

def fetchMoonpayBuyTransactionsByExternalId (externalTransactionId : Text) :
    Except OnrampFault (List JsonObject) := do
  S.requireMoonpayKey
  moonpayItems (S.moonpayByExternalId externalTransactionId)

def moonpayRows (transactions : List JsonObject) : LookupRows :=
  match pendingRecordsFromMoonpayTransactions S.platform.toMoonpayPlatform transactions user
      deposit with
  | .ok rows => .ok rows
  | .error .notConfigured => .error (.transak intentsNotConfigured)
  | .error .timestamp => .error .other

def transakRows (asset : OnrampAsset) (transactionId : Option Text) (orders : List JsonObject) :
    LookupRows :=
  (pendingRecordsFromTransakOrders S.platform (asset.filter user deposit transactionId)
    orders).mapError .transak

/-- The identifier of the configured token, which has to be the one that is asked for, if any is,
and registered. -/
def registeredTransakTokenId (attempt : ℕ) (config : TransakConfig)
    (requestedTokenId : Option Text) (requestedChainId : Option ℤ) : Except OnrampFault Text := do
  revertIf (requestedChainId.any (· ≠ config.chainId))
    (.onRamp (text "chain_id does not match the configured Transak asset"))
  let tokenId ← S.getTokenId attempt config.chainId config.tokenAddress
  let tokenIdHex := hexText (word tokenId)
  revertIf (requestedTokenId.any (S.platform.intents.lower · ≠ tokenIdHex))
    (.onRamp (text "token_id does not match the configured Transak asset"))
  let registered ← S.isTokenRegistered attempt tokenId
  revertIf (registered = false)
    (.notConfigured (text "The configured Transak asset is not registered"))
  return tokenIdHex

def findAsset (attempt : ℕ) : Except OnrampFault OnrampAsset := do
  let config ← (loadTransakConfig S.platform S.settings).mapError .transak
  let tokenId ← S.registeredTransakTokenId attempt config none none
  return ⟨config, tokenId⟩

/-- The asset that was found before, or else a new search for it. -/
def currentAsset (s : ExactLookups) : Except OnrampFault OnrampAsset × ExactLookups :=
  match s.asset with
  | some asset => (.ok asset, s)
  | none =>
    match S.findAsset s.attempts with
    | .ok asset => (.ok asset, { s with asset := some asset, attempts := s.attempts + 1 })
    | .error fault => (.error fault, { s with attempts := s.attempts + 1 })

def validateTransakIntent (intent : IntentPayload) (asset : OnrampAsset) :
    Except OnrampFault Unit := do
  let U := S.platform.intents
  let mismatch (what : String) := OnrampFault.onRamp (text "Signed on-ramp intent " ++ text what)
  revertIf (intent.p ≠ text "transak") (mismatch "is not a Transak intent")
  revertIf (U.toChecksumAddress (text "0x" ++ intent.u) ≠ U.toChecksumAddress user)
    (mismatch "does not belong to the caller")
  revertIf (U.toChecksumAddress (text "0x" ++ intent.w) ≠ U.toChecksumAddress deposit)
    (mismatch "does not match the deposit address")
  revertIf (intent.c ≠ asset.config.chainId) (mismatch "does not match the configured chain")
  revertIf (text "0x" ++ U.lower intent.t ≠ U.lower asset.tokenId)
    (mismatch "does not match the configured token")
  revertIf (U.lower intent.a ≠ asset.config.canonicalAssetCode S.platform)
    (mismatch "does not match the configured asset")

def validatedIntent (intentId : Text) : Except OnrampFault (Text × IntentPayload) := do
  let U := S.platform.intents
  let intent ← (decodeIntent U S.platform.keyRing S.platform.now true intentId).mapError .intent
  revertIf (U.toChecksumAddress (text "0x" ++ intent.u) ≠ U.toChecksumAddress user)
    (.onRamp (text "Signed on-ramp intent does not belong to the caller"))
  revertIf (U.toChecksumAddress (text "0x" ++ intent.w) ≠ U.toChecksumAddress deposit)
    (.onRamp (text "Signed on-ramp intent does not match the deposit address"))
  return (intentId, intent)

def validatedOnrampPendingIntents (intentIds : List Text) :
    Except OnrampFault (List (Text × IntentPayload)) :=
  let deduped := dedupeBy some intentIds
  if onrampPendingMaxIntentLookups < deduped.length then
    .error (.onRamp (text "Too many externalTransactionId values"))
  else deduped.mapM (S.validatedIntent user deposit)

def configuredProvider : Except OnrampFault Text :=
  match S.onrampProvider with
  | some provider =>
    if intentProviders.contains provider then .ok provider
    else .error (.notConfigured (text "On-ramp provider configuration is invalid"))
  | none => .error (.notConfigured (text "On-ramp provider configuration is invalid"))

end OnrampService

/-- A lookup of the route, with the asset that it has or lacks. -/
inductive OnrampLookup where
  | moonpayIntent (intentId : Text)
  | transakIntent (asset : Except OnrampFault OnrampAsset) (intentId : Text)
    (intent : IntentPayload)
  | moonpayWallet
  | transakWallet (asset : Except OnrampFault OnrampAsset)

namespace OnrampService
variable (S : OnrampService) (user deposit : Text)

def runLookup : OnrampLookup → LookupRows
  | .moonpayIntent intentId => do
    let transactions ← S.fetchMoonpayBuyTransactionsByExternalId intentId
    S.moonpayRows user deposit transactions
  | .transakIntent asset intentId intent => do
    let asset ← asset
    S.validateTransakIntent user deposit intent asset
    let orders ← (getOrdersByPartnerOrderId S.platform S.partner asset.config S.now intentId
      intent.iat).mapError .transak
    S.transakRows user deposit asset (some intentId) orders
  | .moonpayWallet => do
    let transactions ← S.fetchMoonpayBuyTransactions user
    S.moonpayRows user deposit
      (dedupeMoonpayTransactions S.platform.toMoonpayPlatform transactions)
  | .transakWallet asset => do
    let asset ← asset
    let orders ← (getOrdersByWallet S.platform S.partner asset.config deposit).mapError .transak
    S.transakRows user deposit asset none orders

/-- A lookup of an intent that succeeds or that its provider fails. -/
def recordExact (s : ExactLookups) (provider : Text) (found : LookupRows) :
    Except OnrampFault ExactLookups :=
  match found with
  | .ok (rows, diagnostics) =>
    .ok { s with
      rows := s.rows ++ rows
      diagnostics := s.diagnostics ++ [⟨provider, .ok diagnostics⟩]
      succeeded := true }
  | .error fault =>
    if fault.isOnRampError then
      .ok { s with diagnostics := s.diagnostics ++ [⟨provider, .error fault⟩] }
    else .error fault

def exactLookup (s : ExactLookups) (x : Text × IntentPayload) : Except OnrampFault ExactLookups :=
  if x.2.p = text "moonpay" then
    recordExact s (text "moonpay") (S.runLookup user deposit (.moonpayIntent x.1))
  else if x.2.p = text "transak" then
    let found := S.currentAsset s
    recordExact found.2 (text "transak")
      (S.runLookup user deposit (.transakIntent found.1 x.1 x.2))
  else .ok s

def walletLookup (s : ExactLookups) (provider : Text) : OnrampLookup :=
  if provider = text "moonpay" then .moonpayWallet else .transakWallet (S.currentAsset s).1

/-- The end of the request, when the wallet was looked up. -/
def concludeListing (s : ExactLookups) (provider : Text) (found : LookupRows) :
    Except OnrampFault PendingOnramps :=
  match found with
  | .ok (rows, diagnostics) =>
    .ok ⟨dedupeOnrampRows (s.rows ++ rows), ⟨provider, .ok diagnostics⟩, s.diagnostics⟩
  | .error fault =>
    if fault.isOnRampError && s.succeeded then
      .ok ⟨dedupeOnrampRows s.rows, ⟨provider, .error fault⟩, s.diagnostics⟩
    else .error fault

def getPendingOnramps (intentIds : List Text) : Except OnrampFault PendingOnramps := do
  revertIf (S.limited = true) .rateLimited
  let depositAddress ← S.depositAddress
  let deposit := S.platform.intents.toChecksumAddress depositAddress
  let exactIntents ← S.validatedOnrampPendingIntents user deposit intentIds
  let exact ← exactIntents.foldlM (S.exactLookup user deposit) ⟨[], [], false, none, 0⟩
  let provider ← S.configuredProvider
  concludeListing exact provider
    (S.runLookup user deposit (S.walletLookup exact provider))

end OnrampService

end Privana
