import Privana.TaskPool
import Privana.TokenRegistry

/-! The startup of the service: the lifespan of `main.py` up to where requests are served. It takes
its keys from the ROFL daemon and brings the contract in line with its configuration. A transaction
is submitted and executed at different times, and its reply may be lost. Log lines other than those
that give up, and the delays between attempts, are left out. -/

namespace Privana
open BigEndian Coroutine

inductive KeyKind where
  | SECP256K1
  | RAW_256

/-- The keys that the daemon derives for the app, and what the service makes of them. -/
structure RoflKeys where
  generateKey : Text → KeyKind → Bytes32
  /-- The HKDF of `_derive_enc_key`. -/
  deriveEncKey : Bytes32 → Bytes32
  /-- `Account.from_key(private_key).address`. -/
  address : Bytes32 → Address
  address_ne_zero : ∀ key, address key ≠ 0

def jwtSigningKeyId : Text := text "jwt_signing_seed.key"
def roflQuerySignerKey : Text := text "rofl_query_signer.key"

structure StartupSettings where
  /-- `DISABLE_ROFL_KEYS`. -/
  roflKeysDisabled : Bool
  authTokenKeyId : Text
  onrampIntentKeyIds : List Text
  /-- `ACCOUNTING_TOKEN_INFO`: chains, with the address of an ERC-20. -/
  tokenInfos : List (ℤ × Option Address)
  /-- `ACCOUNTING_GAS_PRICE`: chains and their prices. -/
  gasPricesWei : List (ℤ × ℤ)

/-- The transactions of the startup. -/
inductive Submission where
  | setAuthTokenEncKey (newKey : Bytes32)
  | setRoflSignerAddress (newSigner : Address)
  | setTokenInfo (info : TokenInfo)
  | setGasPrice (chainId gasPrice : U256)
  deriving DecidableEq

/-- What is logged when all attempts have failed. -/
inductive GivenUp where
  | token (entry : ℤ × Option Address)
  | gasPrice (entry : ℤ × ℤ)

inductive StartupError where
  | remote
  | reverted
  | invalidValue
  | versionTooOld

inductive StartupOp where
  /-- `initialize_verified_chain_rpc_urls`. -/
  | verifyChainRpcUrls
  | generateKey (keyId : Text) (kind : KeyKind)
  | accountingVersion
  | siweAuthAddress
  | roflSignerAddress
  | encodedTokenData (chainId : U256) (tokenAddress : Option Address)
  | tokenId (info : TokenInfo)
  | tokens (tokenId : Bytes32)
  | gasPrices (chainId : U256)
  /-- The request of `submit_tx` leaves. -/
  | submit (submission : Submission)
  | submitReply (ticket : ℕ)
  | logGivenUp (entry : GivenUp)
  /-- The withdrawal processor, the deposit processor and its recovery are started. -/
  | startProcessors
  | serve (settings : StartupSettings)

abbrev StartupOp.Reply : StartupOp → Type
  | generateKey .. | tokenId _ => Bytes32
  | accountingVersion | submit _ => ℕ
  | roflSignerAddress => Address
  | encodedTokenData .. => Bytes
  | tokens _ => TokenInfo
  | gasPrices _ => U256
  | _ => Unit

abbrev Startup := Coroutine StartupOp StartupOp.Reply StartupError

def requiredAccountingVersion : ℕ := 3
def maxAttempts : ℕ := 5

section Program
open StartupOp

/-- The encoder raises for what is no `uint256`. -/
def uint256 (x : ℤ) : Startup U256 :=
  if 0 ≤ x ∧ x < 2 ^ 256 then return BitVec.ofInt 256 x else raise .invalidValue

def roflSubmitTx (submission : Submission) : Startup Unit := do
  let ticket : ℕ ← await (submit submission)
  await (submitReply ticket)

/-- A random key, or the seed of the daemon. -/
def initializeJwtKeys (settings : StartupSettings) : Startup Unit :=
  if settings.roflKeysDisabled then return ()
  else do
    let _ : Bytes32 ← await (generateKey jwtSigningKeyId .SECP256K1)
    return ()

def initializeAuthTokenKey (keys : RoflKeys) (settings : StartupSettings) : Startup Bytes32 :=
  if settings.roflKeysDisabled then return 1
  else do
    let seed : Bytes32 ← await (generateKey settings.authTokenKeyId .SECP256K1)
    return keys.deriveEncKey seed

def initializeOnrampIntentKeys (settings : StartupSettings) : Startup Unit :=
  if settings.roflKeysDisabled then return ()
  else forEach (fun keyId => do
    let _ : Bytes32 ← await (generateKey keyId .RAW_256)
    return ()) settings.onrampIntentKeyIds

def syncKeyToContract (encKey : Bytes32) : Startup Unit := do
  await siweAuthAddress
  roflSubmitTx (.setAuthTokenEncKey encKey)

def bootstrapRoflSignerAddress (keys : RoflKeys) : Startup Unit := do
  let key : Bytes32 ← await (generateKey roflQuerySignerKey .SECP256K1)
  let signerAddress := keys.address key
  let current : Address ← await roflSignerAddress
  if current = signerAddress then return ()
  else roflSubmitTx (.setRoflSignerAddress signerAddress)

/-- So many attempts, then what is logged. -/
def attempts (body giveUp : Startup Unit) : ℕ → Startup Unit
  | 0 => giveUp
  | n + 1 => except body fun _ => attempts body giveUp n

def getTokenDataAndId (chainId : ℤ) (tokenAddress : Option Address) :
    Startup (TokenInfo × Bytes32) := do
  let chainId ← uint256 chainId
  let data : Bytes ← await (encodedTokenData chainId tokenAddress)
  let info : TokenInfo := ⟨if tokenAddress.isNone then .NativeEVM else .ERC20, data⟩
  let id : Bytes32 ← await (tokenId info)
  return (info, id)

def registerToken (entry : ℤ × Option Address) : Startup Unit :=
  attempts (do
    let (info, id) ← getTokenDataAndId entry.1 entry.2
    let stored : TokenInfo ← await (tokens id)
    if stored.data ≠ [] then return ()
    else roflSubmitTx (.setTokenInfo info)) (await (logGivenUp (.token entry))) maxAttempts

def bootstrapTokenInfo (tokenInfos : List (ℤ × Option Address)) : Startup Unit :=
  forEach registerToken tokenInfos

def syncChainGasPrice (entry : ℤ × ℤ) : Startup Unit :=
  attempts (do
    let chainId ← uint256 entry.1
    let current : U256 ← await (gasPrices chainId)
    if (current.toNat : ℤ) = entry.2 then return ()
    else do
      let desired ← uint256 entry.2
      roflSubmitTx (.setGasPrice chainId desired)) (await (logGivenUp (.gasPrice entry))) maxAttempts

def bootstrapGasPrices (gasPricesWei : List (ℤ × ℤ)) : Startup Unit :=
  forEach syncChainGasPrice gasPricesWei

def bringInSync (keys : RoflKeys) (settings : StartupSettings) (encKey : Bytes32) :
    Startup Unit := do
  let deployedVersion : ℕ ← await accountingVersion
  if deployedVersion < requiredAccountingVersion then raise .versionTooOld
  else do
    syncKeyToContract encKey
    bootstrapRoflSignerAddress keys
    bootstrapTokenInfo settings.tokenInfos
    bootstrapGasPrices settings.gasPricesWei

def lifespan (keys : RoflKeys) (settings : StartupSettings) : Startup Unit := do
  await StartupOp.verifyChainRpcUrls
  initializeJwtKeys settings
  let encKey ← initializeAuthTokenKey keys settings
  initializeOnrampIntentKeys settings
  if settings.roflKeysDisabled then pure () else bringInSync keys settings encKey
  await startProcessors
  await (StartupOp.serve settings)

end Program

structure StartupWorld where
  accounting : State
  /-- `VERSION` of the deployed implementation. -/
  version : ℕ
  /-- The key that `AccountingSiweAuth` has. -/
  authTokenEncKey : Bytes32
  /-- Earlier states and versions of the contract, the latest first. -/
  past : List (State × ℕ) := []
  submissions : List Submission := []
  /-- The submissions that were executed, and those that reverted, by their places. -/
  executed : List ℕ := []
  reverted : List ℕ := []
  /-- Of this process. -/
  started : Bool := false
  givenUp : List GivenUp := []
  /-- The processes that have come to serve, with what each had given up. -/
  served : List (StartupSettings × List GivenUp) := []

inductive StartupAnswer where
  | fail
  /-- The daemon, or a node that is so many steps of the contract behind. -/
  | node (lag : ℕ)

inductive StartupMove where
  | execute (ticket : ℕ) (m : Msg)
  /-- Any other transaction. -/
  | transact (tx : Tx)
  | upgrade (version : ℕ)

section World
variable (P : Platform) (keys : RoflKeys)

namespace StartupWorld

variable (w : StartupWorld)

def contract : State × ℕ := (w.accounting, w.version)

def commit (accounting : State) : StartupWorld :=
  { w with accounting, past := w.contract :: w.past }

end StartupWorld

def startupReads (contract : State × ℕ) : (op : StartupOp) → Option op.Reply
  | .verifyChainRpcUrls | .siweAuthAddress | .startProcessors => some ()
  | .generateKey keyId kind => some (keys.generateKey keyId kind)
  | .accountingVersion => some contract.2
  | .roflSignerAddress => some contract.1.roflSignerAddress
  | .encodedTokenData chainId tokenAddress => some (tokenInfoAt chainId tokenAddress).data
  | .tokenId info => some (getTokenId P info)
  | .tokens tokenId => some (contract.1.tokens tokenId)
  | .gasPrices chainId => some (contract.1.gasPrices chainId)
  | _ => none

def startupWrites (w : StartupWorld) :
    (op : StartupOp) → Option (Except StartupError op.Reply × StartupWorld)
  | .submit submission =>
    some (.ok w.submissions.length, { w with submissions := w.submissions ++ [submission] })
  | .submitReply ticket =>
    if ticket ∈ w.executed then some (.ok (), w)
    else if ticket ∈ w.reverted then some (.error .reverted, w)
    else none
  | .logGivenUp entry => some (.ok (), { w with givenUp := entry :: w.givenUp })
  | .serve settings => some (.ok (), { w with served := (settings, w.givenUp) :: w.served })
  | _ => none

def StartupOp.isMemory : StartupOp → Bool
  | logGivenUp _ | serve _ => true
  | _ => false

def startupPerform (op : StartupOp) (answer : StartupAnswer) (w : StartupWorld) :
    Option (Except StartupError op.Reply × StartupWorld) :=
  match answer with
  | .fail => if op.isMemory then none else some (.error .remote, w)
  | .node lag =>
    match startupWrites w op with
    | some r => some r
    | none => do
      let contract ← (w.contract :: w.past)[lag]?
      let reply ← startupReads P keys contract op
      some (.ok reply, w)

/-- `none` when it reverts. -/
def executeSubmission (m : Msg) (w : StartupWorld) : Submission → Option StartupWorld
  | .setAuthTokenEncKey newKey => some { w with authTokenEncKey := newKey }
  | .setRoflSignerAddress newSigner => call (.setRoflSignerAddress newSigner)
  | .setTokenInfo info => call (.setTokenInfo info)
  | .setGasPrice chainId gasPrice => call (.setGasPrice chainId gasPrice)
where
  call (c : Call) : Option StartupWorld :=
    match execute P { m with roflOrigin := true } c w.accounting with
    | .ok (accounting, _) => some (w.commit accounting)
    | .error _ => none

def startupMove (w : StartupWorld) : StartupMove → Option StartupWorld
  | .execute ticket m =>
    match w.submissions[ticket]? with
    | none => none
    | some submission =>
      if ticket ∈ w.executed ++ w.reverted then none
      else match executeSubmission P m w submission with
        | some v => some { v with executed := ticket :: v.executed }
        | none => some { w with reverted := ticket :: w.reverted }
  | .transact tx =>
    match execute P tx.msg tx.call w.accounting with
    | .ok (accounting, _) => some (w.commit accounting)
    | .error _ => none
  | .upgrade version =>
    -- never back to an older implementation
    if w.version ≤ version then some { w.commit w.accounting with version } else none

end World

/-- What the starts of one deployment have in common. -/
structure Deployment where
  authTokenKeyId : Text
  gasPriceWei : U256 → Option U256

structure StartupSettings.Deployed (d : Deployment) (settings : StartupSettings) : Prop where
  keyId : settings.authTokenKeyId = d.authTokenKeyId
  prices : ∀ c p : U256, ((c.toNat : ℤ), (p.toNat : ℤ)) ∈ settings.gasPricesWei →
    d.gasPriceWei c = some p

def startupSystem (P : Platform) (keys : RoflKeys) (d : Deployment) :
    TaskSystem StartupWorld StartupOp StartupOp.Reply StartupError StartupAnswer StartupMove
      {settings : StartupSettings // settings.Deployed d} where
  perform _ := startupPerform P keys
  move e w := startupMove P w e
  body settings := lifespan keys settings.1
  start _ w := if w.started then none else some { w with started := true }
  leave _ w := w
  restart w := { w with started := false, givenUp := [] }

end Privana
