import Privana.Types

/-! `EVMSignerAndVerifier.sol`: the contract's keys, per-chain nonces and gas
prices, the token data codecs, and every helper that signs a transaction. A
signed transaction is kept together with the key and fields it was signed with. -/

namespace Privana
open BigEndian CheckedArithmetic

structure SignerState where
  evmAddress : Address
  secretKey : Bytes32
  gasTankAddress : Address
  gasTankSecret : Bytes32
  nonces : U256 → U64
  gasPrices : U256 → U256
  roflSignerAddress : Address

def gasLimitNativeSweep : U64 := 25000
def gasLimitERC20Sweep : U64 := 65000
def gasLimitNativeWithdraw : U64 := 50000
def gasLimitERC20Withdraw : U64 := 100000

/-- The bytes `EIP155Signer.sign` returned for these arguments. -/
structure SignedTx (P : Platform) where
  account : Address
  secret : Bytes32
  tx : EthTx
  raw : Bytes
  signed : P.sign account secret tx = some raw

section Signer
variable (P : Platform)

def signTx (account : Address) (secret : Bytes32) (tx : EthTx) : Except Error (SignedTx P) :=
  match h : P.sign account secret tx with
  | some raw => .ok ⟨account, secret, tx, raw, h⟩
  | none => .error .library

/-- `abi.encodeWithSignature("transfer(address,uint256)", userAddress, amount)`. -/
def encodeTransferCall (userAddress : Address) (amount : U256) : Bytes :=
  (word (P.keccak256 (utf8 "transfer(address,uint256)"))).take 4 ++
    abiEncode [addressWord userAddress, amount]

def deriveDepositKeypair (s : SignerState) (beneficiary : Address) (chainType : ChainType)
    (version : U256) : Address × Bytes32 :=
  let seed := P.keccak256
    (abiEncode [s.secretKey, addressWord beneficiary, chainType.index, version])
  let (pk, sk) := P.generateSigningKeyPair (word seed)
  (P.k256PubkeyToEthereumAddress pk, ofBytes (sk.take 32))

def onlyROFL (m : Msg) : Except Error Unit := revertIf (m.roflOrigin = false) .library

def onlyROFLQuery (m : Msg) (s : SignerState) : Except Error Unit := do
  revertIf (s.roflSignerAddress = 0) .RoflSignerNotSet
  revertIf (m.sender ≠ s.roflSignerAddress) .NotAuthorizedROFL

def setGasPrice (m : Msg) (chainId gasPrice : U256) (s : SignerState) :
    Except Error SignerState := do
  onlyROFL m
  revertIf (gasPrice = 0) .InvalidGasPrice
  return { s with gasPrices := Function.update s.gasPrices chainId gasPrice }

def setRoflSignerAddress (m : Msg) (newSigner : Address) (s : SignerState) :
    Except Error SignerState := do
  onlyROFL m
  revertIf (newSigner = 0) .InvalidAddress
  return { s with roflSignerAddress := newSigner }

def generateNativeTransfer (s : SignerState) (chainId : U256) (userAddress : Address)
    (amount : U256) (nonce : U64) : Except Error (SignedTx P) := do
  revertIf (s.gasPrices chainId = 0) (.GasPriceNotSet chainId)
  signTx P s.evmAddress s.secretKey
    { nonce, gasPrice := s.gasPrices chainId, gasLimit := gasLimitNativeWithdraw,
      toAddress := userAddress, value := amount, data := [], chainId }

def generateERC20Transfer (s : SignerState) (chainId : U256)
    (userAddress tokenAddress : Address) (amount : U256) (nonce : U64) :
    Except Error (SignedTx P) := do
  revertIf (s.gasPrices chainId = 0) (.GasPriceNotSet chainId)
  signTx P s.evmAddress s.secretKey
    { nonce, gasPrice := s.gasPrices chainId, gasLimit := gasLimitERC20Withdraw,
      toAddress := tokenAddress, value := 0,
      data := encodeTransferCall P userAddress amount, chainId }

/-- A native transfer out of a derived deposit address. -/
def depositTransfer (s : SignerState) (gasLimit : U64) (beneficiary : Address)
    (chainType : ChainType) (version chainId : U256) (toAddress : Address) (amount : U256)
    (nonce : U64) (gasPrice : U256) : Except Error (SignedTx P) :=
  let (depositAddr, depositSecret) := deriveDepositKeypair P s beneficiary chainType version
  signTx P depositAddr depositSecret
    { nonce, gasPrice, gasLimit, toAddress, value := amount, data := [], chainId }

/-- `token.transfer(toAddress, amount)` out of a derived deposit address. -/
def depositERC20Transfer (s : SignerState) (gasLimit : U64) (beneficiary : Address)
    (chainType : ChainType) (version chainId : U256) (toAddress tokenAddress : Address)
    (amount : U256) (nonce : U64) (gasPrice : U256) : Except Error (SignedTx P) :=
  let (depositAddr, depositSecret) := deriveDepositKeypair P s beneficiary chainType version
  signTx P depositAddr depositSecret
    { nonce, gasPrice, gasLimit, toAddress := tokenAddress, value := 0,
      data := encodeTransferCall P toAddress amount, chainId }

def generateSweepNativeTransfer (m : Msg) (s : SignerState) (beneficiary : Address)
    (chainType : ChainType) (version chainId amount : U256) (sourceChainNonce : U64)
    (gasPrice : U256) : Except Error (SignedTx P) := do
  onlyROFLQuery m s
  depositTransfer P s gasLimitNativeSweep beneficiary chainType version chainId s.evmAddress
    amount sourceChainNonce gasPrice

def generateSweepERC20Transfer (m : Msg) (s : SignerState) (beneficiary : Address)
    (chainType : ChainType) (version chainId : U256) (tokenAddress : Address) (amount : U256)
    (sourceChainNonce : U64) (gasPrice : U256) : Except Error (SignedTx P) := do
  onlyROFLQuery m s
  depositERC20Transfer P s gasLimitERC20Sweep beneficiary chainType version chainId
    s.evmAddress tokenAddress amount sourceChainNonce gasPrice

def generateDepositAddressTransfer (s : SignerState) (beneficiary : Address)
    (chainType : ChainType) (version chainId : U256) (toAddress : Address) (amount : U256)
    (sourceChainNonce : U64) (gasPrice : U256) : Except Error (SignedTx P) :=
  depositTransfer P s gasLimitNativeWithdraw beneficiary chainType version chainId toAddress
    amount sourceChainNonce gasPrice

def generateDepositAddressERC20Transfer (s : SignerState) (beneficiary : Address)
    (chainType : ChainType) (version chainId : U256) (toAddress tokenAddress : Address)
    (amount : U256) (sourceChainNonce : U64) (gasPrice : U256) : Except Error (SignedTx P) :=
  depositERC20Transfer P s gasLimitERC20Withdraw beneficiary chainType version chainId
    toAddress tokenAddress amount sourceChainNonce gasPrice

def generateGasFundingTx (m : Msg) (s : SignerState) (toDepositAddress : Address)
    (chainId gasAmount : U256) (gasTankNonce : U64) (gasPrice : U256) :
    Except Error (SignedTx P) := do
  onlyROFLQuery m s
  signTx P s.gasTankAddress s.gasTankSecret
    { nonce := gasTankNonce, gasPrice, gasLimit := gasLimitNativeSweep,
      toAddress := toDepositAddress, value := gasAmount, data := [], chainId }

end Signer

def decodeEVMNativeTokenData (data : Bytes) : Except Error U256 := do
  revertIf (data.length ≠ 32) .InvalidNativeTokenDataLength
  return ofBytes (data.take 32)

def encodeEVMNativeTokenData (chainId : U256) : Bytes := word chainId

/-- The second `mload` reads the word that ends at byte 52; an address is its low
160 bits. -/
def decodeEVMErc20TokenData (data : Bytes) : Except Error (U256 × Address) := do
  revertIf (data.length ≠ 52) .InvalidERC20TokenDataLength
  return (ofBytes (data.take 32), (ofBytes ((data.drop 20).take 32)).setWidth 160)

def encodeEVMErc20TokenData (chainId : U256) (tokenAddress : Address) : Bytes :=
  word chainId ++ packedAddress tokenAddress

def getEVMNonceAndIncrement (chainId : U256) (s : SignerState) :
    Except Error (U64 × SignerState) := do
  let nonce := s.nonces chainId
  let next ← checkedAdd .panic nonce 1
  return (nonce, { s with nonces := Function.update s.nonces chainId next })

variable {P : Platform}

theorem signTx_eq_ok {account : Address} {secret : Bytes32} {tx : EthTx} {x : SignedTx P} :
    signTx P account secret tx = .ok x ↔
      x.account = account ∧ x.secret = secret ∧ x.tx = tx := by
  unfold signTx
  constructor
  · intro h
    split at h
    · obtain rfl := Except.ok.inj h
      exact ⟨rfl, rfl, rfl⟩
    · cases h
  · rintro ⟨rfl, rfl, rfl⟩
    split
    · next raw h =>
      have hr : raw = x.raw := Option.some.inj (h.symm.trans x.signed)
      subst hr
      rfl
    · next h =>
      have := x.signed
      simp [h] at this

theorem getEVMNonceAndIncrement_eq_ok {chainId : U256} {s s' : SignerState} {nonce : U64} :
    getEVMNonceAndIncrement chainId s = .ok (nonce, s') ↔
      nonce = s.nonces chainId ∧ ∃ next : U64, next.toNat = nonce.toNat + 1 ∧
        s' = { s with nonces := Function.update s.nonces chainId next } := by
  simp only [getEVMNonceAndIncrement, bind_eq_ok, checkedAdd_eq_ok, pure_eq_ok,
    Prod.mk.injEq]
  constructor
  · rintro ⟨next, hn, rfl, rfl⟩
    exact ⟨rfl, next, hn, rfl⟩
  · rintro ⟨rfl, next, hn, rfl⟩
    exact ⟨next, hn, rfl, rfl⟩

end Privana
