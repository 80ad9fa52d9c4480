import Mathlib.Data.BitVec
import Mathlib.Logic.Function.Basic
import Privana.CheckedArithmetic
import Privana.HexText

/-! The data model of the contracts: machine words, the enumerations and structs
of `Types.sol`, the custom errors, and the platform the contracts run on.
Hashing, signature recovery, key generation and transaction signing are library
code outside the repository, so they are fields of `Platform`, and so is the
`to_checksum_address` of `web3`. -/

namespace Privana
open BigEndian CheckedArithmetic

abbrev Address := BitVec 160
abbrev Bytes32 := BitVec 256
abbrev U256 := BitVec 256
abbrev U64 := BitVec 64

instance instLawfulBEqBytes32 : LawfulBEq Bytes32 := inferInstance

def utf8 (s : String) : Bytes := s.toUTF8.data.toList

/-- `abi.encode` of static arguments: one 32-byte word each. -/
def abiEncode (ws : List (BitVec 256)) : Bytes := ws.flatMap word

def addressWord (a : Address) : BitVec 256 := a.setWidth 256

def packedAddress (a : Address) : Bytes := encode 20 a.toNat

theorem addressWord_injective {a b : Address} (h : addressWord a = addressWord b) : a = b := by
  have ht := congrArg BitVec.toNat h
  simp only [addressWord, BitVec.toNat_setWidth] at ht
  apply BitVec.eq_of_toNat_eq
  have ha := a.isLt
  have hb := b.isLt
  omega

@[simp] theorem packedAddress_length (a : Address) : (packedAddress a).length = 20 :=
  encode_length _ _

theorem address_packedAddress (a : Address) : BitVec.ofNat 160 (decode (packedAddress a)) = a := by
  have ha : a.toNat < 256 ^ 20 := by
    have hw : (256 : ℕ) ^ 20 = 2 ^ 160 := by norm_num
    rw [hw]
    exact a.isLt
  rw [packedAddress, decode_encode_of_lt ha, BitVec.ofNat_toNat, BitVec.setWidth_eq]

theorem abiEncode_injective {vs ws : List (BitVec 256)} (h : abiEncode vs = abiEncode ws) :
    vs = ws := by
  induction vs generalizing ws with
  | nil =>
    cases ws with
    | nil => rfl
    | cons w ws =>
      have hl := congrArg List.length h
      simp [abiEncode] at hl
      omega
  | cons v vs ih =>
    cases ws with
    | nil =>
      have hl := congrArg List.length h
      simp [abiEncode] at hl
    | cons w ws =>
      obtain ⟨hw, ht⟩ := word_append_inj (by simpa [abiEncode] using h)
      rw [hw, ih ht]

inductive TokenType where
  | NativeEVM
  | ERC20
  deriving DecidableEq, Repr

inductive ChainType where
  | EVM
  deriving DecidableEq, Repr

def TokenType.index : TokenType → BitVec 256
  | .NativeEVM => 0
  | .ERC20 => 1

def ChainType.index : ChainType → BitVec 256
  | .EVM => 0

inductive HistoryKind where
  | Deposit
  | Withdraw
  | CreateLock
  | TransferFromLockOut
  | TransferFromLockIn
  | TransferBalanceOut
  | TransferBalanceIn
  | ModifyLock
  | UnlockLock
  | TransferToLockOut
  | TransferToLockIn
  deriving DecidableEq, Repr

structure TokenInfo where
  tokenType : TokenType
  data : Bytes
  deriving DecidableEq

structure FundLock where
  lockId : U256
  serviceId : Address
  tokenId : Bytes32
  amount : U256
  expiry : U256
  deriving DecidableEq

structure UserInfo where
  activeLocks : List FundLock
  deriving DecidableEq

structure HistoryEntry where
  kind : HistoryKind
  timestamp : U64
  payload : Bytes
  deriving DecidableEq

/-- The reverts of the contracts: their custom errors, the failure of a library
call, and Solidity's panics on arithmetic and array access. -/
inductive Error where
  | InvalidSignature
  | InvalidNonce
  | GasPriceNotSet (chainId : U256)
  | InvalidGasPrice
  | InvalidNativeTokenDataLength
  | InvalidERC20TokenDataLength
  | InvalidAddress
  | NotAuthorizedROFL
  | RoflSignerNotSet
  | EmergencyWithdrawTooSoon
  | EmergencyWithdrawNotFound
  | InsufficientBalance
  | TooManyActiveLocks
  | InvalidLockId
  | LockNotExpired
  | InsufficientLockedAmount
  | AddressMismatch
  | InvalidExpiry
  | InvalidAmount
  | WithdrawalTooSoon
  | DepositAlreadyProcessed
  | UnsupportedTokenType
  | library
  | abiDecode
  | panic
  deriving DecidableEq

inductive Event where
  | Deposit (tokenId : Bytes32) (amount : U256) (depositId : Bytes32)
  | Withdrawal (userAddress : Address) (tokenId : Bytes32) (amount chainId : U256)
  | WithdrawalResolved (index : ℕ) (userAddress : Address) (tokenId : Bytes32)
      (toAddress : Address) (amount chainId : U256)
  | TokenRegistered (tokenId : Bytes32) (tokenType : TokenType)
  | GasPriceSet (chainId gasPrice : U256)
  | RoflSignerUpdated (newSigner : Address)
  | EmergencyWithdrawRequested (requestId tokenId : Bytes32)
  | EmergencyWithdrawExecuted (requestId : Bytes32)
  deriving DecidableEq

/-- The transaction `EIP155Signer` signs. -/
structure EthTx where
  nonce : U64
  gasPrice : U256
  gasLimit : U64
  toAddress : Address
  value : U256
  data : Bytes
  chainId : U256
  deriving DecidableEq

/-- `Web3.to_checksum_address`, which reads an address off a text, or raises, and writes
one with some of its digits as capitals. -/
structure AddressLibrary where
  toChecksumAddress : Text → Option Address
  toChecksumAddress_hexText : ∀ (s : Text) (a : Address), lower s = hexText (packedAddress a) →
    toChecksumAddress s = some a
  checksumText : Address → Text
  lower_checksumText : ∀ a, lower (checksumText a) = hexText (packedAddress a)

def sampleUser : Address := 0xe1ab8145f7e55dc933d51a18c793f901a3a0b276

/-- An address library that agrees with the real one on the texts of the sample runs. -/
def sampleAddresses : AddressLibrary where
  toChecksumAddress s :=
    (readDigits 0 (s.drop 2)).bind fun n =>
      if lower s = hexText (packedAddress (.ofNat 160 n)) then some (.ofNat 160 n) else none
  toChecksumAddress_hexText s a h := by
    have digits : lower (s.drop 2) = hexDigits (packedAddress a) := by
      rw [lower, List.map_drop, ← lower, h, hexText, List.drop_succ_cons, List.drop_succ_cons,
        List.drop_zero]
    have value : readDigits 0 (s.drop 2) = some (decode (packedAddress a)) := by
      rw [← readDigits_lower, digits]
      exact readDigits_hexDigits 0 (packedAddress a)
    rw [value, Option.bind_some, address_packedAddress, if_pos h]
  checksumText a :=
    if a = sampleUser then text "0xe1AB8145F7E55DC933d51a18c793F901A3A0b276"
    else hexText (packedAddress a)
  lower_checksumText a := by
    split
    · next user =>
      rw [user]
      decide
    · exact lower_hexText _

structure Platform extends AddressLibrary where
  keccak256 : Bytes → Bytes32
  /-- `ECDSA.recover`; `none` when it reverts. -/
  recover : Bytes32 → Bytes → Option Address
  /-- `EIP155Signer.sign`; `none` when it reverts. -/
  sign : Address → Bytes32 → EthTx → Option Bytes
  /-- `Sapphire.generateSigningKeyPair` on a seed: public and secret key. -/
  generateSigningKeyPair : Bytes → Bytes × Bytes
  k256PubkeyToEthereumAddress : Bytes → Address
  /-- `address(this)` of the proxy. -/
  contractAddress : Address
  /-- `block.chainid`. -/
  chainid : U256

/-- What a call sees of its transaction and block. `roflOrigin` is whether
`Subcall.roflEnsureAuthorizedOrigin` accepts the transaction's origin. -/
structure Msg where
  sender : Address
  roflOrigin : Bool
  blockNumber : U256
  timestamp : U256

end Privana
