import Privana.CheckedArithmetic
import Privana.TransactionMachine
import Privana.Types

/-! `UPUPSUpgradeable.sol` with the hooks of `Accounting.sol`: the owner proposes an
implementation, and upgrades to it in a later block. The two base contracts are
parameters, the ownership checks of the one and what the other does after the
authorisation, and so are the accounts a call finds. What a migration does through the
functions below is a step of the run of its own. -/

namespace Privana
open BigEndian CheckedArithmetic

structure UpgradeState where
  owner : Address
  implementation : Address
  newImplementation : Address := 0
  newImplementationHash : Bytes32 := 0
  minBlockNumber : U256 := 0

/-- The accounts as a call finds them; there is no code at the zero address. -/
structure Accounts where
  code : Address → Bytes
  /-- The account exists, with or without code. -/
  present : Address → Bool
  zero_code : code 0 = []

/-- `EXTCODEHASH`: zero for an account that does not exist. -/
def Accounts.codehash (P : Platform) (accounts : Accounts) (a : Address) : Bytes32 :=
  if accounts.present a ∨ accounts.code a ≠ [] then P.keccak256 (accounts.code a) else 0

inductive UpgradeError where
  | ImplementationDoesNotMatch
  | ImplementationHashDoesNotMatch
  | MinBlockNumberNotReached
  | MinBlockNumberInPast
  | NewImplementationNotAContract
  | OwnableUnauthorizedAccount (account : Address)
  | OwnableInvalidOwner (owner : Address)
  /-- A revert of the UUPS base or of the migration call. -/
  | base
  /-- `renounceOwnership` reverts without a reason. -/
  | disabled
  | panic
  deriving DecidableEq

inductive UpgradeEvent where
  | UpgradeProposed (newImplementation : Address) (newImplementationHash : Bytes32)
      (minBlockNumber : U256)
  | UpgradeAccepted (newImplementation : Address) (newImplementationHash : Bytes32)
      (minBlockNumber : U256)
  | OwnershipTransferred (previousOwner newOwner : Address)
  deriving DecidableEq

/-- `_upgradeToAndCallUUPS` runs through for these accounts, implementation and data. -/
abbrev UUPSBase := Accounts → Address → Bytes → Bool

/-- `OwnableUpgradeable`: what a sender can do while someone is the owner. -/
structure OwnableBase where
  checkOwner : (owner sender : Address) → Except UpgradeError Unit
  transferOwnership : (owner sender newOwner : Address) →
    Except UpgradeError (Address × List UpgradeEvent)

/-- The modifier `onlyOwner` lets nobody through but the owner. -/
structure OwnableBase.Guards (ownable : OwnableBase) : Prop where
  checkOwner : ∀ {owner sender u}, ownable.checkOwner owner sender = .ok u → sender = owner
  transferOwnership : ∀ {owner sender newOwner r},
    ownable.transferOwnership owner sender newOwner = .ok r → sender = owner

inductive UpgradeCall where
  | proposeUpgrade (newImplementation : Address) (minBlockNumber : U256)
  | upgradeToAndCall (newImplementation : Address) (data : Bytes)
  | transferOwnership (newOwner : Address)
  | renounceOwnership

structure UpgradeTx where
  msg : Msg
  accounts : Accounts
  call : UpgradeCall

abbrev UpgradeResult := Except UpgradeError (UpgradeState × List UpgradeEvent)

section Functions
variable (P : Platform) (ownable : OwnableBase) (m : Msg) (accounts : Accounts)

/-- The body of the modifier `acceptProposedUpgrade`; the stored hash stays. -/
def acceptProposeUpgrade (newImplementation : Address) (s : UpgradeState) : UpgradeResult := do
  revertIf (newImplementation ≠ s.newImplementation) .ImplementationDoesNotMatch
  revertIf (accounts.codehash P newImplementation ≠ s.newImplementationHash)
    .ImplementationHashDoesNotMatch
  revertIf (m.blockNumber < s.minBlockNumber) .MinBlockNumberNotReached
  let event := .UpgradeAccepted newImplementation (accounts.codehash P newImplementation)
    s.minBlockNumber
  return ({ s with newImplementation := 0, minBlockNumber := 0 }, [event])

/-- Zero stands for the next block. -/
def effectiveMinBlock (minBlockNumber : U256) : Except UpgradeError U256 :=
  if minBlockNumber = 0 then checkedAdd .panic m.blockNumber 1 else .ok minBlockNumber

/-- The proposal is stored before its authorisation is checked. -/
def proposeUpgrade (newImplementation : Address) (minBlockNumber : U256) (s : UpgradeState) :
    UpgradeResult := do
  revertIf ((accounts.code newImplementation).length = 0) .NewImplementationNotAContract
  let minBlockNumber ← effectiveMinBlock m minBlockNumber
  revertIf (minBlockNumber ≤ m.blockNumber) .MinBlockNumberInPast
  let newImplementationHash := accounts.codehash P newImplementation
  let s := { s with newImplementation, newImplementationHash, minBlockNumber }
  ownable.checkOwner s.owner m.sender
  return (s, [.UpgradeProposed newImplementation newImplementationHash minBlockNumber])

def authorizeUpgrade (newImplementation : Address) (s : UpgradeState) : UpgradeResult := do
  ownable.checkOwner s.owner m.sender
  acceptProposeUpgrade P m accounts newImplementation s

def upgradeToAndCall (base : UUPSBase) (newImplementation : Address) (data : Bytes)
    (s : UpgradeState) : UpgradeResult := do
  let (s, events) ← authorizeUpgrade P ownable m accounts newImplementation s
  revertIf (base accounts newImplementation data = false) .base
  return ({ s with implementation := newImplementation }, events)

def transferOwnership (newOwner : Address) (s : UpgradeState) : UpgradeResult := do
  let (owner, events) ← ownable.transferOwnership s.owner m.sender newOwner
  return ({ s with owner }, events)

end Functions

def executeUpgrade (P : Platform) (ownable : OwnableBase) (base : UUPSBase) (tx : UpgradeTx)
    (s : UpgradeState) : UpgradeResult :=
  match tx.call with
  | .proposeUpgrade newImplementation minBlockNumber =>
    proposeUpgrade P ownable tx.msg tx.accounts newImplementation minBlockNumber s
  | .upgradeToAndCall newImplementation data =>
    upgradeToAndCall P ownable tx.msg tx.accounts base newImplementation data s
  | .transferOwnership newOwner => transferOwnership ownable tx.msg newOwner s
  | .renounceOwnership => .error .disabled

def upgradeable (P : Platform) (ownable : OwnableBase) (base : UUPSBase) :
    TransactionMachine UpgradeState UpgradeTx (List UpgradeEvent) UpgradeError :=
  ⟨fun s tx => executeUpgrade P ownable base tx s⟩

abbrev UpgradeReceipt := TransactionMachine.Entry UpgradeState UpgradeTx (List UpgradeEvent)

/-- What a successful call does. -/
inductive UpgradeStep (P : Platform) (base : UUPSBase) (tx : UpgradeTx) (s : UpgradeState) :
    UpgradeState → Prop
  | propose {newImplementation : Address} {requested minBlockNumber : U256}
      (call : tx.call = .proposeUpgrade newImplementation requested)
      (owner : tx.msg.sender = s.owner) (contract : tx.accounts.code newImplementation ≠ [])
      (effective : effectiveMinBlock tx.msg requested = .ok minBlockNumber)
      (later : tx.msg.blockNumber < minBlockNumber) :
      UpgradeStep P base tx s { s with
        newImplementation
        newImplementationHash := tx.accounts.codehash P newImplementation
        minBlockNumber }
  | upgrade {newImplementation : Address} {data : Bytes}
      (call : tx.call = .upgradeToAndCall newImplementation data)
      (owner : tx.msg.sender = s.owner) (proposed : newImplementation = s.newImplementation)
      (hash : tx.accounts.codehash P newImplementation = s.newImplementationHash)
      (reached : s.minBlockNumber ≤ tx.msg.blockNumber)
      (accepted : base tx.accounts newImplementation data = true) :
      UpgradeStep P base tx s { s with
        newImplementation := 0
        minBlockNumber := 0
        implementation := newImplementation }
  | transfer {newOwner owner' : Address} (call : tx.call = .transferOwnership newOwner)
      (owner : tx.msg.sender = s.owner) : UpgradeStep P base tx s { s with owner := owner' }

theorem executeUpgrade_step {P : Platform} {ownable : OwnableBase} {base : UUPSBase}
    {tx : UpgradeTx} {s s' : UpgradeState} {events : List UpgradeEvent} (guards : ownable.Guards)
    (h : executeUpgrade P ownable base tx s = .ok (s', events)) : UpgradeStep P base tx s s' := by
  unfold executeUpgrade at h
  split at h
  · next newImplementation requested call =>
    simp only [proposeUpgrade, bind_eq_ok, revertIf_eq_ok, pure_eq_ok, Prod.mk.injEq] at h
    obtain ⟨_, contract, minBlockNumber, effective, _, later, _, owner, rfl, rfl⟩ := h
    exact .propose call (guards.checkOwner owner) (by simpa using contract) effective
      (BitVec.not_le.mp later)
  · next newImplementation data call =>
    simp only [upgradeToAndCall, authorizeUpgrade, acceptProposeUpgrade, bind_eq_ok,
      revertIf_eq_ok, pure_eq_ok, Prod.exists, Prod.mk.injEq] at h
    obtain ⟨_, _, ⟨_, owner, _, proposed, _, hash, _, reached, rfl, rfl⟩, _, accepted, rfl, rfl⟩ := h
    exact .upgrade call (guards.checkOwner owner) (not_not.mp proposed) (not_not.mp hash)
      (BitVec.not_lt.mp reached) (by simpa using accepted)
  · next newOwner call =>
    simp only [transferOwnership, bind_eq_ok, pure_eq_ok, Prod.exists, Prod.mk.injEq] at h
    obtain ⟨_, _, owner, rfl, rfl⟩ := h
    exact .transfer call (guards.transferOwnership owner)
  · cases h

end Privana
