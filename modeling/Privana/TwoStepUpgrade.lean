import Privana.UPUPSUpgradeable
import Privana.WithdrawalPayout

/-! Two-step upgrades. The stored proposal is the last successful `proposeUpgrade`, as
long as its implementation is not cleared; an upgrade clears it. A cleared slot matches
the zero address only, which has no code. -/

namespace Privana
open BigEndian CheckedArithmetic

variable {P : Platform} {ownable : OwnableBase} {base : UUPSBase}

def UpgradeCall.isUpgrading : UpgradeCall → Bool
  | .proposeUpgrade .. | .upgradeToAndCall .. => true
  | _ => false

/-- No successful proposal and no successful upgrade. -/
def Quiet (log : List UpgradeReceipt) : Prop := ∀ q ∈ log, q.input.call.isUpgrading = false

/-- The owner of the time proposes `newImplementation`, whose code has this hash, for
block `minBlockNumber` or later. -/
structure Proposes (P : Platform) (p : UpgradeReceipt) (newImplementation : Address)
    (hash : Bytes32) (minBlockNumber : U256) : Prop where
  call : ∃ requested, p.input.call = .proposeUpgrade newImplementation requested ∧
    effectiveMinBlock p.input.msg requested = .ok minBlockNumber
  owner : p.input.msg.sender = p.before.owner
  contract : p.input.accounts.code newImplementation ≠ []
  hash : p.input.accounts.codehash P newImplementation = hash
  later : p.input.msg.blockNumber < minBlockNumber

/-- The last thing that `log` did about upgrades was to propose this. -/
def Pending (P : Platform) (log : List UpgradeReceipt) (newImplementation : Address)
    (hash : Bytes32) (minBlockNumber : U256) : Prop :=
  ∃ l p l', log = l ++ p :: l' ∧ Proposes P p newImplementation hash minBlockNumber ∧ Quiet l'

/-- The upgrade `e` after `log` was announced: by the owner, in an earlier block, for the
code that it finds, and nothing happened in between. -/
structure Announced (P : Platform) (log : List UpgradeReceipt) (e : UpgradeReceipt)
    (newImplementation : Address) : Prop where
  owner : e.input.msg.sender = e.before.owner
  proposed : ∃ minBlockNumber,
    Pending P log newImplementation (e.input.accounts.codehash P newImplementation)
      minBlockNumber ∧ minBlockNumber ≤ e.input.msg.blockNumber

structure TwoStep (P : Platform) (ownable : OwnableBase) (base : UUPSBase)
    (start : UpgradeState) (txs : List UpgradeTx) : Prop where
  announced : ∀ log e log' newImplementation data,
    (upgradeable P ownable base).log start txs = log ++ e :: log' →
    e.input.call = .upgradeToAndCall newImplementation data → Announced P log e newImplementation
  /-- Between two upgrades there is another proposal. -/
  once : ∀ log e between e' log' X X' data data',
    (upgradeable P ownable base).log start txs = log ++ e :: (between ++ e' :: log') →
    e.input.call = .upgradeToAndCall X data → e'.input.call = .upgradeToAndCall X' data' →
    ∃ p ∈ between, ∃ hash minBlockNumber, Proposes P p X' hash minBlockNumber ∧
      p.input.msg.blockNumber < e'.input.msg.blockNumber
  reverts : ∀ js tx error,
    executeUpgrade P ownable base tx ((upgradeable P ownable base).run start js) = .error error →
    (upgradeable P ownable base).run start (js ++ [tx]) =
      (upgradeable P ownable base).run start js

/-- A cleared slot, or the proposal that fills it. -/
def ProposalStored (P : Platform) (log : List UpgradeReceipt) (s : UpgradeState) : Prop :=
  s.newImplementation = 0 ∨
    Pending P log s.newImplementation s.newImplementationHash s.minBlockNumber

theorem Pending.quiet {log : List UpgradeReceipt} {newImplementation : Address} {hash : Bytes32}
    {minBlockNumber : U256} (h : Pending P log newImplementation hash minBlockNumber)
    {e : UpgradeReceipt} (quiet : e.input.call.isUpgrading = false) :
    Pending P (log ++ [e]) newImplementation hash minBlockNumber := by
  obtain ⟨l, p, l', rfl, proposes, rest⟩ := h
  refine ⟨l, p, l' ++ [e], by simp, proposes, fun q hq => ?_⟩
  rcases List.mem_append.mp hq with hq | hq
  · exact rest q hq
  · exact List.mem_singleton.mp hq ▸ quiet

theorem proposalStored_step {log : List UpgradeReceipt} {s s' : UpgradeState} {tx : UpgradeTx}
    {events : List UpgradeEvent} (h : ProposalStored P log s) (step : UpgradeStep P base tx s s') :
    ProposalStored P (log ++ [⟨s, tx, events, s'⟩]) s' := by
  cases step with
  | propose call owner contract effective later =>
    exact .inr ⟨log, _, [], rfl, ⟨⟨_, call, effective⟩, owner, contract, rfl, later⟩,
      fun _ h => (List.not_mem_nil h).elim⟩
  | upgrade => exact .inl rfl
  | transfer call => exact h.imp_right fun h => h.quiet (by simp [call, UpgradeCall.isUpgrading])

section Base
variable (rejects : ∀ accounts newImplementation data, accounts.code newImplementation = [] →
  base accounts newImplementation data = false) (guards : ownable.Guards)
include rejects

theorem announced_of_step {log : List UpgradeReceipt} {s s' : UpgradeState} {tx : UpgradeTx}
    {events : List UpgradeEvent} {newImplementation : Address} {data : Bytes}
    (h : ProposalStored P log s) (step : UpgradeStep P base tx s s')
    (call : tx.call = .upgradeToAndCall newImplementation data) :
    Announced P log ⟨s, tx, events, s'⟩ newImplementation := by
  cases step with
  | propose call' => rw [call] at call'; cases call'
  | transfer call' => rw [call] at call'; cases call'
  | upgrade call' owner proposed hash reached accepted =>
    obtain ⟨rfl, rfl⟩ := UpgradeCall.upgradeToAndCall.inj (call.symm.trans call')
    refine ⟨owner, s.minBlockNumber, ?_, reached⟩
    rcases h with cleared | pending
    · -- only the zero address matches a cleared slot, and it has no code
      have empty : tx.accounts.code newImplementation = [] := by
        rw [proposed, cleared, tx.accounts.zero_code]
      rw [rejects _ _ _ empty] at accepted
      cases accepted
    · rw [hash, proposed]
      exact pending

include guards in
theorem upgrades_announced (start : UpgradeState) (fresh : start.newImplementation = 0)
    (txs : List UpgradeTx) :
    (∀ log e log' newImplementation data,
      (upgradeable P ownable base).log start txs = log ++ e :: log' →
      e.input.call = .upgradeToAndCall newImplementation data →
      Announced P log e newImplementation) ∧
    ProposalStored P ((upgradeable P ownable base).log start txs)
      ((upgradeable P ownable base).run start txs) :=
  (upgradeable P ownable base).run_induction
    (I := fun l s => (∀ log e log' newImplementation data, l = log ++ e :: log' →
      e.input.call = .upgradeToAndCall newImplementation data →
      Announced P log e newImplementation) ∧ ProposalStored P l s)
    ⟨fun _ _ _ _ _ h => by simp at h, .inl fresh⟩
    (fun l s tx s' events h hx => by
      have step := executeUpgrade_step guards hx
      refine ⟨fun log e log' X data split call => ?_, proposalStored_step h.2 step⟩
      rcases List.eq_nil_or_concat log' with rfl | ⟨log'', last, rfl⟩
      · obtain ⟨rfl, last⟩ := List.append_inj' split rfl
        obtain rfl := (List.cons.inj last).1
        exact announced_of_step rejects h.2 step call
      · refine h.1 log e log'' X data ?_ call
        have shifted : l ++ [⟨s, tx, events, s'⟩] = (log ++ e :: log'') ++ [last] := by
          simpa using split
        exact (List.append_inj' shifted rfl).1) txs

end Base

/-- The proposal behind an upgrade comes after every earlier upgrade. -/
theorem pending_between {log between : List UpgradeReceipt} {e : UpgradeReceipt} {X X' : Address}
    {data : Bytes} {hash : Bytes32} {minBlockNumber : U256}
    (call : e.input.call = .upgradeToAndCall X data)
    (pending : Pending P (log ++ e :: between) X' hash minBlockNumber) :
    ∃ p ∈ between, Proposes P p X' hash minBlockNumber := by
  obtain ⟨l, p, l', split, proposes, quiet⟩ := pending
  have other : p ≠ e := by
    rintro rfl
    obtain ⟨requested, call', -⟩ := proposes.call
    rw [call] at call'
    cases call'
  have later : e ∉ l' := by
    intro he
    have := quiet e he
    rw [call] at this
    cases this
  rcases List.append_eq_append_iff.mp split with ⟨a, rfl, h⟩ | ⟨c, rfl, h⟩
  · cases a with
    | nil => exact absurd (List.cons.inj h).1.symm other
    | cons x a =>
      obtain ⟨-, rfl⟩ := List.cons.inj h
      exact ⟨p, by simp, proposes⟩
  · cases c with
    | nil => exact absurd (List.cons.inj h).1 other
    | cons x c =>
      obtain ⟨-, rfl⟩ := List.cons.inj h
      exact absurd (by simp) later

/-- Two-step upgrades: every upgrade was announced by the owner in an earlier block, for
this code, with nothing in between. Ownable is assumed to let nobody through but the owner,
and the UUPS base to reject an implementation without code. -/
theorem two_step_upgrades (P : Platform) (ownable : OwnableBase) (base : UUPSBase)
    (owner implementation : Address) (guards : ownable.Guards)
    (rejects : ∀ accounts newImplementation data, accounts.code newImplementation = [] →
      base accounts newImplementation data = false) (txs : List UpgradeTx) :
    TwoStep P ownable base { owner, implementation } txs := by
  obtain ⟨announced, -⟩ :=
    upgrades_announced (P := P) rejects guards { owner, implementation } rfl txs
  refine ⟨announced, fun log e between e' log' X X' data data' split call call' => ?_,
    fun js tx error h => ?_⟩
  · obtain ⟨-, m, pending, reached⟩ :=
      announced (log ++ e :: between) e' log' X' data' (by simpa using split) call'
    obtain ⟨p, hp, proposes⟩ := pending_between call pending
    have earlier := BitVec.lt_def.mp proposes.later
    exact ⟨p, hp, _, m, proposes, BitVec.lt_def.mpr (earlier.trans_le (BitVec.le_def.mp reached))⟩
  · rw [TransactionMachine.run_concat]
    exact (upgradeable P ownable base).step_of_error h

def sampleImplementation : Address := 0x1001

def sampleAccounts : Accounts where
  code a := if a = sampleImplementation then [0xfe] else []
  present a := a = sampleImplementation
  zero_code := rfl

/-- A base contract that only asks for code. -/
def sampleBase : UUPSBase := fun accounts newImplementation _ =>
  accounts.code newImplementation ≠ []

def sampleOwnable : OwnableBase where
  checkOwner owner sender := revertIf (sender ≠ owner) (.OwnableUnauthorizedAccount sender)
  transferOwnership owner sender newOwner := do
    revertIf (sender ≠ owner) (.OwnableUnauthorizedAccount sender)
    revertIf (newOwner = 0) (.OwnableInvalidOwner 0)
    return (newOwner, [.OwnershipTransferred owner newOwner])

theorem sampleOwnable_guards : sampleOwnable.Guards where
  checkOwner h := not_not.mp (revertIf_eq_ok.mp h)
  transferOwnership h := by
    obtain ⟨_, owner, -⟩ := bind_eq_ok.mp h
    exact not_not.mp (revertIf_eq_ok.mp owner)

/-- The platform of the sample runs, with the hash of the sample code. -/
def sampleUpgradePlatform : Platform :=
  { samplePlatform with
    keccak256 := fun bs => ((sampleKeccak ++
      [([0xfe], 0xbcc90f2d6dada5b18e155c17a1c0a55920aae94f39857d39d0d8ed07ae8f228b)]
      ).lookup bs).getD 0 }

/-- The owner proposes for the next block and hands the contract on, the new owner upgrades. -/
def sampleUpgradeTxs : List UpgradeTx :=
  let owner (blockNumber : U256) : Msg := ⟨sampleUser, false, blockNumber, 1700000000⟩
  [⟨owner 5, sampleAccounts, .proposeUpgrade sampleImplementation 0⟩,
    ⟨owner 5, sampleAccounts, .transferOwnership 0x1002⟩,
    ⟨⟨0x1002, false, 6, 1700000000⟩, sampleAccounts, .upgradeToAndCall sampleImplementation []⟩]

theorem two_step_upgrades_sample :
    TwoStep sampleUpgradePlatform sampleOwnable sampleBase
      { owner := sampleUser, implementation := 0x1000 } sampleUpgradeTxs ∧
    ((upgradeable sampleUpgradePlatform sampleOwnable sampleBase).run
      { owner := sampleUser, implementation := 0x1000 } sampleUpgradeTxs).implementation =
        sampleImplementation :=
  ⟨two_step_upgrades sampleUpgradePlatform sampleOwnable sampleBase sampleUser 0x1000
    sampleOwnable_guards (fun accounts newImplementation _ h => by simp [sampleBase, h])
    sampleUpgradeTxs, by decide +kernel⟩

end Privana
