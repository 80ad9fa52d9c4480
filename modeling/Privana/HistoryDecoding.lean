import Privana.BulkUnlock
import Privana.HexText
import Privana.Journal

/-! The entries of a history as the service reports them. Each operation names a user, a kind, a
token, an amount and a counterparty or a deposit; the entry it appends is read back as exactly
these, and what no operation wrote is reported as unknown. -/

namespace Privana
open BigEndian CheckedArithmetic

variable {P : Platform} {m : Msg}

/-- The ordinal of a kind in `Types.sol`. -/
def HistoryKind.ordinal : HistoryKind → ℕ
  | .Deposit => 0
  | .Withdraw => 1
  | .CreateLock => 2
  | .TransferFromLockOut => 3
  | .TransferFromLockIn => 4
  | .TransferBalanceOut => 5
  | .TransferBalanceIn => 6
  | .ModifyLock => 7
  | .UnlockLock => 8
  | .TransferToLockOut => 9
  | .TransferToLockIn => 10

/-- The service's `HistoryKind(value)`. -/
def historyKindOfInt (value : ℤ) : Option HistoryKind :=
  if value = 0 then some .Deposit
  else if value = 1 then some .Withdraw
  else if value = 2 then some .CreateLock
  else if value = 3 then some .TransferFromLockOut
  else if value = 4 then some .TransferFromLockIn
  else if value = 5 then some .TransferBalanceOut
  else if value = 6 then some .TransferBalanceIn
  else if value = 7 then some .ModifyLock
  else if value = 8 then some .UnlockLock
  else if value = 9 then some .TransferToLockOut
  else if value = 10 then some .TransferToLockIn
  else none

def historyKindWireNames : HistoryKind → Text
  | .Deposit => text "deposit"
  | .Withdraw => text "withdraw"
  | .CreateLock => text "createLock"
  | .TransferFromLockOut => text "transferFromLockOut"
  | .TransferFromLockIn => text "transferFromLockIn"
  | .TransferBalanceOut => text "transferBalanceOut"
  | .TransferBalanceIn => text "transferBalanceIn"
  | .ModifyLock => text "modifyLock"
  | .UnlockLock => text "unlockLock"
  | .TransferToLockOut => text "transferToLockOut"
  | .TransferToLockIn => text "transferToLockIn"

/-- An entry as the contract returns it. -/
structure RawHistoryEntry where
  kind : ℤ
  timestamp : ℕ
  payload : Bytes

/-- The dictionary of an entry; the amount is a decimal text. -/
structure HistoryRecord where
  kind : Text
  timestamp : ℕ
  tokenId : Option Text
  amount : Option Text
  counterparty : Option Text
  depositId : Option Text
  chainId : Option ℕ
  deriving DecidableEq

/-- What the lookup of a token's context raises. -/
inductive LookupError where
  | ValueError
  | other
  deriving DecidableEq

def unknownHistoryEntry (timestamp : ℕ) : HistoryRecord :=
  ⟨text "unknown", timestamp, none, none, none, none, none⟩

section Service
variable (P : Platform) (getTokenContext : Bytes32 → Except LookupError ℕ)

def historyRecord (kind : HistoryKind) (timestamp : ℕ) (decoded : DecodedPayload)
    (chainId : Option ℕ) : HistoryRecord where
  kind := historyKindWireNames kind
  timestamp
  tokenId := some (hexText (word decoded.tokenId))
  amount := some (text (Nat.repr decoded.amount.toNat))
  counterparty := decoded.counterparty.map P.checksumText
  depositId := decoded.depositId.map fun d => hexText (word d)
  chainId

def historyEntryToDict (entry : RawHistoryEntry) : Except LookupError HistoryRecord :=
  match historyKindOfInt entry.kind with
  | none => .ok (unknownHistoryEntry entry.timestamp)
  | some kind =>
    match decodeHistoryPayload kind entry.payload with
    | .error _ => .ok (unknownHistoryEntry entry.timestamp)
    | .ok decoded =>
      match getTokenContext decoded.tokenId with
      | .ok chainId => .ok (historyRecord P kind entry.timestamp decoded (some chainId))
      | .error .ValueError => .ok (historyRecord P kind entry.timestamp decoded none)
      | .error .other => .error .other

/-- The page of `get_history`; an error of any entry is the page's. -/
def historyRecords (entries : List RawHistoryEntry) : Except LookupError (List HistoryRecord) :=
  entries.mapM (historyEntryToDict P getTokenContext)

end Service

/-- The last part of an entry. -/
inductive Tail where
  | counterparty (a : Address)
  | deposit (depositId : Bytes32)

/-- What an operation did for a user. -/
structure Activity where
  user : Address
  kind : HistoryKind
  tokenId : Bytes32
  amount : U256
  tail : Tail

/-- Deposits name a deposit id, and all other kinds a counterparty. -/
def Activity.WellFormed (x : Activity) : Prop :=
  match x.tail with
  | .counterparty _ => x.kind ≠ .Deposit
  | .deposit _ => x.kind = .Deposit

def Activity.entry (m : Msg) (x : Activity) : HistoryEntry :=
  match x.tail with
  | .counterparty a => .withCounterparty m x.kind x.tokenId x.amount a
  | .deposit depositId => .deposit m x.tokenId x.amount depositId

def Activity.decoded (x : Activity) : DecodedPayload :=
  match x.tail with
  | .counterparty a => ⟨x.tokenId, x.amount, some a, none⟩
  | .deposit depositId => ⟨x.tokenId, x.amount, none, some depositId⟩

/-- The calls that do not concern a user's balance or locks. -/
def Call.Quiet : Call → Prop
  | .creditDeposit .. | .createLock .. | .modifyLock .. | .unlockSingleLock ..
  | .unlockAllExpiredLocks .. | .transferFromLock .. | .transferToLock .. | .withdrawFromLock ..
  | .transferBalance .. | .requestWithdrawal .. => False
  | _ => True

def unlocked (u : Address) (l : FundLock) : Activity :=
  ⟨u, .UnlockLock, l.tokenId, l.amount, .counterparty l.serviceId⟩

/-- What a call does in state `s`, in the order of its effects: the signer is the one of the
call's approval, and the locks are those that the call addresses. -/
inductive Acts {P : Platform} (m : Msg) (s : State) (o : Output P) : Call → List Activity → Prop
  | creditDeposit (beneficiary : Address) (tokenId : Bytes32) (amount : U256)
      (depositId : Bytes32) : Acts m s o (.creditDeposit beneficiary tokenId amount depositId)
        [⟨beneficiary, .Deposit, tokenId, amount, .deposit depositId⟩]
  | createLock {a : Approval P} (approval : o.approval = some a) (service : Address)
      (tokenId : Bytes32) (amount expiry nonce : U256) (signature : Bytes) :
      Acts m s o (.createLock service tokenId amount expiry nonce signature)
        [⟨a.signer, .CreateLock, tokenId, amount, .counterparty service⟩]
  | modifyLock {a : Approval P} {l : FundLock} (approval : o.approval = some a)
      (found : l ∈ s.activeLocks a.signer) (amount newExpiry nonce : U256) (signature : Bytes) :
      Acts m s o (.modifyLock l.lockId amount newExpiry nonce signature)
        [⟨a.signer, .ModifyLock, l.tokenId, amount, .counterparty l.serviceId⟩]
  | unlockSingleLock {u : Address} {l : FundLock} (found : l ∈ s.activeLocks u) :
      Acts m s o (.unlockSingleLock u l.lockId) (if l.amount = 0 then [] else [unlocked u l])
  | unlockAllExpiredLocks {u : Address} {ls left : List FundLock}
      (found : (s.activeLocks u).Perm (ls ++ left)) (expired : ∀ l ∈ ls, l.expiry ≤ m.timestamp)
      (rest : ∀ l ∈ left, ¬ (l.expiry ≤ m.timestamp ∧ 0 < l.amount)) :
      Acts m s o (.unlockAllExpiredLocks u) (ls.map (unlocked u))
  | transferFromLock {u : Address} {l : FundLock} (found : l ∈ s.activeLocks u) (to_ : Address)
      (amount nonce : U256) (signature : Bytes) :
      Acts m s o (.transferFromLock u to_ l.lockId amount nonce signature)
        (⟨u, .TransferFromLockOut, l.tokenId, amount, .counterparty to_⟩ ::
          if to_ ≠ u then [⟨to_, .TransferFromLockIn, l.tokenId, amount, .counterparty u⟩] else [])
  | transferToLock {u : Address} {l : FundLock} (found : l ∈ s.activeLocks u)
      (amount nonce : U256) (signature : Bytes) :
      Acts m s o (.transferToLock u l.lockId amount nonce signature)
        [⟨l.serviceId, .TransferToLockOut, l.tokenId, amount, .counterparty u⟩,
          ⟨u, .TransferToLockIn, l.tokenId, amount, .counterparty l.serviceId⟩]
  | withdrawFromLock {u : Address} {l : FundLock} (found : l ∈ s.activeLocks u) (to_ : Address)
      (amount nonce : U256) (signature : Bytes) :
      Acts m s o (.withdrawFromLock u to_ l.lockId amount nonce signature)
        [⟨u, .Withdraw, l.tokenId, amount, .counterparty to_⟩]
  | transferBalance {a : Approval P} (approval : o.approval = some a) (to_ : Address)
      (tokenId : Bytes32) (amount nonce : U256) (signature : Bytes) :
      Acts m s o (.transferBalance to_ tokenId amount nonce signature)
        (⟨a.signer, .TransferBalanceOut, tokenId, amount, .counterparty to_⟩ ::
          if to_ ≠ a.signer then
            [⟨to_, .TransferBalanceIn, tokenId, amount, .counterparty a.signer⟩] else [])
  | requestWithdrawal {a : Approval P} (approval : o.approval = some a) (tokenId : Bytes32)
      (amount nonce : U256) (signature : Bytes) :
      Acts m s o (.requestWithdrawal tokenId amount nonce signature)
        [⟨a.signer, .Withdraw, tokenId, amount, .counterparty a.signer⟩]
  | quiet {call : Call} (quiet : call.Quiet) : Acts m s o call []

def entriesOf (m : Msg) (acts : List Activity) (u : Address) : List HistoryEntry :=
  linesOf (acts.map fun x => ⟨x.user, x.entry m⟩) u

theorem entriesOf_unlocked (u w : Address) (ls : List FundLock) :
    entriesOf m (ls.map (unlocked u)) w = if w = u then ls.map (unlockEntry m) else [] := by
  induction ls with
  | nil => simp [entriesOf]
  | cons l ls ih =>
    unfold entriesOf at ih ⊢
    rw [List.map_cons, List.map_cons, linesOf_cons, ih]
    by_cases h : u = w
    · subst h
      rw [if_pos rfl, if_pos rfl]
      exact if_pos rfl
    · rw [if_neg (Ne.symm h), if_neg (Ne.symm h)]
      exact if_neg h

theorem mem_of_mem_entriesOf {acts : List Activity} {u : Address} {e : HistoryEntry}
    (h : e ∈ entriesOf m acts u) : ∃ x ∈ acts, x.user = u ∧ e = x.entry m := by
  obtain ⟨y, hy, rfl⟩ := List.mem_map.mp h
  obtain ⟨hy, user⟩ := List.mem_filter.mp hy
  obtain ⟨x, hx, rfl⟩ := List.mem_map.mp hy
  exact ⟨x, hx, by simpa using user, rfl⟩

theorem mem_of_perm_cons {α : Type*} {x : α} {xs ys : List α} (h : xs.Perm (x :: ys)) : x ∈ xs :=
  h.mem_iff.mpr List.mem_cons_self

/-- A call appends the entries of what it does. -/
theorem Step.acts {call : Call} {s s' : State} {o : Output P} (h : Step P m call s s' o) :
    ∃ acts, Acts m s o call acts ∧ ∀ u, s'.history u = s.history u ++ entriesOf m acts u := by
  cases h with
  | creditDeposit => exact ⟨_, .creditDeposit _ _ _ _, fun u => history_appendHistory _ _ _ _ _ _⟩
  | createLock =>
    exact ⟨_, .createLock rfl _ _ _ _ _ _,
      fun u => history_appendUserCounterpartyHistory _ _ _ _ _ _ _ _⟩
  | modifyLock _ _ _ found id =>
    subst id
    exact ⟨_, .modifyLock rfl (mem_of_perm_cons found) _ _ _ _,
      fun u => history_appendUserCounterpartyHistory _ _ _ _ _ _ _ _⟩
  | unlockSingleLock id unlock =>
    subst id
    refine ⟨_, .unlockSingleLock (mem_of_perm_cons unlock.activeLocks.1), fun w => ?_⟩
    rw [if_neg unlock.positive, unlock.history]
    exact congrArg _ (entriesOf_unlocked _ w [_]).symm
  | dropEmptyLock id empty found =>
    subst id
    refine ⟨_, .unlockSingleLock (mem_of_perm_cons found), fun w => ?_⟩
    rw [if_pos empty]
    exact (List.append_nil _).symm
  | unlockAllExpiredLocks unlocks rest =>
    obtain ⟨found, -, expired⟩ := unlocks.activeLocks
    refine ⟨_, .unlockAllExpiredLocks found expired rest, fun w => ?_⟩
    rw [unlocks.history, entriesOf_unlocked]
  | transferFromLock _ _ _ _ _ _ found id =>
    subst id
    refine ⟨_, .transferFromLock (mem_of_perm_cons found) _ _ _ _, fun w => ?_⟩
    split_ifs with other
    · simp only [history_appendUserCounterpartyHistory, List.append_assoc, ← linesOf_append]
      rfl
    · exact history_appendUserCounterpartyHistory _ _ _ _ _ _ _ _
  | transferToLock _ _ _ _ _ found id =>
    subst id
    refine ⟨_, .transferToLock (mem_of_perm_cons found) _ _ _, fun w => ?_⟩
    simp only [history_appendUserCounterpartyHistory, List.append_assoc, ← linesOf_append]
    rfl
  | withdrawFromLock _ _ _ _ _ _ found id _ _ schedules =>
    subst id
    refine ⟨_, .withdrawFromLock (mem_of_perm_cons found) _ _ _ _, fun w => ?_⟩
    rw [history_appendUserCounterpartyHistory, schedules.history]
    rfl
  | transferBalance =>
    refine ⟨_, .transferBalance rfl _ _ _ _ _, fun w => ?_⟩
    split_ifs with other
    · simp only [history_appendUserCounterpartyHistory, List.append_assoc, ← linesOf_append]
      rfl
    · exact history_appendUserCounterpartyHistory _ _ _ _ _ _ _ _
  | requestWithdrawal _ _ _ _ _ schedules =>
    refine ⟨_, .requestWithdrawal rfl _ _ _ _, fun w => ?_⟩
    rw [history_appendUserCounterpartyHistory, schedules.history]
    rfl
  | _ => exact ⟨_, .quiet trivial, fun w => (List.append_nil _).symm⟩

theorem Acts.wellFormed {call : Call} {s : State} {o : Output P} {acts : List Activity}
    (h : Acts m s o call acts) : ∀ x ∈ acts, x.WellFormed := by
  have counterparty {kind : HistoryKind} (other : kind ≠ .Deposit) (u : Address) (t : Bytes32)
      (n : U256) (a : Address) : Activity.WellFormed ⟨u, kind, t, n, .counterparty a⟩ := other
  cases h with
  | creditDeposit =>
    intro x hx
    obtain rfl := List.mem_singleton.mp hx
    exact rfl
  | createLock | modifyLock | withdrawFromLock | requestWithdrawal =>
    intro x hx
    obtain rfl := List.mem_singleton.mp hx
    exact counterparty (by decide) _ _ _ _
  | unlockSingleLock =>
    intro x hx
    split_ifs at hx with empty
    · cases hx
    · obtain rfl := List.mem_singleton.mp hx
      exact counterparty (by decide) _ _ _ _
  | unlockAllExpiredLocks =>
    intro x hx
    obtain ⟨l, -, rfl⟩ := List.mem_map.mp hx
    exact counterparty (by decide) _ _ _ _
  | transferFromLock | transferBalance =>
    intro x hx
    split_ifs at hx with other
    · rcases List.mem_pair.mp hx with rfl | rfl <;> exact counterparty (by decide) _ _ _ _
    · obtain rfl := List.mem_singleton.mp hx
      exact counterparty (by decide) _ _ _ _
  | transferToLock =>
    intro x hx
    rcases List.mem_pair.mp hx with rfl | rfl <;> exact counterparty (by decide) _ _ _ _
  | quiet =>
    intro x hx
    cases hx

theorem Activity.entry_kind {x : Activity} (h : x.WellFormed) : (x.entry m).kind = x.kind := by
  obtain ⟨u, kind, t, n, a | d⟩ := x
  · rfl
  · exact h.symm

/-- The reader gives back what the operation named. -/
theorem Activity.decodes {x : Activity} (h : x.WellFormed) :
    decodeHistoryPayload x.kind (x.entry m).payload = .ok x.decoded := by
  obtain ⟨u, kind, t, n, a | d⟩ := x
  · exact decodeHistoryPayload_counterparty h t n a
  · have kind : kind = .Deposit := h
    subst kind
    exact decodeHistoryPayload_deposit t n d

theorem historyKindOfInt_eq_none {n : ℤ} : historyKindOfInt n = none ↔ n < 0 ∨ 10 < n := by
  constructor
  · intro h
    by_contra inside
    rw [not_or, not_lt, not_lt] at inside
    obtain ⟨least, most⟩ := inside
    interval_cases n <;> cases h
  · intro outside
    unfold historyKindOfInt
    iterate 11 rw [if_neg (by omega)]

theorem historyKindOfInt_eq_some {n : ℤ} {k : HistoryKind} :
    historyKindOfInt n = some k ↔ n = k.ordinal := by
  constructor
  · intro h
    have inside := mt historyKindOfInt_eq_none.mpr (by rw [h]; exact Option.some_ne_none k)
    rw [not_or, not_lt, not_lt] at inside
    obtain ⟨least, most⟩ := inside
    interval_cases n <;> cases h <;> rfl
  · rintro rfl
    cases k <;> rfl

def payloadLen (kind : HistoryKind) : ℕ := if kind = .Deposit then 96 else 84

/-- A payload of its kind's length is read, with one of the two last parts; no other is. -/
theorem decodeHistoryPayload_cases (kind : HistoryKind) (payload : Bytes) :
    (payload.length = payloadLen kind ∧ ∃ d, decodeHistoryPayload kind payload = .ok d ∧
      (kind = .Deposit ∧ d.counterparty = none ∧ d.depositId.isSome ∨
        kind ≠ .Deposit ∧ d.depositId = none ∧ d.counterparty.isSome)) ∨
    (payload.length ≠ payloadLen kind ∧ ∃ e, decodeHistoryPayload kind payload = .error e) := by
  unfold decodeHistoryPayload
  have expected : (if kind = .Deposit then historyDepositPayloadLen
      else historyCounterpartyPayloadLen) = payloadLen kind := rfl
  simp only [expected, revertIf]
  by_cases length : payload.length = payloadLen kind
  · refine .inl ⟨length, ?_⟩
    rw [if_neg (not_not.mpr length)]
    by_cases deposit : kind = .Deposit
    · rw [if_pos deposit]
      exact ⟨_, rfl, .inl ⟨deposit, rfl, rfl⟩⟩
    · rw [if_neg deposit]
      exact ⟨_, rfl, .inr ⟨deposit, rfl, rfl⟩⟩
  · rw [if_pos length]
    exact .inr ⟨length, _, rfl⟩

/-- No operation wrote the entry: its kind or the length of its payload is unknown. -/
def RawHistoryEntry.Unknown (entry : RawHistoryEntry) : Prop :=
  ∀ kind : HistoryKind, entry.kind = kind.ordinal → entry.payload.length ≠ payloadLen kind

def HistoryEntry.raw (e : HistoryEntry) : RawHistoryEntry :=
  ⟨e.kind.ordinal, e.timestamp.toNat, e.payload⟩

section Service
variable {getTokenContext : Bytes32 → Except LookupError ℕ}

theorem historyEntryToDict_unknown {entry : RawHistoryEntry} (h : entry.Unknown) :
    historyEntryToDict P getTokenContext entry = .ok (unknownHistoryEntry entry.timestamp) := by
  unfold historyEntryToDict
  cases known : historyKindOfInt entry.kind with
  | none => rfl
  | some kind =>
    obtain ⟨length, -⟩ | ⟨-, e, failed⟩ := decodeHistoryPayload_cases kind entry.payload
    · exact absurd length (h kind (historyKindOfInt_eq_some.mp known))
    · simp only [failed]

theorem historyEntryToDict_entry {x : Activity} (h : x.WellFormed) :
    historyEntryToDict P getTokenContext (x.entry m).raw =
      match getTokenContext x.tokenId with
      | .ok chainId => .ok (historyRecord P x.kind (x.entry m).timestamp.toNat x.decoded
          (some chainId))
      | .error .ValueError =>
        .ok (historyRecord P x.kind (x.entry m).timestamp.toNat x.decoded none)
      | .error .other => .error .other := by
  have known : historyKindOfInt (x.entry m).raw.kind = some x.kind := by
    rw [historyKindOfInt_eq_some, HistoryEntry.raw, Activity.entry_kind h]
  have token : x.decoded.tokenId = x.tokenId := by
    obtain ⟨u, kind, t, n, a | d⟩ := x <;> rfl
  have decodes : decodeHistoryPayload x.kind (x.entry m).raw.payload = .ok x.decoded :=
    Activity.decodes h
  simp only [historyEntryToDict, known, decodes, token]
  rfl

/-- An unknown entry takes its place in a page and leaves the rest of the page alone. -/
theorem historyRecords_unknown {entry : RawHistoryEntry} (h : entry.Unknown)
    (front back : List RawHistoryEntry) :
    historyRecords P getTokenContext (front ++ entry :: back) = do
      let before ← historyRecords P getTokenContext front
      let after ← historyRecords P getTokenContext back
      return before ++ unknownHistoryEntry entry.timestamp :: after := by
  simp only [historyRecords, List.mapM_append, List.mapM_cons, historyEntryToDict_unknown h]
  cases front.mapM (historyEntryToDict P getTokenContext) with
  | error e => rfl
  | ok before =>
    cases back.mapM (historyEntryToDict P getTokenContext) <;> rfl

end Service

/-- What the service reports of an operation, by what the lookup of its token says. -/
def Reports (P : Platform) (getTokenContext : Bytes32 → Except LookupError ℕ) (m : Msg)
    (x : Activity) : Prop :=
  decodeHistoryPayload x.kind (x.entry m).payload = .ok x.decoded ∧
    historyEntryToDict P getTokenContext (x.entry m).raw =
      match getTokenContext x.tokenId with
      | .ok chainId => .ok (historyRecord P x.kind (x.entry m).timestamp.toNat x.decoded
          (some chainId))
      | .error .ValueError =>
        .ok (historyRecord P x.kind (x.entry m).timestamp.toNat x.decoded none)
      | .error .other => .error .other

/-- Every entry of a user's history is one of an earlier call. -/
theorem history_of_run (P : Platform) (evm gasTank : Address × Bytes32) (txs : List Tx) :
    ∀ u, ∀ e ∈ ((accounting P).run (accountingInit evm gasTank) txs).history u,
      ∃ r ∈ (accounting P).log (accountingInit evm gasTank) txs, ∃ acts,
        Acts r.input.msg r.before r.output r.input.call acts ∧
        ∃ x ∈ acts, x.user = u ∧ e = x.entry r.input.msg := by
  refine (accounting P).run_induction (I := fun log s => ∀ u, ∀ e ∈ s.history u, ∃ r ∈ log,
    ∃ acts, Acts r.input.msg r.before r.output r.input.call acts ∧
      ∃ x ∈ acts, x.user = u ∧ e = x.entry r.input.msg) ?_ ?_ txs
  · intro u e he
    cases he
  · intro log s tx s' o ih ran u e he
    have step : Step P tx.msg tx.call s s' o := execute_step ran
    obtain ⟨acts, does, appended⟩ := step.acts
    rw [appended, List.mem_append] at he
    rcases he with he | he
    · obtain ⟨r, hr, wrote⟩ := ih u e he
      exact ⟨r, List.mem_append_left _ hr, wrote⟩
    · exact ⟨⟨s, tx, o, s'⟩, by simp, acts, does, mem_of_mem_entriesOf he⟩

/-- History entries survive the way from the contract to the service. -/
theorem history_entries_survive (P : Platform)
    (getTokenContext : Bytes32 → Except LookupError ℕ) :
    (∀ m call s s' o, execute P m call s = .ok (s', o) → ∃ acts, Acts m s o call acts ∧
      (∀ u, s'.history u = s.history u ++ entriesOf m acts u) ∧
      ∀ x ∈ acts, Reports P getTokenContext m x) ∧
    (∀ evm gasTank txs u, ∀ e ∈ ((accounting P).run (accountingInit evm gasTank) txs).history u,
      ∃ r ∈ (accounting P).log (accountingInit evm gasTank) txs, ∃ acts,
        Acts r.input.msg r.before r.output r.input.call acts ∧
        ∃ x ∈ acts, x.user = u ∧ e = x.entry r.input.msg ∧
          Reports P getTokenContext r.input.msg x) ∧
    (∀ entry : RawHistoryEntry, entry.Unknown →
      historyEntryToDict P getTokenContext entry = .ok (unknownHistoryEntry entry.timestamp) ∧
      ∀ front back, historyRecords P getTokenContext (front ++ entry :: back) = do
        let before ← historyRecords P getTokenContext front
        let after ← historyRecords P getTokenContext back
        return before ++ unknownHistoryEntry entry.timestamp :: after) ∧
    (∀ kind payload, (∃ d, decodeHistoryPayload kind payload = .ok d) ↔
      payload.length = if kind = .Deposit then 96 else 84) ∧
    ∀ kind payload d, decodeHistoryPayload kind payload = .ok d →
      (kind = .Deposit ↔ d.depositId.isSome) ∧ (kind ≠ .Deposit ↔ d.counterparty.isSome) := by
  have reports {m : Msg} {call : Call} {s : State} {o : Output P} {acts : List Activity}
      (does : Acts m s o call acts) : ∀ x ∈ acts, Reports P getTokenContext m x := by
    intro x hx
    have well := does.wellFormed x hx
    exact ⟨Activity.decodes well, historyEntryToDict_entry well⟩
  refine ⟨?_, ?_, ?_, ?_, ?_⟩
  · intro m call s s' o ran
    obtain ⟨acts, does, appended⟩ := (execute_step ran).acts
    exact ⟨acts, does, appended, reports does⟩
  · intro evm gasTank txs u e he
    obtain ⟨r, hr, acts, does, x, hx, user, entry⟩ := history_of_run P evm gasTank txs u e he
    exact ⟨r, hr, acts, does, x, hx, user, entry, reports does x hx⟩
  · exact fun entry unknown => ⟨historyEntryToDict_unknown unknown, historyRecords_unknown unknown⟩
  · intro kind payload
    obtain ⟨length, d, read, -⟩ | ⟨length, e, failed⟩ := decodeHistoryPayload_cases kind payload
    · exact ⟨fun _ => length, fun _ => ⟨d, read⟩⟩
    · refine ⟨?_, fun same => absurd same length⟩
      rintro ⟨d, read⟩
      rw [failed] at read
      cases read
  · intro kind payload d read
    obtain ⟨-, d', read', tail⟩ | ⟨-, e, failed⟩ := decodeHistoryPayload_cases kind payload
    · obtain rfl := Except.ok.inj (read.symm.trans read')
      obtain ⟨deposit, none, some⟩ | ⟨other, none, some⟩ := tail
      · simp [deposit, none, some]
      · simp [other, none, some]
    · rw [failed] at read
      cases read

end Privana
