import Privana.WithdrawalPayout

/-! Every scheduled withdrawal stays resolvable. Scheduling checks that the token is
registered and its chain priced; token infos are addressed by their content and a gas
price never returns to zero, so what resolution reads again is still there. The event
of a resolution is emitted once, and resolving again changes nothing. -/

namespace Privana
open BigEndian CheckedArithmetic

variable {P : Platform} {m : Msg}

/-- A call queues `w`, for a token of this target, under the next nonce of its chain. -/
structure Queues (m : Msg) (s s' : State) (w : WithdrawalRequest)
    (target : U256 × Option Address) : Prop where
  queue : s'.withdrawals = s.withdrawals ++ [w]
  unresolved : w.resolved = false
  block : w.blockNumber = m.blockNumber
  token : tokenTarget (s.tokens w.tokenId) = some target
  priced : s.gasPrices target.1 ≠ 0
  nonce : abiDecodeU64 w.txIdentifier = .ok (s.nonces target.1)

theorem Schedules.queues {s t s' t' : State} {userAddress toAddress : Address} {tokenId : Bytes32}
    {amount chainId : U256} (h : Schedules m userAddress toAddress tokenId amount chainId t t')
    (queue : t.withdrawals = s.withdrawals) (nonces : t.nonces = s.nonces)
    (gasPrices : t.gasPrices = s.gasPrices) (tokens : t.tokens = s.tokens)
    (queue' : s'.withdrawals = t'.withdrawals) : ∃ w target, Queues m s s' w target := by
  obtain ⟨token, ht⟩ := h.target
  obtain ⟨next, -, rfl⟩ := h.queued
  refine ⟨_, (chainId, token), queue'.trans (congrArg (· ++ _) queue), rfl, rfl, ?_, ?_, ?_⟩
  · rw [← tokens]
    exact ht
  · rw [← gasPrices]
    exact h.priced
  · rw [← nonces]
    dsimp only
    rw [abiDecodeU64_nonce]

/-- The queue changes in its resolved marks, or by one withdrawal. -/
theorem Step.queues {call : Call} {s s' : State} {o : Output P} (h : Step P m call s s' o) :
    s'.withdrawals.map (·.core) = s.withdrawals.map (·.core) ∨
      ∃ w target, Queues m s s' w target := by
  cases h with
  | withdrawFromLock _ _ _ _ _ _ _ _ _ _ schedules =>
    exact .inr (schedules.queues rfl rfl rfl rfl rfl)
  | requestWithdrawal _ _ _ _ _ schedules => exact .inr (schedules.queues rfl rfl rfl rfl rfl)
  | unlockSingleLock _ unlock =>
    obtain ⟨_, _, _, _, rfl⟩ := unlock.moved
    exact .inl rfl
  | unlockAllExpiredLocks unlocks =>
    obtain ⟨_, _, _, rfl⟩ := unlocks.frame
    exact .inl rfl
  | transferFromLock => split_ifs <;> exact .inl rfl
  | transferBalance => split_ifs <;> exact .inl rfl
  | resolveWithdrawal entry => exact .inl (map_core_setResolved entry)
  | _ => exact .inl rfl

/-- A chain that has a gas price keeps one. -/
theorem Step.priced {call : Call} {s s' : State} {o : Output P} (h : Step P m call s s' o)
    {chainId : U256} (priced : s.gasPrices chainId ≠ 0) : s'.gasPrices chainId ≠ 0 := by
  cases h with
  | @setGasPrice _ c gasPrice _ positive =>
    by_cases hc : chainId = c
    · subst hc
      simpa using positive
    · simpa [Function.update_of_ne hc] using priced
  | unlockSingleLock _ unlock =>
    obtain ⟨_, _, _, _, rfl⟩ := unlock.moved
    exact priced
  | unlockAllExpiredLocks unlocks =>
    obtain ⟨_, _, _, rfl⟩ := unlocks.frame
    exact priced
  | withdrawFromLock _ _ _ _ _ _ _ _ _ _ schedules =>
    obtain ⟨_, _, rfl⟩ := schedules.queued
    exact priced
  | requestWithdrawal _ _ _ _ _ schedules =>
    obtain ⟨_, _, rfl⟩ := schedules.queued
    exact priced
  | transferFromLock => split_ifs <;> exact priced
  | transferBalance => split_ifs <;> exact priced
  | _ => exact priced

def resolvedMark (s : State) (i : ℕ) : Bool := s.withdrawals[i]?.any (·.resolved)

/-- How many of the events say that withdrawal `i` was resolved. -/
def resolutions (events : List Event) (i : ℕ) : ℕ :=
  events.countP fun
    | .WithdrawalResolved index .. => index = i
    | _ => false

/-- A call emits the event of a resolution if and only if it sets the mark. -/
theorem Step.marks_resolution {call : Call} {s s' : State} {o : Output P} (h : Step P m call s s' o)
    (i : ℕ) :
    resolutions o.events i + (resolvedMark s i).toNat = (resolvedMark s' i).toNat := by
  have kept {events : List Event} (silent : resolutions events i = 0)
      (same : s'.withdrawals = s.withdrawals) :
      resolutions events i + (resolvedMark s i).toNat = (resolvedMark s' i).toNat := by
    rw [silent, Nat.zero_add, resolvedMark, resolvedMark, same]
  have appended {events : List Event} {w : WithdrawalRequest} (silent : resolutions events i = 0)
      (open_ : w.resolved = false) (queue : s'.withdrawals = s.withdrawals ++ [w]) :
      resolutions events i + (resolvedMark s i).toNat = (resolvedMark s' i).toNat := by
    rw [silent, Nat.zero_add, resolvedMark, resolvedMark, queue]
    rcases Nat.lt_trichotomy i s.withdrawals.length with hi | rfl | hi
    · rw [List.getElem?_append_left hi]
    · simp [open_]
    · simp [List.getElem?_append_right hi.le, hi.le, show i - s.withdrawals.length ≠ 0 by omega]
  cases h with
  | unlockSingleLock _ unlock =>
    obtain ⟨_, _, _, _, rfl⟩ := unlock.moved
    exact kept rfl rfl
  | unlockAllExpiredLocks unlocks =>
    obtain ⟨_, _, _, rfl⟩ := unlocks.frame
    exact kept rfl rfl
  | withdrawFromLock _ _ _ _ _ _ _ _ _ _ schedules =>
    obtain ⟨_, -, rfl⟩ := schedules.queued
    exact appended rfl rfl rfl
  | requestWithdrawal _ _ _ _ _ schedules =>
    obtain ⟨_, -, rfl⟩ := schedules.queued
    exact appended rfl rfl rfl
  | transferFromLock | transferBalance =>
    refine kept rfl ?_
    split_ifs <;> rfl
  | @resolveWithdrawal _ index w _ _ _ entry =>
    obtain ⟨hlt, hw⟩ := List.getElem?_eq_some_iff.mp entry
    by_cases hi : index = i
    · subst hi
      cases hr : w.resolved <;>
        simp [resolutions, resolvedMark, hlt, hw, hr]
    · cases hr : w.resolved <;>
        simp [resolutions, resolvedMark, hi]
  | _ => exact kept rfl rfl

/-- What resolution will read of withdrawal `w`, as it was when `w` was scheduled. -/
structure Scheduled (log : List (Receipt P)) (s : State) (i : ℕ) (w : WithdrawalRequest)
    (target : U256 × Option Address) : Prop where
  queued : ∃ e ∈ log, e.before.withdrawals.length = i ∧
    Queues e.input.msg e.before e.after w.core target
  token : tokenTarget (s.tokens w.tokenId) = some target
  priced : s.gasPrices target.1 ≠ 0

theorem scheduled_step {log : List (Receipt P)} {s s' : State} {tx : Tx} {o : Output P}
    (h : ∀ i w, s.withdrawals[i]? = some w → ∃ target, Scheduled log s i w target)
    (step : Step P tx.msg tx.call s s' o) (ext : Extends s s') (i : ℕ) (w : WithdrawalRequest)
    (hw : s'.withdrawals[i]? = some w) :
    ∃ target, Scheduled (log ++ [⟨s, tx, o, s'⟩]) s' i w target := by
  have old {w₀ : WithdrawalRequest} (hw₀ : s.withdrawals[i]? = some w₀) (core : w₀.core = w.core) :
      ∃ target, Scheduled (log ++ [⟨s, tx, o, s'⟩]) s' i w target := by
    obtain ⟨target, ⟨e, he, hi, queues⟩, token, priced⟩ := h i w₀ hw₀
    have id : w₀.core.tokenId = w.core.tokenId := congrArg WithdrawalRequest.tokenId core
    exact ⟨target, ⟨e, List.mem_append_left _ he, hi, core ▸ queues⟩,
      (show w₀.tokenId = w.tokenId from id) ▸ ext.target token, step.priced priced⟩
  rcases step.queues with same | ⟨x, target, queues⟩
  · have hc : (s.withdrawals.map (·.core))[i]? = some w.core := by simp [← same, hw]
    obtain ⟨w₀, hw₀, core⟩ := by simpa using hc
    exact old hw₀ core
  · rw [queues.queue] at hw
    rcases Nat.lt_or_ge i s.withdrawals.length with hi | hi
    · rw [List.getElem?_append_left hi] at hw
      exact old hw rfl
    · rw [List.getElem?_append_right hi] at hw
      obtain ⟨hlt, rfl⟩ := List.getElem?_eq_some_iff.mp hw
      have hlen : s.withdrawals.length = i := by
        simp only [List.length_singleton] at hlt
        omega
      have core : x.core = x := by rw [WithdrawalRequest.core, ← queues.unresolved]
      have new : (⟨s, tx, o, s'⟩ : Receipt P) ∈ log ++ [⟨s, tx, o, s'⟩] := by simp
      refine ⟨target, ⟨_, new, hlen, ?_⟩, ?_, step.priced queues.priced⟩
      · simpa [core] using queues
      · simpa using ext.target queues.token

theorem delay_of_later {x y : U256} (later : y.toNat < x.toNat) :
    ∃ d, checkedSub Error.panic x y = .ok d ∧ ¬ d < 1 := by
  refine ⟨x - y, if_pos later.le, ?_⟩
  rw [BitVec.lt_def, BitVec.toNat_sub_of_le (BitVec.le_def.mpr later.le)]
  have one : (1 : U256).toNat = 1 := rfl
  omega

section Signs
variable (signs : ∀ account secret tx, (P.sign account secret tx).isSome)
include signs

theorem signTx_ok (account : Address) (secret : Bytes32) (tx : EthTx) :
    ∃ x, signTx P account secret tx = .ok x := by
  obtain ⟨raw, hraw⟩ := Option.isSome_iff_exists.mp (signs account secret tx)
  exact ⟨⟨account, secret, tx, raw, hraw⟩, signTx_eq_ok.mpr ⟨rfl, rfl, rfl⟩⟩

theorem generateNativeTransfer_ok {s : SignerState} {chainId : U256} (user : Address)
    (amount : U256) (nonce : U64) (priced : s.gasPrices chainId ≠ 0) :
    ∃ x, generateNativeTransfer P s chainId user amount nonce = .ok x :=
  exists_revertIf_bind priced (signTx_ok signs _ _ _)

theorem generateERC20Transfer_ok {s : SignerState} {chainId : U256} (user token : Address)
    (amount : U256) (nonce : U64) (priced : s.gasPrices chainId ≠ 0) :
    ∃ x, generateERC20Transfer P s chainId user token amount nonce = .ok x :=
  exists_revertIf_bind priced (signTx_ok signs _ _ _)

/-- All that resolution reads is there, so it runs through. -/
theorem resolveWithdrawal_ok {s : State} {i : ℕ} {w : WithdrawalRequest}
    {target : U256 × Option Address} {nonce : U64} (entry : s.withdrawals[i]? = some w)
    (later : w.blockNumber.toNat < m.blockNumber.toNat)
    (token : tokenTarget (s.tokens w.tokenId) = some target)
    (decoded : abiDecodeU64 w.txIdentifier = .ok nonce) (priced : s.gasPrices target.1 ≠ 0) :
    ∃ r, execute P m (.resolveWithdrawal i) s = .ok r := by
  obtain ⟨d, hd, hdelay⟩ := delay_of_later later
  simp only [execute, resolveWithdrawal, entry]
  refine exists_bind_eq_ok hd (exists_revertIf_bind hdelay ?_)
  rcases tokenTarget_eq_some token with ⟨native, length, rfl⟩ | ⟨erc20, length, rfl⟩
  · obtain ⟨x, hx⟩ := generateNativeTransfer_ok signs w.toAddress w.amount nonce priced
    simp only [native]
    refine exists_bind_eq_ok (decodeEVMNativeTokenData_eq_ok.mpr ⟨length, rfl⟩)
      (exists_bind_eq_ok decoded (exists_bind_eq_ok hx ?_))
    split <;> exact ⟨_, rfl⟩
  · obtain ⟨x, hx⟩ := generateERC20Transfer_ok signs w.toAddress
      ((ofBytes (((s.tokens w.tokenId).data.drop 20).take 32)).setWidth 160) w.amount nonce priced
    simp only [erc20]
    refine exists_bind_eq_ok (decodeEVMErc20TokenData_eq_ok.mpr ⟨length, rfl⟩)
      (exists_bind_eq_ok decoded (exists_bind_eq_ok hx ?_))
    split <;> exact ⟨_, rfl⟩

end Signs

/-- Withdrawal `i` of a reached state: what was checked when it was scheduled still
holds, so it resolves in every later block, and its event is emitted once. -/
structure Resolvable (P : Platform) (log : List (Receipt P)) (s : State) (i : ℕ)
    (w : WithdrawalRequest) (target : U256 × Option Address) : Prop where
  scheduled : Scheduled log s i w target
  resolves : ∀ m : Msg, w.blockNumber.toNat < m.blockNumber.toNat →
    ∃ r, execute P m (.resolveWithdrawal i) s = .ok r
  marks : ∀ m s' o, execute P m (.resolveWithdrawal i) s = .ok (s', o) →
    s' = { s with withdrawals := s.withdrawals.set i { w with resolved := true } } ∧
      o.events = if w.resolved then [] else
        [.WithdrawalResolved i w.userAddress w.tokenId w.toAddress w.amount target.1]
  again : w.resolved = true → ∀ m s' o, execute P m (.resolveWithdrawal i) s = .ok (s', o) →
    s' = s
  once : resolutions (log.flatMap (·.output.events)) i = w.resolved.toNat

theorem resolutions_run (evm gasTank : Address × Bytes32) (txs : List Tx) (i : ℕ) :
    resolutions (((accounting P).log (accountingInit evm gasTank) txs).flatMap (·.output.events)) i =
      (resolvedMark ((accounting P).run (accountingInit evm gasTank) txs) i).toNat :=
  (accounting P).run_induction
    (I := fun l s => resolutions (l.flatMap (·.output.events)) i = (resolvedMark s i).toNat) rfl
    (fun l s tx s' o h hx => by
      have step : Step P tx.msg tx.call s s' o := execute_step hx
      rw [← step.marks_resolution i, ← h]
      simp [resolutions, Nat.add_comm]) txs

theorem scheduled_run (evm gasTank : Address × Bytes32) (txs : List Tx)
    (inj : Set.InjOn (getTokenId P) (infosOf txs)) :
    let s := (accounting P).run (accountingInit evm gasTank) txs
    QueueInvariant P (infosOf txs) s ∧ ∀ i w, s.withdrawals[i]? = some w →
      ∃ target, Scheduled ((accounting P).log (accountingInit evm gasTank) txs) s i w target :=
  (accounting P).run_induction_of_mem
    (I := fun l s => QueueInvariant P (infosOf txs) s ∧ ∀ i w, s.withdrawals[i]? = some w →
      ∃ target, Scheduled l s i w target)
    ⟨.init evm gasTank, fun i w hw => by simp [accountingInit] at hw⟩ txs
    (fun l s tx s' o htx h hx => by
      have step : Step P tx.msg tx.call s s' o := execute_step hx
      have hi : ∀ info, tx.call = .setTokenInfo info → info ∈ infosOf txs :=
        fun info he => ⟨tx, htx, he⟩
      exact ⟨h.1.step inj hi step, scheduled_step h.2 step (h.1.extends_step inj hi step)⟩)

/-- Every scheduled withdrawal stays resolvable, if the token infos of the run do not
collide under `getTokenId` and signing does not revert. -/
theorem withdrawals_stay_resolvable (P : Platform) (evm gasTank : Address × Bytes32)
    (txs : List Tx) (inj : Set.InjOn (getTokenId P) (infosOf txs))
    (signs : ∀ account secret tx, (P.sign account secret tx).isSome) :
    let s := (accounting P).run (accountingInit evm gasTank) txs
    ∀ i w, s.withdrawals[i]? = some w → ∃ target,
      Resolvable P ((accounting P).log (accountingInit evm gasTank) txs) s i w target := by
  intro s i w hw
  obtain ⟨invariant, scheduled⟩ := scheduled_run (P := P) evm gasTank txs inj
  obtain ⟨target, h⟩ := scheduled i w hw
  obtain ⟨nonce, decoded⟩ := invariant.decodes w (List.mem_of_getElem? hw)
  have marks : ∀ m s' o, execute P m (.resolveWithdrawal i) s = .ok (s', o) →
      s' = { s with withdrawals := s.withdrawals.set i { w with resolved := true } } ∧
        o.events = if w.resolved then [] else
          [.WithdrawalResolved i w.userAddress w.tokenId w.toAddress w.amount target.1] := by
    intro m s' o hx
    have step : Step P m _ s s' o := execute_step hx
    cases step with
    | resolveWithdrawal entry _ token =>
      obtain rfl := Option.some.inj (hw.symm.trans entry)
      obtain rfl := Option.some.inj (h.token.symm.trans token)
      exact ⟨rfl, rfl⟩
  refine ⟨target, h, fun m later => resolveWithdrawal_ok signs hw later h.token decoded h.priced,
    marks, fun resolved m s' o hx => ?_, ?_⟩
  · rw [(marks m s' o hx).1, setResolved_self hw resolved]
  · rw [resolutions_run evm gasTank txs i]
    change (s.withdrawals[i]?.any (·.resolved)).toNat = w.resolved.toNat
    rw [hw]
    rfl

theorem withdrawals_stay_resolvable_sample :
    let s := (accounting samplePlatform).run (accountingInit sampleEvm sampleGasTank) sampleTxs
    ∃ w target, s.withdrawals[0]? = some w ∧ Resolvable samplePlatform
      ((accounting samplePlatform).log (accountingInit sampleEvm sampleGasTank) sampleTxs) s 0 w
      target := by
  intro s
  obtain ⟨w, hw⟩ := Option.isSome_iff_exists.mp
    (show s.withdrawals[0]?.isSome = true by decide +kernel)
  obtain ⟨target, h⟩ := withdrawals_stay_resolvable samplePlatform sampleEvm sampleGasTank sampleTxs
    ((Set.subsingleton_singleton.anti infosOf_sampleTxs).injOn _) (fun _ _ _ => rfl) 0 w hw
  exact ⟨w, target, hw, h⟩

end Privana
