import Privana.LockStructure
import Privana.Observations
import Privana.WithdrawalDiscipline
import Privana.WithdrawalLocation

/-! What the admission of withdrawals covers. The wallet is looked at for one withdrawal alone: the
balance that is read covers its gas and its amount, and nothing of the ones that are queued. -/

namespace Privana
open BigEndian Coroutine

section Contract
variable {P : Platform} {m : Msg} {s s' : State} {o : Output P} {call : Call}

theorem Step.gasPrices (h : Step P m call s s' o) : s'.gasPrices = s.gasPrices ∨
    ∃ chainId gasPrice, call = .setGasPrice chainId gasPrice ∧
      s'.gasPrices = Function.update s.gasPrices chainId gasPrice := by
  cases h with
  | setGasPrice => exact .inr ⟨_, _, rfl, rfl⟩
  | unlockSingleLock _ unlock =>
    obtain ⟨_, _, _, _, rfl⟩ := unlock.moved
    exact .inl rfl
  | unlockAllExpiredLocks unlocks =>
    obtain ⟨_, _, _, rfl⟩ := unlocks.frame
    exact .inl rfl
  | withdrawFromLock _ _ _ _ _ _ _ _ _ _ schedules =>
    obtain ⟨_, _, rfl⟩ := schedules.queued
    exact .inl rfl
  | requestWithdrawal _ _ _ _ _ schedules =>
    obtain ⟨_, _, rfl⟩ := schedules.queued
    exact .inl rfl
  | transferFromLock => split_ifs <;> exact .inl rfl
  | transferBalance => split_ifs <;> exact .inl rfl
  | _ => exact .inl rfl

/-- A withdrawal of the token and the amount is queued, at a published price. -/
structure QueuesFor (s s' : State) (tokenId : Bytes32) (amount : U256) : Prop where
  entry : ∃ entry, s'.withdrawals = s.withdrawals ++ [entry] ∧ entry.tokenId = tokenId ∧
    entry.amount = amount
  target : ∃ target, tokenTarget (s.tokens tokenId) = some target ∧ s.gasPrices target.1 ≠ 0
  tokens : s'.tokens = s.tokens
  gasPrices : s'.gasPrices = s.gasPrices

theorem Step.requestWithdrawal_queuesFor {tokenId : Bytes32} {amount nonce : U256}
    {signature : Bytes}
    (h : Step P m (.requestWithdrawal tokenId amount nonce signature) s s' o) :
    QueuesFor s s' tokenId amount := by
  cases h with
  | requestWithdrawal _ _ _ _ _ schedules =>
    obtain ⟨token, target⟩ := schedules.target
    have priced := schedules.priced
    obtain ⟨_, -, rfl⟩ := schedules.queued
    exact ⟨⟨_, rfl, rfl, rfl⟩, ⟨_, target, priced⟩, rfl, rfl⟩

theorem Step.withdrawFromLock_queuesFor {user toAddress : Address} {lockId amount nonce : U256}
    {signature : Bytes}
    (h : Step P m (.withdrawFromLock user toAddress lockId amount nonce signature) s s' o) :
    ∃ l ∈ s.activeLocks user, l.lockId = lockId ∧ QueuesFor s s' l.tokenId amount := by
  cases h with
  | @withdrawFromLock _ _ _ _ _ _ _ _ _ _ _ _ l _ _ _ _ _ _ _ _ found id _ _ schedules =>
    obtain ⟨token, target⟩ := schedules.target
    have priced := schedules.priced
    obtain ⟨_, -, rfl⟩ := schedules.queued
    exact ⟨l, found.mem_iff.mpr List.mem_cons_self, id, ⟨_, rfl, rfl, rfl⟩, ⟨_, target, priced⟩,
      rfl, rfl⟩

theorem QueuesFor.cost {tokenId : Bytes32} {amount : U256} {entry : WithdrawalRequest}
    {target : U256 × Option Address} (h : QueuesFor s s' tokenId amount)
    (token : entry.tokenId = tokenId) (same : entry.amount = amount)
    (found : tokenTarget (s.tokens tokenId) = some target) :
    withdrawalCost s' entry = some (target.1, (s.gasPrices target.1).toNat *
      (withdrawGasLimit (if target.2.isNone then .NativeEVM else .ERC20)).toNat +
        if target.2.isNone then amount.toNat else 0) := by
  simp only [withdrawalCost, token, same, h.tokens, h.gasPrices, found]
  rfl

theorem tokenContext_native {info : TokenInfo} {c : TokenContext} {target : U256 × Option Address}
    (h : tokenContext info = .ok c) (ht : tokenTarget info = some target) :
    c.isNative = target.2.isNone := by
  rcases tokenTarget_eq_some ht with ⟨kind, -, rfl⟩ | ⟨kind, -, rfl⟩
  · simp only [tokenContext, kind] at h
    split at h <;> cases h
    rfl
  · simp only [tokenContext, kind] at h
    split at h
    · cases h
    · split at h <;> cases h
      rfl

end Contract

/-- What the moves of a run register and publish: one price for a chain. -/
def PublishesOnly (prices : U256 → U256) (infos : Set TokenInfo) : RequestMove → Prop
  | .transact tx => (∀ info, tx.call = .setTokenInfo info → info ∈ infos) ∧
    ∀ chainId gasPrice, tx.call = .setGasPrice chainId gasPrice → gasPrice = prices chainId
  | _ => True

section World
variable {P : Platform} {prices : U256 → U256} {infos : Set TokenInfo}

structure AdmissionValid (prices : U256 → U256) (infos : Set TokenInfo) (w : RequestWorld P) :
    Prop where
  queue : QueueInvariant P infos w.accounting
  past : ∀ s ∈ w.states, Extends s w.accounting
  locks : LockInvariant w.receipts w.accounting
  origins : ∀ s ∈ w.states, ∀ u, ∀ l ∈ s.activeLocks u, l.origin u ∈ creations w.receipts
  prices : ∀ s ∈ w.states, ∀ c, s.gasPrices c = 0 ∨ s.gasPrices c = prices c
  balances : ∀ r ∈ w.readings, r.address = w.accounting.evmAddress →
    r.balance + r.taken ≤ w.native (r.chainId, r.address) + w.taken r.chainId

/-- What a task was told stays so. -/
structure AdmissionStays (w v : RequestWorld P) : Prop where
  accounting : Extends w.accounting v.accounting
  origins : creations w.receipts ⊆ creations v.receipts
  readings : w.readings ⊆ v.readings
  process : v.process = w.process

theorem AdmissionStays.refl (w : RequestWorld P) : AdmissionStays w w :=
  ⟨.refl _, fun _ h => h, fun _ h => h, rfl⟩

abbrev RequestObservation := Observation RequestOp RequestOp.Reply

/-- What a reply tells a task. -/
def RequestTold (prices : U256 → U256) (i : ℕ) (o : RequestObservation) (w : RequestWorld P) :
    Prop :=
  match o with
  | ⟨.userLocks user, locks⟩ => ∀ l ∈ locks, l.origin user ∈ creations w.receipts
  | ⟨.tokenContext tokenId, context⟩ => tokenContext (w.accounting.tokens tokenId) = .ok context
  | ⟨.gasPrice chainId, gasPrice⟩ => gasPrice = 0 ∨ gasPrice = (prices chainId).toNat
  | ⟨.withdrawalGasLimit isNative, gasLimit⟩ =>
    gasLimit = (withdrawGasLimit (if isNative then .NativeEVM else .ERC20)).toNat
  | ⟨.depositAddress, address⟩ => address = w.accounting.evmAddress
  | ⟨.nativeBalance chainId address, balance⟩ => ∃ r ∈ w.readings, r.reader = w.id i ∧
    r.chainId = chainId ∧ r.address = address ∧ r.balance = balance
  | _ => True

theorem AdmissionStays.told {w v : RequestWorld P} (h : AdmissionStays w v) {i : ℕ}
    {o : RequestObservation} (told : RequestTold prices i o w) : RequestTold prices i o v := by
  obtain ⟨op, reply⟩ := o
  cases op with
  | userLocks user => exact fun l hl => h.origins (told l hl)
  | tokenContext tokenId =>
    show tokenContext (v.accounting.tokens tokenId) = .ok reply
    rw [h.accounting.tokens tokenId (data_ne_nil_of_tokenContext told)]
    exact told
  | depositAddress => exact Eq.trans told h.accounting.evmAddress.symm
  | nativeBalance chainId address =>
    obtain ⟨r, hr, reader, rest⟩ := told
    refine ⟨r, h.readings hr, reader.trans ?_, rest⟩
    rw [RequestWorld.id, RequestWorld.id, h.process]
  | gasPrice => exact told
  | withdrawalGasLimit => exact told
  | _ => trivial

namespace AdmissionValid

variable {w v : RequestWorld P}

theorem transact (h : AdmissionValid prices infos w) (inj : Set.InjOn (getTokenId P) infos)
    {tx : Tx} (allowed : PublishesOnly prices infos (.transact tx))
    (transacted : w.transact tx = some v) :
    AdmissionValid prices infos v ∧ AdmissionStays w v := by
  obtain ⟨s, o, step, rfl⟩ := RequestWorld.transact_eq_some transacted
  have extends_step := h.queue.extends_step inj allowed.1 step
  have locks := h.locks.step step
  have created : creations w.receipts ⊆ creations (w.receipts ++ [⟨w.accounting, tx, o, s⟩]) := by
    rw [creations_concat]
    exact fun c hc => List.mem_append_left _ hc
  refine ⟨⟨h.queue.step inj allowed.1 step, fun t ht => ?_, locks, fun t ht u l hl => ?_,
    fun t ht c => ?_, fun r hr hadd => ?_⟩, extends_step, created, fun _ hr => hr, rfl⟩
  · rcases List.mem_cons.mp ht with rfl | ht
    · exact .refl _
    · exact (h.past t ht).trans extends_step
  · rcases List.mem_cons.mp ht with rfl | ht
    · exact locks.origin u l hl
    · exact created (h.origins t ht u l hl)
  · rcases List.mem_cons.mp ht with rfl | ht
    · have before := h.prices w.accounting List.mem_cons_self c
      rcases step.gasPrices with same | ⟨chainId, gasPrice, set, changed⟩
      · rw [same]
        exact before
      · rw [changed]
        by_cases hc : c = chainId
        · subst hc
          rw [Function.update_self]
          exact .inr (allowed.2 _ _ set)
        · rw [Function.update_of_ne hc]
          exact before
    · exact h.prices t ht c
  · exact h.balances r hr (hadd.trans extends_step.evmAddress)

theorem read (h : AdmissionValid prices infos w) (i : ℕ) (chainId : U256) (address : Address) :
    AdmissionValid prices infos (w.read i chainId address) ∧
      AdmissionStays w (w.read i chainId address) := by
  refine ⟨⟨h.queue, h.past, h.locks, h.origins, h.prices, fun r hr hadd => ?_⟩, .refl _,
    fun _ h => h, fun r hr => List.mem_append_left _ hr, rfl⟩
  rcases List.mem_append.mp hr with hr | hr
  · exact h.balances r hr hadd
  · obtain rfl := List.mem_singleton.mp hr
    exact Nat.le_refl _

theorem create (h : AdmissionValid prices infos w) (i : ℕ) :
    AdmissionValid prices infos (w.create i) ∧ AdmissionStays w (w.create i) :=
  ⟨⟨h.queue, h.past, h.locks, h.origins, h.prices, h.balances⟩, .refl _, fun _ h => h,
    fun _ h => h, rfl⟩

theorem mine (h : AdmissionValid prices infos w) {index spent : ℕ}
    (mined : w.mine index spent = some v) :
    AdmissionValid prices infos v ∧ AdmissionStays w v := by
  obtain ⟨entry, chainId, cost, -, -, -, within, there, rfl⟩ := mine_eq_some mined
  refine ⟨⟨h.queue, h.past, h.locks, h.origins, h.prices, fun r hr hadd => ?_⟩, .refl _,
    fun _ h => h, fun _ h => h, rfl⟩
  have before := h.balances r hr hadd
  have wallet : r.address = w.accounting.evmAddress := hadd
  show r.balance + r.taken ≤ Function.update w.native _ _ (r.chainId, r.address) +
    Function.update w.taken _ _ r.chainId
  rw [wallet] at before ⊢
  by_cases hc : r.chainId = chainId
  · rw [hc] at before ⊢
    rw [Function.update_self, Function.update_self]
    omega
  · rw [Function.update_of_ne hc, Function.update_of_ne fun he => hc (congrArg Prod.fst he)]
    exact before

theorem fund (h : AdmissionValid prices infos w) (chainId : U256) (address : Address)
    (amount : ℕ) : AdmissionValid prices infos { w with
      native := Function.update w.native (chainId, address)
        (w.native (chainId, address) + amount) } := by
  refine ⟨h.queue, h.past, h.locks, h.origins, h.prices, fun r hr hadd => ?_⟩
  have before := h.balances r hr hadd
  show r.balance + r.taken ≤ Function.update w.native _ _ (r.chainId, r.address) + w.taken r.chainId
  by_cases hc : (r.chainId, r.address) = (chainId, address)
  · rw [hc] at before ⊢
    rw [Function.update_self]
    omega
  · rw [Function.update_of_ne hc]
    exact before

theorem move (h : AdmissionValid prices infos w) (inj : Set.InjOn (getTokenId P) infos)
    {e : RequestMove} (allowed : PublishesOnly prices infos e)
    (moved : requestMove e w = some v) : AdmissionValid prices infos v ∧ AdmissionStays w v := by
  cases e with
  | transact tx => exact h.transact inj allowed moved
  | mine index spent => exact h.mine moved
  | fund chainId address amount =>
    cases moved
    exact ⟨h.fund chainId address amount, .refl _, fun _ h => h, fun _ h => h, rfl⟩

end AdmissionValid

end World

section Tasks
variable {R : RequestPlatform} {prices : U256 → U256} {infos : Set TokenInfo}

/-- The token and the amount of a call, as far as the task has seen them. -/
def Names (seen : List RequestObservation) (tokenId : Bytes32) (amount : U256) : Call → Prop
  | .requestWithdrawal tokenId' amount' _ _ => tokenId' = tokenId ∧ amount' = amount
  | .withdrawFromLock user _ lockId amount' _ _ => amount' = amount ∧ ∃ locks lock,
    ⟨.userLocks user, locks⟩ ∈ seen ∧ lock ∈ locks ∧ lock.lockId = lockId ∧ lock.tokenId = tokenId
  | _ => False

/-- The task has seen that the wallet can pay for the call. -/
def Checked (S : RequestSettings) (seen : List RequestObservation) (call : Call) : Prop :=
  ∃ tokenId amount context gasPrice gasLimit address balance, Names seen tokenId amount call ∧
    ⟨.tokenContext tokenId, context⟩ ∈ seen ∧ ⟨.gasPrice context.chainId, gasPrice⟩ ∈ seen ∧
    0 < gasPrice ∧ ⟨.withdrawalGasLimit context.isNative, gasLimit⟩ ∈ seen ∧
    ⟨.depositAddress, address⟩ ∈ seen ∧
    ⟨.nativeBalance context.chainId address, balance⟩ ∈ seen ∧
    requiredBalance S gasPrice gasLimit context.isNative amount.toNat ≤ balance

def SubmitsChecked (S : RequestSettings) (seen : List RequestObservation) (op : RequestOp) : Prop :=
  ∀ call, op = .submitTx call → Checked S seen call

def admissionTypestate (R : RequestPlatform) (S : RequestSettings) (prices : U256 → U256)
    (infos : Set TokenInfo) :
    Typestate (RequestWorld R.contract) RequestOp RequestOp.Reply RequestError
      (List RequestObservation) :=
  .observing RequestError (RequestTold prices) (SubmitsChecked S) (AdmissionValid prices infos)

/-- Programs that submit checked calls only, after what was seen. -/
abbrev Admits {α : Type} (R : RequestPlatform) (S : RequestSettings) (prices : U256 → U256)
    (infos : Set TokenInfo) (p : RequestTask α)
    (post : Except RequestError α → List RequestObservation → Prop)
    (seen : List RequestObservation) : Prop :=
  p.Follows (admissionTypestate R S prices infos) post seen

variable {S : RequestSettings} {α β : Type} {seen : List RequestObservation}
  {post : Except RequestError β → List RequestObservation → Prop}

theorem Admits.ask {op : RequestOp} {f : op.Reply → RequestTask β}
    (submits : ∀ call, op ≠ .submitTx call)
    (ok : ∀ a, Admits R S prices infos (f a) post (⟨op, a⟩ :: seen))
    (error : ∀ e seen', post (.error e) seen') :
    Admits R S prices infos (requestOp op >>= f) post seen :=
  Follows.observe (fun call h => absurd h (submits call)) ok fun e => error e seen

theorem Admits.require {condition : Prop} [Decidable condition] {e : RequestError}
    {f : Unit → RequestTask β} (ok : condition → Admits R S prices infos (f ()) post seen)
    (error : ∀ e seen', post (.error e) seen') :
    Admits R S prices infos (requireThat condition e >>= f) post seen := by
  unfold requireThat
  split
  · next holds => exact ok holds
  · exact error e seen

theorem checkDestinationBalance_admits {chainId : U256} {isNative : Bool} {amount : U256}
    {f : Unit → RequestTask β}
    (ok : ∀ gasPrice gasLimit address balance seen', 0 < gasPrice →
      requiredBalance S gasPrice gasLimit isNative amount.toNat ≤ balance →
      seen ⊆ seen' → ⟨.gasPrice chainId, gasPrice⟩ ∈ seen' →
      ⟨.withdrawalGasLimit isNative, gasLimit⟩ ∈ seen' → ⟨.depositAddress, address⟩ ∈ seen' →
      ⟨.nativeBalance chainId address, balance⟩ ∈ seen' →
      Admits R S prices infos (f ()) post seen')
    (error : ∀ e seen', post (.error e) seen') :
    Admits R S prices infos (checkDestinationBalance S chainId isNative amount >>= f) post
      seen := by
  unfold checkDestinationBalance
  simp only [bind_assoc]
  refine .ask (by simp) (fun gasPrice => ?_) error
  refine .require (fun published => ?_) error
  refine .ask (by simp) (fun gasLimit => ?_) error
  refine .ask (by simp) (fun web3 => ?_) error
  refine .ask (by simp) (fun address => ?_) error
  refine .ask (by simp) (fun balance => ?_) error
  refine .require (fun covers => ?_) error
  exact ok gasPrice gasLimit address balance _ published covers
    (fun o ho => by simp [ho]) (by simp) (by simp) (by simp) (by simp)

/-- What comes after the submission submits nothing more. -/
theorem admits_of_uses {p : RequestTask α} (h : p.Uses fun op => ∀ call, op ≠ .submitTx call) :
    Admits R S prices infos p (fun _ _ => True) seen :=
  h.obeys (fun _ _ hop call he => absurd he (hop call)) seen

theorem scanWithdrawals_uses (user : Address) (tokenId : Bytes32) (amount : U256)
    (floor left : ℕ) :
    (scanWithdrawals user tokenId amount floor left).Uses
      fun op => ∀ call, op ≠ .submitTx call := by
  induction left with
  | zero => exact .result _
  | succ left ih =>
    refine .bind (.await (by simp)) fun entry => ?_
    split
    · exact .result _
    · exact ih

theorem locateWithdrawalIndex_uses (user : Address) (tokenId : Bytes32) (amount : U256) :
    (locateWithdrawalIndex user tokenId amount).Uses fun op => ∀ call, op ≠ .submitTx call :=
  .except (.bind (.await (by simp)) fun _ => scanWithdrawals_uses ..) fun _ => .result _

theorem requestBody_admits (call : RequestCall) :
    Admits R S prices infos (requestBody S call) (fun _ _ => True) [] := by
  cases call with
  | requestWithdrawal tokenId amount nonce signature =>
    refine .require (fun _ => ?_) fun _ _ => trivial
    refine .ask (by simp) (fun user => ?_) fun _ _ => trivial
    refine .ask (by simp) (fun context => ?_) fun _ _ => trivial
    refine .require (fun _ => ?_) fun _ _ => trivial
    refine .ask (by simp) (fun supported => ?_) fun _ _ => trivial
    refine .require (fun _ => ?_) fun _ _ => trivial
    refine checkDestinationBalance_admits (fun gasPrice gasLimit address balance seen published
      covers earlier price limit wallet there => ?_) fun _ _ => trivial
    refine Follows.observe (fun call h => ?_) (fun _ => ?_) fun _ => trivial
    · cases h
      exact ⟨tokenId, amount, context, gasPrice, gasLimit, address, balance, ⟨rfl, rfl⟩,
        earlier (by simp), price, published, limit, wallet, there, covers⟩
    · exact admits_of_uses (.bind (locateWithdrawalIndex_uses ..) fun _ => .result _)
  | withdrawFromLock user toAddress lockId amount nonce signature =>
    refine .require (fun _ => ?_) fun _ _ => trivial
    refine .require (fun _ => ?_) fun _ _ => trivial
    refine .ask (by simp) (fun (locks : List FundLock) => ?_) fun _ _ => trivial
    split
    · trivial
    · next lock found =>
      refine .ask (by simp) (fun context => ?_) fun _ _ => trivial
      refine .ask (by simp) (fun supported => ?_) fun _ _ => trivial
      refine .require (fun _ => ?_) fun _ _ => trivial
      refine checkDestinationBalance_admits (fun gasPrice gasLimit address balance seen published
        covers earlier price limit wallet there => ?_) fun _ _ => trivial
      refine Follows.observe (fun call h => ?_) (fun _ => ?_) fun _ => trivial
      · cases h
        exact ⟨lock.tokenId, amount, context, gasPrice, gasLimit, address, balance,
          ⟨rfl, locks, lock, earlier (by simp), List.mem_of_find?_eq_some found,
            by simpa using List.find?_some found, rfl⟩,
          earlier (by simp), price, published, limit, wallet, there, covers⟩
      · trivial

end Tasks

section Perform
variable {R : RequestPlatform} {S : RequestSettings} {prices : U256 → U256} {infos : Set TokenInfo}
  {i : ℕ} {w v : RequestWorld R.contract}

theorem AdmissionValid.reads {s : State} {op : RequestOp} {a : op.Reply}
    (h : AdmissionValid prices infos w) (shown : s ∈ w.states)
    (reads : requestReads s op = some (.ok a)) : RequestTold prices i ⟨op, a⟩ w := by
  have extension := h.past s shown
  cases op with
  | userLocks user =>
    obtain rfl := Except.ok.inj (Option.some.inj reads)
    exact h.origins s shown user
  | tokenContext tokenId =>
    simp only [requestReads, Option.some.injEq] at reads
    split at reads
    · next context found =>
      obtain rfl := Except.ok.inj reads
      show tokenContext (w.accounting.tokens tokenId) = .ok context
      rw [extension.tokens tokenId (data_ne_nil_of_tokenContext found)]
      exact found
    · cases reads
  | gasPrice chainId =>
    obtain rfl := Except.ok.inj (Option.some.inj reads)
    rcases h.prices s shown chainId with none | some
    · exact .inl (by rw [none]; rfl)
    · exact .inr (by rw [some])
  | depositAddress =>
    obtain rfl := Except.ok.inj (Option.some.inj reads)
    exact extension.evmAddress.symm
  | withdrawal => trivial
  | _ => cases reads

theorem AdmissionValid.told {op : RequestOp} {answer : RequestAnswer} {a : op.Reply}
    (h : AdmissionValid prices infos w)
    (performed : requestPerform R i op answer w = some (.ok a, v)) :
    RequestTold prices i ⟨op, a⟩ v := by
  cases answer with
  | fail => cases performed
  | node lag =>
    obtain ⟨s, shown, performed⟩ := Option.bind_eq_some_iff.mp performed
    obtain ⟨r, reads, performed⟩ := Option.bind_eq_some_iff.mp performed
    cases performed
    exact h.reads (List.mem_of_getElem? shown) reads
  | count lag =>
    cases op with
    | withdrawalCount => trivial
    | _ => cases performed
  | direct =>
    cases op with
    | recoverSigner => trivial
    | withdrawalGasLimit =>
      cases performed
      rfl
    | chainWeb3 => trivial
    | nativeBalance chainId address =>
      cases performed
      exact ⟨_, List.mem_append_right _ (List.mem_singleton_self _), rfl, rfl, rfl, rfl⟩
    | _ => cases performed
  | listed supported =>
    cases op with
    | hasRpcUrl => trivial
    | _ => cases performed
  | executed msg reply =>
    cases op with
    | submitTx => trivial
    | _ => cases performed

theorem Checked.publishes {seen : List RequestObservation} {call : Call} {msg : Msg}
    (h : Checked S seen call) : PublishesOnly prices infos (.transact ⟨msg, call⟩) := by
  obtain ⟨_, _, _, _, _, _, _, names, -⟩ := h
  cases call with
  | requestWithdrawal | withdrawFromLock =>
    exact ⟨fun _ h => (by cases h), fun _ _ h => (by cases h)⟩
  | _ => exact names.elim

theorem Checked.queued {seen : List RequestObservation} {call : Call} (h : Checked S seen call) :
    call.queues = true := by
  obtain ⟨_, _, _, _, _, _, _, names, -⟩ := h
  cases call with
  | requestWithdrawal | withdrawFromLock => rfl
  | _ => exact names.elim

theorem admission_perform (inj : Set.InjOn (getTokenId R.contract) infos)
    {seen : List RequestObservation} {op : RequestOp} {answer : RequestAnswer}
    {r : Except RequestError op.Reply} (h : AdmissionValid prices infos w)
    (checked : SubmitsChecked S seen op)
    (performed : requestPerform R i op answer w = some (r, v)) :
    AdmissionValid prices infos v ∧ AdmissionStays w v := by
  by_cases submits : ∃ call, op = .submitTx call
  · obtain ⟨call, rfl⟩ := submits
    obtain ⟨rfl, -⟩ | ⟨msg, u, transacted, rfl⟩ := requestPerform_submitTx performed
    · exact ⟨h, .refl _⟩
    · obtain ⟨valid, stays⟩ := h.transact inj (checked call rfl).publishes transacted
      obtain ⟨valid', stays'⟩ := valid.create i
      exact ⟨valid', stays.accounting.trans stays'.accounting,
        fun _ hc => stays'.origins (stays.origins hc),
        fun _ hr => stays'.readings (stays.readings hr), stays'.process.trans stays.process⟩
  · obtain rfl | ⟨chainId, address, rfl⟩ :=
      requestPerform_quiet performed fun call he => submits ⟨call, he⟩
    · exact ⟨h, .refl _⟩
    · exact h.read i chainId address

/-- The wallet is enough for the task's withdrawal alone: the balance that the task has read covers
what the withdrawal needs, and it is still there but for what mined withdrawals have taken since. -/
def AdmittedAlone {P : Platform} (w v : RequestWorld P) (own : TaskId × ℕ) : Prop :=
  ∃ entry chainId cost reading, v.accounting.withdrawals[own.2]? = some entry ∧
    withdrawalCost v.accounting entry = some (chainId, cost) ∧ reading ∈ w.readings ∧
    reading.reader = own.1 ∧ reading.chainId = chainId ∧
    reading.address = v.accounting.evmAddress ∧ cost ≤ reading.balance ∧
    reading.balance + reading.taken ≤ v.native (chainId, v.accounting.evmAddress) + v.taken chainId

theorem cost_le_requiredBalance (S : RequestSettings) (gasPrice gasLimit : ℕ) (isNative : Bool)
    (amount : ℕ) : gasPrice * gasLimit + (if isNative then amount else 0) ≤
      requiredBalance S gasPrice gasLimit isNative amount := by
  refine Nat.add_le_add_right (le_max_of_le_left ?_) _
  rw [Nat.le_div_iff_mul_le (by decide)]
  exact Nat.mul_le_mul_left _ (by decide)

/-- The call names the token that is withdrawn. -/
theorem Checked.queues {seen : List RequestObservation} {call : Call} {m : Msg} {s : State}
    {o : Output R.contract} {tokenId : Bytes32} {amount : U256}
    (valid : AdmissionValid prices infos w) (known : ∀ o ∈ seen, RequestTold prices i o w)
    (names : Names seen tokenId amount call) (step : Step R.contract m call w.accounting s o) :
    QueuesFor w.accounting s tokenId amount := by
  cases call with
  | requestWithdrawal =>
    obtain ⟨rfl, rfl⟩ := names
    exact step.requestWithdrawal_queuesFor
  | withdrawFromLock user =>
    obtain ⟨rfl, locks, lock, seenLocks, mem, id, rfl⟩ := names
    obtain ⟨l, active, sameId, queues⟩ := step.withdrawFromLock_queuesFor
    have shown : lock.origin user ∈ creations w.receipts := known _ seenLocks lock mem
    have origin : l.origin user ∈ creations w.receipts := valid.locks.origin user l active
    have same := valid.locks.creation_unique origin shown (sameId.trans id.symm)
    have token : l.tokenId = lock.tokenId := congrArg Creation.tokenId same
    rwa [token] at queues
  | _ => exact names.elim

theorem submission_admitted (inj : Set.InjOn (getTokenId R.contract) infos)
    {seen : List RequestObservation} {call : Call} {msg : Msg} {u : RequestWorld R.contract}
    (valid : AdmissionValid prices infos w) (known : ∀ o ∈ seen, RequestTold prices i o w)
    (checked : Checked S seen call) (transacted : w.transact ⟨msg, call⟩ = some u) :
    AdmittedAlone w (u.create i) (w.id i, w.accounting.withdrawals.length) := by
  obtain ⟨after, stays⟩ := valid.transact inj checked.publishes transacted
  obtain ⟨tokenId, amount, context, gasPrice, gasLimit, address, balance, names, sawContext,
    sawPrice, published, sawLimit, sawAddress, sawBalance, covers⟩ := checked
  obtain ⟨s, o, step, rfl⟩ := RequestWorld.transact_eq_some transacted
  have queues := Checked.queues valid known names step
  obtain ⟨entry, appended, token, same⟩ := queues.entry
  obtain ⟨target, found, priced⟩ := queues.target
  have contextOf : tokenContext (w.accounting.tokens tokenId) = .ok context := known _ sawContext
  have chain := tokenContext_target contextOf found
  have native := tokenContext_native contextOf found
  have limit : gasLimit =
      (withdrawGasLimit (if context.isNative then .NativeEVM else .ERC20)).toNat :=
    known _ sawLimit
  have price : gasPrice = (w.accounting.gasPrices target.1).toNat := by
    have told : gasPrice = 0 ∨ gasPrice = (prices context.chainId).toNat := known _ sawPrice
    have current := (valid.prices w.accounting List.mem_cons_self target.1).resolve_left priced
    rw [current, ← chain]
    exact told.resolve_left (Nat.ne_of_gt published)
  obtain ⟨reading, mem, reader, onChain, ofAddress, read⟩ := known _ sawBalance
  have wallet : reading.address = s.evmAddress :=
    ofAddress.trans (Eq.trans (known _ sawAddress) stays.accounting.evmAddress.symm)
  refine ⟨entry, target.1, _, reading, by simp [RequestWorld.create, appended],
    queues.cost token same found, mem, reader, onChain.trans chain, ?_, ?_, ?_⟩
  · exact wallet
  · rw [read, ← price, ← native, ← limit]
    exact (cost_le_requiredBalance S gasPrice gasLimit context.isNative amount.toNat).trans covers
  · have kept := after.balances reading mem wallet
    rwa [onChain.trans chain, wallet] at kept

/-- The events of a run, with what its moves register and publish. -/
def PublishesOnlyEvent (prices : U256 → U256) (infos : Set TokenInfo) (e : RequestEvent) : Prop :=
  ∀ x, e = .move x → PublishesOnly prices infos x

theorem admission_respects (S : RequestSettings) (inj : Set.InjOn (getTokenId R.contract) infos) :
    (requestSystem R S).Respects (admissionTypestate R S prices infos) (fun _ _ => True)
      fun e _ => PublishesOnlyEvent prices infos e :=
  TaskSystem.respects_observing AdmissionStays (fun stays told => stays.told told)
    (fun _ valid _ checked performed =>
      have kept := admission_perform inj valid checked performed
      ⟨kept.1, kept.2, fun a ha => by
        subst ha
        exact valid.told performed⟩)
    (fun ok valid moved => valid.move inj (ok _ rfl) moved)
    (fun _ valid started => by
      obtain rfl := Option.some.inj started
      exact ⟨valid, .refl _⟩)
    (fun call => requestBody_admits call)
    (fun valid => ⟨valid, .refl _⟩)
    fun valid => ⟨valid.queue, valid.past, valid.locks, valid.origins, valid.prices, valid.balances⟩

theorem requestStart_admission (evm gasTank : Address × Bytes32) (native : U256 × Address → ℕ) :
    (admissionTypestate R S prices infos).Tracks (fun _ _ => True)
      (requestStart R.contract evm gasTank native) fun _ => [] where
  world :=
    { queue := .init evm gasTank
      past := fun s hs => List.mem_singleton.mp hs ▸ .refl _
      locks := .init evm gasTank
      origins := fun s hs u l hl => by
        obtain rfl := List.mem_singleton.mp hs
        exact (LockInvariant.init evm gasTank).origin u l hl
      prices := fun s hs c => by
        obtain rfl := List.mem_singleton.mp hs
        exact .inl rfl
      balances := fun _ h => (List.not_mem_nil h).elim }
  tasks _ _ h := by cases h

/-- The step in which a task's withdrawal is queued is one of a checked submission. -/
theorem admission_step {s t : RequestPool R.contract} {phase : ℕ → List RequestObservation}
    {e : RequestEvent} {o : Option RequestOp} (inj : Set.InjOn (getTokenId R.contract) infos)
    (tracks : (admissionTypestate R S prices infos).Tracks (fun _ _ => True) s phase)
    (step : TaskSystem.Step (requestSystem R S) s e t o) {own : TaskId × ℕ}
    (created : own ∈ t.world.created) (fresh : own ∉ s.world.created) :
    AdmittedAlone s.world t.world own := by
  cases step with
  | @run i answer op next r w task performed =>
    obtain ⟨⟨checked, -⟩, known⟩ := tracks.tasks i _ task
    by_cases submits : ∃ call, op = .submitTx call
    · obtain ⟨call, rfl⟩ := submits
      obtain ⟨rfl, -⟩ | ⟨msg, u, transacted, rfl⟩ := requestPerform_submitTx performed
      · exact absurd created fresh
      · have admitted := submission_admitted inj tracks.world known (checked call rfl) transacted
        have queues : call.queues = true := (checked call rfl).queued
        obtain ⟨s', o, contract, rfl⟩ := RequestWorld.transact_eq_some transacted
        obtain ⟨entry, appended⟩ := contract.queuesOne queues
        have last : s'.withdrawals.length - 1 = s.world.accounting.withdrawals.length := by
          simp [appended]
        rcases List.mem_append.mp created with old | new
        · exact absurd old fresh
        · obtain rfl := List.mem_singleton.mp new
          rwa [last]
    · obtain rfl | ⟨chainId, address, rfl⟩ :=
        requestPerform_quiet performed fun call he => submits ⟨call, he⟩
      · exact absurd created fresh
      · exact absurd created fresh
  | @move e w moved =>
    cases e with
    | transact tx =>
      obtain ⟨s', o, -, rfl⟩ := RequestWorld.transact_eq_some moved
      exact absurd created fresh
    | mine index spent =>
      obtain ⟨_, _, _, _, _, _, _, _, rfl⟩ := mine_eq_some moved
      exact absurd created fresh
    | fund =>
      cases moved
      exact absurd created fresh
  | start started =>
    obtain rfl := Option.some.inj started
    exact absurd created fresh
  | cancel => exact absurd created fresh
  | restart => exact absurd created fresh

end Perform

/-- The token infos that a run of requests registers, or tries to. -/
def requestInfos (es : List RequestEvent) : Set TokenInfo :=
  {info | ∃ tx, TaskEvent.move (.transact tx) ∈ es ∧ tx.call = .setTokenInfo info}

/-- A withdrawal that a request queues is admitted for itself: the balance that its own check has
read covers its gas at the published price and its amount, and only withdrawals that were mined
since have taken from it. The assumptions are that no chain gets a second gas price and that the
token infos of the run do not collide under `getTokenId`. -/
theorem withdrawal_admission (R : RequestPlatform) (S : RequestSettings)
    (evm gasTank : Address × Bytes32) (native : U256 × Address → ℕ) (es : List RequestEvent)
    (prices : U256 → U256) (inj : Set.InjOn (getTokenId R.contract) (requestInfos es))
    (published : ∀ tx chainId gasPrice, TaskEvent.move (.transact tx) ∈ es →
      tx.call = .setGasPrice chainId gasPrice → gasPrice = prices chainId) :
    ∀ e ∈ (requestSystem R S).machine.log (requestStart R.contract evm gasTank native) es,
      ∀ own ∈ e.after.world.created, own ∉ e.before.world.created →
        AdmittedAlone e.before.world e.after.world own := by
  intro e he own created fresh
  have allowed : ∀ x ∈ (requestSystem R S).machine.log
      (requestStart R.contract evm gasTank native) es,
      PublishesOnlyEvent prices (requestInfos es) x.input := by
    rintro x hx move hm
    have mem := (requestSystem R S).machine.input_mem_of_mem_log hx
    rw [hm] at mem
    cases move with
    | transact tx =>
      exact ⟨fun info hi => ⟨tx, mem, hi⟩, fun c price hp => published tx c price mem hp⟩
    | mine => trivial
    | fund => trivial
  have start : (admissionTypestate R S prices (requestInfos es)).Tracks (fun _ _ => True)
      (requestStart R.contract evm gasTank native) fun _ => [] :=
    requestStart_admission evm gasTank native
  obtain ⟨⟨phase, tracks⟩, step⟩ := (admission_respects S inj).entry start es allowed he
  exact admission_step inj tracks step created fresh

/-- What the withdrawals of a chain need together that are queued and not mined. -/
def queueNeeds {P : Platform} (w : RequestWorld P) (chainId : U256) : ℕ :=
  ((List.range w.accounting.withdrawals.length).map fun index =>
    if index ∈ w.mined then 0 else
      match w.accounting.withdrawals[index]?.bind (withdrawalCost w.accounting) with
      | some (chainId', cost) => if chainId' = chainId then cost else 0
      | none => 0).sum

def CoversQueue {P : Platform} (w : RequestWorld P) (chainId : U256) : Prop :=
  queueNeeds w chainId ≤ w.native (chainId, w.accounting.evmAddress)

instance {P : Platform} (w : RequestWorld P) (chainId : U256) : Decidable (CoversQueue w chainId) :=
  inferInstanceAs (Decidable (_ ≤ _))

/-- The sample's requests with a wallet that can pay for one withdrawal of them. -/
def samplePoorLog : List (TransactionMachine.Entry (RequestPool sampleQueuePlatform) RequestEvent
    (Option RequestOp)) :=
  (requestSystem sampleRequestPlatform sampleRequestSettings).machine.log
    (requestStart sampleQueuePlatform sampleEvm sampleGasTank fun _ => 150000000000000)
    sampleRequestEvents

/-- Both withdrawals are admitted, and the wallet does not cover them together. -/
theorem admission_overcommits : ¬ ∀ e ∈ samplePoorLog,
    (∃ own ∈ e.after.world.created, own ∉ e.before.world.created) →
      CoversQueue e.after.world 84532 := by
  decide +kernel

theorem requestInfos_sample : requestInfos sampleRequestEvents ⊆ {sampleToken} := by
  rintro info ⟨tx, htx, he⟩
  simp only [sampleRequestEvents, sampleFunding, sampleSubmission, List.map_cons, List.map_nil,
    List.cons_append, List.nil_append, List.mem_cons, reduceCtorEq, TaskEvent.move.injEq,
    RequestMove.transact.injEq, or_false, List.not_mem_nil] at htx
  rcases htx with rfl | rfl | rfl <;> cases he
  rfl

theorem sampleRequestEvents_price : ∀ tx chainId gasPrice,
    TaskEvent.move (.transact tx) ∈ sampleRequestEvents →
      tx.call = .setGasPrice chainId gasPrice → gasPrice = 1000000000 := by
  intro tx chainId gasPrice htx he
  simp only [sampleRequestEvents, sampleFunding, sampleSubmission, List.map_cons, List.map_nil,
    List.cons_append, List.nil_append, List.mem_cons, reduceCtorEq, TaskEvent.move.injEq,
    RequestMove.transact.injEq, or_false, List.not_mem_nil] at htx
  rcases htx with rfl | rfl | rfl <;> cases he
  rfl

theorem samplePoorLog_queues : ∃ e ∈ samplePoorLog, ∃ own ∈ e.after.world.created,
    own ∉ e.before.world.created := by
  decide +kernel

theorem withdrawal_admission_sample :
    (∃ e ∈ samplePoorLog, ∃ own ∈ e.after.world.created, own ∉ e.before.world.created) ∧
    ∀ e ∈ samplePoorLog, ∀ own ∈ e.after.world.created, own ∉ e.before.world.created →
      AdmittedAlone e.before.world e.after.world own :=
  ⟨samplePoorLog_queues, withdrawal_admission sampleRequestPlatform sampleRequestSettings sampleEvm
    sampleGasTank (fun _ => 150000000000000) sampleRequestEvents (fun _ => 1000000000)
    ((Set.subsingleton_singleton.anti requestInfos_sample).injOn _) sampleRequestEvents_price⟩

end Privana
