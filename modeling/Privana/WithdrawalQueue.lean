import Privana.ExecuteStep

/-! The withdrawal queue along a run. Apart from the resolved marks it only grows,
the chain of a queued token never changes, and the signing keys stay; so what a
queued withdrawal pays, and under which nonce, is fixed when it is queued. -/

namespace Privana
open BigEndian CheckedArithmetic

variable {P : Platform} {m : Msg}

/-- An entry without its resolved mark. -/
def WithdrawalRequest.core (w : WithdrawalRequest) : WithdrawalRequest :=
  { w with resolved := false }

/-- What the queue and the token registry say a withdrawal pays. -/
structure Payout where
  target : U256 × Option Address
  nonce : U64
  recipient : Address
  amount : U256
  requested : U256
  deriving DecidableEq

def WithdrawalRequest.payout? (w : WithdrawalRequest) (tokens : Bytes32 → TokenInfo) :
    Option Payout :=
  match tokenTarget (tokens w.tokenId), abiDecodeU64 w.txIdentifier with
  | some target, .ok nonce => some ⟨target, nonce, w.toAddress, w.amount, w.blockNumber⟩
  | _, _ => none

def State.payout? (s : State) (i : ℕ) : Option Payout :=
  s.withdrawals[i]?.bind fun w => w.payout? s.tokens

/-- The transaction that pays, for a gas price. -/
def Payout.tx (p : Payout) (P : Platform) (gasPrice : U256) : EthTx :=
  transferTx P withdrawGasLimit p.target p.recipient p.amount p.nonce gasPrice

theorem Payout.tx_chain_nonce (p : Payout) (P : Platform) (gasPrice : U256) :
    ((p.tx P gasPrice).chainId, (p.tx P gasPrice).nonce) = (p.target.1, p.nonce) := by
  unfold Payout.tx transferTx
  split <;> rfl

theorem abiDecodeU64_nonce (n : U64) : abiDecodeU64 (abiEncode [n.setWidth 256]) = .ok n := by
  have hlt : n.toNat < 2 ^ 64 := n.isLt
  have hw : (n.setWidth 256).toNat = n.toNat := by
    rw [BitVec.toNat_setWidth]
    exact Nat.mod_eq_of_lt (by omega)
  have ht : (word (n.setWidth 256)).take 32 = word (n.setWidth 256) :=
    List.take_of_length_le (by simp)
  have hn : ¬ 2 ^ 64 ≤ (n.setWidth 256).toNat := by
    rw [hw]
    omega
  simp only [abiDecodeU64, abiEncode, List.flatMap_cons, List.flatMap_nil, List.append_nil,
    word_length, ht, ofBytes_word, revertIf, if_neg hn, Nat.lt_irrefl, if_false]
  simp [bind, Except.bind, pure, Except.pure]

/-- Everything that decides a payout is still there in `s'`. -/
structure Extends (s s' : State) : Prop where
  queue : s.withdrawals.map (·.core) <+: s'.withdrawals.map (·.core)
  tokens : ∀ t, (s.tokens t).data ≠ [] → s'.tokens t = s.tokens t
  evmAddress : s'.evmAddress = s.evmAddress
  secretKey : s'.secretKey = s.secretKey
  gasTankSecret : s'.gasTankSecret = s.gasTankSecret

theorem Extends.refl (s : State) : Extends s s := ⟨List.prefix_rfl, fun _ _ => rfl, rfl, rfl, rfl⟩

theorem Extends.trans {s s' s'' : State} (h : Extends s s') (h' : Extends s' s'') :
    Extends s s'' where
  queue := h.queue.trans h'.queue
  tokens t ht := by
    have he := h.tokens t ht
    rw [h'.tokens t (he ▸ ht), he]
  evmAddress := h'.evmAddress.trans h.evmAddress
  secretKey := h'.secretKey.trans h.secretKey
  gasTankSecret := h'.gasTankSecret.trans h.gasTankSecret

theorem data_ne_nil_of_tokenTarget {info : TokenInfo} {target : U256 × Option Address}
    (h : tokenTarget info = some target) : info.data ≠ [] := by
  rintro he
  unfold tokenTarget at h
  split at h <;> simp [he] at h

theorem Extends.target {s s' : State} (h : Extends s s') {t : Bytes32}
    {target : U256 × Option Address} (ht : tokenTarget (s.tokens t) = some target) :
    tokenTarget (s'.tokens t) = some target := by
  rw [h.tokens t (data_ne_nil_of_tokenTarget ht), ht]

theorem payout?_core (w : WithdrawalRequest) (tokens : Bytes32 → TokenInfo) :
    w.core.payout? tokens = w.payout? tokens := rfl

theorem entry_of_prefix {ws ws' : List WithdrawalRequest}
    (h : ws.map (·.core) <+: ws'.map (·.core)) {i : ℕ} {w : WithdrawalRequest}
    (hw : ws[i]? = some w) : ∃ w', ws'[i]? = some w' ∧ w'.core = w.core := by
  have hcore : (ws.map (·.core))[i]? = some w.core := by simp [hw]
  have hlt : i < (ws.map (·.core)).length := (List.getElem?_eq_some_iff.mp hcore).1
  obtain ⟨ys, hys⟩ := h
  have hcore' : (ws'.map (·.core))[i]? = some w.core := by
    rw [← hys, List.getElem?_append_left hlt, hcore]
  simpa using hcore'

theorem Extends.entry {s s' : State} (h : Extends s s') {i : ℕ} {w : WithdrawalRequest}
    (hw : s.withdrawals[i]? = some w) : ∃ w', s'.withdrawals[i]? = some w' ∧ w'.core = w.core :=
  entry_of_prefix h.queue hw

theorem Extends.payout {s s' : State} (h : Extends s s') {i : ℕ} {p : Payout}
    (hp : s.payout? i = some p) : s'.payout? i = some p := by
  obtain ⟨w, hw, hp⟩ := Option.bind_eq_some_iff.mp hp
  obtain ⟨w', hw', he⟩ := h.entry hw
  refine Option.bind_eq_some_iff.mpr ⟨w', hw', ?_⟩
  rw [← payout?_core, he, payout?_core]
  unfold WithdrawalRequest.payout? at hp ⊢
  split at hp
  · next target nonce ht hn =>
    rw [h.target ht, hn]
    exact hp
  · cases hp

/-- What a step does to the queue, the nonces and the token registry. -/
inductive QueueChange (P : Platform) (m : Msg) (call : Call) (s s' : State) : Prop
  | same (queue : s'.withdrawals.map (·.core) = s.withdrawals.map (·.core))
      (nonces : s'.nonces = s.nonces) (tokens : s'.tokens = s.tokens)
  | queued {w : WithdrawalRequest} {chainId : U256} {token : Option Address} {next : U64}
      (queue : s'.withdrawals = s.withdrawals ++ [w]) (block : w.blockNumber = m.blockNumber)
      (target : tokenTarget (s.tokens w.tokenId) = some (chainId, token))
      (identifier : w.txIdentifier = abiEncode [(s.nonces chainId).setWidth 256])
      (nextNonce : next.toNat = (s.nonces chainId).toNat + 1)
      (nonces : s'.nonces = Function.update s.nonces chainId next) (tokens : s'.tokens = s.tokens)
  | registered {info : TokenInfo} (set : call = .setTokenInfo info)
      (queue : s'.withdrawals = s.withdrawals) (nonces : s'.nonces = s.nonces)
      (tokens : s'.tokens = Function.update s.tokens (getTokenId P info) info)

theorem QueueChange.of_schedules {call : Call} {s t t' s' : State}
    {userAddress toAddress : Address} {tokenId : Bytes32} {amount chainId : U256}
    (h : Schedules m userAddress toAddress tokenId amount chainId t t')
    (queue : t.withdrawals = s.withdrawals) (nonces : t.nonces = s.nonces)
    (tokens : t.tokens = s.tokens) (queue' : s'.withdrawals = t'.withdrawals)
    (nonces' : s'.nonces = t'.nonces) (tokens' : s'.tokens = t'.tokens) :
    QueueChange P m call s s' := by
  obtain ⟨token, ht⟩ := h.target
  obtain ⟨next, hn, rfl⟩ := h.queued
  rw [tokens] at ht
  rw [nonces] at hn
  refine .queued (queue'.trans (congrArg (· ++ _) queue)) rfl ht ?_ hn ?_ (tokens'.trans tokens)
  · rw [← nonces]
  · rw [nonces', ← nonces]

/-- Resolving an entry touches its mark only. -/
theorem map_core_setResolved {ws : List WithdrawalRequest} {i : ℕ} {w : WithdrawalRequest}
    (entry : ws[i]? = some w) :
    (ws.set i { w with resolved := true }).map (·.core) = ws.map (·.core) := by
  obtain ⟨hlt, rfl⟩ := List.getElem?_eq_some_iff.mp entry
  rw [List.map_set]
  apply List.ext_getElem (by simp)
  intro k hk hk'
  rw [List.getElem_set]
  split
  · next hik =>
    subst hik
    simp [WithdrawalRequest.core]
  · rfl

theorem Step.queueChange {call : Call} {s s' : State} {o : Output P} (h : Step P m call s s' o) :
    QueueChange P m call s s' := by
  cases h with
  | unlockSingleLock _ unlock =>
    obtain ⟨_, _, _, _, rfl⟩ := unlock.moved
    exact .same rfl rfl rfl
  | unlockAllExpiredLocks unlocks =>
    obtain ⟨_, _, _, rfl⟩ := unlocks.frame
    exact .same rfl rfl rfl
  | withdrawFromLock _ _ _ _ _ _ _ _ _ _ schedules =>
    exact .of_schedules schedules rfl rfl rfl rfl rfl rfl
  | requestWithdrawal _ _ _ _ _ schedules =>
    exact .of_schedules schedules rfl rfl rfl rfl rfl rfl
  | transferFromLock => split_ifs <;> exact .same rfl rfl rfl
  | transferBalance => split_ifs <;> exact .same rfl rfl rfl
  | resolveWithdrawal entry => exact .same (map_core_setResolved entry) rfl rfl
  | setTokenInfo => exact .registered rfl rfl rfl rfl
  | _ => exact .same rfl rfl rfl

/-- A resolved withdrawal stays resolved. -/
theorem Step.resolved {call : Call} {s s' : State} {o : Output P} (h : Step P m call s s' o)
    {i : ℕ} {w : WithdrawalRequest} (hw : s.withdrawals[i]? = some w) (hr : w.resolved = true) :
    ∃ w', s'.withdrawals[i]? = some w' ∧ w'.resolved = true := by
  have kept {ws : List WithdrawalRequest} (he : ws = s.withdrawals) :
      ∃ w', ws[i]? = some w' ∧ w'.resolved = true := ⟨w, he ▸ hw, hr⟩
  have appended (x : WithdrawalRequest) :
      ∃ w', (s.withdrawals ++ [x])[i]? = some w' ∧ w'.resolved = true :=
    ⟨w, by rw [List.getElem?_append_left (List.getElem?_eq_some_iff.mp hw).1, hw], hr⟩
  cases h with
  | unlockSingleLock _ unlock =>
    obtain ⟨_, _, _, _, rfl⟩ := unlock.moved
    exact kept rfl
  | unlockAllExpiredLocks unlocks =>
    obtain ⟨_, _, _, rfl⟩ := unlocks.frame
    exact kept rfl
  | withdrawFromLock _ _ _ _ _ _ _ _ _ _ schedules =>
    obtain ⟨_, -, rfl⟩ := schedules.queued
    exact appended _
  | requestWithdrawal _ _ _ _ _ schedules =>
    obtain ⟨_, -, rfl⟩ := schedules.queued
    exact appended _
  | transferFromLock => split_ifs <;> exact kept rfl
  | transferBalance => split_ifs <;> exact kept rfl
  | @resolveWithdrawal _ index x _ _ _ entry =>
    rw [List.getElem?_set]
    by_cases hi : index = i
    · subst hi
      have hlt := (List.getElem?_eq_some_iff.mp entry).1
      exact ⟨_, by rw [if_pos rfl, if_pos hlt], rfl⟩
    · exact ⟨w, by rw [if_neg hi, hw], hr⟩
  | _ => exact kept rfl

/-- The queue moves forward: entries stay, and so do their resolved marks. -/
structure Advances (s s' : State) : Prop where
  queue : s.withdrawals.map (·.core) <+: s'.withdrawals.map (·.core)
  resolved : ∀ (i : ℕ) (w : WithdrawalRequest), s.withdrawals[i]? = some w → w.resolved = true →
    ∃ w' : WithdrawalRequest, s'.withdrawals[i]? = some w' ∧ w'.resolved = true

namespace Advances

variable {s s' s'' : State}

theorem refl (s : State) : Advances s s := ⟨List.prefix_rfl, fun _ w hw hr => ⟨w, hw, hr⟩⟩

theorem trans (h : Advances s s') (h' : Advances s' s'') : Advances s s'' where
  queue := h.queue.trans h'.queue
  resolved i w hw hr := by
    obtain ⟨w', hw', hr'⟩ := h.resolved i w hw hr
    exact h'.resolved i w' hw' hr'

theorem entry (h : Advances s s') {i : ℕ} {w : WithdrawalRequest}
    (hw : s.withdrawals[i]? = some w) : ∃ w', s'.withdrawals[i]? = some w' ∧ w'.core = w.core :=
  entry_of_prefix h.queue hw

end Advances

theorem Step.advances {call : Call} {s s' : State} {o : Output P} (h : Step P m call s s' o) :
    Advances s s' where
  queue := by
    cases h.queueChange with
    | same queue => exact queue ▸ List.prefix_rfl
    | queued queue =>
      rw [queue, List.map_append]
      exact List.prefix_append _ _
    | registered _ queue => exact queue ▸ List.prefix_rfl
  resolved _ _ hw hr := h.resolved hw hr

theorem Step.keys {call : Call} {s s' : State} {o : Output P} (h : Step P m call s s' o) :
    s'.evmAddress = s.evmAddress ∧ s'.secretKey = s.secretKey ∧
      s'.gasTankSecret = s.gasTankSecret := by
  cases h with
  | unlockSingleLock _ unlock =>
    obtain ⟨_, _, _, _, rfl⟩ := unlock.moved
    exact ⟨rfl, rfl, rfl⟩
  | unlockAllExpiredLocks unlocks =>
    obtain ⟨_, _, _, rfl⟩ := unlocks.frame
    exact ⟨rfl, rfl, rfl⟩
  | withdrawFromLock _ _ _ _ _ _ _ _ _ _ schedules =>
    obtain ⟨_, _, rfl⟩ := schedules.queued
    exact ⟨rfl, rfl, rfl⟩
  | requestWithdrawal _ _ _ _ _ schedules =>
    obtain ⟨_, _, rfl⟩ := schedules.queued
    exact ⟨rfl, rfl, rfl⟩
  | transferFromLock => split_ifs <;> exact ⟨rfl, rfl, rfl⟩
  | transferBalance => split_ifs <;> exact ⟨rfl, rfl, rfl⟩
  | _ => exact ⟨rfl, rfl, rfl⟩

/-- The nonces of the entries that are queued for a chain, in index order. -/
def queuedNonces (tokens : Bytes32 → TokenInfo) (ws : List WithdrawalRequest) (chainId : U256) :
    List (Except Error U64) :=
  (ws.filter fun w => (tokenTarget (tokens w.tokenId)).map Prod.fst = some chainId).map
    fun w => abiDecodeU64 w.txIdentifier

theorem queuedNonces_core (tokens : Bytes32 → TokenInfo) (ws : List WithdrawalRequest)
    (chainId : U256) :
    queuedNonces tokens (ws.map (·.core)) chainId = queuedNonces tokens ws chainId := by
  unfold queuedNonces
  rw [List.filter_map, List.map_map]
  rfl

theorem queuedNonces_congr {tokens tokens' : Bytes32 → TokenInfo} {ws : List WithdrawalRequest}
    (h : ∀ w ∈ ws, tokenTarget (tokens' w.tokenId) = tokenTarget (tokens w.tokenId))
    (chainId : U256) : queuedNonces tokens' ws chainId = queuedNonces tokens ws chainId := by
  unfold queuedNonces
  congr 1
  exact List.filter_congr fun w hw => by rw [h w hw]

/-- What every reachable state satisfies, for the token infos the run registers. -/
structure QueueInvariant (P : Platform) (infos : Set TokenInfo) (s : State) : Prop where
  registered : ∀ t, (s.tokens t).data ≠ [] → s.tokens t ∈ infos ∧ getTokenId P (s.tokens t) = t
  target : ∀ w ∈ s.withdrawals, ∃ target, tokenTarget (s.tokens w.tokenId) = some target
  decodes : ∀ w ∈ s.withdrawals, ∃ nonce, abiDecodeU64 w.txIdentifier = .ok nonce
  nonces : ∀ chainId, queuedNonces s.tokens s.withdrawals chainId =
    (List.range (s.nonces chainId).toNat).map fun k => .ok (BitVec.ofNat 64 k)

namespace QueueInvariant

variable {infos : Set TokenInfo} {s s' : State}

theorem init (evm gasTank : Address × Bytes32) :
    QueueInvariant P infos (accountingInit evm gasTank) where
  registered t h := absurd rfl h
  target w h := by simp [accountingInit] at h
  decodes w h := by simp [accountingInit] at h
  nonces chainId := by simp [accountingInit, queuedNonces]

/-- Without collisions, registering a token again changes nothing. -/
theorem tokens (h : QueueInvariant P infos s) (inj : Set.InjOn (getTokenId P) infos)
    {info : TokenInfo} (hi : info ∈ infos) (t : Bytes32) (ht : (s.tokens t).data ≠ []) :
    Function.update s.tokens (getTokenId P info) info t = s.tokens t := by
  obtain ⟨hmem, hid⟩ := h.registered t ht
  by_cases he : t = getTokenId P info
  · subst he
    rw [Function.update_self]
    exact inj hi hmem hid.symm
  · exact Function.update_of_ne he _ _

theorem extends_step {call : Call} {o : Output P} (h : QueueInvariant P infos s)
    (inj : Set.InjOn (getTokenId P) infos) (hi : ∀ info, call = .setTokenInfo info → info ∈ infos)
    (hs : Step P m call s s' o) : Extends s s' := by
  obtain ⟨ha, hk, hg⟩ := hs.keys
  cases hs.queueChange with
  | same queue nonces tokens =>
    exact ⟨queue ▸ List.prefix_rfl, fun t _ => tokens ▸ rfl, ha, hk, hg⟩
  | queued queue block target identifier next nonces tokens =>
    refine ⟨?_, fun t _ => tokens ▸ rfl, ha, hk, hg⟩
    rw [queue, List.map_append]
    exact List.prefix_append _ _
  | registered set queue nonces tokens =>
    refine ⟨queue ▸ List.prefix_rfl, fun t ht => ?_, ha, hk, hg⟩
    rw [tokens, h.tokens inj (hi _ set) t ht]

theorem step {call : Call} {o : Output P} (h : QueueInvariant P infos s)
    (inj : Set.InjOn (getTokenId P) infos) (hi : ∀ info, call = .setTokenInfo info → info ∈ infos)
    (hs : Step P m call s s' o) : QueueInvariant P infos s' := by
  cases hs.queueChange with
  | same queue nonces tokens =>
    have hmem {w : WithdrawalRequest} (hw : w ∈ s'.withdrawals) :
        ∃ w₀ ∈ s.withdrawals, w₀.core = w.core := by
      have hc : w.core ∈ s.withdrawals.map (·.core) := queue ▸ List.mem_map_of_mem hw
      simpa using hc
    refine ⟨?_, fun w hw => ?_, fun w hw => ?_, fun chainId => ?_⟩
    · rw [tokens]
      exact h.registered
    · obtain ⟨w₀, hw₀, he⟩ := hmem hw
      have ht : w.tokenId = w₀.tokenId := (congrArg WithdrawalRequest.tokenId he).symm
      rw [tokens, ht]
      exact h.target w₀ hw₀
    · obtain ⟨w₀, hw₀, he⟩ := hmem hw
      have ht : w.txIdentifier = w₀.txIdentifier :=
        (congrArg WithdrawalRequest.txIdentifier he).symm
      rw [ht]
      exact h.decodes w₀ hw₀
    · rw [← queuedNonces_core, queue, queuedNonces_core, tokens, nonces, h.nonces]
  | @queued w chainId token next queue block target identifier nextNonce nonces tokens =>
    refine ⟨?_, fun x hx => ?_, fun x hx => ?_, fun c => ?_⟩
    · rw [tokens]
      exact h.registered
    · rw [tokens]
      rw [queue, List.mem_append, List.mem_singleton] at hx
      rcases hx with hx | rfl
      · exact h.target x hx
      · exact ⟨_, target⟩
    · rw [queue, List.mem_append, List.mem_singleton] at hx
      rcases hx with hx | rfl
      · exact h.decodes x hx
      · exact ⟨_, identifier ▸ abiDecodeU64_nonce _⟩
    · have happ : queuedNonces s'.tokens s'.withdrawals c =
          queuedNonces s.tokens s.withdrawals c ++ queuedNonces s.tokens [w] c := by
        rw [tokens, queue]
        simp [queuedNonces]
      rw [happ, h.nonces, nonces]
      by_cases hc : c = chainId
      · subst hc
        rw [Function.update_self, nextNonce, List.range_succ, List.map_append]
        simp [queuedNonces, target, identifier, abiDecodeU64_nonce]
      · rw [Function.update_of_ne hc]
        simp [queuedNonces, target, Ne.symm hc]
  | @registered info set queue nonces tokens =>
    have hsame (t : Bytes32) (target : U256 × Option Address)
        (ht : tokenTarget (s.tokens t) = some target) : s'.tokens t = s.tokens t := by
      rw [tokens]
      exact h.tokens inj (hi _ set) t (data_ne_nil_of_tokenTarget ht)
    refine ⟨fun t ht => ?_, fun w hw => ?_, fun w hw => ?_, fun chainId => ?_⟩
    · by_cases he : t = getTokenId P info
      · rw [tokens, he, Function.update_self]
        exact ⟨hi _ set, rfl⟩
      · rw [tokens, Function.update_of_ne he] at ht ⊢
        exact h.registered t ht
    · rw [queue] at hw
      obtain ⟨target, ht⟩ := h.target w hw
      exact ⟨target, by rw [hsame _ _ ht, ht]⟩
    · rw [queue] at hw
      exact h.decodes w hw
    · rw [queue, nonces, ← h.nonces]
      refine queuedNonces_congr (fun w hw => ?_) chainId
      obtain ⟨target, ht⟩ := h.target w hw
      rw [hsame _ _ ht]

end QueueInvariant

end Privana
