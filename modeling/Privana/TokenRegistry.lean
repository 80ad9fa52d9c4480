import Privana.DepositDiscovery
import Privana.TokenCodecs

/-! The tokens of the contract, as the service lists them. A token id is the hash of the token's
type and data, so a listed ERC-20 has the id that is computed from its chain and its address. -/

namespace Privana
open BigEndian

/-- `get_token_info`, as far as discovery reads it. -/
def getTokenInfo (s : State) (tokenId : Bytes32) : TokenListing :=
  let info := s.tokens tokenId
  match info.tokenType with
  | .NativeEVM =>
    { tokenId, tokenType := 0
      chainId := if info.data = [] then none else some (ofBytes (info.data.take 32)) }
  | .ERC20 =>
    if 52 ≤ info.data.length then
      { tokenId, tokenType := 1
        chainId := some (ofBytes (info.data.take 32))
        tokenAddress := some (BitVec.ofNat 160 (decode ((info.data.drop 32).take 20))) }
    else { tokenId, tokenType := 1 }

/-- `_fetch_all_tokens`; a token whose info cannot be read is left out. -/
def fetchAllTokens (readable : Bytes32 → Bool) (s : State) : List TokenListing :=
  (s.registeredTokenIds.filter readable).map (getTokenInfo s)

/-- The info of a native token or of an ERC-20, as the contract encodes them. -/
def TokenInfo.Canonical (info : TokenInfo) : Prop :=
  ∃ chainId tokenAddress, info = tokenInfoAt chainId tokenAddress

theorem TokenInfo.Canonical.data_ne_nil {info : TokenInfo} (h : info.Canonical) :
    info.data ≠ [] := by
  obtain ⟨chainId, tokenAddress, rfl⟩ := h
  cases tokenAddress with
  | none => exact List.ne_nil_of_length_pos (by rw [tokenInfoAt, encodeEVMNativeTokenData]; simp)
  | some a => exact List.ne_nil_of_length_pos (by rw [tokenInfoAt, encodeErc20_length]; omega)

/-- Every registered token stands under its own id, with an info of either form. -/
def RegistrySound (P : Platform) (s : State) : Prop :=
  ∀ t ∈ s.registeredTokenIds, (s.tokens t).Canonical ∧ getTokenId P (s.tokens t) = t

section Runs

variable {P : Platform} {m : Msg} {s s' : State}

/-- What a call does to the registry. -/
theorem Step.registry {call : Call} {o : Output P} (step : Step P m call s s' o) :
    (s'.tokens = s.tokens ∧ s'.registeredTokenIds = s.registeredTokenIds) ∨
    ∃ info, call = .setTokenInfo info ∧
      s'.tokens = Function.update s.tokens (getTokenId P info) info ∧
      s.registeredTokenIds ⊆ s'.registeredTokenIds ∧
      s'.registeredTokenIds ⊆ getTokenId P info :: s.registeredTokenIds := by
  cases step with
  | @setTokenInfo _ info ids rofl registered =>
    refine .inr ⟨info, rfl, rfl, ?_⟩
    subst registered
    dsimp only
    split
    · exact ⟨List.Subset.refl _, List.subset_cons_self _ _⟩
    · refine ⟨List.subset_append_left _ _, fun t ht => ?_⟩
      rcases List.mem_append.mp ht with old | new
      · exact List.mem_cons_of_mem _ old
      · exact List.mem_cons.mpr (.inl (List.mem_singleton.mp new))
  | unlockSingleLock _ unlock =>
    obtain ⟨_, _, _, _, rfl⟩ := unlock.moved
    exact .inl ⟨rfl, rfl⟩
  | unlockAllExpiredLocks unlocks =>
    obtain ⟨_, _, _, rfl⟩ := unlocks.frame
    exact .inl ⟨rfl, rfl⟩
  | withdrawFromLock _ _ _ _ _ _ _ _ _ _ schedules =>
    obtain ⟨_, -, rfl⟩ := schedules.queued
    exact .inl ⟨rfl, rfl⟩
  | requestWithdrawal _ _ _ _ _ schedules =>
    obtain ⟨_, -, rfl⟩ := schedules.queued
    exact .inl ⟨rfl, rfl⟩
  | transferFromLock => split_ifs <;> exact .inl ⟨rfl, rfl⟩
  | transferBalance => split_ifs <;> exact .inl ⟨rfl, rfl⟩
  | _ => exact .inl ⟨rfl, rfl⟩

theorem RegistrySound.step (h : RegistrySound P s) {call : Call} {o : Output P}
    (step : Step P m call s s' o) (canonical : ∀ info, call = .setTokenInfo info → info.Canonical) :
    RegistrySound P s' := by
  rcases step.registry with ⟨tokens, ids⟩ | ⟨info, called, tokens, -, ids⟩
  · rw [RegistrySound, tokens, ids]
    exact h
  · intro t ht
    rw [tokens]
    by_cases same : t = getTokenId P info
    · rw [same, Function.update_self]
      exact ⟨canonical info called, rfl⟩
    · rw [Function.update_of_ne same]
      exact h t ((List.mem_cons.mp (ids ht)).resolve_left same)

theorem registrySound_run (evm gasTank : Address × Bytes32) (txs : List Tx)
    (canonical : ∀ info ∈ infosOf txs, info.Canonical) :
    RegistrySound P ((accounting P).run (accountingInit evm gasTank) txs) := by
  refine (accounting P).run_induction_of_mem (I := fun _ s => RegistrySound P s) ?_ txs ?_
  · exact fun t ht => (List.not_mem_nil ht).elim
  · intro _ s tx s' o mem h executed
    exact h.step (execute_step executed) fun info called => canonical info ⟨tx, mem, called⟩

/-- A token that is registered stays so. -/
theorem registered_run (s : State) (txs : List Tx) :
    s.registeredTokenIds ⊆ ((accounting P).run s txs).registeredTokenIds := by
  refine (accounting P).run_invariant (I := fun t => s.registeredTokenIds ⊆ t.registeredTokenIds)
    (List.Subset.refl _) (fun t tx t' o h executed => ?_) txs
  rcases (execute_step executed).registry with ⟨-, ids⟩ | ⟨info, -, -, ids, -⟩
  · rw [ids]
    exact h
  · exact List.Subset.trans h ids

/-- A listed ERC-20 has the id of its chain and its address. -/
theorem RegistrySound.listed (h : RegistrySound P s) {readable : Bytes32 → Bool} {t : TokenListing}
    (mem : t ∈ fetchAllTokens readable s) {chainId : U256} {tokenAddress : Address}
    (erc20 : t.tokenType = 1) (chain : t.chainId = some chainId)
    (address : t.tokenAddress = some tokenAddress) :
    t.tokenId ∈ s.registeredTokenIds ∧
      t.tokenId = getTokenId P (tokenInfoAt chainId (some tokenAddress)) := by
  obtain ⟨id, listed, rfl⟩ := List.mem_map.mp mem
  have registered := (List.mem_filter.mp listed).1
  obtain ⟨⟨c, a, info⟩, own⟩ := h id registered
  unfold getTokenInfo at erc20 chain address ⊢
  rw [info] at erc20 chain address ⊢
  cases a with
  | none => cases erc20
  | some a =>
    have long : 52 ≤ (encodeEVMErc20TokenData c a).length := (encodeErc20_length c a).ge
    have part : (encodeEVMErc20TokenData c a).drop 32 = packedAddress a := by
      rw [encodeEVMErc20TokenData, List.drop_left' (word_length c)]
    have chainPart : (encodeEVMErc20TokenData c a).take 32 = word c := by
      rw [encodeEVMErc20TokenData, List.take_left' (word_length c)]
    simp only [tokenInfoAt, if_pos long, chainPart, part, ofBytes_word, Option.some_inj,
      List.take_of_length_le (packedAddress_length a).le, address_packedAddress] at chain address ⊢
    subst chain address
    exact ⟨registered, own.symm.trans (by rw [info, tokenInfoAt])⟩

end Runs

end Privana
