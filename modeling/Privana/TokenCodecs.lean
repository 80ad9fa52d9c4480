import Privana.PendingWithdrawals
import Privana.SweepService
import Privana.WithdrawalPayout

/-! The two readings of a token's data. The contract reads the address of an ERC-20 from a word that
overlaps the chain id; the service cuts the bytes apart. -/

namespace Privana
open BigEndian CheckedArithmetic

/-- What the contract makes of a token: the chain, and the contract of an ERC-20. -/
def decodeTokenInfo (info : TokenInfo) : Except Error (U256 × Option Address) :=
  match info.tokenType with
  | .NativeEVM => (fun chainId => (chainId, none)) <$> decodeEVMNativeTokenData info.data
  | .ERC20 => (fun r => (r.1, some r.2)) <$> decodeEVMErc20TokenData info.data

theorem map_eq_ok {ε α β : Type} {f : α → β} {x : Except ε α} {b : β} :
    f <$> x = .ok b ↔ ∃ a, x = .ok a ∧ f a = b := by
  cases x with
  | ok a => simp [Functor.map, Except.map]
  | error e => simp [Functor.map, Except.map]

/-- The upper bytes of the word do not matter to the address. -/
theorem setWidth_ofBytes_append (upper : Bytes) {lower : Bytes} (h : lower.length = 20) :
    (ofBytes (upper ++ lower)).setWidth 160 = BitVec.ofNat 160 (decode lower) := by
  have width : (256 : ℕ) ^ 20 = 2 ^ 160 := by norm_num
  apply BitVec.eq_of_toNat_eq
  rw [BitVec.toNat_setWidth, ofBytes, BitVec.toNat_ofNat, BitVec.toNat_ofNat, decode_append, h,
    width, Nat.mod_mod_of_dvd _ (Nat.pow_dvd_pow 2 (by norm_num)), Nat.mul_add_mod_self_right]

theorem packedAddress_ofNat {bs : Bytes} (h : bs.length = 20) :
    packedAddress (BitVec.ofNat 160 (decode bs)) = bs := by
  have lt : decode bs < 2 ^ 160 := by
    have width : (256 : ℕ) ^ 20 = 2 ^ 160 := by norm_num
    rw [← width, ← h]
    exact decode_lt bs
  rw [packedAddress, BitVec.toNat_ofNat, Nat.mod_eq_of_lt lt, ← h, encode_decode]

/-- The overlapping word ends with the bytes of the address. -/
theorem overlapping_word {data : Bytes} (h : data.length = 52) :
    (ofBytes ((data.drop 20).take 32)).setWidth 160 = BitVec.ofNat 160 (decode (data.drop 32)) := by
  have whole : (data.drop 20).take 32 = (data.drop 20).take 12 ++ data.drop 32 := by
    rw [List.take_of_length_le (by simp [h])]
    conv_lhs => rw [← List.take_append_drop 12 (data.drop 20), List.drop_drop]
  rw [whole]
  exact setWidth_ofBytes_append _ (by simp [h])

theorem decodeNative_encode (chainId : U256) :
    decodeEVMNativeTokenData (encodeEVMNativeTokenData chainId) = .ok chainId := by
  refine decodeEVMNativeTokenData_eq_ok.mpr ⟨word_length chainId, ?_⟩
  rw [encodeEVMNativeTokenData, List.take_of_length_le (by simp), ofBytes_word]

theorem encodeNative_decode {data : Bytes} {chainId : U256}
    (h : decodeEVMNativeTokenData data = .ok chainId) : encodeEVMNativeTokenData chainId = data := by
  obtain ⟨length, rfl⟩ := decodeEVMNativeTokenData_eq_ok.mp h
  rw [encodeEVMNativeTokenData, List.take_of_length_le length.le, word_ofBytes length]

theorem encodeErc20_length (chainId : U256) (tokenAddress : Address) :
    (encodeEVMErc20TokenData chainId tokenAddress).length = 52 := by
  simp [encodeEVMErc20TokenData]

theorem decodeErc20_encode (chainId : U256) (tokenAddress : Address) :
    decodeEVMErc20TokenData (encodeEVMErc20TokenData chainId tokenAddress) =
      .ok (chainId, tokenAddress) := by
  refine decodeEVMErc20TokenData_eq_ok.mpr ⟨encodeErc20_length _ _, ?_⟩
  rw [overlapping_word (encodeErc20_length _ _), encodeEVMErc20TokenData, drop_word,
    address_packedAddress, List.take_append_of_le_length (by simp),
    List.take_of_length_le (by simp), ofBytes_word]

theorem encodeErc20_decode {data : Bytes} {chainId : U256} {tokenAddress : Address}
    (h : decodeEVMErc20TokenData data = .ok (chainId, tokenAddress)) :
    encodeEVMErc20TokenData chainId tokenAddress = data := by
  obtain ⟨length, same⟩ := decodeEVMErc20TokenData_eq_ok.mp h
  obtain ⟨rfl, rfl⟩ := Prod.mk.inj same
  rw [overlapping_word length, encodeEVMErc20TokenData, packedAddress_ofNat (by simp [length]),
    word_ofBytes (by simp [length]), List.take_append_drop]

/-- What the service makes of a token that the contract can read. -/
theorem tokenContext_of_decode {info : TokenInfo} {chainId : U256} {tokenAddress : Option Address}
    (h : decodeTokenInfo info = .ok (chainId, tokenAddress)) (positive : chainId ≠ 0) :
    tokenContext info = .ok ⟨chainId, tokenAddress⟩ := by
  unfold decodeTokenInfo at h
  split at h
  · next native =>
    obtain ⟨c, decoded, same⟩ := map_eq_ok.mp h
    obtain ⟨rfl, rfl⟩ := Prod.mk.inj same
    obtain ⟨-, rfl⟩ := decodeEVMNativeTokenData_eq_ok.mp decoded
    simp only [tokenContext, if_neg positive, native]
  · next erc20 =>
    obtain ⟨⟨c, a⟩, decoded, same⟩ := map_eq_ok.mp h
    obtain ⟨rfl, rfl⟩ := Prod.mk.inj same
    obtain ⟨length, same⟩ := decodeEVMErc20TokenData_eq_ok.mp decoded
    obtain ⟨rfl, rfl⟩ := Prod.mk.inj same
    have slice : ((info.data.drop 32).take 20) = info.data.drop 32 :=
      List.take_of_length_le (by simp [length])
    have address : (ofBytes (info.data.drop 32)).setWidth 160 =
        BitVec.ofNat 160 (decode (info.data.drop 32)) :=
      setWidth_ofBytes_append [] (by simp [length])
    simp only [tokenContext, if_neg positive, erc20, slice, overlapping_word length, address]
    rw [if_neg (by simp [length])]

/-- A token without a contract is a native one. -/
theorem isNative_iff {info : TokenInfo} {chainId : U256} {tokenAddress : Option Address}
    (h : decodeTokenInfo info = .ok (chainId, tokenAddress)) :
    (TokenContext.mk chainId tokenAddress).isNative = true ↔ info.tokenType = .NativeEVM := by
  unfold decodeTokenInfo at h
  split at h
  · next native =>
    obtain ⟨c, -, same⟩ := map_eq_ok.mp h
    obtain ⟨rfl, rfl⟩ := Prod.mk.inj same
    simp [native, TokenContext.isNative]
  · next erc20 =>
    obtain ⟨r, -, same⟩ := map_eq_ok.mp h
    obtain ⟨rfl, rfl⟩ := Prod.mk.inj same
    simp [erc20, TokenContext.isNative]

theorem decodeTokenInfo_of_target {info : TokenInfo} {target : U256 × Option Address}
    (h : tokenTarget info = some target) : decodeTokenInfo info = .ok target := by
  unfold decodeTokenInfo
  rcases tokenTarget_eq_some h with ⟨kind, length, rfl⟩ | ⟨kind, length, rfl⟩
  · rw [kind, decodeEVMNativeTokenData_eq_ok.mpr ⟨length, rfl⟩]
    rfl
  · rw [kind, decodeEVMErc20TokenData_eq_ok.mpr ⟨length, rfl⟩]
    rfl

theorem decodeTokenInfo_tokenInfoAt (chainId : U256) (tokenAddress : Option Address) :
    decodeTokenInfo (tokenInfoAt chainId tokenAddress) = .ok (chainId, tokenAddress) := by
  cases tokenAddress with
  | none =>
    simp only [decodeTokenInfo, tokenInfoAt, decodeNative_encode]
    rfl
  | some tokenAddress =>
    simp only [decodeTokenInfo, tokenInfoAt, decodeErc20_encode]
    rfl

/-- The codecs are inverse to each other, and the contract and the service read a token alike. -/
theorem token_data_codecs_agree :
    (∀ chainId, decodeEVMNativeTokenData (encodeEVMNativeTokenData chainId) = .ok chainId) ∧
    (∀ chainId tokenAddress,
      decodeEVMErc20TokenData (encodeEVMErc20TokenData chainId tokenAddress) =
        .ok (chainId, tokenAddress)) ∧
    (∀ data, ((∃ chainId, decodeEVMNativeTokenData data = .ok chainId) ↔ data.length = 32) ∧
      ((∃ r, decodeEVMErc20TokenData data = .ok r) ↔ data.length = 52)) ∧
    (∀ data chainId, decodeEVMNativeTokenData data = .ok chainId →
      encodeEVMNativeTokenData chainId = data) ∧
    (∀ data chainId tokenAddress, decodeEVMErc20TokenData data = .ok (chainId, tokenAddress) →
      encodeEVMErc20TokenData chainId tokenAddress = data) ∧
    (∀ info chainId tokenAddress, decodeTokenInfo info = .ok (chainId, tokenAddress) →
      chainId ≠ 0 → ∃ context, tokenContext info = .ok context ∧ context.chainId = chainId ∧
        context.tokenAddress = tokenAddress ∧
        (context.isNative = true ↔ info.tokenType = .NativeEVM)) ∧
    (∀ chainId tokenAddress,
      decodeTokenInfo (tokenInfoAt chainId tokenAddress) = .ok (chainId, tokenAddress)) ∧
    ∀ (P : Platform) (evm gasTank : Address × Bytes32) (txs : List Tx),
      Set.InjOn (getTokenId P) (infosOf txs) →
      let s := (accounting P).run (accountingInit evm gasTank) txs
      ∀ r ∈ s.withdrawals, ∃ target, decodeTokenInfo (s.tokens r.tokenId) = .ok target ∧
        (target.1 ≠ 0 → tokenContext (s.tokens r.tokenId) = .ok ⟨target.1, target.2⟩) := by
  refine ⟨decodeNative_encode, decodeErc20_encode, fun data => ⟨⟨?_, ?_⟩, ?_, ?_⟩,
    fun _ _ => encodeNative_decode, fun _ _ _ => encodeErc20_decode, ?_,
    decodeTokenInfo_tokenInfoAt, ?_⟩
  · rintro ⟨chainId, h⟩
    exact (decodeEVMNativeTokenData_eq_ok.mp h).1
  · intro h
    exact ⟨_, decodeEVMNativeTokenData_eq_ok.mpr ⟨h, rfl⟩⟩
  · rintro ⟨r, h⟩
    exact (decodeEVMErc20TokenData_eq_ok.mp h).1
  · intro h
    exact ⟨_, decodeEVMErc20TokenData_eq_ok.mpr ⟨h, rfl⟩⟩
  · intro info chainId tokenAddress decoded positive
    refine ⟨_, tokenContext_of_decode decoded positive, rfl, rfl, ?_⟩
    exact isNative_iff decoded
  · intro P evm gasTank txs inj s r hr
    obtain ⟨target, found⟩ := (queueInvariant_run evm gasTank inj subset_rfl).target r hr
    have decoded := decodeTokenInfo_of_target found
    exact ⟨target, decoded, tokenContext_of_decode decoded⟩

theorem token_data_codecs_agree_sample :
    decodeTokenInfo (tokenInfoAt 84532 (some 5)) = .ok (84532, some 5) ∧
    ∃ context, tokenContext (tokenInfoAt 84532 (some 5)) = .ok context ∧
      context.chainId = 84532 ∧ context.tokenAddress = some 5 ∧
      (context.isNative = true ↔ (tokenInfoAt 84532 (some 5)).tokenType = .NativeEVM) :=
  ⟨token_data_codecs_agree.2.2.2.2.2.2.1 84532 (some 5),
    token_data_codecs_agree.2.2.2.2.2.1 (tokenInfoAt 84532 (some 5)) 84532 (some 5)
      (token_data_codecs_agree.2.2.2.2.2.2.1 84532 (some 5)) (by decide)⟩

end Privana
