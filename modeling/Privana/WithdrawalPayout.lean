import Privana.WithdrawalQueue

/-! No double payout. The queue fixes a chain, a nonce, a recipient and an amount
for each withdrawal; whatever the contract's main key signs is one of these
payouts at some gas price, and no two withdrawals share a chain and a nonce. -/

namespace Privana
open BigEndian CheckedArithmetic

variable {P : Platform} {m : Msg}

/-- What is signed comes from `resolveWithdrawal`, or is signed with another key. -/
theorem Step.signedTx {call : Call} {s s' : State} {o : Output P} (h : Step P m call s s' o)
    {x : SignedTx P} (hx : o.signedTx = some x) :
    (∃ i, call = .resolveWithdrawal i) ∨
    (∃ beneficiary chainType version,
      x.secret = (deriveDepositKeypair P s.toSignerState beneficiary chainType version).2) ∨
    x.secret = s.gasTankSecret := by
  cases h with
  | generateSweepNativeTransfer _ key =>
    obtain rfl := Option.some.inj hx
    exact .inr (.inl ⟨_, _, _, congrArg Prod.snd key⟩)
  | generateSweepERC20Transfer _ key =>
    obtain rfl := Option.some.inj hx
    exact .inr (.inl ⟨_, _, _, congrArg Prod.snd key⟩)
  | generateGasFundingTx _ _ secret =>
    obtain rfl := Option.some.inj hx
    exact .inr (.inr secret)
  | executeEmergencyWithdraw _ _ _ _ key =>
    obtain rfl := Option.some.inj hx
    exact .inr (.inl ⟨_, _, _, congrArg Prod.snd key⟩)
  | resolveWithdrawal => exact .inl ⟨_, rfl⟩
  | _ => cases hx

/-- A call of `resolveWithdrawal` that succeeds signs the payout of the entry with
the main key, after the block of the request. -/
theorem Step.resolves {i : ℕ} {s s' : State} {o : Output P}
    (h : Step P m (.resolveWithdrawal i) s s' o) :
    ∃ p x gasPrice, s.payout? i = some p ∧ o.signedTx = some x ∧ x.account = s.evmAddress ∧
      x.secret = s.secretKey ∧ x.tx = p.tx P gasPrice ∧
      p.requested.toNat < m.blockNumber.toNat := by
  cases h with
  | @resolveWithdrawal _ _ w target nonce x entry later token decoded _ account secret tx =>
    refine ⟨⟨target, nonce, w.toAddress, w.amount, w.blockNumber⟩, x, _, ?_, rfl, account, secret,
      tx, later⟩
    simp [State.payout?, entry, WithdrawalRequest.payout?, token, decoded]

/-- The token infos a run registers, or tries to. -/
def infosOf (txs : List Tx) : Set TokenInfo := {info | ∃ tx ∈ txs, tx.call = .setTokenInfo info}

theorem queueInvariant_run (evm gasTank : Address × Bytes32) {infos : Set TokenInfo}
    (inj : Set.InjOn (getTokenId P) infos) {txs : List Tx} (hi : infosOf txs ⊆ infos) :
    QueueInvariant P infos ((accounting P).run (accountingInit evm gasTank) txs) := by
  induction txs using List.reverseRecOn with
  | nil => exact .init evm gasTank
  | append_singleton txs tx ih =>
    have h := ih fun info ⟨x, hx, he⟩ => hi ⟨x, List.mem_append_left _ hx, he⟩
    rw [TransactionMachine.run_concat]
    cases hx : execute P tx.msg tx.call ((accounting P).run (accountingInit evm gasTank) txs) with
    | ok r =>
      rw [(accounting P).step_of_ok hx]
      exact h.step inj (fun info he => hi ⟨tx, by simp, he⟩) (execute_step hx)
    | error e =>
      rw [(accounting P).step_of_error hx]
      exact h

/-- Later states of a run extend the earlier ones. -/
theorem extends_run (evm gasTank : Address × Bytes32) {txs js : List Tx}
    (inj : Set.InjOn (getTokenId P) (infosOf txs)) (hj : js <+: txs) :
    Extends ((accounting P).run (accountingInit evm gasTank) js)
      ((accounting P).run (accountingInit evm gasTank) txs) := by
  obtain ⟨ks, rfl⟩ := hj
  induction ks using List.reverseRecOn with
  | nil =>
    rw [List.append_nil]
    exact .refl _
  | append_singleton ks tx ih =>
    have hsub : infosOf (js ++ ks) ⊆ infosOf (js ++ (ks ++ [tx])) := by
      rintro info ⟨x, hx, he⟩
      rw [← List.append_assoc]
      exact ⟨x, List.mem_append_left _ hx, he⟩
    have hprefix := ih (inj.mono hsub)
    have hq := queueInvariant_run (P := P) evm gasTank inj hsub
    rw [← List.append_assoc, TransactionMachine.run_concat]
    cases hx : execute P tx.msg tx.call
        ((accounting P).run (accountingInit evm gasTank) (js ++ ks)) with
    | ok r =>
      rw [(accounting P).step_of_ok hx]
      exact hprefix.trans (hq.extends_step inj (fun info he => ⟨tx, by simp, he⟩) (execute_step hx))
    | error e =>
      rw [(accounting P).step_of_error hx]
      exact hprefix

theorem keys_run (evm gasTank : Address × Bytes32) (txs : List Tx) :
    let s := (accounting P).run (accountingInit evm gasTank) txs
    s.evmAddress = evm.1 ∧ s.secretKey = evm.2 ∧ s.gasTankSecret = gasTank.2 :=
  (accounting P).run_invariant (I := fun s => s.evmAddress = evm.1 ∧ s.secretKey = evm.2 ∧
    s.gasTankSecret = gasTank.2) ⟨rfl, rfl, rfl⟩
    (fun s tx s' o h hx => by
      have hs : Step P tx.msg tx.call s s' o := execute_step hx
      obtain ⟨ha, hk, hg⟩ := hs.keys
      exact ⟨ha.trans h.1, hk.trans h.2.1, hg.trans h.2.2⟩) txs

/-- What a run of the contract may sign with its main key. -/
structure PayoutSafety (P : Platform) (evm gasTank : Address × Bytes32) (txs : List Tx)
    (s : State) : Prop where
  /-- The queue of a chain carries the nonces `0, 1, …, nonces[c] - 1` in order. -/
  nonces : ∀ chainId, queuedNonces s.tokens s.withdrawals chainId =
    (List.range (s.nonces chainId).toNat).map fun k => .ok (BitVec.ofNat 64 k)
  payouts : ∀ i < s.withdrawals.length, ∃ p, s.payout? i = some p
  /-- At every point of the run, whoever resolves withdrawal `i` gets its payout at
  some gas price, in a block after the request. -/
  resolved : ∀ i js, js <+: txs → ∀ m s' o,
    execute P m (.resolveWithdrawal i) ((accounting P).run (accountingInit evm gasTank) js) =
      .ok (s', o) →
    ∃ p x gasPrice, s.payout? i = some p ∧ o.signedTx = some x ∧ x.account = evm.1 ∧
      x.secret = evm.2 ∧ x.tx = p.tx P gasPrice ∧ p.requested.toNat < m.blockNumber.toNat
  /-- Nothing else is signed with the main key. -/
  only : ∀ js, js <+: txs → ∀ m call s' o x,
    execute P m call ((accounting P).run (accountingInit evm gasTank) js) = .ok (s', o) →
    o.signedTx = some x → x.secret = evm.2 → ∃ i, call = .resolveWithdrawal i
  apart : ∀ i j p q, s.payout? i = some p → s.payout? j = some q → i ≠ j →
    (p.target.1, p.nonce) ≠ (q.target.1, q.nonce)
  /-- A chain mines one transaction of an account for each nonce. -/
  minedOnce : ∀ i p, s.payout? i = some p → ∀ mined : List EthTx,
    (mined.map fun t => (t.chainId, t.nonce)).Nodup → ∀ g g',
    p.tx P g ∈ mined → p.tx P g' ∈ mined → p.tx P g = p.tx P g'

theorem QueueInvariant.payouts {infos : Set TokenInfo} {s : State} (h : QueueInvariant P infos s)
    {i : ℕ} (hi : i < s.withdrawals.length) : ∃ p, s.payout? i = some p := by
  have hm := List.getElem_mem hi
  obtain ⟨target, ht⟩ := h.target _ hm
  obtain ⟨nonce, hn⟩ := h.decodes _ hm
  exact ⟨_, by simp [State.payout?, hi, WithdrawalRequest.payout?, ht, hn]; rfl⟩

theorem QueueInvariant.nonces_nodup {infos : Set TokenInfo} {s : State}
    (h : QueueInvariant P infos s) (chainId : U256) :
    (queuedNonces s.tokens s.withdrawals chainId).Nodup := by
  rw [h.nonces]
  refine List.Nodup.map_on (fun a ha b hb he => ?_) List.nodup_range
  have hlt := (s.nonces chainId).isLt
  have ha := List.mem_range.mp ha
  have hb := List.mem_range.mp hb
  have ht := congrArg BitVec.toNat (Except.ok.inj he)
  simp only [BitVec.toNat_ofNat] at ht
  rwa [Nat.mod_eq_of_lt (by omega), Nat.mod_eq_of_lt (by omega)] at ht

/-- What a payout says about the entry behind it. -/
theorem payout?_eq_some {s : State} {i : ℕ} {p : Payout} (h : s.payout? i = some p) :
    ∃ w, s.withdrawals[i]? = some w ∧ tokenTarget (s.tokens w.tokenId) = some p.target ∧
      abiDecodeU64 w.txIdentifier = .ok p.nonce := by
  obtain ⟨w, hw, hp⟩ := Option.bind_eq_some_iff.mp h
  unfold WithdrawalRequest.payout? at hp
  split at hp
  · next target nonce ht hn =>
    obtain rfl := Option.some.inj hp
    exact ⟨w, hw, ht, hn⟩
  · cases hp

/-- The nonces of a chain are distinct, so the entries are told apart by them. -/
theorem QueueInvariant.apart {infos : Set TokenInfo} {s : State} (h : QueueInvariant P infos s)
    {i j : ℕ} {p q : Payout} (hp : s.payout? i = some p) (hq : s.payout? j = some q)
    (hij : i < j) : (p.target.1, p.nonce) ≠ (q.target.1, q.nonce) := by
  intro he
  obtain ⟨hchain, hnonce⟩ := Prod.mk.inj he
  obtain ⟨w, hw, htw, hnw⟩ := payout?_eq_some hp
  obtain ⟨v, hv, htv, hnv⟩ := payout?_eq_some hq
  obtain ⟨hi, rfl⟩ := List.getElem?_eq_some_iff.mp hw
  obtain ⟨hj, rfl⟩ := List.getElem?_eq_some_iff.mp hv
  have hpair := h.nonces_nodup p.target.1
  unfold queuedNonces List.Nodup at hpair
  rw [List.pairwise_map, List.pairwise_filter, List.pairwise_iff_getElem] at hpair
  refine hpair i j hi hj hij (by simp [htw]) (by simp [htv, hchain]) ?_
  rw [hnw, hnv, hnonce]

/-- No double payout: the entries queued for a chain carry consecutive nonces, each
withdrawal is only ever paid by one transaction up to the gas price, in a later
block, and the main key signs nothing else. The assumptions are that the token
infos of the run do not collide under `getTokenId`, and that the gas tank's key and
the derived deposit keys are not the main key. -/
theorem no_double_payout (P : Platform) (evm gasTank : Address × Bytes32) (txs : List Tx)
    (inj : Set.InjOn (getTokenId P) (infosOf txs)) (tank : gasTank.2 ≠ evm.2)
    (derived : ∀ (v : SignerState) beneficiary chainType version, v.secretKey = evm.2 →
      (deriveDepositKeypair P v beneficiary chainType version).2 ≠ evm.2) :
    PayoutSafety P evm gasTank txs ((accounting P).run (accountingInit evm gasTank) txs) := by
  have hq : QueueInvariant P (infosOf txs) ((accounting P).run (accountingInit evm gasTank) txs) :=
    queueInvariant_run evm gasTank inj subset_rfl
  refine ⟨hq.nonces, fun i hi => hq.payouts hi, fun i js hj m s' o hx => ?_,
    fun js hj m call s' o x hx ho hsecret => ?_, fun i j p q hp hr hij => ?_,
    fun i p hp mined hn g g' hg hg' => ?_⟩
  · obtain ⟨ha, hk, hg⟩ := keys_run (P := P) evm gasTank js
    obtain ⟨p, x, g, hp, ho, hax, hkx, htx, hlater⟩ := (execute_step hx).resolves
    have hext := extends_run (P := P) evm gasTank inj hj
    exact ⟨p, x, g, hext.payout hp, ho, hax.trans ha, hkx.trans hk, htx, hlater⟩
  · obtain ⟨ha, hk, hg⟩ := keys_run (P := P) evm gasTank js
    rcases (execute_step hx).signedTx ho with hi | ⟨b, c, v, hd⟩ | ht
    · exact hi
    · exact absurd (hd.symm.trans hsecret) (derived _ b c v hk)
    · exact absurd (hg.symm.trans (ht.symm.trans hsecret)) tank
  · rcases Nat.lt_or_gt_of_ne hij with hlt | hlt
    · exact hq.apart hp hr hlt
    · exact Ne.symm (hq.apart hr hp hlt)
  · refine List.inj_on_of_nodup_map hn hg hg' ?_
    rw [p.tx_chain_nonce, p.tx_chain_nonce]

/-- The ERC-20 of the contract's own tests. -/
def sampleToken : TokenInfo :=
  ⟨.ERC20, encodeEVMErc20TokenData 84532 0x036cbd53842c5426634e7929541ec2318f3dcf7e⟩

def sampleTokenId : Bytes32 := 0xc719650e9f4b0f27d956638c54518932ef9d15e720a1a2b2850250bcd0816514

/-- The main keypair and the gas tank's, for the secret keys 2 and 3. -/
def sampleEvm : Address × Bytes32 := (0x2b5ad5c4795c026514f8317c7a215e218dccd6cf, 2)

def sampleGasTank : Address × Bytes32 := (0x6813eb9362372eef6200f3b1dbc3f819671cba69, 3)

def sampleTypehash : SignedKind → Bytes32
  | .withdraw => 0xc337791083346d6004c7b63211287c2a4ab21a8ea8ff5c281888ba30a69d15df
  | .lock => 0xac00c6b65e97daa7b0fac0a127901a18e66821b9a721970fa8dc65fe91bd76cf
  | .transfer => 0x834152d423dbb4b39afd9313553781fdd38a6a38f26019a2084ed78455e4bbde
  | .transferLocked => 0x79d4eca6a26e2943df129acdd40d025cf9e9079c3af704ecba9da26b7685eaea
  | .transferToLock => 0x731f608d288b1d8354059a5b01aaa079c4e5a6558678b5b368e76ce513546f35
  | .modifyLock => 0x8d244ad812d8caf8ec9567ad8a41a858b75f98dc11e526d33417cc81c1d0acbf
  | .withdrawFromLock => 0xeddc0e6b38151ce64048485fd7f2769485e5d2ed4193a68cd2b516851f65eebe

def sampleDomain : Bytes32 := 0x598bd13081ef49c1520956a1f618fee6d248bce6e5295b1c8e714915b5978a94

def sampleStructHash : Bytes32 := 0xc064ab4eb5cb95b47bb760b8a96baaf2f7dac6a067881c67aa2250f4b05d0d2d

def sampleDigest : Bytes32 := 0x9e02ccbc754ce5d1eda00bdfbb2fa47c6b8720190f1f72444ff14d6a21909950

def sampleSignature : Bytes :=
  word 0x5cbdf0646e5db4eaa398f365f2ea7a0e3d419b7e0330e39ce92bddedcac4f9bc ++
    word 0x7d637fd05f970fc596cd41d67f1c00f731369335669f80a6f1f224cd2116d19b ++ [27]

def sampleMessage : Message := .withdraw sampleTokenId 4 0

/-- Keccak-256 on the byte strings of the sample run. -/
def sampleKeccak : List (Bytes × Bytes32) :=
  [(encodeTokenInfo sampleToken, sampleTokenId),
    (utf8 "EIP712Domain(string name,string version,address verifyingContract,bytes32 salt)",
      0x36c25de3e541d5d970f66e4210d728721220fff5c077cc6cd008b3a0c62adab7),
    (utf8 "AccountingModule", 0x13181170422f847638f8bc12213a6961a9d942c468d3a1a030c1abadfff88bf8),
    (utf8 "1", 0xc89efdaa54c0f20c7adf612882df0950f5a951637e0307cdcb4c672f298b8bc6),
    (abiEncode [0x36c25de3e541d5d970f66e4210d728721220fff5c077cc6cd008b3a0c62adab7,
      0x13181170422f847638f8bc12213a6961a9d942c468d3a1a030c1abadfff88bf8,
      0xc89efdaa54c0f20c7adf612882df0950f5a951637e0307cdcb4c672f298b8bc6, 0xacc0, 23294],
      sampleDomain),
    (utf8 "transfer(address,uint256)",
      0xa9059cbb2ab09eb219583f4a59a5d0623ade346d962bcd4e46b11da047c9049b),
    (utf8 SignedKind.withdraw.typeString, sampleTypehash .withdraw),
    (utf8 SignedKind.lock.typeString, sampleTypehash .lock),
    (utf8 SignedKind.transfer.typeString, sampleTypehash .transfer),
    (utf8 SignedKind.transferLocked.typeString, sampleTypehash .transferLocked),
    (utf8 SignedKind.transferToLock.typeString, sampleTypehash .transferToLock),
    (utf8 SignedKind.modifyLock.typeString, sampleTypehash .modifyLock),
    (utf8 SignedKind.withdrawFromLock.typeString, sampleTypehash .withdrawFromLock),
    (abiEncode (sampleTypehash .withdraw :: sampleMessage.words), sampleStructHash),
    ([0x19, 0x01] ++ word sampleDomain ++ word sampleStructHash, sampleDigest)]

/-- A platform that agrees with the real one on the sample run. Derived deposit
keys are odd, so they are not the main key. -/
def samplePlatform : Platform where
  toAddressLibrary := sampleAddresses
  keccak256 bs := (sampleKeccak.lookup bs).getD 0
  recover digest signature :=
    if digest = sampleDigest ∧ signature = sampleSignature then some sampleUser else none
  sign _ _ _ := some (encode 174 0xf8ac80843b9aca00830186a094036cbd53842c5426634e7929541ec2318f3dcf7e80b844a9059cbb000000000000000000000000e1ab8145f7e55dc933d51a18c793f901a3a0b27600000000000000000000000000000000000000000000000000000000000000048302948ca0774ae7f858a9411e5ef4246b70c65aac5649980be5c17891bbec17895da008cba05207e4fa3c4153810824d3b82909b5419f28ec6cb62ad8fb27061934dbbb9aa3)
  generateSigningKeyPair seed := (seed, word (ofBytes seed ||| 1))
  k256PubkeyToEthereumAddress pk := (ofBytes pk).setWidth 160
  contractAddress := 0xacc0
  chainid := 23294

/-- A token is registered and priced, a deposit credited, and part of it withdrawn. -/
def sampleTxs : List Tx :=
  let rofl (blockNumber : U256) : Msg := ⟨sampleUser, true, blockNumber, 1700000000⟩
  [⟨rofl 1, .setTokenInfo sampleToken⟩, ⟨rofl 1, .setGasPrice 84532 1000000000⟩,
    ⟨rofl 2, .creditDeposit sampleUser sampleTokenId 10 7⟩,
    ⟨rofl 3, .requestWithdrawal sampleTokenId 4 0 sampleSignature⟩,
    ⟨rofl 4, .resolveWithdrawal 0⟩]

theorem infosOf_sampleTxs : infosOf sampleTxs ⊆ {sampleToken} := by
  rintro info ⟨tx, htx, he⟩
  simp only [sampleTxs, List.mem_cons, List.not_mem_nil, or_false] at htx
  rcases htx with rfl | rfl | rfl | rfl | rfl <;> cases he
  rfl

theorem sampleDerived_ne (v : SignerState) (beneficiary : Address) (chainType : ChainType)
    (version : U256) :
    (deriveDepositKeypair samplePlatform v beneficiary chainType version).2 ≠ sampleEvm.2 := by
  have hodd (x : BitVec 256) : ofBytes ((word (x ||| 1)).take 32) ≠ 2 := by
    rw [List.take_of_length_le (by simp), ofBytes_word]
    intro h
    have hbit := congrArg (·.getLsbD 0) h
    simp at hbit
  exact hodd _

theorem no_double_payout_sample :
    PayoutSafety samplePlatform sampleEvm sampleGasTank sampleTxs
      ((accounting samplePlatform).run (accountingInit sampleEvm sampleGasTank) sampleTxs) ∧
    ((accounting samplePlatform).log (accountingInit sampleEvm sampleGasTank) sampleTxs).length =
      5 :=
  ⟨no_double_payout samplePlatform sampleEvm sampleGasTank sampleTxs
    ((Set.subsingleton_singleton.anti infosOf_sampleTxs).injOn _) (by decide)
    (fun v beneficiary chainType version _ => sampleDerived_ne v beneficiary chainType version),
    by decide +kernel⟩

def sampleNextMessage : Message := .withdraw sampleTokenId 4 1

def sampleNextDigest : Bytes32 := 0x6bed6bcc024d4fcbfd94f526566a3fef6fb1c1c74baa70f74d8fcd9446a43fb2

def sampleNextSignature : Bytes :=
  word 0xf28773c2d975288bc7d1d205c3748651b075fbc6610e58cddeeddf8f19405aa8 ++
    word 0x31ef9bd18bcdaa7ea34c618dbab24e38e81a4a071943bfc746468d13537e749 ++ [28]

def sampleNextStructHash : Bytes32 :=
  0x685835c0431d6303006b54f2b553aca82dfbe9de5e8de2c0d137b9e875ecd2fe

/-- The platform of the sample run, with the values of a second withdrawal. -/
def sampleQueuePlatform : Platform :=
  { samplePlatform with
    keccak256 := fun bs => ((sampleKeccak ++
      [(abiEncode (sampleTypehash .withdraw :: sampleNextMessage.words), sampleNextStructHash),
        ([0x19, 0x01] ++ word sampleDomain ++ word sampleNextStructHash,
          sampleNextDigest)]).lookup bs).getD 0
    recover := fun digest signature =>
      if digest = sampleNextDigest ∧ signature = sampleNextSignature then some sampleUser
      else samplePlatform.recover digest signature
    sign := fun account secret tx =>
      if tx.nonce = 1 then some (encode 174 0xf8ac01843b9aca00830186a094036cbd53842c5426634e7929541ec2318f3dcf7e80b844a9059cbb000000000000000000000000e1ab8145f7e55dc933d51a18c793f901a3a0b27600000000000000000000000000000000000000000000000000000000000000048302948ca0defdea4cdb677750a420fee807eacf21eb9898ae79b9768766e4faa04a2d4a34a018d24ff33a9220e4c99a5e4079e061916a9fbf5d1cac413670d2cc309d1233ad)
      else samplePlatform.sign account secret tx }

/-- The same user asks for two withdrawals. -/
def sampleTwoTxs : List Tx :=
  let rofl (blockNumber : U256) : Msg := ⟨sampleUser, true, blockNumber, 1700000000⟩
  [⟨rofl 1, .setTokenInfo sampleToken⟩, ⟨rofl 1, .setGasPrice 84532 1000000000⟩,
    ⟨rofl 2, .creditDeposit sampleUser sampleTokenId 10 7⟩,
    ⟨rofl 3, .requestWithdrawal sampleTokenId 4 0 sampleSignature⟩,
    ⟨rofl 3, .requestWithdrawal sampleTokenId 4 1 sampleNextSignature⟩]

end Privana
