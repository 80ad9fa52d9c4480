import Privana.WithdrawalPayout

/-! Emergency withdrawals go where the owner said. The slot of a beneficiary, token and version
holds the latest request that the beneficiary made for them, whoever else called what; a token
id stands for one token info, so the chain and contract decoded at execution are the token's own. -/

namespace Privana
open BigEndian CheckedArithmetic

variable {P : Platform} {m : Msg}

/-- A request of `beneficiary` for the slot of a token and version. -/
def Receipt.ownRequest? (e : Receipt P) (beneficiary : Address) (tokenId : Bytes32)
    (version : U256) : Option EmergencyWithdrawRequest :=
  match e.input.call with
  | .requestEmergencyWithdraw t toAddress v =>
    if e.input.msg.sender = beneficiary ∧ t = tokenId ∧ v = version then
      some ⟨toAddress, e.input.msg.blockNumber⟩
    else none
  | _ => none

def ownRequests (log : List (Receipt P)) (beneficiary : Address) (tokenId : Bytes32)
    (version : U256) : List EmergencyWithdrawRequest :=
  log.filterMap (·.ownRequest? beneficiary tokenId version)

def slotEncoding (beneficiary : Address) (tokenId : Bytes32) (version : U256) : Bytes :=
  abiEncode [addressWord beneficiary, tokenId, version]

/-- What the calls of a run hash for the slots and the token ids. -/
def emergencyHashInputs (txs : List Tx) : Set Bytes :=
  {bs | ∃ tx ∈ txs, match tx.call with
    | .requestEmergencyWithdraw tokenId _ version =>
      bs = slotEncoding tx.msg.sender tokenId version
    | .executeEmergencyWithdraw beneficiary tokenId version .. =>
      bs = slotEncoding beneficiary tokenId version
    | .setTokenInfo info => bs = encodeTokenInfo info
    | _ => False}

/-- The beneficiaries and versions whose deposit keys sign in a run. -/
def emergencyKeys (txs : List Tx) : Set (Address × U256) :=
  {x | ∃ tx ∈ txs, ∃ tokenId nonce amount gasPrice,
    tx.call = .executeEmergencyWithdraw x.1 tokenId x.2 nonce amount gasPrice}

theorem slotEncoding_injective {b b' : Address} {t t' : Bytes32} {v v' : U256}
    (h : slotEncoding b t v = slotEncoding b' t' v') : b = b' ∧ t = t' ∧ v = v' := by
  have words := abiEncode_injective h
  simp only [List.cons.injEq, and_true] at words
  exact ⟨addressWord_injective words.1, words.2⟩

theorem TokenType.index_injective {x y : TokenType} (h : x.index = y.index) : x = y := by
  cases x <;> cases y <;> first | rfl | exact absurd h (by decide)

/-- The length word and the padded length together fix the length. -/
theorem encodeTokenInfo_injective {x y : TokenInfo} (h : encodeTokenInfo x = encodeTokenInfo y) :
    x = y := by
  obtain ⟨xt, xd⟩ := x
  obtain ⟨yt, yd⟩ := y
  simp only [encodeTokenInfo, abiEncode, List.flatMap_cons, List.flatMap_nil, List.append_nil,
    List.append_assoc] at h
  obtain ⟨type, h⟩ := word_append_inj h
  obtain ⟨-, h⟩ := word_append_inj h
  obtain ⟨size, h⟩ := word_append_inj h
  have padded := congrArg List.length h
  simp only [List.length_append, List.length_replicate] at padded
  have wrapped := congrArg BitVec.toNat size
  simp only [BitVec.toNat_ofNat] at wrapped
  have length : xd.length = yd.length := by
    have low : (2 : ℕ) ^ 256 = 32 * 2 ^ 251 := by norm_num
    have lowX := Nat.mod_mod_of_dvd xd.length (show 32 ∣ 2 ^ 256 from ⟨_, low⟩)
    have lowY := Nat.mod_mod_of_dvd yd.length (show 32 ∣ 2 ^ 256 from ⟨_, low⟩)
    rw [wrapped, lowY] at lowX
    omega
  rw [TokenType.index_injective type, (List.append_inj h length).1]

/-- Only `requestEmergencyWithdraw` writes a slot, its caller's own. -/
theorem Step.emergencyRequests {call : Call} {s s' : State} {o : Output P}
    (h : Step P m call s s' o) :
    (∃ tokenId toAddress version, call = .requestEmergencyWithdraw tokenId toAddress version ∧
      toAddress ≠ 0 ∧ s'.emergencyWithdrawRequests = Function.update s.emergencyWithdrawRequests
        (emergencyWithdrawKey P m.sender tokenId version) ⟨toAddress, m.blockNumber⟩) ∨
    ((∀ tokenId toAddress version, call ≠ .requestEmergencyWithdraw tokenId toAddress version) ∧
      s'.emergencyWithdrawRequests = s.emergencyWithdrawRequests) := by
  cases h with
  | requestEmergencyWithdraw nonzero => exact .inl ⟨_, _, _, rfl, nonzero, rfl⟩
  | unlockSingleLock _ unlock =>
    obtain ⟨_, _, _, _, rfl⟩ := unlock.moved
    exact .inr ⟨by rintro _ _ _ ⟨⟩, rfl⟩
  | unlockAllExpiredLocks unlocks =>
    obtain ⟨_, _, _, rfl⟩ := unlocks.frame
    exact .inr ⟨by rintro _ _ _ ⟨⟩, rfl⟩
  | withdrawFromLock _ _ _ _ _ _ _ _ _ _ schedules =>
    obtain ⟨_, _, rfl⟩ := schedules.queued
    exact .inr ⟨by rintro _ _ _ ⟨⟩, rfl⟩
  | requestWithdrawal _ _ _ _ _ schedules =>
    obtain ⟨_, _, rfl⟩ := schedules.queued
    exact .inr ⟨by rintro _ _ _ ⟨⟩, rfl⟩
  | transferFromLock => exact .inr ⟨by rintro _ _ _ ⟨⟩, by split_ifs <;> rfl⟩
  | transferBalance => exact .inr ⟨by rintro _ _ _ ⟨⟩, by split_ifs <;> rfl⟩
  | _ => exact .inr ⟨by rintro _ _ _ ⟨⟩, rfl⟩

/-- The slots hold the latest requests of their owners. -/
structure SlotInvariant (P : Platform) (inputs : Set Bytes) (log : List (Receipt P)) (s : State) :
    Prop where
  slots : ∀ b t v, slotEncoding b t v ∈ inputs →
    s.emergencyWithdrawRequests (emergencyWithdrawKey P b t v) =
      (ownRequests log b t v).getLast?.getD ⟨0, 0⟩
  nonzero : ∀ b t v, ∀ req ∈ ownRequests log b t v, req.toAddress ≠ 0

theorem ownRequests_concat (log : List (Receipt P)) (e : Receipt P) (b : Address) (t : Bytes32)
    (v : U256) : ownRequests (log ++ [e]) b t v =
      ownRequests log b t v ++ (e.ownRequest? b t v).toList := by
  cases h : e.ownRequest? b t v <;> simp [ownRequests, h]

theorem SlotInvariant.step {inputs : Set Bytes} {log : List (Receipt P)} {tx : Tx} {s s' : State}
    {o : Output P} (collisionFree : Set.InjOn P.keccak256 inputs)
    (used : ∀ tokenId toAddress version,
      tx.call = .requestEmergencyWithdraw tokenId toAddress version →
        slotEncoding tx.msg.sender tokenId version ∈ inputs)
    (h : SlotInvariant P inputs log s) (hs : Step P tx.msg tx.call s s' o) :
    SlotInvariant P inputs (log ++ [⟨s, tx, o, s'⟩]) s' := by
  rcases hs.emergencyRequests with ⟨tokenId, toAddress, version, called, nonzero, slots⟩ |
    ⟨other, slots⟩
  · have own (b : Address) (t : Bytes32) (v : U256) :
        Receipt.ownRequest? ⟨s, tx, o, s'⟩ b t v =
          if tx.msg.sender = b ∧ tokenId = t ∧ version = v then
            some ⟨toAddress, tx.msg.blockNumber⟩ else none := by
      simp only [Receipt.ownRequest?, called]
    constructor
    · intro b t v hashed
      rw [slots, ownRequests_concat, own]
      by_cases same : tx.msg.sender = b ∧ tokenId = t ∧ version = v
      · obtain ⟨rfl, rfl, rfl⟩ := same
        simp
      · rw [if_neg same, Function.update_of_ne, h.slots b t v hashed]
        · simp
        · intro key
          obtain ⟨rfl, rfl, rfl⟩ := slotEncoding_injective
            (collisionFree hashed (used _ _ _ called) key)
          exact same ⟨rfl, rfl, rfl⟩
    · intro b t v req hreq
      rw [ownRequests_concat, own, List.mem_append] at hreq
      rcases hreq with hreq | hreq
      · exact h.nonzero b t v req hreq
      · split at hreq
        · obtain rfl := List.mem_singleton.mp hreq
          exact nonzero
        · cases hreq
  · have none (b : Address) (t : Bytes32) (v : U256) :
        Receipt.ownRequest? ⟨s, tx, o, s'⟩ b t v = none := by
      unfold Receipt.ownRequest?
      split
      · next called => exact absurd called (other _ _ _)
      · rfl
    constructor
    · intro b t v hashed
      rw [slots, ownRequests_concat, none, h.slots b t v hashed]
      simp
    · intro b t v req hreq
      rw [ownRequests_concat, none] at hreq
      exact h.nonzero b t v req (by simpa using hreq)

theorem slotInvariant_run (evm gasTank : Address × Bytes32) {inputs : Set Bytes}
    (collisionFree : Set.InjOn P.keccak256 inputs) {txs : List Tx}
    (used : emergencyHashInputs txs ⊆ inputs) :
    SlotInvariant P inputs ((accounting P).log (accountingInit evm gasTank) txs)
      ((accounting P).run (accountingInit evm gasTank) txs) := by
  refine (accounting P).run_induction_of_mem (I := SlotInvariant P inputs)
    ⟨fun _ _ _ _ => rfl, fun _ _ _ req hreq => by cases hreq⟩ txs ?_
  intro log s tx s' o mem h ran
  exact h.step collisionFree (fun _ _ _ called => used ⟨tx, mem, by simp only [called]⟩)
    (execute_step ran)

theorem getTokenId_injOn {txs : List Tx}
    (collisionFree : Set.InjOn P.keccak256 (emergencyHashInputs txs)) :
    Set.InjOn (getTokenId P) (infosOf txs) := by
  rintro info ⟨tx, mem, called⟩ info' ⟨tx', mem', called'⟩ same
  exact encodeTokenInfo_injective (collisionFree ⟨tx, mem, by simp only [called]⟩
    ⟨tx', mem', by simp only [called']⟩ same)

/-- The deposit account of a beneficiary and version. -/
def depositKeypair (P : Platform) (evm : Address × Bytes32) (x : Address × U256) :
    Address × Bytes32 :=
  deriveDepositKeypair P (accountingInit evm evm).toSignerState x.1 .EVM x.2

/-- An execution pays the recipient of the owner's latest request, in the token's own
currency, from the owner's deposit account. -/
structure PaysOwner (P : Platform) (evm : Address × Bytes32) (txs : List Tx)
    (before : List (Receipt P)) (e : Receipt P) (beneficiary : Address) (tokenId : Bytes32)
    (version : U256) (nonce : U64) (amount gasPrice : U256) : Prop where
  signs : ∃ (x : SignedTx P) (req : EmergencyWithdrawRequest) (info : TokenInfo)
      (target : U256 × Option Address),
    e.output.signedTx = some x ∧ (x.account, x.secret) = depositKeypair P evm (beneficiary, version) ∧
      (ownRequests before beneficiary tokenId version).getLast? = some req ∧
      req.toAddress ≠ 0 ∧ req.blockNumber.toNat < e.input.msg.blockNumber.toNat ∧
      info ∈ infosOf txs ∧ getTokenId P info = tokenId ∧
      (∀ info' ∈ infosOf txs, getTokenId P info' = tokenId → info' = info) ∧
      tokenTarget info = some target ∧
      x.tx = transferTx P withdrawGasLimit target req.toAddress amount nonce gasPrice

theorem paysOwner_of_mem {evm gasTank : Address × Bytes32} {txs : List Tx}
    (collisionFree : Set.InjOn P.keccak256 (emergencyHashInputs txs))
    {before after : List (Receipt P)} {e : Receipt P}
    (log : (accounting P).log (accountingInit evm gasTank) txs = before ++ e :: after)
    {beneficiary : Address} {tokenId : Bytes32} {version amount gasPrice : U256} {nonce : U64}
    (called : e.input.call =
      .executeEmergencyWithdraw beneficiary tokenId version nonce amount gasPrice) :
    PaysOwner P evm txs before e beneficiary tokenId version nonce amount gasPrice := by
  obtain ⟨js, ks, rfl, same, reached, ran⟩ := (accounting P).exists_prefix_of_log_split log
  have sub : emergencyHashInputs js ⊆ emergencyHashInputs (js ++ e.input :: ks) := by
    rintro bs ⟨tx, mem, hashed⟩
    exact ⟨tx, List.mem_append_left _ mem, hashed⟩
  have infos : infosOf js ⊆ infosOf (js ++ e.input :: ks) := by
    rintro info ⟨tx, mem, set⟩
    exact ⟨tx, List.mem_append_left _ mem, set⟩
  have inj := getTokenId_injOn collisionFree
  have inv := slotInvariant_run (P := P) evm gasTank collisionFree sub
  have queue := queueInvariant_run (P := P) evm gasTank inj infos
  obtain ⟨-, secretKey, -⟩ := keys_run (P := P) evm gasTank js
  have hashed : slotEncoding beneficiary tokenId version ∈
      emergencyHashInputs (js ++ e.input :: ks) := ⟨e.input, by simp, by simp only [called]⟩
  rw [same] at inv
  rw [← reached] at inv queue secretKey
  have step : Step P e.input.msg e.input.call e.before e.after e.output := execute_step ran
  rw [called] at step
  generalize hb : e.before = s at step inv queue secretKey
  generalize ha : e.after = s' at step
  generalize ho : e.output = o at step
  cases step with
  | @executeEmergencyWithdraw _ _ _ _ _ _ _ x req target slot requested later token key tx =>
    have latest := inv.slots beneficiary tokenId version hashed
    rw [slot] at latest
    have found : (ownRequests before beneficiary tokenId version).getLast? = some req := by
      cases last : (ownRequests before beneficiary tokenId version).getLast? with
      | none =>
        rw [last] at latest
        exact absurd (congrArg EmergencyWithdrawRequest.blockNumber latest) requested
      | some req' => rw [latest, last, Option.getD_some]
    obtain ⟨registered, id⟩ := queue.registered tokenId (data_ne_nil_of_tokenTarget token)
    refine ⟨x, req, s.tokens tokenId, target, by rw [ho], ?_, found,
      inv.nonzero _ _ _ req (List.mem_of_getLast? found), later, registered, id, ?_, token, tx⟩
    · rw [key, depositKeypair, deriveDepositKeypair, deriveDepositKeypair, secretKey]
      rfl
    · exact fun info' mem same => inj mem registered (same.trans id.symm)

/-- What every split of a log at an execution says. -/
structure EmergencySafety (P : Platform) (evm : Address × Bytes32) (txs : List Tx)
    (log : List (Receipt P)) : Prop where
  owned : ∀ before e after beneficiary tokenId version nonce amount gasPrice,
    log = before ++ e :: after →
    e.input.call = .executeEmergencyWithdraw beneficiary tokenId version nonce amount gasPrice →
    PaysOwner P evm txs before e beneficiary tokenId version nonce amount gasPrice
  redirected : ∀ before r between e after beneficiary tokenId version nonce amount gasPrice
      toAddress,
    log = before ++ r :: (between ++ e :: after) → r.input.msg.sender = beneficiary →
    r.input.call = .requestEmergencyWithdraw tokenId toAddress version →
    ownRequests between beneficiary tokenId version = [] →
    e.input.call = .executeEmergencyWithdraw beneficiary tokenId version nonce amount gasPrice →
    r.input.msg.blockNumber.toNat < e.input.msg.blockNumber.toNat ∧
      ∃ x target, e.output.signedTx = some x ∧
        x.tx = transferTx P withdrawGasLimit target toAddress amount nonce gasPrice
  separate : ∀ e ∈ log, ∀ e' ∈ log, ∀ b t v n a g b' t' v' n' a' g',
    e.input.call = .executeEmergencyWithdraw b t v n a g →
    e'.input.call = .executeEmergencyWithdraw b' t' v' n' a' g' →
    e.output.signedTx.map (·.account) = e'.output.signedTx.map (·.account) → b = b' ∧ v = v'

theorem PaysOwner.account {evm : Address × Bytes32} {txs : List Tx} {before : List (Receipt P)}
    {e : Receipt P} {b : Address} {t : Bytes32} {v amount gasPrice : U256} {nonce : U64}
    (h : PaysOwner P evm txs before e b t v nonce amount gasPrice) :
    e.output.signedTx.map (·.account) = some (depositKeypair P evm (b, v)).1 := by
  obtain ⟨x, _, _, _, signed, key, _⟩ := h.signs
  rw [signed, ← key]
  rfl

theorem ownRequests_append_cons (before between : List (Receipt P)) (r : Receipt P) (b : Address)
    (t : Bytes32) (v : U256) : ownRequests (before ++ r :: between) b t v =
      ownRequests before b t v ++ ((r.ownRequest? b t v).toList ++ ownRequests between b t v) := by
  cases h : r.ownRequest? b t v <;> simp [ownRequests, h]

theorem emergency_withdrawals_owned (P : Platform) (evm gasTank : Address × Bytes32)
    (txs : List Tx) (collisionFree : Set.InjOn P.keccak256 (emergencyHashInputs txs))
    (derived : Set.InjOn (fun x => (depositKeypair P evm x).1) (emergencyKeys txs)) :
    EmergencySafety P evm txs ((accounting P).log (accountingInit evm gasTank) txs) := by
  have owned : ∀ before e after beneficiary tokenId version nonce amount gasPrice,
      (accounting P).log (accountingInit evm gasTank) txs = before ++ e :: after →
      e.input.call = .executeEmergencyWithdraw beneficiary tokenId version nonce amount gasPrice →
      PaysOwner P evm txs before e beneficiary tokenId version nonce amount gasPrice := by
    intro before e after _ _ _ _ _ _ log called
    exact paysOwner_of_mem collisionFree log called
  refine ⟨owned, ?_, ?_⟩
  · intro before r between e after b t v nonce amount gasPrice toAddress log sender requests none
      called
    rw [← List.cons_append, ← List.append_assoc] at log
    obtain ⟨x, req, info, target, signed, -, latest, -, later, -, -, -, -, tx⟩ :=
      (owned _ e after b t v nonce amount gasPrice log called).signs
    rw [ownRequests_append_cons, none, Receipt.ownRequest?, requests] at latest
    simp only [sender, and_self, if_true, Option.toList_some, List.append_nil,
      List.getLast?_append, List.getLast?_singleton, Option.some_or, Option.some.injEq] at latest
    subst latest
    exact ⟨later, x, target, signed, tx⟩
  · intro e he e' he' b t v n a g b' t' v' n' a' g' called called' same
    obtain ⟨before, after, log⟩ := List.append_of_mem he
    obtain ⟨before', after', log'⟩ := List.append_of_mem he'
    rw [(owned _ _ _ _ _ _ _ _ _ log called).account,
      (owned _ _ _ _ _ _ _ _ _ log' called').account, Option.some_inj] at same
    have mem := (accounting P).input_mem_of_mem_log he
    have mem' := (accounting P).input_mem_of_mem_log he'
    have keys : (b, v) = (b', v') :=
      derived ⟨_, mem, t, n, a, g, called⟩ ⟨_, mem', t', n', a', g', called'⟩ same
    exact ⟨congrArg Prod.fst keys, congrArg Prod.snd keys⟩

def sampleSlotEncoding : Bytes := slotEncoding sampleUser sampleTokenId 0

/-- The platform of the sample run, with the slot and the seed of a deposit account. -/
def sampleEmergencyPlatform : Platform :=
  { samplePlatform with
    keccak256 := fun bs => ((sampleKeccak ++
      [(sampleSlotEncoding, 0x418aeb9ea53325163690fbd48c8479e13f4044a4322c01043a13c8da658300dd),
        (abiEncode [2, addressWord sampleUser, 0, 0],
          0x94c8d2a0e8d2352dc8693a01443254b62e7e32f84145126005437f5c843a78ba)]
      ).lookup bs).getD 0 }

/-- A user asks for the tokens of a deposit account, and someone else executes that. -/
def sampleEmergencyTxs : List Tx :=
  [⟨⟨sampleUser, true, 1, 1700000000⟩, .setTokenInfo sampleToken⟩,
    ⟨⟨sampleUser, false, 2, 1700000012⟩, .requestEmergencyWithdraw sampleTokenId 0xbeef 0⟩,
    ⟨⟨0xd41c057fd1c78805aac12b0a94a405c0461a6fbb, false, 3, 1700000024⟩,
      .executeEmergencyWithdraw sampleUser sampleTokenId 0 0 5 1000000000⟩]

theorem emergencyHashInputs_sample :
    emergencyHashInputs sampleEmergencyTxs ⊆ {encodeTokenInfo sampleToken, sampleSlotEncoding} := by
  rintro bs ⟨tx, mem, hashed⟩
  simp only [sampleEmergencyTxs, List.mem_cons, List.not_mem_nil, or_false] at mem
  rcases mem with rfl | rfl | rfl
  · exact .inl hashed
  · exact .inr hashed
  · exact .inr hashed

theorem emergencyKeys_sample : emergencyKeys sampleEmergencyTxs ⊆ {(sampleUser, 0)} := by
  rintro ⟨b, v⟩ ⟨tx, mem, t, n, a, g, called⟩
  simp only [sampleEmergencyTxs, List.mem_cons, List.not_mem_nil, or_false] at mem
  rcases mem with rfl | rfl | rfl <;> cases called
  rfl

theorem keccak256_sampleEmergencyPlatform :
    Set.InjOn sampleEmergencyPlatform.keccak256
      {encodeTokenInfo sampleToken, sampleSlotEncoding} := by
  have differ : sampleEmergencyPlatform.keccak256 (encodeTokenInfo sampleToken) ≠
      sampleEmergencyPlatform.keccak256 sampleSlotEncoding := by decide +kernel
  rintro x (rfl | rfl) y (rfl | rfl) same
  · rfl
  · exact absurd same differ
  · exact absurd same.symm differ
  · rfl

theorem emergency_withdrawals_owned_sample :
    EmergencySafety sampleEmergencyPlatform sampleEvm sampleEmergencyTxs
      ((accounting sampleEmergencyPlatform).log (accountingInit sampleEvm sampleGasTank)
        sampleEmergencyTxs) ∧
    ((accounting sampleEmergencyPlatform).log (accountingInit sampleEvm sampleGasTank)
        sampleEmergencyTxs).length = 3 :=
  ⟨emergency_withdrawals_owned sampleEmergencyPlatform sampleEvm sampleGasTank sampleEmergencyTxs
    (keccak256_sampleEmergencyPlatform.mono emergencyHashInputs_sample)
    ((Set.injOn_singleton _ _).mono emergencyKeys_sample), by decide +kernel⟩

end Privana
