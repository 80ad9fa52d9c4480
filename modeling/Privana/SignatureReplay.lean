import Privana.ExecuteStep
import Privana.TypedData
import Privana.WithdrawalPayout

/-! Replay protection over whole runs. Every success of a signed call consumes the
signer's next nonce of its kind, so the successes of a signer and kind carry
`0, 1, 2, …`, and a signed digest, which binds its message, is used at most once. -/

namespace Privana
open BigEndian

variable {P : Platform} {m : Msg}

/-- The message whose signature a call carries, for the signer it recovers to. -/
def Call.message? (call : Call) (signer : Address) : Option Message :=
  match call with
  | .createLock serviceAddress tokenId amount expiry nonce _ =>
    some (.lock serviceAddress tokenId amount expiry nonce)
  | .modifyLock lockId amount newExpiry nonce _ => some (.modifyLock lockId amount newExpiry nonce)
  | .transferFromLock userAddress toAddress lockId amount nonce _ =>
    some (.transferLocked userAddress toAddress lockId amount nonce signer)
  | .transferToLock userAddress lockId amount nonce _ =>
    some (.transferToLock userAddress lockId amount nonce)
  | .withdrawFromLock userAddress toAddress lockId amount nonce _ =>
    some (.withdrawFromLock userAddress toAddress lockId amount nonce)
  | .transferBalance toAddress tokenId amount nonce _ =>
    some (.transfer toAddress tokenId amount nonce)
  | .requestWithdrawal tokenId amount nonce _ => some (.withdraw tokenId amount nonce)
  | _ => none

/-- What a step does to the signature nonces. -/
inductive NonceChange (call : Call) (o : Output P) (s s' : State) : Prop
  | unsigned (plain : ∀ u, call.message? u = none) (approval : o.approval = none)
      (same : s'.toVerifierState = s.toVerifierState)
  | signed {a : Approval P} (approval : o.approval = some a)
      (message : call.message? a.signer = some a.message)
      (consumes : Consumes a s.toVerifierState s'.toVerifierState)

theorem Step.nonceChange {call : Call} {s s' : State} {o : Output P} (h : Step P m call s s' o) :
    NonceChange call o s s' := by
  cases h with
  | createLock _ _ message _ consumes => exact .signed rfl (congrArg some message.symm) consumes
  | modifyLock message _ consumes => exact .signed rfl (congrArg some message.symm) consumes
  | unlockSingleLock _ unlock =>
    obtain ⟨_, _, _, _, rfl⟩ := unlock.moved
    exact .unsigned (fun _ => rfl) rfl rfl
  | unlockAllExpiredLocks unlocks =>
    obtain ⟨_, _, _, rfl⟩ := unlocks.frame
    exact .unsigned (fun _ => rfl) rfl rfl
  | transferFromLock _ _ message _ service consumes =>
    refine .signed rfl ?_ ?_
    · rw [service, message]
      rfl
    · split_ifs <;> exact consumes
  | transferToLock _ message _ _ consumes => exact .signed rfl (congrArg some message.symm) consumes
  | withdrawFromLock _ _ message _ _ consumes _ _ _ _ schedules =>
    obtain ⟨_, _, rfl⟩ := schedules.queued
    exact .signed rfl (congrArg some message.symm) consumes
  | transferBalance _ _ message _ consumes =>
    refine .signed rfl (congrArg some message.symm) ?_
    split_ifs <;> exact consumes
  | requestWithdrawal _ message _ consumes _ schedules =>
    obtain ⟨_, _, rfl⟩ := schedules.queued
    exact .signed rfl (congrArg some message.symm) consumes
  | _ => exact .unsigned (fun _ => rfl) rfl rfl

/-- The nonce a receipt consumed, if it is of kind `k` and signer `u`. -/
def Receipt.nonce? (e : Receipt P) (k : SignedKind) (u : Address) : Option U256 :=
  e.output.approval.bind fun a =>
    if a.message.kind = k ∧ a.signer = u then some a.message.nonce else none

/-- The nonces of the successes of one kind and signer, in order. -/
def usedNonces (log : List (Receipt P)) (k : SignedKind) (u : Address) : List U256 :=
  log.filterMap (Receipt.nonce? · k u)

theorem usedNonces_concat (log : List (Receipt P)) (e : Receipt P) (k : SignedKind)
    (u : Address) : usedNonces (log ++ [e]) k u = usedNonces log k u ++ (e.nonce? k u).toList := by
  cases h : e.nonce? k u <;> simp [usedNonces, h]

/-- The nonce maps count the successes. -/
structure NonceInvariant (log : List (Receipt P)) (s : State) : Prop where
  used : ∀ k u, usedNonces log k u =
    (List.range (s.signNonces k u).toNat).map (BitVec.ofNat 256)
  message : ∀ e ∈ log, ∀ a, e.output.approval = some a →
    e.input.call.message? a.signer = some a.message
  approved : ∀ e ∈ log, ∀ u msg, e.input.call.message? u = some msg →
    ∃ a, e.output.approval = some a

theorem NonceInvariant.init (evm gasTank : Address × Bytes32) :
    NonceInvariant (P := P) [] (accountingInit evm gasTank) where
  used k u := rfl
  message e he := by cases he
  approved e he := by cases he

theorem NonceInvariant.step {log : List (Receipt P)} {s s' : State} {tx : Tx} {o : Output P}
    (h : NonceInvariant log s) (hs : Step P tx.msg tx.call s s' o) :
    NonceInvariant (log ++ [⟨s, tx, o, s'⟩]) s' := by
  refine ⟨fun k u => ?_, fun e he a ha => ?_, fun e he u msg hm => ?_⟩
  · rw [usedNonces_concat, h.used]
    cases hs.nonceChange with
    | unsigned _ approval same => simp [Receipt.nonce?, approval, same]
    | @signed a approval _ consumes =>
      obtain ⟨n, hn, hs'⟩ := consumes.next
      rw [hs']
      by_cases hku : a.message.kind = k ∧ a.signer = u
      · obtain ⟨rfl, rfl⟩ := hku
        have hcur : (s.signNonces a.message.kind a.signer).toNat = a.message.nonce.toNat :=
          congrArg BitVec.toNat consumes.current.symm
        simp only [Receipt.nonce?, approval, VerifierState.setNonce, Function.update_self, hn,
          hcur, List.range_succ, List.map_append]
        simp
      · simp only [Receipt.nonce?, approval, Option.bind_some, if_neg hku, VerifierState.setNonce]
        by_cases hk : k = a.message.kind
        · have hu : u ≠ a.signer := fun hu => hku ⟨hk.symm, hu.symm⟩
          simp [hk, hu]
        · simp [hk]
  · rcases List.mem_append.mp he with he | he
    · exact h.message e he a ha
    · obtain rfl := List.mem_singleton.mp he
      cases hs.nonceChange with
      | unsigned _ approval => simp [approval] at ha
      | signed approval message =>
        obtain rfl := Option.some.inj (approval.symm.trans ha)
        exact message
  · rcases List.mem_append.mp he with he | he
    · exact h.approved e he u msg hm
    · obtain rfl := List.mem_singleton.mp he
      cases hs.nonceChange with
      | unsigned plain => cases (plain u).symm.trans hm
      | signed approval => exact ⟨_, approval⟩

theorem nonceInvariant_run (evm gasTank : Address × Bytes32) (txs : List Tx) :
    NonceInvariant ((accounting P).log (accountingInit evm gasTank) txs)
      ((accounting P).run (accountingInit evm gasTank) txs) :=
  (accounting P).run_induction (NonceInvariant.init evm gasTank)
    (fun _ _ _ _ _ h hx => h.step (execute_step hx)) txs

theorem NonceInvariant.usedNonces_nodup {log : List (Receipt P)} {s : State}
    (h : NonceInvariant log s) (k : SignedKind) (u : Address) : (usedNonces log k u).Nodup := by
  rw [h.used]
  refine List.Nodup.map_on (fun x hx y hy he => ?_) List.nodup_range
  have hlt := (s.signNonces k u).isLt
  have hx := List.mem_range.mp hx
  have hy := List.mem_range.mp hy
  have ht := congrArg BitVec.toNat he
  simp only [BitVec.toNat_ofNat] at ht
  rwa [Nat.mod_eq_of_lt (by omega), Nat.mod_eq_of_lt (by omega)] at ht

/-- A signer's message is used by one receipt at most. -/
theorem NonceInvariant.message_once {log : List (Receipt P)} {s : State}
    (h : NonceInvariant log s) {i j : ℕ} (hi : i < log.length) (hj : j < log.length)
    {a b : Approval P} (ha : log[i].output.approval = some a)
    (hb : log[j].output.approval = some b) (signer : a.signer = b.signer)
    (message : a.message = b.message) : ¬ i < j := by
  intro hij
  have hpair := h.usedNonces_nodup a.message.kind a.signer
  unfold usedNonces List.Nodup at hpair
  rw [List.pairwise_filterMap, List.pairwise_iff_getElem] at hpair
  exact hpair i j hi hj hij a.message.nonce (by simp [Receipt.nonce?, ha]) b.message.nonce
    (by simp [Receipt.nonce?, hb, signer, message]) (congrArg Message.nonce message)

/-- What holds of the signed calls of a run. `Signed u` are the digests the holder
of key `u` signed, `M` the messages under consideration. -/
structure ReplaySafety (P : Platform) (Signed : Address → Set Bytes32) (M : Set Message)
    (init : State) (txs : List Tx) (log : List (Receipt P)) (s : State) : Prop where
  order : ∀ k u, usedNonces log k u = (List.range (s.signNonces k u).toNat).map (BitVec.ofNat 256)
  approved : ∀ e ∈ log, ∀ u msg, e.input.call.message? u = some msg →
    ∃ a, e.output.approval = some a
  authorised : ∀ e ∈ log, ∀ a, e.output.approval = some a →
    hashTypedDataV4 P a.message ∈ Signed a.signer ∧
      e.input.call.message? a.signer = some a.message
  /-- A success under the digest of `msg` is the operation `msg` describes. -/
  bound : ∀ msg ∈ M, ∀ e ∈ log, ∀ a, e.output.approval = some a →
    hashTypedDataV4 P a.message = hashTypedDataV4 P msg →
    e.input.call.message? a.signer = some msg
  once : ∀ i j (hi : i < log.length) (hj : j < log.length), ∀ a b,
    log[i].output.approval = some a → log[j].output.approval = some b → a.signer = b.signer →
    hashTypedDataV4 P a.message = hashTypedDataV4 P b.message → i = j
  reverted : ∀ js, js <+: txs → ∀ tx e,
    execute P tx.msg tx.call ((accounting P).run init js) = .error e →
    ((accounting P).run init (js ++ [tx])).signNonces = ((accounting P).run init js).signNonces

/-- Replay protection: with hashing free of collisions on what is hashed for the
messages in `M`, which include those the run accepted, and with signatures that
recover only to keys that signed the digest, a signed digest authorises at most one
success, of its own kind, signer and parameters; the nonces of each kind and signer
are used in order, and a call that reverts uses none. -/
theorem replay_protection (P : Platform) (evm gasTank : Address × Bytes32) (txs : List Tx)
    (Signed : Address → Set Bytes32) (M : Set Message)
    (collisionFree : Set.InjOn P.keccak256 (hashInputs P M))
    (accepted : ∀ e ∈ (accounting P).log (accountingInit evm gasTank) txs, ∀ a,
      e.output.approval = some a → a.message ∈ M)
    (unforgeable : ∀ d signature u, P.recover d signature = some u → d ∈ Signed u) :
    ReplaySafety P Signed M (accountingInit evm gasTank) txs
      ((accounting P).log (accountingInit evm gasTank) txs)
      ((accounting P).run (accountingInit evm gasTank) txs) := by
  have h := nonceInvariant_run (P := P) evm gasTank txs
  have hinj := hashTypedDataV4_injOn collisionFree
  refine ⟨h.used, h.approved, fun e he a ha => ⟨unforgeable _ _ _ a.recovered, h.message e he a ha⟩,
    fun msg hm e he a ha hd => ?_, fun i j hi hj a b ha hb hs hd => ?_,
    fun js _ tx e hx => ?_⟩
  · rw [← hinj (accepted e he a ha) hm hd]
    exact h.message e he a ha
  · have hm := hinj (accepted _ (List.getElem_mem hi) a ha) (accepted _ (List.getElem_mem hj) b hb)
      hd
    have hle := h.message_once hi hj ha hb hs hm
    have hge := h.message_once hj hi hb ha hs.symm hm.symm
    omega
  · rw [TransactionMachine.run_concat, (accounting P).step_of_error hx]

/-- The byte strings hashed for the one signed message of the sample run. -/
def sampleHashInputs : List Bytes :=
  [SignedKind.withdraw, .lock, .transfer, .transferLocked, .transferToLock, .modifyLock,
    .withdrawFromLock].map (fun k => utf8 k.typeString) ++
    [structEncoding samplePlatform sampleMessage, typedDataEncoding samplePlatform sampleMessage]

theorem hashInputs_sample : hashInputs samplePlatform {sampleMessage} ⊆ {x | x ∈ sampleHashInputs} := by
  rintro x ((⟨k, rfl⟩ | ⟨msg, rfl, rfl⟩) | ⟨msg, rfl, rfl⟩)
  · refine List.mem_append_left _ (List.mem_map.mpr ⟨k, ?_, rfl⟩)
    cases k <;> decide
  · simp [sampleHashInputs]
  · simp [sampleHashInputs]

theorem sampleMessages :
    (((accounting samplePlatform).log (accountingInit sampleEvm sampleGasTank) sampleTxs).filterMap
      fun e => e.output.approval.map (·.message)) = [sampleMessage] := by
  decide +kernel

theorem replay_protection_sample :
    ReplaySafety samplePlatform (fun u => {d | u = sampleUser ∧ d = sampleDigest}) {sampleMessage}
      (accountingInit sampleEvm sampleGasTank) sampleTxs
      ((accounting samplePlatform).log (accountingInit sampleEvm sampleGasTank) sampleTxs)
      ((accounting samplePlatform).run (accountingInit sampleEvm sampleGasTank) sampleTxs) := by
  have hnodup : (sampleHashInputs.map samplePlatform.keccak256).Nodup := by decide +kernel
  refine replay_protection samplePlatform sampleEvm sampleGasTank sampleTxs _ {sampleMessage}
    ?_ ?_ ?_
  · exact Set.InjOn.mono hashInputs_sample fun x hx y hy =>
      List.inj_on_of_nodup_map hnodup hx hy
  · intro e he a ha
    have hm : a.message ∈ [sampleMessage] := by
      rw [← sampleMessages]
      exact List.mem_filterMap.mpr ⟨e, he, congrArg (Option.map (·.message)) ha⟩
    exact List.mem_singleton.mp hm
  · intro d signature u h
    simp only [samplePlatform] at h
    split at h
    · next hd => exact ⟨(Option.some.inj h).symm, hd.1⟩
    · cases h

end Privana
