import Privana.AccountingStep

/-! Every call that `execute` accepts is a `Step`: the inversion of each external
function, once, so that what follows never unfolds the functions again. -/

namespace Privana
open BigEndian CheckedArithmetic SwapPop

variable {P : Platform} {m : Msg}

theorem onlyROFL_eq_ok {u : Unit} : onlyROFL m = .ok u ↔ m.roflOrigin = true := by
  simp [onlyROFL, revertIf_eq_ok]

theorem onlyROFLQuery_eq_ok {s : SignerState} {u : Unit} :
    onlyROFLQuery m s = .ok u ↔ s.roflSignerAddress ≠ 0 ∧ m.sender = s.roflSignerAddress := by
  simp [onlyROFLQuery, bind_eq_ok, revertIf_eq_ok]

theorem decodeEVMNativeTokenData_eq_ok {data : Bytes} {chainId : U256} :
    decodeEVMNativeTokenData data = .ok chainId ↔
      data.length = 32 ∧ ofBytes (data.take 32) = chainId := by
  simp only [decodeEVMNativeTokenData, bind_eq_ok, revertIf_eq_ok, pure_eq_ok, ne_eq, not_not]
  tauto

theorem decodeEVMErc20TokenData_eq_ok {data : Bytes} {r : U256 × Address} :
    decodeEVMErc20TokenData data = .ok r ↔
      data.length = 52 ∧
        (ofBytes (data.take 32), (ofBytes ((data.drop 20).take 32)).setWidth 160) = r := by
  simp only [decodeEVMErc20TokenData, bind_eq_ok, revertIf_eq_ok, pure_eq_ok, ne_eq, not_not]
  tauto

theorem addBalance_eq_ok {s s' : State} {u : Address} {t : Bytes32} {amount : U256} :
    s.addBalance u t amount = .ok s' ↔
      ∃ b : U256, b.toNat = (s.balances u t).toNat + amount.toNat ∧ s.setBalance u t b = s' := by
  simp only [State.addBalance, bind_eq_ok, checkedAdd_eq_ok, pure_eq_ok]

theorem subBalance_eq_ok {s s' : State} {u : Address} {t : Bytes32} {amount : U256} :
    s.subBalance u t amount = .ok s' ↔
      ∃ b : U256, b.toNat + amount.toNat = (s.balances u t).toNat ∧ s.setBalance u t b = s' := by
  simp only [State.subBalance, bind_eq_ok, checkedSub_eq_ok, pure_eq_ok]

theorem findLockIndex_ok {locks : List FundLock} {lockId : U256} {i : Fin locks.length}
    (h : findLockIndex locks lockId = .ok i) : locks[i].lockId = lockId := by
  unfold findLockIndex at h
  split at h
  · next j hj =>
    obtain rfl := Except.ok.inj h
    simpa using (List.findFinIdx?_eq_some_iff.mp hj).1
  · cases h

theorem perm_getElem_eraseIdx {α : Type*} (xs : List α) (i : Fin xs.length) :
    xs.Perm (xs[i] :: xs.eraseIdx i) :=
  (List.getElem_cons_eraseIdx_perm i.isLt).symm

theorem withVerifier_setBalance_self (s : State) (v : VerifierState) (u : Address) (t : Bytes32) :
    (s.withVerifier v).setBalance u t (s.balances u t) = s.withVerifier v := by
  simp [State.setBalance, State.withVerifier]

/-- A delay of at least one block, computed with checked subtraction. -/
theorem delay_ok {x y : U256} {d : U256} (hd : checkedSub Error.panic x y = .ok d)
    (h : ¬ d < 1) : y.toNat < x.toNat := by
  have hs := checkedSub_eq_ok.mp hd
  have h1 : ¬ d.toNat < 1 := fun hlt => h (BitVec.lt_def.mpr hlt)
  omega

theorem createLock_step {s s' : State} {o : Output P} {serviceAddress : Address}
    {tokenId : Bytes32} {amount expiry nonce : U256} {signature : Bytes}
    (h : createLock P m serviceAddress tokenId amount expiry nonce signature s = .ok (s', o)) :
    Step P m (.createLock serviceAddress tokenId amount expiry nonce signature) s s' o := by
  simp only [createLock, bind_eq_ok, revertIf_eq_ok, pure_eq_ok, subBalance_eq_ok,
    checkedAdd_eq_ok, Prod.exists, Prod.mk.injEq] at h
  obtain ⟨_, hexp, _, hamt, a, v, hv, _, hlen, _, hbal, _, ⟨b, hb, rfl⟩, next, hnext, rfl, rfl⟩ := h
  obtain ⟨hm, hsig, -, hc⟩ := verifyRecovered_ok hv
  exact .createLock (BitVec.not_le.mp hexp) hamt hm hsig hc (Nat.not_le.mp hlen) hb hnext

theorem scheduleWithdrawal_ok {s s' : State} {e : Event} {userAddress toAddress : Address}
    {tokenId : Bytes32} {amount : U256}
    (h : scheduleWithdrawal m userAddress toAddress tokenId amount s = .ok (s', e)) :
    ∃ chainId, e = .Withdrawal userAddress tokenId amount chainId ∧
      Schedules m userAddress toAddress tokenId amount chainId s s' := by
  simp only [scheduleWithdrawal] at h
  split at h
  · next ht =>
    simp only [bind_eq_ok, revertIf_eq_ok, decodeEVMNativeTokenData_eq_ok, pure_eq_ok,
      Prod.exists, Prod.mk.injEq, getEVMNonceAndIncrement_eq_ok] at h
    obtain ⟨chainId, ⟨hlen, hchain⟩, _, hp, nonce, _, ⟨rfl, next, hn, rfl⟩, _, _, _,
      ⟨rfl, rfl, rfl⟩, rfl, rfl⟩ := h
    exact ⟨_, rfl, ⟨none, by simp [tokenTarget, ht, hlen, hchain]⟩, hp, next, hn, rfl⟩
  · next ht =>
    simp only [bind_eq_ok, revertIf_eq_ok, decodeEVMErc20TokenData_eq_ok, pure_eq_ok,
      Prod.exists, Prod.mk.injEq, getEVMNonceAndIncrement_eq_ok] at h
    obtain ⟨chainId, token, ⟨hlen, hchain, htoken⟩, _, hp, nonce, _, ⟨rfl, next, hn, rfl⟩, _, _, _,
      ⟨rfl, rfl, rfl⟩, rfl, rfl⟩ := h
    exact ⟨_, rfl, ⟨some token, by simp [tokenTarget, ht, hlen, hchain, htoken]⟩, hp, next, hn, rfl⟩

/-- The case of `modifyLock` that adds nothing and moves the expiry only. -/
theorem Step.extendLock {s : State} {lockId newExpiry nonce : U256} {signature : Bytes}
    {a : Approval P} {v : VerifierState} {l : FundLock} {locks locks' : List FundLock}
    (message : a.message = .modifyLock lockId 0 newExpiry nonce)
    (signed : a.signature = signature) (consumes : Consumes a s.toVerifierState v)
    (found : (s.activeLocks a.signer).Perm (l :: locks)) (id : l.lockId = lockId)
    (extends_ : l.expiry ≤ newExpiry) (changes : newExpiry ≠ l.expiry)
    (left : locks'.Perm ({ l with expiry := newExpiry } :: locks)) :
    Step P m (.modifyLock lockId 0 newExpiry nonce signature) s
      (((s.withVerifier v).setLocks a.signer locks').appendUserCounterpartyHistory m a.signer
        .ModifyLock l.tokenId 0 l.serviceId) { approval := some a } := by
  have h := Step.modifyLock (m := m) message signed consumes found id extends_
    (fun hc => changes hc.2) (b := s.balances a.signer l.tokenId) rfl rfl left
  rwa [withVerifier_setBalance_self] at h

theorem modifyLock_step {s s' : State} {o : Output P} {lockId amount newExpiry nonce : U256}
    {signature : Bytes}
    (h : modifyLock P m lockId amount newExpiry nonce signature s = .ok (s', o)) :
    Step P m (.modifyLock lockId amount newExpiry nonce signature) s s' o := by
  simp only [modifyLock, bind_eq_ok, revertIf_eq_ok, Prod.exists] at h
  obtain ⟨a, v, hv, i, hi, _, hexp, _, hch, h⟩ := h
  obtain ⟨hm, hsig, -, hc⟩ := verifyRecovered_ok hv
  have hfound := perm_getElem_eraseIdx _ i
  have hleft (x : FundLock) := List.set_perm_cons_eraseIdx i.isLt x
  split at h
  · simp only [bind_eq_ok, revertIf_eq_ok, pure_eq_ok, subBalance_eq_ok, checkedAdd_eq_ok,
      Prod.exists, Prod.mk.injEq] at h
    obtain ⟨_, hbal, _, ⟨b, hb, rfl⟩, _, hn, _, _, ⟨rfl, rfl⟩, rfl, rfl⟩ := h
    exact .modifyLock hm hsig hc hfound (findLockIndex_ok hi) (BitVec.not_lt.mp hexp) hch hb hn
      (hleft _)
  · next hz =>
    have hamt : amount = 0 := by
      simpa using hz
    simp only [bind_eq_ok, pure_eq_ok, Prod.exists, Prod.mk.injEq] at h
    obtain ⟨_, _, ⟨rfl, rfl⟩, rfl, rfl⟩ := h
    subst hamt
    exact .extendLock hm hsig hc hfound (findLockIndex_ok hi) (BitVec.not_lt.mp hexp)
      (fun he => hch ⟨rfl, he⟩) (hleft _)

theorem creditDeposit_step {s s' : State} {o : Output P} {beneficiary : Address}
    {tokenId depositId : Bytes32} {amount : U256}
    (h : creditDeposit P m beneficiary tokenId amount depositId s = .ok (s', o)) :
    Step P m (.creditDeposit beneficiary tokenId amount depositId) s s' o := by
  simp only [creditDeposit, bind_eq_ok, revertIf_eq_ok, onlyROFL_eq_ok, pure_eq_ok,
    addBalance_eq_ok, Prod.mk.injEq] at h
  obtain ⟨_, hr, _, hz, _, hf, _, ha, _, ht, _, ⟨b, hb, rfl⟩, rfl, rfl⟩ := h
  exact .creditDeposit hr hz (by simpa using hf) ha (by simpa using ht) hb

theorem unlock_of_ok {s t : State} {userAddress : Address} {l : FundLock}
    {locks : List FundLock} (hl : (s.activeLocks userAddress).Perm (l :: locks))
    {locks' : List FundLock} (hp : locks'.Perm locks) (ha : l.amount ≠ 0)
    (he : l.expiry ≤ m.timestamp)
    (h : s.addBalance userAddress l.tokenId l.amount = .ok t) :
    Unlock m userAddress l s ((t.appendUserCounterpartyHistory m userAddress .UnlockLock l.tokenId
      l.amount l.serviceId).setLocks userAddress locks') := by
  obtain ⟨b, hb, rfl⟩ := addBalance_eq_ok.mp h
  exact ⟨he, ha, b, locks', hb, hl.trans (hp.symm.cons l), rfl⟩

theorem unlockSingleLock_step {s s' : State} {o : Output P} {userAddress : Address}
    {lockId : U256} (h : unlockSingleLock P m userAddress lockId s = .ok (s', o)) :
    Step P m (.unlockSingleLock userAddress lockId) s s' o := by
  simp only [unlockSingleLock, bind_eq_ok] at h
  obtain ⟨i, hi, h⟩ := h
  have hfound := perm_getElem_eraseIdx _ i
  have hleft := swapPop_perm i.isLt
  split at h
  · next ha =>
    simp only [bind_eq_ok, revertIf_eq_ok, pure_eq_ok, Prod.mk.injEq] at h
    obtain ⟨_, he, t, ht, _, rfl, rfl, rfl⟩ := h
    exact .unlockSingleLock (findLockIndex_ok hi)
      (unlock_of_ok hfound hleft ha (BitVec.not_lt.mp he) ht)
  · next ha =>
    simp only [bind_eq_ok, pure_eq_ok, Prod.mk.injEq] at h
    obtain ⟨_, rfl, rfl, rfl⟩ := h
    exact .dropEmptyLock (findLockIndex_ok hi) (not_not.mp ha) (hfound.trans (hleft.symm.cons _))

/-- The slots from `i` on hold no lock that can be given back: this is what the
backward loop has already established when `i` slots are left. -/
theorem unlockAllExpiredLocksLoop_ok {userAddress : Address} {i : ℕ} {s s' : State}
    {count count' : U256} (hi : i ≤ (s.activeLocks userAddress).length)
    (done : ∀ l ∈ (s.activeLocks userAddress).drop i, ¬ (l.expiry ≤ m.timestamp ∧ 0 < l.amount))
    (h : unlockAllExpiredLocksLoop m userAddress i s count = .ok (s', count')) :
    ∃ ls, Unlocks m userAddress ls s s' ∧ count'.toNat = count.toNat + ls.length ∧
      ∀ l ∈ s'.activeLocks userAddress, ¬ (l.expiry ≤ m.timestamp ∧ 0 < l.amount) := by
  induction i generalizing s count with
  | zero =>
    simp only [unlockAllExpiredLocksLoop, Except.ok.injEq, Prod.mk.injEq] at h
    obtain ⟨rfl, rfl⟩ := h
    exact ⟨[], .nil s, rfl, by simpa using done⟩
  | succ i ih =>
    have hlt : i < (s.activeLocks userAddress).length := hi
    simp only [unlockAllExpiredLocksLoop, List.getElem?_eq_getElem hlt] at h
    split at h
    · next hl =>
      simp only [bind_eq_ok, checkedAdd_eq_ok] at h
      obtain ⟨t, ht, c, hc, h⟩ := h
      have hfound := (List.getElem_cons_eraseIdx_perm hlt).symm
      have hpos : (s.activeLocks userAddress)[i].amount ≠ 0 := by
        rintro h0
        simp [h0] at hl
      have hu := unlock_of_ok hfound (swapPop_perm hlt) hpos hl.1 ht
      have hlen : i ≤ (swapPop (s.activeLocks userAddress) i).length := by
        rw [(swapPop_perm hlt).length_eq, List.length_eraseIdx_of_lt hlt]
        omega
      obtain ⟨ls, hls, hcount, hrest⟩ := ih (by simpa [State.activeLocks, State.setLocks] using hlen)
        (fun l hm => done l (mem_drop_swapPop hlt
          (by simpa [State.activeLocks, State.setLocks] using hm))) h
      refine ⟨_ :: ls, .cons hu hls, ?_, hrest⟩
      have h1 : (1 : U256).toNat = 1 := rfl
      rw [hcount, hc, h1, List.length_cons]
      omega
    · next hl =>
      refine ih (Nat.le_of_lt hlt) ?_ h
      intro l hm
      rw [List.drop_eq_getElem_cons hlt, List.mem_cons] at hm
      rcases hm with rfl | hm
      · exact hl
      · exact done l hm

theorem unlockAllExpiredLocks_step {s s' : State} {o : Output P} {userAddress : Address}
    (h : unlockAllExpiredLocks P m userAddress s = .ok (s', o)) :
    Step P m (.unlockAllExpiredLocks userAddress) s s' o := by
  simp only [unlockAllExpiredLocks, bind_eq_ok, pure_eq_ok, Prod.exists, Prod.mk.injEq] at h
  obtain ⟨t, c, hloop, rfl, rfl⟩ := h
  obtain ⟨ls, hls, hc, hrest⟩ := unlockAllExpiredLocksLoop_ok (Nat.le_refl _) (by simp) hloop
  exact .unlockAllExpiredLocks hls hrest (by simpa using hc)

theorem setLocks_setLocks (s : State) (u : Address) (xs ys : List FundLock) :
    (s.setLocks u xs).setLocks u ys = s.setLocks u ys := by
  simp [State.setLocks]

theorem setLocks_setBalance (s : State) (u w : Address) (xs : List FundLock) (t : Bytes32)
    (b : U256) : (s.setLocks u xs).setBalance w t b = (s.setBalance w t b).setLocks u xs := rfl

theorem appendUserCounterpartyHistory_setLocks (s : State) (u w : Address) (xs : List FundLock)
    (kind : HistoryKind) (t : Bytes32) (amount : U256) (c : Address) :
    (s.appendUserCounterpartyHistory m w kind t amount c).setLocks u xs =
      (s.setLocks u xs).appendUserCounterpartyHistory m w kind t amount c := rfl

/-- What is left of the array when lock `i` goes down to `n`, drained or not. -/
theorem remainder_perm {xs : List FundLock} {i : ℕ} (h : i < xs.length) (n : U256) :
    (if n = 0 then swapPop (xs.set i { xs[i] with amount := n }) i
      else xs.set i { xs[i] with amount := n }).Perm (remainder xs[i] n ++ xs.eraseIdx i) := by
  unfold remainder
  split
  · exact swapPop_set_perm h _
  · exact List.set_perm_cons_eraseIdx h _

theorem transferFromLock_step {s s' : State} {o : Output P} {userAddress toAddress : Address}
    {lockId amount nonce : U256} {signature : Bytes}
    (h : transferFromLock P m userAddress toAddress lockId amount nonce signature s = .ok (s', o)) :
    Step P m (.transferFromLock userAddress toAddress lockId amount nonce signature) s s' o := by
  simp only [transferFromLock, bind_eq_ok, revertIf_eq_ok, pure_eq_ok, checkedSub_eq_ok,
    addBalance_eq_ok, Prod.exists, Prod.mk.injEq] at h
  obtain ⟨_, hamt, _, hto, i, hi, a, v, hv, _, hle, n, hn, _, ⟨b, hb, rfl⟩, rfl, rfl⟩ := h
  obtain ⟨hm, hsig, hs, hc⟩ := verifyExpected_ok hv
  have hfound := perm_getElem_eraseIdx _ i
  have hstep := Step.transferFromLock (m := m) (s := s) hamt hto hm hsig hs hc hfound
    (findLockIndex_ok hi) hn hb (remainder_perm i.isLt n)
  convert hstep using 1
  split_ifs <;> simp only [appendUserCounterpartyHistory_setLocks, setLocks_setBalance,
    setLocks_setLocks] <;> rfl

theorem transferToLock_step {s s' : State} {o : Output P} {userAddress : Address}
    {lockId amount nonce : U256} {signature : Bytes}
    (h : transferToLock P m userAddress lockId amount nonce signature s = .ok (s', o)) :
    Step P m (.transferToLock userAddress lockId amount nonce signature) s s' o := by
  simp only [transferToLock, bind_eq_ok, revertIf_eq_ok, pure_eq_ok, checkedAdd_eq_ok,
    subBalance_eq_ok, Prod.exists, Prod.mk.injEq] at h
  obtain ⟨_, hamt, i, hi, a, v, hv, _, hs, _, hle, _, ⟨b, hb, rfl⟩, n, hn, rfl, rfl⟩ := h
  obtain ⟨hm, hsig, -, hc⟩ := verifyRecovered_ok hv
  exact .transferToLock hamt hm hsig (not_not.mp hs) hc (perm_getElem_eraseIdx _ i)
    (findLockIndex_ok hi) hb hn (List.set_perm_cons_eraseIdx i.isLt _)

theorem withdrawFromLock_step {s s' : State} {o : Output P} {userAddress toAddress : Address}
    {lockId amount nonce : U256} {signature : Bytes}
    (h : withdrawFromLock P m userAddress toAddress lockId amount nonce signature s = .ok (s', o)) :
    Step P m (.withdrawFromLock userAddress toAddress lockId amount nonce signature) s s' o := by
  simp only [withdrawFromLock, bind_eq_ok, revertIf_eq_ok, pure_eq_ok, checkedSub_eq_ok,
    Prod.exists, Prod.mk.injEq] at h
  obtain ⟨_, hamt, _, hto, i, hi, a, v, hv, _, hle, n, hn, _, _, hsched, rfl, rfl⟩ := h
  obtain ⟨hm, hsig, hs, hc⟩ := verifyExpected_ok hv
  obtain ⟨chainId, rfl, hq⟩ := scheduleWithdrawal_ok hsched
  exact .withdrawFromLock hamt hto hm hsig hs hc (perm_getElem_eraseIdx _ i)
    (findLockIndex_ok hi) hn (remainder_perm i.isLt n) hq

theorem transferBalance_step {s s' : State} {o : Output P} {toAddress : Address}
    {tokenId : Bytes32} {amount nonce : U256} {signature : Bytes}
    (h : transferBalance P m toAddress tokenId amount nonce signature s = .ok (s', o)) :
    Step P m (.transferBalance toAddress tokenId amount nonce signature) s s' o := by
  simp only [transferBalance, bind_eq_ok, revertIf_eq_ok, pure_eq_ok, subBalance_eq_ok,
    addBalance_eq_ok, Prod.exists, Prod.mk.injEq] at h
  obtain ⟨_, hamt, _, hto, a, v, hv, _, hle, _, ⟨b, hb, rfl⟩, _, ⟨b', hb', rfl⟩, rfl, rfl⟩ := h
  obtain ⟨hm, hsig, -, hc⟩ := verifyRecovered_ok hv
  exact .transferBalance hamt hto hm hsig hc hb hb'

theorem requestWithdrawal_step {s s' : State} {o : Output P} {tokenId : Bytes32}
    {amount nonce : U256} {signature : Bytes}
    (h : requestWithdrawal P m tokenId amount nonce signature s = .ok (s', o)) :
    Step P m (.requestWithdrawal tokenId amount nonce signature) s s' o := by
  simp only [requestWithdrawal, bind_eq_ok, revertIf_eq_ok, pure_eq_ok, subBalance_eq_ok,
    Prod.exists, Prod.mk.injEq] at h
  obtain ⟨_, hamt, a, v, hv, _, hle, _, ⟨b, hb, rfl⟩, _, _, hsched, rfl, rfl⟩ := h
  obtain ⟨hm, hsig, -, hc⟩ := verifyRecovered_ok hv
  obtain ⟨chainId, rfl, hq⟩ := scheduleWithdrawal_ok hsched
  exact .requestWithdrawal hamt hm hsig hc hb hq

theorem generateNativeTransfer_eq_ok {s : SignerState} {chainId amount : U256} {user : Address}
    {nonce : U64} {x : SignedTx P} :
    generateNativeTransfer P s chainId user amount nonce = .ok x ↔
      s.gasPrices chainId ≠ 0 ∧ x.account = s.evmAddress ∧ x.secret = s.secretKey ∧
        x.tx = transferTx P withdrawGasLimit (chainId, none) user amount nonce
          (s.gasPrices chainId) := by
  simp only [generateNativeTransfer, bind_eq_ok, revertIf_eq_ok, signTx_eq_ok, transferTx,
    withdrawGasLimit]
  tauto

theorem generateERC20Transfer_eq_ok {s : SignerState} {chainId amount : U256}
    {user token : Address} {nonce : U64} {x : SignedTx P} :
    generateERC20Transfer P s chainId user token amount nonce = .ok x ↔
      s.gasPrices chainId ≠ 0 ∧ x.account = s.evmAddress ∧ x.secret = s.secretKey ∧
        x.tx = transferTx P withdrawGasLimit (chainId, some token) user amount nonce
          (s.gasPrices chainId) := by
  simp only [generateERC20Transfer, bind_eq_ok, revertIf_eq_ok, signTx_eq_ok, transferTx,
    withdrawGasLimit]
  tauto

theorem setResolved_self {s : State} {index : ℕ} {w : WithdrawalRequest}
    (h : s.withdrawals[index]? = some w) (hr : w.resolved = true) :
    { s with withdrawals := s.withdrawals.set index { w with resolved := true } } = s := by
  obtain ⟨hlt, hw⟩ := List.getElem?_eq_some_iff.mp h
  have he : { w with resolved := true } = s.withdrawals[index] := by
    rw [hw, ← hr]
  rw [he, List.set_getElem_self]

/-- Both branches at the end of `resolveWithdrawal`: marking an entry that is
marked already changes nothing. -/
theorem resolved_of_ok {call : Call} {s s' : State} {o : Output P} {index : ℕ}
    {w : WithdrawalRequest} {e : Event} {x : SignedTx P} (hw : s.withdrawals[index]? = some w)
    (hstep : Step P m call s
      { s with withdrawals := s.withdrawals.set index { w with resolved := true } }
      { events := if w.resolved then [] else [e], signedTx := some x })
    (h : (if w.resolved = false then
        pure ({ s with withdrawals := s.withdrawals.set index { w with resolved := true } },
          { events := [e], signedTx := some x })
      else pure (s, { signedTx := some x }) : Result P) = .ok (s', o)) : Step P m call s s' o := by
  split at h
  · next hr =>
    simp only [pure_eq_ok, Prod.mk.injEq] at h
    obtain ⟨rfl, rfl⟩ := h
    simpa [hr] using hstep
  · next hr =>
    have hr : w.resolved = true := by simpa using hr
    simp only [pure_eq_ok, Prod.mk.injEq] at h
    obtain ⟨rfl, rfl⟩ := h
    rw [setResolved_self hw hr] at hstep
    simpa [hr] using hstep

theorem resolveWithdrawal_step {s s' : State} {o : Output P} {index : ℕ}
    (h : resolveWithdrawal P m index s = .ok (s', o)) :
    Step P m (.resolveWithdrawal index) s s' o := by
  unfold resolveWithdrawal at h
  split at h
  · cases h
  next w hw =>
  simp only [bind_eq_ok, revertIf_eq_ok] at h
  obtain ⟨d, hd, _, hdelay, h⟩ := h
  have hlater := delay_ok hd hdelay
  split at h
  · next ht =>
    simp only [bind_eq_ok, decodeEVMNativeTokenData_eq_ok, generateNativeTransfer_eq_ok, pure_eq_ok,
      Prod.exists, Prod.mk.injEq] at h
    obtain ⟨chainId, ⟨hlen, hchain⟩, nonce, hn, x, ⟨hp, ha, hs, hx⟩, _, _, ⟨rfl, rfl⟩, h⟩ := h
    have htarget : tokenTarget (s.tokens w.tokenId) = some (chainId, none) := by
      simp [tokenTarget, ht, hlen, hchain]
    have hstep := Step.resolveWithdrawal hw hlater htarget hn hp ha hs hx
    exact resolved_of_ok hw hstep h
  · next ht =>
    simp only [bind_eq_ok, decodeEVMErc20TokenData_eq_ok, generateERC20Transfer_eq_ok, pure_eq_ok,
      Prod.exists, Prod.mk.injEq] at h
    obtain ⟨chainId, token, ⟨hlen, hchain, htoken⟩, nonce, hn, x, ⟨hp, ha, hs, hx⟩, _, _,
      ⟨rfl, rfl⟩, h⟩ := h
    have htarget : tokenTarget (s.tokens w.tokenId) = some (chainId, some token) := by
      simp [tokenTarget, ht, hlen, hchain, htoken]
    have hstep := Step.resolveWithdrawal hw hlater htarget hn hp ha hs hx
    exact resolved_of_ok hw hstep h

theorem setTokenInfo_step {s s' : State} {o : Output P} {info : TokenInfo}
    (h : setTokenInfo P m info s = .ok (s', o)) : Step P m (.setTokenInfo info) s s' o := by
  simp only [setTokenInfo, bind_eq_ok, onlyROFL_eq_ok, pure_eq_ok, Prod.mk.injEq] at h
  obtain ⟨_, hr, rfl, rfl⟩ := h
  have hstep : Step P m (.setTokenInfo info) s _ _ := .setTokenInfo hr rfl
  convert hstep using 1
  simp only [List.any_eq_true, decide_eq_true_eq, exists_eq_right]
  split <;> rfl

theorem signingView_eq_ok {r : Except Error (SignedTx P)} {s s' : State} {o : Output P} :
    signingView r s = .ok (s', o) ↔ ∃ x, r = .ok x ∧ s = s' ∧ { signedTx := some x } = o := by
  simp only [signingView, bind_eq_ok, pure_eq_ok, Prod.mk.injEq]

theorem depositTransfer_eq_ok {s : SignerState} {gasLimit : U64} {beneficiary recipient : Address}
    {chainType : ChainType} {version chainId amount gasPrice : U256} {nonce : U64}
    {x : SignedTx P} :
    depositTransfer P s gasLimit beneficiary chainType version chainId recipient amount nonce gasPrice =
        .ok x ↔
      (x.account, x.secret) = deriveDepositKeypair P s beneficiary chainType version ∧
        x.tx = { nonce, gasPrice, gasLimit, toAddress := recipient, value := amount, data := [],
                 chainId } := by
  simp only [depositTransfer, signTx_eq_ok, Prod.ext_iff, and_assoc]

theorem depositERC20Transfer_eq_ok {s : SignerState} {gasLimit : U64}
    {beneficiary recipient token : Address} {chainType : ChainType}
    {version chainId amount gasPrice : U256} {nonce : U64} {x : SignedTx P} :
    depositERC20Transfer P s gasLimit beneficiary chainType version chainId recipient token amount nonce
        gasPrice = .ok x ↔
      (x.account, x.secret) = deriveDepositKeypair P s beneficiary chainType version ∧
        x.tx = { nonce, gasPrice, gasLimit, toAddress := token, value := 0,
                 data := encodeTransferCall P recipient amount, chainId } := by
  simp only [depositERC20Transfer, signTx_eq_ok, Prod.ext_iff, and_assoc]

theorem requestEmergencyWithdraw_step {s s' : State} {o : Output P} {tokenId : Bytes32}
    {toAddress : Address} {version : U256}
    (h : requestEmergencyWithdraw P m tokenId toAddress version s = .ok (s', o)) :
    Step P m (.requestEmergencyWithdraw tokenId toAddress version) s s' o := by
  simp only [requestEmergencyWithdraw, bind_eq_ok, revertIf_eq_ok, pure_eq_ok,
    Prod.mk.injEq] at h
  obtain ⟨_, hz, _, ht, rfl, rfl⟩ := h
  exact .requestEmergencyWithdraw hz (by simpa using ht)

theorem executeEmergencyWithdraw_step {s s' : State} {o : Output P} {beneficiary : Address}
    {tokenId : Bytes32} {version amount gasPrice : U256} {nonce : U64}
    (h : executeEmergencyWithdraw P m beneficiary tokenId version nonce amount gasPrice s =
      .ok (s', o)) :
    Step P m (.executeEmergencyWithdraw beneficiary tokenId version nonce amount gasPrice) s s'
      o := by
  simp only [executeEmergencyWithdraw, bind_eq_ok, revertIf_eq_ok] at h
  obtain ⟨_, hreq, d, hd, _, hdelay, h⟩ := h
  have hlater := delay_ok hd hdelay
  split at h
  · next ht =>
    simp only [bind_eq_ok, decodeEVMNativeTokenData_eq_ok, generateDepositAddressTransfer,
      depositTransfer_eq_ok, pure_eq_ok, Prod.mk.injEq] at h
    obtain ⟨chainId, ⟨hlen, hchain⟩, x, ⟨hk, hx⟩, rfl, rfl⟩ := h
    have htarget : tokenTarget (s.tokens tokenId) = some (chainId, none) := by
      simp [tokenTarget, ht, hlen, hchain]
    exact .executeEmergencyWithdraw rfl hreq hlater htarget hk hx
  · next ht =>
    simp only [bind_eq_ok, decodeEVMErc20TokenData_eq_ok, generateDepositAddressERC20Transfer,
      depositERC20Transfer_eq_ok, pure_eq_ok, Prod.exists, Prod.mk.injEq] at h
    obtain ⟨chainId, token, ⟨hlen, hchain, htoken⟩, x, ⟨hk, hx⟩, rfl, rfl⟩ := h
    have htarget : tokenTarget (s.tokens tokenId) = some (chainId, some token) := by
      simp [tokenTarget, ht, hlen, hchain, htoken]
    exact .executeEmergencyWithdraw rfl hreq hlater htarget hk hx

/-- Every successful call is a step of its kind. -/
theorem execute_step {call : Call} {s s' : State} {o : Output P}
    (h : execute P m call s = .ok (s', o)) : Step P m call s s' o := by
  cases call with
  | setGasPrice chainId gasPrice =>
    simp only [execute, setGasPrice, bind_eq_ok, onlyROFL_eq_ok, revertIf_eq_ok, pure_eq_ok,
      Prod.mk.injEq] at h
    obtain ⟨_, ⟨_, hr, _, hz, rfl⟩, rfl, rfl⟩ := h
    exact .setGasPrice hr hz
  | setRoflSignerAddress newSigner =>
    simp only [execute, setRoflSignerAddress, bind_eq_ok, onlyROFL_eq_ok, revertIf_eq_ok,
      pure_eq_ok, Prod.mk.injEq] at h
    obtain ⟨_, ⟨_, hr, _, hz, rfl⟩, rfl, rfl⟩ := h
    exact .setRoflSignerAddress hr hz
  | generateSweepNativeTransfer =>
    simp only [execute, signingView_eq_ok, generateSweepNativeTransfer, bind_eq_ok,
      onlyROFLQuery_eq_ok, depositTransfer_eq_ok] at h
    obtain ⟨x, ⟨_, hr, hk, hx⟩, rfl, rfl⟩ := h
    exact .generateSweepNativeTransfer hr.2 hk hx
  | generateSweepERC20Transfer =>
    simp only [execute, signingView_eq_ok, generateSweepERC20Transfer, bind_eq_ok,
      onlyROFLQuery_eq_ok, depositERC20Transfer_eq_ok] at h
    obtain ⟨x, ⟨_, hr, hk, hx⟩, rfl, rfl⟩ := h
    exact .generateSweepERC20Transfer hr.2 hk hx
  | generateGasFundingTx =>
    simp only [execute, signingView_eq_ok, generateGasFundingTx, bind_eq_ok,
      onlyROFLQuery_eq_ok, signTx_eq_ok] at h
    obtain ⟨x, ⟨_, hr, ha, hk, hx⟩, rfl, rfl⟩ := h
    exact .generateGasFundingTx hr.2 ha hk hx
  | creditDeposit => exact creditDeposit_step h
  | requestEmergencyWithdraw => exact requestEmergencyWithdraw_step h
  | executeEmergencyWithdraw => exact executeEmergencyWithdraw_step h
  | createLock => exact createLock_step h
  | modifyLock => exact modifyLock_step h
  | unlockSingleLock => exact unlockSingleLock_step h
  | unlockAllExpiredLocks => exact unlockAllExpiredLocks_step h
  | transferFromLock => exact transferFromLock_step h
  | transferToLock => exact transferToLock_step h
  | withdrawFromLock => exact withdrawFromLock_step h
  | transferBalance => exact transferBalance_step h
  | requestWithdrawal => exact requestWithdrawal_step h
  | resolveWithdrawal => exact resolveWithdrawal_step h
  | setTokenInfo => exact setTokenInfo_step h

end Privana
