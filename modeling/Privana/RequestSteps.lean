import Privana.WithdrawalQueue
import Privana.WithdrawalRequests

/-! What the operations of a request do. Only a submission changes the contract, and a successful
one queues one withdrawal. -/

namespace Privana
open BigEndian Coroutine

/-- Calls that queue a withdrawal. -/
def Call.queues : Call → Bool
  | .requestWithdrawal .. | .withdrawFromLock .. => true
  | _ => false

section Contract
variable {P : Platform} {m : Msg} {s s' : State} {o : Output P}

theorem Step.queuesOne {call : Call} (h : Step P m call s s' o) (queues : call.queues = true) :
    ∃ entry, s'.withdrawals = s.withdrawals ++ [entry] := by
  cases h with
  | withdrawFromLock _ _ _ _ _ _ _ _ _ _ schedules =>
    obtain ⟨_, -, rfl⟩ := schedules.queued
    exact ⟨_, rfl⟩
  | requestWithdrawal _ _ _ _ _ schedules =>
    obtain ⟨_, -, rfl⟩ := schedules.queued
    exact ⟨_, rfl⟩
  | _ => cases queues

theorem Step.requested {tokenId : Bytes32} {amount nonce : U256} {signature : Bytes}
    (h : Step P m (.requestWithdrawal tokenId amount nonce signature) s s' o) :
    ∃ entry user, s'.withdrawals = s.withdrawals ++ [entry] ∧
      isRequestOf user tokenId amount entry = true ∧
      P.recover (hashTypedDataV4 P (.withdraw tokenId amount nonce)) signature = some user := by
  cases h with
  | @requestWithdrawal _ _ _ _ _ _ _ _ a _ _ message signed _ _ schedules =>
    obtain ⟨_, -, rfl⟩ := schedules.queued
    refine ⟨_, a.signer, rfl, by simp [isRequestOf], ?_⟩
    rw [← message, ← signed]
    exact a.recovered

end Contract

section Perform
variable {R : RequestPlatform} {i : ℕ} {answer : RequestAnswer} {w v : RequestWorld R.contract}

theorem RequestWorld.transact_eq_some {P : Platform} {w v : RequestWorld P} {tx : Tx}
    (h : w.transact tx = some v) : ∃ s o, Step P tx.msg tx.call w.accounting s o ∧
      v = { w with
        accounting := s
        past := w.accounting :: w.past
        receipts := w.receipts ++ [⟨w.accounting, tx, o, s⟩] } := by
  unfold transact at h
  split at h
  · cases h
  · next s o executed => exact ⟨s, o, execute_step executed, (Option.some.inj h).symm⟩

theorem requestPerform_recoverSigner {message : Message} {signature : Bytes}
    {r : Except RequestError Address}
    (h : requestPerform R i (.recoverSigner message signature) answer w = some (r, v)) :
    v = w ∧ ∀ signer, r = .ok signer → R.recoverMessage message signature = some signer := by
  cases answer with
  | fail =>
    cases h
    exact ⟨rfl, by simp⟩
  | direct =>
    simp only [requestPerform] at h
    split at h
    · next signer recovered =>
      cases h
      exact ⟨rfl, fun a ha => by rw [recovered, Except.ok.inj ha]⟩
    · cases h
      exact ⟨rfl, by simp⟩
  | node lag => simp [requestPerform, requestReads] at h
  | count | listed | executed => cases h

theorem requestPerform_withdrawalCount {r : Except RequestError ℕ}
    (h : requestPerform R i .withdrawalCount answer w = some (r, v)) :
    v = w ∧ ∀ n, r = .ok n → ∃ lag s, answer = .count lag ∧ w.node lag = some s ∧
      n = s.withdrawals.length := by
  cases answer with
  | fail =>
    cases h
    exact ⟨rfl, by simp⟩
  | count lag =>
    obtain ⟨s, shown, he⟩ := Option.map_eq_some_iff.mp h
    cases he
    exact ⟨rfl, fun n hn => ⟨lag, s, rfl, shown, (Except.ok.inj hn).symm⟩⟩
  | node lag => simp [requestPerform, requestReads] at h
  | direct | listed | executed => cases h

theorem requestPerform_withdrawal {index : ℕ} {r : Except RequestError WithdrawalRequest}
    (h : requestPerform R i (.withdrawal index) answer w = some (r, v)) :
    v = w ∧ ∀ entry, r = .ok entry → ∃ s ∈ w.states, s.withdrawals[index]? = some entry := by
  cases answer with
  | fail =>
    cases h
    exact ⟨rfl, by simp⟩
  | node lag =>
    obtain ⟨s, shown, h⟩ := Option.bind_eq_some_iff.mp h
    obtain ⟨r', reads, h⟩ := Option.bind_eq_some_iff.mp h
    cases h
    refine ⟨rfl, fun entry he => ⟨s, List.mem_of_getElem? shown, ?_⟩⟩
    subst he
    simp only [requestReads, Option.some.injEq] at reads
    split at reads
    · next found => rw [found, Except.ok.inj reads]
    · cases reads
  | count | direct | listed | executed => cases h

theorem requestPerform_submitTx {call : Call} {r : Except RequestError Unit}
    (h : requestPerform R i (.submitTx call) answer w = some (r, v)) :
    v = w ∧ (∃ e, r = .error e) ∨ ∃ msg u, w.transact ⟨msg, call⟩ = some u ∧ v = u.create i := by
  cases answer with
  | fail =>
    cases h
    exact .inl ⟨rfl, _, rfl⟩
  | executed msg reply =>
    simp only [requestPerform, submitTx, Option.some.injEq] at h
    split at h
    · next u transacted =>
      cases h
      exact .inr ⟨msg, u, transacted, rfl⟩
    · cases h
      exact .inl ⟨rfl, _, rfl⟩
  | node lag => simp [requestPerform, requestReads] at h
  | count | direct | listed => cases h

/-- An operation that submits nothing at most notes a balance. -/
theorem requestPerform_quiet {op : RequestOp} {r : Except RequestError op.Reply}
    (h : requestPerform R i op answer w = some (r, v)) (quiet : ∀ call, op ≠ .submitTx call) :
    v = w ∨ ∃ chainId address, v = w.read i chainId address := by
  cases answer with
  | fail =>
    cases h
    exact .inl rfl
  | node lag =>
    obtain ⟨s, -, h⟩ := Option.bind_eq_some_iff.mp h
    obtain ⟨r', -, h⟩ := Option.bind_eq_some_iff.mp h
    cases h
    exact .inl rfl
  | count lag =>
    cases op with
    | withdrawalCount =>
      obtain ⟨s, -, he⟩ := Option.map_eq_some_iff.mp h
      cases he
      exact .inl rfl
    | _ => cases h
  | direct =>
    cases op with
    | recoverSigner => exact .inl (requestPerform_recoverSigner h).1
    | withdrawalGasLimit | chainWeb3 =>
      cases h
      exact .inl rfl
    | nativeBalance chainId address =>
      cases h
      exact .inr ⟨chainId, address, rfl⟩
    | _ => cases h
  | listed supported =>
    cases op with
    | hasRpcUrl =>
      cases h
      exact .inl rfl
    | _ => cases h
  | executed msg reply =>
    cases op with
    | submitTx call => exact absurd rfl (quiet call)
    | _ => cases h

end Perform

end Privana
