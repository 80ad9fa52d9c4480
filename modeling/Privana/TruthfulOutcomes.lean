import Privana.SubmissionFrames

/-! What callers of a signed write are told is true, for any interleaving of resends of
one calldata, cancelled callers, crashes and replies, as long as its record lives. -/

namespace Privana
open BigEndian Coroutine SignedOp

namespace AccountingClient

variable {C : AccountingClient} {S : SubmissionScope} {n i j task : ℕ} {data key : Bytes}
  {w v : SignedWorld}

/-- What a step of task `i` to phase `x` comes to. -/
structure Progress (C : AccountingClient) (S : SubmissionScope) (n i : ℕ) (x : SignedPhase)
    (w v : SignedWorld) : Prop where
  kept : C.SignedInvariant S n v ∧ C.Frame S i w v
  knows : C.Knows S i x v

theorem Progress.stay (inv : C.SignedInvariant S n w) {x : SignedPhase}
    (h : C.Knows S i x w) : Progress C S n i x w w := ⟨⟨inv, .refl C S i w⟩, h⟩

section
variable (inv : C.SignedInvariant S n w) {c : SignedAnswer}
include inv

theorem calling_perform {r : Except SubmitError ℕ} (known : C.Knows S i (.calling data) w)
    (h : signedPerform i (joinSubmission (C.keccak data) data) c w = some (r, v)) :
    Comes (joinSubmission (C.keccak data) data) r ∧
      Progress C S n i (next (.calling data) (joinSubmission (C.keccak data) data) r) w v := by
  cases c with
  | ok =>
    simp only [signedPerform] at h
    split at h
    · next task filed =>
      cases h
      exact ⟨⟨task, rfl⟩, .stay inv (inv.filed _ _ filed)⟩
    · next fresh =>
      cases h
      exact ⟨⟨_, rfl⟩, join_step inv known fresh, _, List.getElem?_concat_length, rfl⟩
  | fails => cases h
  | reply => cases h

theorem joined_perform {r : Except SubmitError SubmissionResult}
    (known : C.Knows S i (.joined data task) w)
    (h : signedPerform i (awaitSubmission task) c w = some (r, v)) :
    Progress C S n i (next (.joined data task) (awaitSubmission task) r) w v := by
  cases c with
  | ok =>
    simp only [signedPerform, Option.bind_eq_bind, Option.bind_eq_some_iff] at h
    obtain ⟨t, ht, r', hr, h⟩ := h
    cases h
    obtain ⟨t', ht', hk⟩ := known
    obtain rfl : t = t' := by simpa [ht] using ht'
    cases r with
    | ok a =>
      refine .stay inv fun live => ?_
      rw [← hk] at live ⊢
      exact inv.results t (List.mem_of_getElem? ht) a hr live
    | error e => exact .stay inv trivial
  | fails => cases h
  | reply => cases h

theorem failed_perform {r : Except SubmitError (Option AccountingCall)}
    (h : signedPerform i (storeGet key) c w = some (r, v)) :
    Comes (storeGet key) r ∧ Progress C S n i (next (.failed data) (storeGet key) r) w v := by
  have : Comes (storeGet key) r ∧ v = w := by
    cases c with
    | ok => cases h; exact ⟨by simp [Comes], rfl⟩
    | fails f => cases h; exact ⟨by simp [Comes], rfl⟩
    | reply => cases h
  obtain ⟨comes, rfl⟩ := this
  refine ⟨comes, .stay inv ?_⟩
  rcases r with _ | _ | _ <;> exact trivial

theorem begun_perform {r : Except SubmitError (Option AccountingCall)}
    (known : C.Knows S i (.begun task data) w)
    (h : signedPerform i (storeGet (C.keccak data)) c w = some (r, v)) :
    Comes (storeGet (C.keccak data)) r ∧
      Progress C S n i (next (.begun task data) (storeGet (C.keccak data)) r) w v := by
  obtain ⟨hold, idle⟩ := known
  cases c with
  | ok =>
    cases h
    refine ⟨by simp [Comes], .stay inv ?_⟩
    simp only [next]
    split
    · next executed =>
      obtain ⟨call, hc, hs⟩ := (Option.any_eq_true _ _).mp executed
      exact ⟨hold, idle, fun _ _ => ⟨call, hc, by simpa using hs⟩⟩
    · next fresh =>
      refine ⟨hold, idle, fun _ => ⟨rfl, fun executed => ?_⟩⟩
      obtain ⟨call, hc, hs⟩ := executed
      exact fresh (by simp [hc, hs])
  | fails f =>
    cases h
    exact ⟨by simp [Comes], .stay inv ⟨hold, idle, by simp⟩⟩
  | reply => cases h

theorem fresh_perform {r : Except SubmitError Unit} {earlier : Option AccountingCall}
    (known : C.Knows S i (.fresh task data earlier) w)
    (h : signedPerform i (storePut (C.keccak data) ⟨.pending, none⟩) c w = some (r, v)) :
    Comes (storePut (C.keccak data) ⟨.pending, none⟩) r ∧ Progress C S n i
      (next (.fresh task data earlier) (storePut (C.keccak data) ⟨.pending, none⟩) r) w v := by
  obtain ⟨hold, idle, known⟩ := known
  cases c with
  | ok =>
    cases h
    refine ⟨by simp [Comes], store_step inv hold (by simp) (by simp)
      (fun live h => absurd h (known live).2), hold, idle,
      fun live => ⟨⟨_, Function.update_self _ _ _, rfl⟩, ?_⟩⟩
    exact fun first => inv.clean _ live ((known live).1.trans (Option.isNone_iff_eq_none.mp first))
  | fails f =>
    cases h
    exact ⟨by simp [Comes], .stay inv ⟨hold, idle, by simp⟩⟩
  | reply => cases h

theorem ready_perform {r : Except SubmitError ℕ} {first : Bool} {tx : TxParams} (htx : tx.data = data)
    (known : C.Knows S i (.ready task data first) w)
    (h : signedPerform i (signSubmit tx) c w = some (r, v)) :
    Comes (signSubmit tx) r ∧
      Progress C S n i (next (.ready task data first) (signSubmit tx) r) w v := by
  obtain ⟨hold, idle, known⟩ := known
  cases c with
  | ok =>
    cases h
    refine ⟨by simp [Comes], request_step inv hold idle htx fun live => (known live).1, hold, ?_,
      ⟨_, List.getElem?_concat_length, htx⟩, fun live => ⟨(known live).1, fun h => ?_⟩⟩
    · intro q hq
      rcases List.mem_cons.mp hq with hq | hq
      · cases hq; rfl
      · exact absurd hq (idle q)
    · refine ((known live).2 h).imp fun k q hq hb _ => ⟨by simp, ?_⟩
      rcases getElem?_concat hq with ⟨-, hq⟩ | ⟨rfl, -⟩
      · exact hq
      · exact absurd rfl hb
  | fails f =>
    cases h
    exact ⟨by simp [Comes], .stay inv ⟨hold, idle, by simp⟩⟩
  | reply => cases h

theorem executed_perform {r : Except SubmitError Unit} {id : Option String}
    (known : C.Knows S i (.executed task data) w)
    (h : signedPerform i (storePut (C.keccak data) ⟨.executed, id⟩) c w = some (r, v)) :
    Comes (storePut (C.keccak data) ⟨.executed, id⟩) r ∧ Progress C S n i
      (next (.executed task data) (storePut (C.keccak data) ⟨.executed, id⟩) r) w v := by
  obtain ⟨hold, idle, landed⟩ := known
  cases c with
  | ok =>
    cases h
    exact ⟨by simp [Comes], store_step inv hold (by simp) (fun _ _ _ _ => landed)
      (fun _ _ => ⟨_, rfl, rfl⟩), hold, idle, fun _ _ => ⟨_, Function.update_self _ _ _, rfl⟩⟩
  | fails f =>
    cases h
    exact ⟨by simp [Comes], .stay inv ⟨hold, idle, by simp⟩⟩
  | reply => cases h

theorem reverted_perform {r : Except SubmitError Unit}
    (known : C.Knows S i (.reverted task data) w)
    (h : signedPerform i (storeDelete (C.keccak data)) c w = some (r, v)) :
    Comes (storeDelete (C.keccak data)) r ∧
      Progress C S n i (next (.reverted task data) (storeDelete (C.keccak data)) r) w v := by
  obtain ⟨hold, idle, known⟩ := known
  cases c with
  | ok =>
    cases h
    refine ⟨by simp [Comes], store_step inv hold (fun live _ => (known live).2) (by simp)
      fun live h => ?_, hold, idle, by simp⟩
    obtain ⟨⟨call, hc, hs⟩, -⟩ := known live
    obtain ⟨call', hc', hs'⟩ := h
    obtain rfl : call = call' := by simpa [hc] using hc'
    exact absurd (hs.symm.trans hs') (by simp)
  | fails f =>
    cases h
    exact ⟨by simp [Comes], .stay inv ⟨hold, idle, by simp⟩⟩
  | reply => cases h

theorem leaving_perform {r : Except SubmitError Unit} {recorded : Bool}
    (known : C.Knows S i (.leaving task data recorded) w)
    (h : signedPerform i (leaveSubmissions (C.keccak data)) c w = some (r, v)) :
    Comes (leaveSubmissions (C.keccak data)) r ∧ Progress C S n i
      (next (.leaving task data recorded) (leaveSubmissions (C.keccak data)) r) w v := by
  obtain ⟨hold, idle, known⟩ := known
  cases c with
  | ok =>
    simp only [signedPerform, hold.2, reduceCtorEq, ↓reduceIte] at h
    cases h
    exact ⟨by simp [Comes], leave_step inv hold idle, hold.1, known⟩
  | fails => cases h
  | reply => cases h

theorem finishing_perform {r : Except SubmitError Unit} {recorded : Bool}
    {result : Except SubmitError SubmissionResult} (ok : ∀ a, result = .ok a → recorded = true)
    (known : C.Knows S i (.finishing task data recorded) w)
    (h : signedPerform i (conclude task result) c w = some (r, v)) :
    Comes (conclude task result) r ∧
      Progress C S n i (next (.finishing task data recorded) (conclude task result) r) w v := by
  cases c with
  | ok =>
    cases h
    exact ⟨by simp [Comes], conclude_step inv known.1 fun a ha => known.2 (ok a ha), trivial⟩
  | fails => cases h
  | reply => cases h

theorem requested_perform {r : Except SubmitError AppdReply} {first : Bool} {request : ℕ}
    (known : C.Knows S i (.requested task data first request) w)
    (h : signedPerform i (signSubmitReply request) c w = some (r, v)) :
    Comes (signSubmitReply request) r ∧ Progress C S n i
      (next (.requested task data first request) (signSubmitReply request) r) w v := by
  obtain ⟨hold, only, ⟨q, hq, hd⟩, known⟩ := known
  have idle : ∀ k, (i, k) ∉ w.awaiting.erase (i, request) := fun k hk =>
    inv.nodup.not_mem_erase (only k (List.mem_of_mem_erase hk) ▸ hk)
  cases c with
  | ok => cases h
  | fails f =>
    cases h
    have same : w.requests.set request { q with answered := q.answered } = w.requests := by
      rw [← List.getElem?_eq_some_iff.mp hq |>.2, List.set_getElem_self]
    refine ⟨by simp [Comes], ?_, hold, idle, by simp⟩
    simpa only [same] using reply_step (i := i) inv hq q.answered id
  | reply a =>
    simp only [signedPerform, hq, Option.bind_eq_bind, Option.bind_some] at h
    obtain ⟨_, told, h⟩ := Option.bind_eq_some_iff.mp h
    cases h
    have told : a.outcome = none ∨ a.outcome = q.fate := by simpa using told
    have hk : request < w.requests.length := (List.getElem?_eq_some_iff.mp hq).1
    have step := reply_step (i := i) inv hq (q.answered || a.outcome.isSome) (by simp +contextual)
    refine ⟨by simp [Comes], step, ?_⟩
    simp only [next]
    split
    · next executed =>
      have fate : q.fate = some .executed := by simpa [executed, eq_comm] using told
      exact ⟨hold, idle, _, List.mem_of_getElem? (List.getElem?_set_self hk), by rw [hd], by
        simp [executed], fate⟩
    · next reverted =>
      have fate : q.fate = some .reverted := by simpa [reverted, eq_comm] using told
      split
      · next first =>
        refine ⟨hold, idle, fun live => ⟨(known live).1, fun k r hr _ hkey => ?_⟩⟩
        by_cases hm : request = k
        · subst hm
          obtain rfl : _ = r := by simpa [hk] using hr
          exact ⟨by simp [reverted], fate⟩
        · rw [List.getElem?_set_ne hm] at hr
          exact (known live).2 first k r hr (by simpa using hm) hkey
      · exact ⟨hold, idle, by simp⟩
    · exact ⟨hold, idle, by simp⟩

end

theorem call_start (inv : C.SignedInvariant S n w)
    (h : signedStart (.call data) w = some v) :
    C.SignedInvariant S (n + 1) v ∧ C.Frame S n w v := by
  cases h
  have step := start_step inv (.call data) w.tasks (fun k t h => ⟨t, h, rfl, id⟩)
    (fun k t h => ⟨t, h, rfl, rfl, id⟩) (by simp)
  exact ⟨step.1, step.2.1⟩

theorem submit_start (inv : C.SignedInvariant S n w)
    (h : signedStart (.submit task data) w = some v) :
    C.SignedInvariant S (n + 1) v ∧ C.Frame S n w v ∧
      C.Knows S n (.begun task data) v := by
  simp only [signedStart, Option.bind_eq_bind, Option.bind_eq_some_iff] at h
  obtain ⟨t, ht, _, idle, h⟩ := h
  cases h
  obtain ⟨hd, hb⟩ : t.data = data ∧ t.begun = false := by simpa using idle
  have hk : task < w.tasks.length := (List.getElem?_eq_some_iff.mp ht).1
  have step := start_step inv (.submit task data) (w.tasks.set task { t with begun := true })
    (fun k t' h => ?_) (fun k t' h => ?_) fun task' data' same => ?_
  · refine ⟨step.1, step.2.1, ⟨?_, ?_⟩, step.2.2⟩
    · rw [← inv.started]
      exact List.getElem?_concat_length
    · have filed := inv.waiting task t ht hb
      rwa [hd] at filed
  · by_cases hm : task = k
    · subst hm
      obtain rfl : t = t' := by simpa [ht] using h
      exact ⟨_, List.getElem?_set_self hk, rfl, fun _ => rfl⟩
    · exact ⟨t', by rw [List.getElem?_set_ne hm, h], rfl, id⟩
  · by_cases hm : task = k
    · subst hm
      obtain rfl : _ = t' := by simpa [hk] using h
      exact ⟨t, ht, rfl, rfl, by simp⟩
    · exact ⟨t', by rwa [List.getElem?_set_ne hm] at h, rfl, rfl, id⟩
  · cases same
    exact ⟨⟨t, ht, hb⟩, _, List.getElem?_set_self hk, hd, rfl⟩

/-- No record of a live key expires, and calls bring only calldata of the scope. -/
def Lasting (S : SubmissionScope) (e : TaskEvent SignedAnswer SignedMove SignedTask)
    (_ : SignedWorld) : Prop :=
  (∀ key, e = .move (.expire key) → ¬ S.alive key) ∧ ∀ data, e = .start (.call data) → S.brought data

theorem perform_progress (inv : C.SignedInvariant S n w) {x : SignedPhase}
    (known : C.Knows S i x w) {op : SignedOp} (may : C.May x op) {c : SignedAnswer}
    {r : Except SubmitError op.Reply} (h : signedPerform i op c w = some (r, v)) :
    Comes op r ∧ Progress C S n i (next x op r) w v := by
  cases x with
  | ended => cases may
  | calling data => cases may; exact calling_perform inv known h
  | joined data task => cases may; exact ⟨trivial, joined_perform inv known h⟩
  | failed data => cases may; exact failed_perform inv h
  | absent data => cases may
  | succeeded data => cases may
  | begun task data => cases may; exact begun_perform inv known h
  | fresh task data earlier => cases may; exact fresh_perform inv known h
  | ready task data first =>
    obtain ⟨tx, rfl, htx⟩ := may
    exact ready_perform inv htx known h
  | requested task data first request => cases may; exact requested_perform inv known h
  | executed task data =>
    obtain ⟨id, rfl⟩ := may
    exact executed_perform inv known h
  | reverted task data => cases may; exact reverted_perform inv known h
  | leaving task data recorded => cases may; exact leaving_perform inv known h
  | finishing task data recorded =>
    obtain ⟨result, rfl, ok⟩ := may
    exact finishing_perform inv ok known h

theorem move_frames (inv : C.SignedInvariant S n w) {e : SignedMove}
    (lasting : ∀ key, e = .expire key → ¬ S.alive key) (h : signedMove e w = some v) (i : ℕ) :
    C.SignedInvariant S n v ∧ C.Frame S i w v := by
  cases e with
  | land request fate =>
    simp only [signedMove, Option.bind_eq_bind, Option.bind_eq_some_iff] at h
    obtain ⟨q, hq, _, open', h⟩ := h
    cases h
    exact land_step inv hq ((Option.guard_eq_some' _).mp open').1 fate i
  | expire key =>
    cases h
    exact expire_step inv (lasting key rfl) i

theorem start_frames (inv : C.SignedInvariant S n w) {p : SignedTask}
    (brought : ∀ data, p = .call data → S.brought data) (h : signedStart p w = some v) :
    C.SignedInvariant S (n + 1) v ∧ C.Frame S n w v ∧
      ∃ x, ((signedSystem C).body p).Follows (C.typestate S) Vouched x ∧ C.Knows S n x v := by
  cases p with
  | call data =>
    obtain ⟨inv', frame⟩ := call_start inv h
    exact ⟨inv', frame, .calling data, call_follows, brought data rfl⟩
  | submit task data =>
    obtain ⟨inv', frame, known⟩ := submit_start inv h
    exact ⟨inv', frame, .begun task data, submit_follows, known⟩

theorem signed_respects :
    (signedSystem C).Respects (C.typestate S) Vouched (Lasting S) where
  perform := fun _ inv _ known may h =>
    have progress := perform_progress inv known may h
    ⟨progress.1, progress.2.kept.1, progress.2.knows,
      fun _ _ hj => progress.2.kept.2.knows hj⟩
  move := fun lasting inv h =>
    have frames := move_frames inv (fun key he => lasting.1 key (he ▸ rfl)) h
    ⟨(frames 0).1, fun j _ => (frames (j + 1)).2.knows (Nat.ne_of_lt j.lt_succ_self)⟩
  start := fun lasting inv h =>
    have started := start_frames inv (fun data hp => lasting.2 data (hp ▸ rfl)) h
    ⟨started.1, started.2.2, fun _ _ hj => started.2.1.knows (Nat.ne_of_lt hj)⟩
  leave := fun _ inv => ⟨inv, trivial, fun _ _ _ known => known⟩
  restart := fun _ inv => restart_step inv
  cancelled := trivial

end AccountingClient

abbrev SignedPool := TaskPool SignedWorld SignedOp SignedOp.Reply SubmitError (Option Told)
abbrev SignedEvent := TaskEvent SignedAnswer SignedMove SignedTask
abbrev SignedEntry := TransactionMachine.Entry SignedPool SignedEvent (Option SignedOp)

/-- Before the first call: nothing is stored or submitted. -/
def freshSigned : SignedPool := ⟨⟨fun _ => none, [], fun _ => none, [], [], []⟩, []⟩

/-- With this event a caller of `_submit_signed` is told the outcome. -/
def Tells (e : SignedEntry) (data : Bytes) (outcome : Except SubmitError SubmissionResult) : Prop :=
  ∃ i c, e.input = .run i c ∧ e.after.tasks[i]? = some (.done (.ok (some ⟨data, outcome⟩)))

/-- Privana was told what became of the request, or that another one of the same
calldata was executed. -/
def OutcomeKnown (w : SignedWorld) (q : Request) : Prop :=
  q.answered = true ∨
    ∃ q' ∈ w.requests, q'.tx.data = q.tx.data ∧ q'.answered = true ∧ q'.fate = some .executed

/-- The requests of this process for a calldata whose replies are still awaited. -/
def inFlight (data : Bytes) (w : SignedWorld) : List (ℕ × ℕ) :=
  w.awaiting.filter fun p => w.requests[p.2]?.any fun q => q.tx.data = data

structure TruthfulOutcomes (C : AccountingClient) (data : Bytes) (es : List SignedEvent) : Prop where
  reverted : ∀ e ∈ (signedSystem C).machine.log freshSigned es,
    Tells e data (.error .transactionReverted) →
      ∀ q ∈ e.after.world.requests, q.tx.data = data → q.fate ≠ some .executed
  success : ∀ e ∈ (signedSystem C).machine.log freshSigned es, ∀ r, Tells e data (.ok r) →
    ∃ q ∈ e.after.world.requests, q.tx.data = data ∧ q.fate = some .executed
  durable : ∀ e ∈ (signedSystem C).machine.log freshSigned es, ∀ tx,
    e.output = some (signSubmit tx) → tx.data = data →
      Recorded .pending (C.keccak data) e.before.world
  covered : ∀ q ∈ ((signedSystem C).machine.run freshSigned es).world.requests, q.tx.data = data →
    Recorded .pending (C.keccak data) ((signedSystem C).machine.run freshSigned es).world ∨
      OutcomeKnown ((signedSystem C).machine.run freshSigned es).world q
  single : (inFlight data ((signedSystem C).machine.run freshSigned es).world).length ≤ 1
  final : ((signedSystem C).machine.log freshSigned es).Pairwise fun e e' =>
    ∀ r, Tells e data (.ok r) → ∀ tx, e'.output = some (signSubmit tx) → tx.data ≠ data

namespace AccountingClient

variable {C : AccountingClient} {S : SubmissionScope} {data : Bytes} {es : List SignedEvent}

theorem fresh_tracks : (C.typestate S).Tracks Vouched freshSigned fun _ => .ended where
  world := {
    started := rfl
    begun := by simp [freshSigned]
    once := by simp [freshSigned]
    filed := by simp [freshSigned]
    waiting := by simp [freshSigned]
    clean := fun _ _ _ => by simp [Clean, freshSigned]
    landed := fun _ _ h => by simp [Recorded, freshSigned] at h
    results := by simp [freshSigned]
    awaiting := by simp [freshSigned]
    single := by simp [freshSigned]
    nodup := List.nodup_nil
    made := by simp [freshSigned]
    asked := by simp [freshSigned] }
  tasks := by simp [freshSigned]

/-- A run in which a record lives and its key is the hash of one calldata only. -/
def scopeOf (C : AccountingClient) (data : Bytes) (es : List SignedEvent) : SubmissionScope where
  alive key := key = C.keccak data
  brought d := .start (.call d) ∈ es

theorem lasting_of_mem (lifetime : .move (.expire (C.keccak data)) ∉ es) {e : SignedEvent}
    (he : e ∈ es) (w : SignedWorld) : Lasting (scopeOf C data es) e w :=
  ⟨fun key h live => lifetime (by rw [← live, ← h]; exact he),
    fun d h => show TaskEvent.start (.call d) ∈ es from h ▸ he⟩

section
variable {s t : SignedPool} {phase : ℕ → SignedPhase}

/-- What vouches for a success or a revert that a caller is told. -/
theorem told {e : SignedEntry} (h : (C.typestate S).Tracks Vouched e.before phase)
    (step : TaskSystem.Step (signedSystem C) e.before e.input e.after e.output)
    {outcome : Except SubmitError SubmissionResult} (tells : Tells e data outcome) :
    ∃ i op r c, signedPerform i op c e.before.world = some (r, e.after.world) ∧
      C.May (phase i) op ∧ C.Knows S i (phase i) e.before.world ∧
      Vouched (.ok (some ⟨data, outcome⟩)) (next (phase i) op r) := by
  obtain ⟨i, c, hi, ended⟩ := tells
  rw [hi] at step
  obtain ⟨op, r, performed, may, known, vouched⟩ := step.ended h ended
    fun known may h' => (perform_progress h.world known may h').1
  exact ⟨i, op, r, c, performed, may, known, vouched⟩

theorem failed_of_next_absent {x : SignedPhase} {op : SignedOp}
    {r : Except SubmitError op.Reply} (h : next x op r = .absent data) : x = .failed data := by
  unfold next at h
  split at h
  case h_4 => rwa [SignedPhase.absent.injEq, ← SignedPhase.failed.injEq] at h
  all_goals first | cases h | (split at h <;> first | cases h | (split at h <;> cases h))

theorem absent_of_next {x : SignedPhase} {op : SignedOp} {r : Except SubmitError op.Reply}
    {i : ℕ} {c : SignedAnswer} {w v : SignedWorld} (may : C.May x op)
    (performed : signedPerform i op c w = some (r, v)) (h : next x op r = .absent data) :
    v.store (C.keccak data) = none := by
  obtain rfl := failed_of_next_absent h
  cases may
  cases c with
  | ok =>
    cases performed
    cases hs : w.store (C.keccak data) with
    | none => rfl
    | some call => simp [next, hs] at h
  | fails f => cases performed; cases h
  | reply => cases performed

theorem success_recorded {e : SignedEntry} (h : (C.typestate S).Tracks Vouched e.before phase)
    (step : TaskSystem.Step (signedSystem C) e.before e.input e.after e.output)
    (live : S.alive (C.keccak data)) {r : SubmissionResult} (tells : Tells e data (.ok r)) :
    Recorded .executed (C.keccak data) e.after.world := by
  obtain ⟨i, op, r', c, performed, may, known, vouched⟩ := told h step tells
  have knows := (perform_progress h.world known may performed).2.knows
  rw [show next (phase i) op r' = .succeeded data from vouched] at knows
  exact knows live

theorem pending_request (h : (C.typestate S).Tracks Vouched s phase) {e : SignedEvent} {tx : TxParams}
    (step : TaskSystem.Step (signedSystem C) s e t (some (signSubmit tx)))
    (live : S.alive (C.keccak tx.data)) : Recorded .pending (C.keccak tx.data) s.world := by
  cases step with
  | @run i c op next r w task performed =>
    obtain ⟨⟨may, -⟩, known⟩ := h.tasks i _ task
    generalize phase i = x at may known
    cases x with
    | ready task data first =>
      obtain ⟨tx', same, rfl⟩ := may
      cases same
      exact (known.2.2 live).1
    | executed task data => obtain ⟨id, same⟩ := may; cases same
    | finishing task data recorded => obtain ⟨result, same, -⟩ := may; cases same
    | ended => cases may
    | absent => cases may
    | succeeded => cases may
    | _ => cases may

/-- Only the holder of a key awaits replies under it, and one at a time. -/
theorem inFlight_single {n : ℕ} {w : SignedWorld} (inv : C.SignedInvariant S n w) :
    (inFlight data w).length ≤ 1 := by
  have same : ∀ p ∈ inFlight data w, ∀ p' ∈ inFlight data w, p = p' := by
    rintro ⟨i, q⟩ hp ⟨i', q'⟩ hp'
    obtain ⟨hp, hd⟩ := List.mem_filter.mp hp
    obtain ⟨hp', hd'⟩ := List.mem_filter.mp hp'
    obtain ⟨task, d, hold, r, hr, rfl⟩ := inv.awaiting i q hp
    obtain ⟨task', d', hold', r', hr', rfl⟩ := inv.awaiting i' q' hp'
    have hd : r.tx.data = data := by simpa [hr] using hd
    have hd' : r'.tx.data = data := by simpa [hr'] using hd'
    obtain rfl : i' = i := inv.holder hold hold' (by rw [hd, hd'])
    rw [inv.single i' q q' hp hp']
  have nodup : (inFlight data w).Nodup := inv.nodup.filter _
  match hl : inFlight data w with
  | [] => simp
  | [p] => simp
  | p :: p' :: rest =>
    rw [hl] at same nodup
    exact absurd (same p (by simp) p' (by simp)) fun h => by simp [h] at nodup

/-- An executed record of a live key stays. -/
theorem executed_stays (h : (C.typestate S).Tracks Vouched s phase) {e : SignedEvent}
    {o : Option SignedOp} (step : TaskSystem.Step (signedSystem C) s e t o)
    (lasting : Lasting S e s.world) {key : Bytes} (live : S.alive key)
    (executed : Recorded .executed key s.world) : Recorded .executed key t.world := by
  cases step with
  | @run i c op next r w task performed =>
    obtain ⟨⟨may, -⟩, known⟩ := h.tasks i _ task
    exact (perform_progress h.world known may performed).2.kept.2.executed key live executed
  | @move e w moved =>
    have frames := move_frames h.world (fun k he => lasting.1 k (he ▸ rfl)) moved 0
    exact frames.2.executed key live executed
  | @start p w started =>
    have frames := start_frames h.world (fun d hp => lasting.2 d (hp ▸ rfl)) started
    exact frames.2.1.executed key live executed
  | cancel => exact executed
  | restart => exact executed

end

section
variable (lifetime : .move (.expire (C.keccak data)) ∉ es)
include lifetime

theorem tracks_entry {e : SignedEntry} (he : e ∈ (signedSystem C).machine.log freshSigned es) :
    (∃ phase, (C.typestate (scopeOf C data es)).Tracks Vouched e.before phase) ∧
      TaskSystem.Step (signedSystem C) e.before e.input e.after e.output :=
  signed_respects.entry fresh_tracks es
    (fun _ he => lasting_of_mem lifetime ((signedSystem C).machine.input_mem_of_mem_log he) _) he

theorem revert_told {e : SignedEntry} (he : e ∈ (signedSystem C).machine.log freshSigned es)
    (tells : Tells e data (.error .transactionReverted)) :
    ∀ q ∈ e.after.world.requests, q.tx.data = data → q.fate ≠ some .executed := by
  obtain ⟨⟨phase, tracks⟩, step⟩ := tracks_entry lifetime he
  obtain ⟨i, op, r, c, performed, may, known, vouched⟩ := told tracks step tells
  have absent := absent_of_next may performed vouched
  have inv := (perform_progress tracks.world known may performed).2.kept.1
  intro q hq hd
  obtain ⟨k, hk⟩ := List.mem_iff_getElem?.mp hq
  have clean := inv.clean _ rfl absent k q hk (by simp) (by rw [hd])
  simp [clean.2]

/-- A success is told only when the record is there for good. -/
theorem recorded_run :
    (∃ phase, (C.typestate (scopeOf C data es)).Tracks Vouched
      ((signedSystem C).machine.run freshSigned es) phase) ∧
    (∀ e ∈ (signedSystem C).machine.log freshSigned es, ∀ r, Tells e data (.ok r) →
      Recorded .executed (C.keccak data)
        ((signedSystem C).machine.run freshSigned es).world) ∧
    ((signedSystem C).machine.log freshSigned es).Pairwise fun e e' =>
      ∀ r, Tells e data (.ok r) → Recorded .executed (C.keccak data) e'.before.world := by
  refine (signedSystem C).machine.run_induction_of_mem
    (I := fun l t => (∃ phase, (C.typestate (scopeOf C data es)).Tracks Vouched t phase) ∧
      (∀ e ∈ l, ∀ r, Tells e data (.ok r) → Recorded .executed (C.keccak data) t.world) ∧
      l.Pairwise fun e e' =>
        ∀ r, Tells e data (.ok r) → Recorded .executed (C.keccak data) e'.before.world)
    ⟨⟨_, fresh_tracks⟩, by simp, .nil⟩ es ?_
  rintro l t i t' o hi ⟨⟨phase, tracks⟩, recorded, pairs⟩ hx
  have step := TaskSystem.exec_step hx
  have lasting := lasting_of_mem lifetime hi t.world
  refine ⟨step.tracks signed_respects tracks lasting, fun e he r tells => ?_,
    List.pairwise_append.mpr ⟨pairs, List.pairwise_singleton _ _, ?_⟩⟩
  · rcases List.mem_append.mp he with he | he
    · exact executed_stays tracks step lasting rfl (recorded e he r tells)
    · obtain rfl := List.mem_singleton.mp he
      exact success_recorded tracks step rfl tells
  · intro e he e' he' r tells
    obtain rfl := List.mem_singleton.mp he'
    exact recorded e he r tells

end

end AccountingClient

theorem truthful_outcomes (C : AccountingClient) (data : Bytes) (es : List SignedEvent)
    (distinct : ∀ d, .start (.call d) ∈ es → C.keccak d = C.keccak data → d = data)
    (lifetime : .move (.expire (C.keccak data)) ∉ es) : TruthfulOutcomes C data es := by
  obtain ⟨⟨phase, tracks⟩, -, pairs⟩ := AccountingClient.recorded_run lifetime
  have inv := tracks.world
  refine ⟨fun e he => AccountingClient.revert_told lifetime he, fun e he r tells => ?_,
    fun e he tx ho hd => ?_, fun q hq hd => ?_, ?_, ?_⟩
  · obtain ⟨⟨phase', before⟩, step⟩ := AccountingClient.tracks_entry lifetime he
    obtain ⟨phase'', after⟩ := step.tracks AccountingClient.signed_respects before
      (AccountingClient.lasting_of_mem lifetime ((signedSystem C).machine.input_mem_of_mem_log he) _)
    have recorded := AccountingClient.success_recorded before step rfl tells
    obtain ⟨q, hq, hk, -, executed⟩ := after.world.landed _ rfl recorded
    exact ⟨q, hq, distinct _ (after.world.asked q hq) hk, executed⟩
  · obtain ⟨⟨phase', before⟩, step⟩ := AccountingClient.tracks_entry lifetime he
    rw [ho] at step
    subst hd
    exact AccountingClient.pending_request before step rfl
  · cases hs : ((signedSystem C).machine.run freshSigned es).world.store (C.keccak data) with
    | none =>
      obtain ⟨k, hk⟩ := List.mem_iff_getElem?.mp hq
      exact .inr (.inl (inv.clean _ rfl hs k q hk (by simp) (by rw [hd])).1)
    | some call =>
      cases hc : call.status with
      | pending => exact .inl ⟨call, hs, hc⟩
      | executed =>
        obtain ⟨q', hq', hk, known⟩ := inv.landed _ rfl ⟨call, hs, hc⟩
        exact .inr (.inr ⟨q', hq', (distinct _ (inv.asked q' hq') hk).trans hd.symm, known⟩)
  · exact AccountingClient.inFlight_single inv
  · refine pairs.imp_of_mem fun he he' recorded r tells tx ho hd => ?_
    obtain ⟨⟨phase', before⟩, step⟩ := AccountingClient.tracks_entry lifetime he'
    rw [ho] at step
    subst hd
    obtain ⟨call, hs, executed⟩ := recorded r tells
    obtain ⟨call', hs', pending⟩ := AccountingClient.pending_request before step rfl
    obtain rfl : call = call' := by simpa [hs] using hs'
    exact absurd (executed.symm.trans pending) (by simp)

def sampleClient : AccountingClient := ⟨0, 0, id, fun _ => "00"⟩

/-- The reply to an executed submission is lost, and the resend reverts. -/
def lostReplyResent : List SignedEvent :=
  [.start (.call [7]), .run 0 .ok, .start (.submit 0 [7]), .run 1 .ok, .run 1 .ok, .run 1 .ok,
    .move (.land 0 .executed), .run 1 (.fails .otherError), .run 1 .ok, .run 1 .ok, .run 0 .ok,
    .run 0 .ok, .start (.call [7]), .run 2 .ok, .start (.submit 1 [7]), .run 3 .ok, .run 3 .ok,
    .run 3 .ok, .move (.land 1 .reverted), .run 3 (.reply ⟨some (.ok ()), none⟩), .run 3 .ok,
    .run 3 .ok, .run 2 .ok, .run 2 .ok]

theorem truthful_outcomes_sample : TruthfulOutcomes sampleClient [7] lostReplyResent ∧
    ((signedSystem sampleClient).machine.run freshSigned lostReplyResent).world.requests.map
      (·.fate) = [some .executed, some .reverted] :=
  ⟨truthful_outcomes sampleClient [7] lostReplyResent (by simp [lostReplyResent])
    (by simp [lostReplyResent]), by decide⟩

end Privana
