import Privana.WithdrawalPoll

/-! The high-water mark of a chain skips no unresolved withdrawal, as long as no listing
goes on to a withdrawal of the chain after one whose token it could not read. Such an
entry is listed without its chain, so the poll pays the later one, and the mark of that
hides it for the life of the process. -/

namespace Privana
open BigEndian Coroutine ServiceOp

/-- Every unresolved withdrawal is above the mark of its chain. -/
def NeverSkips (w : ServiceWorld) : Prop :=
  ∀ c i, w.QueuedFor c i → ¬ w.Resolved i → ∀ m, w.chainHighWaterMark c = some m → m < i

abbrev ServicePool := TaskPool ServiceWorld ServiceOp ServiceOp.Reply ServiceError
abbrev ServiceEvent := TaskEvent Answer ServiceMove ServiceTask

/-- A listing puts in a withdrawal of chain `c` only if the token reads of the unresolved
withdrawals of `c` that it has put in before did not fail. -/
def ListsRead
    (e : TransactionMachine.Entry ServicePool ServiceEvent (Option ServiceOp)) : Prop :=
  ∀ pending j c, e.output = some (appendPending pending j (some c)) →
    ∀ i, (i, none) ∈ pending → e.before.world.QueuedFor c i → e.before.world.Resolved i

/-- The process at its start, with a freshly deployed contract. -/
def serviceStart (evm gasTank : Address × Bytes32) : ServicePool :=
  ⟨{ accounting := accountingInit evm gasTank }, []⟩

/-- The token infos a run registers, or tries to. -/
def infosOfEvents (es : List ServiceEvent) : Set TokenInfo :=
  {info | ∃ tx, TaskEvent.move (.transact tx) ∈ es ∧ tx.call = .setTokenInfo info}

variable {P : Platform} {infos : Set TokenInfo} {settings : ProcessorSettings}
  {w v : ServiceWorld}

/-- Here a withdrawal is handled when it is resolved on the contract. -/
def ResolvedAt (i : ℕ) (w : ServiceWorld) : Prop := w.Resolved i

def markDiscipline (P : Platform) (infos : Set TokenInfo) :
    Discipline ServiceWorld ServiceOp ServiceOp.Reply where
  valid w := ServiceValid P infos w ∧ MarksSettled id ResolvedAt w
  grows := ServiceGrows
  pre op w := servicePre op w ∧ pollPre id ResolvedAt op w
  told op r w := serviceTold op r w ∧ pollTold id ResolvedAt op r w
  refl := .refl
  trans := .trans

/-- The licence of a listing to go on. -/
def ReadsBefore (_ : ℕ) (op : ServiceOp) (w : ServiceWorld) : Prop :=
  ∀ pending j c, op = appendPending pending j (some c) →
    ∀ i, (i, none) ∈ pending → w.QueuedFor c i → w.Resolved i

section Marks

theorem Settled.grown (g : ServiceGrows w v) {c : U256} {i : ℕ}
    (h : Settled id ResolvedAt c i w) : Settled id ResolvedAt c i v :=
  h.imp (fun ⟨d, hd, hq⟩ => ⟨d, hd, g.queuedFor hq⟩) g.resolved

theorem MarksSettled.never_skips (h : MarksSettled id ResolvedAt w) : NeverSkips w := by
  intro c i hq hr m hm
  by_contra passed
  rcases h c m hm i (Nat.not_lt.mp passed) with ⟨d, hd, other⟩ | resolved
  · exact hd (other.unique hq)
  · exact hr resolved

theorem servicePerform_marked {task : ℕ} {op : ServiceOp} {answer : Answer}
    {r : Except ServiceError op.Reply} (valid : (markDiscipline P infos).valid w)
    (pre : (markDiscipline P infos).pre op w) (licence : ReadsBefore task op w)
    (h : servicePerform P task op answer w = some (r, v)) :
    (markDiscipline P infos).valid v ∧ ServiceGrows w v ∧
      ∀ a, r = .ok a → (markDiscipline P infos).told op a v := by
  obtain ⟨hv, hg, told⟩ := servicePerform_keeps valid.1 pre.1 h
  have marks : MarksSettled id ResolvedAt v :=
    valid.2.perform (fun h => h.grown hg) (servicePerform_marks h) pre.2
  refine ⟨⟨hv, marks⟩, hg, fun a ha => ⟨told a ha, ?_⟩⟩
  subst ha
  cases op with
  | highWaterMark c => exact fun m hm i hi => marks c m (highWaterMark_reply h ▸ hm) i hi
  | appendPending pending j chainId =>
    cases chainId with
    | none => trivial
    | some c =>
      obtain ⟨-, rfl⟩ := Prod.mk.inj (Option.some.inj h)
      intro i _ queued why
      rcases why with unread | ⟨-, resolved⟩
      · exact licence pending j c rfl i unread queued
      · exact resolved
  | _ => trivial

end Marks

section Programs

theorem mark_view : ServiceView id P infos (markDiscipline P infos) where
  valid h := h.1
  grows g := g
  pre {op w} passive pre := ⟨pre, by cases op <;> first | exact passive.elim | trivial⟩
  told h := h.1

theorem mark_resolution : ResolutionRules (markDiscipline P infos)
    (fun index r v => v.Shown index r) (fun index v => v.Resolved index) where
  reads _ _ := ⟨trivial, trivial⟩
  submits _ _ := ⟨trivial, trivial⟩
  shown {index r _} told := told.1.2 (index, r) (by simp)
  later g h := g.shown h
  resolved h := h.resolved
  stays g h := g.resolved h

theorem sent_quiet {α : Type} {op : ServiceOp} {f : op.Reply → Service α}
    (pre : ∀ w, (markDiscipline P infos).pre op w)
    (next : ∀ a, (f a).Quiet (markDiscipline P infos)) :
    (rateLimitedCall (await op) >>= f).Quiet (markDiscipline P infos) :=
  .bind (rateLimitedCall_quiet (.await pre)) next

theorem mark_findBroadcastTx (chainId : U256) (index : ℕ) (signedTx : Bytes) :
    (findBroadcastTx P chainId index signedTx).Quiet (markDiscipline P infos) :=
  mark_view.quiet (PassiveCalls.findBroadcastTx _ _ _ _) (findBroadcastTx_quiet _ _ _)

theorem mark_missing (chainId : U256) (targetNonces : Finset ℕ) (index : ℕ) :
    (broadcastMissingEntry P chainId targetNonces index).Quiet (markDiscipline P infos) := by
  unfold broadcastMissingEntry
  refine .bind (.except (.map (rateLimitedCall_quiet fun _ _ =>
    (readWithdrawal_safe mark_resolution index).imp fun _ _ _ _ _ => trivial))
    fun _ => .result _) fun read => ?_
  cases read with
  | none => exact .result _
  | some result =>
    dsimp only
    split
    · exact .result _
    split
    · exact .raise _
    split
    · exact .result _
    refine .bind (.except (.map (mark_view.quiet (PassiveCalls.getTokenContext _)
      (getTokenContext_quiet _))) fun _ => .result _) fun c => ?_
    split
    · exact .result _
    refine .bind (.await fun _ => ⟨trivial, trivial⟩) fun _ =>
      sent_quiet (fun _ => ⟨trivial, trivial⟩) fun signedTx => ?_
    exact .bind (.except (sent_quiet (fun _ => ⟨trivial, trivial⟩) fun hash =>
      .bind (.await fun _ => ⟨trivial, trivial⟩) fun _ => .result _) fun _ =>
        .bind (mark_findBroadcastTx _ _ _) fun _ => .result _) fun sent => .result _

theorem mark_broadcastPayout (chainId : U256) (index : ℕ) (signedTx : Bytes) :
    (broadcastPayout P chainId index signedTx).Quiet (markDiscipline P infos) := by
  refine .bind (.except (.map (rateLimitedCall_quiet (.await fun _ => ⟨trivial, trivial⟩)))
    fun _ => .result _) fun sent => ?_
  cases sent with
  | some hash => exact .bind (.await fun _ => ⟨trivial, trivial⟩) fun _ => .result _
  | none => exact .bind (mark_findBroadcastTx _ _ _) fun _ => .result _

theorem mark_resolve {c : U256} (hc : c ≠ 0) {x : PendingWithdrawal} (hx : x.chainId = some c)
    (hw : (markDiscipline P infos).valid w) (below : ∀ i < x.index, Settled id ResolvedAt c i w) :
    (resolveAndBroadcast P settings x).Safe (markDiscipline P infos)
      (fun done v => done = true → ResolvedAt x.index v) w := by
  simp only [resolveAndBroadcast, hx, if_neg hc]
  refine Safe.except hw ?_ fun _ _ _ _ => Safe.result fun _ _ _ h => by cases h
  refine Safe.bind hw (resolveWithdrawalOnce_safe mark_resolution x.index settings hw)
    fun done v g hv resolved => ?_
  cases done with
  | false => exact Safe.result fun _ _ _ h => by cases h
  | true =>
    have called : (rateLimitedCall (await (resolveWithdrawalCall x.index))).Quiet
        (markDiscipline P infos) := rateLimitedCall_quiet (.await fun _ => ⟨trivial, trivial⟩)
    refine Safe.bind hv (called v hv) fun signedTx u g' hu _ => ?_
    refine Safe.bind hu (mark_broadcastPayout _ _ _ u hu) fun paid t g'' ht _ => ?_
    cases paid with
    | false => exact Safe.result fun _ _ _ h => by cases h
    | true =>
      have later : ServiceGrows v t := g'.trans g''
      have settled : ∀ i ≤ x.index, Settled id ResolvedAt c i t :=
        settled_upto (fun i hi => (below i hi).grown (g.trans later)) (later.resolved (resolved rfl))
      refine Safe.await (fun s h _ => ⟨trivial, fun i hi => (settled i hi).grown h⟩)
        fun _ s h _ _ => ?_
      exact Safe.result fun r h' _ _ => h'.resolved (h.resolved (later.resolved (resolved rfl)))

theorem mark_rules : PollRules id ResolvedAt P infos settings (markDiscipline P infos) where
  toServiceView := mark_view
  handled g h := g.resolved h
  shows h := h.2
  missing := mark_missing
  resolve hw hc hx _ below := mark_resolve hc hx hw below

end Programs

section Runs

/-- What the process does of its own accord leaves the index and the marks alone. -/
theorem mark_frame (valid : (markDiscipline P infos).valid w)
    (kept : ServiceValid P infos v ∧ ServiceGrows w v)
    (marks : v.chainHighWaterMark = w.chainHighWaterMark) :
    (markDiscipline P infos).valid v ∧ (markDiscipline P infos).grows w v :=
  ⟨⟨kept.1, valid.2.frame (fun h => h.grown kept.2) marks⟩, kept.2⟩

/-- The processor and the requests keep the discipline. -/
theorem mark_keeps (inj : Set.InjOn (getTokenId P) infos) :
    ((withdrawalSystem P settings).licensed ReadsBefore).Keeps (markDiscipline P infos)
      (RegistersOnly infos) where
  perform valid pre h := by
    simp only [TaskSystem.licensed] at h
    split at h
    · next licence => exact servicePerform_marked valid pre licence h
    · cases h
  move allowed valid h :=
    mark_frame valid (serviceMove_keeps inj allowed valid.1 h) (serviceMove_marks h)
  start {task w v} valid h := by
    have frame : (markDiscipline P infos).valid v ∧ (markDiscipline P infos).grows w v := by
      cases task with
      | processor polls =>
        simp only [TaskSystem.licensed, withdrawalSystem] at h
        split at h
        · cases h
        · obtain rfl := Option.some.inj h
          exact mark_frame valid (valid.1.frame rfl rfl rfl rfl rfl rfl) rfl
      | pendingWithdrawals user =>
        obtain rfl := Option.some.inj h
        exact mark_frame valid ⟨valid.1, .refl _⟩ rfl
    exact ⟨frame.1, frame.2, serviceTask_quiet mark_rules task v frame.1⟩
  leave {task w} valid := by
    simp only [TaskSystem.licensed, withdrawalSystem]
    split
    · exact mark_frame valid (valid.1.frame rfl rfl rfl rfl rfl rfl) rfl
    · exact mark_frame valid ⟨valid.1, .refl _⟩ rfl
  restart valid := ⟨restarted_valid valid.1, fun c m hm => by cases hm⟩
  cancelled _ := trivial

theorem serviceStart_holds (evm gasTank : Address × Bytes32) :
    (markDiscipline P infos).Holds (serviceStart evm gasTank) where
  valid :=
    ⟨{ queue := .init evm gasTank
       past := fun _ h => (List.not_mem_nil h).elim
       blocks := List.Pairwise.nil
       latest := fun _ h => (List.not_mem_nil h).elim
       entries := fun _ h => (List.not_mem_nil h).elim
       filled := fun _ h => (List.not_mem_nil h).elim
       scanned := fun _ h => (Nat.not_lt_zero _ h).elim
       contexts := fun _ _ h => by cases h },
      fun _ _ h => by cases h⟩
  tasks _ h := (List.not_mem_nil h).elim

end Runs

/-- The marks of a run never skip an unresolved withdrawal if no listing of the run goes on
to a withdrawal of a chain after the token read of an unresolved one has failed. The
assumption is that the token infos of the run do not collide under `getTokenId`. -/
theorem high_water_mark (P : Platform) (settings : ProcessorSettings)
    (evm gasTank : Address × Bytes32) (es : List ServiceEvent)
    (inj : Set.InjOn (getTokenId P) (infosOfEvents es))
    (read : ∀ e ∈ (withdrawalSystem P settings).machine.log (serviceStart evm gasTank) es,
      ListsRead e) :
    ∀ js, js <+: es →
      NeverSkips ((withdrawalSystem P settings).machine.run (serviceStart evm gasTank) js).world := by
  intro js hjs
  have licensed : TaskSystem.Licensed (withdrawalSystem P settings) ReadsBefore
      (serviceStart evm gasTank) js := by
    intro e he task c op hin ho pending j chain hop
    subst hop
    exact read e ((withdrawalSystem P settings).machine.mem_log_of_prefix hjs he) pending j chain ho
  have holds : (markDiscipline P (infosOfEvents es)).Holds
      ((withdrawalSystem P settings).machine.run (serviceStart evm gasTank) js) := by
    rw [← (TaskSystem.run_licensed licensed).1]
    refine (mark_keeps inj).run (serviceStart_holds evm gasTank) js fun x hx tx _ he hc => ?_
    exact ⟨tx, he ▸ hjs.subset hx, hc⟩
  exact holds.valid.2.never_skips

def sampleSettings : ProcessorSettings := ⟨[84532], 5⟩

def sampleRuns (answers : List Answer) : List ServiceEvent := answers.map (.run 0)

def sampleCall (blockNumber : U256) (c : Call) : ServiceEvent :=
  .move (.transact ⟨⟨sampleUser, true, blockNumber, 1700000000⟩, c⟩)

/-- Two withdrawals of one token are queued, and a poll has read their entries. -/
def sampleListed (polls : ℕ) : List ServiceEvent :=
  let now : Answer := .node 0
  [.start (.processor polls)] ++
    -- the catch-up pass finds no signed withdrawal
    sampleRuns [now, now, now, now, .number 0, .number 0, .number 0] ++
    [sampleCall 1 (.setTokenInfo sampleToken), sampleCall 1 (.setGasPrice 84532 1000000000),
      sampleCall 2 (.creditDeposit sampleUser sampleTokenId 10 7),
      sampleCall 3 (.requestWithdrawal sampleTokenId 4 0 sampleSignature),
      sampleCall 3 (.requestWithdrawal sampleTokenId 4 1 sampleNextSignature)] ++
    sampleRuns ([now, .number 4] ++ List.replicate 11 now)

/-- The poll fails to read the token for the first of them, reads it for the second, and
pays the second. -/
def sampleQueueEvents : List ServiceEvent :=
  let now : Answer := .node 0
  sampleListed 1 ++
    -- the token contexts: one failure, one success
    sampleRuns [now, .fail, now, now, now, now, now] ++
    -- the mark, the nonce check of the chain, and the second withdrawal
    sampleRuns [now, now, now, now, .number 0, .number 0, .number 0, now, now, .number 0] ++
    [sampleCall 4 (.resolveWithdrawal 1)] ++
    sampleRuns [now, now,
      .hash 0x8233ff68eba54ee85c87bdfc008602a38bf5dfc474e8a8a8216e81f0c6506c88, now, now]

/-- Where the sample run ends: the first withdrawal is hidden and not resolved. -/
def sampleQueueEnd : ServiceWorld :=
  ((withdrawalSystem sampleQueuePlatform sampleSettings).machine.run
    (serviceStart sampleEvm sampleGasTank) sampleQueueEvents).world

theorem sampleQueueEnd_first : ∃ r ∈ sampleQueueEnd.accounting.withdrawals[0]?,
    r.resolved = false ∧ tokenTarget (sampleQueueEnd.accounting.tokens r.tokenId) =
      some (84532, some 0x036cbd53842c5426634e7929541ec2318f3dcf7e) := by
  decide +kernel

theorem sampleQueueEnd_mark : sampleQueueEnd.chainHighWaterMark 84532 = some 1 := by
  decide +kernel

/-- A later withdrawal of the chain moves the mark past the first one, whose token the
poll could not read. -/
theorem high_water_mark_skips : ¬ ∀ js, js <+: sampleQueueEvents →
    NeverSkips ((withdrawalSystem sampleQueuePlatform sampleSettings).machine.run
      (serviceStart sampleEvm sampleGasTank) js).world := by
  intro skips
  have never : NeverSkips sampleQueueEnd := skips sampleQueueEvents (List.prefix_refl _)
  obtain ⟨r, hr, hres, ht⟩ := sampleQueueEnd_first
  refine absurd (never 84532 0 ⟨r, _, hr, ht⟩ ?_ 1 sampleQueueEnd_mark) (by omega)
  rintro ⟨r', hr', hres'⟩
  obtain rfl := Option.some.inj (hr.symm.trans hr')
  rw [hres] at hres'
  cases hres'

/-- The first poll reads no token. The second reads it for both withdrawals, and pays them. -/
def sampleReadEvents : List ServiceEvent :=
  let now : Answer := .node 0
  sampleListed 2 ++
    sampleRuns [now, .fail, now, now, .fail, now] ++
    -- the second listing, with the token contexts and the marks
    sampleRuns ([now, .number 4] ++ List.replicate 14 now) ++
    -- the nonce check of the chain, and the first withdrawal
    sampleRuns [now, now, now, .number 0, .number 0, .number 0, now, now, .number 0] ++
    [sampleCall 4 (.resolveWithdrawal 0)] ++ sampleRuns [now, now, .hash 0, now, now] ++
    -- the second withdrawal
    sampleRuns [now, now, .number 0] ++
    [sampleCall 4 (.resolveWithdrawal 1)] ++ sampleRuns [now, now, .hash 0, now, now]

theorem infosOf_sampleReadEvents : infosOfEvents sampleReadEvents ⊆ {sampleToken} := by
  rintro info ⟨tx, htx, he⟩
  simp only [sampleReadEvents, sampleListed, sampleRuns, sampleCall, List.map_cons, List.map_nil,
    List.cons_append, List.nil_append, List.replicate_succ, List.replicate_zero, List.mem_cons,
    reduceCtorEq, TaskEvent.move.injEq, ServiceMove.transact.injEq, false_or, or_false,
    List.not_mem_nil] at htx
  rcases htx with rfl | rfl | rfl | rfl | rfl | rfl | rfl <;> cases he
  rfl

/-- The operation puts in an entry with its chain after one without. -/
def skipsUnread : Option ServiceOp → Bool
  | some (appendPending pending _ (some _)) => pending.any (·.2.isNone)
  | _ => false

theorem ListsRead.of_read
    {e : TransactionMachine.Entry ServicePool ServiceEvent (Option ServiceOp)}
    (read : skipsUnread e.output = false) : ListsRead e := by
  intro pending j c output i unread
  rw [output, skipsUnread, List.any_eq_false] at read
  exact absurd rfl (read _ unread)

theorem high_water_mark_sample :
    (∀ js, js <+: sampleReadEvents →
      NeverSkips ((withdrawalSystem sampleQueuePlatform sampleSettings).machine.run
        (serviceStart sampleEvm sampleGasTank) js).world) ∧
    ((withdrawalSystem sampleQueuePlatform sampleSettings).machine.run
      (serviceStart sampleEvm sampleGasTank) sampleReadEvents).world.chainHighWaterMark 84532 =
        some 1 := by
  refine ⟨high_water_mark sampleQueuePlatform sampleSettings sampleEvm sampleGasTank
    sampleReadEvents ((Set.subsingleton_singleton.anti infosOf_sampleReadEvents).injOn _)
    fun e he => .of_read ?_, by decide +kernel⟩
  have read : ∀ e ∈ (withdrawalSystem sampleQueuePlatform sampleSettings).machine.log
      (serviceStart sampleEvm sampleGasTank) sampleReadEvents, skipsUnread e.output = false := by
    decide +kernel
  exact read e he

end Privana
