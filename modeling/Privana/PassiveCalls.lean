import Privana.WithdrawalProcessor

/-! What the processor does on the side. Everything but signing, sending and the two
writes that follow a broadcast is passive: it proves no payment and makes none. -/

namespace Privana
open BigEndian Coroutine ServiceOp

/-- Neither signs nor sends, and writes nothing about a broadcast. -/
def ServiceOp.Passive : ServiceOp → Prop
  | .resolveWithdrawalCall _ | .sendRawTransaction .. | rememberBroadcast .. | raiseHighWaterMark .. =>
    False
  | _ => True

namespace PassiveCalls

theorem readBatches (n : ℕ) (indices : List ℕ) : (readBatches n indices).Uses Passive := by
  induction n generalizing indices with
  | zero => exact .result _
  | succ n ih =>
    unfold Privana.readBatches
    split
    · exact .result _
    · exact .bind (.await trivial) fun _ => .bind (ih _) fun _ => .result _

theorem readWithdrawals (indices : List ℕ) : (readWithdrawals indices).Uses Passive := by
  refine .bind (readBatches _ _) fun results => ?_
  dsimp only
  split
  · exact .bind (.raise _) fun _ => .result _
  · exact .result _

theorem indexFrom (count n start : ℕ) : (indexFrom count n start).Uses Passive := by
  induction n generalizing start with
  | zero => exact .result _
  | succ n ih =>
    unfold Privana.indexFrom
    split
    · exact .bind (readWithdrawals _) fun _ => .bind (.await trivial) fun _ => ih _
    · exact .result _

theorem refreshWithdrawalIndex : refreshWithdrawalIndex.Uses Passive := by
  refine .bind (.await trivial) fun count => .bind (.await trivial) fun scanned => ?_
  split
  · exact .result _
  · exact .bind (.await trivial) fun _ => .ensure (.bind (.await trivial) fun _ =>
      .bind (indexFrom _ _ _) fun _ => .result _) (.await trivial)

theorem collectUnresolved (resolved candidates : List ℕ) :
    (collectUnresolved resolved candidates).Uses Passive := by
  induction candidates with
  | nil => exact .result _
  | cons index candidates ih =>
    unfold Privana.collectUnresolved
    split
    · exact .bind (.await trivial) fun _ => ih
    · refine .bind (.await trivial) fun entry => .bind ih fun _ => ?_
      cases entry <;> exact .result _

theorem unresolvedWithdrawalEntries (user : Option Address) :
    (unresolvedWithdrawalEntries user).Uses Passive :=
  .bind refreshWithdrawalIndex fun _ => .bind (.await trivial) fun _ =>
    .bind (readWithdrawals _) fun _ => collectUnresolved _ _

theorem getTokenContext (tokenId : Bytes32) : (getTokenContext tokenId).Uses Passive := by
  refine .bind (.await trivial) fun cached => ?_
  cases cached with
  | some context => exact .result _
  | none =>
    refine .bind (.bind (.await trivial) fun info => ?_) fun _ =>
      .bind (.await trivial) fun _ => .result _
    split
    · exact .result _
    · exact .raise _

theorem withChains (currentBlock : ℕ) (pending : List PendingWithdrawal)
    (entries : List (ℕ × WithdrawalRequest)) :
    (withChains currentBlock pending entries).Uses Passive := by
  induction entries generalizing pending with
  | nil => exact .result _
  | cons p entries ih =>
    exact .bind (.except (.bind (getTokenContext _) fun _ => .result _) fun _ => .result _)
      fun _ => .bind (.await trivial) fun _ => ih _

theorem retrying {α : Type} {ok : ServiceOp → Prop} {call : Service α} (n : ℕ) (h : call.Uses ok) :
    (retrying n call).Uses ok := by
  induction n with
  | zero => exact h
  | succ n ih => exact .except h fun _ => ih

theorem rateLimitedCall {α : Type} {ok : ServiceOp → Prop} {call : Service α} (h : call.Uses ok) :
    (rateLimitedCall call).Uses ok := retrying 4 h

theorem getAllPendingWithdrawals : getAllPendingWithdrawals.Uses Passive :=
  .bind (.await trivial) fun _ => .bind (unresolvedWithdrawalEntries _) fun _ =>
    .bind (withChains _ _ _) fun _ => .result _

theorem readWithdrawal (index : ℕ) : (readWithdrawal index).Uses Passive := by
  refine .bind (.await trivial) fun results => ?_
  split
  · exact .result _
  · exact .raise _

theorem chainNonceState (chainId : U256) : (chainNonceState chainId).Uses Passive := by
  refine .bind (rateLimitedCall (.await trivial)) fun _ => .bind (.bind (.await trivial)
    fun cached => ?_) fun _ => .bind (.await trivial) fun _ =>
    .bind (rateLimitedCall (.await trivial)) fun _ =>
    .bind (rateLimitedCall (.await trivial)) fun _ => ?_
  · cases cached with
    | some address => exact .result _
    | none =>
      exact .bind (rateLimitedCall (.await trivial)) fun _ =>
        .bind (.await trivial) fun _ => .result _
  · split <;> exact .result _

theorem eligibleOnly (currentBlock : ℕ) (ws : List PendingWithdrawal) :
    (eligibleOnly currentBlock ws).Uses Passive := by
  induction ws with
  | nil => exact .result _
  | cons w ws ih =>
    refine .bind ?_ fun _ => .bind ih fun _ => .result _
    unfold eligible
    cases w.chainId with
    | none => exact .result _
    | some chainId => exact .bind (.await trivial) fun _ => .result _

theorem pendingByChain : pendingByChain.Uses Passive :=
  .except (.bind (rateLimitedCall getAllPendingWithdrawals) fun _ =>
    .bind (eligibleOnly _ _) fun _ => .result _) fun _ => .result _

theorem awaitResolution (index n : ℕ) : (awaitResolution index n).Uses Passive := by
  induction n with
  | zero => exact .result _
  | succ n ih =>
    refine .bind (rateLimitedCall (readWithdrawal _)) fun result => ?_
    split
    · exact .result _
    · exact ih

theorem resolveWithdrawalOnce (settings : ProcessorSettings) (index : ℕ) :
    (resolveWithdrawalOnce settings index).Uses Passive := by
  refine .bind (rateLimitedCall (readWithdrawal _)) fun result => ?_
  split
  · exact .result _
  · exact .bind (rateLimitedCall (.await trivial)) fun _ => awaitResolution _ _

theorem fetchReceipt (chainId : U256) (hash : Bytes32) : (fetchReceipt chainId hash).Uses Passive := by
  refine .bind (.await trivial) fun _ => .except (rateLimitedCall (.except
    (.bind (.await trivial) fun _ => .result _) fun e => ?_)) fun _ => .result _
  split
  · exact .result _
  · exact .raise _

theorem firstReceipt (chainId : U256) (candidates : List Bytes32) :
    (firstReceipt chainId candidates).Uses Passive := by
  induction candidates with
  | nil => exact .result _
  | cons candidate candidates ih =>
    refine .bind (fetchReceipt _ _) fun status => ?_
    cases status with
    | none => exact ih
    | some status => exact .result _

theorem findBroadcastTx (P : Platform) (chainId : U256) (index : ℕ) (signedTx : Bytes) :
    (findBroadcastTx P chainId index signedTx).Uses Passive := by
  refine .bind (.await trivial) fun remembered => .bind (firstReceipt _ _) fun decided => ?_
  cases decided with
  | some answer => exact .result _
  | none =>
    refine .bind (.await trivial) fun _ => .bind (.except (rateLimitedCall
      (.except (.await trivial) fun e => ?_)) fun _ => .result _) fun _ => .result _
    split
    · exact .result _
    · exact .raise _

end PassiveCalls

/-- A property of programs that holds of the passive ones and is kept by sequencing. -/
structure ProgramRules (K : ∀ {α : Type}, Service α → Prop) : Prop where
  passive : ∀ {α : Type} {p : Service α}, p.Uses Passive → K p
  bind : ∀ {α β : Type} {p : Service α} {f : α → Service β}, K p → (∀ a, K (f a)) → K (p >>= f)
  except : ∀ {α : Type} {p : Service α} {handler : ServiceError → Service α}, K p →
    (∀ e, K (handler e)) → K (p.except handler)

namespace ProgramRules

variable {K : ∀ {α : Type}, Service α → Prop} {P : Platform} {settings : ProcessorSettings}
  (rules : ProgramRules K)
  (missing : ∀ chainId targetNonces index, K (broadcastMissingEntry P chainId targetNonces index))

include rules

theorem result {α : Type} (a : α) : K (pure a : Service α) := rules.passive (.result a)

include missing

theorem broadcastMissing (chainId : U256) (targetNonces : Finset ℕ) (n : ℕ)
    (foundNonces : Finset ℕ) : K (broadcastMissing P chainId targetNonces n foundNonces) := by
  induction n generalizing foundNonces with
  | zero => exact rules.result _
  | succ index ih =>
    unfold Privana.broadcastMissing
    split
    · exact rules.result _
    · exact rules.bind (missing _ _ _) fun _ => ih _

theorem catchUpMissingBroadcasts (chainIds : List U256) :
    K (catchUpMissingBroadcasts P chainIds) := by
  induction chainIds with
  | nil => exact rules.result _
  | cons chainId chainIds ih =>
    refine rules.bind (rules.except (rules.bind (rules.passive (PassiveCalls.chainNonceState _))
      fun nonceState => ?_) fun _ => rules.result _) fun _ => ih
    split
    · exact rules.result _
    split
    · exact rules.result _
    unfold broadcastMissingForChain
    split
    · exact rules.result _
    refine rules.bind (rules.except (rules.passive (.map (PassiveCalls.rateLimitedCall
      (.await trivial)))) fun _ => rules.result _) fun total => ?_
    cases total with
    | some total => exact rules.broadcastMissing missing _ _ _ _
    | none => exact rules.result _

variable (resolve : ∀ q, K (resolveAndBroadcast P settings q))

include resolve

theorem processWithdrawals (chainId : U256) (ws : List PendingWithdrawal) :
    K (processWithdrawals P settings chainId ws) := by
  induction ws with
  | nil => exact rules.result _
  | cons q ws ih =>
    refine rules.bind (rules.passive (.await trivial)) fun running => ?_
    split
    · exact rules.result _
    · refine rules.bind (resolve q) fun paid => ?_
      split
      · exact ih
      · exact rules.catchUpMissingBroadcasts missing _

theorem processChains (byChain : List (U256 × List PendingWithdrawal)) :
    K (processChains P settings byChain) := by
  induction byChain with
  | nil => exact rules.result _
  | cons q byChain ih =>
    refine rules.bind (rules.passive (.await trivial)) fun running => ?_
    split
    · exact rules.result _
    · refine rules.bind (rules.bind (rules.except (rules.passive (PassiveCalls.chainNonceState _))
        fun _ => rules.result _) fun nonceState => ?_) fun _ => ih
      cases nonceState with
      | none => exact rules.result _
      | some _ => exact rules.processWithdrawals missing resolve _ _

theorem poll (pollCount : ℕ) : K (poll P settings pollCount) := by
  have polled : K (Privana.pendingByChain >>= Privana.processChains P settings) :=
    rules.bind (rules.passive PassiveCalls.pendingByChain) (rules.processChains missing resolve)
  unfold Privana.poll
  split
  · exact rules.bind (rules.catchUpMissingBroadcasts missing _) fun _ => polled
  · exact polled

theorem runPolls (polls pollCount : ℕ) : K (runPolls P settings polls pollCount) := by
  induction polls generalizing pollCount with
  | zero => exact rules.result _
  | succ polls ih =>
    refine rules.bind (rules.passive (.await trivial)) fun running => ?_
    split
    · exact rules.result _
    · exact rules.bind (rules.except (rules.poll missing resolve _) fun _ => rules.result _)
        fun _ => ih _

/-- The tasks of the process, given the two programs that send. -/
theorem body (task : ServiceTask) : K ((withdrawalSystem P settings).body task) := by
  cases task with
  | processor polls =>
    exact rules.bind (rules.catchUpMissingBroadcasts missing _) fun _ =>
      rules.runPolls missing resolve _ _
  | pendingWithdrawals user =>
    exact rules.passive (.bind (PassiveCalls.unresolvedWithdrawalEntries _) fun _ => .result _)

end ProgramRules

section Safe
variable {σ α : Type} {D : Discipline σ ServiceOp ServiceOp.Reply} {w : σ}
  {post : α → σ → Prop}

theorem retrying_safe {call : Service α} (n : ℕ) (hw : D.valid w)
    (h : ∀ v, D.grows w v → D.valid v → call.Safe D post v) : (retrying n call).Safe D post w := by
  induction n generalizing w with
  | zero => exact h w (D.refl w) hw
  | succ n ih =>
    exact Safe.except hw (h w (D.refl w) hw) fun e v g hv => ih hv fun u g' => h u (D.trans g g')

theorem rateLimitedCall_safe {call : Service α} (hw : D.valid w)
    (h : ∀ v, D.grows w v → D.valid v → call.Safe D post v) :
    (rateLimitedCall call).Safe D post w := retrying_safe 4 hw h

theorem rateLimitedCall_quiet {call : Service α} (h : call.Quiet D) :
    (rateLimitedCall call).Quiet D :=
  fun _ hw => rateLimitedCall_safe hw fun v _ hv => h v hv

/-- What lets a program learn that a withdrawal is resolved: nodes show no mark that is
not there, and marks stay. -/
structure ResolutionRules (D : Discipline σ ServiceOp ServiceOp.Reply) (Shown : ℕ → WithdrawalRequest → σ → Prop)
    (Resolved : ℕ → σ → Prop) : Prop where
  reads : ∀ index w, D.pre (withdrawals [index]) w
  submits : ∀ index w, D.pre (submitResolveWithdrawal index) w
  shown : ∀ {index r v}, D.told (withdrawals [index]) [r] v → Shown index r v
  later : ∀ {index r v u}, D.grows v u → Shown index r v → Shown index r u
  resolved : ∀ {index} {r : WithdrawalRequest} {v}, Shown index r v → r.resolved = true →
    Resolved index v
  stays : ∀ {index v u}, D.grows v u → Resolved index v → Resolved index u

variable {Shown : ℕ → WithdrawalRequest → σ → Prop} {Resolved : ℕ → σ → Prop}
  (rules : ResolutionRules D Shown Resolved) (index : ℕ)

include rules

theorem readWithdrawal_safe :
    (readWithdrawal index).Safe D (fun r v => Shown index r v) w := by
  refine Safe.await (fun v _ _ => rules.reads index v) fun results v _ _ told => ?_
  split
  · next result => exact Safe.result fun u g _ => rules.later g (rules.shown told)
  · exact Safe.raise _

theorem awaitResolution_safe (n : ℕ) (hw : D.valid w) :
    (awaitResolution index n).Safe D (fun done v => done = true → Resolved index v) w := by
  induction n generalizing w with
  | zero => exact Safe.result fun _ _ _ h => by cases h
  | succ n ih =>
    refine Safe.bind hw (rateLimitedCall_safe hw fun _ _ _ => readWithdrawal_safe rules index)
      fun result v _ hv shown => ?_
    split
    · next hr => exact Safe.result fun u g _ _ => rules.stays g (rules.resolved shown hr)
    · exact ih hv

theorem resolveWithdrawalOnce_safe (settings : ProcessorSettings) (hw : D.valid w) :
    (resolveWithdrawalOnce settings index).Safe D
      (fun done v => done = true → Resolved index v) w := by
  refine Safe.bind hw (rateLimitedCall_safe hw fun _ _ _ => readWithdrawal_safe rules index)
    fun result v _ hv shown => ?_
  split
  · next hr => exact Safe.result fun u g _ _ => rules.stays g (rules.resolved shown hr)
  · have submitted : (rateLimitedCall (await (submitResolveWithdrawal index))).Quiet D :=
      rateLimitedCall_quiet (.await (rules.submits index))
    exact Safe.bind hv (submitted v hv) fun _ u _ hu _ => awaitResolution_safe rules index _ hu

end Safe

end Privana
