import Privana.PassiveCalls
import Privana.WithdrawalListing

/-! One poll of the processor. It takes the withdrawals of a chain in index order and
stops at the first it cannot pay, so whatever lies below a paid one is settled;
everything else a poll does needs nothing and promises nothing. What it means that a
withdrawal is handled is left open: it may be that it is resolved on the contract, or
that its transaction is out. -/

namespace Privana
open BigEndian Coroutine ServiceOp

variable {P : Platform} {infos : Set TokenInfo} {settings : ProcessorSettings} {w : ServiceWorld}

section Quiet

theorem getEvmAddress_quiet : getEvmAddress.Quiet (serviceDiscipline P infos) := by
  refine .bind (.await fun _ => trivial) fun cached => ?_
  cases cached with
  | some address => exact .result _
  | none =>
    exact .bind (rateLimitedCall_quiet (.await fun _ => trivial)) fun _ =>
      .bind (.await fun _ => trivial) fun _ => .result _

theorem chainNonceState_quiet (chainId : U256) :
    (chainNonceState chainId).Quiet (serviceDiscipline P infos) := by
  refine .bind (rateLimitedCall_quiet (.await fun _ => trivial)) fun _ =>
    .bind getEvmAddress_quiet fun _ => .bind (.await fun _ => trivial) fun _ =>
    .bind (rateLimitedCall_quiet (.await fun _ => trivial)) fun _ =>
    .bind (rateLimitedCall_quiet (.await fun _ => trivial)) fun _ => ?_
  split <;> exact .result _

theorem fetchReceipt_quiet (chainId : U256) (hash : Bytes32) :
    (fetchReceipt chainId hash).Quiet (serviceDiscipline P infos) := by
  refine .bind (.await fun _ => trivial) fun _ =>
    .except (rateLimitedCall_quiet (.except (.bind (.await fun _ => trivial) fun _ => .result _)
      fun e => ?_)) fun _ => .result _
  split
  · exact .result _
  · exact .raise _

theorem firstReceipt_quiet (chainId : U256) (candidates : List Bytes32) :
    (firstReceipt chainId candidates).Quiet (serviceDiscipline P infos) := by
  induction candidates with
  | nil => exact .result _
  | cons candidate candidates ih =>
    refine .bind (fetchReceipt_quiet _ _) fun status => ?_
    cases status with
    | none => exact ih
    | some status => exact .result _

theorem findBroadcastTx_quiet (chainId : U256) (index : ℕ) (signedTx : Bytes) :
    (findBroadcastTx P chainId index signedTx).Quiet (serviceDiscipline P infos) := by
  refine .bind (.await fun _ => trivial) fun remembered =>
    .bind (firstReceipt_quiet _ _) fun decided => ?_
  cases decided with
  | some answer => exact .result _
  | none =>
    refine .bind (.await fun _ => trivial) fun _ => .bind (.except (rateLimitedCall_quiet
      (.except (.await fun _ => trivial) fun e => ?_)) fun _ => .result _) fun _ => .result _
    split
    · exact .result _
    · exact .raise _

end Quiet

theorem chainsOf_ne_zero {ws : List PendingWithdrawal} {seen : List U256} {c : U256}
    (seen_ne : ∀ d ∈ seen, d ≠ 0) (h : c ∈ chainsOf ws seen) : c ≠ 0 := by
  induction ws generalizing seen with
  | nil => exact seen_ne c h
  | cons w ws ih =>
    unfold chainsOf at h
    split at h
    · next d _ =>
      refine ih (fun e he => ?_) h
      split at he
      · exact seen_ne e he
      · next hd =>
        rcases List.mem_append.mp he with he | he
        · exact seen_ne e he
        · obtain rfl := List.mem_singleton.mp he
          exact fun h0 => hd (.inl h0)
    · exact ih seen_ne h

/-- The queue is in the order of its blocks. -/
theorem ServiceValid.block_le (h : ServiceValid P infos w) {i j : ℕ} {r s : WithdrawalRequest}
    (hi : w.Shown i r) (hj : w.Shown j s) (hij : i < j) :
    r.blockNumber.toNat ≤ s.blockNumber.toNat := by
  obtain ⟨r', hr', hcr, -⟩ := hi
  obtain ⟨s', hs', hcs, -⟩ := hj
  obtain ⟨hli, rfl⟩ := List.getElem?_eq_some_iff.mp hr'
  obtain ⟨hlj, rfl⟩ := List.getElem?_eq_some_iff.mp hs'
  have hblocks := List.pairwise_iff_getElem.mp (List.pairwise_map.mp h.blocks) i j hli hlj hij
  have hbr := congrArg WithdrawalRequest.blockNumber hcr
  have hbs := congrArg WithdrawalRequest.blockNumber hcs
  simp only [WithdrawalRequest.core] at hbr hbs
  rwa [hbr, hbs] at hblocks

section View

variable {σ : Type} (service : σ → ServiceWorld)

/-- A discipline of a world around the service. -/
structure ServiceView (P : Platform) (infos : Set TokenInfo)
    (D : Discipline σ ServiceOp ServiceOp.Reply) : Prop where
  valid : ∀ {w}, D.valid w → ServiceValid P infos (service w)
  grows : ∀ {w v}, D.grows w v → ServiceGrows (service w) (service v)
  pre : ∀ {op w}, op.Passive → servicePre op (service w) → D.pre op w
  told : ∀ {op r w}, D.told op r w → serviceTold op r (service w)

variable {service} {D : Discipline σ ServiceOp ServiceOp.Reply}
  (view : ServiceView service P infos D) {w : σ} {α : Type} {p : Service α}
include view

theorem ServiceView.carry {post : α → ServiceWorld → Prop} (uses : p.Uses Passive)
    (h : p.Safe (serviceDiscipline P infos) post (service w)) :
    p.Safe D (fun a v => post a (service v)) w :=
  .transfer (fun h => view.valid h) (fun g => view.grows g)
    (fun passive pre => view.pre passive pre) (fun told => view.told told) uses h

theorem ServiceView.quiet (uses : p.Uses Passive) (h : p.Quiet (serviceDiscipline P infos)) :
    p.Quiet D :=
  fun w hw => (view.carry uses (h (service w) (view.valid hw))).imp fun _ _ _ _ _ => trivial

end View

section Marks
variable {w v : ServiceWorld}

theorem memoryAccess_marks {task : ℕ} {op : ServiceOp} {a : op.Reply}
    (h : memoryAccess task w op = some (a, v)) :
    v.chainHighWaterMark = w.chainHighWaterMark ∨
      ∃ c j, op = raiseHighWaterMark c j ∧ v = w.raiseHighWaterMark c j := by
  cases memoryAccess_step h with
  | raiseHighWaterMark c j => exact .inr ⟨c, j, rfl, rfl⟩
  | _ => exact .inl rfl

theorem servicePerform_marks {task : ℕ} {op : ServiceOp} {answer : Answer}
    {r : Except ServiceError op.Reply} (h : servicePerform P task op answer w = some (r, v)) :
    v.chainHighWaterMark = w.chainHighWaterMark ∨
      ∃ c j, op = raiseHighWaterMark c j ∧ v = w.raiseHighWaterMark c j := by
  rcases servicePerform_cases h with ⟨a, hm, -⟩ | ⟨rfl, -⟩
  · exact memoryAccess_marks hm
  · exact .inl rfl

/-- Reading a mark tells what it is. -/
theorem highWaterMark_reply {task : ℕ} {c : U256} {answer : Answer} {mark : Option ℕ}
    (h : servicePerform P task (highWaterMark c) answer w = some (.ok mark, v)) :
    mark = v.chainHighWaterMark c := by
  rcases servicePerform_cases h with ⟨a, hm, ha⟩ | ⟨-, told⟩
  · obtain ⟨rfl, rfl⟩ := Prod.mk.inj (Option.some.inj hm)
    exact Except.ok.inj ha
  · cases h
    rfl

/-- A raised mark is the index, or what it was before. -/
theorem raiseHighWaterMark_le {c d : U256} {j m i : ℕ}
    (hm : (w.raiseHighWaterMark c j).chainHighWaterMark d = some m) (hi : i ≤ m) :
    (d = c ∧ i ≤ j) ∨ ∃ n, w.chainHighWaterMark d = some n ∧ i ≤ n := by
  simp only [ServiceWorld.raiseHighWaterMark, Function.update_apply] at hm
  split at hm
  · next hd =>
    subst hd
    cases hn : w.chainHighWaterMark d with
    | none =>
      obtain rfl : j = m := by simpa [hn] using hm
      exact .inl ⟨rfl, hi⟩
    | some n =>
      obtain rfl : max j n = m := by simpa [hn] using hm
      exact (le_max_iff.mp hi).imp (⟨rfl, ·⟩) fun hle => ⟨n, rfl, hle⟩
  · exact .inr ⟨m, hm, hi⟩

theorem serviceMove_marks {e : ServiceMove} {w v : ServiceWorld} (h : serviceMove P w e = some v) :
    v.chainHighWaterMark = w.chainHighWaterMark := by
  cases serviceMove_step h <;> rfl

end Marks

section Poll

variable {σ : Type} (service : σ → ServiceWorld) (Handled : ℕ → σ → Prop)

/-- On chain `c` nothing is left to do about withdrawal `i`: it belongs to another chain,
or it is handled. -/
def Settled (c : U256) (i : ℕ) (w : σ) : Prop :=
  (∃ d, d ≠ c ∧ (service w).QueuedFor d i) ∨ Handled i w

/-- The mark of a chain passes settled withdrawals only. -/
def MarksSettled (w : σ) : Prop :=
  ∀ c m, (service w).chainHighWaterMark c = some m → ∀ i ≤ m, Settled service Handled c i w

def pollPre : ServiceOp → σ → Prop
  | raiseHighWaterMark c j, w => ∀ i ≤ j, Settled service Handled c i w
  | _, _ => True

/-- A listing that goes on to withdrawal `j` of chain `c` has handled what it has put in
without a chain, and what is resolved and not in it. -/
def pollTold : (op : ServiceOp) → op.Reply → σ → Prop
  | highWaterMark c, mark, w => ∀ m, mark = some m → ∀ i ≤ m, Settled service Handled c i w
  | appendPending pending j (some c), _, w => ∀ i < j, (service w).QueuedFor c i →
    (i, none) ∈ pending ∨ i ∉ pending.map Prod.fst ∧ (service w).Resolved i → Handled i w
  | _, _, _ => True

/-- What a discipline says for a poll. -/
structure PollRules (P : Platform) (infos : Set TokenInfo) (settings : ProcessorSettings)
    (D : Discipline σ ServiceOp ServiceOp.Reply) : Prop extends ServiceView service P infos D where
  handled : ∀ {w v i}, D.grows w v → Handled i w → Handled i v
  shows : ∀ {op r w}, D.told op r w → pollTold service Handled op r w
  missing : ∀ chainId targetNonces index,
    (broadcastMissingEntry P chainId targetNonces index).Quiet D
  resolve : ∀ {w c x}, D.valid w → c ≠ 0 → x.chainId = some c →
    (service w).QueuedFor c x.index → (∀ i < x.index, Settled service Handled c i w) →
    (resolveAndBroadcast P settings x).Safe D (fun done v => done = true → Handled x.index v) w

section Kept
variable {service Handled} {w v : σ}

theorem settled_upto {c : U256} {j : ℕ} (below : ∀ i < j, Settled service Handled c i w)
    (handled : Handled j w) : ∀ i ≤ j, Settled service Handled c i w := by
  intro i hi
  rcases Nat.lt_or_eq_of_le hi with lt | rfl
  · exact below i lt
  · exact .inr handled

theorem MarksSettled.frame (h : MarksSettled service Handled w)
    (settled : ∀ {c i}, Settled service Handled c i w → Settled service Handled c i v)
    (marks : (service v).chainHighWaterMark = (service w).chainHighWaterMark) :
    MarksSettled service Handled v :=
  fun c m hm i hi => settled (h c m (marks ▸ hm) i hi)

/-- A mark is raised past settled withdrawals. -/
theorem MarksSettled.perform (h : MarksSettled service Handled w) {op : ServiceOp}
    (settled : ∀ {c i}, Settled service Handled c i w → Settled service Handled c i v)
    (changed : (service v).chainHighWaterMark = (service w).chainHighWaterMark ∨
      ∃ c j, op = raiseHighWaterMark c j ∧ service v = (service w).raiseHighWaterMark c j)
    (pre : pollPre service Handled op w) : MarksSettled service Handled v := by
  rcases changed with same | ⟨c, j, rfl, raised⟩
  · exact h.frame settled same
  · intro d m hm i hi
    rcases raiseHighWaterMark_le (raised ▸ hm) hi with ⟨rfl, hj⟩ | ⟨n, hn, hle⟩
    · exact settled (pre i hj)
    · exact settled (h d n hn i hle)

end Kept

variable {service Handled} {D : Discipline σ ServiceOp ServiceOp.Reply}
  (rules : PollRules service Handled P infos settings D) {w v : σ}
include rules

theorem PollRules.settled (g : D.grows w v) {c : U256} {i : ℕ}
    (h : Settled service Handled c i w) : Settled service Handled c i v :=
  h.imp (fun ⟨d, hd, hq⟩ => ⟨d, hd, (rules.grows g).queuedFor hq⟩) (rules.handled g)

section Listing

/-- A listing, or the part of it that is there: every entry is queued for its chain, and
what lies below it is settled, or listed for the same chain. -/
structure ListingOf (service : σ → ServiceWorld) (Handled : ℕ → σ → Prop) (w : σ)
    (pending : List PendingWithdrawal) : Prop where
  entry : ∀ x ∈ pending, ∃ r, (service w).Shown x.index r ∧ x.blockNumber = r.blockNumber
  queued : ∀ x ∈ pending, ∀ c, x.chainId = some c → (service w).QueuedFor c x.index
  below : ∀ x ∈ pending, ∀ c, x.chainId = some c → ∀ i < x.index,
    Settled service Handled c i w ∨ ∃ y ∈ pending, y.index = i ∧ y.chainId = some c

theorem ListingOf.later (g : D.grows w v) {pending : List PendingWithdrawal}
    (h : ListingOf service Handled w pending) : ListingOf service Handled v pending where
  entry x hx := (h.entry x hx).imp fun _ hr => hr.imp_left (rules.grows g).shown
  queued x hx c hc := (rules.grows g).queuedFor (h.queued x hx c hc)
  below x hx c hc i hi := (h.below x hx c hc i hi).imp_left (rules.settled g)

theorem ListingOf.append (hw : D.valid w) {pending : List PendingWithdrawal}
    (h : ListingOf service Handled w pending) {x : PendingWithdrawal}
    (entry : ∃ r, (service w).Shown x.index r ∧ x.blockNumber = r.blockNumber)
    (queued : ∀ c, x.chainId = some c → (service w).QueuedFor c x.index)
    (complete : ∀ i < x.index, i ∈ pending.map PendingWithdrawal.index ∨ (service w).Resolved i)
    (told : ∀ c, x.chainId = some c → ∀ i < x.index, (service w).QueuedFor c i →
      (i, none) ∈ pending.map (fun y => (y.index, y.chainId)) ∨
        i ∉ (pending.map fun y => (y.index, y.chainId)).map Prod.fst ∧ (service w).Resolved i →
      Handled i w) :
    ListingOf service Handled w (pending ++ [x]) where
  entry y hy := by
    rcases List.mem_append.mp hy with hy | hy
    · exact h.entry y hy
    · obtain rfl := List.mem_singleton.mp hy
      exact entry
  queued y hy := by
    rcases List.mem_append.mp hy with hy | hy
    · exact h.queued y hy
    · obtain rfl := List.mem_singleton.mp hy
      exact queued
  below y hy c hc i hi := by
    rcases List.mem_append.mp hy with hy | hy
    · exact (h.below y hy c hc i hi).imp_right fun ⟨z, hz, he⟩ => ⟨z, List.mem_append_left _ hz, he⟩
    obtain rfl := List.mem_singleton.mp hy
    have other {d : U256} (hd : d ≠ c) (hq : (service w).QueuedFor d i) :
        Settled service Handled c i w := .inl ⟨d, hd, hq⟩
    have indices : (pending.map fun y => (y.index, y.chainId)).map Prod.fst =
        pending.map PendingWithdrawal.index := by rw [List.map_map]; rfl
    by_cases mem : i ∈ pending.map PendingWithdrawal.index
    · obtain ⟨z, hz, rfl⟩ := List.mem_map.mp mem
      obtain ⟨r, shown, -⟩ := h.entry z hz
      obtain ⟨d, hd⟩ := (rules.valid hw).queued shown
      by_cases same : d = c
      · subst same
        cases hzc : z.chainId with
        | none =>
          refine .inl (.inr (told d hc _ hi hd (.inl ?_)))
          exact List.mem_map.mpr ⟨z, hz, by rw [hzc]⟩
        | some e =>
          obtain rfl := (h.queued z hz e hzc).unique hd
          exact .inr ⟨z, List.mem_append_left _ hz, rfl, hzc⟩
      · exact .inl (other same hd)
    · have resolved := (complete i hi).resolve_left mem
      obtain ⟨r, hr, -⟩ := id resolved
      obtain ⟨d, hd⟩ := (rules.valid hw).queued ⟨r, hr, rfl, id⟩
      by_cases same : d = c
      · subst same
        exact .inl (.inr (told d hc i hi hd (.inr ⟨by rwa [indices], resolved⟩)))
      · exact .inl (other same hd)

theorem withChains_safe (currentBlock : ℕ) (pending : List PendingWithdrawal)
    (entries : List (ℕ × WithdrawalRequest)) (hw : D.valid w)
    (listed : ListingOf service Handled w pending)
    (shown : ∀ p ∈ entries, (service w).Shown p.1 p.2)
    (sorted : (entries.map Prod.fst).Pairwise (· ≤ ·))
    (complete : Complete (service w)
      (pending.map PendingWithdrawal.index ++ entries.map Prod.fst)) :
    (withChains currentBlock pending entries).Safe D
      (fun pending v => ListingOf service Handled v pending) w := by
  induction entries generalizing w pending with
  | nil => exact Safe.result fun v g _ => listed.later rules g
  | cons p entries ih =>
    have context : (destinationChain p).Safe D
        (fun chainId v => ∀ c, chainId = some c → (service v).QueuedFor c p.1) w :=
      rules.carry (.except (.bind (PassiveCalls.getTokenContext _) fun _ => .result _)
        fun _ => .result _) (destinationChain_safe p (rules.valid hw) (shown p List.mem_cons_self))
    refine Safe.bind hw context fun chainId v g hv queued => ?_
    refine Safe.await (fun _ _ _ => rules.pre trivial trivial) fun _ u g' hu told => ?_
    have grown := rules.grows (D.trans g g')
    have complete' : Complete (service u)
        (pending.map PendingWithdrawal.index ++ (p :: entries).map Prod.fst) := complete.later grown
    refine ih _ hu ((listed.later rules (D.trans g g')).append rules hu ?_ ?_ ?_ ?_)
      (fun q hq => grown.shown (shown q (List.mem_cons_of_mem _ hq))) sorted.tail ?_
    · exact ⟨p.2, grown.shown (shown p List.mem_cons_self), rfl⟩
    · exact fun c hc => (rules.grows g').queuedFor (queued c hc)
    · intro i hi
      rcases complete' p.1 (by simp) i hi with mem | resolved
      · rcases List.mem_append.mp mem with mem | mem
        · exact .inl mem
        rcases List.mem_cons.mp mem with rfl | mem
        · exact absurd hi (lt_irrefl _)
        · exact absurd hi (Nat.not_lt.mpr (List.rel_of_pairwise_cons sorted mem))
      · exact .inr resolved
    · intro c hc
      obtain rfl : chainId = some c := hc
      exact rules.shows told
    · simpa [PendingWithdrawal.ofEntry] using complete'

theorem getAllPendingWithdrawals_safe : getAllPendingWithdrawals.Safe D
    (fun listing v => ListingOf service Handled v listing.pending) w := by
  refine Safe.await (fun _ _ _ => rules.pre trivial trivial) fun currentBlock v _ hv _ => ?_
  refine Safe.bind hv (rules.carry (PassiveCalls.unresolvedWithdrawalEntries none)
    (unresolvedWithdrawalEntries_safe none (rules.valid hv)))
    fun entries u _ hu ⟨shown, sorted, complete⟩ => ?_
  refine Safe.bind hu (withChains_safe rules currentBlock [] entries hu ⟨?_, ?_, ?_⟩ shown sorted
    (complete rfl)) fun pending t _ _ listed => Safe.result fun s g _ => listed.later rules g
  all_goals exact fun x hx => (List.not_mem_nil hx).elim

end Listing

section Chains

/-- The entries a poll takes, out of those it listed. -/
structure Chosen (service : σ → ServiceWorld) (Handled : ℕ → σ → Prop) (w : σ) (currentBlock : ℕ)
    (listed chosen : List PendingWithdrawal) : Prop where
  mem : ∀ x ∈ chosen, x ∈ listed ∧ x.blockNumber.toNat + 1 ≤ currentBlock
  passed : ∀ x ∈ listed, ∀ c, x.chainId = some c → x.blockNumber.toNat + 1 ≤ currentBlock →
    x ∈ chosen ∨ Settled service Handled c x.index w

theorem eligible_safe (currentBlock : ℕ) (x : PendingWithdrawal) :
    (eligible currentBlock x).Safe D
      (fun keep v => (keep = true → x.blockNumber.toNat + 1 ≤ currentBlock) ∧
        ∀ c, x.chainId = some c → x.blockNumber.toNat + 1 ≤ currentBlock → keep = false →
          Settled service Handled c x.index v) w := by
  unfold eligible
  cases hc : x.chainId with
  | none => exact Safe.result fun v g _ => ⟨by simp, fun c hc => by cases hc⟩
  | some d =>
    refine Safe.await (fun _ _ _ => rules.pre trivial trivial) fun mark v _ _ told =>
      Safe.result fun u g _ => ⟨fun hk => (of_decide_eq_true hk).1, fun c hc hb hk => ?_⟩
    obtain rfl := Option.some.inj hc
    cases mark with
    | none => simp [hb] at hk
    | some m =>
      have hx : x.index ≤ m := by simpa [hb] using hk
      exact rules.settled g (rules.shows told m rfl x.index hx)

theorem eligibleOnly_safe (currentBlock : ℕ) (listed : List PendingWithdrawal) (hw : D.valid w) :
    (eligibleOnly currentBlock listed).Safe D
      (fun chosen v => Chosen service Handled v currentBlock listed chosen) w := by
  induction listed generalizing w with
  | nil =>
    exact Safe.result fun _ _ _ => ⟨fun x hx => (List.not_mem_nil hx).elim,
      fun x hx => (List.not_mem_nil hx).elim⟩
  | cons y listed ih =>
    refine Safe.bind hw (eligible_safe rules currentBlock y) fun keep v _ hv ⟨kept, dropped⟩ => ?_
    refine Safe.bind hv (ih hv) fun chosen u g _ rest => Safe.result fun t g' _ => ?_
    have passed (x : PendingWithdrawal) (hx : x ∈ listed) (c : U256) (hc : x.chainId = some c)
        (hb : x.blockNumber.toNat + 1 ≤ currentBlock) :
        x ∈ chosen ∨ Settled service Handled c x.index t :=
      (rest.passed x hx c hc hb).imp_right (rules.settled g')
    cases keep with
    | true =>
      refine ⟨fun x hx => ?_, fun x hx c hc hb => ?_⟩
      · rcases List.mem_cons.mp hx with rfl | hx
        · exact ⟨List.mem_cons_self, kept rfl⟩
        · exact (rest.mem x hx).imp_left (List.mem_cons_of_mem _)
      · rcases List.mem_cons.mp hx with rfl | hx
        · exact .inl List.mem_cons_self
        · exact (passed x hx c hc hb).imp_left (List.mem_cons_of_mem _)
    | false =>
      refine ⟨fun x hx => (rest.mem x hx).imp_left (List.mem_cons_of_mem _), fun x hx c hc hb => ?_⟩
      rcases List.mem_cons.mp hx with rfl | hx
      · exact .inr (rules.settled (D.trans g g') (dropped c hc hb rfl))
      · exact passed x hx c hc hb

/-- The withdrawals of one chain that are still to be processed in a poll: everything
below one of them is settled, or comes first. -/
structure Batch (service : σ → ServiceWorld) (Handled : ℕ → σ → Prop) (w : σ) (c : U256)
    (ws : List PendingWithdrawal) : Prop where
  sorted : ws.Pairwise fun v w => v.index ≤ w.index
  chain : ∀ x ∈ ws, x.chainId = some c ∧ (service w).QueuedFor c x.index
  settled : ∀ x ∈ ws, ∀ i < x.index, Settled service Handled c i w ∨ ∃ y ∈ ws, y.index = i

theorem Batch.later (g : D.grows w v) {c : U256} {ws : List PendingWithdrawal}
    (h : Batch service Handled w c ws) : Batch service Handled v c ws :=
  ⟨h.sorted, fun x hx => (h.chain x hx).imp_right (rules.grows g).queuedFor,
    fun x hx i hi => (h.settled x hx i hi).imp_left (rules.settled g)⟩

omit rules in
theorem Batch.head {c : U256} {x : PendingWithdrawal} {ws : List PendingWithdrawal}
    (h : Batch service Handled w c (x :: ws)) : ∀ i < x.index, Settled service Handled c i w := by
  intro i hi
  rcases h.settled x List.mem_cons_self i hi with hs | ⟨y, hy, rfl⟩
  · exact hs
  · rcases List.mem_cons.mp hy with rfl | hy
    · omega
    · have := List.rel_of_pairwise_cons h.sorted hy
      omega

omit rules in
theorem Batch.tail {c : U256} {x : PendingWithdrawal} {ws : List PendingWithdrawal}
    (h : Batch service Handled w c (x :: ws)) (handled : Handled x.index w) :
    Batch service Handled w c ws := by
  refine ⟨h.sorted.tail, fun y hy => h.chain y (List.mem_cons_of_mem _ hy), fun y hy i hi => ?_⟩
  rcases h.settled y (List.mem_cons_of_mem _ hy) i hi with hs | ⟨z, hz, rfl⟩
  · exact .inl hs
  · rcases List.mem_cons.mp hz with rfl | hz
    · exact .inl (.inr handled)
    · exact .inr ⟨z, hz, rfl⟩

theorem groupByChain_batch (hw : D.valid w) {currentBlock : ℕ}
    {listed chosen : List PendingWithdrawal} (hl : ListingOf service Handled w listed)
    (hc : Chosen service Handled w currentBlock listed chosen) :
    ∀ p ∈ groupByChain chosen, p.1 ≠ 0 ∧ Batch service Handled w p.1 p.2 := by
  intro p hp
  obtain ⟨c, hcs, rfl⟩ := List.mem_map.mp hp
  have mem {x : PendingWithdrawal}
      (hx : x ∈ (chosen.filter fun w => w.chainId = some c).insertionSort
        fun v w => v.index ≤ w.index) : x ∈ chosen ∧ x.chainId = some c := by
    simpa using hx
  refine ⟨chainsOf_ne_zero (fun d hd => (List.not_mem_nil hd).elim) hcs, ?_, fun x hx => ?_,
    fun x hx i hi => ?_⟩
  · have : Std.Total fun v w : PendingWithdrawal => v.index ≤ w.index :=
      ⟨fun v w => Nat.le_total _ _⟩
    have : IsTrans PendingWithdrawal fun v w => v.index ≤ w.index :=
      ⟨fun _ _ _ => Nat.le_trans⟩
    exact List.pairwise_insertionSort _ _
  · obtain ⟨hxc, chain⟩ := mem hx
    exact ⟨chain, hl.queued x (hc.mem x hxc).1 c chain⟩
  · obtain ⟨hxc, chain⟩ := mem hx
    obtain ⟨hxl, hblock⟩ := hc.mem x hxc
    rcases hl.below x hxl c chain i hi with hs | ⟨y, hy, rfl, hyc⟩
    · exact .inl hs
    · obtain ⟨r, hr, hbr⟩ := hl.entry y hy
      obtain ⟨s, hs, hbs⟩ := hl.entry x hxl
      have hyb : y.blockNumber.toNat + 1 ≤ currentBlock := by
        have := (rules.valid hw).block_le hr hs hi
        rw [← hbr, ← hbs] at this
        omega
      rcases hc.passed y hy c hyc hyb with taken | settled
      · exact .inr ⟨y, by simp [taken, hyc], rfl⟩
      · exact .inl settled

theorem pendingByChain_safe (hw : D.valid w) : pendingByChain.Safe D
    (fun byChain v => ∀ p ∈ byChain, p.1 ≠ 0 ∧ Batch service Handled v p.1 p.2) w := by
  refine Safe.except hw ?_ fun _ _ _ _ => Safe.result fun _ _ _ p hp => (List.not_mem_nil hp).elim
  refine Safe.bind hw (rateLimitedCall_safe hw fun _ _ _ => getAllPendingWithdrawals_safe rules)
    fun listing v _ hv listed => ?_
  refine Safe.bind hv (eligibleOnly_safe rules listing.currentBlock listing.pending hv)
    fun chosen u g hu hc => Safe.result fun t g' _ p hp => ?_
  exact (groupByChain_batch rules hu (listed.later rules g) hc p hp).imp_right (·.later rules g')

end Chains

section CatchUp

theorem broadcastMissing_quiet (chainId : U256) (targetNonces : Finset ℕ) (n : ℕ)
    (foundNonces : Finset ℕ) : (broadcastMissing P chainId targetNonces n foundNonces).Quiet D := by
  induction n generalizing foundNonces with
  | zero => exact .result _
  | succ index ih =>
    unfold broadcastMissing
    split
    · exact .result _
    · exact .bind (rules.missing _ _ _) fun _ => ih _

theorem broadcastMissingForChain_quiet (chainId : U256) (targetNonces : Finset ℕ) :
    (broadcastMissingForChain P chainId targetNonces).Quiet D := by
  unfold broadcastMissingForChain
  split
  · exact .result _
  refine .bind (.except (.map (rateLimitedCall_quiet (.await fun _ => rules.pre trivial trivial)))
    fun _ => .result _) fun total => ?_
  cases total with
  | some total => exact broadcastMissing_quiet rules _ _ _ _
  | none => exact .result _

theorem catchUpMissingBroadcasts_quiet (chainIds : List U256) :
    (catchUpMissingBroadcasts P chainIds).Quiet D := by
  induction chainIds with
  | nil => exact .result _
  | cons chainId chainIds ih =>
    refine .bind (.except (.bind (rules.quiet (PassiveCalls.chainNonceState _)
      (chainNonceState_quiet _)) fun nonceState => ?_) fun _ => .result _) fun _ => ih
    cases nonceState with
    | none => exact .result _
    | some nonces =>
      dsimp only
      split
      · exact .result _
      · exact broadcastMissingForChain_quiet rules _ _

end CatchUp

theorem processWithdrawals_safe {c : U256} (hc : c ≠ 0) (ws : List PendingWithdrawal)
    (hw : D.valid w) (batch : Batch service Handled w c ws) :
    (processWithdrawals P settings c ws).Safe D (fun _ _ => True) w := by
  induction ws generalizing w with
  | nil => exact Safe.result fun _ _ _ => trivial
  | cons x ws ih =>
    refine Safe.await (fun _ _ _ => rules.pre trivial trivial) fun running v g hv _ => ?_
    split
    · exact Safe.result fun _ _ _ => trivial
    · have hb := batch.later rules g
      obtain ⟨chain, queued⟩ := hb.chain x List.mem_cons_self
      refine Safe.bind hv (rules.resolve hv hc chain queued hb.head) fun done u g' hu handled => ?_
      split
      · next hd => exact ih hu ((hb.later rules g').tail (handled hd))
      · exact catchUpMissingBroadcasts_quiet rules _ u hu

theorem processChain_safe {c : U256} (hc : c ≠ 0) (ws : List PendingWithdrawal)
    (hw : D.valid w) (batch : Batch service Handled w c ws) :
    (processChain P settings c ws).Safe D (fun _ _ => True) w := by
  refine Safe.bind hw (Quiet.except (rules.quiet (PassiveCalls.chainNonceState c)
    (chainNonceState_quiet c)) (fun _ => .result _) w hw) fun nonceState v g hv _ => ?_
  cases nonceState with
  | none => exact Safe.result fun _ _ _ => trivial
  | some _ => exact processWithdrawals_safe rules hc ws hv (batch.later rules g)

theorem processChains_safe (byChain : List (U256 × List PendingWithdrawal)) (hw : D.valid w)
    (batches : ∀ p ∈ byChain, p.1 ≠ 0 ∧ Batch service Handled w p.1 p.2) :
    (processChains P settings byChain).Safe D (fun _ _ => True) w := by
  induction byChain generalizing w with
  | nil => exact Safe.result fun _ _ _ => trivial
  | cons p byChain ih =>
    refine Safe.await (fun _ _ _ => rules.pre trivial trivial) fun running v g hv _ => ?_
    split
    · exact Safe.result fun _ _ _ => trivial
    · obtain ⟨hc, batch⟩ := batches p List.mem_cons_self
      refine Safe.bind hv (processChain_safe rules hc p.2 hv (batch.later rules g))
        fun _ u g' hu _ => ?_
      exact ih hu fun q hq => (batches q (List.mem_cons_of_mem _ hq)).imp_right
        (·.later rules (D.trans g g'))

theorem poll_quiet (pollCount : ℕ) : (poll P settings pollCount).Quiet D := by
  have polled : Coroutine.Quiet D
      (pendingByChain >>= fun byChain => processChains P settings byChain) :=
    fun w hw => Safe.bind hw (pendingByChain_safe rules hw) fun byChain v _ hv batches =>
      processChains_safe rules byChain hv batches
  unfold poll
  split
  · exact .bind (catchUpMissingBroadcasts_quiet rules _) fun _ => polled
  · exact polled

theorem runPolls_quiet (polls pollCount : ℕ) : (runPolls P settings polls pollCount).Quiet D := by
  induction polls generalizing pollCount with
  | zero => exact .result _
  | succ polls ih =>
    refine .bind (.await fun _ => rules.pre trivial trivial) fun running => ?_
    split
    · exact .result _
    · exact .bind (.except (poll_quiet rules _) fun _ => .result _) fun _ => ih _

/-- The tasks of the process keep a discipline that is good for a poll. -/
theorem serviceTask_quiet (task : ServiceTask) :
    ((withdrawalSystem P settings).body task).Quiet D := by
  cases task with
  | processor polls =>
    exact .bind (catchUpMissingBroadcasts_quiet rules _) fun _ => runPolls_quiet rules _ _
  | pendingWithdrawals user =>
    refine rules.quiet (.bind (PassiveCalls.unresolvedWithdrawalEntries _) fun _ => .result _) ?_
    exact fun w hw => Safe.bind hw (unresolvedWithdrawalEntries_safe _ hw)
      fun _ _ _ _ _ => Safe.result fun _ _ _ => trivial

end Poll

end Privana
