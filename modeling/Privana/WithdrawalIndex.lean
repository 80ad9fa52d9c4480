import Privana.Transcripts
import Privana.WithdrawalListing

/-! The index of unresolved withdrawals under concurrent refreshes and listings. A batch of
reads may be served by different nodes, each lagging on its own. What a listing observed,
the count and the entries it read as resolved, is in the replies it got; the proofs follow
a listing that hands both out with its entries. -/

namespace Privana
open BigEndian Coroutine ServiceOp

inductive IndexAnswer where
  | answer (a : Answer)
  /-- A batch of reads, one node for each. -/
  | nodes (lags : List ℕ)

def indexPerform (P : Platform) (task : ℕ) : (op : ServiceOp) → IndexAnswer → ServiceWorld →
    Option (Except ServiceError op.Reply × ServiceWorld)
  | op, .answer a, w => servicePerform P task op a w
  | .withdrawals indices, .nodes lags, w =>
    if lags.length = indices.length then
      match (indices.zip lags).mapM fun p => (w.node p.2).bind fun s => s.withdrawals[p.1]? with
      | some results => some (.ok results, w)
      | none => some (.error .rpcError, w)
    else none
  | _, .nodes _, _ => none

/-- The indices of a batch that were read as resolved. -/
def resolvedAmong (indices : List ℕ) (results : List WithdrawalRequest) : List ℕ :=
  ((indices.zip results).filter fun p => p.2.resolved).map Prod.fst

inductive IndexTask where
  | refresh
  | listing (user : Option Address)
  deriving DecidableEq

/-- A listing gives its entries back. -/
def indexSystem (P : Platform) :
    TaskSystem ServiceWorld ServiceOp ServiceOp.Reply ServiceError IndexAnswer ServiceMove
      IndexTask (Option (List (ℕ × WithdrawalRequest))) where
  perform := indexPerform P
  move e w := serviceMove P w e
  body
    | .refresh => (fun _ => none) <$> refreshWithdrawalIndex
    | .listing user => some <$> unresolvedWithdrawalEntries user
  start _ w := some w
  leave task w :=
    if w.withdrawalsLock = some task then { w with withdrawalsLock := none } else w
  restart := ServiceWorld.restarted

/-- The `withdrawalCount()` a task was told. -/
def observedCount (seen : List (Observation ServiceOp ServiceOp.Reply)) : Option ℕ :=
  seen.findSome? fun
    | ⟨withdrawalCount, count⟩ => some count
    | _ => none

/-- The indices a task has read as resolved. -/
def readAsResolved (seen : List (Observation ServiceOp ServiceOp.Reply)) : List ℕ :=
  seen.flatMap fun
    | ⟨withdrawals indices, results⟩ => resolvedAmong indices results
    | _ => []

/-- A listing with what it observed. -/
structure Listing where
  user : Option Address
  count : ℕ
  readResolved : List ℕ
  pending : List (ℕ × WithdrawalRequest)

def indexFromSeen (count : ℕ) : ℕ → ℕ → Service (List ℕ)
  | 0, _ => pure []
  | n + 1, start =>
    if start < count then do
      let stop := min (start + withdrawalReadBatchSize) count
      let results ← readWithdrawals (List.range' start (stop - start))
      await (indexWithdrawals start results)
      let seen ← indexFromSeen count n (start + withdrawalReadBatchSize)
      return resolvedAmong (List.range' start (stop - start)) results ++ seen
    else pure []

def refreshSeen : Service (ℕ × List ℕ) := do
  let count : ℕ ← await withdrawalCount
  let scanned : ℕ ← await withdrawalsScanned
  if count ≤ scanned then return (count, [])
  else do
    await acquireWithdrawalsLock
    ensure (do
      let firstNew : ℕ ← await withdrawalsScanned
      let seen ← indexFromSeen count (count - firstNew) firstNew
      return (count, seen)) (await releaseWithdrawalsLock)

def listing (user : Option Address) : Service Listing := do
  let (count, seen) ← refreshSeen
  let entries : List (ℕ × WithdrawalRequest) ← await unresolvedWithdrawals
  let chosen := entries.filter fun p => user.all (· = p.2.userAddress)
  let candidates := (chosen.map Prod.fst).insertionSort (· ≤ ·)
  let readable := candidates.filter (· < count)
  let results ← readWithdrawals readable
  let resolved := resolvedAmong readable results
  let pending ← collectUnresolved resolved candidates
  return ⟨user, count, seen ++ resolved, pending⟩

theorem indexFromSeen_eq (count n start : ℕ) :
    (fun _ => ()) <$> indexFromSeen count n start = indexFrom count n start := by
  induction n generalizing start with
  | zero => rfl
  | succ n ih =>
    unfold indexFromSeen indexFrom
    split
    · simp only [map_bind, ← ih, bind_pure_comp, Functor.map_map]
    · rfl

theorem refreshSeen_eq : Prod.fst <$> refreshSeen = refreshWithdrawalIndex := by
  unfold refreshSeen refreshWithdrawalIndex
  simp only [map_bind, apply_ite, map_pure, map_ensure, ← indexFromSeen_eq, bind_pure_comp,
    Functor.map_map]

/-- What is observed does not change what the listing does. -/
theorem listing_pending (user : Option Address) :
    Listing.pending <$> listing user = unresolvedWithdrawalEntries user := by
  unfold listing unresolvedWithdrawalEntries
  simp only [← refreshSeen_eq, map_bind, bind_map_left, resolvedAmong, bind_pure_comp,
    Functor.map_map, id_map']

def listingSystem (P : Platform) :
    TaskSystem ServiceWorld ServiceOp ServiceOp.Reply ServiceError IndexAnswer ServiceMove
      IndexTask (Option Listing) where
  perform := (indexSystem P).perform
  move := (indexSystem P).move
  body
    | .refresh => (fun _ => none) <$> refreshWithdrawalIndex
    | .listing user => some <$> listing user
  start := (indexSystem P).start
  leave := (indexSystem P).leave
  restart := (indexSystem P).restart

theorem indexSystem_eq (P : Platform) :
    indexSystem P = (listingSystem P).relabel (Option.map Listing.pending) := by
  have body (task : IndexTask) : (indexSystem P).body task =
      Option.map Listing.pending <$> (listingSystem P).body task := by
    cases task with
    | refresh =>
      show (fun _ => none) <$> refreshWithdrawalIndex = _ <$> (fun _ => none) <$> _
      rw [Functor.map_map]
      rfl
    | listing user =>
      show some <$> unresolvedWithdrawalEntries user = _ <$> some <$> listing user
      rw [← listing_pending, Functor.map_map, Functor.map_map]
      rfl
  have bodies := funext body
  unfold TaskSystem.relabel
  rw [← bodies]
  rfl

variable {P : Platform} {w v : ServiceWorld}

def ServiceWorld.keys (w : ServiceWorld) : List ℕ := w.unresolvedWithdrawals.map Prod.fst

structure IndexValid (w : ServiceWorld) : Prop where
  past : ∀ s ∈ w.past, Advances s w.accounting
  entries : ∀ p ∈ w.unresolvedWithdrawals, w.Shown p.1 p.2
  below : ∀ i ∈ w.keys, i < w.withdrawalsScanned
  distinct : w.keys.Nodup
  scanned : ∀ i < w.withdrawalsScanned, w.Indexed i

structure IndexGrows (w v : ServiceWorld) : Prop where
  accounting : Advances w.accounting v.accounting
  indexed : ∀ i, w.Indexed i → v.Indexed i
  scanned : w.withdrawalsScanned ≤ v.withdrawalsScanned
  absent : ∀ i < w.withdrawalsScanned, i ∉ w.keys → i ∉ v.keys

theorem Advances.resolvedMark (h : Advances w.accounting v.accounting) {i : ℕ}
    (hi : w.Resolved i) : v.Resolved i := by
  obtain ⟨r, hr, hres⟩ := hi
  exact h.resolved i r hr hres

theorem Advances.shownLater (h : Advances w.accounting v.accounting) {i : ℕ}
    {r : WithdrawalRequest} (hi : w.Shown i r) : v.Shown i r := by
  obtain ⟨r', hr', hc, hres⟩ := hi
  obtain ⟨r'', hr'', hc', hres'⟩ := h.shown hr'
  exact ⟨r'', hr'', hc'.trans hc, fun hr => hres' (hres hr)⟩

namespace IndexGrows

theorem refl (w : ServiceWorld) : IndexGrows w w :=
  ⟨.refl _, fun _ h => h, le_rfl, fun _ _ h => h⟩

theorem trans {u : ServiceWorld} (h : IndexGrows w v) (h' : IndexGrows v u) : IndexGrows w u where
  accounting := h.accounting.trans h'.accounting
  indexed i hi := h'.indexed i (h.indexed i hi)
  scanned := h.scanned.trans h'.scanned
  absent i hi ha := h'.absent i (hi.trans_le h.scanned) (h.absent i hi ha)

end IndexGrows

def indexPre : ServiceOp → ServiceWorld → Prop
  | .indexWithdrawals start results, w => ∀ p ∈ results.zipIdx start, w.Shown p.2 p.1
  | .popUnresolved index, w => w.Resolved index
  | _, _ => True

def indexTold : (op : ServiceOp) → op.Reply → ServiceWorld → Prop
  | .withdrawals indices, results, w =>
    results.length = indices.length ∧ ∀ p ∈ indices.zip results, w.Shown p.1 p.2
  | .withdrawalsScanned, n, w => n ≤ w.withdrawalsScanned
  | .indexWithdrawals start results, _, w => start + results.length ≤ w.withdrawalsScanned ∧
    ∀ p ∈ results.zipIdx start, p.1.resolved = true → p.2 ∉ w.keys
  | .unresolvedWithdrawals, entries, w => w.keys = entries.map Prod.fst ∧
    w.keys.Nodup ∧ (∀ p ∈ entries, w.Shown p.1 p.2 ∧ w.Indexed p.1) ∧
      ∀ i < w.withdrawalsScanned, w.Indexed i
  | .unresolvedEntry index, entry, w =>
    (∀ r, entry = some r → w.Shown index r) ∧
      (entry = none → w.Indexed index → w.Resolved index)
  | _, _, _ => True

def indexDiscipline : Discipline ServiceWorld ServiceOp ServiceOp.Reply where
  valid := IndexValid
  grows := IndexGrows
  pre := indexPre
  told := indexTold
  refl := .refl
  trans := .trans

/-- A batch is written where the last one ended. -/
def AtScanned (_ : ℕ) (op : ServiceOp) (w : ServiceWorld) : Prop :=
  ∀ start results, op = indexWithdrawals start results → start = w.withdrawalsScanned

section Memory

theorem IndexValid.frame (h : IndexValid w) (accounting : v.accounting = w.accounting)
    (past : v.past = w.past) (unresolved : v.unresolvedWithdrawals = w.unresolvedWithdrawals)
    (scanned : v.withdrawalsScanned = w.withdrawalsScanned) : IndexValid v ∧ IndexGrows w v := by
  cases v
  subst accounting past unresolved scanned
  exact ⟨⟨h.past, h.entries, h.below, h.distinct, h.scanned⟩,
    ⟨.refl _, fun _ h => h, le_rfl, fun _ _ h => h⟩⟩

theorem keys_unresolvedAmong (start : ℕ) (results : List WithdrawalRequest) :
    ((ServiceWorld.unresolvedAmong start results).map Prod.fst).Sublist
      (List.range' start results.length) := by
  rw [← List.zipIdx_map_snd start results, ServiceWorld.unresolvedAmong, List.map_map]
  exact List.filter_sublist.map _

theorem keys_indexWithdrawals (below : ∀ i ∈ w.keys, i < w.withdrawalsScanned)
    (results : List WithdrawalRequest) :
    (w.indexWithdrawals w.withdrawalsScanned results).keys = w.keys ++
      (ServiceWorld.unresolvedAmong w.withdrawalsScanned results).map Prod.fst := by
  rw [ServiceWorld.keys, ServiceWorld.indexWithdrawals, List.map_append, ServiceWorld.keys]
  congr 2
  refine List.filter_eq_self.mpr fun p hp => decide_eq_true fun hmem => ?_
  have lt := below p.1 (List.mem_map_of_mem hp)
  have ge := (List.mem_range'_1.mp ((keys_unresolvedAmong _ _).subset hmem)).1
  omega

theorem indexWithdrawals_index (h : IndexValid w) {results : List WithdrawalRequest}
    (pre : ∀ p ∈ results.zipIdx w.withdrawalsScanned, w.Shown p.2 p.1) :
    IndexValid (w.indexWithdrawals w.withdrawalsScanned results) ∧
      IndexGrows w (w.indexWithdrawals w.withdrawalsScanned results) ∧
      ∀ p ∈ results.zipIdx w.withdrawalsScanned, p.1.resolved = true →
        p.2 ∉ (w.indexWithdrawals w.withdrawalsScanned results).keys := by
  have keys := keys_indexWithdrawals h.below results
  have range : ∀ i ∈ (ServiceWorld.unresolvedAmong w.withdrawalsScanned results).map Prod.fst,
      w.withdrawalsScanned ≤ i ∧ i < w.withdrawalsScanned + results.length := fun i hi =>
    List.mem_range'_1.mp ((keys_unresolvedAmong _ _).subset hi)
  refine ⟨⟨h.past, fun p hp => ?_, fun i hi => ?_, ?_, fun i hi => ?_⟩,
    ⟨.refl _, fun i hi => indexed_indexWithdrawals hi, Nat.le_add_right _ _, fun i hi ha => ?_⟩,
    fun p hp resolved hmem => ?_⟩
  · rcases List.mem_append.mp hp with hp | hp
    · exact h.entries p (List.mem_filter.mp hp).1
    · exact pre _ (mem_unresolvedAmong.mp hp).1
  · rw [keys] at hi
    rcases List.mem_append.mp hi with hi | hi
    · exact (h.below i hi).trans_le (Nat.le_add_right _ _)
    · exact (range i hi).2
  · rw [keys]
    refine List.nodup_append.mpr ⟨h.distinct, (keys_unresolvedAmong _ _).nodup List.nodup_range',
      fun i hi j hj same => ?_⟩
    have lt := h.below i hi
    have ge := (range j hj).1
    omega
  · exact indexed_of_lt_batch ⟨h.scanned, pre⟩ hi
  · rw [keys]
    refine fun hmem => (List.mem_append.mp hmem).elim ha fun hmem => ?_
    exact absurd (range i hmem).1 (by omega)
  · rw [keys] at hmem
    have ge := (List.mem_zipIdx hp).1
    rcases List.mem_append.mp hmem with hmem | hmem
    · exact absurd (h.below _ hmem) (by omega)
    · obtain ⟨⟨i, r⟩, hq, same⟩ := List.mem_map.mp hmem
      obtain ⟨hq, unresolved⟩ := mem_unresolvedAmong.mp hq
      obtain rfl : i = p.2 := same
      have read := (List.mk_mem_zipIdx_iff_le_and_getElem?_sub.mp hq).2
      have read' : results[p.2 - w.withdrawalsScanned]? = some p.1 :=
        (List.mk_mem_zipIdx_iff_le_and_getElem?_sub.mp hp).2
      rw [read, Option.some_inj] at read'
      simp [read', resolved] at unresolved

theorem popUnresolved_index (h : IndexValid w) {index : ℕ} (pre : w.Resolved index) :
    IndexValid (w.popUnresolved index) ∧ IndexGrows w (w.popUnresolved index) := by
  have sub : (w.popUnresolved index).keys.Sublist w.keys := List.filter_sublist.map _
  exact ⟨⟨h.past, fun p hp => h.entries p (List.mem_filter.mp hp).1,
      fun i hi => h.below i (sub.subset hi), sub.nodup h.distinct,
      fun i hi => indexed_popUnresolved pre (h.scanned i hi)⟩,
    ⟨.refl _, fun i hi => indexed_popUnresolved pre hi, le_rfl, fun i _ ha hi => ha (sub.subset hi)⟩⟩

theorem memoryAccess_index {task : ℕ} {op : ServiceOp} {a : op.Reply} (valid : IndexValid w)
    (pre : indexPre op w) (licence : AtScanned task op w)
    (h : memoryAccess task w op = some (a, v)) :
    IndexValid v ∧ IndexGrows w v ∧ indexTold op a v := by
  have framed (accounting : v.accounting = w.accounting) (past : v.past = w.past)
      (unresolved : v.unresolvedWithdrawals = w.unresolvedWithdrawals)
      (scanned : v.withdrawalsScanned = w.withdrawalsScanned) (told : indexTold op a v) :
      IndexValid v ∧ IndexGrows w v ∧ indexTold op a v :=
    have frame := valid.frame accounting past unresolved scanned
    ⟨frame.1, frame.2, told⟩
  cases op with
  | indexWithdrawals start results =>
    obtain ⟨rfl, rfl⟩ := Prod.mk.inj (Option.some.inj h)
    obtain rfl := licence start results rfl
    obtain ⟨hv, hg, omitted⟩ := indexWithdrawals_index valid pre
    exact ⟨hv, hg, le_rfl, omitted⟩
  | popUnresolved index =>
    obtain ⟨rfl, rfl⟩ := Prod.mk.inj (Option.some.inj h)
    obtain ⟨hv, hg⟩ := popUnresolved_index valid pre
    exact ⟨hv, hg, trivial⟩
  | withdrawalsScanned =>
    obtain ⟨rfl, rfl⟩ := Prod.mk.inj (Option.some.inj h)
    exact framed rfl rfl rfl rfl le_rfl
  | unresolvedWithdrawals =>
    obtain ⟨rfl, rfl⟩ := Prod.mk.inj (Option.some.inj h)
    exact framed rfl rfl rfl rfl ⟨rfl, valid.distinct,
      fun p hp => ⟨valid.entries p hp, .inl ⟨p.2, hp⟩⟩, valid.scanned⟩
  | unresolvedEntry index =>
    obtain ⟨rfl, rfl⟩ := Prod.mk.inj (Option.some.inj h)
    refine framed rfl rfl rfl rfl ⟨fun r hr => valid.entries _ (mem_of_lookup hr), fun hn hi => ?_⟩
    rcases hi with ⟨r, hr⟩ | hr
    · exact absurd hr (lookup_eq_none hn r)
    · exact hr
  | acquireWithdrawalsLock =>
    simp only [memoryAccess] at h
    split at h
    · obtain ⟨rfl, rfl⟩ := Prod.mk.inj (Option.some.inj h)
      exact framed rfl rfl rfl rfl trivial
    · cases h
  | blockNumber | withdrawalCount | withdrawals | tokens | nonces | evmAddress
  | resolveWithdrawalCall | submitResolveWithdrawal | destinationWeb3 | transactionCount
  | sendRawTransaction | transactionReceipt | transaction => cases h
  | _ =>
    obtain ⟨rfl, rfl⟩ := Prod.mk.inj (Option.some.inj h)
    exact framed rfl rfl rfl rfl trivial

theorem node_advances (valid : IndexValid w) {lag : ℕ} {s : State} (hs : w.node lag = some s) :
    Advances s w.accounting := by
  rcases List.mem_cons.mp (List.mem_of_getElem? hs) with rfl | hs
  · exact .refl _
  · exact valid.past s hs

theorem nodes_shown (valid : IndexValid w) {indices lags : List ℕ}
    {results : List WithdrawalRequest} (lengths : lags.length = indices.length)
    (read : ((indices.zip lags).mapM fun p =>
      (w.node p.2).bind fun s => s.withdrawals[p.1]?) = some results) :
    results.length = indices.length ∧ ∀ p ∈ indices.zip results, w.Shown p.1 p.2 := by
  obtain ⟨hlen, hall⟩ := mapM_option read
  rw [List.length_zip, lengths, min_self] at hlen
  refine ⟨hlen, fun p hp => ?_⟩
  obtain ⟨k, hk, rfl⟩ := List.mem_iff_getElem.mp hp
  have hk' : k < indices.length := by simp at hk; omega
  have hmem : ((indices[k], lags[k]), results[k]) ∈ (indices.zip lags).zip results :=
    List.mem_iff_getElem.mpr ⟨k, by simp [lengths, hlen, hk'], by simp⟩
  obtain ⟨s, hs, hr⟩ := Option.bind_eq_some_iff.mp (hall _ hmem)
  simpa using (node_advances valid hs).shown hr

theorem contractReads_index (valid : IndexValid w) {lag : ℕ} {s : State}
    (hs : w.node lag = some s) {op : ServiceOp} {a : op.Reply}
    (h : contractReads P w.block s op = some (.ok a)) : indexTold op a w := by
  cases op with
  | withdrawals indices =>
    simp only [contractReads] at h
    split at h
    · next results read =>
      cases h
      obtain ⟨hlen, hall⟩ := mapM_option read
      exact ⟨hlen, fun p hp => (node_advances valid hs).shown (hall p hp)⟩
    · cases h
  | _ => first | exact trivial | cases h

theorem remoteCalls_index {op : ServiceOp} {answer : Answer} {a : op.Reply}
    (h : remoteCalls op answer = some (.ok a)) : indexTold op a w := by
  cases op <;> first | exact trivial | cases answer <;> cases h

theorem servicePerform_index {task : ℕ} {op : ServiceOp} {answer : Answer}
    {r : Except ServiceError op.Reply} (valid : IndexValid w) (pre : indexPre op w)
    (licence : AtScanned task op w) (h : servicePerform P task op answer w = some (r, v)) :
    IndexValid v ∧ IndexGrows w v ∧ ∀ a, r = .ok a → indexTold op a v := by
  rcases servicePerform_cases h with ⟨a, hm, rfl⟩ | ⟨rfl, told⟩
  · obtain ⟨hv, hg, ht⟩ := memoryAccess_index valid pre licence hm
    exact ⟨hv, hg, by rintro _ ⟨⟩; exact ht⟩
  · refine ⟨valid, .refl _, fun a ha => ?_⟩
    rcases told a ha with ⟨lag, s, hs, hr⟩ | ⟨answer, hr⟩
    · exact contractReads_index valid hs hr
    · exact remoteCalls_index hr

theorem indexPerform_index {task : ℕ} {op : ServiceOp} {answer : IndexAnswer}
    {r : Except ServiceError op.Reply} (valid : IndexValid w) (pre : indexPre op w)
    (licence : AtScanned task op w) (h : indexPerform P task op answer w = some (r, v)) :
    IndexValid v ∧ IndexGrows w v ∧ ∀ a, r = .ok a → indexTold op a v := by
  cases answer with
  | answer a => cases op <;> exact servicePerform_index valid pre licence h
  | nodes lags =>
    cases op with
    | withdrawals indices =>
      simp only [indexPerform] at h
      split at h
      · next lengths =>
        split at h
        · next results read =>
          cases h
          refine ⟨valid, .refl w, ?_⟩
          rintro _ ⟨⟩
          exact nodes_shown valid lengths read
        · cases h
          exact ⟨valid, .refl w, by rintro _ ⟨⟩⟩
      · cases h
    | _ => cases h

theorem serviceMove_index {e : ServiceMove} (valid : IndexValid w)
    (h : serviceMove P w e = some v) : IndexValid v ∧ IndexGrows w v := by
  cases serviceMove_step h with
  | @transact tx s o _ executed =>
    have advances : Advances w.accounting s := (execute_step executed).advances
    have grows : IndexGrows w { w with
        accounting := s, past := w.accounting :: w.past, block := tx.msg.blockNumber.toNat } :=
      ⟨advances, fun i hi => hi.imp_right advances.resolvedMark, le_rfl, fun _ _ h => h⟩
    refine ⟨⟨fun t ht => ?_, fun p hp => advances.shownLater (valid.entries p hp), valid.below,
      valid.distinct, fun i hi => grows.indexed i (valid.scanned i hi)⟩, grows⟩
    rcases List.mem_cons.mp ht with rfl | ht
    · exact advances
    · exact (valid.past t ht).trans advances
  | expireTokenContext | stop => exact valid.frame rfl rfl rfl rfl

theorem restarted_index (valid : IndexValid w) : IndexValid w.restarted :=
  ⟨valid.past, by simp [ServiceWorld.restarted], by simp [ServiceWorld.keys, ServiceWorld.restarted],
    List.nodup_nil, by simp [ServiceWorld.restarted]⟩

end Memory

section Listings

theorem index_rules : ListingRules indexDiscipline where
  shown g h := g.accounting.shownLater h
  resolved g h := g.accounting.resolvedMark h
  indexed g h := g.indexed _ h
  reads := trivial
  read h := h
  pops h := h
  gets := trivial
  got h := h

theorem mem_resolvedAmong {indices : List ℕ} {results : List WithdrawalRequest} {i : ℕ} :
    i ∈ resolvedAmong indices results ↔
      ∃ r : WithdrawalRequest, (i, r) ∈ indices.zip results ∧ r.resolved = true := by
  simp [resolvedAmong]

/-- Entries that were read as resolved and will never be in the index. -/
def Gone (w : ServiceWorld) (i : ℕ) : Prop := i < w.withdrawalsScanned ∧ i ∉ w.keys

theorem Gone.later (g : IndexGrows w v) {i : ℕ} (h : Gone w i) : Gone v i :=
  ⟨h.1.trans_le g.scanned, g.absent i h.1 h.2⟩

theorem range'_zip {start n : ℕ} {results : List WithdrawalRequest} (hlen : results.length = n)
    {i : ℕ} {r : WithdrawalRequest} (h : (i, r) ∈ (List.range' start n).zip results) :
    (r, i) ∈ results.zipIdx start := by
  subst hlen
  obtain ⟨k, hk, he⟩ := List.mem_iff_getElem.mp h
  simp only [List.getElem_zip, List.getElem_range', one_mul, Prod.mk.injEq] at he
  obtain ⟨rfl, rfl⟩ := he
  have hk' : k < results.length := by simpa using hk
  exact List.mk_mem_zipIdx_iff_le_and_getElem?_sub.mpr ⟨by omega, by simp [hk']⟩

theorem indexFromSeen_safe (count n start : ℕ) (hw : IndexValid w) (fuel : count - start ≤ n)
    (below : min start count ≤ w.withdrawalsScanned) :
    (indexFromSeen count n start).Safe indexDiscipline
      (fun seen v => count ≤ v.withdrawalsScanned ∧ ∀ i ∈ seen, Gone v i) w := by
  induction n generalizing start w with
  | zero =>
    refine Safe.result fun v g _ => ⟨?_, by simp⟩
    have := g.scanned
    omega
  | succ n ih =>
    unfold indexFromSeen
    split
    · next hlt =>
      refine Safe.bind hw (readWithdrawals_safe index_rules _ hw) fun results v g hv ⟨hlen, shown⟩ => ?_
      rw [List.length_range'] at hlen
      refine Safe.await (fun u g' _ => zipIdx_shown (by rw [hlen, List.length_range'])
        fun p hp => g'.accounting.shownLater (shown p hp)) fun _ u g' hu told => ?_
      obtain ⟨ends, omitted⟩ := told
      refine Safe.bind hu (ih _ hu (by simp [withdrawalReadBatchSize]; omega) (by omega))
        fun seen t g'' ht ⟨scanned, gone⟩ => ?_
      refine Safe.result fun s h _ => ⟨scanned.trans h.scanned, fun i hi => ?_⟩
      rcases List.mem_append.mp hi with hi | hi
      · obtain ⟨r, hr, resolved⟩ := mem_resolvedAmong.mp hi
        have hmem := range'_zip hlen hr
        have hi' : i < start + results.length := by
          have := List.mem_zipIdx hmem
          omega
        have now : Gone u i := ⟨hi'.trans_le ends, omitted _ hmem resolved⟩
        exact now.later (g''.trans h)
      · exact (gone i hi).later h
    · next hge =>
      refine Safe.result fun v g _ => ⟨?_, by simp⟩
      have := g.scanned
      omega

theorem refreshSeen_safe : refreshSeen.Safe indexDiscipline
    (fun p v => p.1 ≤ v.withdrawalsScanned ∧ ∀ i ∈ p.2, Gone v i) w := by
  refine Safe.await (fun _ _ _ => trivial) fun count v _ hv _ => ?_
  refine Safe.await (fun _ _ _ => trivial) fun scanned u _ hu told => ?_
  split
  · next hle =>
    exact Safe.result fun t g _ => ⟨hle.trans (told.trans g.scanned), by simp⟩
  · refine Safe.await (fun _ _ _ => trivial) fun _ t _ ht _ => ?_
    refine Safe.ensure ht ?_ fun s _ _ =>
      Safe.reply (fun _ _ _ => trivial) fun _ _ _ _ _ _ => trivial
    refine Safe.await (fun _ _ _ => trivial) fun firstNew s _ hs told => ?_
    refine Safe.bind hs (indexFromSeen_safe _ _ _ hs le_rfl ((min_le_left _ _).trans told))
      fun seen r g hr ⟨counted, gone⟩ => Safe.result fun q h _ => ?_
    exact ⟨counted.trans h.scanned, fun i hi => (gone i hi).later h⟩

/-- What the entries of a listing promise of the world it ends in. -/
structure ListingSound (user : Option Address) (count : ℕ) (readResolved : List ℕ)
    (entries : List (ℕ × WithdrawalRequest)) (w : ServiceWorld) : Prop where
  increasing : (entries.map Prod.fst).Pairwise (· < ·)
  complete : ∀ i < count, ∀ r : WithdrawalRequest, w.accounting.withdrawals[i]? = some r →
    user.all (· = r.userAddress) = true → r.resolved = false → i ∈ entries.map Prod.fst
  omits : ∀ i ∈ readResolved, i ∉ entries.map Prod.fst

def Listing.Sound (l : Listing) : ServiceWorld → Prop :=
  ListingSound l.user l.count l.readResolved l.pending

theorem candidates_increasing {entries : List (ℕ × WithdrawalRequest)}
    (distinct : (entries.map Prod.fst).Nodup) (chosen : ℕ × WithdrawalRequest → Bool) :
    (((entries.filter chosen).map Prod.fst).insertionSort (· ≤ ·)).Pairwise (· < ·) := by
  have nodup : (((entries.filter chosen).map Prod.fst).insertionSort (· ≤ ·)).Nodup :=
    (List.perm_insertionSort _ _).nodup_iff.mpr ((List.filter_sublist.map _).nodup distinct)
  exact ((List.pairwise_insertionSort _ _).and nodup).imp fun h => lt_of_le_of_ne h.1 h.2

theorem not_resolved {i : ℕ} {r : WithdrawalRequest} (hr : w.accounting.withdrawals[i]? = some r)
    (hres : r.resolved = false) : ¬ w.Resolved i := by
  rintro ⟨r', hr', hres'⟩
  rw [hr, Option.some_inj] at hr'
  simp [← hr', hres] at hres'

/-- The entry of a user's withdrawal is among those the listing chooses. -/
theorem mem_candidates {entries : List (ℕ × WithdrawalRequest)} {user : Option Address} {i : ℕ}
    {r : WithdrawalRequest} (shown : ∀ p ∈ entries, w.Shown p.1 p.2)
    (hi : i ∈ entries.map Prod.fst) (hr : w.accounting.withdrawals[i]? = some r)
    (hu : user.all (· = r.userAddress) = true) :
    i ∈ ((entries.filter fun p => user.all (· = p.2.userAddress)).map Prod.fst).insertionSort
      (· ≤ ·) := by
  obtain ⟨p, hp, rfl⟩ := List.mem_map.mp hi
  obtain ⟨r', hr', hc, -⟩ := shown p hp
  obtain rfl : r = r' := by simpa [hr] using hr'
  have same : r.core.userAddress = p.2.core.userAddress :=
    congrArg WithdrawalRequest.userAddress hc
  rw [List.mem_insertionSort]
  exact List.mem_map_of_mem (List.mem_filter.mpr ⟨hp, (show r.userAddress = _ from same) ▸ hu⟩)

theorem listing_safe (user : Option Address) (hw : IndexValid w) :
    (listing user).Safe indexDiscipline Listing.Sound w := by
  refine Safe.bind hw refreshSeen_safe fun (count, seen) v _ hv ⟨counted, gone⟩ => ?_
  refine Safe.await (fun _ _ _ => trivial) fun entries u g hu ⟨hkeys, nodup, shown, indexed⟩ => ?_
  refine Safe.bind hu (readWithdrawals_safe index_rules _ hu) fun results t g' ht ⟨_, read⟩ => ?_
  refine Safe.bind ht (collectUnresolved_safe index_rules _ _ ht (fun i hi => ?_) fun i hi => ?_)
    fun pending s g'' _ listed => Safe.result fun q h _ => ⟨?_, fun i hi r hr hu hres => ?_,
      fun i hi hp => ?_⟩
  · obtain ⟨r, hr, resolved⟩ := mem_resolvedAmong.mp hi
    exact (read _ hr).resolved resolved
  · rw [List.mem_insertionSort] at hi
    obtain ⟨p, hp, rfl⟩ := List.mem_map.mp hi
    exact g'.indexed _ (shown p (List.mem_filter.mp hp).1).2
  · exact (candidates_increasing (hkeys ▸ nodup) _).sublist listed.ordered
  · have later : IndexGrows u q := (g'.trans g'').trans h
    have unresolved := not_resolved hr hres
    have key : i ∈ entries.map Prod.fst := by
      rcases indexed i ((hi.trans_le counted).trans_le g.scanned) with ⟨r', hr'⟩ | resolved
      · exact hkeys ▸ List.mem_map_of_mem hr'
      · exact absurd (later.accounting.resolvedMark resolved) unresolved
    have candidate := mem_candidates
      (fun p hp => later.accounting.shownLater (shown p hp).1) key hr hu
    exact (listed.complete i candidate).resolve_right fun resolved =>
      unresolved (h.accounting.resolvedMark resolved)
  · rcases List.mem_append.mp hi with hi | hi
    · have absent := ((gone i hi).later g).2
      have candidate := listed.ordered.subset hp
      rw [List.mem_insertionSort] at candidate
      exact absent (hkeys ▸ (List.filter_sublist.map _).subset candidate)
    · obtain ⟨p, hmem, rfl⟩ := List.mem_map.mp hp
      exact listed.omits p hmem hi

end Listings

end Privana
