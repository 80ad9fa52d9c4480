import Privana.WithdrawalPayout
import Privana.WithdrawalProcessor

/-! What the tasks around the withdrawal queue may rely on. The contract only moves
forward, and an entry leaves the index only once it is resolved. An operation that
writes the index says what it needs; a reply says what the contract or the memory
then shows. -/

namespace Privana
open BigEndian Coroutine

variable {P : Platform} {infos : Set TokenInfo}

/-- A later state of the contract: entries, tokens and resolved marks stay. -/
structure Later (s s' : State) : Prop where
  extension : Extends s s'
  resolved : ∀ (i : ℕ) (w : WithdrawalRequest), s.withdrawals[i]? = some w → w.resolved = true →
    ∃ w' : WithdrawalRequest, s'.withdrawals[i]? = some w' ∧ w'.resolved = true

theorem Later.refl (s : State) : Later s s := ⟨.refl s, fun _ w hw hr => ⟨w, hw, hr⟩⟩

theorem Later.trans {s s' s'' : State} (h : Later s s') (h' : Later s' s'') : Later s s'' where
  extension := h.extension.trans h'.extension
  resolved i w hw hr := by
    obtain ⟨w', hw', hr'⟩ := h.resolved i w hw hr
    exact h'.resolved i w' hw' hr'

namespace ServiceWorld

variable (w : ServiceWorld)

def Resolved (i : ℕ) : Prop :=
  ∃ r : WithdrawalRequest, w.accounting.withdrawals[i]? = some r ∧ r.resolved = true

/-- Withdrawal `i` is queued for chain `c`. -/
def QueuedFor (c : U256) (i : ℕ) : Prop :=
  ∃ (r : WithdrawalRequest) (token : Option Address), w.accounting.withdrawals[i]? = some r ∧
    tokenTarget (w.accounting.tokens r.tokenId) = some (c, token)

/-- `r` is what a node showed of withdrawal `i`, now or earlier. -/
def Shown (i : ℕ) (r : WithdrawalRequest) : Prop :=
  ∃ r' : WithdrawalRequest, w.accounting.withdrawals[i]? = some r' ∧ r'.core = r.core ∧
    (r.resolved = true → r'.resolved = true)

def Indexed (i : ℕ) : Prop :=
  (∃ r, (i, r) ∈ w.unresolvedWithdrawals) ∨ w.Resolved i

def HasContext (tokenId : Bytes32) (context : TokenContext) : Prop :=
  tokenContext (w.accounting.tokens tokenId) = .ok context

end ServiceWorld

structure ServiceValid (P : Platform) (infos : Set TokenInfo) (w : ServiceWorld) : Prop where
  queue : QueueInvariant P infos w.accounting
  past : ∀ s ∈ w.past, Later s w.accounting
  blocks : (w.accounting.withdrawals.map (·.blockNumber.toNat)).Pairwise (· ≤ ·)
  latest : ∀ b ∈ w.accounting.withdrawals.map (·.blockNumber.toNat), b ≤ w.block
  entries : ∀ p ∈ w.unresolvedWithdrawals, w.Shown p.1 p.2
  filled : ∀ p ∈ w.unresolvedWithdrawals, ∀ i < p.1, w.Indexed i
  scanned : ∀ i < w.withdrawalsScanned, w.Indexed i
  contexts : ∀ t c, w.tokenContextCache t = some c → w.HasContext t c

structure ServiceGrows (w v : ServiceWorld) : Prop where
  accounting : Later w.accounting v.accounting
  indexed : ∀ i, w.Indexed i → v.Indexed i

namespace ServiceGrows

variable {w v u : ServiceWorld}

theorem refl (w : ServiceWorld) : ServiceGrows w w :=
  ⟨.refl _, fun _ h => h⟩

theorem trans (h : ServiceGrows w v) (h' : ServiceGrows v u) : ServiceGrows w u where
  accounting := h.accounting.trans h'.accounting
  indexed i hi := h'.indexed i (h.indexed i hi)

theorem resolved (h : ServiceGrows w v) {i : ℕ} (hi : w.Resolved i) : v.Resolved i := by
  obtain ⟨r, hr, hres⟩ := hi
  exact h.accounting.resolved i r hr hres

theorem queuedFor (h : ServiceGrows w v) {c : U256} {i : ℕ} (hi : w.QueuedFor c i) :
    v.QueuedFor c i := by
  obtain ⟨r, token, hr, ht⟩ := hi
  obtain ⟨r', hr', hc⟩ := h.accounting.extension.entry hr
  have hid : r'.core.tokenId = r.core.tokenId := congrArg WithdrawalRequest.tokenId hc
  exact ⟨r', token, hr', (congrArg v.accounting.tokens hid).symm ▸
    h.accounting.extension.target ht⟩

theorem shown (h : ServiceGrows w v) {i : ℕ} {r : WithdrawalRequest} (hi : w.Shown i r) :
    v.Shown i r := by
  obtain ⟨r', hr', hc, hres⟩ := hi
  obtain ⟨r'', hr'', hc'⟩ := h.accounting.extension.entry hr'
  refine ⟨r'', hr'', hc'.trans hc, fun hr => ?_⟩
  obtain ⟨x, hx, hxr⟩ := h.accounting.resolved i r' hr' (hres hr)
  rw [hr''] at hx
  obtain rfl := Option.some.inj hx
  exact hxr

end ServiceGrows

theorem data_ne_nil_of_tokenContext {info : TokenInfo} {c : TokenContext}
    (h : tokenContext info = .ok c) : info.data ≠ [] := by
  intro he
  simp [tokenContext, he, ofBytes, BigEndian.decode] at h

/-- Both readings of a token's data agree on the chain. -/
theorem tokenContext_target {info : TokenInfo} {c : TokenContext} {target : U256 × Option Address}
    (h : tokenContext info = .ok c) (ht : tokenTarget info = some target) :
    c.chainId = target.1 := by
  have chain : c.chainId = ofBytes (info.data.take 32) := by
    simp only [tokenContext] at h
    split at h
    · cases h
    · split at h
      · cases h
        rfl
      · split at h <;> cases h
        rfl
  rw [chain]
  rcases tokenTarget_eq_some ht with ⟨-, -, rfl⟩ | ⟨-, -, rfl⟩ <;> rfl

theorem Extends.length {s s' : State} (h : Extends s s') :
    s.withdrawals.length ≤ s'.withdrawals.length := by
  simpa using h.queue.length_le

/-- A withdrawal is queued for one chain. -/
theorem ServiceWorld.QueuedFor.unique {w : ServiceWorld} {c d : U256} {i : ℕ}
    (h : w.QueuedFor c i) (h' : w.QueuedFor d i) : c = d := by
  obtain ⟨r, _, hr, ht⟩ := h
  obtain ⟨r', _, hr', ht'⟩ := h'
  rw [hr] at hr'
  obtain rfl := Option.some.inj hr'
  rw [ht] at ht'
  exact (Prod.mk.inj (Option.some.inj ht')).1

/-- What the context of an entry's token says about the chain it is queued for. -/
theorem ServiceValid.queuedFor {w : ServiceWorld} (h : ServiceValid P infos w) {i : ℕ}
    {r : WithdrawalRequest} (shown : w.Shown i r) {c : TokenContext}
    (context : w.HasContext r.tokenId c) : w.QueuedFor c.chainId i := by
  obtain ⟨r', hr', hc, -⟩ := shown
  have hid : r'.core.tokenId = r.core.tokenId := congrArg WithdrawalRequest.tokenId hc
  obtain ⟨target, ht⟩ := h.queue.target r' (List.mem_of_getElem? hr')
  have ht' : tokenTarget (w.accounting.tokens r.tokenId) = some target :=
    (congrArg w.accounting.tokens hid) ▸ ht
  exact ⟨r', target.2, hr', by rw [tokenContext_target context ht']; exact ht⟩

theorem ServiceValid.queued {w : ServiceWorld} (h : ServiceValid P infos w) {i : ℕ}
    {r : WithdrawalRequest} (shown : w.Shown i r) : ∃ c, w.QueuedFor c i := by
  obtain ⟨r', hr', -⟩ := shown
  obtain ⟨target, ht⟩ := h.queue.target r' (List.mem_of_getElem? hr')
  exact ⟨target.1, r', target.2, hr', ht⟩

theorem ServiceGrows.hasContext {w v : ServiceWorld} (h : ServiceGrows w v) {t : Bytes32}
    {c : TokenContext} (hc : w.HasContext t c) : v.HasContext t c := by
  unfold ServiceWorld.HasContext
  rw [h.accounting.extension.tokens t (data_ne_nil_of_tokenContext hc)]
  exact hc

/-- What an operation needs when it is performed. -/
def servicePre : ServiceOp → ServiceWorld → Prop
  | .indexWithdrawals start results, w =>
    (∀ i < start, w.Indexed i) ∧ ∀ p ∈ results.zipIdx start, w.Shown p.2 p.1
  | .popUnresolved index, w => w.Resolved index
  | .cacheTokenContext tokenId context, w => w.HasContext tokenId context
  | _, _ => True

/-- What a reply says. -/
def serviceTold : (op : ServiceOp) → op.Reply → ServiceWorld → Prop
  | .withdrawals indices, results, w =>
    results.length = indices.length ∧ ∀ p ∈ indices.zip results, w.Shown p.1 p.2
  | .tokens tokenId, info, w => ∀ c, tokenContext info = .ok c → w.HasContext tokenId c
  | .cachedTokenContext tokenId, cached, w => ∀ c, cached = some c → w.HasContext tokenId c
  | .withdrawalsScanned, n, w => ∀ i < n, w.Indexed i
  | .indexWithdrawals start results, _, w => ∀ i < start + results.length, w.Indexed i
  | .unresolvedWithdrawals, entries, w => ∀ p ∈ entries,
    w.Shown p.1 p.2 ∧ w.Indexed p.1 ∧ ∀ i < p.1, i ∈ entries.map Prod.fst ∨ w.Resolved i
  | .unresolvedEntry index, entry, w =>
    (∀ r, entry = some r → w.Shown index r) ∧
      (entry = none → w.Indexed index → w.Resolved index)
  | _, _, _ => True

def serviceDiscipline (P : Platform) (infos : Set TokenInfo) :
    Discipline ServiceWorld ServiceOp ServiceOp.Reply where
  valid := ServiceValid P infos
  grows := ServiceGrows
  pre := servicePre
  told := serviceTold
  refl := .refl
  trans := .trans

section Memory
variable {w v : ServiceWorld}

/-- Only the memory that the discipline does not speak of differs. -/
theorem ServiceValid.frame (h : ServiceValid P infos w) (accounting : v.accounting = w.accounting)
    (past : v.past = w.past) (block : v.block = w.block)
    (unresolved : v.unresolvedWithdrawals = w.unresolvedWithdrawals)
    (scanned : v.withdrawalsScanned = w.withdrawalsScanned)
    (cache : v.tokenContextCache = w.tokenContextCache) :
    ServiceValid P infos v ∧ ServiceGrows w v := by
  cases v
  subst accounting past block unresolved scanned cache
  exact ⟨⟨h.queue, h.past, h.blocks, h.latest, h.entries, h.filled, h.scanned, h.contexts⟩,
    .refl _, fun _ h => h⟩

/-- A new index that loses no unresolved entry. -/
theorem ServiceGrows.index (accounting : v.accounting = w.accounting)
    (indexed : ∀ i, w.Indexed i → v.Indexed i) : ServiceGrows w v :=
  ⟨accounting ▸ .refl _, indexed⟩

theorem mem_unresolvedAmong {start i : ℕ} {results : List WithdrawalRequest}
    {r : WithdrawalRequest} :
    (i, r) ∈ ServiceWorld.unresolvedAmong start results ↔
      (r, i) ∈ results.zipIdx start ∧ r.resolved = false := by
  simp [ServiceWorld.unresolvedAmong]

theorem ServiceWorld.Shown.resolved {i : ℕ} {r : WithdrawalRequest} (h : w.Shown i r)
    (hr : r.resolved = true) : w.Resolved i := by
  obtain ⟨r', hr', -, hres⟩ := h
  exact ⟨r', hr', hres hr⟩

theorem indexed_indexWithdrawals {start : ℕ} {results : List WithdrawalRequest} {i : ℕ}
    (h : w.Indexed i) : (w.indexWithdrawals start results).Indexed i := by
  rcases h with ⟨r, hr⟩ | h
  · by_cases hi : i ∈ (ServiceWorld.unresolvedAmong start results).map Prod.fst
    · obtain ⟨⟨j, r'⟩, hp, rfl⟩ := List.mem_map.mp hi
      exact .inl ⟨r', List.mem_append_right _ hp⟩
    · exact .inl ⟨r, List.mem_append_left _ (List.mem_filter.mpr ⟨hr, by simpa using hi⟩)⟩
  · exact .inr h

/-- Everything below the end of an indexed batch is indexed. -/
theorem indexed_of_lt_batch {start : ℕ} {results : List WithdrawalRequest}
    (pre : servicePre (.indexWithdrawals start results) w) {i : ℕ}
    (hi : i < start + results.length) : (w.indexWithdrawals start results).Indexed i := by
  rcases Nat.lt_or_ge i start with hlt | hge
  · exact indexed_indexWithdrawals (pre.1 i hlt)
  · have hk : i - start < results.length := by omega
    have hmem : (results[i - start], i) ∈ results.zipIdx start :=
      List.mk_mem_zipIdx_iff_le_and_getElem?_sub.mpr ⟨hge, List.getElem?_eq_getElem hk⟩
    cases hr : results[i - start].resolved with
    | false => exact .inl ⟨_, List.mem_append_right _ (mem_unresolvedAmong.mpr ⟨hmem, hr⟩)⟩
    | true => exact .inr ((pre.2 _ hmem).resolved hr)

theorem indexWithdrawals_valid (h : ServiceValid P infos w) {start : ℕ}
    {results : List WithdrawalRequest} (pre : servicePre (.indexWithdrawals start results) w) :
    ServiceValid P infos (w.indexWithdrawals start results) := by
  have hentry : ∀ p ∈ (w.indexWithdrawals start results).unresolvedWithdrawals,
      p ∈ w.unresolvedWithdrawals ∨ (p.2, p.1) ∈ results.zipIdx start := by
    intro p hp
    rcases List.mem_append.mp hp with hp | hp
    · exact .inl (List.mem_filter.mp hp).1
    · exact .inr (mem_unresolvedAmong.mp hp).1
  refine ⟨h.queue, h.past, h.blocks, h.latest, fun p hp => ?_, fun p hp i hi => ?_,
    fun i hi => indexed_of_lt_batch pre hi, h.contexts⟩
  · rcases hentry p hp with hp | hp
    · exact h.entries p hp
    · exact pre.2 _ hp
  · rcases hentry p hp with hp | hp
    · exact indexed_indexWithdrawals (h.filled p hp i hi)
    · have hlt : p.1 < start + results.length := by
        have := List.mem_zipIdx hp
        omega
      exact indexed_of_lt_batch pre (hi.trans hlt)

theorem indexed_popUnresolved {index i : ℕ} (pre : w.Resolved index) (h : w.Indexed i) :
    (w.popUnresolved index).Indexed i := by
  rcases h with ⟨r, hr⟩ | h
  · by_cases hi : i = index
    · exact .inr (hi ▸ pre)
    · exact .inl ⟨r, List.mem_filter.mpr ⟨hr, by simpa using hi⟩⟩
  · exact .inr h

theorem popUnresolved_valid (h : ServiceValid P infos w) {index : ℕ} (pre : w.Resolved index) :
    ServiceValid P infos (w.popUnresolved index) where
  queue := h.queue
  past := h.past
  blocks := h.blocks
  latest := h.latest
  entries p hp := h.entries p (List.mem_filter.mp hp).1
  filled p hp i hi := indexed_popUnresolved pre (h.filled p (List.mem_filter.mp hp).1 i hi)
  scanned i hi := indexed_popUnresolved pre (h.scanned i hi)
  contexts := h.contexts

theorem cacheTokenContext_valid (h : ServiceValid P infos w) {t : Bytes32}
    {context : Option TokenContext} (pre : ∀ c, context = some c → w.HasContext t c) :
    ServiceValid P infos (w.cacheTokenContext t context) where
  queue := h.queue
  past := h.past
  blocks := h.blocks
  latest := h.latest
  entries := h.entries
  filled := h.filled
  scanned := h.scanned
  contexts u c hc := by
    by_cases hu : u = t
    · subst hu
      exact pre c (by simpa [ServiceWorld.cacheTokenContext] using hc)
    · exact h.contexts u c (by simpa [ServiceWorld.cacheTokenContext, hu] using hc)

theorem lookup_eq_none {entries : List (ℕ × WithdrawalRequest)} {index : ℕ}
    (h : entries.lookup index = none) (r : WithdrawalRequest) : (index, r) ∉ entries := by
  intro hr
  have := List.lookup_eq_none_iff.mp h _ hr
  simp at this

theorem mem_of_lookup {entries : List (ℕ × WithdrawalRequest)} {index : ℕ}
    {r : WithdrawalRequest} (h : entries.lookup index = some r) : (index, r) ∈ entries := by
  obtain ⟨_, _, rfl, -⟩ := List.lookup_eq_some_iff.mp h
  simp

theorem memoryAccess_keeps {task : ℕ} {op : ServiceOp} {a : op.Reply}
    (valid : ServiceValid P infos w) (pre : servicePre op w)
    (h : memoryAccess task w op = some (a, v)) :
    ServiceValid P infos v ∧ ServiceGrows w v ∧ serviceTold op a v := by
  cases op with
  | indexWithdrawals start results =>
    obtain ⟨rfl, rfl⟩ := Prod.mk.inj (Option.some.inj h)
    exact ⟨indexWithdrawals_valid valid pre, .index rfl fun i hi => indexed_indexWithdrawals hi,
      fun i hi => indexed_of_lt_batch pre hi⟩
  | popUnresolved index =>
    obtain ⟨rfl, rfl⟩ := Prod.mk.inj (Option.some.inj h)
    exact ⟨popUnresolved_valid valid pre, .index rfl fun i hi => indexed_popUnresolved pre hi,
      trivial⟩
  | cacheTokenContext t c =>
    obtain ⟨rfl, rfl⟩ := Prod.mk.inj (Option.some.inj h)
    exact ⟨cacheTokenContext_valid valid (by rintro _ ⟨⟩; exact pre), .index rfl fun _ hi => hi,
      trivial⟩
  | withdrawalsScanned =>
    obtain ⟨rfl, rfl⟩ := Prod.mk.inj (Option.some.inj h)
    exact ⟨valid, .refl _, valid.scanned⟩
  | unresolvedWithdrawals =>
    obtain ⟨rfl, rfl⟩ := Prod.mk.inj (Option.some.inj h)
    refine ⟨valid, .refl _, fun p hp => ⟨valid.entries p hp, .inl ⟨p.2, hp⟩, fun i hi => ?_⟩⟩
    rcases valid.filled p hp i hi with ⟨r, hr⟩ | hr
    · exact .inl (List.mem_map_of_mem hr)
    · exact .inr hr
  | unresolvedEntry index =>
    obtain ⟨rfl, rfl⟩ := Prod.mk.inj (Option.some.inj h)
    refine ⟨valid, .refl _, fun r hr => valid.entries _ (mem_of_lookup hr), fun hn hi => ?_⟩
    rcases hi with ⟨r, hr⟩ | hr
    · exact absurd hr (lookup_eq_none hn r)
    · exact hr
  | cachedTokenContext t =>
    obtain ⟨rfl, rfl⟩ := Prod.mk.inj (Option.some.inj h)
    exact ⟨valid, .refl _, fun c hc => valid.contexts t c hc⟩
  | acquireWithdrawalsLock =>
    simp only [memoryAccess] at h
    split at h
    · obtain ⟨rfl, rfl⟩ := Prod.mk.inj (Option.some.inj h)
      exact and_assoc.mp ⟨valid.frame rfl rfl rfl rfl rfl rfl, trivial⟩
    · cases h
  | releaseWithdrawalsLock | cachedEvmAddress | cacheEvmAddress | isRunning | lastBroadcastHash
  | rememberBroadcast | appendPending | broadcastingMissing | highWaterMark
  | raiseHighWaterMark =>
    obtain ⟨rfl, rfl⟩ := Prod.mk.inj (Option.some.inj h)
    exact and_assoc.mp ⟨valid.frame rfl rfl rfl rfl rfl rfl, trivial⟩
  | _ => cases h

end Memory

section Nodes
variable {w v : ServiceWorld}

theorem ServiceValid.node (h : ServiceValid P infos w) {lag : ℕ} {s : State}
    (hs : w.node lag = some s) : Later s w.accounting := by
  rcases List.mem_cons.mp (List.mem_of_getElem? hs) with rfl | hs
  · exact .refl _
  · exact h.past s hs

theorem Later.advances {s s' : State} (h : Later s s') : Advances s s' :=
  ⟨h.extension.queue, h.resolved⟩

theorem Advances.shown {s : State} (h : Advances s w.accounting) {i : ℕ} {r : WithdrawalRequest}
    (hr : s.withdrawals[i]? = some r) : w.Shown i r := by
  obtain ⟨r', hr', hc⟩ := h.entry hr
  refine ⟨r', hr', hc, fun hres => ?_⟩
  obtain ⟨x, hx, hxr⟩ := h.resolved i r hr hres
  rw [hr'] at hx
  obtain rfl := Option.some.inj hx
  exact hxr

theorem mapM_option {α β : Type} {f : α → Option β} {xs : List α} {ys : List β}
    (h : xs.mapM f = some ys) : ys.length = xs.length ∧ ∀ p ∈ xs.zip ys, f p.1 = some p.2 := by
  induction xs generalizing ys with
  | nil =>
    obtain rfl := Option.some.inj h
    simp
  | cons x xs ih =>
    simp only [List.mapM_cons, Option.bind_eq_bind, Option.bind_eq_some_iff] at h
    obtain ⟨y, hy, zs, hzs, h⟩ := h
    obtain rfl := Option.some.inj h
    obtain ⟨hlen, hall⟩ := ih hzs
    exact ⟨by simp [hlen], by simpa [hy] using fun a b hab => hall (a, b) hab⟩

theorem contractReads_told (valid : ServiceValid P infos w) {lag : ℕ} {s : State}
    (hs : w.node lag = some s) {op : ServiceOp} {a : op.Reply}
    (h : contractReads P w.block s op = some (.ok a)) : serviceTold op a w := by
  have later := valid.node hs
  cases op with
  | withdrawals indices =>
    simp only [contractReads] at h
    split at h
    · next results read =>
      cases h
      obtain ⟨hlen, hall⟩ := mapM_option read
      exact ⟨hlen, fun p hp => later.advances.shown (hall p hp)⟩
    · cases h
  | tokens t =>
    cases h
    intro c hc
    unfold ServiceWorld.HasContext
    rw [later.extension.tokens t (data_ne_nil_of_tokenContext hc)]
    exact hc
  | _ => first | exact trivial | cases h

theorem remoteCalls_told {op : ServiceOp} {answer : Answer} {a : op.Reply}
    (h : remoteCalls op answer = some (.ok a)) : serviceTold op a w := by
  cases op <;> first | exact trivial | cases answer <;> cases h

theorem servicePerform_keeps {task : ℕ} {op : ServiceOp} {answer : Answer}
    {r : Except ServiceError op.Reply} (valid : ServiceValid P infos w) (pre : servicePre op w)
    (h : servicePerform P task op answer w = some (r, v)) :
    ServiceValid P infos v ∧ ServiceGrows w v ∧ ∀ a, r = .ok a → serviceTold op a v := by
  rcases servicePerform_cases h with ⟨a, hm, rfl⟩ | ⟨rfl, told⟩
  · obtain ⟨hv, hg, ht⟩ := memoryAccess_keeps valid pre hm
    exact ⟨hv, hg, by rintro _ ⟨⟩; exact ht⟩
  · refine ⟨valid, .refl _, fun a ha => ?_⟩
    rcases told a ha with ⟨lag, s, hs, hr⟩ | ⟨answer, hr⟩
    · exact contractReads_told valid hs hr
    · exact remoteCalls_told hr

/-- The token infos that a move registers are among `infos`. -/
def RegistersOnly (infos : Set TokenInfo) (e : ServiceMove) : Prop :=
  ∀ tx info, e = .transact tx → tx.call = .setTokenInfo info → info ∈ infos

theorem blocks_core (ws : List WithdrawalRequest) :
    (ws.map (·.core)).map (·.blockNumber.toNat) = ws.map (·.blockNumber.toNat) := by
  rw [List.map_map]
  rfl

/-- Blocks do not run backwards, so the queue is in the order of its blocks. -/
theorem QueueChange.blocks {m : Msg} {call : Call} {s s' : State} (h : QueueChange P m call s s')
    {block : ℕ} (blocks : (s.withdrawals.map (·.blockNumber.toNat)).Pairwise (· ≤ ·))
    (latest : ∀ b ∈ s.withdrawals.map (·.blockNumber.toNat), b ≤ block)
    (hm : block ≤ m.blockNumber.toNat) :
    (s'.withdrawals.map (·.blockNumber.toNat)).Pairwise (· ≤ ·) ∧
      ∀ b ∈ s'.withdrawals.map (·.blockNumber.toNat), b ≤ m.blockNumber.toNat := by
  cases h with
  | same queue =>
    rw [← blocks_core, queue, blocks_core]
    exact ⟨blocks, fun b hb => (latest b hb).trans hm⟩
  | @queued w _ _ _ queue block =>
    rw [queue, List.map_append, List.pairwise_append]
    refine ⟨⟨blocks, List.pairwise_singleton _ _, fun a ha b hb => ?_⟩, fun b hb => ?_⟩
    · obtain rfl : b = w.blockNumber.toNat := by simpa using hb
      exact block ▸ (latest a ha).trans hm
    · rcases List.mem_append.mp hb with hb | hb
      · exact (latest b hb).trans hm
      · obtain rfl : b = w.blockNumber.toNat := by simpa using hb
        exact block ▸ le_rfl
  | registered _ queue =>
    rw [queue]
    exact ⟨blocks, fun b hb => (latest b hb).trans hm⟩

theorem serviceMove_keeps (inj : Set.InjOn (getTokenId P) infos) {e : ServiceMove}
    (allowed : RegistersOnly infos e) (valid : ServiceValid P infos w)
    (h : serviceMove P w e = some v) : ServiceValid P infos v ∧ ServiceGrows w v := by
  cases serviceMove_step h with
  | @transact tx s o block executed =>
    have step := execute_step executed
    have hi : ∀ info, tx.call = .setTokenInfo info → info ∈ infos :=
      fun info he => allowed tx info rfl he
    have later : Later w.accounting s :=
      ⟨valid.queue.extends_step inj hi step, fun i x hx' hr => step.resolved hx' hr⟩
    have grows : ServiceGrows w { w with
        accounting := s, past := w.accounting :: w.past, block := tx.msg.blockNumber.toNat } :=
      ⟨later, fun i hi => hi.imp_right fun ⟨r, hr, hres⟩ => later.resolved i r hr hres⟩
    obtain ⟨hb, hl⟩ := step.queueChange.blocks valid.blocks valid.latest block
    refine ⟨⟨valid.queue.step inj hi step, fun t ht => ?_, hb, hl,
      fun p hp => grows.shown (valid.entries p hp),
      fun p hp i hi => grows.indexed i (valid.filled p hp i hi),
      fun i hi => grows.indexed i (valid.scanned i hi),
      fun t c hc => grows.hasContext (valid.contexts t c hc)⟩, grows⟩
    rcases List.mem_cons.mp ht with rfl | ht
    · exact later
    · exact (valid.past t ht).trans later
  | expireTokenContext t =>
    exact ⟨cacheTokenContext_valid valid (by rintro _ ⟨⟩), .index rfl fun _ hi => hi⟩
  | stop => exact valid.frame rfl rfl rfl rfl rfl rfl

theorem restarted_valid (valid : ServiceValid P infos w) : ServiceValid P infos w.restarted where
  queue := valid.queue
  past := valid.past
  blocks := valid.blocks
  latest := valid.latest
  entries p hp := by cases hp
  filled p hp := by cases hp
  scanned i hi := by cases hi
  contexts t c hc := by cases hc

end Nodes

end Privana
