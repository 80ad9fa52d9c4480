import Privana.WithdrawalDiscipline

/-! The entries of a listing of pending withdrawals. They come in the order of their
indices, no unresolved withdrawal is missing below one of them, and the chain that is
read for an entry is the one it is queued for. -/

namespace Privana
open BigEndian Coroutine ServiceOp

variable {P : Platform} {infos : Set TokenInfo} {w : ServiceWorld}

theorem zip_append_shown {xs ys : List ℕ} {rs ts : List WithdrawalRequest}
    (hlen : rs.length = xs.length) (hxs : ∀ p ∈ xs.zip rs, w.Shown p.1 p.2)
    (hys : ∀ p ∈ ys.zip ts, w.Shown p.1 p.2) :
    ∀ p ∈ (xs ++ ys).zip (rs ++ ts), w.Shown p.1 p.2 := by
  intro p hp
  rw [List.zip_append hlen.symm] at hp
  exact (List.mem_append.mp hp).elim (hxs p) (hys p)

/-- What a discipline says of the operations of a listing. -/
structure ListingRules (D : Discipline ServiceWorld ServiceOp ServiceOp.Reply) : Prop where
  shown : ∀ {w v i r}, D.grows w v → w.Shown i r → v.Shown i r
  resolved : ∀ {w v i}, D.grows w v → w.Resolved i → v.Resolved i
  indexed : ∀ {w v i}, D.grows w v → w.Indexed i → v.Indexed i
  reads : ∀ {indices w}, D.pre (.withdrawals indices) w
  read : ∀ {indices results w}, D.told (.withdrawals indices) results w →
    results.length = indices.length ∧ ∀ p ∈ indices.zip results, w.Shown p.1 p.2
  pops : ∀ {i w}, w.Resolved i → D.pre (.popUnresolved i) w
  gets : ∀ {i w}, D.pre (.unresolvedEntry i) w
  got : ∀ {i entry w}, D.told (.unresolvedEntry i) entry w →
    (∀ r, entry = some r → w.Shown i r) ∧ (entry = none → w.Indexed i → w.Resolved i)

theorem service_rules : ListingRules (serviceDiscipline P infos) where
  shown g h := g.shown h
  resolved g h := g.resolved h
  indexed g h := g.indexed _ h
  reads := trivial
  read h := h
  pops h := h
  gets := trivial
  got h := h

section Reads

variable {D : Discipline ServiceWorld ServiceOp ServiceOp.Reply} (rules : ListingRules D)
include rules

theorem readBatches_safe (n : ℕ) (indices : List ℕ) (hw : D.valid w) :
    (readBatches n indices).Safe D
      (fun results v => ∀ p ∈ indices.zip results, v.Shown p.1 p.2) w := by
  induction n generalizing indices w with
  | zero => exact Safe.result fun _ _ _ p hp => by simp at hp
  | succ n ih =>
    unfold readBatches
    split
    · exact Safe.result fun _ _ _ p hp => by simp at hp
    · refine Safe.await (fun _ _ _ => rules.reads) fun results v _ hv told => ?_
      refine Safe.bind hv (ih _ hv) fun rest u g hu shown => Safe.result fun t g' _ => ?_
      have h := zip_append_shown (w := t) (rules.read told).1
        (fun p hp => rules.shown g' (rules.shown g ((rules.read told).2 p hp)))
        fun p hp => rules.shown g' (shown p hp)
      rwa [List.take_append_drop] at h

theorem readWithdrawals_safe (indices : List ℕ) (hw : D.valid w) :
    (readWithdrawals indices).Safe D
      (fun results v => results.length = indices.length ∧
        ∀ p ∈ indices.zip results, v.Shown p.1 p.2) w := by
  refine Safe.bind hw (readBatches_safe rules _ _ hw) fun results v g hv shown => ?_
  dsimp only
  split
  · exact Safe.raise _
  · next hlen =>
    exact Safe.result fun u g' _ => ⟨not_not.mp hlen, fun p hp => rules.shown g' (shown p hp)⟩

end Reads

theorem zipIdx_shown {start n : ℕ} {results : List WithdrawalRequest}
    (hlen : results.length = (List.range' start n).length)
    (shown : ∀ p ∈ (List.range' start n).zip results, w.Shown p.1 p.2) :
    ∀ p ∈ results.zipIdx start, w.Shown p.2 p.1 := by
  rintro ⟨r, i⟩ hp
  obtain ⟨hle, hget⟩ := List.mk_mem_zipIdx_iff_le_and_getElem?_sub.mp hp
  obtain ⟨hlt, rfl⟩ := List.getElem?_eq_some_iff.mp hget
  rw [List.length_range'] at hlen
  have hmem : (i, results[i - start]) ∈ (List.range' start n).zip results := by
    refine List.mem_iff_getElem.mpr ⟨i - start, by simp; omega, ?_⟩
    simp
    omega
  exact shown _ hmem

theorem indexFrom_safe (count n start : ℕ) (hw : ServiceValid P infos w)
    (below : ∀ i < min start count, w.Indexed i) :
    (indexFrom count n start).Safe (serviceDiscipline P infos) (fun _ _ => True) w := by
  induction n generalizing start w with
  | zero => exact Safe.result fun _ _ _ => trivial
  | succ n ih =>
    unfold indexFrom
    split
    · next hlt =>
      refine Safe.bind hw (readWithdrawals_safe service_rules _ hw) fun results v g hv ⟨hlen, shown⟩ => ?_
      refine Safe.await (fun u g' _ => ⟨fun i hi => g'.indexed i (g.indexed i (below i (by omega))),
        zipIdx_shown hlen fun p hp => g'.shown (shown p hp)⟩) fun _ u g' hu told => ?_
      refine ih _ hu fun i hi => told i ?_
      rw [hlen, List.length_range']
      omega
    · exact Safe.result fun _ _ _ => trivial

theorem refreshWithdrawalIndex_quiet :
    refreshWithdrawalIndex.Quiet (serviceDiscipline P infos) := by
  refine .bind (.await fun _ => trivial) fun count => .bind (.await fun _ => trivial) fun scanned => ?_
  split
  · exact .result _
  · refine .bind (.await fun _ => trivial) fun _ => .ensure (fun v hv => ?_) (.await fun _ => trivial)
    refine Safe.await (fun _ _ _ => trivial) fun firstNew u g hu told => ?_
    exact Safe.bind hu (indexFrom_safe _ _ _ hu fun i hi => told i (hi.trans_le (min_le_left _ _)))
      fun _ _ _ _ _ => Safe.result fun _ _ _ => trivial

/-- Entries as a listing returns them: shown by a node, in the order of the candidates,
none that was read as resolved, and none missing that is still unresolved. -/
structure EntriesOf (w : ServiceWorld) (resolved candidates : List ℕ)
    (entries : List (ℕ × WithdrawalRequest)) : Prop where
  shown : ∀ p ∈ entries, w.Shown p.1 p.2
  ordered : (entries.map Prod.fst).Sublist candidates
  omits : ∀ p ∈ entries, p.1 ∉ resolved
  complete : ∀ i ∈ candidates, i ∈ entries.map Prod.fst ∨ w.Resolved i

theorem EntriesOf.later {D : Discipline ServiceWorld ServiceOp ServiceOp.Reply}
    (rules : ListingRules D) {v : ServiceWorld} (g : D.grows w v) {resolved candidates : List ℕ}
    {entries : List (ℕ × WithdrawalRequest)} (h : EntriesOf w resolved candidates entries) :
    EntriesOf v resolved candidates entries :=
  ⟨fun p hp => rules.shown g (h.shown p hp), h.ordered, h.omits,
    fun i hi => (h.complete i hi).imp_right (rules.resolved g)⟩

theorem EntriesOf.cons {resolved candidates : List ℕ} {entries : List (ℕ × WithdrawalRequest)}
    (h : EntriesOf w resolved candidates entries) {index : ℕ} {r : WithdrawalRequest}
    (shown : w.Shown index r) (unresolved : index ∉ resolved) :
    EntriesOf w resolved (index :: candidates) ((index, r) :: entries) where
  shown p hp := by
    rcases List.mem_cons.mp hp with rfl | hp
    · exact shown
    · exact h.shown p hp
  ordered := h.ordered.cons_cons index
  omits p hp := by
    rcases List.mem_cons.mp hp with rfl | hp
    · exact unresolved
    · exact h.omits p hp
  complete i hi := by
    rcases List.mem_cons.mp hi with rfl | hi
    · exact .inl List.mem_cons_self
    · exact (h.complete i hi).imp_left (List.mem_cons_of_mem _)

theorem EntriesOf.skip {resolved candidates : List ℕ} {entries : List (ℕ × WithdrawalRequest)}
    (h : EntriesOf w resolved candidates entries) {index : ℕ} (hr : w.Resolved index) :
    EntriesOf w resolved (index :: candidates) entries where
  shown := h.shown
  ordered := h.ordered.cons index
  omits := h.omits
  complete i hi := by
    rcases List.mem_cons.mp hi with rfl | hi
    · exact .inr hr
    · exact h.complete i hi

theorem collectUnresolved_safe {D : Discipline ServiceWorld ServiceOp ServiceOp.Reply}
    (rules : ListingRules D) (resolved candidates : List ℕ) (hw : D.valid w)
    (hr : ∀ i ∈ resolved, w.Resolved i) (hc : ∀ i ∈ candidates, w.Indexed i) :
    (collectUnresolved resolved candidates).Safe D
      (fun entries v => EntriesOf v resolved candidates entries) w := by
  induction candidates generalizing w with
  | nil => exact Safe.result fun v _ _ => ⟨by simp, List.Sublist.refl _, by simp, by simp⟩
  | cons index candidates ih =>
    have later {v : ServiceWorld} (g : D.grows w v) (hv : D.valid v) :=
      ih hv (fun i hi => rules.resolved g (hr i hi)) fun i hi =>
        rules.indexed g (hc i (List.mem_cons_of_mem _ hi))
    unfold collectUnresolved
    split
    · next hmem =>
      refine Safe.await (fun v g _ => rules.pops (rules.resolved g (hr _ hmem)))
        fun _ v g hv _ => (later g hv).imp fun entries u g' _ h => h.skip ?_
      exact rules.resolved (D.trans g g') (hr _ hmem)
    · next hmem =>
      refine Safe.await (fun _ _ _ => rules.gets) fun entry v g hv told => ?_
      have got := rules.got told
      refine Safe.bind hv (later g hv) fun entries u g' hu h => ?_
      cases entry with
      | some entry =>
        exact Safe.result fun t g'' _ => (h.later rules g'').cons
          (rules.shown (D.trans g' g'') (got.1 _ rfl)) hmem
      | none =>
        refine Safe.result fun t g'' _ => (h.later rules g'').skip ?_
        exact rules.resolved (D.trans g' g'')
          (got.2 rfl (rules.indexed g (hc _ List.mem_cons_self)))

/-- No unresolved withdrawal is missing below an entry. -/
def Complete (w : ServiceWorld) (indices : List ℕ) : Prop :=
  ∀ j ∈ indices, ∀ i < j, i ∈ indices ∨ w.Resolved i

theorem Complete.later {v : ServiceWorld} (g : ServiceGrows w v) {indices : List ℕ}
    (h : Complete w indices) : Complete v indices :=
  fun j hj i hi => (h j hj i hi).imp_right g.resolved

theorem unresolvedWithdrawalEntries_safe (user : Option Address) (hw : ServiceValid P infos w) :
    (unresolvedWithdrawalEntries user).Safe (serviceDiscipline P infos)
      (fun entries v => (∀ p ∈ entries, v.Shown p.1 p.2) ∧
        (entries.map Prod.fst).Pairwise (· ≤ ·) ∧
        (user = none → Complete v (entries.map Prod.fst))) w := by
  refine Safe.bind hw (refreshWithdrawalIndex_quiet w hw) fun count v _ hv _ => ?_
  refine Safe.await (fun _ _ _ => trivial) fun entries u _ hu told => ?_
  refine Safe.bind hu (readWithdrawals_safe service_rules _ hu) fun results t g ht ⟨_, shown⟩ => ?_
  refine (collectUnresolved_safe service_rules _ _ ht (fun i hi => ?_) fun i hi => ?_).imp
    fun pending s g' _ h => ⟨h.shown, (List.pairwise_insertionSort _ _).sublist h.ordered,
      fun hn j hj i hi => ?_⟩
  · obtain ⟨p, hp, rfl⟩ := List.mem_map.mp hi
    obtain ⟨hp, hres⟩ := List.mem_filter.mp hp
    exact (shown p hp).resolved hres
  · rw [List.mem_insertionSort] at hi
    obtain ⟨p, hp, rfl⟩ := List.mem_map.mp hi
    exact g.indexed _ (told p (List.mem_filter.mp hp).1).2.1
  · subst hn
    obtain ⟨p, hp, rfl⟩ := List.mem_map.mp hj
    have hcand : p.1 ∈ entries.map Prod.fst := by
      simpa using h.ordered.subset (List.mem_map_of_mem hp)
    obtain ⟨q, hq, he⟩ := List.mem_map.mp hcand
    rcases (told q hq).2.2 i (he ▸ hi) with hmem | hres
    · exact h.complete i (by simpa using hmem)
    · exact .inr (g'.resolved (g.resolved hres))

theorem getTokenContext_safe (tokenId : Bytes32) :
    (getTokenContext tokenId).Safe (serviceDiscipline P infos)
      (fun context v => v.HasContext tokenId context) w := by
  refine Safe.await (fun _ _ _ => trivial) fun cached v _ hv told => ?_
  cases cached with
  | some context => exact Safe.result fun u g _ => g.hasContext (told context rfl)
  | none =>
    have fetched : (fetchTokenContext tokenId).Safe (serviceDiscipline P infos)
        (fun context v => v.HasContext tokenId context) v := by
      refine Safe.await (fun _ _ _ => trivial) fun info u _ hu told => ?_
      split
      · next context h => exact Safe.result fun t g _ => g.hasContext (told context h)
      · exact Safe.raise _
    refine Safe.bind hv fetched fun context u _ hu h => ?_
    exact Safe.await (fun t g _ => g.hasContext h) fun _ t g ht _ =>
      Safe.result fun s g' _ => (g.trans g').hasContext h

theorem getTokenContext_quiet (tokenId : Bytes32) :
    (getTokenContext tokenId).Quiet (serviceDiscipline P infos) :=
  fun _ _ => (getTokenContext_safe tokenId).imp fun _ _ _ _ _ => trivial

/-- The chain that is read is the one that the entry is queued for. -/
theorem destinationChain_safe (p : ℕ × WithdrawalRequest) (hw : ServiceValid P infos w)
    (shown : w.Shown p.1 p.2) :
    (destinationChain p).Safe (serviceDiscipline P infos)
      (fun chainId v => ∀ c, chainId = some c → v.QueuedFor c p.1) w := by
  refine Safe.except hw (Safe.bind hw (getTokenContext_safe _) fun context v g hv h => ?_)
    fun _ _ _ _ => Safe.result fun _ _ _ _ hc => by cases hc
  refine Safe.result fun u g' hu c hc => ?_
  obtain rfl := Option.some.inj hc
  exact hu.queuedFor (g'.shown (g.shown shown)) (g'.hasContext h)

end Privana
