import Privana.SubmissionPhases

/-! What a step leaves to the other tasks, and that every step of the signed writes keeps
to the phases. Two tasks never hold the same key, so a step that writes the record of a
key or a request under it changes nothing that another holder knows. -/

namespace Privana
open BigEndian Coroutine SignedOp

namespace AccountingClient

variable {C : AccountingClient} {S : SubmissionScope} {n i j task : ℕ} {data key : Bytes}
  {w v : SignedWorld}

theorem Clean.imp {but but' : Option ℕ} (h : C.Clean key but w)
    (requests : ∀ (k : ℕ) (q : Request), v.requests[k]? = some q → but' ≠ some k →
      C.keccak q.tx.data = key → but ≠ some k ∧ w.requests[k]? = some q) :
    C.Clean key but' v := fun k q hq hb hk =>
  let ⟨hb', hq'⟩ := requests k q hq hb hk
  h k q hq' hb' hk

/-- What task `i` or the world may do while task `j` waits. -/
structure Frame (C : AccountingClient) (S : SubmissionScope) (i : ℕ) (w v : SignedWorld) : Prop where
  started : ∀ (j : ℕ) (t : SignedTask), w.started[j]? = some t → v.started[j]? = some t
  tasks : ∀ (task : ℕ) (t : SubmissionTask), w.tasks[task]? = some t →
    ∃ t', v.tasks[task]? = some t' ∧ t'.data = t.data
  requests : ∀ (k : ℕ) (q : Request), w.requests[k]? = some q →
    ∃ q', v.requests[k]? = some q' ∧ q'.tx = q.tx
  executed : ∀ key, S.alive key → Recorded .executed key w → Recorded .executed key v
  landed : ∀ key, C.Landed key w → C.Landed key v
  awaiting : ∀ j q, j ≠ i → (j, q) ∈ v.awaiting → (j, q) ∈ w.awaiting
  submissions : ∀ j task data, j ≠ i → C.Holding j task data w →
    v.submissions (C.keccak data) = some task
  store : ∀ j task data, j ≠ i → C.Holding j task data w → S.alive (C.keccak data) →
    v.store (C.keccak data) = w.store (C.keccak data)
  clean : ∀ j task data but, j ≠ i → C.Holding j task data w → C.Clean (C.keccak data) but w →
    C.Clean (C.keccak data) but v

namespace Frame

variable (C S) in
theorem refl (i : ℕ) (w : SignedWorld) : C.Frame S i w w :=
  ⟨fun _ _ h => h, fun _ t h => ⟨t, h, rfl⟩, fun _ q h => ⟨q, h, rfl⟩, fun _ _ h => h,
    fun _ h => h, fun _ _ _ h => h, fun _ _ _ _ h => h.2, fun _ _ _ _ _ _ => rfl,
    fun _ _ _ _ _ _ h => h⟩

theorem holding (f : C.Frame S i w v) (hj : j ≠ i) (h : C.Holding j task data w) :
    C.Holding j task data v := ⟨f.started _ _ h.1, f.submissions _ _ _ hj h⟩

theorem idle (f : C.Frame S i w v) (hj : j ≠ i) (h : Idle j w) : Idle j v :=
  fun q hq => h q (f.awaiting j q hj hq)

theorem recorded (f : C.Frame S i w v) (hj : j ≠ i) (h : C.Holding j task data w)
    (live : S.alive (C.keccak data)) (status : CallStatus) :
    Recorded status (C.keccak data) v ↔ Recorded status (C.keccak data) w := by
  rw [Recorded, Recorded, f.store _ _ _ hj h live]

theorem knows (f : C.Frame S i w v) (hj : j ≠ i) {x : SignedPhase}
    (h : C.Knows S j x w) : C.Knows S j x v := by
  cases x with
  | ended => trivial
  | calling => exact h
  | failed => trivial
  | absent => trivial
  | joined data task =>
    obtain ⟨t, ht, hk⟩ := h
    obtain ⟨t', ht', hd⟩ := f.tasks _ _ ht
    exact ⟨t', ht', by rw [hd, hk]⟩
  | succeeded data => exact fun live => f.executed _ live (h live)
  | begun task data => exact ⟨f.holding hj h.1, f.idle hj h.2⟩
  | fresh task data earlier =>
    obtain ⟨hold, idle, known⟩ := h
    refine ⟨f.holding hj hold, f.idle hj idle, fun live => ?_⟩
    rw [f.store _ _ _ hj hold live, f.recorded hj hold live]
    exact known live
  | ready task data first =>
    obtain ⟨hold, idle, known⟩ := h
    refine ⟨f.holding hj hold, f.idle hj idle, fun live => ?_⟩
    rw [f.recorded hj hold live]
    exact (known live).imp_right fun clean h => f.clean _ _ _ _ hj hold (clean h)
  | requested task data first request =>
    obtain ⟨hold, only, ⟨q, hq, hd⟩, known⟩ := h
    obtain ⟨q', hq', ht⟩ := f.requests _ _ hq
    refine ⟨f.holding hj hold, fun k hk => only k (f.awaiting _ _ hj hk), ⟨q', hq', by rw [ht, hd]⟩,
      fun live => ?_⟩
    rw [f.recorded hj hold live]
    exact (known live).imp_right fun clean h => f.clean _ _ _ _ hj hold (clean h)
  | executed task data =>
    exact ⟨f.holding hj h.1, f.idle hj h.2.1, f.landed _ h.2.2⟩
  | reverted task data =>
    obtain ⟨hold, idle, known⟩ := h
    refine ⟨f.holding hj hold, f.idle hj idle, fun live => ?_⟩
    rw [f.recorded hj hold live]
    exact (known live).imp_right (f.clean _ _ _ _ hj hold)
  | leaving task data recorded =>
    obtain ⟨hold, idle, known⟩ := h
    exact ⟨f.holding hj hold, f.idle hj idle, fun h live => f.executed _ live (known h live)⟩
  | finishing task data recorded =>
    exact ⟨f.started _ _ h.1, fun hr live => f.executed _ live (h.2 hr live)⟩

end Frame

/-- Only one task holds a key. -/
theorem SignedInvariant.holder (inv : C.SignedInvariant S n w) {task' : ℕ} {data' : Bytes}
    (h : C.Holding i task data w) (h' : C.Holding j task' data' w)
    (same : C.keccak data' = C.keccak data) : j = i := by
  have tasks := h.2.symm.trans (same ▸ h'.2)
  obtain rfl : task = task' := by simpa using tasks
  exact inv.once _ _ _ _ _ h'.1 h.1

/-- A holder writes the record of its key. -/
theorem store_step (inv : C.SignedInvariant S n w) (hold : C.Holding i task data w)
    {s : Option AccountingCall}
    (clean : S.alive (C.keccak data) → s = none → C.Clean (C.keccak data) none w)
    (landed : S.alive (C.keccak data) → ∀ call, s = some call → call.status = .executed →
      C.Landed (C.keccak data) w)
    (executed : S.alive (C.keccak data) → Recorded .executed (C.keccak data) w →
      ∃ call, s = some call ∧ call.status = .executed) :
    C.SignedInvariant S n { w with store := Function.update w.store (C.keccak data) s } ∧
      C.Frame S i w { w with store := Function.update w.store (C.keccak data) s } := by
  have executes : ∀ key, S.alive key → Recorded .executed key w →
      Recorded .executed key { w with store := Function.update w.store (C.keccak data) s } := by
    intro key live h
    by_cases hk : key = C.keccak data
    · subst hk
      simpa [Recorded] using executed live h
    · simpa [Recorded, hk] using h
  refine ⟨{ inv with clean := ?_, landed := ?_, results := ?_ },
    { Frame.refl C S i w with executed := executes, store := ?_ }⟩
  · intro key live h
    by_cases hk : key = C.keccak data
    · subst hk
      exact clean live (by simpa using h)
    · exact inv.clean key live (by simpa [hk] using h)
  · rintro key live ⟨call, h, hs⟩
    by_cases hk : key = C.keccak data
    · subst hk
      exact landed live call (by simpa using h) hs
    · exact inv.landed key live ⟨call, by simpa [hk] using h, hs⟩
  · exact fun t ht a ha live => executes _ live (inv.results t ht a ha live)
  · intro j task' data' hj h' _
    exact Function.update_of_ne (fun same => hj (inv.holder hold h' same)) _ _

theorem join_step (inv : C.SignedInvariant S n w) (brought : S.brought data)
    (fresh : w.submissions (C.keccak data) = none) :
    let v : SignedWorld := { w with
      tasks := w.tasks ++ [⟨data, false, none⟩]
      submissions := Function.update w.submissions (C.keccak data) (some w.tasks.length) }
    C.SignedInvariant S n v ∧ C.Frame S i w v := by
  intro v
  have tasks : ∀ (task : ℕ) (t : SubmissionTask), w.tasks[task]? = some t →
      v.tasks[task]? = some t := fun task t h =>
    (List.getElem?_append_left (List.getElem?_eq_some_iff.mp h).1).trans h
  have filed : ∀ key task, w.submissions key = some task → v.submissions key = some task := by
    intro key task h
    rw [← h]
    exact Function.update_of_ne (fun same => by simp [← same, h] at fresh) _ _
  have holds : ∀ j task data, C.Holding j task data w → C.Holding j task data v :=
    fun j task data h => ⟨h.1, filed _ _ h.2⟩
  refine ⟨⟨inv.started, ?_, inv.once, ?_, ?_, inv.clean, inv.landed, ?_, ?_, inv.single, inv.nodup,
    ?_, inv.asked⟩, { Frame.refl C S i w with tasks := ?_, submissions := ?_ }⟩
  · intro j task data' h
    obtain ⟨t, ht, hd⟩ := inv.begun j task data' h
    exact ⟨t, tasks _ _ ht, hd⟩
  · intro key task h
    by_cases hk : key = C.keccak data
    · subst hk
      obtain rfl : w.tasks.length = task := by simpa [v] using h
      exact ⟨_, List.getElem?_concat_length, rfl⟩
    · obtain ⟨t, ht, hd⟩ := inv.filed key task (by simpa [v, hk] using h)
      exact ⟨t, tasks _ _ ht, hd⟩
  · intro task t h hb
    rcases getElem?_concat h with ⟨-, h⟩ | ⟨rfl, rfl⟩
    · exact filed _ _ (inv.waiting task t h hb)
    · simp [v]
  · intro t ht a ha
    rcases List.mem_append.mp ht with ht | ht
    · exact inv.results t ht a ha
    · obtain rfl := List.mem_singleton.mp ht
      cases ha
  · intro j q h
    obtain ⟨task, data', hold, hq⟩ := inv.awaiting j q h
    exact ⟨task, data', holds _ _ _ hold, hq⟩
  · intro t ht
    rcases List.mem_append.mp ht with ht | ht
    · exact inv.made t ht
    · obtain rfl := List.mem_singleton.mp ht
      exact brought
  · exact fun task t h => ⟨t, tasks task t h, rfl⟩
  · exact fun j task data' _ h => (holds _ _ _ h).2

theorem leave_step (inv : C.SignedInvariant S n w) (hold : C.Holding i task data w)
    (idle : Idle i w) :
    let v : SignedWorld :=
      { w with submissions := Function.update w.submissions (C.keccak data) none }
    C.SignedInvariant S n v ∧ C.Frame S i w v := by
  intro v
  have others : ∀ j task' data', j ≠ i → C.Holding j task' data' w →
      v.submissions (C.keccak data') = some task' := fun j task' data' hj h => by
    rw [← h.2]
    exact Function.update_of_ne (fun same => hj (inv.holder hold h same)) _ _
  have filed : ∀ key task', v.submissions key = some task' → w.submissions key = some task' := by
    intro key task' h
    by_cases hk : key = C.keccak data
    · subst hk
      simp [v] at h
    · simpa [v, hk] using h
  refine ⟨{ inv with filed := ?_, waiting := ?_, awaiting := ?_ },
    { Frame.refl C S i w with submissions := others }⟩
  · exact fun key task' h => inv.filed key task' (filed key task' h)
  · intro task' t ht hb
    have before := inv.waiting task' t ht hb
    rw [← before]
    refine Function.update_of_ne (fun same => ?_) _ _
    -- the task under the key has begun
    obtain ⟨t', ht', -, hb'⟩ := inv.begun i task data hold.1
    have : task' = task := by simpa [same, hold.2, eq_comm] using before
    rw [this, ht', Option.some_inj] at ht
    simp [← ht, hb'] at hb
  · intro j q h
    obtain ⟨task', data', hold', hq⟩ := inv.awaiting j q h
    exact ⟨task', data', ⟨hold'.1, others _ _ _ (fun hj => idle q (hj ▸ h)) hold'⟩, hq⟩

theorem conclude_step (inv : C.SignedInvariant S n w)
    (started : w.started[i]? = some (.submit task data))
    {r : Except SubmitError SubmissionResult}
    (ok : ∀ a, r = .ok a → S.alive (C.keccak data) → Recorded .executed (C.keccak data) w) :
    let v : SignedWorld :=
      { w with tasks := w.tasks.modify task fun t => { t with result := some r } }
    C.SignedInvariant S n v ∧ C.Frame S i w v := by
  intro v
  have modified : ∀ (k : ℕ) (t : SubmissionTask), w.tasks[k]? = some t →
      ∃ t', v.tasks[k]? = some t' ∧ t'.data = t.data ∧ t'.begun = t.begun := by
    intro k t h
    rw [List.getElem?_modify, h]
    by_cases hk : task = k <;> simp [hk]
  have original : ∀ (k : ℕ) (t' : SubmissionTask), v.tasks[k]? = some t' →
      ∃ t, w.tasks[k]? = some t ∧ t'.data = t.data ∧ t'.begun = t.begun ∧
        (t'.result = t.result ∨ k = task ∧ t'.result = some r) := by
    intro k t' h
    rw [List.getElem?_modify] at h
    cases hw : w.tasks[k]? with
    | none => simp [hw] at h
    | some t =>
      by_cases hk : task = k <;> simp [hw, hk] at h <;> subst h <;> simp [hk]
  refine ⟨{ inv with begun := ?_, filed := ?_, waiting := ?_, results := ?_, made := ?_ },
    { Frame.refl C S i w with tasks := ?_ }⟩
  · intro j k data' h
    obtain ⟨t, ht, hd, hb⟩ := inv.begun j k data' h
    obtain ⟨t', ht', hd', hb'⟩ := modified k t ht
    exact ⟨t', ht', hd'.trans hd, hb'.trans hb⟩
  · intro key k h
    obtain ⟨t, ht, hd⟩ := inv.filed key k h
    obtain ⟨t', ht', hd', -⟩ := modified k t ht
    exact ⟨t', ht', by rw [hd', hd]⟩
  · intro k t' h hb
    obtain ⟨t, ht, hd, hb', -⟩ := original k t' h
    rw [hd]
    exact inv.waiting k t ht (hb'.symm.trans hb)
  · intro t' ht' a ha live
    obtain ⟨k, hk⟩ := List.mem_iff_getElem?.mp ht'
    obtain ⟨t, ht, hd, -, hr | ⟨rfl, hr⟩⟩ := original k t' hk
    · rw [hd] at live ⊢
      exact inv.results t (List.mem_of_getElem? ht) a (hr.symm.trans ha) live
    · obtain ⟨t₀, ht₀, hd₀, -⟩ := inv.begun i k data started
      obtain rfl : t₀ = t := by simpa [ht] using ht₀.symm
      rw [hd, hd₀] at live ⊢
      exact ok a (by simpa [hr] using ha) live
  · intro t' ht'
    obtain ⟨k, hk⟩ := List.mem_iff_getElem?.mp ht'
    obtain ⟨t, ht, hd, -⟩ := original k t' hk
    rw [hd]
    exact inv.made t (List.mem_of_getElem? ht)
  · intro k t h
    obtain ⟨t', ht', hd, -⟩ := modified k t h
    exact ⟨t', ht', hd⟩

theorem request_step (inv : C.SignedInvariant S n w) (hold : C.Holding i task data w)
    (idle : Idle i w) {tx : TxParams} (htx : tx.data = data)
    (pending : S.alive (C.keccak data) → Recorded .pending (C.keccak data) w) :
    let v : SignedWorld := { w with
      requests := w.requests ++ [⟨tx, none, false⟩]
      awaiting := (i, w.requests.length) :: w.awaiting }
    C.SignedInvariant S n v ∧ C.Frame S i w v := by
  intro v
  have requests : ∀ (k : ℕ) (q : Request), w.requests[k]? = some q → v.requests[k]? = some q :=
    fun k q h => (List.getElem?_append_left (List.getElem?_eq_some_iff.mp h).1).trans h
  have others : ∀ key but, key ≠ C.keccak data → C.Clean key but w → C.Clean key but v := by
    intro key but hk h
    refine h.imp fun k q hq hb hd => ⟨hb, ?_⟩
    rcases getElem?_concat hq with ⟨-, hq⟩ | ⟨-, rfl⟩
    · exact hq
    · exact absurd hd.symm (by rw [htx]; exact hk)
  have landed : ∀ key, C.Landed key w → C.Landed key v := fun key ⟨q, hq, h⟩ =>
    ⟨q, List.mem_append_left _ hq, h⟩
  refine ⟨⟨inv.started, inv.begun, inv.once, inv.filed, inv.waiting, ?_, ?_, inv.results, ?_, ?_, ?_,
    inv.made, ?_⟩,
    { Frame.refl C S i w with requests := ?_, landed := landed, awaiting := ?_, clean := ?_ }⟩
  · intro key live h
    refine others key none (fun hk => ?_) (inv.clean key live h)
    subst hk
    obtain ⟨call, hc, -⟩ := pending live
    exact absurd (h.symm.trans hc) (by simp)
  · exact fun key live h => landed key (inv.landed key live h)
  · intro j q h
    rcases List.mem_cons.mp h with h | h
    · cases h
      exact ⟨task, data, hold, _, List.getElem?_concat_length, htx⟩
    · obtain ⟨task', data', hold', q', hq', hd⟩ := inv.awaiting j q h
      exact ⟨task', data', hold', q', requests _ _ hq', hd⟩
  · intro j q q' h h'
    rcases List.mem_cons.mp h with h | h <;> rcases List.mem_cons.mp h' with h' | h'
    · cases h; cases h'; rfl
    · cases h; exact absurd h' (idle q')
    · cases h'; exact absurd h (idle q)
    · exact inv.single j q q' h h'
  · exact List.nodup_cons.mpr ⟨idle _, inv.nodup⟩
  · intro q hq
    rcases List.mem_append.mp hq with hq | hq
    · exact inv.asked q hq
    · obtain rfl := List.mem_singleton.mp hq
      obtain ⟨t, ht, hd, -⟩ := inv.begun i task data hold.1
      rw [htx, ← hd]
      exact inv.made t (List.mem_of_getElem? ht)
  · exact fun k q h => ⟨q, requests k q h, rfl⟩
  · intro j q hj h
    rcases List.mem_cons.mp h with h | h
    · cases h; exact absurd rfl hj
    · exact h
  · exact fun j task' data' but hj h => others _ but fun same => hj (inv.holder hold h same)

/-- A reply arrives or is lost, and what it tells is known from then on. -/
theorem reply_step (inv : C.SignedInvariant S n w) {k : ℕ} {q : Request}
    (hq : w.requests[k]? = some q) (answered : Bool) (kept : q.answered = true → answered = true) :
    let v : SignedWorld := { w with
      requests := w.requests.set k { q with answered := answered }
      awaiting := w.awaiting.erase (i, k) }
    C.SignedInvariant S n v ∧ C.Frame S i w v := by
  intro v
  have hk : k < w.requests.length := (List.getElem?_eq_some_iff.mp hq).1
  have requests : ∀ (m : ℕ) (r : Request), w.requests[m]? = some r →
      ∃ r', v.requests[m]? = some r' ∧ r'.tx = r.tx ∧ r'.fate = r.fate ∧
        (r.answered = true → r'.answered = true) := by
    intro m r h
    by_cases hm : k = m
    · subst hm
      obtain rfl : q = r := by simpa [hq] using h
      exact ⟨_, List.getElem?_set_self hk, rfl, rfl, kept⟩
    · exact ⟨r, by rw [List.getElem?_set_ne hm, h], rfl, rfl, id⟩
  have clean : ∀ key but, C.Clean key but w → C.Clean key but v := by
    intro key but h m r hr hb hkey
    by_cases hm : k = m
    · subst hm
      obtain rfl : _ = r := by simpa [v, hk] using hr
      exact (h k q hq hb hkey).imp_left kept
    · exact h m r (by rwa [List.getElem?_set_ne hm] at hr) hb hkey
  have landed : ∀ key, C.Landed key w → C.Landed key v := by
    rintro key ⟨r, hr, hkey, ha, hf⟩
    obtain ⟨m, hm⟩ := List.mem_iff_getElem?.mp hr
    obtain ⟨r', hr', ht, hf', ha'⟩ := requests m r hm
    exact ⟨r', List.mem_of_getElem? hr', by rw [ht, hkey], ha' ha, by rw [hf', hf]⟩
  refine ⟨⟨inv.started, inv.begun, inv.once, inv.filed, inv.waiting, ?_, ?_, inv.results, ?_, ?_, ?_,
    inv.made, ?_⟩,
    { Frame.refl C S i w with requests := ?_, landed := landed, awaiting := ?_, clean := ?_ }⟩
  · exact fun key live h => clean key none (inv.clean key live h)
  · exact fun key live h => landed key (inv.landed key live h)
  · intro j m h
    obtain ⟨task', data', hold', r, hr, hd'⟩ := inv.awaiting j m (List.mem_of_mem_erase h)
    obtain ⟨r', hr', ht, -⟩ := requests m r hr
    exact ⟨task', data', hold', r', hr', by rw [ht, hd']⟩
  · exact fun j m m' h h' =>
      inv.single j m m' (List.mem_of_mem_erase h) (List.mem_of_mem_erase h')
  · exact inv.nodup.erase _
  · intro r hr
    rcases List.mem_or_eq_of_mem_set hr with hr | rfl
    · exact inv.asked r hr
    · exact inv.asked q (List.mem_of_getElem? hq)
  · intro m r h
    obtain ⟨r', hr', ht, -⟩ := requests m r h
    exact ⟨r', hr', ht⟩
  · exact fun j m _ h => List.mem_of_mem_erase h
  · exact fun j task' data' but _ _ => clean _ but

/-- The contract runs a transaction; what is known of others stays so. -/
theorem land_step (inv : C.SignedInvariant S n w) {k : ℕ} {q : Request}
    (hq : w.requests[k]? = some q) (open' : q.fate = none) (fate : Fate) (i : ℕ) :
    let v : SignedWorld := { w with requests := w.requests.set k { q with fate := some fate } }
    C.SignedInvariant S n v ∧ C.Frame S i w v := by
  intro v
  have hk : k < w.requests.length := (List.getElem?_eq_some_iff.mp hq).1
  have requests : ∀ (m : ℕ) (r : Request), w.requests[m]? = some r →
      ∃ r', v.requests[m]? = some r' ∧ r'.tx = r.tx := by
    intro m r h
    by_cases hm : k = m
    · subst hm
      obtain rfl : q = r := by simpa [hq] using h
      exact ⟨_, List.getElem?_set_self hk, rfl⟩
    · exact ⟨r, by rw [List.getElem?_set_ne hm, h], rfl⟩
  have clean : ∀ key but, C.Clean key but w → C.Clean key but v := by
    intro key but h m r hr hb hkey
    by_cases hm : k = m
    · subst hm
      obtain rfl : _ = r := by simpa [v, hk] using hr
      simpa [open'] using (h k q hq hb hkey).2
    · exact h m r (by rwa [List.getElem?_set_ne hm] at hr) hb hkey
  have landed : ∀ key, C.Landed key w → C.Landed key v := by
    rintro key ⟨r, hr, hkey, ha, hf⟩
    obtain ⟨m, hm⟩ := List.mem_iff_getElem?.mp hr
    have ne : k ≠ m := fun same => by
      subst same
      obtain rfl : q = r := by simpa [hq] using hm
      simp [open'] at hf
    exact ⟨r, List.mem_of_getElem? (by rw [List.getElem?_set_ne ne, hm]), hkey, ha, hf⟩
  refine ⟨{ inv with clean := ?_, landed := ?_, awaiting := ?_, asked := ?_ },
    { Frame.refl C S i w with requests := requests, landed := landed, clean := ?_ }⟩
  · exact fun key live h => clean key none (inv.clean key live h)
  · exact fun key live h => landed key (inv.landed key live h)
  · intro j m h
    obtain ⟨task', data', hold', r, hr, hd'⟩ := inv.awaiting j m h
    obtain ⟨r', hr', ht⟩ := requests m r hr
    exact ⟨task', data', hold', r', hr', by rw [ht, hd']⟩
  · intro r hr
    rcases List.mem_or_eq_of_mem_set hr with hr | rfl
    · exact inv.asked r hr
    · exact inv.asked q (List.mem_of_getElem? hq)
  · exact fun j task' data' but _ _ => clean _ but

theorem expire_step (inv : C.SignedInvariant S n w) (dead : ¬ S.alive key) (i : ℕ) :
    let v : SignedWorld := { w with store := Function.update w.store key none }
    C.SignedInvariant S n v ∧ C.Frame S i w v := by
  intro v
  have store : ∀ key', S.alive key' → v.store key' = w.store key' := fun key' live =>
    Function.update_of_ne (fun same : key' = key => dead (same ▸ live)) _ _
  have executed : ∀ key', S.alive key' →
      (Recorded .executed key' v ↔ Recorded .executed key' w) := fun key' live => by
    rw [Recorded, Recorded, store key' live]
  refine ⟨{ inv with clean := ?_, landed := ?_, results := ?_ },
    { Frame.refl C S i w with executed := ?_, store := ?_ }⟩
  · exact fun key' live h => inv.clean key' live ((store key' live).symm.trans h)
  · exact fun key' live h => inv.landed key' live ((executed key' live).mp h)
  · exact fun t ht a ha live => (executed _ live).mpr (inv.results t ht a ha live)
  · exact fun key' live => (executed key' live).mpr
  · exact fun j task' data' _ _ live => store _ live

/-- A task starts, and the tasks of the submissions stay but for what has begun. -/
theorem start_step (inv : C.SignedInvariant S n w) (p : SignedTask)
    (tasks : List SubmissionTask)
    (kept : ∀ (k : ℕ) (t : SubmissionTask), w.tasks[k]? = some t →
      ∃ t', tasks[k]? = some t' ∧ t'.data = t.data ∧ (t.begun = true → t'.begun = true))
    (original : ∀ (k : ℕ) (t' : SubmissionTask), tasks[k]? = some t' →
      ∃ t, w.tasks[k]? = some t ∧ t'.data = t.data ∧ t'.result = t.result ∧
        (t'.begun = false → t.begun = false))
    (new : ∀ task data, p = .submit task data →
      (∃ t, w.tasks[task]? = some t ∧ t.begun = false) ∧
        ∃ t', tasks[task]? = some t' ∧ t'.data = data ∧ t'.begun = true) :
    let v : SignedWorld := { w with tasks := tasks, started := w.started ++ [p] }
    C.SignedInvariant S (n + 1) v ∧ C.Frame S n w v ∧ Idle n v := by
  intro v
  have started : ∀ (j : ℕ) (t : SignedTask), w.started[j]? = some t → v.started[j]? = some t :=
    fun j t h => (List.getElem?_append_left (List.getElem?_eq_some_iff.mp h).1).trans h
  have holds : ∀ j task data, C.Holding j task data w → C.Holding j task data v :=
    fun j task data h => ⟨started _ _ h.1, h.2⟩
  -- a submission is begun once
  have unbegun : ∀ (j task : ℕ) (data data' : Bytes), w.started[j]? = some (.submit task data) →
      p ≠ .submit task data' := fun j task data data' h hp => by
    obtain ⟨t, ht, hb⟩ := (new task data' hp).1
    obtain ⟨t', ht', -, hb'⟩ := inv.begun j task data h
    obtain rfl : t = t' := by simpa [ht] using ht'
    simp [hb] at hb'
  refine ⟨⟨?_, ?_, ?_, ?_, ?_, inv.clean, inv.landed, ?_, ?_, inv.single, inv.nodup,
    ?_, inv.asked⟩, { Frame.refl C S n w with started := started, tasks := ?_ }, ?_⟩
  · simp [v, inv.started]
  · intro j task data h
    rcases getElem?_concat h with ⟨-, h⟩ | ⟨-, rfl⟩
    · obtain ⟨t, ht, hd, hb⟩ := inv.begun j task data h
      obtain ⟨t', ht', hd', hb'⟩ := kept task t ht
      exact ⟨t', ht', hd'.trans hd, hb' hb⟩
    · exact (new task data rfl).2
  · intro j j' task data data' h h'
    rcases getElem?_concat h with ⟨-, h₁⟩ | ⟨rfl, new₁⟩ <;>
      rcases getElem?_concat h' with ⟨-, h₂⟩ | ⟨rfl, new₂⟩
    · exact inv.once j j' task data data' h₁ h₂
    · exact absurd new₂.symm (unbegun j task data data' h₁)
    · exact absurd new₁.symm (unbegun j' task data' data h₂)
    · rfl
  · intro key task h
    obtain ⟨t, ht, hk⟩ := inv.filed key task h
    obtain ⟨t', ht', hd, -⟩ := kept task t ht
    exact ⟨t', ht', by rw [hd, hk]⟩
  · intro task t' h hb
    obtain ⟨t, ht, hd, -, hb'⟩ := original task t' h
    rw [hd]
    exact inv.waiting task t ht (hb' hb)
  · intro t' ht' a ha
    obtain ⟨k, hk⟩ := List.mem_iff_getElem?.mp ht'
    obtain ⟨t, ht, hd, hr, -⟩ := original k t' hk
    rw [hd]
    exact inv.results t (List.mem_of_getElem? ht) a (hr.symm.trans ha)
  · intro j q h
    obtain ⟨task, data, hold, hq⟩ := inv.awaiting j q h
    exact ⟨task, data, holds _ _ _ hold, hq⟩
  · intro t' ht'
    obtain ⟨k, hk⟩ := List.mem_iff_getElem?.mp ht'
    obtain ⟨t, ht, hd, -⟩ := original k t' hk
    rw [hd]
    exact inv.made t (List.mem_of_getElem? ht)
  · intro k t h
    obtain ⟨t', ht', hd, -⟩ := kept k t h
    exact ⟨t', ht', hd⟩
  · intro q hq
    obtain ⟨task, data, hold, -⟩ := inv.awaiting n q hq
    have lt := (List.getElem?_eq_some_iff.mp hold.1).1
    exact absurd inv.started (by omega)

theorem restart_step (inv : C.SignedInvariant S n w) :
    C.SignedInvariant S 0 ((signedSystem C).restart w) where
  started := rfl
  begun := by simp [signedSystem]
  once := by simp [signedSystem]
  filed := by simp [signedSystem]
  waiting := by simp [signedSystem]
  clean := inv.clean
  landed := inv.landed
  results := by simp [signedSystem]
  awaiting := by simp [signedSystem]
  single := by simp [signedSystem]
  nodup := List.nodup_nil
  made := by simp [signedSystem]
  asked := inv.asked

end AccountingClient

end Privana
