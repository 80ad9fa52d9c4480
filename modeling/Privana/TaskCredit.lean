import Mathlib.Algebra.Order.BigOperators.Group.Finset
import Privana.Typestate

/-! Tasks that carry a purse. A typestate is extended by what every task may still spend, and a
worth is given to every purse. Where no step brings more worth into the world and the purses than
it earns, the worth in circulation never exceeds what was earned. -/

namespace Privana

/-- What a task may still spend: the operations that a purse allows, and what they leave of it. -/
structure Purse (Op : Type) (Reply : Op → Type) (ε φ γ : Type) where
  may : φ → γ → Op → Prop
  after : φ → γ → (op : Op) → Except ε (Reply op) → γ
  ended : γ

section Extend

variable {σ Op : Type} {Reply : Op → Type} {ε φ γ α : Type}

/-- The phases with their purses, where only the purses restrict the operations. -/
def Typestate.shadow (T : Typestate σ Op Reply ε φ) (P : Purse Op Reply ε φ γ) :
    Typestate σ Op Reply ε (φ × γ) where
  may x op := P.may x.1 x.2 op
  reply := T.reply
  after x op r := (T.after x.1 op r, P.after x.1 x.2 op r)
  world := T.world
  knows i x := T.knows i x.1
  ended := (T.ended, P.ended)

def Typestate.carrying (T : Typestate σ Op Reply ε φ) (P : Purse Op Reply ε φ γ) :
    Typestate σ Op Reply ε (φ × γ) :=
  { T.shadow P with may := fun x op => T.may x.1 op ∧ P.may x.1 x.2 op }

/-- The operations that need no purse and leave it alone. -/
def Purse.Free (P : Purse Op Reply ε φ γ) (op : Op) : Prop :=
  ∀ x c, P.may x c op ∧ ∀ r, P.after x c op r = c

variable {T : Typestate σ Op Reply ε φ} {P : Purse Op Reply ε φ γ}

namespace Coroutine

theorem Follows.carrying {p : Coroutine Op Reply ε α} {post : Except ε α → φ → Prop}
    {post' : Except ε α → φ × γ → Prop} {x : φ × γ} (h : p.Follows T post x.1)
    (h' : p.Follows (T.shadow P) post' x) :
    p.Follows (T.carrying P) (fun r y => post r y.1 ∧ post' r y) x := by
  induction p generalizing x with
  | done r => exact ⟨h, h'⟩
  | perform op next ih => exact ⟨⟨h.1, h'.1⟩, fun r hr => ih r (h.2 r hr) (h'.2 r hr)⟩

theorem Uses.imp {ok ok' : Op → Prop} {p : Coroutine Op Reply ε α} (h : p.Uses ok)
    (imp : ∀ op, ok op → ok' op) : p.Uses ok' := by
  induction p with
  | done r => trivial
  | perform op next ih => exact ⟨imp op h.1, fun r => ih r (h.2 r)⟩

theorem Uses.shadow {p : Coroutine Op Reply ε α} (free : p.Uses P.Free) (x : φ × γ) :
    p.Follows (T.shadow P) (fun _ (y : φ × γ) => y.2 = x.2) x :=
  free.follows (I := fun y : φ × γ => y.2 = x.2)
    (fun (y : φ × γ) _ hy hop => ⟨(hop y.1 y.2).1, fun r _ => ((hop y.1 y.2).2 r).trans hy⟩) rfl

end Coroutine

end Extend

namespace TaskSystem

variable {σ Op : Type} {Reply : Op → Type} {ε κ η π φ γ α : Type} [Inhabited α]
  {S : TaskSystem σ Op Reply ε κ η π α} {T : Typestate σ Op Reply ε φ}
  {post : Except ε α → φ → Prop} {allowed : TaskEvent κ η π → σ → Prop}

/-- A system that respects a typestate respects its extension, if the bodies do. -/
theorem Respects.carrying {P : Purse Op Reply ε φ γ} {post' : Except ε α → φ × γ → Prop}
    (respects : S.Respects T post allowed) (cancelled : post' (.ok default) (T.ended, P.ended))
    (start : ∀ {n p w v}, T.world n w → S.start p w = some v →
      ∃ x, (S.body p).Follows (T.carrying P) post' x ∧ T.knows n x.1 v) :
    S.Respects (T.carrying P) post' allowed where
  perform ok h hi known may performed :=
    let ⟨reply, world, knows, others⟩ := respects.perform ok h hi known may.1 performed
    ⟨reply, world, knows, fun j y => others j y.1⟩
  move ok h moved :=
    let ⟨world, others⟩ := respects.move ok h moved
    ⟨world, fun j y => others j y.1⟩
  start ok h started :=
    let ⟨world, _, others⟩ := respects.start ok h started
    ⟨world, start h started, fun j y => others j y.1⟩
  leave ok h :=
    let ⟨world, last, others⟩ := respects.leave ok h
    ⟨world, last, fun j y => others j y.1⟩
  restart ok h := respects.restart ok h
  cancelled := cancelled

/-- No step brings more worth into circulation than it earns. -/
structure Funds (S : TaskSystem σ Op Reply ε κ η π α) (T : Typestate σ Op Reply ε φ)
    (post : Except ε α → φ → Prop) (worth : φ → ℕ) (circulating earned : σ → ℕ) : Prop where
  perform : ∀ {n i x op c r w v}, T.world n w → i < n → T.knows i x w → T.may x op →
    S.perform i op c w = some (r, v) →
    circulating v + worth (T.after x op r) + earned w ≤ circulating w + worth x + earned v
  move : ∀ {n e w v}, T.world n w → S.move e w = some v →
    circulating v + earned w ≤ circulating w + earned v
  start : ∀ {n p w v}, T.world n w → S.start p w = some v →
    ∃ x, (S.body p).Follows T post x ∧ T.knows n x v ∧ worth x = 0
  arrive : ∀ {p w v}, S.start p w = some v → circulating v + earned w ≤ circulating w + earned v
  leave : ∀ i w, circulating (S.leave i w) + earned w ≤ circulating w + earned (S.leave i w)
  restart : ∀ w, circulating (S.restart w) + earned w ≤ circulating w + earned (S.restart w)
  ended : worth T.ended = 0

variable {worth : φ → ℕ} {circulating earned : σ → ℕ} {s t : TaskPool σ Op Reply ε α}
  {phase : ℕ → φ}

/-- What the tasks of a pool carry. -/
def carried (worth : φ → ℕ) (phase : ℕ → φ) (tasks : ℕ) : ℕ :=
  ∑ i ∈ Finset.range tasks, worth (phase i)

theorem carried_update (worth : φ → ℕ) (phase : ℕ → φ) {tasks i : ℕ} (hi : i < tasks) (x : φ) :
    carried worth (Function.update phase i x) tasks + worth (phase i) =
      carried worth phase tasks + worth x := by
  have mem : i ∈ Finset.range tasks := Finset.mem_range.mpr hi
  have rest : ∑ j ∈ (Finset.range tasks).erase i, worth (Function.update phase i x j) =
      ∑ j ∈ (Finset.range tasks).erase i, worth (phase j) :=
    Finset.sum_congr rfl fun j hj => by rw [Function.update_of_ne (Finset.ne_of_mem_erase hj)]
  rw [carried, carried, ← Finset.add_sum_erase _ _ mem, rest, Function.update_self,
    ← Finset.add_sum_erase _ _ mem]
  omega

theorem worth_le_carried {tasks i : ℕ} (hi : i < tasks) :
    worth (phase i) ≤ carried worth phase tasks :=
  Finset.single_le_sum (f := fun j => worth (phase j)) (fun _ _ => Nat.zero_le _)
    (Finset.mem_range.mpr hi)

/-- The tasks of a pool in their phases, with what is in circulation covered by what was earned. -/
structure Covered (T : Typestate σ Op Reply ε φ) (post : Except ε α → φ → Prop) (worth : φ → ℕ)
    (circulating earned : σ → ℕ) (s : TaskPool σ Op Reply ε α) (phase : ℕ → φ) : Prop where
  tracks : T.Tracks post s phase
  covered : circulating s.world + carried worth phase s.tasks.length ≤ earned s.world

theorem Step.covered (respects : S.Respects T post allowed)
    (funds : S.Funds T post worth circulating earned)
    (h : Covered T post worth circulating earned s phase) {e : TaskEvent κ η π} {o : Option Op}
    (step : Step S s e t o) (ok : allowed e s.world) :
    ∃ phase', Covered T post worth circulating earned t phase' := by
  have tracks := h.tracks
  have covered := h.covered
  cases step with
  | @run i c op next r w task performed =>
    obtain ⟨⟨may, follows⟩, known⟩ := tracks.tasks i _ task
    have hi : i < s.tasks.length := (List.getElem?_eq_some_iff.mp task).1
    obtain ⟨reply, world, knows, others⟩ := respects.perform ok tracks.world hi known may performed
    have spends := funds.perform tracks.world hi known may performed
    have moved := carried_update worth phase hi (T.after (phase i) op r)
    refine ⟨Function.update phase i (T.after (phase i) op r), ⟨by simpa using world,
      fun j p hj => ?_⟩, by simp only [List.length_set]; omega⟩
    rcases eq_or_ne j i with rfl | ne
    · rw [List.getElem?_set_self hi, Option.some_inj] at hj
      rw [Function.update_self, ← hj]
      exact ⟨follows r reply, knows⟩
    · rw [List.getElem?_set_ne ne.symm] at hj
      rw [Function.update_of_ne ne]
      exact (tracks.tasks j p hj).imp_right (others j _ ne)
  | move moved =>
    obtain ⟨world, others⟩ := respects.move ok tracks.world moved
    have spends := funds.move tracks.world moved
    exact ⟨phase, ⟨world, fun j p hj => (tracks.tasks j p hj).imp_right (others j _)⟩,
      by dsimp only; omega⟩
  | @start p w started =>
    obtain ⟨world, -, others⟩ := respects.start ok tracks.world started
    obtain ⟨x, follows, knows, nothing⟩ := funds.start tracks.world started
    have spends := funds.arrive started
    have same : carried worth (Function.update phase s.tasks.length x) (s.tasks.length + 1) =
        carried worth phase s.tasks.length := by
      rw [carried, Finset.sum_range_succ, Function.update_self, nothing, Nat.add_zero]
      exact Finset.sum_congr rfl fun j hj => by
        rw [Function.update_of_ne (Nat.ne_of_lt (Finset.mem_range.mp hj))]
    refine ⟨Function.update phase s.tasks.length x, ⟨by simpa using world, fun j q hj => ?_⟩,
      by simp only [List.length_append, List.length_singleton]; omega⟩
    rcases getElem?_concat hj with ⟨lt, hj⟩ | ⟨rfl, rfl⟩
    · rw [Function.update_of_ne (Nat.ne_of_lt lt)]
      exact (tracks.tasks j q hj).imp_right (others j _ lt)
    · rw [Function.update_self]
      exact ⟨follows, knows⟩
  | @cancel i =>
    obtain ⟨world, last, others⟩ := respects.leave ok tracks.world
    have spends := funds.leave i s.world
    refine ⟨Function.update phase i T.ended, ⟨by simpa using world, fun j p hj => ?_⟩, ?_⟩
    · rcases eq_or_ne j i with rfl | ne
      · rw [List.getElem?_set, if_pos rfl] at hj
        split at hj
        · rw [Function.update_self, ← Option.some_inj.mp hj]
          exact ⟨respects.cancelled, last⟩
        · cases hj
      · rw [List.getElem?_set_ne ne.symm] at hj
        rw [Function.update_of_ne ne]
        exact (tracks.tasks j p hj).imp_right (others j _ ne)
    · simp only [List.length_set]
      rcases Nat.lt_or_ge i s.tasks.length with hi | ge
      · have moved := carried_update worth phase hi T.ended
        rw [funds.ended] at moved
        omega
      · have same : carried worth (Function.update phase i T.ended) s.tasks.length =
            carried worth phase s.tasks.length :=
          Finset.sum_congr rfl fun j hj => by
            rw [Function.update_of_ne (by have := Finset.mem_range.mp hj; omega)]
        omega
  | restart =>
    have spends := funds.restart s.world
    refine ⟨phase, ⟨respects.restart ok tracks.world, by simp⟩, ?_⟩
    simp only [carried, List.length_nil, Finset.range_zero, Finset.sum_empty]
    omega

/-- What is in circulation was earned, in every run. -/
theorem Funds.run (respects : S.Respects T post allowed)
    (funds : S.Funds T post worth circulating earned)
    (h : Covered T post worth circulating earned s phase) (es : List (TaskEvent κ η π))
    (ok : ∀ e ∈ S.machine.log s es, allowed e.input e.before.world) :
    ∃ phase', Covered T post worth circulating earned (S.machine.run s es) phase' :=
  S.machine.run_invariant_where (I := fun t => ∃ phase', Covered T post worth circulating earned t
      phase') (C := fun e => allowed e.input e.before.world) ⟨phase, h⟩
    (fun _ _ _ _ ⟨_, ht⟩ hx he => (exec_step hx).covered respects funds ht he) es ok

/-- The phases before an event of the run, with the step that was taken. -/
theorem Funds.entry (respects : S.Respects T post allowed)
    (funds : S.Funds T post worth circulating earned)
    (h : Covered T post worth circulating earned s phase) (es : List (TaskEvent κ η π))
    (ok : ∀ e ∈ S.machine.log s es, allowed e.input e.before.world)
    {e : TransactionMachine.Entry (TaskPool σ Op Reply ε α) (TaskEvent κ η π) (Option Op)}
    (he : e ∈ S.machine.log s es) :
    (∃ phase', Covered T post worth circulating earned e.before phase') ∧
      Step S e.before e.input e.after e.output := by
  obtain ⟨js, ks, rfl, hb, hx⟩ := S.machine.exists_prefix_of_mem_log he
  refine ⟨hb ▸ funds.run respects h js fun x hx => ok x ?_, exec_step hx⟩
  exact S.machine.mem_log_of_prefix (List.prefix_append js _) hx

section Started

variable {mine : π → Op → Prop}

/-- Every task has ended, or is what is left of a program that was started. -/
theorem tasks_of_started (uses : ∀ p, (S.body p).Uses (mine p)) (w : σ)
    (es : List (TaskEvent κ η π)) : ∀ q ∈ (S.machine.run ⟨w, []⟩ es).tasks,
      (∃ p, TaskEvent.start p ∈ es ∧ q.Uses (mine p)) ∨ ∃ r, q = .done r := by
  refine S.machine.run_induction_of_mem (I := fun _ t => ∀ q ∈ t.tasks,
    (∃ p, TaskEvent.start p ∈ es ∧ q.Uses (mine p)) ∨ ∃ r, q = .done r) (by simp) es ?_
  intro _ t e t' o he before step
  cases exec_step step with
  | run task performed =>
    intro q hq
    rcases List.mem_or_eq_of_mem_set hq with hq | rfl
    · exact before q hq
    · rcases before _ (List.mem_of_getElem? task) with ⟨p, started, uses⟩ | ⟨r, same⟩
      · exact .inl ⟨p, started, uses.2 _⟩
      · cases same
  | move => exact before
  | start =>
    intro q hq
    rcases List.mem_append.mp hq with hq | hq
    · exact before q hq
    · obtain rfl := List.mem_singleton.mp hq
      exact .inl ⟨_, he, uses _⟩
  | cancel =>
    intro q hq
    rcases List.mem_or_eq_of_mem_set hq with hq | rfl
    · exact before q hq
    · exact .inr ⟨_, rfl⟩
  | restart => exact fun q hq => (List.not_mem_nil hq).elim

/-- An operation of a run is one that some started program may perform. -/
theorem performed_by_started (uses : ∀ p, (S.body p).Uses (mine p)) (w : σ)
    (es : List (TaskEvent κ η π))
    {e : TransactionMachine.Entry (TaskPool σ Op Reply ε α) (TaskEvent κ η π) (Option Op)}
    (he : e ∈ S.machine.log ⟨w, []⟩ es) {op : Op} (ho : e.output = some op) :
    ∃ p, TaskEvent.start p ∈ es ∧ mine p op := by
  obtain ⟨js, ks, rfl, hb, hx⟩ := S.machine.exists_prefix_of_mem_log he
  have before := tasks_of_started uses w js
  rw [← hb] at before
  have step := exec_step hx
  rw [ho] at step
  generalize e.input = input, e.after = after at step
  cases step with
  | run task performed =>
    rcases before _ (List.mem_of_getElem? task) with ⟨p, started, uses⟩ | ⟨r, same⟩
    · exact ⟨p, List.mem_append_left _ started, uses.1⟩
    · cases same

end Started

end TaskSystem

end Privana
