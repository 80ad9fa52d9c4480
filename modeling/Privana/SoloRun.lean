import Privana.TaskPool

/-! One program by itself. What it does when nothing else happens is a function of how its
operations turn out. -/

namespace Privana.Coroutine

variable {σ Op : Type} {Reply : Op → Type} {ε α β : Type}

def alone (perform : (op : Op) → σ → Option (Except ε (Reply op) × σ)) :
    Coroutine Op Reply ε α → σ → Option (Except ε α × σ)
  | done r, w => some (r, w)
  | .perform op next, w =>
    match perform op w with
    | some (r, v) => (next r).alone perform v
    | none => none

/-- `p` alone returns a result as `post` says. -/
def Succeeds (perform : (op : Op) → σ → Option (Except ε (Reply op) × σ))
    (p : Coroutine Op Reply ε α) (w : σ) (post : α → σ → Prop) : Prop :=
  ∃ a v, p.alone perform w = some (.ok a, v) ∧ post a v

variable {perform : (op : Op) → σ → Option (Except ε (Reply op) × σ)} {w v : σ}
  {R : α → σ → Prop} {post : β → σ → Prop}

theorem alone_settle {p : Coroutine Op Reply ε α} {f : Except ε α → Coroutine Op Reply ε β}
    {r : Except ε α} (h : p.alone perform w = some (r, v)) :
    (p.settle f).alone perform w = (f r).alone perform v := by
  induction p generalizing w with
  | done r' =>
    obtain ⟨rfl, rfl⟩ := Prod.mk.inj (Option.some_inj.mp h)
    rfl
  | perform op next ih =>
    simp only [settle, alone] at h ⊢
    split at h
    · exact ih _ h
    · cases h

namespace Succeeds

theorem result {a : β} (h : post a w) : (pure a : Coroutine Op Reply ε β).Succeeds perform w post :=
  ⟨a, w, rfl, h⟩

theorem bind {p : Coroutine Op Reply ε α} {f : α → Coroutine Op Reply ε β}
    (h : p.Succeeds perform w R) (next : ∀ a v, R a v → (f a).Succeeds perform v post) :
    (p >>= f).Succeeds perform w post := by
  obtain ⟨a, v, ran, ha⟩ := h
  obtain ⟨b, u, ran', hb⟩ := next a v ha
  exact ⟨b, u, (alone_settle ran).trans ran', hb⟩

theorem except {p : Coroutine Op Reply ε β} {handler : ε → Coroutine Op Reply ε β}
    (h : p.Succeeds perform w post) : (p.except handler).Succeeds perform w post := by
  obtain ⟨a, v, ran, ha⟩ := h
  exact ⟨a, v, alone_settle ran, ha⟩

theorem await {op : Op} {a : Reply op} {post : Reply op → σ → Prop}
    (h : perform op w = some (.ok a, v)) (last : post a v) :
    (Coroutine.await op : Coroutine Op Reply ε (Reply op)).Succeeds perform w post :=
  ⟨a, v, by simp only [Coroutine.await, alone, h], last⟩

theorem imp {p : Coroutine Op Reply ε α} {R' : α → σ → Prop} (h : p.Succeeds perform w R)
    (imp : ∀ a v, R a v → R' a v) : p.Succeeds perform w R' := by
  obtain ⟨a, v, ran, ha⟩ := h
  exact ⟨a, v, ran, imp a v ha⟩

/-- Alone, a program does one thing only. -/
theorem and {p : Coroutine Op Reply ε α} {R R' : α → σ → Prop} (h : p.Succeeds perform w R)
    (h' : p.Succeeds perform w R') : p.Succeeds perform w fun a v => R a v ∧ R' a v := by
  obtain ⟨a, v, ran, ha⟩ := h
  obtain ⟨a', v', ran', ha'⟩ := h'
  obtain ⟨same, rfl⟩ := Prod.mk.inj (Option.some.inj (ran.symm.trans ran'))
  obtain rfl := Except.ok.inj same
  exact ⟨a, v, ran, ha, ha'⟩

end Succeeds

end Privana.Coroutine

namespace Privana.TaskSystem
open Coroutine

variable {σ Op : Type} {Reply : Op → Type} {ε κ η π α : Type} [Inhabited α]
  {S : TaskSystem σ Op Reply ε κ η π α}
  {perform : (op : Op) → σ → Option (Except ε (Reply op) × σ)}

/-- The world moves so many times in a row. -/
def moves (S : TaskSystem σ Op Reply ε κ η π α) (w : σ) (ms : List η) : Option σ :=
  ms.foldlM (fun w e => S.move e w) w

omit [Inhabited α] in
theorem run_moves [Inhabited α] {w v : σ} {ms : List η} (moved : S.moves w ms = some v)
    (tasks : List (Coroutine Op Reply ε α)) :
    S.machine.run ⟨w, tasks⟩ (ms.map .move) = ⟨v, tasks⟩ := by
  induction ms generalizing w with
  | nil =>
    obtain rfl := Option.some.inj moved
    rfl
  | cons e ms ih =>
    obtain ⟨u, first, rest⟩ := Option.bind_eq_some_iff.mp moved
    have step : S.machine.step ⟨w, tasks⟩ (.move e) = ⟨u, tasks⟩ :=
      S.machine.step_of_ok (o := none) (by simp only [machine, exec, first])
    show S.machine.run (S.machine.step ⟨w, tasks⟩ (.move e)) (ms.map .move) = _
    rw [step, ih rest]

/-- What a program does alone is a run of the system, if each of its operations is a step of its
task and then moves of the world. -/
theorem exists_run_of_alone {i : ℕ} {allowed : η → Prop}
    (prompt : ∀ {op w r v}, perform op w = some (r, v) → ∃ c u ms,
      S.perform i op c w = some (r, u) ∧ S.moves u ms = some v ∧ ∀ e ∈ ms, allowed e)
    {p : Coroutine Op Reply ε α} {w v : σ} {r : Except ε α}
    (ran : p.alone perform w = some (r, v)) {tasks : List (Coroutine Op Reply ε α)}
    (task : tasks[i]? = some p) :
    ∃ es, (∀ e, .move e ∈ es → allowed e) ∧
      S.machine.run ⟨w, tasks⟩ es = ⟨v, tasks.set i (.done r)⟩ := by
  induction p generalizing w tasks with
  | done r' =>
    obtain ⟨rfl, rfl⟩ := Prod.mk.inj (Option.some.inj ran)
    refine ⟨[], fun e mem => (List.not_mem_nil mem).elim, ?_⟩
    obtain ⟨lt, same⟩ := List.getElem?_eq_some_iff.mp task
    rw [TransactionMachine.run_nil, ← same, List.set_getElem_self]
  | perform op next ih =>
    simp only [alone] at ran
    split at ran
    · next r' v' performed =>
      obtain ⟨c, u, ms, stepped, moved, good⟩ := prompt performed
      have lt : i < tasks.length := (List.getElem?_eq_some_iff.mp task).1
      have step : S.machine.step ⟨w, tasks⟩ (.run i c) = ⟨u, tasks.set i (next r')⟩ :=
        S.machine.step_of_ok (o := some op) (by simp only [machine, exec, task, stepped])
      obtain ⟨es, later, run⟩ := ih r' ran
        (show (tasks.set i (next r'))[i]? = some (next r') from List.getElem?_set_self lt)
      refine ⟨.run i c :: (ms.map .move ++ es), fun e mem => ?_, ?_⟩
      · rcases List.mem_cons.mp mem with same | mem
        · cases same
        · rcases List.mem_append.mp mem with mem | mem
          · obtain ⟨m, mem, same⟩ := List.mem_map.mp mem
            exact TaskEvent.move.inj same ▸ good m mem
          · exact later e mem
      · show S.machine.run (S.machine.step ⟨w, tasks⟩ (.run i c)) _ = _
        rw [step, TransactionMachine.run_append, run_moves moved, run, List.set_set]
    · cases ran

end Privana.TaskSystem
