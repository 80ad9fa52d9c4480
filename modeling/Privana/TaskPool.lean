import Privana.Coroutine
import Privana.TransactionMachine

/-! Many tasks over one world. A run is any sequence of task steps, moves of the
world, starts of new tasks, cancellations and restarts of the process; a step of
a task performs its next operation, and the world chooses the reply. A task that
has ended keeps its result, and a cancelled one ends with the default. What every
operation does to the world is said once, and the tasks are checked one by one. -/

namespace Privana

structure TaskSystem (σ Op : Type) (Reply : Op → Type) (ε κ η π : Type) (α : Type := Unit) where
  /-- Task `i` performs an operation; `none` when the choice is not possible now. -/
  perform : ℕ → (op : Op) → κ → σ → Option (Except ε (Reply op) × σ)
  /-- The world moves on its own. -/
  move : η → σ → Option σ
  body : π → Coroutine Op Reply ε α
  start : π → σ → Option σ
  /-- What a cancelled task gives back. -/
  leave : ℕ → σ → σ
  /-- What survives a crash of the process. -/
  restart : σ → σ

inductive TaskEvent (κ η π : Type) where
  | run (task : ℕ) (choice : κ)
  | move (e : η)
  | start (p : π)
  | cancel (task : ℕ)
  | restart

structure TaskPool (σ Op : Type) (Reply : Op → Type) (ε : Type) (α : Type := Unit) where
  world : σ
  tasks : List (Coroutine Op Reply ε α)

theorem getElem?_concat {α : Type} {l : List α} {a b : α} {k : ℕ} (h : (l ++ [a])[k]? = some b) :
    k < l.length ∧ l[k]? = some b ∨ k = l.length ∧ b = a := by
  rcases Nat.lt_or_ge k l.length with lt | ge
  · exact .inl ⟨lt, by rwa [List.getElem?_append_left lt] at h⟩
  · rw [List.getElem?_append_right ge, List.getElem?_singleton] at h
    split at h
    · exact .inr ⟨by omega, (Option.some_inj.mp h).symm⟩
    · cases h

namespace TaskSystem

variable {σ Op : Type} {Reply : Op → Type} {ε κ η π α : Type} [Inhabited α]
  (S : TaskSystem σ Op Reply ε κ η π α)

/-- The operation a step performed is its output. -/
def exec (s : TaskPool σ Op Reply ε α) :
    TaskEvent κ η π → Except Unit (TaskPool σ Op Reply ε α × Option Op)
  | .run i c =>
    match s.tasks[i]? with
    | some (.perform op next) =>
      match S.perform i op c s.world with
      | some (r, w) => .ok (⟨w, s.tasks.set i (next r)⟩, some op)
      | none => .error ()
    | _ => .error ()
  | .move e =>
    match S.move e s.world with
    | some w => .ok (⟨w, s.tasks⟩, none)
    | none => .error ()
  | .start p =>
    match S.start p s.world with
    | some w => .ok (⟨w, s.tasks ++ [S.body p]⟩, none)
    | none => .error ()
  | .cancel i => .ok (⟨S.leave i s.world, s.tasks.set i (pure default)⟩, none)
  | .restart => .ok (⟨S.restart s.world, []⟩, none)

def machine : TransactionMachine (TaskPool σ Op Reply ε α) (TaskEvent κ η π) (Option Op) Unit :=
  ⟨S.exec⟩

/-- The system keeps the discipline: operations that are performed with their
precondition, the moves that are `allowed`, starts, cancellations and restarts. -/
structure Keeps (D : Discipline σ Op Reply) (allowed : η → Prop)
    (post : α → σ → Prop := fun _ _ => True) : Prop where
  perform : ∀ {i op c r w v}, D.valid w → D.pre op w → S.perform i op c w = some (r, v) →
    D.valid v ∧ D.grows w v ∧ ∀ a, r = .ok a → D.told op a v
  move : ∀ {e w v}, allowed e → D.valid w → S.move e w = some v → D.valid v ∧ D.grows w v
  start : ∀ {p w v}, D.valid w → S.start p w = some v → D.valid v ∧ D.grows w v ∧
    (S.body p).Safe D post v
  leave : ∀ {i w}, D.valid w → D.valid (S.leave i w) ∧ D.grows w (S.leave i w)
  restart : ∀ {w}, D.valid w → D.valid (S.restart w)
  cancelled : ∀ w, post default w

end TaskSystem

/-- The world is valid and every task is safe from here. -/
structure Discipline.Holds {σ Op : Type} {Reply : Op → Type} {ε α : Type}
    (D : Discipline σ Op Reply) (s : TaskPool σ Op Reply ε α)
    (post : α → σ → Prop := fun _ _ => True) : Prop where
  valid : D.valid s.world
  tasks : ∀ p ∈ s.tasks, p.Safe D post s.world

namespace TaskSystem

variable {σ Op : Type} {Reply : Op → Type} {ε κ η π α : Type} [Inhabited α]
  {S : TaskSystem σ Op Reply ε κ η π α} {D : Discipline σ Op Reply} {allowed : η → Prop}
  {post : α → σ → Prop} {s t : TaskPool σ Op Reply ε α}

/-- The steps of a pool, with what they were taken on. -/
inductive Step (S : TaskSystem σ Op Reply ε κ η π α) (s : TaskPool σ Op Reply ε α) :
    TaskEvent κ η π → TaskPool σ Op Reply ε α → Option Op → Prop
  | run {i : ℕ} {c : κ} {op : Op} {next : Except ε (Reply op) → Coroutine Op Reply ε α}
      {r : Except ε (Reply op)} {w : σ} (task : s.tasks[i]? = some (.perform op next))
      (performed : S.perform i op c s.world = some (r, w)) :
      Step S s (.run i c) ⟨w, s.tasks.set i (next r)⟩ (some op)
  | move {e : η} {w : σ} (moved : S.move e s.world = some w) :
      Step S s (.move e) ⟨w, s.tasks⟩ none
  | start {p : π} {w : σ} (started : S.start p s.world = some w) :
      Step S s (.start p) ⟨w, s.tasks ++ [S.body p]⟩ none
  | cancel {i : ℕ} : Step S s (.cancel i) ⟨S.leave i s.world, s.tasks.set i (pure default)⟩ none
  | restart : Step S s .restart ⟨S.restart s.world, []⟩ none

theorem exec_step {e : TaskEvent κ η π} {o : Option Op} (h : S.exec s e = .ok (t, o)) :
    Step S s e t o := by
  cases e with
  | run i c =>
    simp only [exec] at h
    split at h
    · next op next task =>
      split at h
      · next r w performed =>
        cases h
        exact .run task performed
      · cases h
    · cases h
  | move e =>
    simp only [exec] at h
    split at h
    · next w moved =>
      cases h
      exact .move moved
    · cases h
  | start p =>
    simp only [exec] at h
    split at h
    · next w started =>
      cases h
      exact .start started
    · cases h
  | cancel i =>
    cases h
    exact .cancel
  | restart =>
    cases h
    exact .restart

omit [Inhabited α] in
/-- The next operation of a task has its precondition. -/
theorem pre_of_task (h : D.Holds s post) {i : ℕ} {op : Op}
    {next : Except ε (Reply op) → Coroutine Op Reply ε α}
    (task : s.tasks[i]? = some (.perform op next)) : D.pre op s.world :=
  (h.tasks _ (List.mem_of_getElem? task)).1 _ (D.refl _) h.valid

theorem Step.holds (keeps : S.Keeps D allowed post) (h : D.Holds s post) {e : TaskEvent κ η π}
    {o : Option Op} (step : Step S s e t o) (moves : ∀ x, e = .move x → allowed x) :
    D.Holds t post := by
  have others {w : σ} (g : D.grows s.world w) :
      ∀ p ∈ s.tasks, p.Safe D post w := fun p hp => (h.tasks p hp).later g
  cases step with
  | @run i c op next r w task performed =>
    obtain ⟨hv, hg, ht⟩ := keeps.perform h.valid (pre_of_task h task) performed
    refine ⟨hv, fun p hp => ?_⟩
    rcases List.mem_or_eq_of_mem_set hp with hp | rfl
    · exact others hg p hp
    · obtain ⟨-, hok, herror⟩ := h.tasks _ (List.mem_of_getElem? task)
      cases r with
      | ok a => exact hok a w hg hv (ht a rfl)
      | error e => exact herror e w hg hv
  | move moved =>
    obtain ⟨hv, hg⟩ := keeps.move (moves _ rfl) h.valid moved
    exact ⟨hv, others hg⟩
  | start started =>
    obtain ⟨hv, hg, hp⟩ := keeps.start h.valid started
    refine ⟨hv, fun p hp' => ?_⟩
    rcases List.mem_append.mp hp' with hp' | hp'
    · exact others hg p hp'
    · obtain rfl := List.mem_singleton.mp hp'
      exact hp
  | cancel =>
    obtain ⟨hv, hg⟩ := keeps.leave h.valid
    refine ⟨hv, fun p hp => ?_⟩
    rcases List.mem_or_eq_of_mem_set hp with hp | rfl
    · exact others hg p hp
    · exact fun v _ _ => keeps.cancelled v
  | restart => exact ⟨keeps.restart h.valid, fun p hp => by cases hp⟩

omit [Inhabited α] in
theorem result_of_holds (h : D.Holds s post) {i : ℕ} {a : α}
    (task : s.tasks[i]? = some (.done (.ok a))) : post a s.world :=
  h.tasks _ (List.mem_of_getElem? task) _ (D.refl _) h.valid

/-- A disciplined system keeps its discipline along every run with allowed moves. -/
theorem Keeps.run (keeps : S.Keeps D allowed post) (h : D.Holds s post) (es : List (TaskEvent κ η π))
    (moves : ∀ x, .move x ∈ es → allowed x) : D.Holds (S.machine.run s es) post :=
  S.machine.run_invariant_where (C := fun e => ∀ x, e.input = .move x → allowed x) h
    (fun _ _ _ _ ht hx hm => (exec_step hx).holds keeps ht hm) es
    fun _ he x hx => moves x (hx ▸ S.machine.input_mem_of_mem_log he)

/-- Every operation of a run is performed with its precondition, in a valid world. -/
theorem Keeps.performed (keeps : S.Keeps D allowed post) (h : D.Holds s post)
    (es : List (TaskEvent κ η π)) (moves : ∀ x, .move x ∈ es → allowed x)
    {e : TransactionMachine.Entry (TaskPool σ Op Reply ε α) (TaskEvent κ η π) (Option Op)}
    (he : e ∈ S.machine.log s es) {op : Op} (ho : e.output = some op) :
    D.valid e.before.world ∧ D.pre op e.before.world ∧
      ∃ i c r, S.perform i op c e.before.world = some (r, e.after.world) := by
  obtain ⟨js, ks, rfl, hb, hx⟩ := S.machine.exists_prefix_of_mem_log he
  have hold : D.Holds e.before post := hb ▸ keeps.run h js fun x hx => moves x (by simp [hx])
  have step := exec_step hx
  rw [ho] at step
  generalize e.input = input, e.after = after at step
  cases step with
  | run task performed => exact ⟨hold.valid, pre_of_task hold task, _, _, _, performed⟩

section Licensed

variable (S : TaskSystem σ Op Reply ε κ η π α) (L : ℕ → Op → σ → Prop)

open Classical in
/-- The same system, where an operation is possible only with a licence. -/
noncomputable def licensed : TaskSystem σ Op Reply ε κ η π α :=
  { S with perform := fun i op c w => if L i op w then S.perform i op c w else none }

/-- All operations of a run have the licence. -/
def Licensed (s : TaskPool σ Op Reply ε α) (es : List (TaskEvent κ η π)) : Prop :=
  ∀ e ∈ S.machine.log s es, ∀ i c op, e.input = .run i c → e.output = some op →
    L i op e.before.world

variable {S L}

theorem exec_licensed {e : TaskEvent κ η π} (licensed : ∀ o t, S.exec s e = .ok (t, o) →
    ∀ i c op, e = .run i c → o = some op → L i op s.world) :
    (S.licensed L).exec s e = S.exec s e := by
  cases e with
  | run i c =>
    simp only [exec]
    split
    · next op next task =>
      simp only [TaskSystem.licensed]
      cases performed : S.perform i op c s.world with
      | none => rw [ite_self]
      | some r =>
        rw [if_pos (licensed _ _ (by simp only [exec, task, performed]; rfl) i c op rfl rfl)]
    · rfl
  | move e => rfl
  | start p => rfl
  | cancel i => rfl
  | restart => rfl

/-- A run that has all licences is a run of the licensed system. -/
theorem run_licensed {es : List (TaskEvent κ η π)} (h : Licensed S L s es) :
    (S.licensed L).machine.run s es = S.machine.run s es ∧
      (S.licensed L).machine.log s es = S.machine.log s es := by
  induction es generalizing s with
  | nil => exact ⟨rfl, rfl⟩
  | cons e es ih =>
    have head : (S.licensed L).exec s e = S.exec s e := exec_licensed fun o t hx =>
      h ⟨s, e, o, t⟩ (List.mem_append_left _ (by
        rw [TransactionMachine.record_of_ok _ hx]; exact List.mem_singleton_self _))
    have step : (S.licensed L).machine.step s e = S.machine.step s e := by
      simp only [TransactionMachine.step, machine, head]
    have record : (S.licensed L).machine.record s e = S.machine.record s e := by
      simp only [TransactionMachine.record, machine, head]
    have tail := ih (s := S.machine.step s e) fun x hx => h x (List.mem_append_right _ hx)
    simp only [TransactionMachine.run, List.foldl_cons, TransactionMachine.log, step, record]
    exact ⟨tail.1, by rw [tail.2]⟩

end Licensed

end TaskSystem

end Privana
