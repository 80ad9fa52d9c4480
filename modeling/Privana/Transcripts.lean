import Privana.Observations

/-! What the tasks of a pool were started with and what they have been told, read off from
the log of a run. A pool whose results are seen through a function has the same log. -/

namespace Privana

variable {σ Op : Type} {Reply : Op → Type} {ε κ η π α β : Type}

/-- The phase of a task is the list of the replies it has got, the latest first. -/
def Typestate.recording (σ : Type) (reply : (op : Op) → Except ε (Reply op) → Prop) :
    Typestate σ Op Reply ε (List (Observation Op Reply)) where
  may _ _ := True
  reply := reply
  after seen op r :=
    match r with
    | .ok a => ⟨op, a⟩ :: seen
    | .error _ => seen
  world _ _ := True
  knows _ _ _ := True
  ended := []

namespace Coroutine

variable {reply : (op : Op) → Except ε (Reply op) → Prop}
  {post : Except ε β → List (Observation Op Reply) → Prop} {seen : List (Observation Op Reply)}

theorem Follows.record {op : Op} {f : Reply op → Coroutine Op Reply ε β}
    (ok : ∀ a, reply op (.ok a) → (f a).Follows (.recording σ reply) post (⟨op, a⟩ :: seen))
    (error : ∀ e, post (.error e) seen) :
    (Coroutine.await op >>= f).Follows (.recording σ reply) post seen :=
  Follows.await trivial ok fun e _ => error e

theorem map_done (f : α → β) (r : Except ε α) :
    f <$> (done r : Coroutine Op Reply ε α) = done (f <$> r) := by
  cases r <;> rfl

theorem map_perform (f : α → β) (op : Op) (next : Except ε (Reply op) → Coroutine Op Reply ε α) :
    f <$> perform op next = perform op fun r => f <$> next r := rfl

end Coroutine

namespace TaskSystem

section Transcripts

abbrev Entry (_ : TaskSystem σ Op Reply ε κ η π α) :=
  TransactionMachine.Entry (TaskPool σ Op Reply ε α) (TaskEvent κ η π) (Option Op)

variable [Inhabited α] (S : TaskSystem σ Op Reply ε κ η π α)

def transcribe (ts : List (π × List (Observation Op Reply))) (e : S.Entry) :
    List (π × List (Observation Op Reply)) :=
  match e.input, e.output with
  | .run i c, some op =>
    match S.perform i op c e.before.world with
    | some (.ok a, _) => ts.modify i fun t => (t.1, ⟨op, a⟩ :: t.2)
    | _ => ts
  | .start p, _ => ts ++ [(p, [])]
  | .restart, _ => []
  | _, _ => ts

/-- The tasks since the last restart: what each was started with, and the replies it has got. -/
def transcripts (log : List S.Entry) : List (π × List (Observation Op Reply)) :=
  log.foldl S.transcribe []

/-- Every task of the pool goes on from what it has been told. -/
structure Transcribed (reply : (op : Op) → Except ε (Reply op) → Prop)
    (post : π → Except ε α → List (Observation Op Reply) → Prop)
    (ts : List (π × List (Observation Op Reply))) (s : TaskPool σ Op Reply ε α) : Prop where
  length : ts.length = s.tasks.length
  tasks : ∀ (i : ℕ) (p : π) (seen : List (Observation Op Reply)) (q : Coroutine Op Reply ε α),
    ts[i]? = some (p, seen) → s.tasks[i]? = some q →
      q.Follows (.recording σ reply) (post p) seen

variable {S} {reply : (op : Op) → Except ε (Reply op) → Prop}
  {post : π → Except ε α → List (Observation Op Reply) → Prop}
  {ts : List (π × List (Observation Op Reply))} {s t : TaskPool σ Op Reply ε α}

theorem Step.transcribed (body : ∀ p, (S.body p).Follows (.recording σ reply) (post p) [])
    (replies : ∀ {i op c w r v}, S.perform i op c w = some (r, v) → reply op r)
    (cancelled : ∀ p seen, post p (.ok default) seen) (h : Transcribed reply post ts s)
    {e : TaskEvent κ η π} {o : Option Op} (step : Step S s e t o) :
    Transcribed reply post (S.transcribe ts ⟨s, e, o, t⟩) t := by
  cases step with
  | @run i c op next r w task performed =>
    have hi : i < s.tasks.length := (List.getElem?_eq_some_iff.mp task).1
    have told := replies performed
    simp only [transcribe, performed]
    cases r with
    | ok a =>
      dsimp only
      refine ⟨by simpa using h.length, fun j p seen q hp hq => ?_⟩
      rcases eq_or_ne j i with rfl | ne
      · rw [List.getElem?_set_self hi, Option.some_inj] at hq
        rw [List.getElem?_modify_eq] at hp
        obtain ⟨⟨p', seen'⟩, before, same⟩ := Option.map_eq_some_iff.mp hp
        obtain ⟨rfl, rfl⟩ := Prod.mk.inj same
        exact hq ▸ (h.tasks j _ _ _ before task).2 _ told
      · rw [List.getElem?_set_ne ne.symm] at hq
        rw [List.getElem?_modify_ne _ _ ne.symm] at hp
        exact h.tasks j p seen q hp hq
    | error e =>
      refine ⟨by simpa using h.length, fun j p seen q hp hq => ?_⟩
      rcases eq_or_ne j i with rfl | ne
      · rw [List.getElem?_set_self hi, Option.some_inj] at hq
        exact hq ▸ (h.tasks j _ _ _ hp task).2 _ told
      · rw [List.getElem?_set_ne ne.symm] at hq
        exact h.tasks j p seen q hp hq
  | move moved => exact ⟨h.length, h.tasks⟩
  | @start p w started =>
    refine ⟨by simp [transcribe, h.length], fun j p' seen q hp hq => ?_⟩
    rcases getElem?_concat hq with ⟨lt, hq⟩ | ⟨rfl, rfl⟩
    · rw [transcribe, List.getElem?_append_left (h.length ▸ lt)] at hp
      exact h.tasks j p' seen q hp hq
    · rw [transcribe, ← h.length, List.getElem?_concat_length, Option.some_inj] at hp
      obtain ⟨rfl, rfl⟩ := Prod.mk.inj hp
      exact body p
  | @cancel i =>
    refine ⟨by simpa [transcribe] using h.length, fun j p seen q hp hq => ?_⟩
    rw [List.getElem?_set] at hq
    split at hq
    · split at hq
      · rw [← Option.some_inj.mp hq]
        exact cancelled p seen
      · cases hq
    · exact h.tasks j p seen q hp hq
  | restart => exact ⟨rfl, fun j p seen q hp => by cases hp⟩

/-- A task that has ended has ended as its program does after what it has been told. -/
theorem transcripts_run (body : ∀ p, (S.body p).Follows (.recording σ reply) (post p) [])
    (replies : ∀ {i op c w r v}, S.perform i op c w = some (r, v) → reply op r)
    (cancelled : ∀ p seen, post p (.ok default) seen) (w : σ) (es : List (TaskEvent κ η π)) :
    Transcribed reply post (S.transcripts (S.machine.log ⟨w, []⟩ es))
      (S.machine.run ⟨w, []⟩ es) := by
  refine S.machine.run_induction
    (I := fun log s => Transcribed reply post (S.transcripts log) s)
    ⟨rfl, fun j p seen q hp => by cases hp⟩ (fun log s e t o h hx => ?_) es
  rw [transcripts, List.foldl_append]
  exact (exec_step hx).transcribed body replies cancelled h

end Transcripts

section Relabel

variable [Inhabited α] [Inhabited β] (S : TaskSystem σ Op Reply ε κ η π α) (f : α → β)

/-- The same system with its results seen through `f`. -/
def relabel : TaskSystem σ Op Reply ε κ η π β where
  perform := S.perform
  move := S.move
  body p := f <$> S.body p
  start := S.start
  leave := S.leave
  restart := S.restart

def relabelPool (s : TaskPool σ Op Reply ε α) : TaskPool σ Op Reply ε β :=
  ⟨s.world, s.tasks.map (f <$> ·)⟩

def relabelEntry (e : S.Entry) : (S.relabel f).Entry :=
  ⟨relabelPool f e.before, e.input, e.output, relabelPool f e.after⟩

variable {S f} (cancelled : f default = default)
include cancelled

theorem exec_relabel (s : TaskPool σ Op Reply ε α) (e : TaskEvent κ η π) :
    (S.relabel f).exec (relabelPool f s) e =
      (S.exec s e).map fun r => (relabelPool f r.1, r.2) := by
  cases e with
  | run i c =>
    simp only [exec, relabelPool, List.getElem?_map]
    cases task : s.tasks[i]? with
    | none => rfl
    | some p =>
      cases p with
      | done r =>
        simp only [Option.map_some, Coroutine.map_done]
        rfl
      | perform op next =>
        simp only [Option.map_some, Coroutine.map_perform, relabel]
        cases S.perform i op c s.world with
        | none => rfl
        | some r => simp [Except.map, List.map_set]
  | move e =>
    simp only [exec, relabel, relabelPool]
    cases S.move e s.world <;> rfl
  | start p =>
    simp only [exec, relabel, relabelPool]
    cases S.start p s.world <;> simp [Except.map]
  | cancel i =>
    simp only [exec, relabel, relabelPool, Except.map, List.map_set, map_pure, cancelled]
  | restart => rfl

theorem run_relabel (s : TaskPool σ Op Reply ε α) (es : List (TaskEvent κ η π)) :
    (S.relabel f).machine.run (relabelPool f s) es = relabelPool f (S.machine.run s es) ∧
      (S.relabel f).machine.log (relabelPool f s) es =
        (S.machine.log s es).map (relabelEntry S f) := by
  induction es generalizing s with
  | nil => exact ⟨rfl, rfl⟩
  | cons e es ih =>
    have exec : (S.relabel f).machine.exec (relabelPool f s) e =
        (S.machine.exec s e).map fun r => (relabelPool f r.1, r.2) := exec_relabel cancelled s e
    have step : (S.relabel f).machine.step (relabelPool f s) e =
        relabelPool f (S.machine.step s e) := by
      simp only [TransactionMachine.step, exec]
      cases S.machine.exec s e <;> rfl
    have record : (S.relabel f).machine.record (relabelPool f s) e =
        (S.machine.record s e).map (relabelEntry S f) := by
      simp only [TransactionMachine.record, exec]
      cases S.machine.exec s e <;> rfl
    refine ⟨?_, ?_⟩
    · show (S.relabel f).machine.run ((S.relabel f).machine.step (relabelPool f s) e) es = _
      rw [step, (ih _).1]
      rfl
    · rw [TransactionMachine.log, TransactionMachine.log, record, step, (ih _).2, List.map_append]

omit cancelled [Inhabited α] [Inhabited β] in
theorem transcripts_relabel (log : List S.Entry) :
    (S.relabel f).transcripts (log.map (relabelEntry S f)) = S.transcripts log := by
  rw [transcripts, List.foldl_map]
  rfl

end Relabel

end TaskSystem

end Privana
