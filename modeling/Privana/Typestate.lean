import Privana.TaskPool

/-! What a task knows. A typestate follows every task through phases: a phase says
which operations may come next, and what its task knows of the world. Unlike the
assertions of a discipline, knowledge may rest on what only this task does: every
step has to keep what all the other tasks know, whatever phases they are in. -/

namespace Privana

structure Typestate (σ Op : Type) (Reply : Op → Type) (ε φ : Type) where
  may : φ → Op → Prop
  /-- The replies that an operation can get. -/
  reply : (op : Op) → Except ε (Reply op) → Prop
  after : φ → (op : Op) → Except ε (Reply op) → φ
  /-- What holds of a world with so many tasks. -/
  world : ℕ → σ → Prop
  knows : ℕ → φ → σ → Prop
  /-- The phase of a cancelled task. -/
  ended : φ

namespace Coroutine

variable {σ Op : Type} {Reply : Op → Type} {ε φ α β : Type}

/-- Every operation of `p` is one that its phase allows, and it ends as `post` says. -/
def Follows (T : Typestate σ Op Reply ε φ) (post : Except ε α → φ → Prop) :
    Coroutine Op Reply ε α → φ → Prop
  | done r, x => post r x
  | perform op next, x =>
    T.may x op ∧ ∀ r, T.reply op r → (next r).Follows T post (T.after x op r)

namespace Follows

variable {T : Typestate σ Op Reply ε φ} {R : Except ε α → φ → Prop}
  {post : Except ε β → φ → Prop} {x : φ}

theorem settle {p : Coroutine Op Reply ε α} {f : Except ε α → Coroutine Op Reply ε β}
    (h : p.Follows T R x) (next : ∀ r y, R r y → (f r).Follows T post y) :
    (p.settle f).Follows T post x := by
  induction p generalizing x with
  | done r => exact next r x h
  | perform op _ ih => exact ⟨h.1, fun r hr => ih r (h.2 r hr)⟩

theorem bind {p : Coroutine Op Reply ε α} {f : α → Coroutine Op Reply ε β}
    (h : p.Follows T R x) (ok : ∀ a y, R (.ok a) y → (f a).Follows T post y)
    (error : ∀ e y, R (.error e) y → post (.error e) y) : (p >>= f).Follows T post x :=
  settle h fun r y hr => by
    cases r with
    | ok a => exact ok a y hr
    | error e => exact error e y hr

theorem except {p : Coroutine Op Reply ε β} {handler : ε → Coroutine Op Reply ε β}
    {R : Except ε β → φ → Prop} (h : p.Follows T R x)
    (ok : ∀ a y, R (.ok a) y → post (.ok a) y)
    (handle : ∀ e y, R (.error e) y → (handler e).Follows T post y) :
    (p.except handler).Follows T post x :=
  settle h fun r y hr => by
    cases r with
    | ok a => exact ok a y hr
    | error e => exact handle e y hr

/-- One allowed operation, followed by what uses its reply. -/
theorem await {op : Op} {f : Reply op → Coroutine Op Reply ε β} (may : T.may x op)
    (ok : ∀ a, T.reply op (.ok a) → (f a).Follows T post (T.after x op (.ok a)))
    (error : ∀ e, T.reply op (.error e) → post (.error e) (T.after x op (.error e))) :
    (Coroutine.await op >>= f).Follows T post x :=
  ⟨may, fun r hr => by
    cases r with
    | ok a => exact ok a hr
    | error e => exact error e hr⟩

theorem imp {p : Coroutine Op Reply ε β} {post' : Except ε β → φ → Prop}
    (h : p.Follows T post x) (imp : ∀ r y, post r y → post' r y) : p.Follows T post' x := by
  induction p generalizing x with
  | done r => exact imp r x h
  | perform op _ ih => exact ⟨h.1, fun r hr => ih r (h.2 r hr)⟩

/-- A loop, with what is so after the results it has collected. -/
theorem mapEach {f : α → Coroutine Op Reply ε β} {J : List β → φ → Prop}
    {fail : ε → φ → Prop} {as : List α} {bs : List β} (start : J bs x)
    (body : ∀ a ∈ as, ∀ bs y, J bs y → (f a).Follows T
      (fun r z => match r with
        | .ok b => J (bs ++ [b]) z
        | .error e => fail e z) y) :
    (mapEach f as).Follows T (fun r z => match r with
      | .ok bs' => J (bs ++ bs') z
      | .error e => fail e z) x := by
  induction as generalizing bs x with
  | nil =>
    show J (bs ++ []) x
    simpa using start
  | cons a as ih =>
    refine bind (body a List.mem_cons_self bs x start) (fun b y hb => ?_) fun e y he => he
    refine bind (ih hb fun a ha => body a (List.mem_cons_of_mem _ ha)) (fun bs' z hz => ?_)
      fun e z he => he
    show J (bs ++ b :: bs') z
    simpa using hz

end Follows

/-- A program whose operations every phase of a kind allows, and leaves of that kind. -/
theorem Uses.follows {T : Typestate σ Op Reply ε φ} {ok : Op → Prop} {I : φ → Prop}
    {p : Coroutine Op Reply ε α} (h : p.Uses ok)
    (step : ∀ x op, I x → ok op → T.may x op ∧ ∀ r, T.reply op r → I (T.after x op r)) {x : φ}
    (hx : I x) : p.Follows T (fun _ y => I y) x := by
  induction p generalizing x with
  | done r => exact hx
  | perform op next ih =>
    obtain ⟨may, kept⟩ := step x op hx h.1
    exact ⟨may, fun r hr => ih r (h.2 r) (kept r hr)⟩

/-- Whatever phase it starts in. -/
def Obeys (T : Typestate σ Op Reply ε φ) (p : Coroutine Op Reply ε α) : Prop :=
  ∀ x, p.Follows T (fun _ _ => True) x

namespace Obeys

variable {T : Typestate σ Op Reply ε φ} {p : Coroutine Op Reply ε α}
  {f : α → Coroutine Op Reply ε β}

theorem result (a : α) : (pure a : Coroutine Op Reply ε α).Obeys T := fun _ => trivial

theorem raise (e : ε) : (raise e : Coroutine Op Reply ε α).Obeys T := fun _ => trivial

theorem await {op : Op} (may : ∀ x, T.may x op) :
    (await op : Coroutine Op Reply ε (Reply op)).Obeys T :=
  fun x => ⟨may x, fun _ _ => trivial⟩

theorem settle {g : Except ε α → Coroutine Op Reply ε β} (h : p.Obeys T)
    (next : ∀ r, (g r).Obeys T) : (p.settle g).Obeys T :=
  fun x => Follows.settle (h x) fun r y _ => next r y

theorem bind (h : p.Obeys T) (next : ∀ a, (f a).Obeys T) : (p >>= f).Obeys T :=
  settle h fun r => by
    cases r with
    | ok a => exact next a
    | error e => exact raise e

theorem map {g : α → β} (h : p.Obeys T) : (g <$> p).Obeys T := bind h fun _ => result _

theorem except {handler : ε → Coroutine Op Reply ε α} (h : p.Obeys T)
    (handle : ∀ e, (handler e).Obeys T) : (p.except handler).Obeys T :=
  settle h fun r => by
    cases r with
    | ok a => exact result a
    | error e => exact handle e

theorem ensure {cleanup : Coroutine Op Reply ε Unit} (h : p.Obeys T) (clean : cleanup.Obeys T) :
    (p.ensure cleanup).Obeys T :=
  settle h fun _ => settle clean fun r => by
    cases r <;> exact fun _ => trivial

theorem mapEach {f : α → Coroutine Op Reply ε β} (body : ∀ a, (f a).Obeys T) (as : List α) :
    (mapEach f as).Obeys T := by
  induction as with
  | nil => exact result _
  | cons a as ih => exact bind (body a) fun _ => bind ih fun _ => result _

theorem forEach {f : α → Coroutine Op Reply ε Unit} (body : ∀ a, (f a).Obeys T) (as : List α) :
    (forEach f as).Obeys T :=
  bind (mapEach body as) fun _ => result _

end Obeys

/-- A program whose operations every phase allows. -/
theorem Uses.obeys {T : Typestate σ Op Reply ε φ} {ok : Op → Prop} {p : Coroutine Op Reply ε α}
    (h : p.Uses ok) (may : ∀ x op, ok op → T.may x op) : p.Obeys T :=
  fun _ => (h.follows (I := fun _ => True) (fun x op _ hop => ⟨may x op hop, fun _ _ => trivial⟩)
    trivial).imp fun _ _ _ => trivial

end Coroutine

section Pull
variable {σ Op Op' : Type} {Reply : Op → Type} {Reply' : Op' → Type} {ε ε' φ α β : Type}

/-- The same phases for a program whose operations are some of many. -/
def Typestate.pull (T : Typestate σ Op' Reply' ε' φ) (inject : Op → Op')
    (forth : (op : Op) → Except ε (Reply op) → Except ε' (Reply' (inject op))) :
    Typestate σ Op Reply ε φ where
  may x op := T.may x (inject op)
  reply op r := T.reply (inject op) (forth op r)
  after x op r := T.after x (inject op) (forth op r)
  world := T.world
  knows := T.knows
  ended := T.ended

theorem Coroutine.Follows.embed {T : Typestate σ Op' Reply' ε' φ} {inject : Op → Op'}
    {forth : (op : Op) → Except ε (Reply op) → Except ε' (Reply' (inject op))}
    {back : (op : Op) → Except ε' (Reply' (inject op)) → Except ε (Reply op)}
    (inverse : ∀ op r, forth op (back op r) = r) {finish : Except ε α → Except ε' β}
    {post : Except ε' β → φ → Prop} {p : Coroutine Op Reply ε α} {x : φ}
    (h : p.Follows (T.pull inject forth) (fun r y => post (finish r) y) x) :
    (p.embed inject back finish).Follows T post x := by
  induction p generalizing x with
  | done r => exact h
  | perform op next ih =>
    refine ⟨h.1, fun r hr => ?_⟩
    have hn := h.2 (back op r) (by simpa only [Typestate.pull, inverse] using hr)
    simp only [Typestate.pull, inverse] at hn
    exact ih _ hn

end Pull

variable {σ Op : Type} {Reply : Op → Type} {ε κ η π φ α : Type}

/-- Every task is in a phase that it follows, and what the phases know is so. -/
structure Typestate.Tracks (T : Typestate σ Op Reply ε φ) (post : Except ε α → φ → Prop)
    (s : TaskPool σ Op Reply ε α) (phase : ℕ → φ) : Prop where
  world : T.world s.tasks.length s.world
  tasks : ∀ i (p : Coroutine Op Reply ε α), s.tasks[i]? = some p →
    p.Follows T post (phase i) ∧ T.knows i (phase i) s.world

namespace TaskSystem

variable [Inhabited α]

/-- The system respects a typestate: every step keeps what is said of the world and
what all other tasks know, and brings about what the new phase knows. -/
structure Respects (S : TaskSystem σ Op Reply ε κ η π α) (T : Typestate σ Op Reply ε φ)
    (post : Except ε α → φ → Prop) (allowed : TaskEvent κ η π → σ → Prop) : Prop where
  perform : ∀ {n i x op c r w v}, allowed (.run i c) w → T.world n w → i < n → T.knows i x w →
    T.may x op → S.perform i op c w = some (r, v) →
    T.reply op r ∧ T.world n v ∧ T.knows i (T.after x op r) v ∧
      ∀ j y, j ≠ i → T.knows j y w → T.knows j y v
  move : ∀ {n e w v}, allowed (.move e) w → T.world n w → S.move e w = some v →
    T.world n v ∧ ∀ j y, T.knows j y w → T.knows j y v
  start : ∀ {n p w v}, allowed (.start p) w → T.world n w → S.start p w = some v →
    T.world (n + 1) v ∧ (∃ x, (S.body p).Follows T post x ∧ T.knows n x v) ∧
      ∀ j y, j < n → T.knows j y w → T.knows j y v
  leave : ∀ {n i w}, allowed (.cancel i) w → T.world n w → T.world n (S.leave i w) ∧
    T.knows i T.ended (S.leave i w) ∧ ∀ j y, j ≠ i → T.knows j y w → T.knows j y (S.leave i w)
  restart : ∀ {n w}, allowed .restart w → T.world n w → T.world 0 (S.restart w)
  cancelled : post (.ok default) T.ended

variable {S : TaskSystem σ Op Reply ε κ η π α} {T : Typestate σ Op Reply ε φ}
  {post : Except ε α → φ → Prop} {allowed : TaskEvent κ η π → σ → Prop}
  {s t : TaskPool σ Op Reply ε α} {phase : ℕ → φ}

theorem Step.tracks (respects : S.Respects T post allowed) (h : T.Tracks post s phase)
    {e : TaskEvent κ η π} {o : Option Op} (step : Step S s e t o) (ok : allowed e s.world) :
    ∃ phase', T.Tracks post t phase' := by
  cases step with
  | @run i c op next r w task performed =>
    obtain ⟨⟨may, follows⟩, before⟩ := h.tasks i _ task
    have hi : i < s.tasks.length := (List.getElem?_eq_some_iff.mp task).1
    obtain ⟨reply, world, knows, others⟩ := respects.perform ok h.world hi before may performed
    refine ⟨Function.update phase i (T.after (phase i) op r), by simpa using world,
      fun j p hj => ?_⟩
    rcases eq_or_ne j i with rfl | ne
    · rw [List.getElem?_set_self hi, Option.some_inj] at hj
      rw [Function.update_self, ← hj]
      exact ⟨follows r reply, knows⟩
    · rw [List.getElem?_set_ne ne.symm] at hj
      rw [Function.update_of_ne ne]
      exact (h.tasks j p hj).imp_right (others j _ ne)
  | move moved =>
    obtain ⟨world, others⟩ := respects.move ok h.world moved
    exact ⟨phase, world, fun j p hj => (h.tasks j p hj).imp_right (others j _)⟩
  | @start p w started =>
    obtain ⟨world, ⟨x, follows, knows⟩, others⟩ := respects.start ok h.world started
    refine ⟨Function.update phase s.tasks.length x, by simpa using world, fun j q hj => ?_⟩
    rcases getElem?_concat hj with ⟨lt, hj⟩ | ⟨rfl, rfl⟩
    · rw [Function.update_of_ne (Nat.ne_of_lt lt)]
      exact (h.tasks j q hj).imp_right (others j _ lt)
    · rw [Function.update_self]
      exact ⟨follows, knows⟩
  | @cancel i =>
    obtain ⟨world, last, others⟩ := respects.leave ok h.world
    refine ⟨Function.update phase i T.ended, by simpa using world, fun j p hj => ?_⟩
    rcases eq_or_ne j i with rfl | ne
    · rw [List.getElem?_set, if_pos rfl] at hj
      split at hj
      · rw [Function.update_self, ← Option.some_inj.mp hj]
        exact ⟨respects.cancelled, last⟩
      · cases hj
    · rw [List.getElem?_set_ne ne.symm] at hj
      rw [Function.update_of_ne ne]
      exact (h.tasks j p hj).imp_right (others j _ ne)
  | restart => exact ⟨phase, respects.restart ok h.world, by simp⟩

/-- The last operation of a task that ends, with the phase it was performed in. -/
theorem Step.ended (h : T.Tracks post s phase) {i : ℕ} {c : κ} {o : Option Op}
    (step : Step S s (.run i c) t o) {a : Except ε α} (ended : t.tasks[i]? = some (.done a))
    (replies : ∀ {op r w}, T.knows i (phase i) s.world → T.may (phase i) op →
      S.perform i op c s.world = some (r, w) → T.reply op r) :
    ∃ op r, S.perform i op c s.world = some (r, t.world) ∧ T.may (phase i) op ∧
      T.knows i (phase i) s.world ∧ post a (T.after (phase i) op r) := by
  cases step with
  | @run _ _ op next r w task performed =>
    obtain ⟨⟨may, follows⟩, known⟩ := h.tasks i _ task
    have hi : i < s.tasks.length := (List.getElem?_eq_some_iff.mp task).1
    rw [List.getElem?_set_self hi, Option.some_inj] at ended
    have last := follows r (replies known may performed)
    rw [ended] at last
    exact ⟨op, r, performed, may, known, last⟩

/-- The phases of a run whose events are all allowed. -/
theorem Respects.run (respects : S.Respects T post allowed) (h : T.Tracks post s phase)
    (es : List (TaskEvent κ η π))
    (ok : ∀ e ∈ S.machine.log s es, allowed e.input e.before.world) :
    ∃ phase', T.Tracks post (S.machine.run s es) phase' :=
  S.machine.run_invariant_where (I := fun t => ∃ phase', T.Tracks post t phase')
    (C := fun e => allowed e.input e.before.world) ⟨phase, h⟩
    (fun _ _ _ _ ⟨_, ht⟩ hx he => (exec_step hx).tracks respects ht he) es ok

/-- The phases before an event of the run, with the step that was taken. -/
theorem Respects.entry (respects : S.Respects T post allowed) (h : T.Tracks post s phase)
    (es : List (TaskEvent κ η π))
    (ok : ∀ e ∈ S.machine.log s es, allowed e.input e.before.world)
    {e : TransactionMachine.Entry (TaskPool σ Op Reply ε α) (TaskEvent κ η π) (Option Op)}
    (he : e ∈ S.machine.log s es) :
    (∃ phase', T.Tracks post e.before phase') ∧ Step S e.before e.input e.after e.output := by
  obtain ⟨js, ks, rfl, hb, hx⟩ := S.machine.exists_prefix_of_mem_log he
  refine ⟨hb ▸ respects.run h js fun x hx => ok x ?_, exec_step hx⟩
  exact S.machine.mem_log_of_prefix (List.prefix_append js _) hx

end TaskSystem

end Privana
