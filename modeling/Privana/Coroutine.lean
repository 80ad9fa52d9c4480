import Mathlib.Init

/-! Asynchronous code as data. A coroutine ends with a result or an exception, or
performs one operation and goes on with the reply; between two operations
anything else may happen. `settle` is the one way to continue a coroutine, and
sequencing, `except` and `finally` are read off from it. -/

namespace Privana

inductive Coroutine (Op : Type) (Reply : Op → Type) (ε α : Type) : Type where
  | done (result : Except ε α)
  | perform (op : Op) (next : Except ε (Reply op) → Coroutine Op Reply ε α)

namespace Coroutine

variable {Op : Type} {Reply : Op → Type} {ε α β : Type}

/-- Go on with the outcome of `p`, whatever it is. -/
def settle (p : Coroutine Op Reply ε α) (f : Except ε α → Coroutine Op Reply ε β) :
    Coroutine Op Reply ε β :=
  match p with
  | done r => f r
  | perform op next => perform op fun r => (next r).settle f

def await (op : Op) : Coroutine Op Reply ε (Reply op) := perform op done

def raise (e : ε) : Coroutine Op Reply ε α := done (.error e)

def andThen (f : α → Coroutine Op Reply ε β) : Except ε α → Coroutine Op Reply ε β
  | .ok a => f a
  | .error e => raise e

instance : Monad (Coroutine Op Reply ε) where
  pure a := done (.ok a)
  bind p f := p.settle (andThen f)

theorem settle_settle {γ : Type} (p : Coroutine Op Reply ε α)
    (f : Except ε α → Coroutine Op Reply ε β) (g : Except ε β → Coroutine Op Reply ε γ) :
    (p.settle f).settle g = p.settle fun r => (f r).settle g := by
  induction p with
  | done r => rfl
  | perform op next ih => exact congrArg (perform op) (funext ih)

theorem settle_done (p : Coroutine Op Reply ε α) : p.settle done = p := by
  induction p with
  | done r => rfl
  | perform op next ih => exact congrArg (perform op) (funext ih)

theorem settle_congr {p : Coroutine Op Reply ε α} {f g : Except ε α → Coroutine Op Reply ε β}
    (h : ∀ r, f r = g r) : p.settle f = p.settle g := congrArg p.settle (funext h)

instance : LawfulMonad (Coroutine Op Reply ε) :=
  .mk' _ (fun p => (settle_congr fun r => by cases r <;> rfl).trans p.settle_done)
    (fun _ _ => rfl) fun p f g => (settle_settle p _ _).trans <| settle_congr fun r => by
      cases r <;> rfl

/-- `try: p; except Exception as e: handler(e)`. -/
def except (p : Coroutine Op Reply ε α) (handler : ε → Coroutine Op Reply ε α) :
    Coroutine Op Reply ε α :=
  p.settle fun
    | .ok a => done (.ok a)
    | .error e => handler e

/-- `try: p; finally: cleanup`. -/
def ensure (p : Coroutine Op Reply ε α) (cleanup : Coroutine Op Reply ε Unit) :
    Coroutine Op Reply ε α :=
  p.settle fun r => cleanup.settle (andThen fun _ => done r)

theorem map_ensure (f : α → β) (p : Coroutine Op Reply ε α) (cleanup : Coroutine Op Reply ε Unit) :
    f <$> p.ensure cleanup = (f <$> p).ensure cleanup := by
  refine (settle_settle p _ _).trans (Eq.trans (settle_congr fun r => ?_) (settle_settle p _ _).symm)
  refine (settle_settle cleanup _ _).trans ?_
  cases r <;> exact settle_congr fun r' => by cases r' <;> rfl

/-- `[await f(a) for a in as]`. -/
def mapEach (f : α → Coroutine Op Reply ε β) : List α → Coroutine Op Reply ε (List β)
  | [] => pure []
  | a :: as => do
    let b ← f a
    let bs ← mapEach f as
    return b :: bs

/-- `for a in as: await f(a)`. -/
def forEach (f : α → Coroutine Op Reply ε Unit) (as : List α) : Coroutine Op Reply ε Unit := do
  let _ ← mapEach f as

/-- The same program where its operations are some of many; `back` reads its replies. -/
def embed {Op' : Type} {Reply' : Op' → Type} {ε' : Type} (inject : Op → Op')
    (back : (op : Op) → Except ε' (Reply' (inject op)) → Except ε (Reply op))
    (finish : Except ε α → Except ε' β) : Coroutine Op Reply ε α → Coroutine Op' Reply' ε' β
  | done r => done (finish r)
  | perform op next => perform (inject op) fun r => (next (back op r)).embed inject back finish

end Coroutine

/-- What tasks may assume and must guarantee. `grows` is what the other tasks and
the world do in the meantime; an operation needs its `pre` when it is performed,
and who gets its reply may rely on `told`. -/
structure Discipline (σ : Type) (Op : Type) (Reply : Op → Type) where
  valid : σ → Prop
  grows : σ → σ → Prop
  pre : Op → σ → Prop
  told : (op : Op) → Reply op → σ → Prop
  refl : ∀ w, grows w w
  trans : ∀ {u v w}, grows u v → grows v w → grows u w

namespace Coroutine

variable {σ Op : Type} {Reply : Op → Type} {ε α β : Type}

/-- Every operation that `p` may ever perform from `w` on has its precondition
then, whatever happens in between, and a result satisfies `post`. -/
def Safe (D : Discipline σ Op Reply) (post : α → σ → Prop) :
    Coroutine Op Reply ε α → σ → Prop
  | done (.ok a), w => ∀ v, D.grows w v → D.valid v → post a v
  | done (.error _), _ => True
  | perform op next, w =>
    (∀ v, D.grows w v → D.valid v → D.pre op v) ∧
    (∀ r v, D.grows w v → D.valid v → D.told op r v → (next (.ok r)).Safe D post v) ∧
    ∀ e v, D.grows w v → D.valid v → (next (.error e)).Safe D post v

variable {D : Discipline σ Op Reply} {R : α → σ → Prop} {post : β → σ → Prop} {w v : σ}

namespace Safe

theorem later {p : Coroutine Op Reply ε β} (h : p.Safe D post w) (g : D.grows w v) :
    p.Safe D post v := by
  match p, h with
  | done (.ok a), h => exact fun u hu => h u (D.trans g hu)
  | done (.error e), _ => exact trivial
  | perform op next, ⟨pre, ok, error⟩ =>
    exact ⟨fun u hu => pre u (D.trans g hu), fun r u hu => ok r u (D.trans g hu),
      fun e u hu => error e u (D.trans g hu)⟩

theorem result {a : β} (h : ∀ v, D.grows w v → D.valid v → post a v) :
    (pure a : Coroutine Op Reply ε β).Safe D post w := h

theorem raise (e : ε) : (raise e : Coroutine Op Reply ε β).Safe D post w := trivial

/-- The rule of consequence, with what has happened since the start. -/
theorem imp {p : Coroutine Op Reply ε β} {post' : β → σ → Prop} (h : p.Safe D post w)
    (imp : ∀ a v, D.grows w v → D.valid v → post a v → post' a v) : p.Safe D post' w := by
  induction p generalizing w with
  | done r =>
    cases r with
    | ok a => exact fun v g hv => imp a v g hv (h v g hv)
    | error e => exact trivial
  | perform op next ih =>
    obtain ⟨hpre, hok, herror⟩ := h
    exact ⟨hpre,
      fun r v g hv ht => ih _ (hok r v g hv ht) fun a u g' => imp a u (D.trans g g'),
      fun e v g hv => ih _ (herror e v g hv) fun a u g' => imp a u (D.trans g g')⟩

theorem settle {p : Coroutine Op Reply ε α} {f : Except ε α → Coroutine Op Reply ε β}
    (valid : D.valid w) (h : p.Safe D R w)
    (ok : ∀ a v, D.grows w v → D.valid v → (∀ u, D.grows v u → D.valid u → R a u) →
      (f (.ok a)).Safe D post v)
    (error : ∀ e v, D.grows w v → D.valid v → (f (.error e)).Safe D post v) :
    (p.settle f).Safe D post w := by
  induction p generalizing w with
  | done r =>
    cases r with
    | ok a => exact ok a w (D.refl w) valid h
    | error e => exact error e w (D.refl w) valid
  | perform op next ih =>
    obtain ⟨hpre, hok, herror⟩ := h
    exact ⟨hpre,
      fun r v g hv ht => ih _ hv (hok r v g hv ht) (fun a u g' => ok a u (D.trans g g'))
        fun e u g' => error e u (D.trans g g'),
      fun e v g hv => ih _ hv (herror e v g hv) (fun a u g' => ok a u (D.trans g g'))
        fun e' u g' => error e' u (D.trans g g')⟩

theorem bind {p : Coroutine Op Reply ε α} {f : α → Coroutine Op Reply ε β} (valid : D.valid w)
    (h : p.Safe D R w)
    (next : ∀ a v, D.grows w v → D.valid v → R a v → (f a).Safe D post v) :
    (p >>= f).Safe D post w :=
  settle valid h (fun a v g hv ha => next a v g hv (ha v (D.refl v) hv)) fun e _ _ _ => raise e

theorem except {p : Coroutine Op Reply ε β} {handler : ε → Coroutine Op Reply ε β}
    (valid : D.valid w) (h : p.Safe D post w)
    (handle : ∀ e v, D.grows w v → D.valid v → (handler e).Safe D post v) :
    (p.except handler).Safe D post w :=
  settle valid h (fun _ _ _ _ ha => ha) handle

theorem ensure {p : Coroutine Op Reply ε β} {cleanup : Coroutine Op Reply ε Unit}
    (valid : D.valid w) (h : p.Safe D post w)
    (clean : ∀ v, D.grows w v → D.valid v → cleanup.Safe D (fun _ _ => True) v) :
    (p.ensure cleanup).Safe D post w :=
  settle valid h
    (fun _ v g hv ha => bind hv (clean v g hv) fun _ _ g' _ _ t g'' => ha t (D.trans g' g''))
    fun e v g hv => bind hv (clean v g hv) fun _ _ _ _ _ => raise e

theorem map {p : Coroutine Op Reply ε α} {f : α → β} (valid : D.valid w) (h : p.Safe D R w)
    (imp : ∀ a v, D.grows w v → D.valid v → R a v → post (f a) v) :
    (f <$> p).Safe D post w :=
  settle valid h (fun a _ g _ ha u g' hu => imp a u (D.trans g g') hu (ha u g' hu))
    fun e _ _ _ => raise e

/-- A loop whose body is safe for every item that satisfies `I`, which then stays so. -/
theorem mapEach {I : α → σ → Prop} {J : β → σ → Prop} {f : α → Coroutine Op Reply ε β}
    {as : List α} (valid : D.valid w) (items : ∀ a ∈ as, I a w)
    (keep : ∀ a v u, D.grows v u → I a v → I a u) (keep' : ∀ b v u, D.grows v u → J b v → J b u)
    (body : ∀ a v, D.valid v → I a v → (f a).Safe D J v) :
    (mapEach f as).Safe D (fun bs v => ∀ b ∈ bs, J b v) w := by
  induction as generalizing w with
  | nil => exact result fun _ _ _ b hb => (List.not_mem_nil hb).elim
  | cons a as ih =>
    refine bind valid (body a w valid (items a (by simp))) fun b v g hv hb => ?_
    refine bind hv (ih hv fun a' ha' => keep a' w v g (items a' (by simp [ha'])))
      fun bs u g' _ hbs => result fun t g'' _ b' hb' => ?_
    rcases List.mem_cons.mp hb' with rfl | hb'
    · exact keep' _ v t (D.trans g' g'') hb
    · exact keep' b' u t g'' (hbs b' hb')

theorem forEach {I : α → σ → Prop} {f : α → Coroutine Op Reply ε Unit} {as : List α}
    (valid : D.valid w) (items : ∀ a ∈ as, I a w)
    (keep : ∀ a v u, D.grows v u → I a v → I a u)
    (body : ∀ a v, D.valid v → I a v → (f a).Safe D (fun _ _ => True) v) :
    (forEach f as).Safe D (fun _ _ => True) w :=
  bind valid (mapEach (J := fun _ _ => True) valid items keep (fun _ _ _ _ _ => trivial) body)
    fun _ _ _ _ _ => result fun _ _ _ => trivial

/-- A loop whose body brings something about for its item that then stays so. -/
theorem each {J : α → σ → Prop} {f : α → Coroutine Op Reply ε Unit} {as : List α}
    (valid : D.valid w) (keep : ∀ a ∈ as, ∀ v u, D.grows v u → J a v → J a u)
    (body : ∀ a ∈ as, ∀ v, D.grows w v → D.valid v → (f a).Safe D (fun _ => J a) v) :
    (Coroutine.forEach f as).Safe D (fun _ v => ∀ a ∈ as, J a v) w := by
  refine bind (R := fun _ v => ∀ a ∈ as, J a v) valid ?_
    fun _ v _ _ all => result fun u g _ a mem => keep a mem v u g (all a mem)
  induction as generalizing w with
  | nil => exact result fun _ _ _ a mem => (List.not_mem_nil mem).elim
  | cons a as ih =>
    refine bind valid (body a List.mem_cons_self w (D.refl w) valid) fun _ v g hv first => ?_
    refine bind hv (ih hv (fun a mem => keep a (List.mem_cons_of_mem _ mem))
      fun a mem u g' => body a (List.mem_cons_of_mem _ mem) u (D.trans g g'))
      fun _ u g' _ rest => result fun t g'' _ b mem => ?_
    rcases List.mem_cons.mp mem with rfl | mem
    · exact keep b List.mem_cons_self v t (D.trans g' g'') first
    · exact keep b (List.mem_cons_of_mem _ mem) u t g'' (rest b mem)

/-- One operation whose precondition holds, followed by what uses its reply. -/
theorem await {op : Op} {f : Reply op → Coroutine Op Reply ε β}
    (pre : ∀ v, D.grows w v → D.valid v → D.pre op v)
    (next : ∀ r v, D.grows w v → D.valid v → D.told op r v → (f r).Safe D post v) :
    (await op >>= f).Safe D post w :=
  ⟨pre, next, fun e _ _ _ => raise e⟩

/-- An operation on its own, with what stays true of its reply. -/
theorem reply {op : Op} {post : Reply op → σ → Prop}
    (pre : ∀ v, D.grows w v → D.valid v → D.pre op v)
    (imp : ∀ r v u, D.told op r v → D.grows v u → D.valid u → post r u) :
    (Coroutine.await op : Coroutine Op Reply ε (Reply op)).Safe D post w :=
  ⟨pre, fun r v _ _ ht u g => imp r v u ht g, fun e _ _ _ => raise e⟩

end Safe

/-- Safe wherever it runs, and nothing is said of its result. -/
def Quiet (D : Discipline σ Op Reply) (p : Coroutine Op Reply ε α) : Prop :=
  ∀ w, D.valid w → p.Safe D (fun _ _ => True) w

namespace Quiet

variable {p : Coroutine Op Reply ε α} {f : α → Coroutine Op Reply ε β}

theorem result (a : α) : (pure a : Coroutine Op Reply ε α).Quiet D :=
  fun _ _ => Safe.result fun _ _ _ => trivial

theorem raise (e : ε) : (raise e : Coroutine Op Reply ε α).Quiet D := fun _ _ => Safe.raise e

theorem await {op : Op} (pre : ∀ v, D.pre op v) :
    (await op : Coroutine Op Reply ε (Reply op)).Quiet D :=
  fun _ _ => Safe.reply (fun v _ _ => pre v) fun _ _ _ _ _ _ => trivial

theorem bind (h : p.Quiet D) (next : ∀ a, (f a).Quiet D) : (p >>= f).Quiet D :=
  fun w hw => Safe.bind hw (h w hw) fun a v _ hv _ => next a v hv

theorem map {g : α → β} (h : p.Quiet D) : (g <$> p).Quiet D :=
  fun w hw => Safe.map hw (h w hw) fun _ _ _ _ _ => trivial

theorem except {handler : ε → Coroutine Op Reply ε α} (h : p.Quiet D)
    (handle : ∀ e, (handler e).Quiet D) : (p.except handler).Quiet D :=
  fun w hw => Safe.except hw (h w hw) fun e v _ hv => handle e v hv

theorem ensure {cleanup : Coroutine Op Reply ε Unit} (h : p.Quiet D) (clean : cleanup.Quiet D) :
    (p.ensure cleanup).Quiet D :=
  fun w hw => Safe.ensure hw (h w hw) fun v _ hv => clean v hv

end Quiet

/-- Every operation that `p` may ever perform is one of those. -/
def Uses (ok : Op → Prop) : Coroutine Op Reply ε α → Prop
  | done _ => True
  | perform op next => ok op ∧ ∀ r, (next r).Uses ok

namespace Uses

variable {ok : Op → Prop} {p : Coroutine Op Reply ε α} {f : α → Coroutine Op Reply ε β}

theorem result (a : α) : (pure a : Coroutine Op Reply ε α).Uses ok := trivial

theorem raise (e : ε) : (raise e : Coroutine Op Reply ε α).Uses ok := trivial

theorem await {op : Op} (h : ok op) : (await op : Coroutine Op Reply ε (Reply op)).Uses ok :=
  ⟨h, fun _ => trivial⟩

theorem settle {g : Except ε α → Coroutine Op Reply ε β} (h : p.Uses ok)
    (next : ∀ r, (g r).Uses ok) : (p.settle g).Uses ok := by
  induction p with
  | done r => exact next r
  | perform op _ ih => exact ⟨h.1, fun r => ih r (h.2 r)⟩

theorem bind (h : p.Uses ok) (next : ∀ a, (f a).Uses ok) : (p >>= f).Uses ok :=
  settle h fun r => by
    cases r with
    | ok a => exact next a
    | error e => exact raise e

theorem map {g : α → β} (h : p.Uses ok) : (g <$> p).Uses ok := bind h fun _ => result _

theorem except {handler : ε → Coroutine Op Reply ε α} (h : p.Uses ok)
    (handle : ∀ e, (handler e).Uses ok) : (p.except handler).Uses ok :=
  settle h fun r => by
    cases r with
    | ok a => exact result a
    | error e => exact handle e

theorem ensure {cleanup : Coroutine Op Reply ε Unit} (h : p.Uses ok) (clean : cleanup.Uses ok) :
    (p.ensure cleanup).Uses ok :=
  settle h fun _ => settle clean fun r => by
    cases r <;> exact trivial

/-- A program whose operations need nothing is quiet. -/
theorem quiet (h : p.Uses ok) (pre : ∀ op, ok op → ∀ w, D.pre op w) : p.Quiet D := by
  intro w _
  induction p generalizing w with
  | done r =>
    cases r with
    | ok a => exact fun _ _ _ => trivial
    | error e => trivial
  | perform op next ih =>
    exact ⟨fun v _ _ => pre op h.1 v, fun r v _ hv _ => ih _ (h.2 _) v hv,
      fun e v _ hv => ih _ (h.2 _) v hv⟩

end Uses

/-- Safety carries over to a world that shows more of itself, for operations that need no
more there and whose replies say no less. -/
theorem Safe.transfer {τ : Type} {D' : Discipline τ Op Reply} {view : τ → σ} {ok : Op → Prop}
    (valid : ∀ {v}, D'.valid v → D.valid (view v))
    (grows : ∀ {u v}, D'.grows u v → D.grows (view u) (view v))
    (pre : ∀ {op v}, ok op → D.pre op (view v) → D'.pre op v)
    (told : ∀ {op r v}, D'.told op r v → D.told op r (view v)) {p : Coroutine Op Reply ε α}
    (uses : p.Uses ok) {w : τ} (h : p.Safe D R (view w)) :
    p.Safe D' (fun a v => R a (view v)) w := by
  induction p generalizing w with
  | done r =>
    cases r with
    | ok a => exact fun v g hv => h (view v) (grows g) (valid hv)
    | error e => trivial
  | perform op next ih =>
    obtain ⟨hpre, hok, herror⟩ := h
    exact ⟨fun v g hv => pre uses.1 (hpre _ (grows g) (valid hv)),
      fun r v g hv ht => ih _ (uses.2 _) (hok r _ (grows g) (valid hv) (told ht)),
      fun e v g hv => ih _ (uses.2 _) (herror e _ (grows g) (valid hv))⟩

end Coroutine

end Privana
