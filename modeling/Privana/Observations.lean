import Privana.Typestate

/-! Tasks that remember what they were told. The phase of a task is the list of the replies it has
got, and every reply says something of the world that stays so. -/

namespace Privana

/-- An operation with the reply it has got. -/
structure Observation (Op : Type) (Reply : Op → Type) where
  op : Op
  reply : Reply op

variable {σ Op : Type} {Reply : Op → Type} {ε κ η π α β : Type}

/-- Every operation needs something of what its task has seen. -/
def Typestate.observing (ε : Type) (told : ℕ → Observation Op Reply → σ → Prop)
    (needs : List (Observation Op Reply) → Op → Prop) (world : σ → Prop) :
    Typestate σ Op Reply ε (List (Observation Op Reply)) where
  may := needs
  reply _ _ := True
  after seen op r :=
    match r with
    | .ok a => ⟨op, a⟩ :: seen
    | .error _ => seen
  world _ := world
  knows i seen w := ∀ o ∈ seen, told i o w
  ended := []

variable {told : ℕ → Observation Op Reply → σ → Prop}
  {needs : List (Observation Op Reply) → Op → Prop} {world : σ → Prop}
  {post : Except ε β → List (Observation Op Reply) → Prop} {seen : List (Observation Op Reply)}

namespace Coroutine

theorem Follows.observe {op : Op} {f : Reply op → Coroutine Op Reply ε β} (need : needs seen op)
    (ok : ∀ a, (f a).Follows (.observing ε told needs world) post (⟨op, a⟩ :: seen))
    (error : ∀ e, post (.error e) seen) :
    (Coroutine.await op >>= f).Follows (.observing ε told needs world) post seen :=
  ⟨need, fun r _ => by
    cases r with
    | ok a => exact ok a
    | error e => exact error e⟩

end Coroutine

namespace TaskSystem

variable [Inhabited α] {S : TaskSystem σ Op Reply ε κ η π α} (stays : σ → σ → Prop)
  {allowed : TaskEvent κ η π → σ → Prop}

/-- The system respects what its tasks remember, if every step is one after which the replies of
before still say something true, and every reply is true when it comes. -/
theorem respects_observing (stable : ∀ {i o w v}, stays w v → told i o w → told i o v)
    (perform : ∀ {i seen op c r w v}, allowed (.run i c) w → world w → (∀ o ∈ seen, told i o w) →
      needs seen op → S.perform i op c w = some (r, v) →
      world v ∧ stays w v ∧ ∀ a, r = .ok a → told i ⟨op, a⟩ v)
    (move : ∀ {e w v}, allowed (.move e) w → world w → S.move e w = some v → world v ∧ stays w v)
    (start : ∀ {p w v}, allowed (.start p) w → world w → S.start p w = some v →
      world v ∧ stays w v)
    (body : ∀ p, (S.body p).Follows (.observing ε told needs world) (fun _ _ => True) [])
    (leave : ∀ {i w}, world w → world (S.leave i w) ∧ stays w (S.leave i w))
    (restart : ∀ {w}, world w → world (S.restart w)) :
    S.Respects (.observing ε told needs world) (fun _ _ => True) allowed where
  perform {n i x op c r w v} ok hw _ known may performed := by
    obtain ⟨after, stay, reply⟩ := perform ok hw known may performed
    have kept (j : ℕ) (y : List (Observation Op Reply)) (h : ∀ o ∈ y, told j o w) :
        ∀ o ∈ y, told j o v := fun o ho => stable stay (h o ho)
    refine ⟨trivial, after, ?_, fun j y _ => kept j y⟩
    cases r with
    | ok a =>
      intro o ho
      rcases List.mem_cons.mp ho with rfl | ho
      · exact reply a rfl
      · exact kept i x known o ho
    | error e => exact kept i x known
  move ok hw moved :=
    have kept := move ok hw moved
    ⟨kept.1, fun _ _ h o ho => stable kept.2 (h o ho)⟩
  start ok hw started :=
    have kept := start ok hw started
    ⟨kept.1, ⟨[], body _, fun _ h => (List.not_mem_nil h).elim⟩,
      fun _ _ _ h o ho => stable kept.2 (h o ho)⟩
  leave _ hw :=
    have kept := leave hw
    ⟨kept.1, fun _ h => (List.not_mem_nil h).elim, fun _ _ _ h o ho => stable kept.2 (h o ho)⟩
  restart _ hw := restart hw
  cancelled := trivial

end TaskSystem

end Privana
