import Privana.DestinationChains

/-! No false payment. A task is followed together with what it was told so far: it raises
the mark of a chain only when the last thing it heard from outside is that a node has
accepted the signed bytes of the withdrawal, or after a receipt with status 1 for one of
the two hashes it may look up. Both are hashes of bytes signed for that withdrawal. -/

namespace Privana
open BigEndian Coroutine ServiceOp

variable {P : Platform} {settings : ProcessorSettings} {w v : BroadcastWorld}

/-- The latest reply from outside the process, among those of one task. -/
def latestCall (told : List Answered) : Option Answered := told.find? fun a => !a.op.isMemory

/-- Bytes signed for the withdrawal were just accepted. -/
def JustAccepted (told : List Answered) (chainId : U256) (index : ℕ) : Prop :=
  ∃ raw hash, latestCall told = some ⟨ServiceOp.sendRawTransaction chainId raw, .ok hash⟩ ∧
    ⟨resolveWithdrawalCall index, .ok raw⟩ ∈ told

/-- The hash is of bytes signed for the withdrawal, in this call or by an earlier broadcast. -/
def OwnHash (P : Platform) (told : List Answered) (index : ℕ) (hash : Bytes32) : Prop :=
  (∃ raw, ⟨resolveWithdrawalCall index, .ok raw⟩ ∈ told ∧ hash = P.keccak256 raw) ∨
    ∃ chainId, ⟨lastBroadcastHash chainId index, .ok (some hash)⟩ ∈ told

def Mined (P : Platform) (told : List Answered) (chainId : U256) (index : ℕ) : Prop :=
  ∃ hash, OwnHash P told index hash ∧ ⟨transactionReceipt chainId hash, .ok 1⟩ ∈ told

def Proven (P : Platform) (told : List Answered) (chainId : U256) (index : ℕ) : Prop :=
  JustAccepted told chainId index ∨ Mined P told chainId index

/-- The hash is of bytes that `resolveWithdrawal(index)` has returned. -/
def BroadcastWorld.Signed (P : Platform) (w : BroadcastWorld) (index : ℕ) (hash : Bytes32) : Prop :=
  ∃ raw, w.Returned index raw ∧ hash = P.keccak256 raw

/-- What the memory and the calls of a task say about what it was told. -/
structure Remembers (P : Platform) (task : ℕ) (told : List Answered) (w : BroadcastWorld) : Prop where
  calls : ∀ a ∈ told, a.op.isMemory = false → (task, a) ∈ w.calls
  latest : ∀ a, latestCall told = some a → w.calls.find? (·.1 = task) = some (task, a)
  receipts : ∀ chainId hash status, ⟨transactionReceipt chainId hash, .ok status⟩ ∈ told →
    w.receipts chainId hash = some status
  hashes : ∀ chainId index hash, ⟨lastBroadcastHash chainId index, .ok (some hash)⟩ ∈ told →
    w.Signed P index hash

def paymentTypestate (P : Platform) :
    Typestate BroadcastWorld ServiceOp ServiceOp.Reply ServiceError (List Answered) where
  may told
    | rememberBroadcast _ index hash =>
      ∃ raw, ⟨resolveWithdrawalCall index, .ok raw⟩ ∈ told ∧ hash = P.keccak256 raw
    | raiseHighWaterMark chainId index => Proven P told chainId index
    | _ => True
  reply
    | .sendRawTransaction _ raw, .ok hash => hash = P.keccak256 raw
    | _, _ => True
  after told op r := ⟨op, r⟩ :: told
  world _ w := ∀ chainId index hash, w.service.lastBroadcastHash chainId index = some hash →
    w.Signed P index hash
  knows := Remembers P
  ended := []

section Programs

variable {α : Type} {x : List Answered}

/-- A result comes with what was told since `x`. -/
def Since (x : List Answered) (post : α → List Answered → Prop) :
    Except ServiceError α → List Answered → Prop
  | .ok a, y => x <:+ y ∧ post a y
  | .error _, y => x <:+ y

theorem passive_follows {p : Service α} (h : p.Uses Passive) :
    p.Follows (paymentTypestate P) (Since x fun _ _ => True) x := by
  refine (h.follows (I := fun y => x <:+ y) (fun y op hy passive => ⟨?_, fun r _ => ?_⟩)
    (List.suffix_refl x)).imp fun r y hy => ?_
  · cases op <;> first | exact passive.elim | trivial
  · exact hy.trans (List.suffix_cons _ _)
  · cases r with
    | ok a => exact ⟨hy, trivial⟩
    | error e => exact hy

theorem retrying_follows {call : Service α} {post : α → List Answered → Prop} (n : ℕ)
    (h : ∀ y, x <:+ y → call.Follows (paymentTypestate P) (Since y post) y) {y : List Answered}
    (hy : x <:+ y) : (retrying n call).Follows (paymentTypestate P) (Since x post) y := by
  induction n generalizing y with
  | zero =>
    refine (h y hy).imp fun r z hz => ?_
    cases r with
    | ok a => exact ⟨hy.trans hz.1, hz.2⟩
    | error e => exact hy.trans hz
  | succ n ih =>
    exact Follows.except (h y hy) (fun a z hz => ⟨hy.trans hz.1, hz.2⟩)
      fun e z hz => ih (hy.trans hz)

theorem rateLimitedCall_follows {call : Service α} {post : α → List Answered → Prop}
    (h : ∀ y, x <:+ y → call.Follows (paymentTypestate P) (Since y post) y) :
    (rateLimitedCall call).Follows (paymentTypestate P) (Since x post) x :=
  retrying_follows 4 h (List.suffix_refl x)

/-- The latest thing told is the reply to `op`. -/
def Heard (op : ServiceOp) (a : op.Reply) (y : List Answered) : Prop := ∃ z, y = ⟨op, .ok a⟩ :: z

theorem Heard.mem {op : ServiceOp} {a : op.Reply} {y : List Answered} (h : Heard op a y) :
    ⟨op, .ok a⟩ ∈ y := by
  obtain ⟨z, rfl⟩ := h
  exact List.mem_cons_self

theorem rateLimitedCall_heard {op : ServiceOp} (may : ∀ y, (paymentTypestate P).may y op) :
    (rateLimitedCall (await op)).Follows (paymentTypestate P)
      (Since x fun a y => Heard op a y ∧ (paymentTypestate P).reply op (.ok a)) x := by
  refine rateLimitedCall_follows fun y _ => ⟨may y, fun r hr => ?_⟩
  cases r with
  | ok a => exact ⟨List.suffix_cons _ _, ⟨y, rfl⟩, hr⟩
  | error e => exact List.suffix_cons _ _

/-- Sequencing, with what was told since the start. -/
theorem bind_follows {β : Type} {p : Service α} {f : α → Service β}
    {R : α → List Answered → Prop} {post : β → List Answered → Prop}
    (h : p.Follows (paymentTypestate P) (Since x R) x)
    (next : ∀ a y, x <:+ y → R a y → (f a).Follows (paymentTypestate P) (Since y post) y) :
    (p >>= f).Follows (paymentTypestate P) (Since x post) x :=
  Follows.bind h
    (fun a y hy => (next a y hy.1 hy.2).imp fun r z hz => by
      cases r with
      | ok b => exact ⟨hy.1.trans hz.1, hz.2⟩
      | error e => exact hy.1.trans hz)
    fun e y hy => hy

theorem result_follows {a : α} {post : α → List Answered → Prop} (h : post a x) :
    (pure a : Service α).Follows (paymentTypestate P) (Since x post) x :=
  ⟨List.suffix_refl x, h⟩

theorem except_follows {p : Service α} {handler : ServiceError → Service α}
    {post : α → List Answered → Prop} (h : p.Follows (paymentTypestate P) (Since x post) x)
    (handle : ∀ e y, x <:+ y → (handler e).Follows (paymentTypestate P) (Since y post) y) :
    (p.except handler).Follows (paymentTypestate P) (Since x post) x :=
  Follows.except h (fun a y hy => hy) fun e y hy => (handle e y hy).imp fun r z hz => by
    cases r with
    | ok a => exact ⟨hy.trans hz.1, hz.2⟩
    | error e => exact hy.trans hz

theorem await_follows {β : Type} {op : ServiceOp} {f : op.Reply → Service β}
    {post : β → List Answered → Prop} (may : (paymentTypestate P).may x op)
    (next : ∀ a, (paymentTypestate P).reply op (.ok a) →
      (f a).Follows (paymentTypestate P) (Since (⟨op, .ok a⟩ :: x) post) (⟨op, .ok a⟩ :: x)) :
    (await op >>= f).Follows (paymentTypestate P) (Since x post) x :=
  bind_follows (R := fun a y => y = ⟨op, .ok a⟩ :: x ∧ (paymentTypestate P).reply op (.ok a))
    ⟨may, fun r hr => by
      cases r with
      | ok a => exact ⟨List.suffix_cons _ _, rfl, hr⟩
      | error e => exact List.suffix_cons _ _⟩
    fun a y _ hy => by
      obtain ⟨rfl, hr⟩ := hy
      exact next a hr

theorem fetchReceipt_follows (chainId : U256) (hash : Bytes32) :
    (fetchReceipt chainId hash).Follows (paymentTypestate P) (Since x fun status y =>
      ∀ s, status = some s → ⟨transactionReceipt chainId hash, .ok s⟩ ∈ y) x := by
  refine await_follows trivial fun _ _ => except_follows (rateLimitedCall_follows fun y _ =>
    except_follows (await_follows trivial fun status _ => result_follows ?_) fun e z _ => ?_)
    fun e y _ => result_follows nofun
  · rintro s ⟨⟩
    exact List.mem_cons_self
  · split
    · exact result_follows nofun
    · exact List.suffix_refl z

theorem firstReceipt_follows (chainId : U256) (candidates : List Bytes32) :
    (firstReceipt chainId candidates).Follows (paymentTypestate P) (Since x fun decided y =>
      ∀ hash, decided = some (some hash) →
        hash ∈ candidates ∧ ⟨transactionReceipt chainId hash, .ok 1⟩ ∈ y) x := by
  induction candidates generalizing x with
  | nil => exact result_follows nofun
  | cons candidate candidates ih =>
    refine bind_follows (fetchReceipt_follows _ _) fun status y _ receipt => ?_
    cases status with
    | none =>
      exact ih.imp fun r z hz => by
        cases r with
        | ok a => exact ⟨hz.1, fun hash h => (hz.2 hash h).imp_left (List.mem_cons_of_mem _)⟩
        | error e => exact hz
    | some status =>
      refine result_follows fun hash h => ?_
      split at h
      · next success =>
        obtain rfl := Option.some.inj (Option.some.inj h)
        exact ⟨List.mem_cons_self, success ▸ receipt status rfl⟩
      · cases h

theorem findBroadcastTx_follows (chainId : U256) (index : ℕ) (signedTx : Bytes)
    (signed : ⟨resolveWithdrawalCall index, .ok signedTx⟩ ∈ x) :
    (findBroadcastTx P chainId index signedTx).Follows (paymentTypestate P)
      (Since x fun proof y => proof.isSome = true → Mined P y chainId index) x := by
  refine await_follows trivial fun remembered _ =>
    bind_follows (firstReceipt_follows _ _) fun decided y hy found => ?_
  cases decided with
  | some answer =>
    refine result_follows fun proven => ?_
    obtain ⟨hash, rfl⟩ := Option.isSome_iff_exists.mp proven
    obtain ⟨candidate, receipt⟩ := found hash rfl
    refine ⟨hash, ?_, receipt⟩
    rcases List.mem_append.mp candidate with candidate | candidate
    · obtain rfl := Option.mem_toList.mp candidate
      exact .inr ⟨chainId, hy.subset List.mem_cons_self⟩
    · split at candidate
      · cases candidate
      · exact .inl ⟨signedTx, hy.subset (List.mem_cons_of_mem _ signed),
          List.mem_singleton.mp candidate⟩
  | none =>
    refine await_follows trivial fun _ _ => bind_follows (R := fun _ _ => True)
      (passive_follows (.except (PassiveCalls.rateLimitedCall (.except (.await trivial) fun e => ?_))
        fun _ => .result _)) fun _ _ _ _ => result_follows nofun
    split
    · exact .result _
    · exact .raise _

theorem map_follows {β : Type} {p : Service α} {f : α → β} {R : α → List Answered → Prop}
    {post : β → List Answered → Prop} (h : p.Follows (paymentTypestate P) (Since x R) x)
    (imp : ∀ a y, R a y → post (f a) y) :
    (f <$> p).Follows (paymentTypestate P) (Since x post) x :=
  bind_follows h fun a y _ hy => result_follows (imp a y hy)

/-- The send on its own: the bytes are accepted last, under their hash. -/
theorem sent_follows (chainId : U256) (raw : Bytes) :
    (except (some <$> rateLimitedCall (await (ServiceOp.sendRawTransaction chainId raw)))
      fun _ => return none : Service (Option Bytes32)).Follows (paymentTypestate P)
      (Since x fun sent y => ∀ hash, sent = some hash →
        Heard (ServiceOp.sendRawTransaction chainId raw) hash y ∧ hash = P.keccak256 raw) x := by
  refine except_follows (map_follows (rateLimitedCall_heard fun _ => trivial) fun hash y heard => ?_)
    fun _ _ _ => result_follows nofun
  rintro _ ⟨⟩
  exact heard

theorem broadcastPayout_follows (chainId : U256) (index : ℕ) (signedTx : Bytes)
    (signed : ⟨resolveWithdrawalCall index, .ok signedTx⟩ ∈ x) :
    (broadcastPayout P chainId index signedTx).Follows (paymentTypestate P)
      (Since x fun paid y => paid = true → Proven P y chainId index) x := by
  refine bind_follows (sent_follows _ _) fun sent y hy heard => ?_
  have signed := hy.subset signed
  cases sent with
  | some hash =>
    obtain ⟨⟨z, rfl⟩, own⟩ := heard hash rfl
    refine await_follows ⟨signedTx, signed, own⟩ fun _ _ => result_follows fun _ => ?_
    exact .inl ⟨signedTx, hash, rfl, List.mem_cons_of_mem _ signed⟩
  | none =>
    exact bind_follows (findBroadcastTx_follows _ _ _ signed) fun proof z _ proven =>
      result_follows fun paid => .inr (proven paid)

theorem Proven.memory {y : List Answered} {chainId : U256} {index : ℕ} {a : Answered}
    (h : Proven P y chainId index) (memory : a.op.isMemory = true) :
    Proven P (a :: y) chainId index := by
  rcases h with ⟨raw, hash, latest, signed⟩ | ⟨hash, own, receipt⟩
  · refine .inl ⟨raw, hash, ?_, List.mem_cons_of_mem _ signed⟩
    rw [latestCall, List.find?_cons_of_neg (by simp [memory])]
    exact latest
  · refine .inr ⟨hash, ?_, List.mem_cons_of_mem _ receipt⟩
    exact own.imp (fun ⟨raw, hr, he⟩ => ⟨raw, List.mem_cons_of_mem _ hr, he⟩)
      fun ⟨c, hc⟩ => ⟨c, List.mem_cons_of_mem _ hc⟩

theorem resolveAndBroadcast_follows (q : PendingWithdrawal) :
    (resolveAndBroadcast P settings q).Follows (paymentTypestate P) (Since x fun paid y =>
      paid = true → ∀ c, q.chainId = some c → c ≠ 0 → Proven P y c q.index) x := by
  unfold resolveAndBroadcast
  cases hc : q.chainId with
  | none => exact result_follows nofun
  | some chainId =>
    dsimp only
    split
    · next zero =>
      refine result_follows fun _ c same valid => ?_
      obtain rfl := Option.some.inj same
      exact absurd zero valid
    · refine except_follows (bind_follows (passive_follows
        (PassiveCalls.resolveWithdrawalOnce _ _)) fun resolved y _ _ => ?_)
        fun _ _ _ => result_follows nofun
      split
      · exact result_follows nofun
      refine bind_follows (rateLimitedCall_heard fun _ => trivial) fun signedTx z _ heard => ?_
      refine bind_follows (broadcastPayout_follows _ _ _ heard.1.mem) fun paid u _ proven => ?_
      cases paid with
      | false => exact result_follows nofun
      | true =>
        refine await_follows (proven rfl) fun _ _ => result_follows fun _ c same _ => ?_
        obtain rfl := Option.some.inj same
        exact (proven rfl).memory rfl

theorem broadcastMissingEntry_follows (chainId : U256) (targetNonces : Finset ℕ) (index : ℕ) :
    (broadcastMissingEntry P chainId targetNonces index).Follows (paymentTypestate P)
      (Since x fun _ _ => True) x := by
  unfold broadcastMissingEntry
  refine bind_follows (passive_follows (.except (.map (PassiveCalls.rateLimitedCall
    (PassiveCalls.readWithdrawal _))) fun _ => .result _)) fun read y _ _ => ?_
  cases read with
  | none => exact result_follows trivial
  | some result =>
    dsimp only
    split
    · exact result_follows trivial
    split
    · exact List.suffix_refl _
    split
    · exact result_follows trivial
    refine bind_follows (passive_follows (.except (.map (PassiveCalls.getTokenContext _))
      fun _ => .result _)) fun c z _ _ => ?_
    split
    · exact result_follows trivial
    refine await_follows trivial fun _ _ => ?_
    refine bind_follows (rateLimitedCall_heard fun _ => trivial) fun signedTx u _ heard => ?_
    refine bind_follows (R := fun _ _ => True) (except_follows ?_ fun _ t ht => ?_)
      fun sent t _ _ => result_follows trivial
    · refine bind_follows (rateLimitedCall_heard fun _ => trivial) fun hash t ht sent => ?_
      exact await_follows ⟨signedTx, ht.subset heard.1.mem, sent.2⟩ fun _ _ =>
        result_follows trivial
    · exact bind_follows (findBroadcastTx_follows _ _ _ (ht.subset heard.1.mem))
        fun _ _ _ _ => result_follows trivial

end Programs

/-- The program keeps the rules, whatever was told before it. -/
def Orderly {α : Type} (P : Platform) (p : Service α) : Prop :=
  ∀ x, p.Follows (paymentTypestate P) (Since x fun _ _ => True) x

theorem orderly_rules : ProgramRules (fun {_} p => Orderly P p) where
  passive h _ := passive_follows h
  bind h next x := bind_follows (h x) fun a y _ _ => next a y
  except h handle x := except_follows (h x) fun e y _ => handle e y

theorem resolveAndBroadcast_orderly (q : PendingWithdrawal) :
    Orderly P (resolveAndBroadcast P settings q) := fun x =>
  (resolveAndBroadcast_follows q).imp fun r y hy => by
    cases r with
    | ok a => exact ⟨hy.1, trivial⟩
    | error e => exact hy

theorem service_orderly (task : ServiceTask) : Orderly P ((withdrawalSystem P settings).body task) :=
  orderly_rules.body (fun _ _ _ _ => broadcastMissingEntry_follows _ _ _)
    resolveAndBroadcast_orderly task

section Worlds

theorem BroadcastWorld.Signed.mono {index : ℕ} {hash : Bytes32} (h : w.Signed P index hash)
    (calls : w.calls ⊆ v.calls) : v.Signed P index hash := by
  obtain ⟨raw, ⟨task, hr⟩, he⟩ := h
  exact ⟨raw, ⟨task, calls hr⟩, he⟩

theorem Remembers.frame {task : ℕ} {told : List Answered} (h : Remembers P task told w)
    (calls : v.calls = w.calls)
    (receipts : ∀ c hash s, w.receipts c hash = some s → v.receipts c hash = some s) :
    Remembers P task told v where
  calls a ha hm := calls ▸ h.calls a ha hm
  latest a ha := calls ▸ h.latest a ha
  receipts c hash s hs := receipts _ _ _ (h.receipts c hash s hs)
  hashes c i hash hr := (h.hashes c i hash hr).mono (calls ▸ List.Subset.refl _)

/-- What another task remembers is not touched by a call. -/
theorem Remembers.others {i j : ℕ} {told : List Answered} (h : Remembers P j told w) (ne : j ≠ i)
    {op : ServiceOp} (r : Except ServiceError op.Reply) : Remembers P j told (w.record i op r) := by
  unfold BroadcastWorld.record
  split
  · exact h
  · have calls : w.calls ⊆ (i, ⟨op, r⟩) :: w.calls := List.subset_cons_self _ _
    refine ⟨fun a ha hm => calls (h.calls a ha hm), fun a ha => ?_, h.receipts,
      fun c k hash hr => (h.hashes c k hash hr).mono calls⟩
    exact (List.find?_cons_of_neg (by simpa using ne.symm)).trans (h.latest a ha)

theorem lastBroadcastHash_reply {task : ℕ} {c : U256} {index : ℕ} {answer : Answer}
    {s t : ServiceWorld} {r : Except ServiceError (Option Bytes32)}
    (h : servicePerform P task (lastBroadcastHash c index) answer s = some (r, t)) :
    r = .ok (s.lastBroadcastHash c index) := by
  rcases servicePerform_cases h with ⟨a, hm, rfl⟩ | ⟨-, told⟩
  · exact congrArg Except.ok (Prod.mk.inj (Option.some.inj hm)).1.symm
  · cases h
    rfl

theorem memoryAccess_hashes {task : ℕ} {op : ServiceOp} {a : op.Reply} {s t : ServiceWorld}
    (h : memoryAccess task s op = some (a, t)) : t.lastBroadcastHash = s.lastBroadcastHash ∨
      ∃ c i hash, op = rememberBroadcast c i hash ∧ t = s.rememberBroadcast c i hash := by
  cases memoryAccess_step h with
  | rememberBroadcast c i hash => exact .inr ⟨c, i, hash, rfl, rfl⟩
  | _ => exact .inl rfl

theorem Remembers.told {i : ℕ} {x : List Answered} {op : ServiceOp}
    {r : Except ServiceError op.Reply} (h : Remembers P i x w) (step : NodeStep P i op r w v)
    (world : (paymentTypestate P).world 0 w) : Remembers P i (⟨op, r⟩ :: x) (v.record i op r) := by
  have receipts : ∀ c hash s, ⟨transactionReceipt c hash, .ok s⟩ ∈ (⟨op, r⟩ : Answered) :: x →
      v.receipts c hash = some s := by
    intro c hash s hs
    rcases List.mem_cons.mp hs with he | hs
    · cases he
      exact step.told
    · exact step.receipts ▸ h.receipts c hash s hs
  have hashes : ∀ c k hash, ⟨lastBroadcastHash c k, .ok (some hash)⟩ ∈ (⟨op, r⟩ : Answered) :: x →
      w.Signed P k hash := by
    intro c k hash hr
    rcases List.mem_cons.mp hr with he | hr
    · cases he
      obtain ⟨answer, hs⟩ := step.service
      exact world c k hash (Except.ok.inj (lastBroadcastHash_reply hs)).symm
    · exact h.hashes c k hash hr
  unfold BroadcastWorld.record
  cases memory : op.isMemory with
  | true =>
    simp only [if_true]
    refine ⟨fun a ha hm => ?_, fun a ha => ?_, receipts,
      fun c k hash hr => (hashes c k hash hr).mono (step.calls ▸ List.Subset.refl _)⟩
    · rcases List.mem_cons.mp ha with rfl | ha
      · exact absurd (hm.symm.trans memory) (by simp)
      · exact step.calls ▸ h.calls a ha hm
    · rw [latestCall, List.find?_cons_of_neg (by simp [memory])] at ha
      exact step.calls ▸ h.latest a ha
  | false =>
    simp only [Bool.false_eq_true, if_false]
    have calls : w.calls ⊆ (i, ⟨op, r⟩) :: v.calls := step.calls ▸ List.subset_cons_self _ _
    refine ⟨fun a ha hm => ?_, fun a ha => ?_, receipts,
      fun c k hash hr => (hashes c k hash hr).mono calls⟩
    · rcases List.mem_cons.mp ha with rfl | ha
      · exact List.mem_cons_self
      · exact calls (h.calls a ha hm)
    · rw [latestCall, List.find?_cons_of_pos (by simp [memory])] at ha
      obtain rfl := Option.some.inj ha
      exact List.find?_cons_of_pos (by simp)

/-- The memory of broadcasts holds hashes of bytes signed for their withdrawals. -/
theorem hashes_step {i n : ℕ} {x : List Answered} {op : ServiceOp}
    {r : Except ServiceError op.Reply} (h : Remembers P i x w) (step : NodeStep P i op r w v)
    (may : (paymentTypestate P).may x op) (world : (paymentTypestate P).world n w) :
    (paymentTypestate P).world n (v.record i op r) := by
  have calls : w.calls ⊆ (v.record i op r).calls := by
    unfold BroadcastWorld.record
    split
    · exact step.calls ▸ List.Subset.refl _
    · exact step.calls ▸ List.subset_cons_self _ _
  have service : (v.record i op r).service = v.service := by
    unfold BroadcastWorld.record
    split <;> rfl
  obtain ⟨answer, performed⟩ := step.service
  have memory : v.service.lastBroadcastHash = w.service.lastBroadcastHash ∨
      ∃ c k hash, op = rememberBroadcast c k hash ∧
        v.service = w.service.rememberBroadcast c k hash := by
    rcases servicePerform_cases performed with ⟨a, hm, -⟩ | ⟨same, -⟩
    · exact memoryAccess_hashes hm
    · exact .inl (by rw [same])
  intro c k hash hk
  rw [service] at hk
  rcases memory with same | ⟨c', k', hash', rfl, he⟩
  · exact (world c k hash (same ▸ hk)).mono calls
  · rw [he, ServiceWorld.rememberBroadcast] at hk
    simp only [Function.update_apply] at hk
    split at hk
    · rw [Function.update_apply] at hk
      split at hk
      · next hc hk' =>
        obtain rfl := Option.some.inj hk
        obtain ⟨raw, signed, own⟩ := may
        exact BroadcastWorld.Signed.mono ⟨raw, ⟨i, hk' ▸ h.calls _ signed rfl⟩, own⟩ calls
      · next hc _ =>
        exact (world c k hash (hc ▸ hk)).mono calls
    · exact (world c k hash hk).mono calls

theorem serviceMove_hashes {e : ServiceMove} {s t : ServiceWorld} (h : serviceMove P s e = some t) :
    t.lastBroadcastHash = s.lastBroadcastHash := by
  cases serviceMove_step h <;> rfl

theorem mine_receipts {chainId : U256} {raw : Bytes} {status : ℕ}
    (unmined : w.receipts chainId (P.keccak256 raw) = none) (c : U256) (hash : Bytes32) (s : ℕ)
    (h : w.receipts c hash = some s) : (w.mine P chainId raw status).receipts c hash = some s := by
  simp only [BroadcastWorld.mine, Function.update_apply]
  split
  · next hc =>
    subst hc
    rw [Function.update_apply, if_neg, h]
    rintro rfl
    cases unmined.symm.trans h
  · exact h

/-- Moves of the world leave what the tasks remember. -/
theorem broadcastMove_frame {e : BroadcastMove} {n : ℕ} (h : broadcastMove P w e = some v)
    (world : (paymentTypestate P).world n w) : (paymentTypestate P).world n v ∧
      ∀ j x, Remembers P j x w → Remembers P j x v := by
  cases e with
  | service e =>
    obtain ⟨s, hs, rfl⟩ := Option.map_eq_some_iff.mp h
    refine ⟨fun c i hash hi => ?_, fun j x hx => hx.frame rfl fun _ _ _ hr => hr⟩
    obtain ⟨raw, hr, he⟩ := world c i hash ((congrFun (congrFun (serviceMove_hashes hs) c) i).symm.trans hi)
    exact ⟨raw, hr, he⟩
  | mine chainId raw status =>
    simp only [broadcastMove] at h
    split at h
    · next unmined =>
      obtain rfl := Option.some.inj h
      exact ⟨world, fun j x hx => hx.frame rfl (mine_receipts unmined)⟩
    · cases h
  | cleared =>
    obtain rfl := Option.some.inj h
    exact ⟨fun _ _ _ => nofun, fun j x hx => hx.frame rfl fun _ _ _ hr => hr⟩

end Worlds

/-- What a call of `_resolve_and_broadcast` ends with. -/
def Ended (P : Platform) : Except ServiceError (Option (PendingWithdrawal × Bool)) →
    List Answered → Prop
  | .ok (some (q, true)), x => ∀ c, q.chainId = some c → c ≠ 0 → Proven P x c q.index
  | _, _ => True

theorem body_orderly (task : BroadcastTask) : ((broadcastSystem P settings).body task).Follows
    (paymentTypestate P) (Ended P) [] := by
  cases task with
  | service task =>
    change Coroutine.Follows _ _ ((fun _ => none) <$> (withdrawalSystem P settings).body task) _
    rw [map_eq_pure_bind]
    exact Follows.bind (service_orderly task []) (fun _ _ _ => trivial) fun _ _ _ => trivial
  | resolve q =>
    change Coroutine.Follows _ _ ((fun paid => some (q, paid)) <$> resolveAndBroadcast P settings q) _
    rw [map_eq_pure_bind]
    refine Follows.bind (resolveAndBroadcast_follows q) (fun paid x hx => ?_) fun _ _ _ => trivial
    cases paid with
    | true => exact hx.2 rfl
    | false => trivial

theorem fresh_remembers (task : ℕ) : Remembers P task [] w where
  calls _ h := (List.not_mem_nil h).elim
  latest _ h := by cases h
  receipts _ _ _ h := (List.not_mem_nil h).elim
  hashes _ _ _ h := (List.not_mem_nil h).elim

theorem payment_respects : (broadcastSystem P settings).Respects (paymentTypestate P) (Ended P)
    (fun _ _ => True) where
  perform {n i x op c r w v} _ world _ known may h := by
    obtain ⟨⟨r', u⟩, hu, he⟩ := Option.map_eq_some_iff.mp h
    obtain ⟨rfl, rfl⟩ := Prod.mk.inj he
    have step := nodePerform_step hu
    refine ⟨?_, hashes_step known step may world, known.told step world, fun j y ne hy => ?_⟩
    · have told := step.told
      cases op with
      | sendRawTransaction chainId raw =>
        cases r' with
        | ok hash => exact told.1
        | error e => trivial
      | _ => trivial
    · refine Remembers.others (Remembers.frame hy step.calls fun c hash s hs => ?_) ne _
      rw [step.receipts, hs]
  move _ world h := broadcastMove_frame h world
  start {n task w v} _ world h := by
    have same : v = { w with service := v.service } ∧
        v.service.lastBroadcastHash = w.service.lastBroadcastHash := by
      cases task with
      | service task =>
        obtain ⟨s, hs, rfl⟩ := Option.map_eq_some_iff.mp h
        refine ⟨rfl, ?_⟩
        cases task with
        | processor polls =>
          simp only [withdrawalSystem] at hs
          split at hs
          · cases hs
          · obtain rfl := Option.some.inj hs
            rfl
        | pendingWithdrawals user =>
          obtain rfl := Option.some.inj hs
          rfl
      | resolve q =>
        obtain rfl := Option.some.inj h
        exact ⟨rfl, rfl⟩
    obtain ⟨same, hashes⟩ := same
    have frame (j : ℕ) (y : List Answered) (hy : Remembers P j y w) : Remembers P j y v :=
      hy.frame (by rw [same]) fun _ _ _ hr => by rw [same, hr]
    refine ⟨fun c i hash hi => ?_, ⟨[], body_orderly task, fresh_remembers n⟩, fun j y _ => frame j y⟩
    rw [hashes] at hi
    exact (world c i hash hi).mono (by rw [same]; exact List.Subset.refl _)
  leave {n i w} _ world := by
    have hashes : ((broadcastSystem P settings).leave i w).service.lastBroadcastHash =
        w.service.lastBroadcastHash := by
      simp only [broadcastSystem, withdrawalSystem]
      split <;> rfl
    exact ⟨fun c k hash hk => (world c k hash (by rw [← hashes]; exact hk)).mono
      (List.Subset.refl _), fresh_remembers i, fun j y _ hy => hy.frame rfl fun _ _ _ hr => hr⟩
  restart _ _ := fun _ _ _ => nofun
  cancelled := trivial

/-- The withdrawal is paid on the chain: the node has just accepted bytes that
`resolveWithdrawal` returned for it, or its chain has a receipt with status 1 for them. -/
def PaidFor (P : Platform) (w : BroadcastWorld) (task : ℕ) (chainId : U256) (index : ℕ) : Prop :=
  ∃ raw, w.Returned index raw ∧
    ((∃ hash, w.calls.find? (·.1 = task) = some (task, ⟨ServiceOp.sendRawTransaction chainId raw, .ok hash⟩)) ∨
      w.receipts chainId (P.keccak256 raw) = some 1)

theorem Proven.paidFor {task : ℕ} {x : List Answered} {chainId : U256} {index : ℕ}
    (h : Proven P x chainId index) (known : Remembers P task x w) :
    PaidFor P w task chainId index := by
  rcases h with ⟨raw, hash, latest, signed⟩ | ⟨hash, own, receipt⟩
  · exact ⟨raw, ⟨task, known.calls _ signed rfl⟩, .inl ⟨hash, known.latest _ latest⟩⟩
  · have status := known.receipts _ _ _ receipt
    rcases own with ⟨raw, signed, rfl⟩ | ⟨c, remembered⟩
    · exact ⟨raw, ⟨task, known.calls _ signed rfl⟩, .inr status⟩
    · obtain ⟨raw, returned, rfl⟩ := known.hashes _ _ _ remembered
      exact ⟨raw, returned, .inr status⟩

theorem processStart_tracks (w : BroadcastWorld) :
    (paymentTypestate P).Tracks (Ended P) (processStart w) fun _ => [] where
  world _ _ _ := nofun
  tasks _ _ h := by cases h

/-- What is taken for paid in a run is paid. -/
structure NoFalsePaid (P : Platform) (settings : ProcessorSettings) (w : BroadcastWorld)
    (es : List BroadcastEvent) : Prop where
  returned : ∀ e ∈ (broadcastSystem P settings).machine.log (processStart w) es,
    ∀ task answer q chainId, e.input = .run task answer →
      e.after.tasks[task]? = some (.done (.ok (some (q, true)))) →
      q.chainId = some chainId → chainId ≠ 0 → PaidFor P e.after.world task chainId q.index
  marked : ∀ e ∈ (broadcastSystem P settings).machine.log (processStart w) es,
    ∀ task answer chainId index, e.input = .run task answer →
      e.output = some (raiseHighWaterMark chainId index) →
      PaidFor P e.before.world task chainId index

theorem entry_tracks {es : List BroadcastEvent} {e : BroadcastEntry}
    (he : e ∈ (broadcastSystem P settings).machine.log (processStart w) es) :
    (∃ phase, (paymentTypestate P).Tracks (Ended P) e.before phase) ∧
      TaskSystem.Step (broadcastSystem P settings) e.before e.input e.after e.output :=
  payment_respects.entry (processStart_tracks w) es (fun _ _ => trivial) he

/-- In every run, a call of `_resolve_and_broadcast` answers `True` for a withdrawal of a
chain, and a mark of a chain is raised, only with the withdrawal paid on the chain. -/
theorem no_false_paid (P : Platform) (settings : ProcessorSettings) (w : BroadcastWorld)
    (es : List BroadcastEvent) : NoFalsePaid P settings w es where
  returned e he task answer q chainId _ ended chain valid := by
    obtain ⟨⟨phase, tracks⟩, step⟩ := entry_tracks he
    obtain ⟨phase', after⟩ := step.tracks payment_respects tracks trivial
    obtain ⟨proven, known⟩ := after.tasks task _ ended
    exact Proven.paidFor (proven chainId chain valid) known
  marked e he task answer chainId index hin raises := by
    obtain ⟨⟨phase, tracks⟩, step⟩ := entry_tracks he
    rw [hin, raises] at step
    generalize e.after = after at step
    cases step with
    | run performing _ =>
      obtain ⟨⟨proven, -⟩, known⟩ := tracks.tasks _ _ performing
      exact Proven.paidFor proven known

end Privana
