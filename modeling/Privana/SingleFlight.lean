import Privana.TokenPhases

/-! Refreshes of the partner token are single-flight: a rejected token is replaced once, however the
requests that it was rejected for interleave, and a webhook only reads what the refreshes left. -/

namespace Privana
open BigEndian Coroutine

variable {P : TransakPlatform} {w v : TransakWorld} {x : TransakPhase} {i tasks : ℕ}
  {op : TransakOp} {r : Except TransakError op.Reply}

/-- All that an operation can do. -/
inductive TransakEffect (P : TransakPlatform) (i : ℕ) (w : TransakWorld) :
    (op : TransakOp) → Except TransakError op.Reply → TransakWorld → Prop
  | read : TransakEffect P i w .readToken (.ok ⟨w.cache.currentToken, w.now⟩) w
  | acquire (free : w.holder = none) :
      TransakEffect P i w .acquireTokenLock (.ok ()) { w with holder := some i }
  | release : TransakEffect P i w .releaseTokenLock (.ok ()) (w.unlock i)
  | request : TransakEffect P i w .refreshRequest (P.refreshAnswer w.refreshRequests)
      { w with refreshRequests := w.refreshRequests + 1 }
  | stale {cause : RefreshCause} {token : AccessToken} {e : TransakError} :
      TransakEffect P i w (.storeToken cause token) (.error e) w
  | store {cause : RefreshCause} {token : AccessToken} :
      TransakEffect P i w (.storeToken cause token) (.ok token) (w.store cause token)
  | send {request : ApiRequest} {token : AccessToken} {answer : TransakAnswer} :
      TransakEffect P i w (.send request token) answer (w.sent i ⟨token, answer⟩)
  | nothing {e : TransakError} : TransakEffect P i w .webhookTokens (.error e) (w.offer i)
  | offer : TransakEffect P i w .webhookTokens (.ok (w.cache.webhookValues w.now)) (w.offer i)
  | decode {encoded key : Text} :
      TransakEffect P i w (.jwtDecode encoded key) (.ok (P.jwtDecode encoded key))
        { w with tried := w.tried ++ [(i, key)] }

theorem transakPerform_effect {answer : TransakAnswer}
    (h : transakPerform P i op answer w = some (r, v)) : TransakEffect P i w op r v := by
  cases op with
  | readToken => cases h; exact .read
  | acquireTokenLock =>
    simp only [transakPerform] at h
    split at h
    · next free =>
      cases h
      exact .acquire free
    · cases h
  | releaseTokenLock => cases h; exact .release
  | refreshRequest => cases h; exact .request
  | storeToken cause token =>
    simp only [transakPerform] at h
    split at h
    · cases h
      exact .stale
    · cases h
      exact .store
  | send request token => cases h; exact .send
  | webhookTokens =>
    simp only [transakPerform] at h
    split at h
    · cases h
      exact .nothing
    · cases h
      exact .offer
  | jwtDecode encoded key => cases h; exact .decode

theorem unlock_holder {j : ℕ} : (w.unlock i).holder = some j ↔ w.holder = some j ∧ j ≠ i := by
  unfold TransakWorld.unlock
  split
  · next held => simp only [reduceCtorEq, held, Option.some_inj, ne_eq, false_iff, not_and, not_not,
      eq_comm, imp_self]
  · next other =>
    refine ⟨fun h => ⟨h, fun eq => other (eq ▸ h)⟩, And.left⟩

theorem unlock_same : (w.unlock i).cache = w.cache ∧ (w.unlock i).refreshes = w.refreshes ∧
    (w.unlock i).refreshRequests = w.refreshRequests ∧ (w.unlock i).attempts = w.attempts ∧
    (w.unlock i).offers = w.offers ∧ (w.unlock i).tried = w.tried ∧ (w.unlock i).now = w.now := by
  unfold TransakWorld.unlock
  split <;> exact ⟨rfl, rfl, rfl, rfl, rfl, rfl, rfl⟩

theorem sent_self (attempt : SendAttempt) :
    (w.sent i attempt).attempts i = w.attempts i ++ [attempt] := Function.update_self _ _ _

theorem sent_of_ne {j : ℕ} (ne : j ≠ i) (attempt : SendAttempt) :
    (w.sent i attempt).attempts j = w.attempts j := Function.update_of_ne ne _ _

section Log

theorem Linked.snoc {refreshes : List TokenRefresh} {r : TokenRefresh} (h : Linked refreshes)
    (last : r.replaced = refreshes.getLast?.map TokenRefresh.token) :
    Linked (refreshes ++ [r]) := by
  intro pre r' post eq
  rcases List.eq_nil_or_concat post with rfl | ⟨post, s, rfl⟩
  · obtain ⟨rfl, same⟩ := List.append_inj' eq rfl
    cases same
    exact last
  · rw [List.concat_eq_append, ← List.cons_append, ← List.append_assoc] at eq
    exact h pre r' post (List.append_inj' eq rfl).1

theorem Precedes.snoc {refreshes : List TokenRefresh} {q r s : TokenRefresh}
    (h : Precedes refreshes q r) (same : s.token.value = r.token.value) :
    Precedes (refreshes ++ [s]) q r := by
  obtain ⟨pre, rest, rfl, ne, all⟩ := h
  refine ⟨pre, rest ++ [s], by simp, ne, fun y hy => ?_⟩
  rcases List.mem_append.mp hy with hy | hy
  · exact all y hy
  · rwa [List.mem_singleton.mp hy]

/-- The current token has the value that came after `q`. -/
theorem Precedes.getLast {refreshes : List TokenRefresh} {q r : TokenRefresh}
    (h : Precedes refreshes q r) :
    ∃ s, refreshes.getLast? = some s ∧ s.token.value = r.token.value := by
  obtain ⟨pre, rest, rfl, -, all⟩ := h
  rcases List.eq_nil_or_concat rest with rfl | ⟨rest, s, rfl⟩
  · exact ⟨r, by simp, rfl⟩
  · have split : pre ++ q :: r :: rest.concat s = (pre ++ q :: r :: rest) ++ [s] := by simp
    exact ⟨s, by rw [split, List.getLast?_concat], all s (by simp)⟩

theorem precedes_last {refreshes : List TokenRefresh} {q r : TokenRefresh}
    (last : refreshes.getLast? = some q) (ne : q.token.value ≠ r.token.value) :
    Precedes (refreshes ++ [r]) q r := by
  obtain ⟨pre, rfl⟩ := List.getLast?_eq_some_iff.mp last
  exact ⟨pre, [], by simp, ne, fun _ h => by cases h⟩

theorem TransakPlatform.Brought.mono {m n : ℕ} {token : AccessToken} (h : P.Brought m token)
    (le : m ≤ n) : P.Brought n token :=
  h.imp fun _ h => ⟨h.1.trans_le le, h.2⟩

theorem store_previous {cause : RefreshCause} {token t : AccessToken} (h : RefreshLog P w)
    (previous : (w.store cause token).cache.previousToken = some t) :
    ∃ q r, Precedes (w.store cause token).refreshes q r ∧ q.token = t ∧
      (w.store cause token).cache.previousTokenValidUntil = overlapEnd q r := by
  simp only [TransakWorld.store, TokenCache.store] at previous ⊢
  cases last : w.refreshes.getLast? with
  | none =>
    have none : w.cache.currentToken = none := by rw [h.current, last, Option.map_none]
    rw [none] at previous
    obtain ⟨q, r, before, -⟩ := h.previous previous
    obtain ⟨s, some, -⟩ := before.getLast
    cases last.symm.trans some
  | some q =>
    have current : w.cache.currentToken = some q.token := by
      rw [h.current, last, Option.map_some]
    rw [current] at previous ⊢
    by_cases same : q.token.value = token.value
    · simp only [same, ne_eq, not_true_eq_false, if_false] at previous ⊢
      obtain ⟨q', r, before, rfl, valid⟩ := h.previous previous
      obtain ⟨s, last', value⟩ := before.getLast
      obtain rfl : q = s := Option.some_inj.mp (last.symm.trans last')
      exact ⟨q', r, before.snoc (same.symm.trans value), rfl, valid⟩
    · simp only [same, ne_eq, not_false_eq_true, if_true, Option.some_inj] at previous ⊢
      exact ⟨q, _, precedes_last last same, previous, rfl⟩

theorem store_current (cause : RefreshCause) (token : AccessToken) :
    (w.store cause token).cache.currentToken = some token := by
  simp only [TransakWorld.store, TokenCache.store]
  split
  · split <;> rfl
  · rfl

/-- A refresh whose token is new, by a task that had looked at the cache. -/
theorem RefreshLog.store (h : RefreshLog P w) {cause : RefreshCause} {token : AccessToken} {k : ℕ}
    (requests : w.refreshRequests = k + 1) (brought : P.Answers k token)
    (older : ∀ r ∈ w.refreshes, P.Brought k r.token)
    (justified : TokenRefresh.Justified ⟨cause, w.cache.currentToken, token, w.now⟩) :
    RefreshLog P (w.store cause token) where
  current := by
    rw [store_current]
    simp [TransakWorld.store]
  previous := store_previous h
  brought {r} hr := by
    rcases List.mem_append.mp hr with hr | hr
    · exact h.brought hr
    · rw [List.mem_singleton.mp hr]
      exact ⟨k, by simp only [TransakWorld.store, requests]; omega, brought⟩
  fresh new := by
    simp only [TransakWorld.store, List.map_append, List.map_cons, List.map_nil]
    refine List.nodup_append.mpr ⟨h.fresh new, List.nodup_singleton _, fun a ha b hb eq => ?_⟩
    obtain ⟨r, hr, rfl⟩ := List.mem_map.mp ha
    obtain ⟨j, lt, old⟩ := older r hr
    exact new j k _ _ lt old brought (eq.trans (List.mem_singleton.mp hb))
  linked := h.linked.snoc h.current
  justified {r} hr := by
    rcases List.mem_append.mp hr with hr | hr
    · exact h.justified hr
    · rw [List.mem_singleton.mp hr]
      exact justified

/-- Nothing but the previous token and the count of requests has changed. -/
theorem RefreshLog.later (h : RefreshLog P w) (refreshes : v.refreshes = w.refreshes)
    (current : v.cache.currentToken = w.cache.currentToken)
    (previous : v.cache.previousToken = none ∨ v.cache = w.cache)
    (requests : w.refreshRequests ≤ v.refreshRequests) : RefreshLog P v where
  current := by rw [current, refreshes, h.current]
  previous {t} some := by
    rw [refreshes]
    rcases previous with none | same
    · cases none.symm.trans some
    · rw [same] at some ⊢
      exact h.previous some
  brought hr := (h.brought (refreshes ▸ hr)).mono requests
  fresh new := refreshes ▸ h.fresh new
  linked := refreshes ▸ h.linked
  justified hr := h.justified (refreshes ▸ hr)

end Log

theorem forgetPrevious_current (cache : TokenCache) (now : ℚ) :
    (cache.forgetPrevious now).currentToken = cache.currentToken := by
  unfold TokenCache.forgetPrevious
  split <;> rfl

theorem forgetPrevious_previous (cache : TokenCache) (now : ℚ) :
    (cache.forgetPrevious now).previousToken = none ∨ cache.forgetPrevious now = cache := by
  unfold TokenCache.forgetPrevious
  split
  · exact .inr rfl
  · exact .inl rfl

/-- What a webhook may be tried with is current, or came right before. -/
theorem webhookValues_serve (h : RefreshLog P w) {v : Text}
    (mem : v ∈ w.cache.webhookValues w.now) :
    TokenOffer.Serves ⟨i, w.now, w.refreshes, w.cache.webhookValues w.now⟩ v := by
  rcases List.mem_append.mp mem with mem | mem
  · left
    unfold TokenCache.currentValues at mem
    split at mem
    · next current cached =>
      split at mem
      · next within =>
        rw [h.current] at cached
        obtain ⟨r, last, rfl⟩ := Option.map_eq_some_iff.mp cached
        exact ⟨r, last, (List.mem_singleton.mp mem).symm, within⟩
      · cases mem
    · cases mem
  · right
    unfold TokenCache.previousValues at mem
    split at mem
    · next previous cached =>
      split at mem
      · next within =>
        obtain ⟨q, r, before, rfl, valid⟩ := h.previous cached
        exact ⟨q, r, before, (List.mem_singleton.mp mem).symm, valid ▸ within.1⟩
      · cases mem
    · cases mem

section Knowledge

/-- The lock keeps what its holder knows, and the rest is never lost. -/
theorem TransakKnows.later {j : ℕ} {y : TransakPhase} (h : TransakKnows P j y w)
    (holder : v.holder = some j ↔ w.holder = some j)
    (still : w.holder = some j → v.cache.currentToken = w.cache.currentToken ∧
      v.refreshRequests = w.refreshRequests ∧ v.refreshes = w.refreshes)
    (refreshes : w.refreshes ⊆ v.refreshes) (attempts : v.attempts j = w.attempts j)
    (offers : w.offers ⊆ v.offers) : TransakKnows P j y v where
  holder := holder.trans h.holder
  found {held seen} hh hf := by
    rw [(still (h.holder.mpr (by rw [hh]; rfl))).1]
    exact h.found hh hf
  fetched {held answer} hh hf := by
    obtain ⟨-, requests, same⟩ := still (h.holder.mpr (by rw [hh]; rfl))
    unfold Fetched
    rw [requests, same]
    exact h.fetched hh hf
  known ht := (h.known ht).imp fun _ => And.imp_left fun hr => refreshes hr
  renewed := h.renewed
  attempts hl := attempts.trans (h.attempts hl)
  offered hv := (h.offered hv).imp fun _ => And.imp_left fun ho => offers ho

theorem refreshes_grow {cause : RefreshCause} {token : AccessToken} :
    w.refreshes ⊆ (w.store cause token).refreshes := List.subset_append_left _ _

/-- What the other tasks know stays so. -/
theorem TransakEffect.others (effect : TransakEffect P i w op r v) (h : TransakKnows P i x w)
    (may : x.May op) {j : ℕ} (ne : j ≠ i) {y : TransakPhase} (known : TransakKnows P j y w) :
    TransakKnows P j y v := by
  have excluded (held : w.holder = some i) : w.holder ≠ some j :=
    fun other => ne (Option.some_inj.mp (other.symm.trans held))
  cases effect with
  | read => exact known
  | acquire free =>
    refine known.later ?_ (fun held => ?_) (List.Subset.refl _) rfl (List.Subset.refl _)
    · simp only [Option.some_inj, free, reduceCtorEq, iff_false]
      exact ne.symm
    · cases free.symm.trans held
  | release =>
    obtain ⟨cache, refreshes, requests, attempts, offers, -⟩ := unlock_same (w := w) (i := i)
    refine known.later (unlock_holder.trans (and_iff_left ne))
      (fun _ => ⟨congrArg TokenCache.currentToken cache, requests, refreshes⟩) ?_
      (congrFun attempts j) ?_
    · exact refreshes ▸ List.Subset.refl _
    · exact offers ▸ List.Subset.refl _
  | request =>
    exact known.later Iff.rfl (fun held => absurd held (excluded (h.holder.mpr may)))
      (List.Subset.refl _) rfl (List.Subset.refl _)
  | stale => exact known
  | store =>
    obtain ⟨seen, response, held, -⟩ := may
    have own : w.holder = some i := h.holder.mpr (by rw [held]; rfl)
    exact known.later Iff.rfl (fun held => absurd held (excluded own)) refreshes_grow rfl
      (List.Subset.refl _)
  | send =>
    exact known.later Iff.rfl (fun _ => ⟨rfl, rfl, rfl⟩) (List.Subset.refl _)
      (sent_of_ne ne _) (List.Subset.refl _)
  | nothing | offer =>
    exact known.later Iff.rfl (fun held => absurd held (excluded (h.holder.mpr may)))
      (List.Subset.refl _) rfl (List.subset_append_left _ _)
  | decode =>
    exact known.later Iff.rfl (fun _ => ⟨rfl, rfl, rfl⟩) (List.Subset.refl _) rfl
      (List.Subset.refl _)

theorem mem_of_current (log : RefreshLog P w) {t : AccessToken}
    (cached : w.cache.currentToken = some t) : ∃ r ∈ w.refreshes, r.token = t := by
  rw [log.current] at cached
  obtain ⟨r, last, rfl⟩ := Option.map_eq_some_iff.mp cached
  exact ⟨r, List.mem_of_getLast? last, rfl⟩

theorem answers_of_fetched {response : TransakResponse} {token : AccessToken}
    (fetched : Fetched P (.ok response) w) (brought : accessTokenOf response = .ok token) :
    ∃ k, w.refreshRequests = k + 1 ∧ P.Answers k token ∧ ∀ r ∈ w.refreshes, P.Brought k r.token := by
  obtain ⟨k, requests, answer, older⟩ := fetched
  exact ⟨k, requests, ⟨response, answer, brought⟩, older⟩

/-- What the task itself has learnt. -/
theorem TransakEffect.learns (effect : TransakEffect P i w op r v) (log : RefreshLog P w)
    (h : TransakKnows P i x w) (may : x.May op) : TransakKnows P i (x.after op r) v := by
  cases effect with
  | read =>
    refine ⟨h.holder.trans (by simp [TransakPhase.after]), fun {held seen} hh hf => ?_,
      fun {held answer} hh hf => ?_, fun {t} ht => ?_, h.renewed, h.attempts, h.offered⟩
    · obtain ⟨held', -, rfl⟩ := Option.map_eq_some_iff.mp hh
      cases hf
      rfl
    · obtain ⟨held', hh', rfl⟩ := Option.map_eq_some_iff.mp hh
      exact h.fetched hh' hf
    · rcases List.mem_append.mp ht with ht | ht
      · exact mem_of_current log (Option.mem_toList.mp ht)
      · exact h.known ht
  | acquire free =>
    refine ⟨by simp [TransakPhase.after], fun hh hf => ?_, fun hh hf => ?_, h.known, h.renewed,
      h.attempts, h.offered⟩
    · cases hh
      cases hf
    · cases hh
      cases hf
  | release =>
    obtain ⟨cache, refreshes, requests, attempts, offers, -⟩ := unlock_same (w := w) (i := i)
    refine ⟨by simp [unlock_holder, TransakPhase.after], fun hh => ?_, fun hh => ?_,
      fun ht => refreshes ▸ h.known ht, h.renewed, fun hl => attempts ▸ h.attempts hl,
      fun hv => offers ▸ h.offered hv⟩
    · cases hh
    · cases hh
  | request =>
    refine ⟨h.holder.trans (by simp [TransakPhase.after]), fun {held seen} hh hf => ?_,
      fun {held answer} hh hf => ?_, h.known, h.renewed, h.attempts, h.offered⟩
    · obtain ⟨held', hh', rfl⟩ := Option.map_eq_some_iff.mp hh
      exact h.found hh' hf
    · obtain ⟨held', -, rfl⟩ := Option.map_eq_some_iff.mp hh
      exact ⟨w.refreshRequests, rfl, Option.some_inj.mp hf, fun r hr => log.brought hr⟩
  | stale => exact h
  | @store cause token =>
    obtain ⟨seen, response, held, brought, -⟩ := may
    obtain ⟨k, requests, answers, older⟩ := answers_of_fetched (h.fetched held rfl) brought
    refine ⟨h.holder.trans (by simp [TransakPhase.after]), fun hh hf => ?_, fun hh hf => ?_,
      fun {t} ht => ?_, fun {t known u} new hr hu => ?_, h.attempts, h.offered⟩
    · obtain ⟨held', -, rfl⟩ := Option.map_eq_some_iff.mp hh
      cases hf
    · obtain ⟨held', -, rfl⟩ := Option.map_eq_some_iff.mp hh
      cases hf
    · rcases List.mem_cons.mp ht with rfl | ht
      · exact ⟨_, List.mem_append_right _ (List.mem_singleton_self _), rfl⟩
      · exact (h.known ht).imp fun _ => And.imp_left fun hr => refreshes_grow hr
    · cases hr
      obtain ⟨r, hr, rfl⟩ := h.known hu
      obtain ⟨j, lt, old⟩ := older r hr
      exact (new j k _ _ lt old answers).symm
  | send =>
    refine ⟨h.holder, h.found, h.fetched, h.known, h.renewed, fun {l} hl => ?_, h.offered⟩
    obtain ⟨l', hl', rfl⟩ := Option.map_eq_some_iff.mp hl
    exact (sent_self _).trans (by rw [h.attempts hl'])
  | nothing =>
    refine ⟨h.holder, fun hh hf => (forgetPrevious_current _ _).trans (h.found hh hf), h.fetched,
      h.known, h.renewed, h.attempts, fun hv => ?_⟩
    exact (h.offered hv).imp fun _ => And.imp_left (List.mem_append_left _)
  | offer =>
    refine ⟨h.holder, fun hh hf => (forgetPrevious_current _ _).trans (h.found hh hf), h.fetched,
      h.known, h.renewed, h.attempts, fun hv => ?_⟩
    exact ⟨_, List.mem_append_right _ (List.mem_singleton_self _), rfl, hv⟩
  | decode => exact ⟨h.holder, h.found, h.fetched, h.known, h.renewed, h.attempts, h.offered⟩

end Knowledge

section Worlds

theorem SentOnceOrRetried.nothing : SentOnceOrRetried P [] := .inl (Nat.zero_le _)

/-- What a task may send keeps its request to two attempts. -/
theorem SentOnceOrRetried.send {attempt : SendAttempt} (may : x.MaySend attempt.token)
    (h : TransakKnows P i x w) : SentOnceOrRetried P (w.attempts i ++ [attempt]) := by
  rcases may with none | ⟨first, once, unauthorized, other⟩
  · rw [h.attempts none]
    exact .inl le_rfl
  · rw [h.attempts once]
    refine .inr ⟨first, attempt, rfl, unauthorized, fun fresh => ?_⟩
    rcases other with ne | ⟨known, renewed, mem⟩
    · exact ne
    · exact h.renewed fresh renewed mem

theorem TransakConsistent.of_same (h : TransakConsistent P tasks w) (log : RefreshLog P v)
    (holder : ∀ {i}, v.holder = some i → w.holder = some i) (attempts : v.attempts = w.attempts)
    (offers : v.offers = w.offers) (tried : v.tried = w.tried) : TransakConsistent P tasks v where
  log := log
  vacant hi := ⟨fun held => (h.vacant hi).1 (holder held), by rw [attempts, (h.vacant hi).2]⟩
  attempts i := attempts ▸ h.attempts i
  serves ho hv := h.serves (offers ▸ ho) hv
  tried {i v} ht := by
    rw [offers]
    exact h.tried (tried ▸ ht)

theorem TransakConsistent.offer (h : TransakConsistent P tasks w) :
    TransakConsistent P tasks (w.offer i) where
  log := h.log.later rfl (forgetPrevious_current _ _) (forgetPrevious_previous _ _) le_rfl
  vacant := h.vacant
  attempts := h.attempts
  serves {o v} ho hv := by
    rcases List.mem_append.mp ho with ho | ho
    · exact h.serves ho hv
    · rw [List.mem_singleton.mp ho] at hv ⊢
      exact webhookValues_serve h.log hv
  tried ht := (h.tried ht).imp fun _ => And.imp_left (List.mem_append_left _)

theorem rejected_replaces (h : TransakKnows P i x w) (log : RefreshLog P w) {cause : RefreshCause}
    {token : AccessToken} (allows : cause.Allows w.cache.currentToken x.known) :
    TokenRefresh.Justified ⟨cause, w.cache.currentToken, token, w.now⟩ := by
  cases cause with
  | unavailable checkedAt => exact allows
  | rejected used checkedAt =>
    obtain ⟨known, other⟩ := allows
    obtain ⟨r, hr, -⟩ := h.known known
    cases cached : w.cache.currentToken with
    | some current => exact ⟨current, rfl, other current cached⟩
    | none =>
      have nothing := log.current.symm.trans cached
      rw [Option.map_eq_none_iff, List.getLast?_eq_none_iff] at nothing
      rw [nothing] at hr
      cases hr

/-- What an operation leaves of the world. -/
theorem TransakEffect.consistent (effect : TransakEffect P i w op r v) (hi : i < tasks)
    (h : TransakConsistent P tasks w) (known : TransakKnows P i x w) (may : x.May op) :
    TransakConsistent P tasks v := by
  cases effect with
  | read => exact h
  | acquire free =>
    refine ⟨h.log.later rfl rfl (.inr rfl) le_rfl, fun {j} hj => ⟨fun held => ?_, (h.vacant hj).2⟩,
      h.attempts, h.serves, h.tried⟩
    exact absurd (Option.some_inj.mp held) (by omega)
  | release =>
    obtain ⟨cache, refreshes, requests, attempts, offers, tried, -⟩ := unlock_same (w := w) (i := i)
    exact h.of_same (h.log.later refreshes (congrArg TokenCache.currentToken cache) (.inr cache)
      requests.ge) (fun held => (unlock_holder.mp held).1) attempts offers tried
  | request =>
    exact h.of_same (h.log.later rfl rfl (.inr rfl) (Nat.le_succ _)) id rfl rfl rfl
  | stale => exact h
  | store =>
    obtain ⟨seen, response, held, brought, allows⟩ := may
    obtain ⟨k, requests, answers, older⟩ :=
      answers_of_fetched (known.fetched held rfl) brought
    have cached := known.found held rfl
    exact h.of_same (h.log.store requests answers older
      (rejected_replaces known h.log (cached ▸ allows))) id rfl rfl rfl
  | send =>
    refine ⟨h.log.later rfl rfl (.inr rfl) le_rfl, fun {j} hj => ⟨(h.vacant hj).1, ?_⟩, fun j => ?_,
      h.serves, h.tried⟩
    · exact (sent_of_ne (by omega) _).trans (h.vacant hj).2
    · rcases eq_or_ne j i with rfl | ne
      · rw [sent_self]
        exact .send may known
      · rw [sent_of_ne ne]
        exact h.attempts j
  | nothing | offer => exact h.offer
  | decode =>
    refine ⟨h.log.later rfl rfl (.inr rfl) le_rfl, h.vacant, h.attempts, h.serves, fun ht => ?_⟩
    rcases List.mem_append.mp ht with ht | ht
    · exact h.tried ht
    · obtain ⟨rfl, rfl⟩ := Prod.mk.inj (List.mem_singleton.mp ht)
      exact known.offered may

theorem transakConsistent_initial (now : ℚ) (requests : ℕ) :
    TransakConsistent P 0 { TransakWorld.initial now with refreshRequests := requests } where
  log := by
    refine ⟨rfl, fun h => ?_, fun h => ?_, fun _ => List.nodup_nil, fun pre r post eq => ?_,
      fun h => ?_⟩
    · cases h
    · cases h
    · cases (List.append_eq_nil_iff.mp eq.symm).2
    · cases h
  vacant _ := ⟨by rintro ⟨⟩, rfl⟩
  attempts _ := .nothing
  serves ho := by cases ho
  tried ht := by cases ht

theorem transak_respects : (transakSystem P).Respects (transakTypestate P) (fun _ _ => True)
    (fun _ _ => True) where
  perform _ consistent hi known may performed := by
    have effect := transakPerform_effect performed
    exact ⟨trivial, effect.consistent hi consistent known may,
      effect.learns consistent.log known may, fun j y ne other => effect.others known may ne other⟩
  move _ consistent moved := by
    cases moved
    refine ⟨consistent.of_same (consistent.log.later rfl rfl (.inr rfl) le_rfl) id rfl rfl rfl,
      fun j y known => ?_⟩
    exact known.later Iff.rfl (fun _ => ⟨rfl, rfl, rfl⟩) (List.Subset.refl _) rfl
      (List.Subset.refl _)
  start {n p w v} _ consistent started := by
    cases started
    have vacant := consistent.vacant (le_refl n)
    refine ⟨⟨consistent.log, fun hj => consistent.vacant (Nat.le_of_succ_le hj),
      consistent.attempts, consistent.serves, consistent.tried⟩, ⟨.start, ?_, ?_⟩,
      fun _ _ _ known => known⟩
    · cases p with
      | request request => exact authenticatedJsonRequest_follows request
      | webhook rawBody => exact verifyWebhook_follows rawBody
    · refine ⟨?_, fun hh => ?_, fun hh => ?_, fun ht => ?_, fun _ hr => ?_, fun hl => ?_,
        fun hv => ?_⟩
      · simp [vacant.1, TransakPhase.start]
      · cases hh
      · cases hh
      · cases ht
      · cases hr
      · cases hl
        exact vacant.2
      · cases hv
  leave {n i w} _ consistent := by
    obtain ⟨cache, refreshes, requests, attempts, offers, tried, -⟩ := unlock_same (w := w) (i := i)
    refine ⟨consistent.of_same (consistent.log.later refreshes
      (congrArg TokenCache.currentToken cache) (.inr cache) requests.ge)
      (fun held => (unlock_holder.mp held).1) attempts offers tried, ?_, fun j y ne known => ?_⟩
    · refine ⟨?_, fun hh => ?_, fun hh => ?_, fun ht => ?_, fun _ hr => ?_, fun hl => ?_,
        fun hv => ?_⟩
      · have left : (w.unlock i).holder ≠ some i := fun held => (unlock_holder.mp held).2 rfl
        exact iff_of_false left Bool.false_ne_true
      · cases hh
      · cases hh
      · cases ht
      · cases hr
      · cases hl
      · cases hv
    · exact known.later (unlock_holder.trans (and_iff_left ne))
        (fun _ => ⟨congrArg TokenCache.currentToken cache, requests, refreshes⟩)
        (refreshes ▸ List.Subset.refl _) (congrFun attempts j) (offers ▸ List.Subset.refl _)
  restart _ _ := transakConsistent_initial _ _
  cancelled := trivial

end Worlds

abbrev TransakPool := TaskPool TransakWorld TransakOp TransakOp.Reply TransakError Json
abbrev TransakEvent := TaskEvent TransakAnswer ℚ TransakCall
abbrev TransakEntry := TransactionMachine.Entry TransakPool TransakEvent (Option TransakOp)

/-- A service that has just started. -/
def transakStart (now : ℚ) : TransakPool := ⟨.initial now, []⟩

def transakRun (P : TransakPlatform) (s : TransakPool) (es : List TransakEvent) : TransakPool :=
  (transakSystem P).machine.run s es

def transakLog (P : TransakPlatform) (s : TransakPool) (es : List TransakEvent) :
    List TransakEntry :=
  (transakSystem P).machine.log s es

/-- It was the rejection of `value` that led to the refresh: the token found in its place, if any,
had not expired. -/
def TokenRefresh.BecauseOf (value : Text) (r : TokenRefresh) : Prop :=
  ∃ used checkedAt, r.cause = .rejected used checkedAt ∧ used.value = value ∧
    ∀ token, r.replaced = some token → token.value = value ∨ checkedAt < token.expiresAt

/-- Task `i` has the lock for a refresh, which does not succeed. -/
structure FailedRefresh (i : ℕ) (e : TransakEntry) : Prop where
  held : e.before.world.holder = some i
  failed : e.after.world.refreshes = e.before.world.refreshes
  refreshing : ∀ answer, e.input = .run i answer → e.output ≠ some .webhookTokens
  running : e.input ≠ .restart

section Runs
variable {s t : TransakPool} {es : List TransakEvent} {phase : ℕ → TransakPhase}

theorem transakStart_tracks (now : ℚ) :
    (transakTypestate P).Tracks (fun _ _ => True) (transakStart now) fun _ => .ended where
  world := transakConsistent_initial now 0
  tasks _ _ h := by cases h

theorem transakRun_tracks (now : ℚ) (es : List TransakEvent) : ∃ phase,
    (transakTypestate P).Tracks (fun _ _ => True) (transakRun P (transakStart now) es) phase :=
  transak_respects.run (transakStart_tracks now) es fun _ _ => trivial

theorem store_refreshes_ne {cause : RefreshCause} {token : AccessToken} :
    (w.store cause token).refreshes ≠ w.refreshes := by
  simp [TransakWorld.store]

/-- The cache changes by a refresh that succeeds, or in the hands of a webhook that has the lock. -/
theorem TransakEffect.cache (effect : TransakEffect P i w op r v) (known : TransakKnows P i x w)
    (may : x.May op) : v.cache = w.cache ∨
    (w.holder = some i ∧ (v.refreshes ≠ w.refreshes ∨ op = .webhookTokens)) := by
  cases effect with
  | release => exact .inl unlock_same.1
  | store =>
    obtain ⟨seen, response, held, -⟩ := may
    exact .inr ⟨known.holder.mpr (by rw [held]; rfl), .inl store_refreshes_ne⟩
  | nothing | offer => exact .inr ⟨known.holder.mpr may, .inr rfl⟩
  | _ => exact .inl rfl

theorem FailedRefresh.cache {e : TransakEntry}
    (step : (transakSystem P).exec e.before e.input = .ok (e.after, e.output))
    (tracks : (transakTypestate P).Tracks (fun _ _ => True) e.before phase)
    (failed : FailedRefresh i e) : e.after.world.cache = e.before.world.cache := by
  obtain ⟨held, unchanged, refreshing, running⟩ := failed
  have step := TaskSystem.exec_step step
  generalize e.input = input, e.after = after, e.output = output at step unchanged refreshing running
  cases step with
  | @run j answer op next r w task performed =>
    obtain ⟨⟨may, -⟩, known⟩ := tracks.tasks j _ task
    rcases (transakPerform_effect performed).cache known may with same | ⟨own, change⟩
    · exact same
    · obtain rfl : i = j := Option.some_inj.mp (held.symm.trans own)
      rcases change with grown | rfl
      · exact absurd unchanged grown
      · exact absurd rfl (refreshing answer rfl)
  | move moved =>
    cases moved
    rfl
  | start started =>
    cases started
    rfl
  | cancel => exact unlock_same.1
  | restart => exact absurd rfl running

theorem failed_refresh_keeps_cache (now : ℚ) (js ks : List TransakEvent)
    (failed : ∀ e ∈ transakLog P (transakRun P (transakStart now) js) ks, FailedRefresh i e) :
    (transakRun P (transakStart now) (js ++ ks)).world.cache =
      (transakRun P (transakStart now) js).world.cache := by
  rw [transakRun, TransactionMachine.run_append]
  have kept := (transakSystem P).machine.run_invariant_where
    (I := fun t => (∃ phase, (transakTypestate P).Tracks (fun _ _ => True) t phase) ∧
      t.world.cache = (transakRun P (transakStart now) js).world.cache)
    (C := FailedRefresh i) ⟨transakRun_tracks now js, rfl⟩
    (fun s e t o ⟨tracks, same⟩ hx hf => ?_) ks failed
  · exact kept.2
  · refine ⟨tracks.elim fun phase h =>
      (TaskSystem.exec_step hx).tracks transak_respects h trivial, ?_⟩
    exact (tracks.elim fun phase h => FailedRefresh.cache (e := ⟨s, e, o, t⟩) hx h hf).trans same

/-- No two refreshes replaced one token. -/
theorem RefreshLog.replaced_once (h : RefreshLog P w) (fresh : P.Fresh) {j k : ℕ}
    {a b : TokenRefresh} {s t : AccessToken} (ha : w.refreshes[j]? = some a)
    (hb : w.refreshes[k]? = some b) (hs : a.replaced = some s) (ht : b.replaced = some t)
    (same : s.value = t.value) : j = k := by
  have before {j : ℕ} {a : TokenRefresh} {s : AccessToken} (ha : w.refreshes[j]? = some a)
      (hs : a.replaced = some s) : ∃ n, j = n + 1 ∧
        (w.refreshes.map fun r => r.token.value)[n]? = some s.value := by
    obtain ⟨lt, rfl⟩ := List.getElem?_eq_some_iff.mp ha
    have split : w.refreshes = w.refreshes.take j ++ w.refreshes[j] :: w.refreshes.drop (j + 1) := by
      rw [← List.drop_eq_getElem_cons lt, List.take_append_drop]
    have linked := h.linked _ _ _ split
    rw [hs] at linked
    obtain ⟨q, last, rfl⟩ := Option.map_eq_some_iff.mp linked.symm
    cases j with
    | zero => simp at last
    | succ n =>
      refine ⟨n, rfl, ?_⟩
      rw [List.getLast?_eq_getElem?, List.length_take, List.getElem?_take] at last
      have place : min (n + 1) w.refreshes.length - 1 = n := by omega
      rw [place, if_pos (Nat.lt_succ_self n)] at last
      rw [List.getElem?_map, last, Option.map_some]
  obtain ⟨m, rfl, hm⟩ := before ha hs
  obtain ⟨n, rfl, hn⟩ := before hb ht
  rw [same, ← hn] at hm
  have lt := (List.getElem?_eq_some_iff.mp hn).1
  rw [(List.getElem?_inj lt (h.fresh fresh)).mp hm.symm]

/-- What led to a refresh because of a rejection is that the rejected token was cached. -/
theorem TokenRefresh.BecauseOf.replaced {value : Text} {a : TokenRefresh}
    (because : a.BecauseOf value) (justified : a.Justified) :
    ∃ token, a.replaced = some token ∧ token.value = value := by
  obtain ⟨used, checkedAt, cause, rfl, live⟩ := because
  simp only [TokenRefresh.Justified, cause] at justified
  obtain ⟨token, replaced, same | expired⟩ := justified
  · exact ⟨token, replaced, same⟩
  · rcases live token replaced with same | lt
    · exact ⟨token, replaced, same⟩
    · exact absurd expired (not_le.mpr lt)

end Runs

/-- Refreshes of the partner token are single-flight in every run of the service. -/
theorem partner_token_single_flight (P : TransakPlatform) (now : ℚ) (es : List TransakEvent) :
    let w := (transakRun P (transakStart now) es).world
    (P.Fresh → ∀ (value : Text) (j k : ℕ) (a b : TokenRefresh), w.refreshes[j]? = some a →
      w.refreshes[k]? = some b →
      a.BecauseOf value → b.BecauseOf value → j = k) ∧
    (∀ i, SentOnceOrRetried P (w.attempts i)) ∧
    (∀ i js ks, es = js ++ ks →
      (∀ e ∈ transakLog P (transakRun P (transakStart now) js) ks, FailedRefresh i e) →
      w.cache = (transakRun P (transakStart now) js).world.cache) ∧
    (∀ i value, (i, value) ∈ w.tried →
      ∃ o ∈ w.offers, o.task = i ∧ value ∈ o.values ∧ o.Serves value) ∧
    ∀ rawBody, (verifyWebhook P rawBody).Uses TransakOp.readsOnly := by
  intro w
  obtain ⟨phase, tracks⟩ := transakRun_tracks (P := P) now es
  have consistent := tracks.world
  refine ⟨fun fresh value j k a b ha hb because because' => ?_, consistent.attempts,
    fun i js ks eq failed => ?_, fun i value ht => ?_, verifyWebhook_uses⟩
  · have log := consistent.log
    obtain ⟨s, hs, own⟩ := because.replaced (log.justified (List.mem_of_getElem? ha))
    obtain ⟨t, ht, own'⟩ := because'.replaced (log.justified (List.mem_of_getElem? hb))
    exact log.replaced_once fresh ha hb hs ht (own.trans own'.symm)
  · subst eq
    exact failed_refresh_keeps_cache now js ks failed
  · obtain ⟨o, ho, task, hv⟩ := consistent.tried ht
    exact ⟨o, ho, task, hv, consistent.serves ho hv⟩

section Sample

def sampleTokenAnswer (value : String) (expiresAt : ℤ) : TransakAnswer :=
  .ok ⟨200, .obj [(text "data", .obj [(text "accessToken", .str (text value)),
    (text "expiresAt", .int expiresAt)])]⟩

/-- A provider that gives out two tokens. -/
def sampleTransak : TransakPlatform where
  refreshAnswer k := if k = 0 then sampleTokenAnswer "first" 1000
    else if k = 1 then sampleTokenAnswer "second" 2000 else .error .jwt
  strictJsonLoads _ := none
  jwtDecode _ _ := .error .invalidToken

theorem sampleTransak_answers {k : ℕ} {token : AccessToken} (h : sampleTransak.Answers k token) :
    (k = 0 ∧ token.value = text "first") ∨ (k = 1 ∧ token.value = text "second") := by
  obtain ⟨response, answer, brought⟩ := h
  simp only [sampleTransak] at answer
  split at answer
  · next zero =>
    cases answer
    cases brought
    exact .inl ⟨zero, rfl⟩
  · split at answer
    · next one =>
      cases answer
      cases brought
      exact .inr ⟨one, rfl⟩
    · cases answer

theorem sampleTransak_fresh : sampleTransak.Fresh := by
  intro j k s t lt hs ht
  have ne : text "first" ≠ text "second" := by decide
  rcases sampleTransak_answers hs with ⟨rfl, first⟩ | ⟨rfl, second⟩
  · rcases sampleTransak_answers ht with ⟨rfl, -⟩ | ⟨rfl, second⟩
    · exact absurd lt (lt_irrefl _)
    · rw [first, second]
      exact ne
  · rcases sampleTransak_answers ht with ⟨rfl, -⟩ | ⟨rfl, -⟩
    · exact absurd lt (by decide)
    · exact absurd lt (lt_irrefl _)

/-- Two requests are sent with the first token, and both are rejected. -/
def sampleRejections : List TransakEvent :=
  let request : TransakCall := .request ⟨text "GET", text "/orders", text "order lookup", false⟩
  let step (i : ℕ) : TransakEvent := .run i (.ok ⟨200, .obj []⟩)
  let reject (i : ℕ) : TransakEvent := .run i (.ok ⟨401, .null⟩)
  [.start request, .start request] ++ List.replicate 6 (step 0) ++ [step 1, reject 0, reject 1] ++
    List.replicate 6 (step 0) ++ List.replicate 4 (step 1)

theorem sampleRejections_refreshes :
    let w := (transakRun sampleTransak (transakStart 500) sampleRejections).world
    w.refreshes.map (fun r => r.token.value) = [text "first", text "second"] ∧
      (w.attempts 0).length = 2 ∧ (w.attempts 1).length = 2 ∧ w.refreshRequests = 2 := by
  decide +kernel

/-- One refresh serves both requests. -/
theorem partner_token_single_flight_sample :
    let w := (transakRun sampleTransak (transakStart 500) sampleRejections).world
    (w.refreshes.map (fun r => r.token.value) = [text "first", text "second"] ∧
      (w.attempts 0).length = 2 ∧ (w.attempts 1).length = 2 ∧ w.refreshRequests = 2) ∧
    ∀ (value : Text) (j k : ℕ) (a b : TokenRefresh), w.refreshes[j]? = some a →
      w.refreshes[k]? = some b →
      a.BecauseOf value → b.BecauseOf value → j = k :=
  ⟨sampleRejections_refreshes,
    (partner_token_single_flight sampleTransak 500 sampleRejections).1 sampleTransak_fresh⟩

end Sample

end Privana
