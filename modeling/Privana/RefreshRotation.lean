import Mathlib.Logic.Relation
import Privana.NonceOwners
import Privana.TokenRecall

/-! Refresh tokens in every run: they are exchanged once, by their own user, and revoked with
all that descends from them unless a rotation overtakes the loop. -/

namespace Privana
open BigEndian Coroutine

/-- The refresh token that was exchanged. -/
def exchangedToken (lib : AuthLibrary) : AuthRequest × AuthResponse → Option Text
  | (.refresh token, .refreshed ..) => (lib.decodeJwt token).bind Claims.jti
  | _ => none

/-- The recalls that have listed the keys. -/
def begunRecalls (s : AuthPool) : List Recall :=
  s.world.recalled ++ (List.range s.tasks.length).filterMap s.world.recalling

/-- No successor is stored for a token that a recall, which has listed the keys, is about. -/
def rotatesInTime (e : AuthEntry) : Bool :=
  match e.output with
  | some (.createRefreshToken _ (some parent)) =>
    (begunRecalls e.before).all fun r => (parent, r.user) ∉ r.before
  | _ => true

/-- From a token to its descendants, through any number of rotations. -/
def Descends (w : AuthWorld) : Text → Text → Prop :=
  Relation.ReflTransGen fun parent child => (child, parent) ∈ w.rotations

variable {lib : AuthLibrary} {settings : AuthSettings} {audience : Text} {es : List AuthEvent}
  {w v : AuthWorld} {i tasks : ℕ} {op : AuthOp}

theorem exchangedToken_grant {x : AuthRequest × AuthResponse} {jti : Text}
    (h : exchangedToken lib x = some jti) : grantOf lib x = some (.refresh jti) := by
  unfold exchangedToken at h
  split at h
  · exact congrArg (Option.map Grant.refresh) h
  · cases h

/-- Who deletes a refresh token is its user. -/
theorem owner_of_owns {x : AuthPhase} {jti : Text} {request : AuthRequest} {b : Address}
    (consistent : AuthConsistent lib settings tasks w) (known : authKnows lib settings i x w)
    (owns : x.Owns lib jti request) (issued : (jti, b) ∈ w.refresh.issued) :
    requestUser lib request = some b := by
  cases x with
  | presented token claims second =>
    obtain ⟨user, key, own⟩ := owns
    obtain rfl := consistent.refresh.value_unique (consistent.signed known.2.2 key) issued
    rw [user, known.2.1, Option.map_some, own]
  | seen token claims jti' owner =>
    obtain ⟨user, rfl, own⟩ := owns
    obtain rfl := consistent.refresh.value_unique known.2.2 issued
    rw [user, known.2.1, Option.map_some, own]
  | _ => exact owns.elim

/-- How a refresh token leaves the store. -/
theorem refresh_token_leaves {e : AuthEntry} (he : e ∈ authLog lib settings audience es)
    {jti : Text} {b : Address} (before : (jti, b) ∈ e.before.world.refresh.entries)
    (after : (jti, b) ∉ e.after.world.refresh.entries) :
    e.input = .move (.expireRefreshToken jti) ∨ ∃ request,
      (e.output = some (.consumeRefreshToken jti request) ∨
        e.output = some (.deleteRefreshToken jti request)) ∧
      requestUser lib request = some b := by
  cases authLog_step he with
  | performed output consistent may known step =>
    have issued := consistent.refresh.entries_issued before
    generalize e.after.world = v at step after
    cases step with
    | same same => exact absurd (same.refresh ▸ before) after
    | createRefreshToken => exact absurd (List.mem_cons_of_mem _ before) after
    | consumeRefreshToken found =>
      obtain rfl : jti = _ := OneTimeStore.eq_of_taken before after
      obtain ⟨token, claims, rfl, rfl, key⟩ := may
      obtain rfl := consistent.refresh.value_unique (consistent.signed known.2.2 key) issued
      exact .inr ⟨_, .inl output, congrArg (Option.map Claims.sub) known.2.1⟩
    | deleteRefreshToken has =>
      obtain rfl : jti = _ := OneTimeStore.eq_of_dropped before after
      exact .inr ⟨_, .inr output, owner_of_owns consistent known may issued⟩
    | _ => exact absurd before after
  | @moved m input moved =>
    generalize e.after.world = v at moved after
    cases m with
    | expireRefreshToken =>
      cases moved
      obtain rfl : jti = _ := OneTimeStore.eq_of_dropped before after
      exact .inl input
    | _ =>
      cases moved
      exact absurd before after
  | idle same | restarted same =>
    rw [same] at after
    exact absurd before after

section Recalls

theorem recallTracks_empty : (recallTypestate lib).Tracks (fun _ _ => True)
    (⟨{}, []⟩ : AuthPool) fun _ => .free where
  world := ⟨fun h => (List.not_mem_nil h).elim, fun h => (by cases h),
    fun h => (List.not_mem_nil h).elim, fun _ => rfl⟩
  tasks _ _ h := by cases h

theorem authLog_consistent {e : AuthEntry} (he : e ∈ authLog lib settings audience es) :
    ∃ tasks, AuthConsistent lib settings tasks e.before.world :=
  (authLog_entry he).1.elim fun _ tracks => ⟨_, tracks.world⟩

theorem authRun_recalls : RecallConsistent (authRun lib settings audience es).tasks.length
    (authRun lib settings audience es).world :=
  ((authSystem_respects_recall.run recallTracks_empty es fun _ => authLog_consistent).choose_spec).world

theorem authLog_recalls {e : AuthEntry} (he : e ∈ authLog lib settings audience es) :
    RecallConsistent e.before.tasks.length e.before.world :=
  (authSystem_respects_recall.entry recallTracks_empty es (fun _ => authLog_consistent) he).1.elim
    fun _ tracks => tracks.world

/-- A recall that has listed the keys. -/
def AuthWorld.Begun (w : AuthWorld) (r : Recall) : Prop :=
  r ∈ w.recalled ∨ ∃ i, w.recalling i = some r

/-- What a recall is about contains the successors, too. -/
def RotationClosed (w : AuthWorld) : Prop :=
  ∀ r, w.Begun r → ∀ child parent, (child, parent) ∈ w.rotations → (parent, r.user) ∈ r.before →
    (child, r.user) ∈ r.before

theorem RotationClosed.later (h : RotationClosed w) (begun : ∀ r, v.Begun r → w.Begun r)
    (rotations : v.rotations = w.rotations) : RotationClosed v :=
  fun r hr child parent hm => h r (begun r hr) child parent (rotations ▸ hm)

theorem mem_begunRecalls {s : AuthPool} (h : RecallConsistent s.tasks.length s.world) {r : Recall}
    (begun : s.world.Begun r) : r ∈ begunRecalls s := by
  rcases begun with hr | ⟨i, hr⟩
  · exact List.mem_append_left _ hr
  · refine List.mem_append_right _ (List.mem_filterMap.mpr ⟨i, List.mem_range.mpr ?_, hr⟩)
    by_contra beyond
    cases (h.vacant (not_lt.mp beyond)).symm.trans hr

theorem StoreStep.rotationClosed (step : StoreStep audience i w v op) (h : RotationClosed w)
    (consistent : AuthConsistent lib settings tasks w)
    (timely : ∀ a parent, op = .createRefreshToken a (some parent) → ∀ r, w.Begun r →
      (parent, r.user) ∉ r.before) : RotationClosed v := by
  cases step with
  | same same =>
    refine h.later (fun r hr => ?_) same.rotations
    unfold AuthWorld.Begun at hr
    rwa [same.recalled, same.recalling] at hr
  | @createRefreshToken jti a parent fresh =>
    intro r hr child p hm mem
    cases parent with
    | none => exact h r hr child p hm mem
    | some q =>
      rcases List.mem_cons.mp hm with same | hm
      · obtain ⟨-, rfl⟩ := Prod.mk.inj same
        exact absurd mem (timely a p rfl r hr)
      · exact h r hr child p hm mem
  | @refreshKeys user =>
    intro r hr child parent hm mem
    rcases hr with hr | ⟨j, hr⟩
    · exact h r (.inl hr) child parent hm mem
    · rcases eq_or_ne j i with rfl | ne
      · obtain rfl := Option.some_inj.mp ((AuthWorld.startRecall_self user).symm.trans hr)
        obtain ⟨a, child_issued, parent_issued⟩ := consistent.rotated hm
        obtain rfl := consistent.refresh.value_unique parent_issued mem
        exact child_issued
      · exact h r (.inr ⟨j, (AuthWorld.startRecall_of_ne ne user).symm.trans hr⟩) child parent hm mem
  | @respond request response =>
    refine h.later (fun r hr => ?_) rfl
    rcases hr with hr | ⟨j, hr⟩
    · rcases AuthWorld.respond_recalled hr with hr | hr
      · exact .inr ⟨i, hr⟩
      · exact .inl hr
    · rcases eq_or_ne j i with rfl | ne
      · cases (AuthWorld.respond_self request response).symm.trans hr
      · exact .inr ⟨j, (AuthWorld.respond_of_ne ne request response).symm.trans hr⟩
  | _ => exact h

theorem rotatesInTime_iff {e : AuthEntry} (timely : rotatesInTime e = true) {a : Address}
    {parent : Text} (output : e.output = some (.createRefreshToken a (some parent))) {r : Recall}
    (hr : r ∈ begunRecalls e.before) : (parent, r.user) ∉ r.before := by
  simp only [rotatesInTime, output, List.all_eq_true, decide_eq_true_eq] at timely
  exact timely r hr

theorem authRun_rotationClosed
    (timely : ∀ e ∈ authLog lib settings audience es, rotatesInTime e = true) :
    RotationClosed (authRun lib settings audience es).world := by
  refine (authSystem lib settings audience).machine.run_invariant_where
    (I := fun s : AuthPool => RotationClosed s.world)
    (C := fun e => rotatesInTime e = true ∧ RunStep lib settings audience e ∧
      RecallConsistent e.before.tasks.length e.before.world)
    (fun _ _ _ _ hm => (List.not_mem_nil hm).elim) (fun s e t o h executed ⟨timely, step, recalls⟩ => ?_)
    es fun e he => ⟨timely e he, authLog_step he, authLog_recalls he⟩
  cases step with
  | performed output consistent may known step =>
    refine step.rotationClosed h consistent fun a parent same r hr => ?_
    exact rotatesInTime_iff timely (output.trans (congrArg some same))
      (mem_begunRecalls recalls hr)
  | @moved m input moved =>
    dsimp only at moved
    generalize t.world = v at moved ⊢
    cases m <;> cases moved <;> exact h
  | idle same =>
    dsimp only at same
    rw [same]
    exact h
  | restarted same =>
    dsimp only at same
    rw [same]
    refine h.later (fun r hr => ?_) rfl
    rcases hr with hr | ⟨j, hr⟩
    · exact .inl hr
    · cases hr

end Recalls

theorem StoreStep.begins {j : ℕ} {r : Recall} (step : StoreStep audience j w v op)
    (recalling : v.recalling i = some r) : w.recalling i = some r ∨
      (i = j ∧ op = .refreshKeys r.user ∧ w.refresh.issued = r.before) := by
  cases step with
  | same same => exact .inl (same.recalling ▸ recalling)
  | @refreshKeys user =>
    rcases eq_or_ne i j with rfl | ne
    · obtain rfl := Option.some_inj.mp ((AuthWorld.startRecall_self user).symm.trans recalling)
      exact .inr ⟨rfl, rfl, rfl⟩
    · exact .inl ((AuthWorld.startRecall_of_ne ne user).symm.trans recalling)
  | @respond request response =>
    rcases eq_or_ne i j with rfl | ne
    · cases (AuthWorld.respond_self request response).symm.trans recalling
    · exact .inl ((AuthWorld.respond_of_ne ne request response).symm.trans recalling)
  | _ => exact .inl recalling

/-- The recall that a task is about began when that task listed the keys, and is about what
had been issued by then. -/
theorem recalling_begun {r : Recall}
    (recalling : (authRun lib settings audience es).world.recalling i = some r) :
    ∃ e ∈ authLog lib settings audience es, ∃ c, e.input = .run i c ∧
      e.output = some (.refreshKeys r.user) ∧ e.before.world.refresh.issued = r.before := by
  induction es using List.reverseRecOn with
  | nil => cases recalling
  | append_singleton es x ih =>
    have earlier (h : (authRun lib settings audience es).world.recalling i = some r) :
        ∃ e ∈ authLog lib settings audience (es ++ [x]), ∃ c, e.input = .run i c ∧
          e.output = some (.refreshKeys r.user) ∧ e.before.world.refresh.issued = r.before := by
      obtain ⟨e, he, begun⟩ := ih h
      exact ⟨e, (authSystem lib settings audience).machine.mem_log_of_prefix
        (List.prefix_append _ _) he, begun⟩
    cases executed : (authSystem lib settings audience).machine.exec
        (authRun lib settings audience es) x with
    | error e =>
      rw [authRun, TransactionMachine.run_concat, ← authRun,
        TransactionMachine.step_of_error _ executed] at recalling
      exact earlier recalling
    | ok p =>
      rw [authRun, TransactionMachine.run_concat, ← authRun,
        TransactionMachine.step_of_ok _ executed] at recalling
      have mem : ⟨authRun lib settings audience es, x, p.2, p.1⟩ ∈
          authLog lib settings audience (es ++ [x]) := by
        rw [authLog, TransactionMachine.log_concat, ← authRun,
          TransactionMachine.record_of_ok _ executed]
        exact List.mem_append_right _ (List.mem_singleton_self _)
      obtain ⟨after, output⟩ := p
      have step := (authLog_entry mem).2
      dsimp only at step recalling
      cases step with
      | @run j c op next result v task performed =>
        rcases (perform_storeStep performed).begins recalling with h | ⟨rfl, rfl, same⟩
        · exact earlier h
        · exact ⟨_, mem, c, rfl, rfl, same⟩
      | @move m v moved =>
        dsimp only at recalling
        cases m <;> cases moved <;> exact earlier recalling
      | start started =>
        cases started
        exact earlier recalling
      | cancel => exact earlier recalling
      | restart => cases recalling

/-- An answered `revoke_all` is the recall that its own task began, for the user of the request. -/
theorem revoke_all_recalled {before after : List AuthEntry} {e : AuthEntry}
    (split : authLog lib settings audience es = before ++ e :: after) {c : AuthChoice}
    {request : AuthRequest} {response : AuthResponse} (input : e.input = .run i c)
    (output : e.output = some (.respond request response)) (all : request.revokesAll = true) :
    ∃ r ∈ e.after.world.recalled, e.before.world.recalling i = some r ∧
      requestUser lib request = some r.user ∧ ∃ b ∈ before, ∃ c', b.input = .run i c' ∧
        b.output = some (.refreshKeys r.user) ∧ b.before.world.refresh.issued = r.before := by
  have he : e ∈ authLog lib settings audience es := split ▸ by simp
  obtain ⟨js, ks, -, rfl, start, -⟩ :=
    (authSystem lib settings audience).machine.exists_prefix_of_log_split split
  obtain ⟨⟨phase, tracks⟩, step⟩ := authSystem_respects_recall.entry recallTracks_empty es
    (fun _ => authLog_consistent) he
  obtain ⟨state, input', output', after'⟩ := e
  dsimp only at step tracks output input start ⊢
  subst output input start
  cases step with
  | @run i c op next r v task performed =>
    obtain ⟨⟨may, -⟩, known⟩ := tracks.tasks i _ task
    obtain rfl := respond_world performed
    generalize phase i = x at may known
    cases x with
    | free => cases all.symm.trans (may request response rfl)
    | scanning user keys =>
      cases keys with
      | cons => cases may
      | nil =>
        obtain ⟨_, _, same, user⟩ := may
        obtain ⟨rfl, -⟩ := AuthOp.respond.inj same
        obtain ⟨issued, recalling, -⟩ := known
        refine ⟨⟨_, issued⟩, ?_, recalling, user, recalling_begun recalling⟩
        simp only [AuthWorld.respond, recalling, List.mem_cons, true_or]
    | deleting =>
      obtain ⟨_, same⟩ := may
      cases same
    | ended => exact may.elim

/-- A refresh token is exchanged at most once, and consumed or deleted only for its own user. An
answered `revoke_all` is the recall that the same task began before. If no rotation stores a
successor behind a recall, then what was issued to the user before the recall listed the keys,
and all that descends from it, is gone when the recall is answered. -/
theorem refresh_tokens_rotate (lib : AuthLibrary) (settings : AuthSettings) (audience : Text)
    (es : List AuthEvent)
    (timely : ∀ e ∈ authLog lib settings audience es, rotatesInTime e = true) :
    let w := (authRun lib settings audience es).world
    (w.responses.filterMap (exchangedToken lib)).Nodup ∧ (w.refresh.taken.map Prod.fst).Nodup ∧
    (∀ e ∈ authLog lib settings audience es, ∀ jti b, (jti, b) ∈ e.before.world.refresh.entries →
      (jti, b) ∉ e.after.world.refresh.entries → e.input = .move (.expireRefreshToken jti) ∨
        ∃ request, (e.output = some (.consumeRefreshToken jti request) ∨
          e.output = some (.deleteRefreshToken jti request)) ∧ requestUser lib request = some b) ∧
    (∀ before e after, authLog lib settings audience es = before ++ e :: after →
      ∀ i c request response, e.input = .run i c → e.output = some (.respond request response) →
        request.revokesAll = true → ∃ r ∈ e.after.world.recalled,
          e.before.world.recalling i = some r ∧ requestUser lib request = some r.user ∧
          ∃ b ∈ before, ∃ c', b.input = .run i c' ∧ b.output = some (.refreshKeys r.user) ∧
            b.before.world.refresh.issued = r.before) ∧
    ∀ r ∈ w.recalled, ∀ root, (root, r.user) ∈ r.before → ∀ token, Descends w root token →
      w.refresh.find token = none := by
  intro w
  have consistent : AuthConsistent lib settings _ w := authRun_consistent
  refine ⟨nodup_filterMap_of_imp (fun x jti => exchangedToken_grant)
      consistent.custody.answeredOnce, consistent.refresh.takenOnce,
    fun e he jti b => refresh_token_leaves he,
    fun before e after split i c request response => revoke_all_recalled split, ?_⟩
  · intro r hr root issued token descends
    have recalls : RecallConsistent _ w := authRun_recalls
    have closed : RotationClosed w := authRun_rotationClosed timely
    have mem : (token, r.user) ∈ r.before := by
      induction descends with
      | refl => exact issued
      | tail _ rotated ih => exact closed r (.inl hr) _ _ rotated ih
    rcases found : w.refresh.find token with - | b
    · rfl
    · have stored := OneTimeStore.mem_of_find found
      obtain rfl := consistent.refresh.value_unique (consistent.refresh.entries_issued stored)
        (recalls.recalled_issued hr mem)
      exact absurd stored (recalls.cleared hr mem)

section Sample

def firstJti : Text := text "Zk0pXh1yQm8"

def secondJti : Text := text "b7RtLw2uVd4"

def aliceAccess : Text := text "eyJhbGciOiJFZERTQSJ9.access.alice"

def firstRefresh : Text := text "eyJhbGciOiJFZERTQSJ9.refresh.first"

/-- The same libraries, with the tokens that are issued here. -/
def tokenLibrary : AuthLibrary :=
  { sampleLibrary with
    decodeJwt := fun token =>
      if token = aliceAccess then some ⟨alice, .access, none, []⟩
      else if token = firstRefresh then some (refreshClaims [] alice firstJti)
      else none }

/-- Alice logs in and gets her first refresh token. -/
def aliceLogsIn : List AuthEvent :=
  nonceForAlice ++ loginEvents 1 aliceText (sampleSiweSignature aliceText) ++
    [.served, .fresh firstJti, .served].map (stepOf 1)

/-- She rotates it, and revokes all her tokens afterwards. -/
def revokedAfterwards : List AuthEvent :=
  aliceLogsIn ++
    .start (.refresh firstRefresh) :: [.served, .served, .served, .fresh secondJti, .served].map
      (stepOf 2) ++
    .start (.logout aliceAccess none true) :: [.served, .served, .served, .served, .served,
      .served, .served].map (stepOf 3)

/-- She revokes all her tokens while the rotation is between its two steps. -/
def revokedInBetween : List AuthEvent :=
  aliceLogsIn ++
    .start (.refresh firstRefresh) :: [.served, .served, .served].map (stepOf 2) ++
    .start (.logout aliceAccess none true) :: [.served, .served, .served].map (stepOf 3) ++
    [.fresh secondJti, .served].map (stepOf 2)

theorem revokedAfterwards_run :
    let w := (authRun tokenLibrary sampleAuthSettings [] revokedAfterwards).world
    (∀ e ∈ authLog tokenLibrary sampleAuthSettings [] revokedAfterwards,
      rotatesInTime e = true) ∧
      (⟨alice, [(secondJti, alice), (firstJti, alice)]⟩ : Recall) ∈ w.recalled ∧
      (firstJti, alice) ∈ [(secondJti, alice), (firstJti, alice)] ∧
      (secondJti, firstJti) ∈ w.rotations := by
  decide +kernel

/-- The successor is gone when the recall comes afterwards. -/
theorem refresh_tokens_rotate_afterwards :
    let w := (authRun tokenLibrary sampleAuthSettings [] revokedAfterwards).world
    w.refresh.find secondJti = none := by
  dsimp only
  obtain ⟨timely, recalled, issued, rotated⟩ := revokedAfterwards_run
  obtain ⟨-, -, -, -, gone⟩ := refresh_tokens_rotate tokenLibrary sampleAuthSettings []
    revokedAfterwards timely
  exact gone _ recalled firstJti issued secondJti (.single rotated)

theorem revokedInBetween_run :
    let w := (authRun tokenLibrary sampleAuthSettings [] revokedInBetween).world
    (AuthRequest.logout aliceAccess none true, AuthResponse.loggedOut 0) ∈ w.responses ∧
      (⟨alice, [(firstJti, alice)]⟩ : Recall) ∈ w.recalled ∧
      (secondJti, firstJti) ∈ w.rotations ∧ w.refresh.find secondJti = some alice := by
  decide +kernel

/-- A successor that is stored behind the listing is still there when the recall is over. -/
theorem refresh_token_outlives_revocation :
    let w := (authRun tokenLibrary sampleAuthSettings [] revokedInBetween).world
    (AuthRequest.logout aliceAccess none true, AuthResponse.loggedOut 0) ∈ w.responses ∧
      (⟨alice, [(firstJti, alice)]⟩ : Recall) ∈ w.recalled ∧ Descends w firstJti secondJti ∧
      w.refresh.find secondJti = some alice := by
  dsimp only
  obtain ⟨answered, recalled, rotated, found⟩ := revokedInBetween_run
  exact ⟨answered, recalled, .single rotated, found⟩

end Sample

end Privana
