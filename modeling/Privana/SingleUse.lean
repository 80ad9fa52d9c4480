import Privana.ServedRequest

/-! Nonces and authorization codes in every run of the service: each is answered for at most
once, to a request that passes its checks, and a request that does not pass leaves it usable. -/

namespace Privana
open BigEndian Coroutine

/-- The nonce of a successful authentication. -/
def authenticatedNonce (lib : AuthLibrary) : AuthRequest × AuthResponse → Option Text
  | (.login _ siweMessage _, .login ..) | (.authorize _ siweMessage .., .code _) =>
    (lib.parseSiwe siweMessage).map SiweMessage.nonce
  | _ => none

/-- The code that tokens were issued for. -/
def redeemedCode : AuthRequest × AuthResponse → Option Text
  | (.token _ payload, .tokens ..) => some payload.code
  | _ => none

theorem nodup_filterMap_of_imp {α β γ : Type} {f : α → Option β} {g : α → Option γ} {h : β → γ}
    (imp : ∀ x b, f x = some b → g x = some (h b)) {l : List α} (nodup : (l.filterMap g).Nodup) :
    (l.filterMap f).Nodup := by
  induction l with
  | nil => exact List.nodup_nil
  | cons x l ih =>
    have tail : (l.filterMap g).Nodup :=
      nodup.sublist ((List.sublist_cons_self x l).filterMap g)
    rcases found : f x with - | b
    · rw [List.filterMap_cons_none found]
      exact ih tail
    · rw [List.filterMap_cons_some found]
      rw [List.filterMap_cons_some (imp x b found)] at nodup
      refine List.nodup_cons.mpr ⟨fun mem => (List.nodup_cons.mp nodup).1 ?_, ih tail⟩
      obtain ⟨y, hy, found'⟩ := List.mem_filterMap.mp mem
      exact List.mem_filterMap.mpr ⟨y, hy, imp y b found'⟩

section Runs

variable (lib : AuthLibrary) (settings : AuthSettings) (audience : Text)

abbrev AuthPool := TaskPool AuthWorld AuthOp AuthOp.Reply AuthFailure

abbrev AuthEvent := TaskEvent AuthChoice AuthMove AuthRequest

abbrev AuthEntry := TransactionMachine.Entry AuthPool AuthEvent (Option AuthOp)

/-- The service after any events, from empty stores. -/
def authRun (es : List AuthEvent) : AuthPool :=
  (authSystem lib settings audience).machine.run ⟨{}, []⟩ es

/-- The steps that took effect. -/
def authLog (es : List AuthEvent) : List AuthEntry :=
  (authSystem lib settings audience).machine.log ⟨{}, []⟩ es

end Runs

variable {lib : AuthLibrary} {settings : AuthSettings} {audience : Text} {es : List AuthEvent}
  {w v : AuthWorld} {i : ℕ} {op : AuthOp}

theorem authTracks_empty : (authTypestate lib settings).Tracks (AuthPost fun _ _ => True)
    (⟨{}, []⟩ : AuthPool) fun _ => .idle :=
  ⟨authConsistent_empty, fun _ _ h => by cases h⟩

theorem authRun_tracks : ∃ phase, (authTypestate lib settings).Tracks (AuthPost fun _ _ => True)
    (authRun lib settings audience es) phase :=
  authSystem_respects.run authTracks_empty es fun _ _ => trivial

theorem authRun_consistent : AuthConsistent lib settings
    (authRun lib settings audience es).tasks.length (authRun lib settings audience es).world :=
  authRun_tracks.choose_spec.world

theorem authLog_entry
    {e : AuthEntry} (he : e ∈ authLog lib settings audience es) :
    (∃ phase, (authTypestate lib settings).Tracks (AuthPost fun _ _ => True) e.before phase) ∧
      TaskSystem.Step (authSystem lib settings audience) e.before e.input e.after e.output :=
  authSystem_respects.entry authTracks_empty es (fun _ _ => trivial) he

theorem authenticatedNonce_grant {x : AuthRequest × AuthResponse} {n : Text}
    (h : authenticatedNonce lib x = some n) : grantOf lib x = some (.nonce n) := by
  unfold authenticatedNonce at h
  split at h
  · exact congrArg (Option.map Grant.nonce) h
  · exact congrArg (Option.map Grant.nonce) h
  · cases h

theorem redeemedCode_grant {x : AuthRequest × AuthResponse} {code : Text}
    (h : redeemedCode x = some code) : grantOf lib x = some (.code code) := by
  unfold redeemedCode at h
  split at h
  · exact congrArg (Option.map Grant.code) h
  · cases h

/-- What a step of a run is: an operation with its precondition, an entry that expires, or
nothing that the stores see. -/
inductive RunStep (lib : AuthLibrary) (settings : AuthSettings) (audience : Text)
    (e : AuthEntry) : Prop where
  | performed {op : AuthOp} {x : AuthPhase} {tasks i : ℕ} (output : e.output = some op)
      (consistent : AuthConsistent lib settings tasks e.before.world)
      (may : authMay lib settings x op) (known : authKnows lib settings i x e.before.world)
      (step : StoreStep audience i e.before.world e.after.world op)
  | moved {m : AuthMove} (input : e.input = .move m)
      (moved : authMove m e.before.world = some e.after.world)
  | idle (same : e.after.world = e.before.world)
  | restarted (same : e.after.world = { e.before.world with
      holding := fun _ => none, recalling := fun _ => none })

theorem authLog_step {e : AuthEntry} (he : e ∈ authLog lib settings audience es) :
    RunStep lib settings audience e := by
  obtain ⟨⟨phase, tracks⟩, step⟩ := authLog_entry he
  obtain ⟨before, input, output, after⟩ := e
  dsimp only at step tracks
  cases step with
  | @run i c op next r v task performed =>
    obtain ⟨⟨may, -⟩, known⟩ := tracks.tasks i _ task
    exact .performed rfl tracks.world may known (perform_storeStep performed)
  | move moved => exact .moved rfl moved
  | start started =>
    cases started
    exact .idle rfl
  | cancel => exact .idle rfl
  | restart => exact .restarted rfl

theorem emptyHanded_holds {x : AuthPhase} (known : authKnows lib settings i x w)
    (empty : x.emptyHanded = true) : w.holding i = none := by
  cases x <;> first | cases empty; done | exact known.1 nofun

/-- A request that was turned down has not consumed anything. -/
theorem rejected_holds_nothing {error : AuthError}
    (task : (authRun lib settings audience es).tasks[i]? = some (.done (.error (.answer error)))) :
    (authRun lib settings audience es).world.holding i = none := by
  obtain ⟨phase, tracks⟩ : ∃ phase, (authTypestate lib settings).Tracks (AuthPost fun _ _ => True)
      (authRun lib settings audience es) phase := authRun_tracks
  obtain ⟨empty, known⟩ := tracks.tasks i _ task
  exact emptyHanded_holds known empty

/-- How a nonce leaves the store. -/
theorem nonce_leaves {e : AuthEntry} (he : e ∈ authLog lib settings audience es) {n : Text}
    {a : Address} (before : (n, a) ∈ e.before.world.nonces.entries)
    (after : (n, a) ∉ e.after.world.nonces.entries) :
    e.input = .move (.expireNonce n) ∨ ∃ request b, e.output = some (.popNonce n request b) ∧
      Authenticates lib settings request n b := by
  cases authLog_step he with
  | performed output consistent may known step =>
    generalize e.after.world = v at step after
    cases step with
    | same same => exact absurd (same.nonces ▸ before) after
    | storeNonce => exact absurd (List.mem_cons_of_mem _ before) after
    | popNonce found =>
      obtain rfl : n = _ := OneTimeStore.eq_of_taken before after
      exact .inr ⟨_, _, output, may.2⟩
    | _ => exact absurd before after
  | @moved m input moved =>
    generalize e.after.world = v at moved after
    cases m with
    | expireNonce =>
      cases moved
      obtain rfl : n = _ := OneTimeStore.eq_of_dropped before after
      exact .inl input
    | _ =>
      cases moved
      exact absurd before after
  | idle same | restarted same =>
    rw [same] at after
    exact absurd before after

/-- How a code leaves the store. -/
theorem code_leaves {e : AuthEntry} (he : e ∈ authLog lib settings audience es) {code : Text}
    {record : AuthCodeRecord} (before : (code, record) ∈ e.before.world.codes.entries)
    (after : (code, record) ∉ e.after.world.codes.entries) :
    e.input = .move (.expireCode code) ∨ ∃ origin payload,
      e.output = some (.consumeCode code (.token origin payload)) ∧ payload.code = code ∧
      Redeems lib payload record := by
  cases authLog_step he with
  | performed output consistent may known step =>
    generalize e.after.world = v at step after
    cases step with
    | same same => exact absurd (same.codes ▸ before) after
    | createCode => exact absurd (List.mem_cons_of_mem _ before) after
    | consumeCode found =>
      obtain rfl : code = _ := OneTimeStore.eq_of_taken before after
      obtain ⟨record', origin, payload, rfl, rfl, same, redeems⟩ := may
      obtain rfl : record' = record := consistent.codes.value_unique known.2
        (consistent.codes.entries_issued before)
      exact .inr ⟨origin, payload, output, same, redeems⟩
    | _ => exact absurd before after
  | @moved m input moved =>
    generalize e.after.world = v at moved after
    cases m with
    | expireCode =>
      cases moved
      obtain rfl : code = _ := OneTimeStore.eq_of_dropped before after
      exact .inl input
    | _ =>
      cases moved
      exact absurd before after
  | idle same | restarted same =>
    rw [same] at after
    exact absurd before after

/-- Who was authenticated with the nonce of an answer. -/
theorem authenticates_of_answered {tasks : ℕ} (h : AuthConsistent lib settings tasks w)
    {x : AuthRequest × AuthResponse} (hx : x ∈ w.responses) {n : Text}
    (hn : authenticatedNonce lib x = some n) :
    ∃ a, Authenticates lib settings x.1 n a ∧ (n, a) ∈ w.authentications := by
  obtain ⟨request, response⟩ := x
  cases h.justified _ hx with
  | login passes authenticated =>
    obtain rfl := Option.some_inj.mp (hn.symm.trans (parseSiwe_of_authenticates passes rfl))
    exact ⟨_, passes, authenticated⟩
  | code passes authenticated =>
    obtain rfl := Option.some_inj.mp (hn.symm.trans (parseSiwe_of_authenticates passes rfl))
    exact ⟨_, passes, authenticated⟩
  | _ => cases hn

/-- A nonce authenticates at most once, whatever route it is used on, and only a message that
passes every check; a nonce that is in the store can be used. -/
theorem siwe_nonces_single_use (lib : AuthLibrary) (settings : AuthSettings) (audience : Text)
    (es : List AuthEvent) :
    let s := authRun lib settings audience es
    (s.world.responses.filterMap (authenticatedNonce lib)).Nodup ∧
    (s.world.authentications.map Prod.fst).Nodup ∧
    (∀ x ∈ s.world.responses, ∀ n, authenticatedNonce lib x = some n →
      (∃ a, Authenticates lib settings x.1 n a) ∧ n ∈ s.world.nonces.issued.map Prod.fst) ∧
    (∀ e ∈ authLog lib settings audience es, ∀ n a, (n, a) ∈ e.before.world.nonces.entries →
      (n, a) ∉ e.after.world.nonces.entries → e.input = .move (.expireNonce n) ∨
        ∃ request b, e.output = some (.popNonce n request b) ∧
          Authenticates lib settings request n b) ∧
    (∀ i error, s.tasks[i]? = some (.done (.error (.answer error))) →
      s.world.holding i = none) ∧
    ∀ n a, (n, a) ∈ s.world.nonces.entries → ∀ i choose request siweMessage signature claim,
      Serves lib audience i choose → claim.message.nonce = n →
      (∀ t, (choose .now s.world).outcome = .time t →
        Passes lib settings siweMessage signature claim t t) →
      (authenticateSiweMessage lib settings request siweMessage signature).Succeeds
        (servePerform lib audience i choose) s.world
        fun result _ => result.address = claim.address := by
  intro s
  have consistent : AuthConsistent lib settings s.tasks.length s.world := authRun_consistent
  refine ⟨?_, consistent.authenticatedOnce, fun x hx n hn => ?_, fun e he n a => nonce_leaves he,
    fun i error => rejected_holds_nothing, ?_⟩
  · exact nodup_filterMap_of_imp (fun x n => authenticatedNonce_grant)
      consistent.custody.answeredOnce
  · obtain ⟨a, passes, authenticated⟩ := authenticates_of_answered consistent hx hn
    exact ⟨⟨a, passes⟩,
      List.map_subset _ consistent.nonces.taken_issued (consistent.authenticated authenticated)⟩
  · rintro n a present i choose request m sig claim serves rfl passes
    exact serves.authenticate passes (consistent.nonces.find_of_mem present)

/-- A code yields tokens at most once, to a request that presents what was stored with it and
for the address that authenticated for it; a code that is in the store can be redeemed. -/
theorem authorization_codes_single_use (lib : AuthLibrary) (settings : AuthSettings)
    (audience : Text) (es : List AuthEvent) :
    let s := authRun lib settings audience es
    (s.world.responses.filterMap redeemedCode).Nodup ∧
    (∀ origin payload response, (AuthRequest.token origin payload, response) ∈ s.world.responses →
      ∃ record n access idToken refresh, (payload.code, record) ∈ s.world.codes.issued ∧
        Redeems lib payload record ∧
        response = .tokens access idToken refresh record.userAddress ∧
        access.sub = record.userAddress ∧ idToken.sub = record.userAddress ∧
        refresh.sub = record.userAddress ∧ (payload.code, n) ∈ s.world.minted ∧
        ∀ m, (payload.code, m) ∈ s.world.minted → m = n ∧
          ∀ a, (m, a) ∈ s.world.authentications ↔ a = record.userAddress) ∧
    (∀ e ∈ authLog lib settings audience es, ∀ code record,
      (code, record) ∈ e.before.world.codes.entries →
      (code, record) ∉ e.after.world.codes.entries → e.input = .move (.expireCode code) ∨
        ∃ origin payload, e.output = some (.consumeCode code (.token origin payload)) ∧
          payload.code = code ∧ Redeems lib payload record) ∧
    (∀ i error, s.tasks[i]? = some (.done (.error (.answer error))) →
      s.world.holding i = none) ∧
    ∀ code record, (code, record) ∈ s.world.codes.entries →
      ∀ i choose client origin expectedOrigin payload, Serves lib audience i choose →
      payload.code = code → Redeems lib payload record →
      getClient settings payload.clientId = some client →
      payload.grantType = text "authorization_code" →
      validateRedirectUri lib settings payload.clientId payload.redirectUri = true →
      redirectOrigin lib.toUrlLibrary record.redirectUri = some expectedOrigin →
      (∀ o, origin = some o → o = expectedOrigin) →
      (∀ c ∈ payload.codeVerifier, c.toNat < 128) →
      (exchangeCode lib settings audience origin payload).Succeeds
        (servePerform lib audience i choose) s.world fun response _ =>
          ∃ access idToken refresh,
            response = .tokens access idToken refresh record.userAddress ∧
            access.sub = record.userAddress ∧ idToken.sub = record.userAddress ∧
            refresh.sub = record.userAddress := by
  intro s
  have consistent : AuthConsistent lib settings s.tasks.length s.world := authRun_consistent
  refine ⟨?_, fun origin payload response hx => ?_, fun e he code record => code_leaves he,
    fun i error => rejected_holds_nothing, ?_⟩
  · exact nodup_filterMap_of_imp (fun x code => redeemedCode_grant)
      consistent.custody.answeredOnce
  · cases consistent.justified _ hx with
    | @tokens _ _ record access idToken refresh issued redeems accessSub idSub refreshSub =>
      obtain ⟨n, minted, authenticated⟩ := consistent.minted issued
      refine ⟨record, n, access, idToken, refresh, issued, redeems, rfl, accessSub, idSub,
        refreshSub, minted, fun m hm => ?_⟩
      obtain rfl : m = n :=
        (Prod.mk.inj (List.inj_on_of_nodup_map consistent.mintedOnce hm minted rfl)).2
      refine ⟨rfl, fun a => ⟨fun ha => ?_, fun same => same ▸ authenticated⟩⟩
      exact (Prod.mk.inj
        (List.inj_on_of_nodup_map consistent.authenticatedOnce ha authenticated rfl)).2
  · rintro code record present i choose client origin expectedOrigin payload serves rfl redeems
      registered grant redirect expected sameOrigin ascii
    exact serves.exchangeCode registered grant redirect expected sameOrigin
      (consistent.codes.find_of_mem present) redeems ascii

end Privana
