import Privana.AuthPhases

/-! What every operation keeps of the stores, of the answers and of what other requests
know. -/

namespace Privana
open BigEndian

variable {lib : AuthLibrary} {settings : AuthSettings} {audience : Text} {w v : AuthWorld}
  {tasks i : ℕ} {x : AuthPhase}

/-- What a step never takes back. -/
structure AuthWorld.Grows (w v : AuthWorld) : Prop where
  codes : w.codes.issued ⊆ v.codes.issued
  refresh : w.refresh.issued ⊆ v.refresh.issued
  signed : w.signed ⊆ v.signed
  authentications : w.authentications ⊆ v.authentications
  minted : w.minted ⊆ v.minted

theorem AuthWorld.Grows.same (codes : v.codes.issued = w.codes.issued)
    (refresh : v.refresh.issued = w.refresh.issued) (signed : v.signed = w.signed)
    (authentications : v.authentications = w.authentications) (minted : v.minted = w.minted) :
    w.Grows v :=
  ⟨codes ▸ List.Subset.refl _, refresh ▸ List.Subset.refl _, signed ▸ List.Subset.refl _,
    authentications ▸ List.Subset.refl _, minted ▸ List.Subset.refl _⟩

theorem Justified.later {request : AuthRequest} {response : AuthResponse} (g : w.Grows v)
    (h : Justified lib settings w request response) :
    Justified lib settings v request response := by
  cases h with
  | nonce => exact .nonce
  | login passes authenticated accessSub refreshSub =>
    exact .login passes (g.authentications authenticated) accessSub refreshSub
  | code passes authenticated issued minted =>
    exact .code passes (g.authentications authenticated) (g.codes issued) (g.minted minted)
  | tokens issued redeems accessSub idSub refreshSub =>
    exact .tokens (g.codes issued) redeems accessSub idSub refreshSub
  | refreshed decoded key issued accessSub refreshSub =>
    exact .refreshed decoded key (g.refresh issued) accessSub refreshSub
  | loggedOut => exact .loggedOut

theorem AuthPhase.facts_later (g : w.Grows v) (h : x.facts lib settings w) :
    x.facts lib settings v := by
  cases x with
  | idle => trivial
  | ended => trivial
  | found => exact g.codes h
  | bearer => exact h.imp_right (@g.signed _)
  | presented => exact h.imp_right (@g.signed _)
  | seen => exact h.imp_right (@g.refresh _)
  | authenticated => exact h.imp_right (@g.authentications _)
  | minted => exact ⟨h.1, g.authentications h.2.1, g.codes h.2.2.1, g.minted h.2.2.2⟩
  | redeemed => exact h.imp_left (@g.codes _)
  | rotating => exact ⟨h.1, h.2.1, h.2.2.1, g.refresh h.2.2.2⟩

/-- What a step of task `i` brings about. -/
structure AuthAdvance (lib : AuthLibrary) (settings : AuthSettings) (tasks i : ℕ)
    (w v : AuthWorld) (x : AuthPhase) : Prop where
  consistent : AuthConsistent lib settings tasks v
  grows : w.Grows v
  others : ∀ j, j ≠ i → v.holding j = w.holding j
  knows : authKnows lib settings i x v

theorem AuthAdvance.others_know (h : AuthAdvance lib settings tasks i w v x) {j : ℕ}
    {y : AuthPhase} (ne : j ≠ i) (known : authKnows lib settings j y w) :
    authKnows lib settings j y v :=
  ⟨fun open_ => (h.others j ne).trans (known.1 open_), y.facts_later h.grows known.2⟩

/-- A task that has ended need not know anything. -/
theorem AuthAdvance.give_up (h : AuthAdvance lib settings tasks i w v x) :
    AuthAdvance lib settings tasks i w v .ended :=
  { h with knows := ⟨fun ne => absurd rfl ne, trivial⟩ }

theorem AuthWorld.taken_mono (nonces : w.nonces.taken ⊆ v.nonces.taken)
    (codes : w.codes.taken ⊆ v.codes.taken) (refresh : w.refresh.taken ⊆ v.refresh.taken) :
    ∀ g, w.Taken g → v.Taken g
  | .nonce _, h => List.map_subset _ nonces h
  | .code _, h => List.map_subset _ codes h
  | .refresh _, h => List.map_subset _ refresh h

/-- Stores that lose and gain entries, with the same codes issued and nothing answered. -/
theorem AuthConsistent.restock (h : AuthConsistent lib settings tasks w)
    {nonces : OneTimeStore Text Address} {codes : OneTimeStore Text AuthCodeRecord}
    {refresh : OneTimeStore Text Address} (hn : nonces.Sound) (hc : codes.Sound)
    (hr : refresh.Sound) (gn : w.nonces.Grows nonces) (gc : w.codes.Grows codes)
    (gr : w.refresh.Grows refresh) (same : codes.issued = w.codes.issued)
    (clientNonces : Address → Option Text) (recalling : ℕ → Option Recall) :
    AuthConsistent lib settings tasks { w with
      nonces := nonces, codes := codes, refresh := refresh, clientNonces := clientNonces
      recalling := recalling } where
  nonces := hn
  codes := hc
  refresh := hr
  signed hm hj := gr.issued (h.signed hm hj)
  authenticated hm := List.map_subset _ gn.taken (h.authenticated hm)
  authenticatedOnce := h.authenticatedOnce
  minted hm := h.minted (same ▸ hm)
  minted_issued := fun _ hm => List.map_subset _ gc.issued (h.minted_issued hm)
  mintedOnce := h.mintedOnce
  rotated hm := (h.rotated hm).imp fun _ => And.imp (@gr.issued _) (@gr.issued _)
  custody := h.custody.mono (AuthWorld.taken_mono gn.taken gc.taken gr.taken)
  justified y hy := (h.justified y hy).later ⟨gc.issued, gr.issued, List.Subset.refl _, List.Subset.refl _, List.Subset.refl _⟩

theorem parseSiwe_of_read {siweMessageText : Text} {claim : SiweClaim}
    (h : readSiweMessage lib settings siweMessageText = .ok claim) :
    lib.parseSiwe siweMessageText = some claim.message := by
  unfold readSiweMessage at h
  split at h
  · cases h
  split at h
  · cases h
  · next message parsed =>
    split at h
    · cases h
    split at h
    · cases h
    split at h
    · cases h
    · cases h
      exact parsed

theorem parseSiwe_of_authenticates {request : AuthRequest} {n siweMessage signature : Text}
    {a : Address} (h : Authenticates lib settings request n a)
    (siwe : siweOf request = some (siweMessage, signature)) :
    (lib.parseSiwe siweMessage).map SiweMessage.nonce = some n := by
  obtain ⟨m, s, claim, t, t', siwe', passes, rfl, rfl⟩ := h
  obtain ⟨rfl, rfl⟩ := Prod.mk.inj (Option.some_inj.mp (siwe.symm.trans siwe'))
  rw [parseSiwe_of_read passes.read, Option.map_some]

section Answers

variable {request : AuthRequest} {response : AuthResponse}

theorem AuthPhase.Answers.justified (answers : x.Answers request response)
    (facts : x.facts lib settings w) : Justified lib settings w request response := by
  cases answers with
  | nonce => exact .nonce
  | login accessSub refreshSub => exact .login facts.1 facts.2 accessSub refreshSub
  | code => exact .code facts.1 facts.2.1 facts.2.2.1 facts.2.2.2
  | tokens accessSub idSub refreshSub =>
    obtain ⟨issued, origin', payload', same, -, redeems⟩ := facts
    cases same
    exact .tokens issued redeems accessSub idSub refreshSub
  | refreshed accessSub refreshSub =>
    obtain ⟨⟨token', same, decoded⟩, key, rfl, issued⟩ := facts
    cases same
    exact .refreshed decoded key issued accessSub refreshSub
  | loggedOut => exact .loggedOut

theorem AuthPhase.Answers.grant (answers : x.Answers request response)
    (facts : x.facts lib settings w) {g : Grant} (granted : grantOf lib (request, response) = some g) :
    x ≠ .ended ∧ x.grant = some g := by
  cases answers with
  | nonce => cases granted
  | loggedOut => cases granted
  | login =>
    simp only [grantOf, parseSiwe_of_authenticates facts.1 rfl] at granted
    exact ⟨nofun, granted⟩
  | code =>
    simp only [grantOf, parseSiwe_of_authenticates facts.1 rfl] at granted
    exact ⟨nofun, granted⟩
  | tokens => exact ⟨nofun, granted⟩
  | refreshed =>
    obtain ⟨⟨token', same, decoded⟩, key, -⟩ := facts
    cases same
    simp only [grantOf, decoded, Option.bind_some, key] at granted
    exact ⟨nofun, granted⟩

end Answers

section Steps

variable (h : AuthConsistent lib settings tasks w) (known : authKnows lib settings i x w)
include h known

theorem advance_same : AuthAdvance lib settings tasks i w w x :=
  ⟨h, .same rfl rfl rfl rfl rfl, fun _ _ => rfl, known⟩

theorem advance_nonces {nonces : OneTimeStore Text Address} (sound : nonces.Sound)
    (grows : w.nonces.Grows nonces) (clientNonces : Address → Option Text) :
    AuthAdvance lib settings tasks i w { w with nonces := nonces, clientNonces := clientNonces }
      x :=
  ⟨h.restock sound h.codes h.refresh grows (.refl _) (.refl _) rfl clientNonces w.recalling, .same rfl rfl rfl rfl rfl,
    fun _ _ => rfl, known⟩

theorem advance_drop (jti : Text) :
    AuthAdvance lib settings tasks i w { w with refresh := w.refresh.drop jti } x :=
  ⟨h.restock h.nonces h.codes h.refresh.drop (.refl _) (.refl _) OneTimeStore.grows_drop rfl
    w.clientNonces w.recalling, .same rfl rfl rfl rfl rfl, fun _ _ => rfl, known⟩

theorem advance_recall (user : Address) :
    AuthAdvance lib settings tasks i w (w.startRecall i user) x :=
  ⟨h.restock h.nonces h.codes h.refresh (.refl _) (.refl _) (.refl _) rfl w.clientNonces _, .same rfl rfl rfl rfl rfl,
    fun _ _ => rfl, known⟩

omit known in
theorem advance_popNonce {n : Text} {a b : Address} {request : AuthRequest} (hi : i < tasks)
    (found : w.nonces.find n = some b) (passes : Authenticates lib settings request n a) :
    AuthAdvance lib settings tasks i w (w.popNonce i n a) (.authenticated request n a) := by
  have same : w.popNonce i n a = { w with
      nonces := w.nonces.take n
      authentications := (n, a) :: w.authentications
      holding := Function.update w.holding i (some (.nonce n)) } := by
    rw [AuthWorld.popNonce, found]
  have untaken := h.nonces.untaken_of_find found
  have taken := OneTimeStore.mem_taken_of_find found
  have grows := OneTimeStore.grows_take (s := w.nonces) (k := n)
  have stock := h.restock h.nonces.take h.codes h.refresh grows (.refl _) (.refl _) rfl
    w.clientNonces w.recalling
  have more : w.Grows (w.popNonce i n a) := same ▸
    ⟨List.Subset.refl _, List.Subset.refl _, List.Subset.refl _, List.subset_cons_self _ _,
      List.Subset.refl _⟩
  have mono : ∀ g, w.Taken g → (w.popNonce i n a).Taken g := same ▸
    AuthWorld.taken_mono grows.taken (List.Subset.refl _) (List.Subset.refl _)
  rw [same] at more mono ⊢
  refine ⟨{ stock with
      authenticated := fun {n' a'} mem => ?_
      authenticatedOnce := List.nodup_cons.mpr ⟨fun mem => ?_, h.authenticatedOnce⟩
      minted := fun hm => (h.minted hm).imp fun _ => And.imp_right (List.mem_cons_of_mem _)
      custody := h.custody.seize mono untaken taken hi
      justified := fun y hy => (h.justified y hy).later more }, more,
    fun j ne => Function.update_of_ne ne _ _, fun _ => Function.update_self _ _ _, passes,
    List.mem_cons_self⟩
  · rcases List.mem_cons.mp mem with same | mem
    · rw [(Prod.mk.inj same).1]
      exact taken
    · exact List.map_subset _ grows.taken (h.authenticated mem)
  · obtain ⟨⟨n', a'⟩, mem, same⟩ := List.mem_map.mp mem
    have same : n' = n := same
    exact untaken (h.authenticated (same ▸ mem))

omit known in
theorem advance_consumeCode {code : Text} {record record' : AuthCodeRecord}
    {request : AuthRequest} (hi : i < tasks) (found : w.codes.find code = some record')
    (facts : (AuthPhase.redeemed request code record).facts lib settings w) :
    AuthAdvance lib settings tasks i w (w.consumeCode i code) (.redeemed request code record) := by
  have same : w.consumeCode i code = { w with
      codes := w.codes.take code
      holding := Function.update w.holding i (some (.code code)) } := by
    rw [AuthWorld.consumeCode, found]
  have grows := OneTimeStore.grows_take (s := w.codes) (k := code)
  have issued : (w.codes.take code).issued = w.codes.issued := by
    rw [OneTimeStore.take_of_find found]
  have stock := h.restock h.nonces h.codes.take h.refresh (.refl _) grows (.refl _) issued
    w.clientNonces w.recalling
  have more : w.Grows (w.consumeCode i code) := same ▸
    ⟨grows.issued, List.Subset.refl _, List.Subset.refl _, List.Subset.refl _, List.Subset.refl _⟩
  have mono : ∀ g, w.Taken g → (w.consumeCode i code).Taken g := same ▸
    AuthWorld.taken_mono (List.Subset.refl _) grows.taken (List.Subset.refl _)
  rw [same] at more mono ⊢
  exact ⟨{ stock with
      custody := h.custody.seize mono (h.codes.untaken_of_find found)
        (OneTimeStore.mem_taken_of_find found) hi
      justified := fun y hy => (h.justified y hy).later more }, more,
    fun j ne => Function.update_of_ne ne _ _, fun _ => Function.update_self _ _ _,
    AuthPhase.facts_later more facts⟩

omit known in
theorem advance_consumeRefreshToken {jti : Text} {claims : Claims} {owner : Address}
    {request : AuthRequest} (hi : i < tasks) (found : w.refresh.find jti = some owner)
    (facts : (AuthPhase.rotating request claims jti owner).facts lib settings w) :
    AuthAdvance lib settings tasks i w (w.consumeRefreshToken i jti)
      (.rotating request claims jti owner) := by
  have same : w.consumeRefreshToken i jti = { w with
      refresh := w.refresh.take jti
      holding := Function.update w.holding i (some (.refresh jti)) } := by
    rw [AuthWorld.consumeRefreshToken, found]
  have grows := OneTimeStore.grows_take (s := w.refresh) (k := jti)
  have stock := h.restock h.nonces h.codes h.refresh.take (.refl _) (.refl _) grows rfl
    w.clientNonces w.recalling
  have more : w.Grows (w.consumeRefreshToken i jti) := same ▸
    ⟨List.Subset.refl _, grows.issued, List.Subset.refl _, List.Subset.refl _, List.Subset.refl _⟩
  have mono : ∀ g, w.Taken g → (w.consumeRefreshToken i jti).Taken g := same ▸
    AuthWorld.taken_mono (List.Subset.refl _) (List.Subset.refl _) grows.taken
  rw [same] at more mono ⊢
  exact ⟨{ stock with
      custody := h.custody.seize mono (h.refresh.untaken_of_find found)
        (OneTimeStore.mem_taken_of_find found) hi
      justified := fun y hy => (h.justified y hy).later more }, more,
    fun j ne => Function.update_of_ne ne _ _, fun _ => Function.update_self _ _ _,
    AuthPhase.facts_later more facts⟩

theorem advance_signJwt {claims : Claims} (anonymous : claims.jti = none) :
    AuthAdvance lib settings tasks i w { w with signed := claims :: w.signed } x := by
  have more : w.Grows { w with signed := claims :: w.signed } :=
    ⟨List.Subset.refl _, List.Subset.refl _, List.subset_cons_self _ _, List.Subset.refl _,
      List.Subset.refl _⟩
  refine ⟨{ h with
      signed := fun {c jti} hm hj => ?_
      justified := fun y hy => (h.justified y hy).later more }, more, fun _ _ => rfl, known.1,
    AuthPhase.facts_later more known.2⟩
  rcases List.mem_cons.mp hm with rfl | hm
  · rw [anonymous] at hj
    cases hj
  · exact h.signed hm hj

theorem advance_createCode {code : Text} {record : AuthCodeRecord}
    (fresh : code ∉ w.codes.issued.map Prod.fst) {request : AuthRequest} {n : Text}
    (phase : x = .authenticated request n record.userAddress) :
    AuthAdvance lib settings tasks i w (w.createCode i code record)
      (.minted request n code record) := by
  subst phase
  have holds : w.holding i = some (.nonce n) := known.1 (by simp)
  obtain ⟨passes, authenticated⟩ := known.2
  have same : w.createCode i code record = { w with
      codes := w.codes.put code record
      minted := (code, n) :: w.minted } := by
    rw [AuthWorld.createCode, holds]
  have more : w.Grows (w.createCode i code record) := same ▸
    ⟨List.subset_cons_self _ _, List.Subset.refl _, List.Subset.refl _, List.Subset.refl _,
      List.subset_cons_self _ _⟩
  rw [same] at more ⊢
  refine ⟨{ h with
      codes := h.codes.put fresh
      minted := fun {code' record'} mem => ?_
      minted_issued := List.cons_subset_cons _ h.minted_issued
      mintedOnce := List.nodup_cons.mpr ⟨fun mem => fresh (h.minted_issued mem), h.mintedOnce⟩
      custody := h.custody.mono (AuthWorld.taken_mono (List.Subset.refl _) (List.Subset.refl _)
        (List.Subset.refl _))
      justified := fun y hy => (h.justified y hy).later more }, more, fun _ _ => rfl,
    fun _ => holds, passes, authenticated, List.mem_cons_self, List.mem_cons_self⟩
  rcases List.mem_cons.mp mem with same | mem
  · obtain ⟨rfl, rfl⟩ := Prod.mk.inj same
    exact ⟨n, List.mem_cons_self, authenticated⟩
  · exact (h.minted mem).imp fun _ => And.imp_left (List.mem_cons_of_mem _)

theorem advance_createRefreshToken {jti : Text} {a : Address} {parent : Option Text}
    (fresh : jti ∉ w.refresh.issued.map Prod.fst)
    (owned : ∀ p, parent = some p → (p, a) ∈ w.refresh.issued) :
    AuthAdvance lib settings tasks i w
      (w.createRefreshToken jti (refreshClaims audience a jti) a parent) x := by
  have more : w.Grows (w.createRefreshToken jti (refreshClaims audience a jti) a parent) :=
    ⟨List.Subset.refl _, List.subset_cons_self _ _, List.subset_cons_self _ _, List.Subset.refl _,
      List.Subset.refl _⟩
  refine ⟨{ h with
      refresh := h.refresh.put fresh
      signed := fun {c jti'} hm hj => ?_
      rotated := fun {child p} hm => ?_
      custody := h.custody.mono (AuthWorld.taken_mono (List.Subset.refl _) (List.Subset.refl _)
        (List.Subset.refl _))
      justified := fun y hy => (h.justified y hy).later more }, more, fun _ _ => rfl, known.1,
    AuthPhase.facts_later more known.2⟩
  · rcases List.mem_cons.mp hm with rfl | hm
    · obtain rfl := Option.some_inj.mp hj
      exact List.mem_cons_self
    · exact List.mem_cons_of_mem _ (h.signed hm hj)
  · have older (hm : (child, p) ∈ w.rotations) :
        ∃ b, (child, b) ∈ (w.refresh.put jti a).issued ∧ (p, b) ∈ (w.refresh.put jti a).issued :=
      (h.rotated hm).imp fun _ => And.imp (List.mem_cons_of_mem _) (List.mem_cons_of_mem _)
    cases parent with
    | none => exact older hm
    | some q =>
      rcases List.mem_cons.mp hm with same | hm
      · obtain ⟨rfl, rfl⟩ := Prod.mk.inj same
        exact ⟨a, List.mem_cons_self, List.mem_cons_of_mem _ (owned _ rfl)⟩
      · exact older hm

theorem advance_respond {request : AuthRequest} {response : AuthResponse}
    (answers : x.Answers request response) :
    AuthAdvance lib settings tasks i w (w.respond i request response) .ended := by
  have more : w.Grows (w.respond i request response) := .same rfl rfl rfl rfl rfl
  have justified := answers.justified known.2
  have custody : Custody w.Taken (Function.update w.holding i none)
      (((request, response) :: w.responses).filterMap (grantOf lib)) tasks := by
    rcases granted : grantOf lib (request, response) with - | g
    · rw [List.filterMap_cons_none granted]
      exact h.custody.release
    · rw [List.filterMap_cons_some granted]
      obtain ⟨open_, granted⟩ := answers.grant known.2 granted
      exact h.custody.answer ((known.1 open_).trans granted)
  refine ⟨{ h with
      custody := custody
      justified := fun y hy => ?_ }, more, fun j ne => Function.update_of_ne ne _ _,
    fun ne => absurd rfl ne, trivial⟩
  rcases List.mem_cons.mp hy with rfl | hy
  · exact justified.later more
  · exact (h.justified y hy).later more

end Steps

theorem AuthAdvance.learn {y : AuthPhase} (h : AuthAdvance lib settings tasks i w v x)
    (grant : x ≠ .ended → y.grant = x.grant) (same : x = .ended → y = .ended)
    (facts : y.facts lib settings v) : AuthAdvance lib settings tasks i w v y :=
  { h with knows := ⟨fun open_ => by
      have hx : x ≠ .ended := fun e => open_ (same e)
      rw [h.knows.1 hx, grant hx], facts⟩ }

theorem AuthPhase.after_error (op : AuthOp) (e : AuthFailure) :
    x.after op (.error e) = if op.reads then x else .ended := by
  cases op <;> rfl

theorem authReply_unhandled (op : AuthOp) : authReply lib op (.error .unhandled) := by
  cases op <;> exact nofun

/-- An operation that fails has not changed anything, or the task gives up. -/
theorem AuthAdvance.fail (op : AuthOp) (e : AuthFailure)
    (h : AuthAdvance lib settings tasks i w v (if op.reads then x else .ended)) :
    AuthAdvance lib settings tasks i w v (x.after op (.error e)) :=
  AuthPhase.after_error op e ▸ h

theorem effect_reply {op : AuthOp} {c : AuthOutcome} {r : Except AuthFailure op.Reply}
    (effect : authEffect lib audience i op c w = some (r, v)) : authReply lib op r := by
  unfold authEffect at effect
  split at effect
  case h_5 | h_10 =>
    split at effect <;> cases effect
    trivial
  case h_14 a parent jti =>
    split at effect <;> cases effect
    exact rfl
  case h_15 token =>
    split at effect
    · next claims decoded =>
      split at effect <;> cases effect
      exact decoded
    · cases effect
  case h_16 =>
    cases effect
    exact nofun
  case h_24 =>
    cases effect
    exact authReply_unhandled op
  all_goals
    cases effect
    try trivial

theorem perform_reply {op : AuthOp} {c : AuthChoice} {r : Except AuthFailure op.Reply}
    (performed : authPerform lib audience i op c w = some (r, v)) : authReply lib op r := by
  obtain ⟨⟨r', v'⟩, effect, same⟩ := Option.map_eq_some_iff.mp performed
  obtain ⟨rfl, rfl⟩ := Prod.mk.inj same
  split
  · exact authReply_unhandled op
  · exact effect_reply effect

/-- What an operation with its precondition does. -/
theorem effect_advances (h : AuthConsistent lib settings tasks w) (hi : i < tasks)
    (known : authKnows lib settings i x w) {op : AuthOp} (may : authMay lib settings x op)
    {c : AuthOutcome} {r : Except AuthFailure op.Reply}
    (effect : authEffect lib audience i op c w = some (r, v)) :
    AuthAdvance lib settings tasks i w v (x.after op r) := by
  have same := advance_same h known
  unfold authEffect at effect
  split at effect
  case h_1 | h_2 | h_3 | h_4 | h_9 | h_18 =>
    cases effect
    exact same
  · next client n =>
    split at effect
    · cases effect
    · next fresh =>
      cases effect
      exact advance_nonces h known (h.nonces.put fresh) OneTimeStore.grows_put _
  · cases effect
    exact advance_nonces h known h.nonces (.refl _) _
  · next n request a =>
    cases effect
    rcases found : w.nonces.find n with - | b
    · rw [AuthWorld.popNonce, found]
      exact same
    · exact advance_popNonce h hi found may.2
  · cases effect
    exact advance_nonces h known h.nonces (.refl _) _
  · next record code =>
    split at effect
    · cases effect
    · next fresh =>
      cases effect
      obtain ⟨request, n, rfl⟩ := may
      exact advance_createCode h known fresh rfl
  · next code =>
    cases effect
    rcases found : w.codes.find code with - | record
    · exact same
    · have issued := h.codes.entries_issued (OneTimeStore.mem_of_find found)
      refine same.learn ?_ ?_ ?_ <;> cases x <;>
        first
          | exact fun _ => rfl
          | exact issued
          | exact known.2
          | nofun
  · next code request =>
    cases effect
    obtain ⟨record, origin, payload, rfl, rfl, rfl, redeems⟩ := may
    rcases found : w.codes.find payload.code with - | record'
    · rw [AuthWorld.consumeCode, found]
      exact same
    · exact advance_consumeCode h hi found ⟨known.2, origin, payload, rfl, rfl, redeems⟩
  · cases effect
    exact advance_signJwt h known may
  · next a parent jti =>
    split at effect
    · cases effect
    · next fresh =>
      cases effect
      refine advance_createRefreshToken h known fresh fun p hp => ?_
      obtain ⟨request, claims, rfl⟩ := may p hp
      exact known.2.2.2.2
  · next token =>
    split at effect
    · next claims decoded =>
      split at effect
      · next signed =>
        cases effect
        refine same.learn ?_ ?_ ?_ <;> cases x <;>
          first
            | exact fun _ => rfl
            | exact ⟨decoded, signed⟩
            | exact ⟨known.2.1, signed⟩
            | exact known.2
            | nofun
      · cases effect
    · cases effect
  · cases effect
    exact same
  · next jti request =>
    cases effect
    obtain ⟨token, claims, rfl, rfl, key⟩ := may
    rcases found : w.refresh.find jti with - | a
    · rw [AuthWorld.consumeRefreshToken, found]
      exact same
    · have issued := h.refresh.entries_issued (OneTimeStore.mem_of_find found)
      exact advance_consumeRefreshToken h hi found ⟨⟨token, rfl, known.2.1⟩, key,
        h.refresh.value_unique (h.signed known.2.2 key) issued, issued⟩
  · next jti request =>
    cases effect
    split
    · exact advance_drop h known jti
    · exact same
  · cases effect
    exact advance_recall h known _
  · next jti =>
    cases effect
    rcases found : w.refresh.find jti with - | owner
    · exact same
    · have issued := h.refresh.entries_issued (OneTimeStore.mem_of_find found)
      refine same.learn ?_ ?_ ?_ <;> cases x <;>
        first
          | exact fun _ => rfl
          | exact ⟨known.2.1, issued⟩
          | exact known.2
          | nofun
  · cases effect
    exact advance_respond h known may
  · cases effect
  · cases effect
    refine .fail op _ ?_
    split
    · exact same
    · exact same.give_up
  · cases effect

theorem authEffect_reads {op : AuthOp} {c : AuthOutcome} {r : Except AuthFailure op.Reply}
    (reads : op.reads = true) (effect : authEffect lib audience i op c w = some (r, v)) :
    v = w := by
  unfold authEffect at effect
  split at effect
  all_goals try (cases reads; done)
  all_goals try (cases effect; rfl)
  · split at effect
    · split at effect
      · cases effect
        rfl
      · cases effect
    · cases effect
  · cases effect

theorem perform_advances (h : AuthConsistent lib settings tasks w) (hi : i < tasks)
    (known : authKnows lib settings i x w) {op : AuthOp} (may : authMay lib settings x op)
    {c : AuthChoice} {r : Except AuthFailure op.Reply}
    (performed : authPerform lib audience i op c w = some (r, v)) :
    AuthAdvance lib settings tasks i w v (x.after op r) := by
  obtain ⟨⟨r', v'⟩, effect, same⟩ := Option.map_eq_some_iff.mp performed
  obtain ⟨rfl, rfl⟩ := Prod.mk.inj same
  have advance := effect_advances h hi known may effect
  split
  · refine .fail op _ ?_
    split
    · next reads =>
      obtain rfl := authEffect_reads reads effect
      exact advance_same h known
    · exact advance.give_up
  · exact advance

theorem authMove_consistent (h : AuthConsistent lib settings tasks w) {e : AuthMove}
    (moved : authMove e w = some v) :
    AuthConsistent lib settings tasks v ∧ w.Grows v ∧ v.holding = w.holding := by
  cases e with
  | expireNonce n =>
    cases moved
    exact ⟨h.restock h.nonces.drop h.codes h.refresh OneTimeStore.grows_drop (.refl _) (.refl _)
      rfl w.clientNonces w.recalling, .same rfl rfl rfl rfl rfl, rfl⟩
  | expireClientNonce client =>
    cases moved
    exact ⟨h.restock h.nonces h.codes h.refresh (.refl _) (.refl _) (.refl _) rfl _ w.recalling,
      .same rfl rfl rfl rfl rfl, rfl⟩
  | expireCode code =>
    cases moved
    exact ⟨h.restock h.nonces h.codes.drop h.refresh (.refl _) OneTimeStore.grows_drop (.refl _)
      rfl w.clientNonces w.recalling, .same rfl rfl rfl rfl rfl, rfl⟩
  | expireRefreshToken jti =>
    cases moved
    exact ⟨h.restock h.nonces h.codes h.refresh.drop (.refl _) (.refl _) OneTimeStore.grows_drop
      rfl w.clientNonces w.recalling, .same rfl rfl rfl rfl rfl, rfl⟩

section Stores

variable {op : AuthOp} {c : AuthChoice} {r : Except AuthFailure op.Reply}

theorem authEffect_of_perform (performed : authPerform lib audience i op c w = some (r, v)) :
    ∃ r', authEffect lib audience i op c.outcome w = some (r', v) := by
  obtain ⟨⟨r', v'⟩, effect, same⟩ := Option.map_eq_some_iff.mp performed
  obtain ⟨-, rfl⟩ := Prod.mk.inj same
  exact ⟨r', effect⟩

/-- The same stores, and the same account of what was done with them. -/
structure AuthWorld.Same (w v : AuthWorld) : Prop where
  nonces : v.nonces = w.nonces
  codes : v.codes = w.codes
  refresh : v.refresh = w.refresh
  authentications : v.authentications = w.authentications
  rotations : v.rotations = w.rotations
  recalling : v.recalling = w.recalling
  recalled : v.recalled = w.recalled

/-- What an operation of task `i` does to the stores. -/
inductive StoreStep (audience : Text) (i : ℕ) (w : AuthWorld) : AuthWorld → AuthOp → Prop where
  | same {v : AuthWorld} {op : AuthOp} (same : w.Same v) : StoreStep audience i w v op
  | storeNonce {client : Address} {n : Text} (fresh : n ∉ w.nonces.issued.map Prod.fst) :
      StoreStep audience i w { w with nonces := w.nonces.put n client } (.storeNonce client)
  | popNonce {n : Text} {request : AuthRequest} {a b : Address}
      (found : w.nonces.find n = some b) :
      StoreStep audience i w { w with
          nonces := w.nonces.take n
          authentications := (n, a) :: w.authentications
          holding := Function.update w.holding i (some (.nonce n)) } (.popNonce n request a)
  | createCode {code : Text} {record : AuthCodeRecord}
      (fresh : code ∉ w.codes.issued.map Prod.fst) :
      StoreStep audience i w (w.createCode i code record) (.createCode record)
  | consumeCode {code : Text} {request : AuthRequest} {record : AuthCodeRecord}
      (found : w.codes.find code = some record) :
      StoreStep audience i w { w with
          codes := w.codes.take code
          holding := Function.update w.holding i (some (.code code)) } (.consumeCode code request)
  | createRefreshToken {jti : Text} {a : Address} {parent : Option Text}
      (fresh : jti ∉ w.refresh.issued.map Prod.fst) :
      StoreStep audience i w
        (w.createRefreshToken jti (refreshClaims audience a jti) a parent)
        (.createRefreshToken a parent)
  | consumeRefreshToken {jti : Text} {request : AuthRequest} {a : Address}
      (found : w.refresh.find jti = some a) :
      StoreStep audience i w { w with
          refresh := w.refresh.take jti
          holding := Function.update w.holding i (some (.refresh jti)) }
        (.consumeRefreshToken jti request)
  | deleteRefreshToken {jti : Text} {request : AuthRequest} (has : w.refresh.has jti = true) :
      StoreStep audience i w { w with refresh := w.refresh.drop jti }
        (.deleteRefreshToken jti request)
  | refreshKeys {user : Address} : StoreStep audience i w (w.startRecall i user) (.refreshKeys user)
  | respond {request : AuthRequest} {response : AuthResponse} :
      StoreStep audience i w (w.respond i request response) (.respond request response)

theorem perform_storeStep (performed : authPerform lib audience i op c w = some (r, v)) :
    StoreStep audience i w v op := by
  obtain ⟨r', effect⟩ := authEffect_of_perform performed
  generalize c.outcome = c at effect
  unfold authEffect at effect
  split at effect
  case h_5 client n =>
    split at effect
    · cases effect
    · next fresh =>
      cases effect
      exact .storeNonce fresh
  case h_7 n request a =>
    cases effect
    rcases found : w.nonces.find n with - | b
    · exact .same (by rw [AuthWorld.popNonce, found]; exact ⟨rfl, rfl, rfl, rfl, rfl, rfl, rfl⟩)
    · rw [AuthWorld.popNonce, found]
      exact .popNonce found
  case h_10 record code =>
    split at effect
    · cases effect
    · next fresh =>
      cases effect
      exact .createCode fresh
  case h_12 code request =>
    cases effect
    rcases found : w.codes.find code with - | record
    · exact .same (by rw [AuthWorld.consumeCode, found]; exact ⟨rfl, rfl, rfl, rfl, rfl, rfl, rfl⟩)
    · rw [AuthWorld.consumeCode, found]
      exact .consumeCode found
  case h_14 a parent jti =>
    split at effect
    · cases effect
    · next fresh =>
      cases effect
      exact .createRefreshToken fresh
  case h_15 token =>
    split at effect
    · split at effect
      · cases effect
        exact .same ⟨rfl, rfl, rfl, rfl, rfl, rfl, rfl⟩
      · cases effect
    · cases effect
  case h_17 jti request =>
    cases effect
    rcases found : w.refresh.find jti with - | a
    · exact .same (by rw [AuthWorld.consumeRefreshToken, found]; exact ⟨rfl, rfl, rfl, rfl, rfl, rfl, rfl⟩)
    · rw [AuthWorld.consumeRefreshToken, found]
      exact .consumeRefreshToken found
  case h_19 jti request =>
    cases effect
    split
    · next has => exact .deleteRefreshToken has
    · exact .same ⟨rfl, rfl, rfl, rfl, rfl, rfl, rfl⟩
  case h_20 user =>
    cases effect
    exact .refreshKeys
  case h_22 request response =>
    cases effect
    exact .respond
  all_goals
    cases effect
    try exact .same ⟨rfl, rfl, rfl, rfl, rfl, rfl, rfl⟩

end Stores

end Privana
