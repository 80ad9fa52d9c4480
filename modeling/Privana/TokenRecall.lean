import Privana.SingleUse

/-! The loop of `revoke_all`. It lists the keys of the store, and looks at them one by one; a
second set of phases says how far it has come, and that what it leaves behind was listed. -/

namespace Privana
open BigEndian Coroutine

inductive RecallPhase where
  | free
  | scanning (user : Address) (keys : List Text)
  | deleting (user : Address) (jti : Text) (keys : List Text)
  | ended

namespace RecallPhase

def after (x : RecallPhase) : (op : AuthOp) → Except AuthFailure op.Reply → RecallPhase
  | .refreshKeys user, .ok keys => scanning user keys
  | .refreshKeys _, .error _ => ended
  | .getRefreshToken _, .ok owner =>
    match x with
    | scanning user (jti :: keys) =>
      if owner = some user then deleting user jti keys else scanning user keys
    | x => x
  | .deleteRefreshToken .., .ok _ =>
    match x with
    | deleting user _ keys => scanning user keys
    | x => x
  | .respond .., _ => ended
  | _, .ok _ => x
  | _, .error _ =>
    match x with
    | free => free
    | _ => ended

end RecallPhase

/-- A request that asks for all tokens of its user to be revoked. -/
def AuthRequest.revokesAll : AuthRequest → Bool
  | .logout _ _ revokeAll => revokeAll
  | _ => false

def recallMay (lib : AuthLibrary) (x : RecallPhase) (op : AuthOp) : Prop :=
  match x with
  | .free => ∀ request response, op = .respond request response → request.revokesAll = false
  | .scanning user [] => ∃ request response, op = .respond request response ∧
      requestUser lib request = some user
  | .scanning _ (jti :: _) => op = .getRefreshToken jti
  | .deleting _ jti _ => ∃ request, op = .deleteRefreshToken jti request
  | .ended => False

/-- Every token of the user that had been issued and is still stored is among the keys. -/
def Covers (w : AuthWorld) (i : ℕ) (user : Address) (keys : List Text) : Prop :=
  ∃ before, w.recalling i = some ⟨user, before⟩ ∧
    ∀ jti, (jti, user) ∈ before → (jti, user) ∈ w.refresh.entries → jti ∈ keys

def recallKnows (i : ℕ) (x : RecallPhase) (w : AuthWorld) : Prop :=
  match x with
  | .free => w.recalling i = none
  | .scanning user keys => Covers w i user keys
  | .deleting user jti keys => Covers w i user (jti :: keys)
  | .ended => True

/-- What the recalls that were answered, or are under way, are worth. -/
structure RecallConsistent (tasks : ℕ) (w : AuthWorld) : Prop where
  recalled_issued : ∀ {r}, r ∈ w.recalled → r.before ⊆ w.refresh.issued
  recalling_issued : ∀ {i r}, w.recalling i = some r → r.before ⊆ w.refresh.issued
  cleared : ∀ {r jti}, r ∈ w.recalled → (jti, r.user) ∈ r.before →
    (jti, r.user) ∉ w.refresh.entries
  vacant : ∀ {i}, tasks ≤ i → w.recalling i = none

def recallTypestate (lib : AuthLibrary) :
    Typestate AuthWorld AuthOp AuthOp.Reply AuthFailure RecallPhase where
  may := recallMay lib
  reply := authReply lib
  after := RecallPhase.after
  world := RecallConsistent
  knows := recallKnows
  ended := .ended

variable {lib : AuthLibrary} {settings : AuthSettings} {audience : Text} {w v : AuthWorld}
  {tasks i : ℕ} {op : AuthOp}

/-- No token comes back into the store. -/
structure AuthWorld.Settles (w v : AuthWorld) : Prop where
  issued : w.refresh.issued ⊆ v.refresh.issued
  entries : ∀ {e}, e ∈ w.refresh.issued → e ∈ v.refresh.entries → e ∈ w.refresh.entries

theorem AuthWorld.Settles.of_same (same : v.refresh = w.refresh) : w.Settles v where
  issued := same ▸ List.Subset.refl _
  entries _ h := by rwa [same] at h

theorem StoreStep.settles (step : StoreStep audience i w v op) : w.Settles v := by
  cases step with
  | same same => exact .of_same same.refresh
  | @createRefreshToken jti a parent fresh =>
    refine ⟨List.subset_cons_self _ _, fun {e} old h => ?_⟩
    rcases List.mem_cons.mp h with rfl | h
    · exact absurd (List.mem_map_of_mem old) fresh
    · exact h
  | @consumeRefreshToken jti request a found =>
    refine ⟨OneTimeStore.grows_take.issued, fun {e} old h => ?_⟩
    rw [OneTimeStore.take_of_find found] at h
    exact (OneTimeStore.mem_without.mp h).1
  | deleteRefreshToken =>
    exact ⟨List.Subset.refl _, fun _ h => (OneTimeStore.mem_without.mp h).1⟩
  | _ => exact .of_same rfl

theorem Covers.later {user : Address} {keys : List Text} (g : w.Settles v)
    (same : v.recalling i = w.recalling i)
    (issued : ∀ {r}, w.recalling i = some r → r.before ⊆ w.refresh.issued)
    (h : Covers w i user keys) : Covers v i user keys := by
  obtain ⟨before, recalling, covered⟩ := h
  exact ⟨before, same.trans recalling, fun jti mem stored =>
    covered jti mem (g.entries (issued recalling mem) stored)⟩

theorem recallKnows_later {x : RecallPhase} (g : w.Settles v)
    (same : v.recalling i = w.recalling i) (h : RecallConsistent tasks w)
    (known : recallKnows i x w) : recallKnows i x v := by
  cases x with
  | free => exact same.trans known
  | scanning => exact Covers.later g same h.recalling_issued known
  | deleting => exact Covers.later g same h.recalling_issued known
  | ended => trivial

theorem RecallConsistent.later (h : RecallConsistent tasks w) (g : w.Settles v)
    (recalling : v.recalling = w.recalling) (recalled : v.recalled = w.recalled) :
    RecallConsistent tasks v where
  recalled_issued hr := fun _ hm => g.issued (h.recalled_issued (recalled ▸ hr) hm)
  recalling_issued hr := fun _ hm => g.issued (h.recalling_issued (recalling ▸ hr) hm)
  cleared hr hm stored :=
    h.cleared (recalled ▸ hr) hm (g.entries (h.recalled_issued (recalled ▸ hr) hm) stored)
  vacant hi := recalling ▸ h.vacant hi

theorem AuthWorld.startRecall_self (user : Address) :
    (w.startRecall i user).recalling i = some ⟨user, w.refresh.issued⟩ := Function.update_self _ _ _

theorem AuthWorld.startRecall_of_ne {j : ℕ} (ne : j ≠ i) (user : Address) :
    (w.startRecall i user).recalling j = w.recalling j := Function.update_of_ne ne _ _

theorem AuthWorld.respond_self (request : AuthRequest) (response : AuthResponse) :
    (w.respond i request response).recalling i = none := Function.update_self _ _ _

theorem AuthWorld.respond_of_ne {j : ℕ} (ne : j ≠ i) (request : AuthRequest)
    (response : AuthResponse) : (w.respond i request response).recalling j = w.recalling j :=
  Function.update_of_ne ne _ _

theorem AuthWorld.respond_recalled {request : AuthRequest} {response : AuthResponse} {r : Recall}
    (hr : r ∈ (w.respond i request response).recalled) :
    w.recalling i = some r ∨ r ∈ w.recalled := by
  simp only [AuthWorld.respond] at hr
  split at hr
  · next r' found =>
    rcases List.mem_cons.mp hr with rfl | hr
    · exact .inl found
    · exact .inr hr
  · exact .inr hr

theorem RecallConsistent.recall (h : RecallConsistent tasks w) (hi : i < tasks) (user : Address) :
    RecallConsistent tasks (w.startRecall i user) where
  recalled_issued := h.recalled_issued
  recalling_issued {j r} hr := by
    rcases eq_or_ne j i with rfl | ne
    · obtain rfl := Option.some_inj.mp ((AuthWorld.startRecall_self user).symm.trans hr)
      exact List.Subset.refl _
    · exact h.recalling_issued ((AuthWorld.startRecall_of_ne ne user).symm.trans hr)
  cleared := h.cleared
  vacant hj := (AuthWorld.startRecall_of_ne (by omega) user).trans (h.vacant hj)

/-- An answer ends the recall, if there is one and nothing remains to be seen. -/
theorem RecallConsistent.respond (h : RecallConsistent tasks w)
    (finished : ∀ r, w.recalling i = some r → Covers w i r.user []) (request : AuthRequest)
    (response : AuthResponse) : RecallConsistent tasks (w.respond i request response) := by
  have recalled {r : Recall} : r ∈ (w.respond i request response).recalled →
      w.recalling i = some r ∨ r ∈ w.recalled := AuthWorld.respond_recalled
  refine ⟨fun {r} hr => ?_, fun {j r} hr => ?_, fun {r jti} hr mem stored => ?_, fun {j} hj => ?_⟩
  · rcases recalled hr with hr | hr
    · exact h.recalling_issued hr
    · exact h.recalled_issued hr
  · rcases eq_or_ne j i with rfl | ne
    · cases (AuthWorld.respond_self request response).symm.trans hr
    · exact h.recalling_issued ((AuthWorld.respond_of_ne ne request response).symm.trans hr)
  · rcases recalled hr with hr | hr
    · obtain ⟨before, found, covered⟩ := finished r hr
      have same : r = ⟨r.user, before⟩ := Option.some_inj.mp (hr.symm.trans found)
      rw [same] at mem
      exact List.not_mem_nil (covered jti mem stored)
    · exact h.cleared hr mem stored
  · rcases eq_or_ne j i with rfl | ne
    · exact AuthWorld.respond_self request response
    · exact (AuthWorld.respond_of_ne ne request response).trans (h.vacant hj)

section Replies

variable {c : AuthChoice}

theorem perform_ok {a : op.Reply} (performed : authPerform lib audience i op c w = some (.ok a, v)) :
    authEffect lib audience i op c.outcome w = some (.ok a, v) := by
  obtain ⟨⟨r, v'⟩, effect, same⟩ := Option.map_eq_some_iff.mp performed
  obtain ⟨same, rfl⟩ := Prod.mk.inj same
  cases lost : c.lost with
  | true =>
    rw [lost] at same
    cases same
  | false =>
    rw [lost] at same
    exact same ▸ effect

theorem refreshKeys_ok {user : Address} {keys : List Text}
    (performed : authPerform lib audience i (.refreshKeys user) c w = some (.ok keys, v)) :
    keys = w.refresh.entries.map Prod.fst ∧ v = w.startRecall i user := by
  have effect : authEffect lib audience i (.refreshKeys user) c.outcome w = some (.ok keys, v) :=
    perform_ok performed
  generalize c.outcome = c at effect
  cases c <;> cases effect
  exact ⟨rfl, rfl⟩

theorem refreshKeys_world {user : Address} {r : Except AuthFailure (List Text)}
    (performed : authPerform lib audience i (.refreshKeys user) c w = some (r, v)) :
    v = w ∨ v = w.startRecall i user := by
  obtain ⟨r', effect⟩ := authEffect_of_perform performed
  generalize c.outcome = c at effect
  cases c <;> cases effect
  · exact .inr rfl
  · exact .inl rfl

theorem respond_world {request : AuthRequest} {response : AuthResponse}
    {r : Except AuthFailure Unit}
    (performed : authPerform lib audience i (.respond request response) c w = some (r, v)) :
    v = w.respond i request response := by
  obtain ⟨r', effect⟩ := authEffect_of_perform performed
  generalize c.outcome = c at effect
  cases c <;> cases effect
  rfl

theorem getRefreshToken_ok {jti : Text} {owner : Option Address}
    (performed : authPerform lib audience i (.getRefreshToken jti) c w = some (.ok owner, v)) :
    owner = w.refresh.find jti ∧ v = w := by
  have effect : authEffect lib audience i (.getRefreshToken jti) c.outcome w =
    some (.ok owner, v) := perform_ok performed
  generalize c.outcome = c at effect
  cases c <;> cases effect
  exact ⟨rfl, rfl⟩

theorem deleteRefreshToken_ok {jti : Text} {request : AuthRequest} {deleted : Bool}
    (performed : authPerform lib audience i (.deleteRefreshToken jti request) c w =
      some (.ok deleted, v)) (a : Address) : (jti, a) ∉ v.refresh.entries := by
  have effect : authEffect lib audience i (.deleteRefreshToken jti request) c.outcome w =
    some (.ok deleted, v) := perform_ok performed
  generalize c.outcome = c at effect
  cases c <;> cases effect
  intro stored
  split at stored
  · exact (OneTimeStore.mem_without.mp stored).2 rfl
  · next has => exact has (OneTimeStore.find_isSome stored)

end Replies

theorem StoreStep.recalls (step : StoreStep audience i w v op)
    (listing : ∀ user, op ≠ .refreshKeys user) (answer : ∀ q a, op ≠ .respond q a) :
    v.recalling = w.recalling ∧ v.recalled = w.recalled := by
  cases step with
  | same same => exact ⟨same.recalling, same.recalled⟩
  | refreshKeys => exact absurd rfl (listing _)
  | respond => exact absurd rfl (answer _ _)
  | _ => exact ⟨rfl, rfl⟩

theorem Covers.skip {user : Address} {jti : Text} {keys : List Text}
    (h : Covers w i user (jti :: keys)) (gone : (jti, user) ∉ w.refresh.entries) :
    Covers w i user keys := by
  obtain ⟨before, recalling, covered⟩ := h
  refine ⟨before, recalling, fun jti' mem stored => ?_⟩
  rcases List.mem_cons.mp (covered jti' mem stored) with rfl | rest
  · exact absurd stored gone
  · exact rest

section Steps

variable {x : RecallPhase} {c : AuthChoice} (h : RecallConsistent tasks w) (hi : i < tasks)
  (known : recallKnows i x w)
include h known

theorem recall_respond {request : AuthRequest} {response : AuthResponse}
    (may : recallMay lib x (.respond request response)) :
    RecallConsistent tasks (w.respond i request response) := by
  refine h.respond (fun r recalling => ?_) request response
  cases x with
  | free => cases recalling.symm.trans known
  | scanning user keys =>
    cases keys with
    | nil =>
      obtain ⟨before, found, covered⟩ := known
      obtain rfl := Option.some_inj.mp (recalling.symm.trans found)
      exact ⟨before, found, covered⟩
    | cons => cases may
  | deleting =>
    obtain ⟨_, same⟩ := may
    cases same
  | ended => exact may.elim

/-- What a step that does not list keys or answer brings about. -/
theorem recall_step_knows {r : Except AuthFailure op.Reply}
    (sound : w.refresh.Sound) (may : recallMay lib x op)
    (later : ∀ y, recallKnows i y w → recallKnows i y v)
    (performed : authPerform lib audience i op c w = some (r, v))
    (listing : ∀ user, op ≠ .refreshKeys user) (answer : ∀ q a, op ≠ .respond q a) :
    recallKnows i (x.after op r) v := by
  cases x with
  | free =>
    have same : RecallPhase.free.after op r = .free := by
      cases op <;> first
        | exact absurd rfl (listing _)
        | exact absurd rfl (answer _ _)
        | cases r <;> rfl
    rw [same]
    exact later .free known
  | ended => exact may.elim
  | scanning user keys =>
    cases keys with
    | nil =>
      obtain ⟨q, a, rfl, -⟩ := may
      exact absurd rfl (answer q a)
    | cons jti keys =>
      obtain rfl : op = .getRefreshToken jti := may
      cases r with
      | error e => exact trivial
      | ok owner =>
        obtain ⟨same, rfl⟩ := getRefreshToken_ok performed
        show recallKnows i (if owner = some user then .deleting user jti keys
          else .scanning user keys) v
        split
        · exact known
        · next other =>
          exact Covers.skip known fun stored => other (same.trans (sound.find_of_mem stored))
  | deleting user jti keys =>
    obtain ⟨request, rfl⟩ := may
    cases r with
    | error e => exact trivial
    | ok deleted =>
      exact Covers.skip (later (.deleting user jti keys) known)
        (deleteRefreshToken_ok performed user)

include hi

theorem recall_advances {r : Except AuthFailure op.Reply} (sound : w.refresh.Sound)
    (may : recallMay lib x op) (performed : authPerform lib audience i op c w = some (r, v)) :
    RecallConsistent tasks v ∧ recallKnows i (x.after op r) v ∧
      ∀ j, j ≠ i → v.recalling j = w.recalling j := by
  have step := perform_storeStep performed
  have settles := step.settles
  have ordinary (listing : ∀ user, op ≠ .refreshKeys user) (answer : ∀ q a, op ≠ .respond q a) :
      RecallConsistent tasks v ∧ recallKnows i (x.after op r) v ∧
        ∀ j, j ≠ i → v.recalling j = w.recalling j := by
    obtain ⟨recalling, recalled⟩ := step.recalls listing answer
    exact ⟨h.later settles recalling recalled, recall_step_knows h known sound may
      (fun y => recallKnows_later settles (congrFun recalling i) h) performed listing answer,
      fun j _ => congrFun recalling j⟩
  cases op with
  | refreshKeys user =>
    have consistent : RecallConsistent tasks v ∧ ∀ j, j ≠ i → v.recalling j = w.recalling j := by
      rcases refreshKeys_world performed with rfl | rfl
      · exact ⟨h, fun _ _ => rfl⟩
      · exact ⟨h.recall hi user, fun j ne => AuthWorld.startRecall_of_ne ne user⟩
    refine ⟨consistent.1, ?_, consistent.2⟩
    cases r with
    | error e => trivial
    | ok keys =>
      obtain ⟨rfl, rfl⟩ := refreshKeys_ok performed
      exact ⟨w.refresh.issued, AuthWorld.startRecall_self user, fun jti _ stored =>
        List.mem_map_of_mem stored⟩
  | respond request response =>
    obtain rfl := respond_world performed
    exact ⟨recall_respond h known may, trivial,
      fun j ne => AuthWorld.respond_of_ne ne request response⟩
  | _ => exact ordinary (fun _ h => by cases h) fun _ _ h => by cases h

end Steps

/-- Neither a listing of the keys nor an answer. -/
def AuthOp.ordinary : AuthOp → Bool
  | refreshKeys _ | respond .. => false
  | _ => true

section Programs

variable {α : Type}

abbrev Ordinary (p : Auth α) : Prop := p.Uses fun op => op.ordinary = true

theorem ordinary_reject {error : AuthError} : Ordinary (reject error : Auth α) := Uses.raise _

theorem ordinary_orReject (r : Except AuthError α) : Ordinary (orReject r) := by
  cases r <;> trivial

theorem ordinary_rateLimit (bucket : String) (error : AuthError) :
    Ordinary (enforceRateLimit bucket error) :=
  .bind (.await rfl) fun limited => by cases limited <;> trivial

theorem ordinary_signed (claims : Claims) : Ordinary (signed claims) :=
  .bind (.await rfl) fun _ => .result _

theorem ordinary_drawNonce (client : Address) : Ordinary (drawNonce client) :=
  .bind (.await rfl) fun _ => .bind (.await rfl) fun _ => .result _

theorem ordinary_getSiweNonce (origin : Option Text) (address : Text) :
    Ordinary (getSiweNonce lib settings origin address) := by
  refine .bind (ordinary_orReject _) fun _ => .bind (ordinary_rateLimit _ _) fun _ => ?_
  split
  · exact ordinary_reject
  · refine .bind (.bind (.await rfl) fun existing => ?_) fun _ => .result _
    split
    · exact ordinary_drawNonce _
    · refine .bind (.await rfl) fun valid => ?_
      split
      · exact .result _
      · exact ordinary_drawNonce _

theorem ordinary_authenticate (request : AuthRequest) (siweMessage signature : Text) :
    Ordinary (authenticateSiweMessage lib settings request siweMessage signature) := by
  refine .bind (ordinary_orReject _) fun claim => .bind (.await rfl) fun valid => ?_
  split
  · exact ordinary_reject
  refine .bind (ordinary_orReject _) fun _ => .bind (.await rfl) fun _ => ?_
  refine .bind (ordinary_orReject _) fun _ => .bind (.await rfl) fun _ => ?_
  refine .bind (ordinary_orReject _) fun validUntil => ?_
  refine .bind (.except (.await rfl) fun _ => ordinary_reject) fun siweToken => ?_
  refine .bind (.bind (.await rfl) fun client => ?_) fun consumed => ?_
  · split
    · exact .result _
    · exact .bind (.await rfl) fun _ => .result _
  · split
    · exact .result _
    · exact ordinary_reject

theorem ordinary_siweLogin (origin : Option Text) (siweMessage signature : Text) :
    Ordinary (siweLogin lib settings audience origin siweMessage signature) :=
  .bind (ordinary_orReject _) fun _ => .bind (ordinary_rateLimit _ _) fun _ =>
    .bind (ordinary_authenticate _ _ _) fun _ => .bind (ordinary_signed _) fun _ =>
    .bind (.await rfl) fun _ => .result _

theorem ordinary_authorizeCode (origin : Option Text)
    (siweMessage signature clientId redirectUri challenge method : Text) :
    Ordinary (authorizeCode lib settings origin siweMessage signature clientId redirectUri
      challenge method) := by
  refine .bind (ordinary_orReject _) fun _ => .bind (ordinary_rateLimit _ _) fun _ => ?_
  split
  · exact ordinary_reject
  split
  · exact ordinary_reject
  split
  · exact ordinary_reject
  refine .bind (ordinary_authenticate _ _ _) fun _ => ?_
  split
  · exact .raise _
  · exact .bind (.await rfl) fun _ => .result _

theorem ordinary_redeemCode (origin : Option Text) (client : AuthClient) (normalized : Text)
    (payload : TokenExchangeRequest) :
    Ordinary (redeemCode lib audience origin client normalized payload) := by
  refine .bind (.await rfl) fun record => ?_
  split
  · exact ordinary_reject
  split
  · exact ordinary_reject
  split
  · exact ordinary_reject
  split
  · exact ordinary_reject
  · exact ordinary_reject
  refine .bind (.await rfl) fun consumed => ?_
  split
  · exact ordinary_reject
  · exact .bind (ordinary_signed _) fun _ => .bind (ordinary_signed _) fun _ =>
      .bind (.await rfl) fun _ => .result _

theorem ordinary_exchangeCode (origin : Option Text) (payload : TokenExchangeRequest) :
    Ordinary (exchangeCode lib settings audience origin payload) := by
  unfold exchangeCode
  split
  · exact ordinary_reject
  split
  · exact ordinary_reject
  split
  · exact ordinary_reject
  split
  · exact .raise _
  split
  · exact .raise _
  split
  · exact ordinary_reject
  · exact .bind (ordinary_rateLimit _ _) fun _ => ordinary_redeemCode _ _ _ _

theorem ordinary_refreshTokens (token : Text) : Ordinary (refreshTokens audience token) := by
  refine .bind (.except (.await rfl) fun e => ?_) fun claims => ?_
  · cases e <;> trivial
  split
  · exact ordinary_reject
  split
  · exact ordinary_reject
  refine .bind (.await rfl) fun address => ?_
  split
  · exact ordinary_reject
  · exact .bind (ordinary_signed _) fun _ => .bind (.await rfl) fun _ => .result _

theorem ordinary_getCurrentUser (token : Text) : Ordinary (getCurrentUser token) := by
  refine .bind (.except (.await rfl) fun e => ?_) fun claims => ?_
  · cases e with
    | invalidToken expired => cases expired <;> trivial
    | _ => trivial
  split
  · exact ordinary_reject
  · exact .result _

theorem ordinary_logout (accessToken : Text) (refreshToken : Option Text) :
    Ordinary (logout accessToken refreshToken false) := by
  refine .bind (ordinary_getCurrentUser _) fun user => ?_
  split
  · contradiction
  split
  · exact .result _
  refine .bind (.bind (.await rfl) fun claims => ?_) fun owner => ?_
  · split
    · exact .result _
    split
    · exact .result _
    refine .bind (.await rfl) fun valid => ?_
    split <;> exact .result _
  split
  · exact .result _
  split
  · exact ordinary_reject
  refine .bind (.bind (.except (.map (.await rfl)) fun e => ?_) fun claims => ?_) fun _ => .result _
  · cases e <;> trivial
  · split
    · exact .result _
    · exact .await rfl

end Programs

section Runs

theorem ordinary_step (x : RecallPhase) (op : AuthOp) (free : x = .free)
    (ordinary : op.ordinary = true) : (recallTypestate lib).may x op ∧
      ∀ r, (recallTypestate lib).reply op r → (recallTypestate lib).after x op r = .free := by
  subst free
  refine ⟨fun request response same => ?_, fun r _ => ?_⟩
  · rw [same] at ordinary
    cases ordinary
  · cases op <;> first
      | cases ordinary; done
      | cases r <;> rfl

/-- A part of a request that lists no keys and does not answer. -/
theorem follows_ordinary {α : Type} {p : Auth α} (h : Ordinary p) :
    p.Follows (recallTypestate lib) (fun _ y => y = .free) .free :=
  h.follows (I := fun x => x = RecallPhase.free) ordinary_step rfl

theorem follows_respond {x : RecallPhase} {request : AuthRequest} {response : AuthResponse}
    (may : recallMay lib x (.respond request response)) :
    (ask (.respond request response)).Follows (recallTypestate lib) (fun _ _ => True) x :=
  ⟨may, fun _ _ => trivial⟩

theorem follows_serve_ordinary {request : AuthRequest} (one : request.revokesAll = false)
    (h : Ordinary (handle lib settings audience request)) :
    (serve lib settings audience request).Follows (recallTypestate lib) (fun _ _ => True) .free :=
  .bind (follows_ordinary h) (fun _ _ free => follows_respond (free ▸ fun _ _ same => by
    obtain ⟨rfl, -⟩ := AuthOp.respond.inj same
    exact one)) fun _ _ _ => trivial

theorem follows_getCurrentUser (token : Text) :
    (getCurrentUser token).Follows (recallTypestate lib) (fun r y => y = .free ∧
      ∀ user, r = .ok user → (lib.decodeJwt token).map Claims.sub = some user) .free := by
  refine .bind (R := fun r y => y = .free ∧ ∀ claims, r = .ok claims →
    lib.decodeJwt token = some claims) ?_ (fun claims y ⟨free, decoded⟩ => ?_)
    fun e y ⟨free, _⟩ => ⟨free, nofun⟩
  · refine ⟨fun _ _ same => (by cases same), fun r hr => ?_⟩
    cases r with
    | ok claims => exact ⟨rfl, fun c same => Except.ok.inj same ▸ hr⟩
    | error e =>
      cases e with
      | invalidToken expired => cases expired <;> exact ⟨rfl, nofun⟩
      | _ => exact ⟨rfl, nofun⟩
  · subst free
    split
    · exact ⟨rfl, nofun⟩
    · refine ⟨rfl, fun user same => ?_⟩
      rw [decoded claims rfl, Option.map_some, Except.ok.inj same]

theorem follows_revokeListed (request : AuthRequest) (user : Address) (keys : List Text)
    (revoked : ℕ) : (revokeListed request user revoked keys).Follows (recallTypestate lib)
      (fun r y => ∀ n, r = .ok n → y = .scanning user []) (.scanning user keys) := by
  induction keys generalizing revoked with
  | nil => exact fun _ _ => rfl
  | cons jti keys ih =>
    refine .await rfl (fun owner _ => ?_) fun _ _ => nofun
    show Follows (recallTypestate lib) _ _ (if owner = some user then .deleting user jti keys
      else .scanning user keys)
    split
    · refine .await ⟨request, rfl⟩ (fun deleted _ => ?_) fun _ _ => nofun
      split
      · exact ih _
      · exact ih _
    · exact ih _

theorem follows_logout_all (accessToken : Text) (refreshToken : Option Text) :
    (serve lib settings audience (.logout accessToken refreshToken true)).Follows
      (recallTypestate lib) (fun _ _ => True) .free := by
  refine .bind (R := fun r y => ∀ response, r = .ok response → ∃ user, y = .scanning user [] ∧
    (lib.decodeJwt accessToken).map Claims.sub = some user) ?_ (fun response y finished => ?_)
    fun _ _ _ => trivial
  · refine .bind (follows_getCurrentUser accessToken) (fun user y ⟨free, known⟩ => ?_)
      fun _ _ _ => nofun
    subst free
    refine .bind (R := fun r y => ∀ n, r = .ok n → y = .scanning user []) ?_
      (fun revoked y finished response _ => ⟨user, finished revoked rfl, known user rfl⟩)
      fun _ _ _ => nofun
    refine .await (fun _ _ same => by cases same) (fun keys _ => ?_) fun _ _ => nofun
    exact follows_revokeListed _ user keys 0
  · obtain ⟨user, same, known⟩ := finished response rfl
    rw [same]
    exact follows_respond ⟨_, response, rfl, known⟩

theorem serve_follows_recall (request : AuthRequest) :
    (serve lib settings audience request).Follows (recallTypestate lib) (fun _ _ => True) .free := by
  cases request with
  | nonce => exact follows_serve_ordinary rfl (ordinary_getSiweNonce _ _)
  | login => exact follows_serve_ordinary rfl (ordinary_siweLogin _ _ _)
  | authorize => exact follows_serve_ordinary rfl (ordinary_authorizeCode _ _ _ _ _ _ _)
  | token => exact follows_serve_ordinary rfl (ordinary_exchangeCode _ _)
  | refresh => exact follows_serve_ordinary rfl (ordinary_refreshTokens _)
  | logout accessToken refreshToken revokeAll =>
    cases revokeAll with
    | false => exact follows_serve_ordinary rfl (ordinary_logout _ _)
    | true => exact follows_logout_all _ _

theorem authSystem_respects_recall : (authSystem lib settings audience).Respects
    (recallTypestate lib) (fun _ _ => True)
    fun _ w => ∃ tasks, AuthConsistent lib settings tasks w where
  perform := fun {n i x op c r w v} ⟨_, consistent⟩ h hi known may performed => by
    obtain ⟨later, knows, others⟩ := recall_advances h hi known consistent.refresh may performed
    exact ⟨perform_reply performed, later, knows, fun j y ne hy =>
      recallKnows_later (perform_storeStep performed).settles (others j ne) h hy⟩
  move := fun {n m w v} _ h moved => by
    have settles : w.Settles v ∧ v.recalling = w.recalling ∧ v.recalled = w.recalled := by
      cases m with
      | expireRefreshToken =>
        cases moved
        exact ⟨⟨List.Subset.refl _, fun _ h => (OneTimeStore.mem_without.mp h).1⟩, rfl, rfl⟩
      | _ =>
        cases moved
        exact ⟨.of_same rfl, rfl, rfl⟩
    obtain ⟨settles, recalling, recalled⟩ := settles
    exact ⟨h.later settles recalling recalled, fun j y hy =>
      recallKnows_later settles (congrFun recalling j) h hy⟩
  start _ h started := by
    cases started
    exact ⟨{ h with vacant := fun hi => h.vacant (by omega) },
      ⟨.free, serve_follows_recall _, h.vacant (Nat.le_refl _)⟩, fun _ _ _ hy => hy⟩
  leave _ h := ⟨h, trivial, fun _ _ _ hy => hy⟩
  restart _ h := { h with
    recalling_issued := fun hr => by cases hr
    vacant := fun _ => rfl }
  cancelled := trivial

end Runs

end Privana
