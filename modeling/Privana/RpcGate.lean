import Privana.RpcIdentity
import Privana.Typestate

/-! The gate over whole runs: one check at the start of a process, then re-checks at any
time, in any number, with the services asking in between. What the gate serves is at every
moment what the endpoints answered in the pass committed last, whatever the services hold. -/

namespace Privana
open Coroutine

/-- A process, with the probes of every pass and the commits, newest first. -/
structure GateWorld where
  /-- The mapping that the process was configured with. -/
  config : UrlMap
  gate : RpcIdentity
  /-- The caches of the services that ask for clients. -/
  caches : ℕ → U256 → Option AsyncWeb3
  started : Bool
  probes : List (ℕ × (U256 × Url) × Probe)
  commits : List (ℕ × UrlMap)

inductive GateMove where
  /-- Before the process starts its work, its settings are read. -/
  | configure (chainRpcUrls : UrlMap)
  | requireVerifiedWeb3 (service : ℕ) (chainId : U256) (chainRpcUrls : UrlMap)

inductive PassKind where
  /-- `initialize_verified_chain_rpc_urls`, which the lifespan runs once. -/
  | startup
  /-- `reverify_chain_rpc_urls`, whose loop starts when the check is over. -/
  | reverification

namespace GateWorld

def process (config : UrlMap) : GateWorld where
  config := config
  gate := ⟨[], false, [], config⟩
  caches _ _ := none
  started := false
  probes := []
  commits := []

def perform (w : GateWorld) (i : ℕ) : (op : PassOp) → Probe → PassOp.Reply op × GateWorld
  | .rememberConfigured, _ => (w.gate.chainRpcUrls,
      { w with gate := { w.gate with configuredUrls := w.gate.chainRpcUrls } })
  | .configuredUrls, _ => (if w.gate.configuredUrls ≠ [] then w.gate.configuredUrls
      else w.gate.chainRpcUrls, w)
  | .probeChainId chainId url, probe =>
    (probe, { w with probes := (i, (chainId, url), probe) :: w.probes })
  | .commitVerified verified, _ => ((), { w with
      gate := w.gate.commitVerified verified
      commits := (i, verified) :: w.commits })
  | .isUrlVerified chainId url, _ => (w.gate.isUrlVerified chainId url, w)

def move (w : GateWorld) : GateMove → Option GateWorld
  | .configure chainRpcUrls => if w.started then none else some (process chainRpcUrls)
  | .requireVerifiedWeb3 service chainId chainRpcUrls =>
    let (_, cache) := w.gate.requireVerifiedWeb3 chainId chainRpcUrls (w.caches service)
    some { w with caches := Function.update w.caches service cache }

def start (w : GateWorld) : PassKind → Option GateWorld
  | .startup => if w.started then none else some { w with started := true }
  | .reverification => if w.commits = [] then none else some w

/-- The endpoint of a chain that answered with the chain's own ID in the last pass. -/
def proved (w : GateWorld) (chainId : U256) : Option Url :=
  match w.commits with
  | [] => none
  | (pass, _) :: _ => (w.config.lookup chainId).filter fun url =>
    (pass, (chainId, url), Probe.reported chainId.toNat) ∈ w.probes

end GateWorld

/-- The passes of a process, with the settings of its environment. -/
def gateSystem (settings : RpcSettings) :
    TaskSystem GateWorld PassOp PassOp.Reply PassError Probe GateMove PassKind UrlMap where
  perform i op probe w :=
    let (reply, v) := w.perform i op probe
    some (.ok reply, v)
  move e w := w.move e
  body
    | .startup => initializeVerifiedChainRpcUrls settings
    | .reverification => reverifyChainRpcUrls
  start p w := w.start p
  leave _ w := w
  restart w := GateWorld.process w.config

section Lookup

theorem mem_sortedUrls {urls : UrlMap} {entry : U256 × Url} :
    entry ∈ sortedUrls urls ↔ urls.lookup entry.1 = some entry.2 := by
  refine ⟨lookup_of_mem_sortedUrls, fun h => ?_⟩
  have key : entry.1 ∈ urls.map Prod.fst := by
    by_contra none
    rw [List.lookup_eq_none_iff.mpr fun p hp => ?_] at h
    · cases h
    · simp only [bne_iff_ne, ne_eq]
      exact fun same => none (same ▸ List.mem_map_of_mem hp)
  exact List.mem_filterMap.mpr ⟨entry.1, (List.mem_insertionSort _).mpr key, by simp [h]⟩

/-- A pass keeps every entry that answered with its own chain ID, and no other. -/
theorem mem_of_keepVerified {reported : List ((U256 × Url) × Probe)} {verified : UrlMap}
    (h : keepVerified reported = .ok verified) (entry : U256 × Url) :
    entry ∈ verified ↔ (entry, .reported entry.1.toNat) ∈ reported := by
  refine ⟨keepVerified_sound h, fun own => ?_⟩
  induction reported generalizing verified with
  | nil => cases own
  | cons p reported ih =>
    obtain ⟨first, probe⟩ := p
    cases probe with
    | cancelled => cases h
    | failed =>
      rcases List.mem_cons.mp own with same | own
      · cases same
      · exact ih h own
    | reported chainId =>
      cases hr : keepVerified reported with
      | error e =>
        simp only [keepVerified, hr] at h
        cases h
      | ok rest =>
        simp only [keepVerified, hr] at h
        obtain rfl := Except.ok.inj h
        rcases List.mem_cons.mp own with same | own
        · cases same
          simp
        · split
          · exact List.mem_cons_of_mem _ (ih hr own)
          · exact ih hr own

/-- A mapping whose entries are entries of a dictionary is looked up as its entries are. -/
theorem lookup_eq_some_of_sub {verified config : UrlMap}
    (sub : ∀ entry ∈ verified, config.lookup entry.1 = some entry.2) (chainId : U256) (url : Url) :
    verified.lookup chainId = some url ↔ (chainId, url) ∈ verified := by
  induction verified with
  | nil => simp
  | cons entry verified ih =>
    have tail := ih fun e he => sub e (List.mem_cons_of_mem _ he)
    obtain ⟨first, firstUrl⟩ := entry
    rw [List.lookup_cons, List.mem_cons]
    rcases eq_or_ne chainId first with rfl | ne
    · have head := sub _ List.mem_cons_self
      simp only [beq_self_eq_true, Option.some.injEq, Prod.mk.injEq, true_and]
      refine ⟨fun same => .inl same.symm, fun either => ?_⟩
      rcases either with same | later
      · exact same.symm
      · have other := sub _ (List.mem_cons_of_mem _ later)
        exact Option.some.inj (head.symm.trans other)
    · have away : (chainId == first) = false := beq_eq_false_iff_ne.mpr ne
      simp only [away, tail, Prod.mk.injEq, ne, false_and, false_or]

end Lookup

section Phases

/-- A pass before it knows its mapping, while it asks, and once it has committed. -/
inductive PassPhase where
  | opening
  | checking
  | probing (configured : UrlMap) (reported : List ((U256 × Url) × Probe))
  | settled

/-- All that pass `i` was told. -/
def GateWorld.Told (w : GateWorld) (i : ℕ) (reported : List ((U256 × Url) × Probe)) : Prop :=
  ∀ p, (i, p) ∈ w.probes ↔ p ∈ reported

/-- The commit of pass `i` is what it was told about everything that is configured. -/
def GateWorld.Checked (w : GateWorld) (i : ℕ) (verified : UrlMap) : Prop :=
  ∃ reported, w.Told i reported ∧ reported.map Prod.fst = sortedUrls w.config ∧
    keepVerified reported = .ok verified

/-- What holds with `n` passes: the gate is armed with the last commit, and no service holds
a client of another endpoint than the one that is configured. -/
structure GateWorld.Sound (n : ℕ) (w : GateWorld) : Prop where
  idle : w.started = false → n = 0 ∧ w.commits = []
  gated : w.gate.allowUnverified = false
  unarmed : w.commits = [] → w.gate.verifiedUrls = [] ∧ w.gate.chainRpcUrls = w.config
  armed : ∀ i verified rest, w.commits = (i, verified) :: rest →
    w.gate.verifiedUrls = verified ∧ w.gate.chainRpcUrls = verified ∧
      w.gate.configuredUrls = w.config
  checked : ∀ i verified, (i, verified) ∈ w.commits → w.Checked i verified
  committed : ∀ i verified, (i, verified) ∈ w.commits → i < n
  probed : ∀ i p, (i, p) ∈ w.probes → i < n
  cached : ∀ k c w3, w.caches k c = some w3 → ∃ url, w.config.lookup c = some url ∧
    w3 = clientForUrl url

/-- What pass `i` knows: it has told nothing yet, and the first pass comes before all others. -/
def PassPhase.Knows (i : ℕ) (w : GateWorld) : PassPhase → Prop
  | opening => i = 0 ∧ w.started = true ∧ w.commits = [] ∧ w.Told i []
  | checking => w.started = true ∧ w.commits ≠ [] ∧ w.Told i [] ∧
      ∀ verified, (i, verified) ∉ w.commits
  | probing configured reported => w.started = true ∧ configured = w.config ∧
      w.gate.configuredUrls = w.config ∧ (w.commits = [] → i = 0) ∧ w.Told i reported ∧
      ∀ verified, (i, verified) ∉ w.commits
  | settled => True

def passPhases : Typestate GateWorld PassOp PassOp.Reply PassError PassPhase where
  may
    | .opening, .rememberConfigured => True
    | .checking, .configuredUrls => True
    | .probing .., .probeChainId .. => True
    | .probing configured reported, .commitVerified verified =>
      reported.map Prod.fst = sortedUrls configured ∧ keepVerified reported = .ok verified
    | _, .isUrlVerified .. => True
    | _, _ => False
  reply _ r := ∃ a, r = .ok a
  after
    | .opening, .rememberConfigured, .ok urls => .probing urls []
    | .checking, .configuredUrls, .ok urls => .probing urls []
    | .probing configured reported, .probeChainId chainId url, .ok probe =>
      .probing configured (reported ++ [((chainId, url), probe)])
    | .probing .., .commitVerified _, _ => .settled
    | x, _, _ => x
  world := GateWorld.Sound
  knows i x w := x.Knows i w
  ended := .settled

theorem may_isUrlVerified (x : PassPhase) (chainId : U256) (url : Url) :
    passPhases.may x (.isUrlVerified chainId url) := by
  cases x <;> trivial

theorem probes_follow (configured : UrlMap) (entries : UrlMap)
    (reported : List ((U256 × Url) × Probe)) :
    (mapEach probeEntry entries).Follows passPhases
      (fun r y => ∃ told, r = .ok told ∧ told.map Prod.fst = entries ∧
        y = .probing configured (reported ++ told)) (.probing configured reported) := by
  induction entries generalizing reported with
  | nil => exact ⟨[], rfl, rfl, by rw [List.append_nil]⟩
  | cons entry entries ih =>
    refine Follows.bind (R := fun r y => ∃ probe, r = .ok (entry, probe) ∧
      y = .probing configured (reported ++ [(entry, probe)])) ?_ ?_ ?_
    · refine Follows.await trivial (fun probe _ => ⟨probe, rfl, rfl⟩) fun e he => ?_
      obtain ⟨a, same⟩ := he
      cases same
    · rintro _ _ ⟨probe, same, rfl⟩
      cases same
      refine Follows.bind (ih (reported ++ [(entry, probe)])) ?_ ?_
      · rintro told _ ⟨_, same, all, rfl⟩
        cases same
        exact ⟨(entry, probe) :: told, rfl, by rw [List.map_cons, all], by simp⟩
      · rintro _ _ ⟨told, same, -⟩
        cases same
    · rintro _ _ ⟨probe, same, -⟩
      cases same

/-- What the check returns may be committed. -/
theorem verifyChainRpcUrls_follows (configured : UrlMap) :
    (verifyChainRpcUrls configured).Follows passPhases
      (fun r y => ∀ verified, r = .ok verified →
        passPhases.may y (.commitVerified verified)) (.probing configured []) := by
  refine Follows.bind (probes_follow configured _ []) ?_ ?_
  · rintro reported _ ⟨told, same, all, rfl⟩
    cases same
    cases kept : keepVerified reported with
    | ok verified =>
      intro verified' same
      cases same
      exact ⟨all, kept⟩
    | error e => exact fun _ same => nomatch same
  · rintro _ _ ⟨told, same, -⟩
    cases same

theorem initialize_follows (settings : RpcSettings) :
    (initializeVerifiedChainRpcUrls settings).Follows passPhases (fun _ _ => True) .opening := by
  refine Follows.await trivial (fun configured _ => ?_) fun _ _ => trivial
  show Follows passPhases _ _ (PassPhase.probing configured [])
  split
  · next none =>
    subst none
    exact Follows.await ⟨rfl, rfl⟩ (fun _ _ => trivial) fun _ _ => trivial
  · refine Follows.bind (verifyChainRpcUrls_follows configured) (fun verified y may => ?_)
      fun _ _ _ => trivial
    refine Follows.await (may verified rfl) (fun _ _ => ?_) fun _ _ => trivial
    split
    · trivial
    · split
      · trivial
      · refine Follows.await ?_ (fun proved _ => ?_) fun _ _ => trivial
        · exact may_isUrlVerified _ _ _
        · split <;> trivial

theorem reverify_follows :
    reverifyChainRpcUrls.Follows passPhases (fun _ _ => True) .checking := by
  refine Follows.await trivial (fun configured _ => ?_) fun _ _ => trivial
  show Follows passPhases _ _ (PassPhase.probing configured [])
  split
  · trivial
  · refine Follows.bind (verifyChainRpcUrls_follows configured) (fun verified y may => ?_)
      fun _ _ _ => trivial
    exact Follows.await (may verified rfl) (fun _ _ => trivial) fun _ _ => trivial

end Phases

section Respect
variable {w : GateWorld} {n i : ℕ}

namespace GateWorld

theorem Told.mono {reported : List ((U256 × Url) × Probe)} (h : w.Told i reported) {j : ℕ}
    (ne : i ≠ j) (p : (U256 × Url) × Probe) :
    ({ w with probes := (j, p) :: w.probes } : GateWorld).Told i reported := by
  intro q
  rw [← h q]
  simp [ne]

theorem Told.snoc {reported : List ((U256 × Url) × Probe)} (h : w.Told i reported)
    (p : (U256 × Url) × Probe) :
    ({ w with probes := (i, p) :: w.probes } : GateWorld).Told i (reported ++ [p]) := by
  intro q
  simp [← h q, or_comm]

/-- The first pass takes over the mapping of the settings. -/
theorem Sound.remember (h : w.Sound n) (first : w.commits = []) :
    ({ w with gate := { w.gate with configuredUrls := w.gate.chainRpcUrls } } :
      GateWorld).Sound n :=
  { h with armed := fun i verified rest some => by simp [first] at some }

theorem Sound.probe (h : w.Sound n) (hi : i < n) (fresh : ∀ verified, (i, verified) ∉ w.commits)
    (p : (U256 × Url) × Probe) :
    ({ w with probes := (i, p) :: w.probes } : GateWorld).Sound n :=
  { h with
    checked := fun j verified mem => by
      obtain ⟨reported, told, all, kept⟩ := h.checked j verified mem
      have ne : j ≠ i := fun same => fresh verified (same ▸ mem)
      exact ⟨reported, told.mono ne p, all, kept⟩
    probed := fun j q mem => by
      rcases List.mem_cons.mp mem with same | mem
      · cases same
        exact hi
      · exact h.probed j q mem }

theorem Sound.commit (h : w.Sound n) (hi : i < n) (started : w.started = true)
    (configured : w.gate.configuredUrls = w.config) {verified : UrlMap}
    (checked : w.Checked i verified) :
    ({ w with
      gate := w.gate.commitVerified verified
      commits := (i, verified) :: w.commits } : GateWorld).Sound n where
  idle idle := by simp [started] at idle
  gated := rfl
  unarmed none := by cases none
  armed j v rest same := by
    cases same
    exact ⟨rfl, rfl, configured⟩
  checked j v mem := by
    rcases List.mem_cons.mp mem with same | mem
    · cases same
      exact checked
    · exact h.checked j v mem
  committed j v mem := by
    rcases List.mem_cons.mp mem with same | mem
    · cases same
      exact hi
    · exact h.committed j v mem
  probed := h.probed
  cached := h.cached

theorem Checked.mem_iff {verified : UrlMap} (h : w.Checked i verified) (entry : U256 × Url) :
    entry ∈ verified ↔ w.config.lookup entry.1 = some entry.2 ∧
      (i, entry, Probe.reported entry.1.toNat) ∈ w.probes := by
  obtain ⟨reported, told, all, kept⟩ := h
  rw [mem_of_keepVerified kept, told]
  refine ⟨fun own => ⟨?_, own⟩, And.right⟩
  rw [← mem_sortedUrls, ← all]
  exact List.mem_map_of_mem (f := Prod.fst) own

theorem Checked.lookup {verified : UrlMap} (h : w.Checked i verified) (chainId : U256) :
    verified.lookup chainId = (w.config.lookup chainId).filter fun url =>
      (i, (chainId, url), Probe.reported chainId.toNat) ∈ w.probes := by
  have entries := lookup_eq_some_of_sub fun entry he => ((h.mem_iff entry).mp he).1
  ext url
  rw [entries, h.mem_iff, Option.filter_eq_some_iff, decide_eq_true_eq]

theorem Checked.asked {verified : UrlMap} (h : w.Checked i verified) {chainId : U256} {url : Url}
    (known : w.config.lookup chainId = some url) :
    ∃ probe, (i, (chainId, url), probe) ∈ w.probes := by
  obtain ⟨reported, told, all, -⟩ := h
  have asked : (chainId, url) ∈ reported.map Prod.fst := all ▸ mem_sortedUrls.mpr known
  obtain ⟨⟨entry, probe⟩, mem, rfl⟩ := List.mem_map.mp asked
  exact ⟨probe, (told _).mpr mem⟩

/-- The gate is armed with what the endpoints answered last. -/
theorem Sound.lookup_verified (h : w.Sound n) (chainId : U256) :
    w.gate.verifiedUrls.lookup chainId = w.proved chainId := by
  unfold proved
  cases commits : w.commits with
  | nil => rw [(h.unarmed commits).1, List.lookup_nil]
  | cons last rest =>
    obtain ⟨pass, verified⟩ := last
    rw [(h.armed pass verified rest commits).1]
    exact (h.checked pass verified (commits ▸ List.mem_cons_self)).lookup chainId

theorem config_of_proved {chainId : U256} {url : Url} (h : w.proved chainId = some url) :
    w.config.lookup chainId = some url := by
  unfold proved at h
  split at h
  · cases h
  · exact (Option.filter_eq_some_iff.mp h).1

/-- Whatever mapping a service comes with. -/
theorem Sound.verifiedUrl (h : w.Sound n) (chainId : U256) (urls : UrlMap) :
    w.gate.verifiedUrl chainId urls = w.proved chainId := by
  rw [RpcIdentity.verifiedUrl, h.gated, ← h.lookup_verified]
  split
  · rfl
  · next none =>
    rw [not_not] at none
    rw [none]
    rfl

theorem Sound.verifiedWeb3 (h : w.Sound n) (chainId : U256) (urls : UrlMap) :
    w.gate.verifiedWeb3 chainId urls =
      ((w.proved chainId).filter (· ≠ "")).map clientForUrl := by
  rw [RpcIdentity.verifiedWeb3, h.verifiedUrl]

theorem Sound.isUrlVerified (h : w.Sound n) (chainId : U256) (url : Url) :
    w.gate.isUrlVerified chainId url = true ↔ w.proved chainId = some url := by
  rw [RpcIdentity.isUrlVerified, h.gated, ← h.lookup_verified]
  split
  · exact decide_eq_true_iff
  · next none =>
    rw [not_not] at none
    simp [none]

/-- Once a pass has committed, the settings hold what is served. -/
theorem Sound.chainRpcUrls (h : w.Sound n) (some : w.commits ≠ []) (chainId : U256) :
    w.gate.chainRpcUrls.lookup chainId = w.proved chainId := by
  obtain ⟨⟨pass, verified⟩, rest, commits⟩ := List.exists_cons_of_ne_nil some
  obtain ⟨urls, narrowed, -⟩ := h.armed pass verified rest commits
  rw [narrowed, ← urls, h.lookup_verified]

/-- A client is served for the endpoint that answered last, whatever the caches hold. -/
theorem Sound.requireVerifiedWeb3 (h : w.Sound n) (service : ℕ) (chainId : U256)
    (urls : UrlMap) :
    w.gate.requireVerifiedWeb3 chainId urls (w.caches service) =
      (((w.proved chainId).filter (· ≠ "")).map clientForUrl,
        Function.update (w.caches service) chainId
          (((w.proved chainId).filter (· ≠ "")).map clientForUrl)) := by
  rw [RpcIdentity.requireVerifiedWeb3, h.verifiedWeb3]
  cases answered : (w.proved chainId).filter (· ≠ "") with
  | none => rfl
  | some url =>
    have known := config_of_proved (Option.filter_eq_some_iff.mp answered).1
    have pinned : (w.caches service chainId).getD (clientForUrl url) = clientForUrl url := by
      cases cached : w.caches service chainId with
      | none => rfl
      | some w3 =>
        obtain ⟨url', known', rfl⟩ := h.cached service chainId w3 cached
        rw [known] at known'
        cases known'
        rfl
    simp only [Option.map_some, pinned]

theorem Sound.require (h : w.Sound n) (service : ℕ) (chainId : U256) (urls : UrlMap) :
    ({ w with
      caches := Function.update w.caches service
        (w.gate.requireVerifiedWeb3 chainId urls (w.caches service)).2 } : GateWorld).Sound n :=
  { h with
    cached := fun k c w3 held => by
      simp only [h.requireVerifiedWeb3] at held
      rcases eq_or_ne k service with rfl | other
      · rw [Function.update_self] at held
        rcases eq_or_ne c chainId with rfl | away
        · rw [Function.update_self] at held
          obtain ⟨url, served, rfl⟩ := Option.map_eq_some_iff.mp held
          exact ⟨url, config_of_proved (Option.filter_eq_some_iff.mp served).1, rfl⟩
        · rw [Function.update_of_ne away] at held
          exact h.cached k c w3 held
      · rw [Function.update_of_ne other] at held
        exact h.cached k c w3 held }

theorem Sound.arrive (h : w.Sound n) {started : Bool} (on : started = true) :
    ({ w with started := started } : GateWorld).Sound (n + 1) :=
  { h with
    idle := fun off => by simp [on] at off
    committed := fun i verified mem => Nat.lt_succ_of_lt (h.committed i verified mem)
    probed := fun i p mem => Nat.lt_succ_of_lt (h.probed i p mem) }

/-- A later pass asks everything that was configured at the start. -/
theorem Sound.configuredUrls (h : w.Sound n) {verified : UrlMap} {rest : List (ℕ × UrlMap)}
    (commits : w.commits = (i, verified) :: rest) :
    (if w.gate.configuredUrls ≠ [] then w.gate.configuredUrls else w.gate.chainRpcUrls) =
      w.config := by
  obtain ⟨-, urls, configured⟩ := h.armed i verified rest commits
  rw [configured, urls]
  split
  · rfl
  · next none =>
    rw [not_not] at none
    rw [none, List.eq_nil_iff_forall_not_mem]
    intro entry mem
    have known := (((h.checked i verified (commits ▸ List.mem_cons_self)).mem_iff entry).mp mem).1
    rw [none] at known
    cases known

theorem sound_process (config : UrlMap) : (process config).Sound 0 where
  idle _ := ⟨rfl, rfl⟩
  gated := rfl
  unarmed _ := ⟨rfl, rfl⟩
  armed i verified rest some := by cases some
  checked i verified mem := by cases mem
  committed i verified mem := by cases mem
  probed i p mem := by cases mem
  cached k c w3 held := by cases held

end GateWorld

theorem PassPhase.Knows.started {x : PassPhase} (h : x.Knows i w) :
    w.started = true ∨ x = .settled := by
  cases x with
  | opening => exact .inl h.2.1
  | checking | probing => exact .inl h.1
  | settled => exact .inr rfl

/-- What other passes know is kept by a probe, and by a commit. -/
theorem PassPhase.Knows.probe {x : PassPhase} {j : ℕ} (h : x.Knows j w) (ne : j ≠ i)
    (p : (U256 × Url) × Probe) :
    x.Knows j { w with probes := (i, p) :: w.probes } := by
  cases x with
  | opening => exact ⟨h.1, h.2.1, h.2.2.1, h.2.2.2.mono ne p⟩
  | checking => exact ⟨h.1, h.2.1, h.2.2.1.mono ne p, h.2.2.2⟩
  | probing => exact ⟨h.1, h.2.1, h.2.2.1, h.2.2.2.1, h.2.2.2.2.1.mono ne p, h.2.2.2.2.2⟩
  | settled => trivial

theorem PassPhase.Knows.commit {x : PassPhase} {j : ℕ} (h : x.Knows j w) (ne : j ≠ i)
    (first : w.commits = [] → i = 0) (verified : UrlMap) :
    x.Knows j { w with
      gate := w.gate.commitVerified verified
      commits := (i, verified) :: w.commits } := by
  have others {old : List (ℕ × UrlMap)} (own : ∀ v, (j, v) ∉ old) (v : UrlMap) :
      (j, v) ∉ (i, verified) :: old := by
    simp [ne, own]
  cases x with
  | opening => exact (ne (h.1.trans (first h.2.2.1).symm)).elim
  | checking => exact ⟨h.1, List.cons_ne_nil _ _, h.2.2.1, others h.2.2.2⟩
  | probing =>
    exact ⟨h.1, h.2.1, h.2.2.1, fun none => (List.cons_ne_nil _ _ none).elim, h.2.2.2.2.1,
      others h.2.2.2.2.2⟩
  | settled => trivial

/-- The first pass is alone until it commits. -/
theorem PassPhase.Knows.alone {x : PassPhase} {j : ℕ} (h : x.Knows j w) (ne : j ≠ 0)
    (none : w.commits = []) : x = .settled := by
  cases x with
  | opening => exact (ne h.1).elim
  | checking => exact (h.2.1 none).elim
  | probing => exact (ne (h.2.2.2.1 none)).elim
  | settled => rfl

theorem gate_respects (settings : RpcSettings) :
    (gateSystem settings).Respects passPhases (fun _ _ => True) fun _ _ => True where
  perform := by
    intro n i x op probe r w v _ sound hi known may performed
    cases op with
    | rememberConfigured =>
      cases Option.some.inj performed
      cases x with
      | opening =>
        obtain ⟨first, started, none, told⟩ := known
        refine ⟨⟨_, rfl⟩, sound.remember none, ⟨started, (sound.unarmed none).2,
          (sound.unarmed none).2, fun _ => first, told, by simp [none]⟩, fun j y ne hy => ?_⟩
        cases hy.alone (first ▸ ne) none
        trivial
      | checking | probing | settled => cases may
    | configuredUrls =>
      cases Option.some.inj performed
      cases x with
      | checking =>
        obtain ⟨started, some, told, own⟩ := known
        obtain ⟨⟨j, verified⟩, rest, commits⟩ := List.exists_cons_of_ne_nil some
        obtain ⟨-, -, configured⟩ := sound.armed j verified rest commits
        exact ⟨⟨_, rfl⟩, sound, ⟨started, sound.configuredUrls commits, configured,
          fun none => (some none).elim, told, own⟩, fun _ _ _ => id⟩
      | opening | probing | settled => cases may
    | probeChainId chainId url =>
      cases Option.some.inj performed
      cases x with
      | probing =>
        obtain ⟨started, same, configured, first, told, own⟩ := known
        exact ⟨⟨_, rfl⟩, sound.probe hi own _,
          ⟨started, same, configured, first, told.snoc _, own⟩, fun j y ne hy => hy.probe ne _⟩
      | opening | checking | settled => cases may
    | commitVerified verified =>
      cases Option.some.inj performed
      cases x with
      | probing =>
        obtain ⟨started, rfl, configured, first, told, own⟩ := known
        exact ⟨⟨_, rfl⟩, sound.commit hi started configured ⟨_, told, may⟩, trivial,
          fun j y ne hy => hy.commit ne first verified⟩
      | opening | checking | settled => cases may
    | isUrlVerified chainId url =>
      cases Option.some.inj performed
      refine ⟨⟨_, rfl⟩, sound, ?_, fun _ _ _ => id⟩
      cases x <;> exact known
  move := by
    intro n e w v _ sound moved
    cases e with
    | configure urls =>
      simp only [gateSystem, GateWorld.move] at moved
      split at moved
      · cases moved
      · next idle =>
        cases moved
        obtain ⟨rfl, -⟩ := sound.idle (Bool.not_eq_true _ ▸ idle)
        refine ⟨GateWorld.sound_process urls, fun j y hy => ?_⟩
        rcases hy.started with started | rfl
        · exact (idle started).elim
        · trivial
    | requireVerifiedWeb3 service chainId urls =>
      cases Option.some.inj moved
      exact ⟨sound.require service chainId urls, fun j y hy => by cases y <;> exact hy⟩
  start := by
    intro n p w v _ sound started
    have fresh : w.Told n [] := fun q =>
      ⟨fun mem => (Nat.lt_irrefl n (sound.probed n q mem)).elim, fun mem => nomatch mem⟩
    cases p with
    | startup =>
      simp only [gateSystem, GateWorld.start] at started
      split at started
      · cases started
      · next idle =>
        cases started
        obtain ⟨rfl, none⟩ := sound.idle (Bool.not_eq_true _ ▸ idle)
        exact ⟨sound.arrive rfl, ⟨.opening, initialize_follows settings, rfl, rfl, none, fresh⟩,
          fun j y lt => (Nat.not_lt_zero j lt).elim⟩
    | reverification =>
      simp only [gateSystem, GateWorld.start] at started
      split at started
      · cases started
      · next some =>
        cases started
        have started : w.started = true := by
          by_contra idle
          exact some (sound.idle (Bool.not_eq_true _ ▸ idle)).2
        exact ⟨sound.arrive started, ⟨.checking, reverify_follows, started, some, fresh,
          fun verified mem => Nat.lt_irrefl n (sound.committed n verified mem)⟩,
          fun _ _ _ hy => hy⟩
  leave _ sound := ⟨sound, trivial, fun _ _ _ => id⟩
  restart _ _ := GateWorld.sound_process _
  cancelled := trivial

/-- In every run of a process and its restarts, with the passes, their probes and the requests
of the services in any order: what the gate serves for a chain, through any cache and whatever
mapping it is asked with, is the configured endpoint that answered with the chain's own ID in
the pass committed last, and nothing before; and every pass that commits has asked everything
that was configured. -/
theorem gate_serves_proved (settings : RpcSettings) (config : UrlMap)
    (es : List (TaskEvent Probe GateMove PassKind)) :
    let w := ((gateSystem settings).machine.run ⟨.process config, []⟩ es).world
    (∀ service chainId urls,
      w.gate.requireVerifiedWeb3 chainId urls (w.caches service) =
        (((w.proved chainId).filter (· ≠ "")).map clientForUrl,
          Function.update (w.caches service) chainId
            (((w.proved chainId).filter (· ≠ "")).map clientForUrl)) ∧
      w.gate.verifiedWeb3 chainId urls = ((w.proved chainId).filter (· ≠ "")).map clientForUrl) ∧
    (∀ chainId url, w.gate.isUrlVerified chainId url = true ↔ w.proved chainId = some url) ∧
    (w.commits ≠ [] → ∀ chainId, w.gate.chainRpcUrls.lookup chainId = w.proved chainId) ∧
    ∀ pass verified, (pass, verified) ∈ w.commits → ∀ chainId url,
      w.config.lookup chainId = some url → ∃ probe, (pass, (chainId, url), probe) ∈ w.probes := by
  intro w
  have start : passPhases.Tracks (fun (_ : Except PassError UrlMap) _ => True)
      ⟨GateWorld.process config, []⟩ fun _ => .settled :=
    ⟨GateWorld.sound_process config, by simp⟩
  obtain ⟨_, tracks⟩ := (gate_respects settings).run start es fun _ _ => trivial
  have sound := tracks.world
  exact ⟨fun service chainId urls => ⟨sound.requireVerifiedWeb3 service chainId urls,
    sound.verifiedWeb3 chainId urls⟩, sound.isUrlVerified, sound.chainRpcUrls,
    fun pass verified mem chainId url => (sound.checked pass verified mem).asked⟩

end Respect

end Privana
