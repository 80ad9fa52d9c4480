import Privana.SweepWalk

/-! What the loading of the record files keeps. Every deposit that a file describes stays, if a file
that is dropped leaves a record at the path of its deposit and each record that is kept can be noted. -/

namespace Privana.SweepFiles
open CheckedArithmetic ListWalk

variable {P : Python} {directory : Directory} {load next loaded : SweepLoad} {record : SweepRecord}
  {name path home content : Text} {visited waiting : List Text}

/-- A file with the record is at the path of its deposit. -/
def StoredAt (P : Python) (directory : Directory) (home : Text) (record : SweepRecord) : Prop :=
  ∃ content, directory.lookup home = some content ∧ readRecord P content = some (record, home)

/-- What a call leaves: one record for each deposit, with its file, that a second call loads again. -/
structure Migrated (P : Python) (directory : Directory) (loaded : SweepLoad) : Prop where
  one_each : (loaded.records.map (homeOf P)).Nodup
  every : ∀ name home, Describes P directory name home →
    ∃ record ∈ loaded.records, homeOf P record = some home
  stored : ∀ record ∈ loaded.records, ∃ home, StoredAt P loaded.directory home record ∧
    ∃ name ∈ sweepFiles directory, directory.lookup name = loaded.directory.lookup home
  again : ∀ hashes, ∃ second, loadIncompleteSweeps P loaded.directory hashes = .ok second ∧
    second.records.Perm loaded.records ∧ second.directory = loaded.directory

/-- A legacy file goes for the file at the path of its deposit only if that is a record of it. -/
def DropsOnlyCopies (P : Python) (directory : Directory) (hashes : List Text) : Prop :=
  ∀ visited name waiting load, sweepFiles directory = visited ++ name :: waiting →
    visited.foldlM (loadFile P) ⟨directory, [], hashes⟩ = .ok load →
    ∀ home, Describes P load.directory name home → name ≠ home → home ∈ load.directory →
      Describes P load.directory home home

def KeepsDeposits (P : Python) (directory : Directory) : Prop :=
  ∀ hashes, DropsOnlyCopies P directory hashes ∧
    ∃ loaded, loadIncompleteSweeps P directory hashes = .ok loaded ∧ Migrated P directory loaded

/-- The file whose record is kept for a deposit: that at its path, else the first legacy file. -/
def Kept (P : Python) (directory : Directory) (home name : Text) : Prop :=
  Describes P directory name home ∧
    (name = home ∨
      ¬ Describes P directory home home ∧ ∀ other, Describes P directory other home → name ≤ other)

/-- Nothing is listed before a file at the path of its deposit that is no record of it, and the gas
funding hashes of the records that are kept are texts. -/
structure Loadable (P : Python) (directory : Directory) : Prop where
  copies : ∀ name home, Describes P directory name home → name < home → home ∈ directory →
    Describes P directory home home
  hashes : ∀ home name content record, Kept P directory home name →
    directory.lookup name = some content → readRecord P content = some (record, home) →
    gasFundingHashes P record ≠ none

/-- What holds between the steps of a loading that keeps every deposit. -/
structure Progress (P : Python) (directory : Directory) (visited waiting : List Text)
    (load : SweepLoad) : Prop extends Walked P directory visited waiting load where
  settled : ∀ home, isSweepFile home = true → home ∈ load.directory → home ∉ waiting →
    ∃ record ∈ load.records, StoredAt P load.directory home record ∧ gasFundingHashes P record ≠ none
  recorded : ∀ record ∈ load.records, ∃ home, StoredAt P load.directory home record ∧
    home ∉ waiting ∧ ∃ name ∈ visited, directory.lookup name = load.directory.lookup home
  one_each : (load.records.map (homeOf P)).Nodup
  served : ∀ name ∈ visited, ∀ home, Describes P directory name home →
    home ∈ load.directory ∧ (home ∈ waiting → Describes P directory home home)

theorem StoredAt.homeOf_eq (h : StoredAt P directory home record) : homeOf P record = some home := by
  obtain ⟨content, -, read⟩ := h
  exact homeOf_of_readRecord read

theorem StoredAt.mem (h : StoredAt P directory home record) : home ∈ directory := by
  obtain ⟨content, found, -⟩ := h
  exact mem_of_lookup_eq_some found

theorem StoredAt.isSweepFile (h : StoredAt P directory home record) : isSweepFile home = true :=
  isSweepFile_of_homeOf h.homeOf_eq

theorem storedAt_congr {other : Directory} (h : directory.lookup home = other.lookup home) :
    StoredAt P directory home record ↔ StoredAt P other home record := by
  rw [StoredAt, StoredAt, h]

theorem StoredAt.describes (h : StoredAt P directory home record) :
    Describes P directory home home := by
  obtain ⟨content, found, read⟩ := h
  exact ⟨isSweepFile_of_homeOf (homeOf_of_readRecord read), content, record, found, read⟩

theorem describes_iff (file : isSweepFile name = true) (found : directory.lookup name = some content) :
    Describes P directory name home ↔ ∃ record, readRecord P content = some (record, home) := by
  constructor
  · rintro ⟨-, other, record, other_found, read⟩
    rw [found] at other_found
    cases other_found
    exact ⟨record, read⟩
  · rintro ⟨record, read⟩
    exact ⟨file, content, record, found, read⟩

namespace Progress

theorem start (P : Python) (directory : Directory) (hashes : List Text) :
    Progress P directory [] (sweepFiles directory) ⟨directory, [], hashes⟩ where
  toWalked := Walked.start P directory hashes
  settled _ file present unlisted := (unlisted (mem_sweepFiles.mpr ⟨file, present⟩)).elim
  recorded _ mem := (List.not_mem_nil mem).elim
  one_each := List.nodup_nil
  served _ mem := (List.not_mem_nil mem).elim

variable (h : Progress P directory visited (path :: waiting) load)
include h

/-- A deposit without a file at its path was described by no file visited so far. -/
theorem path_le_of_free (free : home ∉ load.directory) (describes : Describes P directory name home) :
    path ≤ name := by
  have listed := mem_of_describes describes
  rw [← h.listing, List.mem_append] at listed
  obtain mem | mem := listed
  · exact (free (h.served name mem home describes).1).elim
  · obtain rfl | mem := List.mem_cons.mp mem
    · exact le_rfl
    · exact (h.path_lt mem).le

/-- A legacy file that is moved is the one whose record is kept. -/
theorem kept_of_free (free : home ∉ load.directory) (describes : Describes P directory path home) :
    Kept P directory home path := by
  refine ⟨describes, .inr ⟨fun own => ?_, fun other => h.path_le_of_free free⟩⟩
  have listed := mem_of_describes own
  rw [← h.listing, List.mem_append] at listed
  obtain mem | mem := listed
  · exact free (h.served home mem home own).1
  · exact free (h.mem_of_waiting mem)

theorem proceeds (condition : Loadable P directory) : ∃ next, loadFile P load path = .ok next := by
  obtain ⟨content, found, loaded⟩ := h.found
  obtain ⟨next, stepped, -⟩ | ⟨record, home, read, -, free, hashes, -⟩ := loadFile_spec (P := P) loaded
  · exact ⟨next, stepped⟩
  · have describes := (describes_iff (h.listed (.inr List.mem_cons_self)).1 found).mpr ⟨record, read⟩
    exact (condition.hashes home path content record (h.kept_of_free free describes) found read
      hashes).elim

/-- A record at the path of its deposit stays there and is noted. -/
theorem own (condition : Loadable P directory) (found : directory.lookup path = some content)
    (fileStep : FileStep P load path content next)
    (read : readRecord P content = some (record, path)) :
    gasFundingHashes P record ≠ none ∧ next.directory = load.directory ∧
      next.records = load.records ++ [record] := by
  cases fileStep with
  | corrupt unread => rw [read] at unread; cases unread
  | dropped other home read' legacy =>
    rw [read] at read'
    cases read'
    exact (legacy rfl).elim
  | own other read' hashes files records =>
    rw [read] at read'
    cases read'
    exact ⟨hashes, files, records⟩
  | moved other home read' legacy =>
    rw [read] at read'
    cases read'
    exact (legacy rfl).elim
  | spoiled other read' raises =>
    have describes := (describes_iff (h.listed (.inr List.mem_cons_self)).1 found).mpr ⟨_, read'⟩
    exact (condition.hashes path path content other ⟨describes, .inl rfl⟩ found read' raises).elim

/-- The path of a record is not waiting. -/
theorem not_mem_homes_of_waiting (waits : home ∈ path :: waiting) :
    some home ∉ load.records.map (homeOf P) := by
  intro mem
  obtain ⟨record, mem, same⟩ := List.mem_map.mp mem
  obtain ⟨home', stored, unlisted, -⟩ := h.recorded record mem
  rw [stored.homeOf_eq] at same
  cases same
  exact unlisted waits

theorem not_mem_homes_of_free (free : home ∉ load.directory) :
    some home ∉ load.records.map (homeOf P) := by
  intro mem
  obtain ⟨record, mem, same⟩ := List.mem_map.mp mem
  obtain ⟨home', stored, -⟩ := h.recorded record mem
  rw [stored.homeOf_eq] at same
  cases same
  exact free stored.mem

theorem path_not_mem : path ∉ waiting := fun mem => lt_irrefl _ (h.path_lt mem)

/-- The step adds no record, or one whose deposit had none. -/
theorem added (condition : Loadable P directory) (found : directory.lookup path = some content)
    (loaded : load.directory.lookup path = some content)
    (fileStep : FileStep P load path content next) :
    next.records = load.records ∨ ∃ record home, StoredAt P next.directory home record ∧
      next.records = load.records ++ [record] ∧
      directory.lookup path = next.directory.lookup home ∧ home ∉ waiting ∧
      some home ∉ load.records.map (homeOf P) := by
  have ownRecord (record) (read : readRecord P content = some (record, path)) :
      ∃ record home, StoredAt P next.directory home record ∧
        next.records = load.records ++ [record] ∧
        directory.lookup path = next.directory.lookup home ∧ home ∉ waiting ∧
        some home ∉ load.records.map (homeOf P) := by
    obtain ⟨-, files, records⟩ := h.own condition found fileStep read
    refine ⟨record, path, ⟨content, files ▸ loaded, read⟩, records, ?_, h.path_not_mem,
      h.not_mem_homes_of_waiting List.mem_cons_self⟩
    rw [files, found, loaded]
  cases fileStep with
  | corrupt _ _ records => exact .inl records
  | dropped _ _ _ _ _ _ records => exact .inl records
  | own record read => exact .inr (ownRecord record read)
  | spoiled record read => exact .inr (ownRecord record read)
  | moved record home read _ free _ files records =>
    have there : next.directory.lookup home = some content := by
      rw [files, rename, AList.lookup_insert]
    refine .inr ⟨record, home, ⟨content, there, read⟩, records, found.trans there.symm, ?_,
      h.not_mem_homes_of_free free⟩
    exact fun mem => free (h.mem_of_waiting (List.mem_cons_of_mem _ mem))

/-- What was found at the path of a deposit stays, if a record of it was found there. -/
theorem mem_next (condition : Loadable P directory) (found : directory.lookup path = some content)
    (fileStep : FileStep P load path content next) (file : isSweepFile home = true)
    (present : home ∈ load.directory) (own : home ∈ path :: waiting → Describes P directory home home) :
    home ∈ next.directory := by
  by_cases same : home = path
  · subst same
    obtain ⟨record, read⟩ := (describes_iff file found).mp (own List.mem_cons_self)
    obtain ⟨-, files, -⟩ := h.own condition found fileStep read
    exact files ▸ present
  · exact fileStep.mem_of_mem file same present

theorem step_settled (condition : Loadable P directory)
    (found : directory.lookup path = some content)
    (loaded : load.directory.lookup path = some content)
    (fileStep : FileStep P load path content next) (file : isSweepFile home = true)
    (present : home ∈ next.directory) (unlisted : home ∉ waiting) :
    ∃ record ∈ next.records, StoredAt P next.directory home record ∧
      gasFundingHashes P record ≠ none := by
  by_cases same : home = path
  · subst same
    obtain ⟨record, read⟩ := fileStep.own_of_mem file present
    obtain ⟨hashes, files, records⟩ := h.own condition found fileStep read
    exact ⟨record, by simp [records], ⟨content, files ▸ loaded, read⟩, hashes⟩
  · obtain kept | ⟨-, record, read, hashes, there, records⟩ := fileStep.lookup file same
    · have unlisted : home ∉ path :: waiting := by
        rw [List.mem_cons]
        exact fun mem => mem.elim same unlisted
      rw [← AList.lookup_isSome, kept, AList.lookup_isSome] at present
      obtain ⟨record, mem, stored, hashes⟩ := h.settled home file present unlisted
      exact ⟨record, fileStep.records_sublist.mem mem, (storedAt_congr kept).mpr stored, hashes⟩
    · exact ⟨record, by simp [records], ⟨content, there, read⟩, hashes⟩

theorem step_recorded (condition : Loadable P directory)
    (found : directory.lookup path = some content)
    (loaded : load.directory.lookup path = some content)
    (fileStep : FileStep P load path content next) (mem : record ∈ next.records) :
    ∃ home, StoredAt P next.directory home record ∧ home ∉ waiting ∧
      ∃ name ∈ visited ++ [path], directory.lookup name = next.directory.lookup home := by
  have old (before : record ∈ load.records) : ∃ home, StoredAt P next.directory home record ∧
      home ∉ waiting ∧
      ∃ name ∈ visited ++ [path], directory.lookup name = next.directory.lookup home := by
    obtain ⟨home, stored, unlisted, name, visits, source⟩ := h.recorded record before
    have other : home ≠ path := fun same => unlisted (same ▸ List.mem_cons_self)
    have kept := fileStep.lookup_of_mem stored.isSweepFile other stored.mem
    exact ⟨home, (storedAt_congr kept).mpr stored,
      fun mem => unlisted (List.mem_cons_of_mem _ mem), name, List.mem_append_left _ visits,
      source.trans kept.symm⟩
  obtain records | ⟨new, home, stored, records, source, unlisted, -⟩ :=
    h.added condition found loaded fileStep
  · exact old (records ▸ mem)
  · rw [records, List.mem_append, List.mem_singleton] at mem
    obtain mem | rfl := mem
    · exact old mem
    · exact ⟨home, stored, unlisted, path, by simp, source⟩

theorem step_one_each (condition : Loadable P directory)
    (found : directory.lookup path = some content)
    (loaded : load.directory.lookup path = some content)
    (fileStep : FileStep P load path content next) : (next.records.map (homeOf P)).Nodup := by
  obtain records | ⟨record, home, stored, records, -, -, fresh⟩ :=
    h.added condition found loaded fileStep
  · rw [records]
    exact h.one_each
  · rw [records, List.map_append, List.map_singleton, stored.homeOf_eq, List.nodup_append]
    refine ⟨h.one_each, List.nodup_singleton _, ?_⟩
    intro old mem new same
    rw [List.mem_singleton.mp same]
    exact fun same => fresh (same ▸ mem)

theorem step_served (condition : Loadable P directory)
    (found : directory.lookup path = some content)
    (loaded : load.directory.lookup path = some content)
    (fileStep : FileStep P load path content next) (mem : name ∈ visited ++ [path])
    (describes : Describes P directory name home) :
    home ∈ next.directory ∧ (home ∈ waiting → Describes P directory home home) := by
  have kept (present : home ∈ load.directory)
      (own : home ∈ path :: waiting → Describes P directory home home) :
      home ∈ next.directory ∧ (home ∈ waiting → Describes P directory home home) :=
    ⟨h.mem_next condition found fileStep describes.isSweepFile_home present own,
      fun mem => own (List.mem_cons_of_mem _ mem)⟩
  rw [List.mem_append, List.mem_singleton] at mem
  obtain mem | rfl := mem
  · obtain ⟨present, own⟩ := h.served name mem home describes
    exact kept present own
  · by_cases present : home ∈ load.directory
    · refine kept present fun mem => ?_
      obtain rfl | mem := List.mem_cons.mp mem
      · exact describes
      · exact condition.copies name home describes (h.path_lt mem)
          (h.listed (.inr (List.mem_cons_of_mem _ mem))).2
    · obtain ⟨record, read⟩ :=
        (describes_iff (h.listed (.inr List.mem_cons_self)).1 found).mp describes
      have legacy : name ≠ home := fun same => present (same ▸ mem_of_lookup_eq_some loaded)
      exact ⟨fileStep.mem_of_free read legacy present,
        fun mem => (present (h.mem_of_waiting (List.mem_cons_of_mem _ mem))).elim⟩

theorem step (condition : Loadable P directory) (stepped : loadFile P load path = .ok next) :
    Progress P directory (visited ++ [path]) waiting next := by
  obtain ⟨content, found, loaded⟩ := h.found
  have fileStep := loadFile_step loaded stepped
  exact {
    toWalked := h.toWalked.step stepped
    settled := fun _ => h.step_settled condition found loaded fileStep
    recorded := fun _ => h.step_recorded condition found loaded fileStep
    one_each := h.step_one_each condition found loaded fileStep
    served := fun _ mem _ => h.step_served condition found loaded fileStep mem }

end Progress

/-- Where each record is at its path, the files are loaded as they are. -/
theorem walk_of_stored (load : SweepLoad) {names : List Text} (stored : ∀ name ∈ names, ∃ record,
      StoredAt P load.directory name record ∧ gasFundingHashes P record ≠ none) :
    ∃ records hashes, names.foldlM (loadFile P) load =
        .ok ⟨load.directory, load.records ++ records, hashes⟩ ∧
      records.map (homeOf P) = names.map some ∧
      ∀ record ∈ records, ∃ home ∈ names, StoredAt P load.directory home record := by
  induction names generalizing load with
  | nil => exact ⟨[], load.gasFundingTxHashes, by simp [pure_eq_ok], rfl, by simp⟩
  | cons name names ih =>
    obtain ⟨record, at_home, hashes⟩ := stored name List.mem_cons_self
    obtain ⟨content, found, read⟩ := at_home
    obtain ⟨next, kept, files, records⟩ := keepRecord_of_hashes load hashes
    have stepped := (loadFile_of_read found read).trans ((if_pos rfl).trans kept)
    obtain ⟨added, noted, walked, homes, from_files⟩ := ih next fun other mem =>
      files ▸ stored other (List.mem_cons_of_mem _ mem)
    refine ⟨record :: added, noted, ?_, ?_, ?_⟩
    · rw [foldlM_cons_eq_ok]
      refine ⟨next, stepped, ?_⟩
      rw [walked, files, records, List.append_assoc, List.singleton_append]
    · rw [List.map_cons, List.map_cons, homes, homeOf_of_readRecord read]
    · intro other mem
      obtain rfl | mem := List.mem_cons.mp mem
      · exact ⟨name, List.mem_cons_self, content, found, read⟩
      · obtain ⟨home, listed, at_home⟩ := from_files other mem
        exact ⟨home, List.mem_cons_of_mem _ listed, files ▸ at_home⟩

theorem StoredAt.unique {other : SweepRecord} (h : StoredAt P directory home record)
    (h' : StoredAt P directory home other) : record = other := by
  obtain ⟨content, found, read⟩ := h
  obtain ⟨content', found', read'⟩ := h'
  rw [found] at found'
  cases found'
  rw [read] at read'
  cases read'
  rfl

/-- What is left by a walk to the end. -/
theorem Progress.migrated (h : Progress P directory (sweepFiles directory) [] loaded) :
    Migrated P directory loaded where
  one_each := h.one_each
  every name home describes := by
    obtain ⟨present, -⟩ := h.served name (mem_of_describes describes) home describes
    obtain ⟨record, mem, stored, -⟩ :=
      h.settled home describes.isSweepFile_home present List.not_mem_nil
    exact ⟨record, mem, stored.homeOf_eq⟩
  stored record mem := by
    obtain ⟨home, stored, -, source⟩ := h.recorded record mem
    exact ⟨home, stored, source⟩
  again hashes := by
    have stored : ∀ name ∈ sweepFiles loaded.directory, ∃ record,
        StoredAt P loaded.directory name record ∧ gasFundingHashes P record ≠ none := by
      intro name mem
      obtain ⟨file, present⟩ := mem_sweepFiles.mp mem
      obtain ⟨record, -, stored⟩ := h.settled name file present List.not_mem_nil
      exact ⟨record, stored⟩
    obtain ⟨records, noted, walked, homes, from_files⟩ :=
      walk_of_stored ⟨loaded.directory, [], hashes⟩ stored
    refine ⟨_, walked, ?_, rfl⟩
    have nodup : records.Nodup := by
      refine List.Nodup.of_map (homeOf P) ?_
      rw [homes]
      exact (sweepFiles_nodup _).map (Option.some_injective _)
    refine (List.perm_ext_iff_of_nodup nodup h.one_each.of_map).mpr fun record => ?_
    constructor
    · intro mem
      obtain ⟨home, listed, stored⟩ := from_files record mem
      obtain ⟨file, present⟩ := mem_sweepFiles.mp listed
      obtain ⟨other, mem, stored', -⟩ := h.settled home file present List.not_mem_nil
      exact stored.unique stored' ▸ mem
    · intro mem
      obtain ⟨home, stored, -⟩ := h.recorded record mem
      have listed := mem_sweepFiles.mpr ⟨stored.isSweepFile, stored.mem⟩
      obtain ⟨other, mem, same⟩ : ∃ other ∈ records, homeOf P other = some home := by
        rw [← List.mem_map, homes]
        exact List.mem_map_of_mem listed
      obtain ⟨home', -, stored'⟩ := from_files other mem
      rw [stored'.homeOf_eq] at same
      cases same
      exact stored'.unique stored ▸ mem

/-- A loading under the condition keeps every deposit. -/
theorem Loadable.keeps (condition : Loadable P directory) : KeepsDeposits P directory := by
  intro hashes
  have step : ∀ visited path waiting load next, Progress P directory visited (path :: waiting) load →
      loadFile P load path = .ok next → Progress P directory (visited ++ [path]) waiting next :=
    fun _ _ _ _ _ h => h.step condition
  have start := Progress.start P directory hashes
  refine ⟨?_, ?_⟩
  · intro visited name waiting load listing walked home describes legacy present
    rw [listing] at start
    have h := walk_keeps step start walked
    rw [List.nil_append] at h
    by_cases waits : home ∈ waiting
    · have file := (h.listed (.inr (List.mem_cons_of_mem _ waits))).2
      refine (describes_congr (h.untouched home (List.mem_cons_of_mem _ waits))).mpr ?_
      exact condition.copies name home
        ((describes_congr (h.untouched name List.mem_cons_self)).mp describes) (h.path_lt waits) file
    · have unlisted : home ∉ name :: waiting := by
        rw [List.mem_cons]
        exact fun mem => mem.elim (fun same => legacy same.symm) waits
      obtain ⟨record, -, stored, -⟩ :=
        h.settled home describes.isSweepFile_home present unlisted
      exact stored.describes
  · obtain ⟨loaded, walked, h⟩ := walk_ends step
      (fun visited path waiting load h => h.proceeds condition) start
    rw [List.nil_append] at h
    exact ⟨loaded, walked, h.migrated⟩

/-- A record whose file is gone from its path, or another record of the same deposit. -/
def Spoiled (P : Python) (home : Text) (load : SweepLoad) : Prop :=
  some home ∈ load.records.map (homeOf P) ∧ home ∉ load.directory ∨
    2 ≤ (load.records.map (homeOf P)).count (some home)

theorem Migrated.not_spoiled (h : Migrated P directory loaded) : ¬ Spoiled P home loaded := by
  rintro (⟨mem, gone⟩ | twice)
  · obtain ⟨record, mem, same⟩ := List.mem_map.mp mem
    obtain ⟨home', stored, -⟩ := h.stored record mem
    rw [stored.homeOf_eq] at same
    cases same
    exact gone stored.mem
  · have once := List.nodup_iff_count_le_one.mp h.one_each (some home)
    omega

theorem loadFile_found (stepped : loadFile P load path = .ok next) :
    ∃ content, load.directory.lookup path = some content := by
  cases found : load.directory.lookup path with
  | some content => exact ⟨content, rfl⟩
  | none =>
    simp only [loadFile, setAside, found] at stepped
    cases stepped

theorem Spoiled.step (file : isSweepFile home = true) (path : Text) (load next : SweepLoad)
    (h : Spoiled P home load) (stepped : loadFile P load path = .ok next) : Spoiled P home next := by
  obtain ⟨content, found⟩ := loadFile_found stepped
  have fileStep := loadFile_step found stepped
  have homes := fileStep.records_sublist.map (homeOf P)
  obtain ⟨mem, gone⟩ | twice := h
  · by_cases present : home ∈ next.directory
    · have other : home ≠ path := fun same => gone (same ▸ mem_of_lookup_eq_some found)
      obtain kept | ⟨-, record, read, -, -, records⟩ := fileStep.lookup file other
      · rw [← AList.lookup_isSome, kept, AList.lookup_isSome] at present
        exact (gone present).elim
      · right
        have once := List.count_pos_iff.mpr mem
        rw [records, List.map_append, List.map_singleton, homeOf_of_readRecord read,
          List.count_append, List.count_singleton_self]
        omega
    · exact .inl ⟨homes.mem mem, present⟩
  · exact .inr (twice.trans (homes.count_le _))

/-- The load up to a file of the listing, and its step. -/
theorem walked_to {hashes : List Text} (h : Describes P directory name home)
    (walked : loadIncompleteSweeps P directory hashes = .ok loaded) :
    ∃ visited waiting load next, sweepFiles directory = visited ++ name :: waiting ∧
      visited.foldlM (loadFile P) ⟨directory, [], hashes⟩ = .ok load ∧
      Walked P directory visited (name :: waiting) load ∧ loadFile P load name = .ok next ∧
      waiting.foldlM (loadFile P) next = .ok loaded := by
  obtain ⟨visited, waiting, listing⟩ := List.append_of_mem (mem_of_describes h)
  have start := Walked.start P directory hashes
  rw [loadIncompleteSweeps, listing] at walked
  rw [listing] at start
  obtain ⟨load, before, next, stepped, after⟩ := foldlM_split_eq_ok.mp walked
  have between := walk_keeps (fun _ _ _ _ _ h => Walked.step h) start before
  exact ⟨visited, waiting, load, next, listing, before, between, stepped, after⟩

/-- Where every deposit is kept, a file is dropped only for a record of its deposit. -/
theorem KeepsDeposits.copies (h : KeepsDeposits P directory)
    (describes : Describes P directory name home) (before : name < home)
    (present : home ∈ directory) : Describes P directory home home := by
  obtain ⟨drops, loaded, walked, -⟩ := h []
  obtain ⟨visited, waiting, load, next, listing, before_walk, between, -⟩ :=
    walked_to describes walked
  have waits : home ∈ name :: waiting := by
    have listed := mem_sweepFiles.mpr ⟨describes.isSweepFile_home, present⟩
    rw [listing, List.mem_append] at listed
    obtain mem | mem := listed
    · exact (lt_asymm before (between.lt_path mem)).elim
    · exact mem
  have dropped := drops visited name waiting load listing before_walk home
    ((describes_congr (between.untouched name List.mem_cons_self)).mpr describes) before.ne
    (between.mem_of_waiting waits)
  exact (describes_congr (between.untouched home waits)).mp dropped

/-- Where every deposit is kept, the hash of a record that is kept does not raise. -/
theorem KeepsDeposits.hashes (h : KeepsDeposits P directory) (kept : Kept P directory home name)
    (found : directory.lookup name = some content)
    (read : readRecord P content = some (record, home)) : gasFundingHashes P record ≠ none := by
  obtain ⟨-, loaded, walked, migrated⟩ := h []
  obtain ⟨visited, waiting, load, next, -, -, between, stepped, after⟩ := walked_to kept.1 walked
  have there := (between.untouched name List.mem_cons_self).trans found
  have free (legacy : name ≠ home) : home ∉ load.directory := by
    obtain same | ⟨no_own, first⟩ := kept.2
    · exact (legacy same).elim
    · intro present
      by_cases waits : home ∈ waiting
      · exact no_own (h.copies kept.1 (between.path_lt waits)
          (between.listed (.inr (List.mem_cons_of_mem _ waits))).2)
      · have unlisted : home ∉ name :: waiting := by
          rw [List.mem_cons]
          exact fun mem => mem.elim (fun same => legacy same.symm) waits
        obtain ⟨other, mem, describes⟩ :=
          between.described home kept.1.isSweepFile_home present unlisted
        exact not_lt_of_ge (first other describes) (between.lt_path mem)
  have alike {other : SweepRecord} {home' : Text}
      (read' : readRecord P content = some (other, home')) : other = record ∧ home' = home := by
    rw [read] at read'
    cases read'
    exact ⟨rfl, rfl⟩
  cases loadFile_step there stepped with
  | corrupt unread =>
    rw [read] at unread
    cases unread
  | dropped other home' read' legacy present =>
    obtain ⟨-, rfl⟩ := alike read'
    exact (free legacy present).elim
  | own other read' hashes =>
    obtain ⟨rfl, -⟩ := alike read'
    exact hashes
  | moved other home' read' _ _ hashes =>
    obtain ⟨rfl, -⟩ := alike read'
    exact hashes
  | spoiled other read' _ files records =>
    obtain ⟨rfl, rfl⟩ := alike read'
    have spoiled : Spoiled P name next := by
      refine .inl ⟨?_, ?_⟩
      · rw [records, List.map_append, List.mem_append, List.map_singleton, homeOf_of_readRecord read]
        exact .inr (List.mem_singleton_self _)
      · rw [files, ← AList.lookup_isSome, lookup_rename_of_ne (ne_corruptName kept.1.1 name),
          AList.lookup_erase]
        exact Bool.false_ne_true
    exact (migrated.not_spoiled
      (walk_keeps_always (Spoiled.step kept.1.isSweepFile_home) spoiled after)).elim

/-- The loading keeps every deposit exactly if no legacy file is listed before a file at the path of
its deposit that is no record of it, and the gas funding hashes of the kept records can be noted. -/
theorem sweep_files_keep_deposits (P : Python) (directory : Directory) :
    KeepsDeposits P directory ↔ Loadable P directory :=
  ⟨fun h => ⟨fun _ _ => h.copies, fun _ _ _ _ => h.hashes⟩, Loadable.keeps⟩

section Sample

def samplePython : Python where
  lower := Privana.lower
  floatIsZero _ := false
  floatNotPositive _ := false

def sampleRecord : Text :=
  text "\x7b\"deposit_address\":\"0xaa\",\"chain_id\":84532,\"state\":\"gas_funded\"," ++
    text "\"beneficiary\":\"0xbb\",\"chain_type\":\"evm\",\"version\":0,\"deposit_id_hex\":\"0x" ++
    List.replicate 64 '2' ++ text "\"\x7d"

def sampleHome : Text := text "sweep_" ++ List.replicate 64 '2' ++ text ".json"

/-- A legacy file, and a torn file at the path of its deposit. -/
def sampleDirectory : Directory :=
  [⟨text "sweep_0xaa_84532.json", sampleRecord⟩, ⟨sampleHome, text "\x7b"⟩].toAList

theorem sampleDirectory_read :
    (readRecord samplePython sampleRecord).map Prod.snd = some sampleHome ∧
      sampleDirectory.lookup (text "sweep_0xaa_84532.json") = some sampleRecord ∧
      (loadIncompleteSweeps samplePython sampleDirectory []).toOption.map
        (·.records.map (homeOf samplePython)) = some [] := by
  decide +kernel

/-- The deposit of the legacy file is lost with it. -/
theorem sweep_file_lost : ¬ KeepsDeposits samplePython sampleDirectory := by
  intro h
  obtain ⟨read, found, records⟩ := sampleDirectory_read
  obtain ⟨-, loaded, walked, migrated⟩ := h []
  obtain ⟨⟨record, home⟩, read, rfl⟩ := Option.map_eq_some_iff.mp read
  have file : isSweepFile (text "sweep_0xaa_84532.json") = true := by decide
  obtain ⟨other, mem, -⟩ := migrated.every _ _ ⟨file, _, record, found, read⟩
  rw [walked] at records
  cases records' : loaded.records with
  | nil => rw [records'] at mem; cases mem
  | cons a as => simp [Except.toOption, records'] at records

end Sample

end Privana.SweepFiles
