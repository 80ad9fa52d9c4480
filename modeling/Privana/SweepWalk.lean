import Privana.ListWalk
import Privana.SweepFiles

/-! One step of the loading, and what every walk over the listing keeps: a waiting file is untouched,
and what stands at a path of a deposit is waiting or comes from a file that described the deposit. -/

namespace Privana.SweepFiles
open CheckedArithmetic ListWalk

variable {P : Python} {directory : Directory} {load next : SweepLoad} {record : SweepRecord}
  {name path home content : Text} {visited waiting : List Text}

/-- The file under the name is a record of the deposit whose path is `home`. -/
def Describes (P : Python) (directory : Directory) (name home : Text) : Prop :=
  isSweepFile name ∧ ∃ content record, directory.lookup name = some content ∧
    readRecord P content = some (record, home)

theorem append_isSuffixOf (a b : Text) : b.isSuffixOf (a ++ b) = true :=
  List.isSuffixOf_iff_suffix.mpr (List.suffix_append a b)

theorem isSweepFile_of_homeOf (h : homeOf P record = some home) : isSweepFile home = true := by
  unfold homeOf recordPath at h
  split at h
  · dsimp only at h
    split_ifs at h
    cases h
    rw [isSweepFile, Bool.and_eq_true, List.append_assoc]
    refine ⟨List.isPrefixOf_iff_prefix.mpr (List.prefix_append _ _), ?_⟩
    rw [← List.append_assoc]
    exact append_isSuffixOf _ _
  · cases h

theorem homeOf_of_readRecord (h : readRecord P content = some (record, home)) :
    homeOf P record = some home := by
  unfold readRecord at h
  simp only [Option.bind_eq_bind, Option.bind_eq_some_iff, Option.some.injEq, Prod.mk.injEq] at h
  obtain ⟨_, -, record, -, home, found, rfl, rfl⟩ := h
  exact found

theorem isSweepFile_corruptName (name : Text) : isSweepFile (corruptName name) = false := by
  rw [isSweepFile, Bool.and_eq_false_iff]
  right
  rw [Bool.eq_false_iff]
  intro suffix
  obtain ⟨front, same⟩ := List.isSuffixOf_iff_suffix.mp suffix
  have ends := congrArg List.getLast? same
  simp only [corruptName, text] at ends
  simp [List.getLast?_append] at ends

theorem ne_corruptName (file : isSweepFile name = true) (path : Text) : name ≠ corruptName path := by
  rintro rfl
  rw [isSweepFile_corruptName] at file
  cases file

theorem mem_sweepFiles : name ∈ sweepFiles directory ↔ isSweepFile name = true ∧ name ∈ directory := by
  rw [sweepFiles, List.mem_insertionSort, List.mem_filter, AList.mem_keys, and_comm]

theorem sweepFiles_sorted (directory : Directory) : (sweepFiles directory).Pairwise (· ≤ ·) :=
  List.pairwise_insertionSort _ _

theorem sweepFiles_nodup (directory : Directory) : (sweepFiles directory).Nodup :=
  (List.perm_insertionSort _ _).nodup_iff.mpr (directory.keys_nodup.filter _)

theorem lookup_rename_of_ne {old new : Text} (h : name ≠ new) :
    (rename directory old new content).lookup name = (directory.erase old).lookup name :=
  AList.lookup_insert_ne h

theorem mem_of_lookup_eq_some (h : directory.lookup name = some content) : name ∈ directory :=
  AList.lookup_isSome.mp (h ▸ rfl)

theorem exists_lookup_of_mem (h : name ∈ directory) : ∃ content, directory.lookup name = some content :=
  Option.isSome_iff_exists.mp (AList.lookup_isSome.mpr h)

theorem mem_of_describes (h : Describes P directory name home) : name ∈ sweepFiles directory := by
  obtain ⟨file, content, record, found, -⟩ := h
  exact mem_sweepFiles.mpr ⟨file, mem_of_lookup_eq_some found⟩

theorem describes_congr {other : Directory} (h : directory.lookup name = other.lookup name) :
    Describes P directory name home ↔ Describes P other name home := by
  rw [Describes, Describes, h]

theorem Describes.isSweepFile_home (h : Describes P directory name home) :
    isSweepFile home = true := by
  obtain ⟨-, content, record, -, read⟩ := h
  exact isSweepFile_of_homeOf (homeOf_of_readRecord read)

/-- What the load of a file does. A file at the path of its deposit whose gas funding hash raises is
recorded and set aside. -/
inductive FileStep (P : Python) (load : SweepLoad) (path content : Text) (next : SweepLoad) : Prop
  | corrupt (unread : readRecord P content = none)
      (files : next.directory = rename load.directory path (corruptName path) content)
      (records : next.records = load.records)
  | dropped (record : SweepRecord) (home : Text) (read : readRecord P content = some (record, home))
      (legacy : path ≠ home) (exists_ : home ∈ load.directory)
      (files : next.directory = load.directory.erase path) (records : next.records = load.records)
  | own (record : SweepRecord) (read : readRecord P content = some (record, path))
      (hashes : gasFundingHashes P record ≠ none) (files : next.directory = load.directory)
      (records : next.records = load.records ++ [record])
  | moved (record : SweepRecord) (home : Text) (read : readRecord P content = some (record, home))
      (legacy : path ≠ home) (free : home ∉ load.directory)
      (hashes : gasFundingHashes P record ≠ none)
      (files : next.directory = rename load.directory path home content)
      (records : next.records = load.records ++ [record])
  | spoiled (record : SweepRecord) (read : readRecord P content = some (record, path))
      (hashes : gasFundingHashes P record = none)
      (files : next.directory = rename load.directory path (corruptName path) content)
      (records : next.records = load.records ++ [record])

theorem setAside_eq_ok (found : load.directory.lookup path = some content) :
    setAside load path = .ok { load with
      directory := rename load.directory path (corruptName path) content } := by
  rw [setAside, found]

theorem keepRecord_of_hashes (load : SweepLoad) (h : gasFundingHashes P record ≠ none) :
    ∃ next, keepRecord P load path record = .ok next ∧ next.directory = load.directory ∧
      next.records = load.records ++ [record] := by
  obtain ⟨hashes, some_hashes⟩ := Option.ne_none_iff_exists'.mp h
  simp only [keepRecord, some_hashes]
  exact ⟨_, rfl, rfl, rfl⟩

theorem keepRecord_of_raise (h : gasFundingHashes P record = none) :
    keepRecord P load path record =
      setAside { load with records := load.records ++ [record] } path := by
  simp only [keepRecord, h]

theorem loadFile_of_unread (found : load.directory.lookup path = some content)
    (unread : readRecord P content = none) : loadFile P load path = setAside load path := by
  simp only [loadFile, found, unread]

theorem loadFile_of_read (found : load.directory.lookup path = some content)
    (read : readRecord P content = some (record, home)) :
    loadFile P load path =
      if path = home then keepRecord P load path record
      else if home ∈ load.directory then
        .ok { load with directory := load.directory.erase path }
      else keepRecord P { load with directory := rename load.directory path home content } path
        record := by
  simp only [loadFile, found, read]

/-- A file is loaded in one of five ways, except if it was moved and its hash raises. -/
theorem loadFile_spec (found : load.directory.lookup path = some content) :
    (∃ next, loadFile P load path = .ok next ∧ FileStep P load path content next) ∨
      (∃ record home, readRecord P content = some (record, home) ∧ path ≠ home ∧
        home ∉ load.directory ∧ gasFundingHashes P record = none ∧
        ∃ e, loadFile P load path = .error e) := by
  cases read : readRecord P content with
  | none =>
    rw [loadFile_of_unread found read, setAside_eq_ok found]
    exact .inl ⟨_, rfl, .corrupt read rfl rfl⟩
  | some kept =>
    obtain ⟨record, home⟩ := kept
    rw [loadFile_of_read found read]
    by_cases same : path = home
    · subst same
      rw [if_pos rfl]
      by_cases hashes : gasFundingHashes P record = none
      · rw [keepRecord_of_raise hashes]
        exact .inl ⟨_, setAside_eq_ok found, .spoiled record read hashes rfl rfl⟩
      · obtain ⟨next, stepped, files, records⟩ := keepRecord_of_hashes load hashes
        exact .inl ⟨next, stepped, .own record read hashes files records⟩
    · rw [if_neg same]
      by_cases taken : home ∈ load.directory
      · rw [if_pos taken]
        exact .inl ⟨_, rfl, .dropped record home read same taken rfl rfl⟩
      · rw [if_neg taken]
        by_cases hashes : gasFundingHashes P record = none
        · have gone : (rename load.directory path home content).lookup path = none := by
            rw [lookup_rename_of_ne same, AList.lookup_erase]
          refine .inr ⟨record, home, rfl, same, taken, hashes, ⟨path⟩, ?_⟩
          rw [keepRecord_of_raise hashes, setAside]
          simp only [gone]
        · obtain ⟨next, stepped, files, records⟩ := keepRecord_of_hashes
            { load with directory := rename load.directory path home content } hashes
          exact .inl ⟨next, stepped, .moved record home read same taken hashes files records⟩

theorem loadFile_step (found : load.directory.lookup path = some content)
    (stepped : loadFile P load path = .ok next) : FileStep P load path content next := by
  obtain ⟨other, loaded, step⟩ | ⟨_, _, -, -, -, -, e, raised⟩ := loadFile_spec (P := P) found
  · rw [loaded] at stepped
    cases stepped
    exact step
  · rw [raised] at stepped
    cases stepped

/-- Another record file is as before, or the step moved its file there. -/
theorem FileStep.lookup (step : FileStep P load path content next) (file : isSweepFile name = true)
    (other : name ≠ path) :
    next.directory.lookup name = load.directory.lookup name ∨
      name ∉ load.directory ∧ ∃ record, readRecord P content = some (record, name) ∧
        gasFundingHashes P record ≠ none ∧ next.directory.lookup name = some content ∧
        next.records = load.records ++ [record] := by
  have kept := ne_corruptName file path
  cases step with
  | corrupt _ files _ =>
    rw [files, lookup_rename_of_ne kept]
    exact .inl (AList.lookup_erase_ne other)
  | dropped _ _ _ _ _ files _ =>
    rw [files]
    exact .inl (AList.lookup_erase_ne other)
  | own _ _ _ files _ => exact .inl (by rw [files])
  | moved record home read _ free hashes files records =>
    by_cases same : name = home
    · subst same
      exact .inr ⟨free, record, read, hashes, by rw [files, rename, AList.lookup_insert], records⟩
    · rw [files, lookup_rename_of_ne same]
      exact .inl (AList.lookup_erase_ne other)
  | spoiled _ _ _ files _ =>
    rw [files, lookup_rename_of_ne kept]
    exact .inl (AList.lookup_erase_ne other)

theorem FileStep.lookup_of_mem (step : FileStep P load path content next)
    (file : isSweepFile name = true) (other : name ≠ path) (present : name ∈ load.directory) :
    next.directory.lookup name = load.directory.lookup name := by
  obtain same | ⟨absent, -⟩ := step.lookup file other
  · exact same
  · exact (absent present).elim

theorem FileStep.mem_of_mem (step : FileStep P load path content next)
    (file : isSweepFile name = true) (other : name ≠ path) (present : name ∈ load.directory) :
    name ∈ next.directory := by
  rwa [← AList.lookup_isSome, step.lookup_of_mem file other present, AList.lookup_isSome]

/-- Only a file that is at the path of its deposit is there after its own step. -/
theorem FileStep.own_of_mem (step : FileStep P load path content next)
    (file : isSweepFile path = true) (present : path ∈ next.directory) :
    ∃ record, readRecord P content = some (record, path) := by
  have kept := ne_corruptName file path
  have gone : path ∉ load.directory.erase path := fun h => (AList.mem_erase.mp h).1 rfl
  rw [← AList.lookup_isSome] at present gone
  cases step with
  | corrupt _ files _ =>
    rw [files, lookup_rename_of_ne kept] at present
    exact (gone present).elim
  | dropped _ _ _ _ _ files _ =>
    rw [files] at present
    exact (gone present).elim
  | own record read _ _ _ => exact ⟨record, read⟩
  | moved _ _ _ legacy _ _ files _ =>
    rw [files, lookup_rename_of_ne legacy] at present
    exact (gone present).elim
  | spoiled record read _ _ _ => exact ⟨record, read⟩

/-- A legacy file takes the path of its deposit if that is free. -/
theorem FileStep.mem_of_free (step : FileStep P load path content next)
    (read : readRecord P content = some (record, home)) (other : path ≠ home)
    (free : home ∉ load.directory) : home ∈ next.directory := by
  cases step with
  | corrupt unread =>
    rw [read] at unread
    cases unread
  | dropped _ _ read' _ present =>
    rw [read] at read'
    cases read'
    exact (free present).elim
  | own _ read' =>
    rw [read] at read'
    cases read'
    exact (other rfl).elim
  | moved _ _ read' _ _ _ files =>
    rw [read] at read'
    cases read'
    rw [files]
    exact (AList.mem_insert _).mpr (.inl rfl)
  | spoiled _ read' =>
    rw [read] at read'
    cases read'
    exact (other rfl).elim

/-- The records of a step are those before it, and that of the file if it is recorded. -/
theorem FileStep.records_sublist (step : FileStep P load path content next) :
    load.records.Sublist next.records := by
  cases step with
  | corrupt _ _ records => rw [records]
  | dropped _ _ _ _ _ _ records => rw [records]
  | own _ _ _ _ records => exact records ▸ List.sublist_append_left _ _
  | moved _ _ _ _ _ _ _ records => exact records ▸ List.sublist_append_left _ _
  | spoiled _ _ _ _ records => exact records ▸ List.sublist_append_left _ _

/-- What holds between the steps of every loading. -/
structure Walked (P : Python) (directory : Directory) (visited waiting : List Text)
    (load : SweepLoad) : Prop where
  listing : visited ++ waiting = sweepFiles directory
  untouched : ∀ name ∈ waiting, load.directory.lookup name = directory.lookup name
  described : ∀ home, isSweepFile home = true → home ∈ load.directory → home ∉ waiting →
    ∃ name ∈ visited, Describes P directory name home

namespace Walked

theorem start (P : Python) (directory : Directory) (hashes : List Text) :
    Walked P directory [] (sweepFiles directory) ⟨directory, [], hashes⟩ where
  listing := rfl
  untouched _ _ := rfl
  described _ file present unlisted := (unlisted (mem_sweepFiles.mpr ⟨file, present⟩)).elim

variable (h : Walked P directory visited (path :: waiting) load)
include h

theorem listed (mem : name ∈ visited ∨ name ∈ path :: waiting) :
    isSweepFile name = true ∧ name ∈ directory :=
  mem_sweepFiles.mp (h.listing ▸ List.mem_append.mpr mem)

theorem found : ∃ content, directory.lookup path = some content ∧
    load.directory.lookup path = some content := by
  obtain ⟨content, found⟩ := exists_lookup_of_mem (h.listed (.inr List.mem_cons_self)).2
  exact ⟨content, found, (h.untouched path List.mem_cons_self).trans found⟩

theorem lt_path (mem : name ∈ visited) : name < path :=
  lt_of_visited (h.listing ▸ sweepFiles_sorted directory) (h.listing ▸ sweepFiles_nodup directory)
    mem

theorem path_lt (mem : name ∈ waiting) : path < name :=
  lt_of_waiting (h.listing ▸ sweepFiles_sorted directory) (h.listing ▸ sweepFiles_nodup directory)
    mem

/-- A waiting file is still there. -/
theorem mem_of_waiting (mem : name ∈ path :: waiting) : name ∈ load.directory := by
  rw [← AList.lookup_isSome, h.untouched name mem, AList.lookup_isSome]
  exact (h.listed (.inr mem)).2

theorem step (stepped : loadFile P load path = .ok next) :
    Walked P directory (visited ++ [path]) waiting next := by
  obtain ⟨content, found, loaded⟩ := h.found
  have fileStep := loadFile_step loaded stepped
  refine ⟨by rw [List.append_assoc, List.singleton_append, h.listing], ?_, ?_⟩
  · intro name mem
    have other : name ≠ path := (h.path_lt mem).ne'
    have file := (h.listed (.inr (List.mem_cons_of_mem _ mem))).1
    rw [← h.untouched name (List.mem_cons_of_mem _ mem)]
    exact fileStep.lookup_of_mem file other (h.mem_of_waiting (List.mem_cons_of_mem _ mem))
  · intro home file present unlisted
    by_cases same : home = path
    · subst same
      obtain ⟨record, read⟩ := fileStep.own_of_mem file present
      exact ⟨home, by simp, file, content, record, found, read⟩
    · obtain kept | ⟨-, record, read, -⟩ := fileStep.lookup file same
      · have before : home ∈ load.directory := by
          rwa [← AList.lookup_isSome, ← kept, AList.lookup_isSome]
        have unlisted : home ∉ path :: waiting := by
          rw [List.mem_cons]
          exact fun mem => mem.elim same unlisted
        obtain ⟨name, mem, describes⟩ := h.described home file before unlisted
        exact ⟨name, List.mem_append_left _ mem, describes⟩
      · exact ⟨path, by simp, (h.listed (.inr List.mem_cons_self)).1, content, record, found, read⟩

end Walked

end Privana.SweepFiles
