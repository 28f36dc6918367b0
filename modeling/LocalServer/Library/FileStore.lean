import LocalServer.Library.FileSystem
import Mathlib.Logic.Function.Basic

/-! A file system as a store. Paths into directories that are there stand for keys, and what the
files at these paths hold for the values. -/

namespace LocalServer.Library.FileSystem
open Utf8

structure Settled (fs : FileSystem) (path : Path) (place : List Name) : Prop where
  plain : path.trailing = false
  resolved : fs.resolve path = .ok place
  above : ∀ parent, path.parent = some parent → fs.isDirectory parent = true
  named : place ≠ [] ∧ Path.ValidName (place.getLastD [])
  entered : ∃ mode, fs.node place.dropLast = some (.directory mode) ∧
    (mode.write && mode.search) = true

/-- At the place is a file that can be read and written, with these contents, or nothing. -/
def Contains (fs : FileSystem) (place : List Name) : Option Bytes → Prop
  | none => fs.node place = none
  | some contents => ∃ mode, fs.node place = some (.file mode contents) ∧
      mode.read = true ∧ mode.write = true

structure Stores {κ : Type*} (fs : FileSystem) (path : κ → Path) (place : κ → List Name)
    (store : κ → Option Bytes) : Prop where
  settled : ∀ key, fs.Settled (path key) (place key)
  apart : Function.Injective place
  contained : ∀ key, fs.Contains (place key) (store key)

section
variable {fs before after : FileSystem} {path : Path} {place : List Name}

theorem resolve_of_isDirectory (isThere : fs.isDirectory path = true) :
    ∃ place mode, fs.resolve path = .ok place ∧ fs.node place = some (.directory mode) := by
  unfold isDirectory metadata at isThere
  cases resolved : fs.resolve path with
  | error e =>
    rw [resolved] at isThere
    cases isThere
  | ok place =>
    rw [resolved] at isThere
    dsimp only at isThere
    cases found : fs.node place with
    | none =>
      rw [found] at isThere
      cases isThere
    | some node =>
      rw [found] at isThere
      cases node with
      | directory mode => exact ⟨place, mode, rfl, found⟩
      | file mode contents =>
        dsimp only at isThere
        split_ifs at isThere
        cases isThere

theorem isDirectory_of_resolve {mode : Mode} (resolved : fs.resolve path = .ok place)
    (found : fs.node place = some (.directory mode)) : fs.isDirectory path = true := by
  unfold isDirectory metadata
  rw [resolved]
  dsimp only
  rw [found]
  rfl

theorem KeepsDirectories.isDirectory (keeps : KeepsDirectories before after)
    (isThere : before.isDirectory path = true) : after.isDirectory path = true := by
  obtain ⟨place, mode, resolved, found⟩ := resolve_of_isDirectory isThere
  exact isDirectory_of_resolve (keeps.resolve resolved) (keeps.kept place mode found)

theorem mkdir_of_isDirectory (isThere : fs.isDirectory path = true) :
    fs.mkdir path = (.error .alreadyExists, fs) := by
  obtain ⟨place, mode, resolved, found⟩ := resolve_of_isDirectory isThere
  unfold mkdir
  rw [resolved]
  dsimp only
  split
  · rfl
  · next free =>
    rw [found] at free
    cases free

theorem createDirAll_parent {parent : Path} (isParent : path.parent = some parent)
    (isThere : fs.isDirectory parent = true) : fs.createDirAll parent = (.ok (), fs) := by
  unfold Path.parent at isParent
  split_ifs at isParent
  cases isParent
  unfold createDirAll
  rw [Path.normalComponents_leading (List.dropLast_prefix _)]
  rcases List.eq_nil_or_concat path.normalComponents.dropLast with empty | ⟨earlier, last, shape⟩
  · rw [empty]
    rfl
  · rw [shape, List.concat_eq_append] at isThere ⊢
    rw [List.reverse_append, List.reverse_singleton, List.singleton_append, createDirs]
    simp only [List.reverse_cons, List.reverse_reverse]
    rw [mkdir_of_isDirectory isThere]
    dsimp only
    rw [if_pos isThere]

/-! Settled paths -/

theorem Settled.kept (settled : before.Settled path place) (keeps : KeepsDirectories before after) :
    after.Settled path place := by
  obtain ⟨mode, found, permitted⟩ := settled.entered
  exact ⟨settled.plain, keeps.resolve settled.resolved,
    fun parent isParent => keeps.isDirectory (settled.above parent isParent), settled.named,
    mode, keeps.kept _ mode found, permitted⟩

theorem Contains.free {value : Option Bytes} (contains : fs.Contains place value) (mode : Mode) :
    fs.node place ≠ some (.directory mode) := by
  cases value with
  | none =>
    unfold Contains at contains
    rw [contains]
    nofun
  | some contents =>
    obtain ⟨mode', found, -, -⟩ := contains
    rw [found]
    simp

theorem Settled.holds {contents : Bytes} (settled : fs.Settled path place)
    (contains : fs.Contains place (some contents)) : fs.Holds path contents := by
  obtain ⟨mode, found, readable, -⟩ := contains
  exact ⟨settled.plain, place, mode, settled.resolved, found, readable⟩

theorem Settled.lacks (settled : fs.Settled path place) (contains : fs.Contains place none) :
    fs.Lacks path :=
  ⟨settled.plain, place, settled.resolved, contains⟩

theorem Settled.openWrite {value : Option Bytes} (settled : fs.Settled path place)
    (contains : fs.Contains place value) : ∃ target, fs.openWrite path = .ok target ∧
      target.place = place ∧ target.mode.read = true ∧ target.mode.write = true := by
  unfold FileSystem.openWrite
  rw [settled.resolved]
  dsimp only
  split
  · next mode found => exact absurd found (contains.free mode)
  · next mode old found =>
    rw [if_neg (by simp [settled.plain])]
    cases value with
    | none =>
      unfold Contains at contains
      rw [contains] at found
      cases found
    | some contents =>
      obtain ⟨mode', found', readable, writable⟩ := contains
      rw [found'] at found
      cases found
      rw [if_pos writable]
      exact ⟨_, rfl, rfl, readable, writable⟩
  · next free =>
    rw [if_neg (by simp [settled.plain])]
    obtain ⟨mode, entered, permitted⟩ := settled.entered
    have opened : ∃ fits, fs.openNew place free = .ok fits := by
      unfold openNew
      split
      · next mode' found =>
        rw [entered] at found
        cases found
        rw [dif_pos settled.named, if_pos permitted]
        exact ⟨_, rfl⟩
      · next other => exact absurd entered (other mode)
    obtain ⟨fits, opened⟩ := opened
    rw [opened]
    exact ⟨_, rfl, rfl, rfl, rfl⟩

theorem Settled.write {value : Option Bytes} (settled : fs.Settled path place)
    (contains : fs.Contains place value) (contents : Bytes) :
    ∃ mode after, fs.write path contents = (.ok (), after) ∧ mode.read = true ∧ mode.write = true ∧
      ChangedAt place (some (.file mode contents)) fs after := by
  obtain ⟨target, opened, rfl, readable, writable⟩ := settled.openWrite contains
  unfold FileSystem.write
  rw [opened]
  exact ⟨target.mode, _, rfl, readable, writable, changedAt_put ..⟩

theorem Settled.removeFile {contents : Bytes} (settled : fs.Settled path place)
    (contains : fs.Contains place (some contents)) :
    ∃ after, fs.removeFile path = (.ok (), after) ∧ ChangedAt place none fs after := by
  obtain ⟨mode, found, -, -⟩ := contains
  obtain ⟨mode', entered, permitted⟩ := settled.entered
  unfold FileSystem.removeFile
  rw [settled.resolved]
  dsimp only
  split
  · next free =>
    rw [found] at free
    cases free
  · next other isDirectory =>
    rw [found] at isDirectory
    cases isDirectory
  · rw [if_neg (by simp [settled.plain]), entered]
    dsimp only
    rw [if_pos permitted]
    exact ⟨_, rfl, changedAt_erase ..⟩

theorem Settled.removeFile_missing (settled : fs.Settled path place)
    (contains : fs.Contains place none) : fs.removeFile path = (.error .notFound, fs) := by
  unfold FileSystem.removeFile
  rw [settled.resolved]
  dsimp only
  split
  · rfl
  · next mode isDirectory => exact absurd isDirectory (contains.free mode)
  · next mode contents found =>
    unfold Contains at contains
    rw [contains] at found
    cases found

end

section
variable {κ : Type*} [DecidableEq κ] {before after : FileSystem} {path : κ → Path}
  {place : κ → List Name} {store : κ → Option Bytes}

/-- A change at a key's place changes its value and no other one. -/
theorem Stores.changedAt (stores : before.Stores path place store) {key : κ} {new : Option Node}
    (changed : ChangedAt (place key) new before after) {value : Option Bytes}
    (contains : after.Contains (place key) value) :
    after.Stores path place (Function.update store key value) := by
  have keeps := changed.keepsDirectories (stores.contained key).free
  refine ⟨fun other => (stores.settled other).kept keeps, stores.apart, ?_⟩
  intro other
  by_cases same : other = key
  · subst same
    rwa [Function.update_self]
  · have elsewhere : place other ≠ place key := fun both => same (stores.apart both)
    have unchanged : after.node (place other) = before.node (place other) := by
      rw [changed.node, if_neg elsewhere]
    have known := stores.contained other
    rw [Function.update_of_ne same]
    unfold Contains at known ⊢
    rwa [unchanged]

theorem Stores.write (stores : before.Stores path place store) (key : κ) (contents : Bytes) :
    ∃ after, before.write (path key) contents = (.ok (), after) ∧
      after.Stores path place (Function.update store key (some contents)) := by
  obtain ⟨mode, after, written, readable, writable, changed⟩ :=
    (stores.settled key).write (stores.contained key) contents
  refine ⟨after, written, stores.changedAt changed ?_⟩
  exact ⟨mode, by rw [changed.node, if_pos rfl], readable, writable⟩

theorem Stores.removeFile (stores : before.Stores path place store) {key : κ} {contents : Bytes}
    (known : store key = some contents) :
    ∃ after, before.removeFile (path key) = (.ok (), after) ∧
      after.Stores path place (Function.update store key none) := by
  have contains := stores.contained key
  rw [known] at contains
  obtain ⟨after, removed, changed⟩ := (stores.settled key).removeFile contains
  refine ⟨after, removed, stores.changedAt changed ?_⟩
  exact (changed.node _).trans (if_pos rfl)

end

theorem walk_of_dot {fs : FileSystem} {place found : List Name} {rest : List Name}
    (walked : fs.walk place (Path.dot :: rest) = .ok found) : fs.walk place rest = .ok found := by
  unfold walk at walked
  cases here : fs.node place with
  | none =>
    rw [here] at walked
    cases walked
  | some node =>
    rw [here] at walked
    cases node with
    | file mode contents => cases walked
    | directory mode =>
      dsimp only at walked
      rw [if_pos rfl] at walked
      split_ifs at walked
      exact walked

theorem walk_cons_of {fs : FileSystem} {place found : List Name} {component : Name}
    {rest shorter : List Name}
    (later : ∀ next, fs.walk next rest = .ok found → fs.walk next shorter = .ok found)
    (walked : fs.walk place (component :: rest) = .ok found) :
    fs.walk place (component :: shorter) = .ok found := by
  unfold walk at walked ⊢
  cases here : fs.node place with
  | none =>
    rw [here] at walked
    cases walked
  | some node =>
    rw [here] at walked
    cases node with
    | file mode contents => cases walked
    | directory mode =>
      dsimp only at walked ⊢
      split_ifs at walked ⊢
      all_goals exact later _ walked

theorem walk_filter_dot {fs : FileSystem} {place found : List Name} {components : List Name}
    (walked : fs.walk place components = .ok found) :
    fs.walk place (components.filter (· ≠ Path.dot)) = .ok found := by
  induction components generalizing place with
  | nil => exact walked
  | cons component rest ih =>
    by_cases isDot : component = Path.dot
    · rw [List.filter_cons_of_neg (by simpa using isDot)]
      exact ih (walk_of_dot (isDot ▸ walked))
    · rw [List.filter_cons_of_pos (by simpa using isDot)]
      exact walk_cons_of (fun next => ih) walked

theorem walk_normal {fs : FileSystem} {path : Path} {place found : List Name}
    (walked : fs.walk place path.components = .ok found) :
    fs.walk place path.normalComponents = .ok found := by
  unfold Path.normalComponents
  cases components : path.components with
  | nil => rwa [components] at walked
  | cons first rest =>
    rw [components] at walked
    dsimp only
    split_ifs with dropped
    · have filtered := walk_filter_dot walked
      rwa [List.filter_cons_of_neg (by simpa using dropped.1)] at filtered
    · exact walk_cons_of (fun next => walk_filter_dot) walked

/-- Without its `.` a path leads where it led. -/
theorem resolve_normal {fs : FileSystem} {path : Path} {place : List Name}
    (resolved : fs.resolve path = .ok place) :
    fs.resolve ⟨path.absolute, path.normalComponents, false⟩ = .ok place := by
  unfold resolve at resolved ⊢
  split_ifs at resolved with nul nowhere
  rw [if_neg, if_neg]
  · exact walk_normal resolved
  · rintro ⟨empty, relative⟩
    apply nowhere
    refine ⟨?_, relative⟩
    unfold Path.normalComponents at empty
    cases components : path.components with
    | nil => rfl
    | cons first rest =>
      have keepsFirst : ¬(first = Path.dot ∧ path.absolute = true) := fun both => relative both.2
      rw [components] at empty
      dsimp only at empty
      rw [if_neg keepsFirst] at empty
      cases empty
  · intro anyNul
    obtain ⟨name, member, hasNul⟩ := List.any_eq_true.mp anyNul
    exact nul (List.any_eq_true.mpr ⟨name, Path.mem_of_mem_normalComponents member, hasNul⟩)

theorem settled_entry {fs : FileSystem} {root path : Path} {base : List Name} {name : Name}
    {mode : Mode} (resolved : fs.resolve root = .ok base)
    (found : fs.node base = some (.directory mode)) (permitted : (mode.write && mode.search) = true)
    (anchored : root.absolute = true ∨ root.components ≠ []) (valid : Path.ValidName name)
    (sameStart : path.absolute = root.absolute) (components : path.components = root.components ++ [name])
    (plain : path.trailing = false) : fs.Settled path (base ++ [name]) := by
  have searchable : mode.search = true := (Bool.and_eq_true_iff.mp permitted).2
  refine ⟨plain, ?_, ?_, ⟨by simp, ?_⟩, mode, ?_, permitted⟩
  · rw [resolve_append resolved sameStart components (by simpa using valid.noNul),
      walk_one name found searchable, if_neg valid.notDot, if_neg valid.notDotdot]
  · intro parent isParent
    have normal := Path.normalComponents_append sameStart components anchored
    rw [List.filter_cons_of_pos (by simpa using valid.notDot), List.filter_nil] at normal
    unfold Path.parent at isParent
    rw [normal, List.dropLast_concat, sameStart, if_neg (by simp)] at isParent
    cases isParent
    exact isDirectory_of_resolve (resolve_normal resolved) found
  · rw [List.getLastD_concat]
    exact valid
  · rwa [List.dropLast_concat]

end LocalServer.Library.FileSystem
