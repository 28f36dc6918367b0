import Mathlib.Data.Finset.Sort
import Mathlib.Data.List.Lex
import LocalServer.Library.HashMap
import LocalServer.Library.Path

/-! A tree of directories and regular files without links, as one process sees it. Every
system call resolves a path component by component and needs the permissions a POSIX
system asks for; a call that fails changes nothing. -/

namespace LocalServer.Library
open Utf8

structure Mode where
  read : Bool
  write : Bool
  search : Bool
  deriving DecidableEq, Repr

inductive Node where
  | file (mode : Mode) (contents : Bytes)
  | directory (mode : Mode)
  deriving DecidableEq, Repr

def Node.isDirectory : Node → Bool
  | .file .. => false
  | .directory _ => true

inductive IoError where
  | notFound
  | alreadyExists
  | notADirectory
  | isADirectory
  | permissionDenied
  | invalidInput
  deriving DecidableEq, Repr

/-- Nodes by their names from the root down. Whatever has a parent finds a directory there. -/
structure FileSystem where
  nodes : HashMap (List Name) Node
  /-- The working directory, which relative paths start from. -/
  cwd : List Name
  rootDirectory : ∃ mode, nodes.get [] = some (.directory mode)
  parentDirectory : ∀ parent name node, nodes.get (parent ++ [name]) = some node →
    ∃ mode, nodes.get parent = some (.directory mode)
  validNames : ∀ parent name node, nodes.get (parent ++ [name]) = some node → Path.ValidName name

namespace FileSystem

def node (fs : FileSystem) (place : List Name) : Option Node := fs.nodes.get place

/-- Only the root directory, which is also the working directory. -/
def bare : FileSystem where
  nodes := HashMap.empty.insert [] (.directory ⟨true, true, true⟩)
  cwd := []
  rootDirectory := ⟨⟨true, true, true⟩, HashMap.get_insert_self _ _ _⟩
  parentDirectory := by
    intro parent name node found
    rw [HashMap.get_insert_of_ne _ _ _ _ (by simp), HashMap.get_empty] at found
    cases found
  validNames := by
    intro parent name node found
    rw [HashMap.get_insert_of_ne _ _ _ _ (by simp), HashMap.get_empty] at found
    cases found

/-- Follows the components from a place; every place passed must be a directory that may
be searched. The last place need not exist. -/
def walk (fs : FileSystem) (place : List Name) : List Name → Except IoError (List Name)
  | [] => .ok place
  | component :: rest =>
    match fs.node place with
    | none => .error .notFound
    | some (.file ..) => .error .notADirectory
    | some (.directory mode) =>
      if mode.search then
        if component = Path.dot then fs.walk place rest
        else if component = Path.dotdot then fs.walk place.dropLast rest
        else fs.walk (place ++ [component]) rest
      else .error .permissionDenied

def start (fs : FileSystem) (path : Path) : List Name := if path.absolute then [] else fs.cwd

def resolve (fs : FileSystem) (path : Path) : Except IoError (List Name) :=
  if path.components.any (0 ∈ ·) then .error .invalidInput
  else if path.components = [] ∧ ¬path.absolute then .error .notFound
  else fs.walk (fs.start path) path.components

/-! System calls -/

def metadata (fs : FileSystem) (path : Path) : Except IoError Node :=
  match fs.resolve path with
  | .error e => .error e
  | .ok place =>
    match fs.node place with
    | none => .error .notFound
    | some (.directory mode) => .ok (.directory mode)
    | some (.file mode contents) =>
      if path.trailing then .error .notADirectory else .ok (.file mode contents)

def isDirectory (fs : FileSystem) (path : Path) : Bool :=
  match fs.metadata path with
  | .ok node => node.isDirectory
  | .error _ => false

def read (fs : FileSystem) (path : Path) : Except IoError Bytes :=
  match fs.metadata path with
  | .error e => .error e
  | .ok (.directory _) => .error .isADirectory
  | .ok (.file mode contents) => if mode.read then .ok contents else .error .permissionDenied

def byteOrder (first second : Name) : Prop :=
  first.map UInt8.toNat ≤ second.map UInt8.toNat

instance : DecidableRel byteOrder := fun first second =>
  inferInstanceAs (Decidable (first.map UInt8.toNat ≤ second.map UInt8.toNat))

instance : IsTrans Name byteOrder := ⟨fun _ _ _ => le_trans⟩

instance : Std.Total byteOrder := ⟨fun _ _ => le_total _ _⟩

instance : Std.Antisymm byteOrder := ⟨fun _ _ below above =>
  List.map_injective_iff.mpr (fun _ _ => UInt8.toNat_inj.mp) (le_antisymm below above)⟩

/-- The names in a directory, in byte order. -/
def entryNames (fs : FileSystem) (place : List Name) : List Name :=
  ((fs.nodes.keys.filter fun p => p ≠ [] ∧ p.dropLast = place).image fun p =>
    p.getLastD []).sort byteOrder

def readDir (fs : FileSystem) (path : Path) : Except IoError (List Name × List Name) :=
  match fs.resolve path with
  | .error e => .error e
  | .ok place =>
    match fs.node place with
    | none => .error .notFound
    | some (.file ..) => .error .notADirectory
    | some (.directory mode) =>
      if mode.read then .ok (place, fs.entryNames place) else .error .permissionDenied

theorem readDir_eq_ok {fs : FileSystem} {path : Path} {place names : List Name}
    (listed : fs.readDir path = .ok (place, names)) : fs.resolve path = .ok place ∧
      (∃ mode, fs.node place = some (.directory mode)) ∧ names = fs.entryNames place := by
  unfold readDir at listed
  cases resolved : fs.resolve path with
  | error failed =>
    rw [resolved] at listed
    cases listed
  | ok found =>
    rw [resolved] at listed
    dsimp only at listed
    cases here : fs.node found with
    | none =>
      rw [here] at listed
      cases listed
    | some node =>
      rw [here] at listed
      cases node with
      | file mode contents => cases listed
      | directory mode =>
        dsimp only at listed
        split_ifs at listed
        obtain ⟨rfl, rfl⟩ := Prod.mk.inj (Except.ok.inj listed)
        exact ⟨rfl, ⟨mode, here⟩, rfl⟩

theorem walk_append {fs : FileSystem} {place found : List Name} {first second : List Name}
    (walked : fs.walk place first = .ok found) :
    fs.walk place (first ++ second) = fs.walk found second := by
  induction first generalizing place with
  | nil =>
    cases walked
    rfl
  | cons component rest ih =>
    rw [List.cons_append, walk]
    rw [walk] at walked
    cases here : fs.node place with
    | none =>
      rw [here] at walked
      cases walked
    | some node =>
      rw [here] at walked
      cases node with
      | file mode contents => cases walked
      | directory mode =>
        dsimp only at walked ⊢
        split_ifs at walked ⊢
        all_goals exact ih walked

/-- A longer path is followed from where the shorter one leads. -/
theorem resolve_append {fs : FileSystem} {path longer : Path} {place below : List Name}
    (resolved : fs.resolve path = .ok place) (sameStart : longer.absolute = path.absolute)
    (components : longer.components = path.components ++ below) (plain : ∀ name ∈ below, 0 ∉ name) :
    fs.resolve longer = fs.walk place below := by
  unfold resolve at resolved ⊢
  split_ifs at resolved with nul nowhere
  rw [if_neg, if_neg, components, start, sameStart]
  · exact walk_append resolved
  · rw [components, sameStart, List.append_eq_nil_iff]
    exact fun both => nowhere ⟨both.1.1, both.2⟩
  · rw [components, List.any_append, Bool.or_eq_true, not_or]
    refine ⟨nul, ?_⟩
    simpa using plain

theorem walk_one {fs : FileSystem} {place : List Name} {mode : Mode} (component : Name)
    (here : fs.node place = some (.directory mode)) (searchable : mode.search = true) :
    fs.walk place [component] = .ok (if component = Path.dot then place
      else if component = Path.dotdot then place.dropLast else place ++ [component]) := by
  rw [walk, here]
  dsimp only
  rw [if_pos searchable]
  split_ifs <;> rfl

theorem validName_of_mem_entryNames {fs : FileSystem} {place : List Name} {name : Name}
    (member : name ∈ fs.entryNames place) : Path.ValidName name := by
  rw [entryNames, Finset.mem_sort, Finset.mem_image] at member
  obtain ⟨below, isKey, rfl⟩ := member
  obtain ⟨inKeys, nonempty, -⟩ := Finset.mem_filter.mp isKey
  obtain ⟨node, found⟩ := Finmap.mem_iff.mp (Finmap.mem_keys.mp inKeys)
  have shape : below.dropLast ++ [below.getLastD []] = below := by
    rw [List.getLastD_eq_getLast?, List.getLast?_eq_some_getLast nonempty, Option.getD_some,
      List.dropLast_append_getLast]
  exact fs.validNames below.dropLast _ node (by rw [shape]; exact found)

def entryMetadata (fs : FileSystem) (place : List Name) (name : Name) : Option Node :=
  match fs.node place with
  | some (.directory mode) => if mode.search then fs.node (place ++ [name]) else none
  | _ => none

/-- A node may be put at a place whose parent is a directory and which is no directory itself. -/
structure Fits (fs : FileSystem) (place : List Name) : Prop where
  parent : ∃ above name mode, place = above ++ [name] ∧ Path.ValidName name ∧
    fs.node above = some (.directory mode)
  free : ∀ mode, fs.node place ≠ some (.directory mode)

private theorem fits_ne_parent {fs : FileSystem} {place above : List Name} {name : Name} {node : Node}
    (fits : fs.Fits place) (below : fs.nodes.get (above ++ [name]) = some node) : above ≠ place := by
  intro same
  subst same
  obtain ⟨mode, isDirectory⟩ := fs.parentDirectory above name node below
  exact fits.free mode isDirectory

def put (fs : FileSystem) (place : List Name) (new : Node) (fits : fs.Fits place) : FileSystem where
  nodes := fs.nodes.insert place new
  cwd := fs.cwd
  rootDirectory := by
    obtain ⟨above, name, -, rfl, -, -⟩ := fits.parent
    rw [HashMap.get_insert_of_ne _ _ _ _ (by simp)]
    exact fs.rootDirectory
  parentDirectory := by
    intro parent name node found
    rw [HashMap.get_insert] at found
    split_ifs at found with same
    · obtain ⟨above, last, mode, shape, -, isDirectory⟩ := fits.parent
      obtain ⟨rfl, -⟩ := List.append_inj' (same.trans shape) rfl
      rw [HashMap.get_insert_of_ne _ _ _ _ (by rw [← same]; simp)]
      exact ⟨mode, isDirectory⟩
    · rw [HashMap.get_insert_of_ne _ _ _ _ (fits_ne_parent fits found)]
      exact fs.parentDirectory parent name node found
  validNames := by
    intro parent name node found
    rw [HashMap.get_insert] at found
    split_ifs at found with same
    · obtain ⟨above, last, mode, shape, valid, -⟩ := fits.parent
      obtain ⟨-, sameName⟩ := List.append_inj' (same.trans shape) rfl
      rw [List.singleton_inj] at sameName
      exact sameName ▸ valid
    · exact fs.validNames parent name node found

def erase (fs : FileSystem) (place : List Name)
    (free : ∀ mode, fs.node place ≠ some (.directory mode)) : FileSystem where
  nodes := fs.nodes.remove place
  cwd := fs.cwd
  rootDirectory := by
    obtain ⟨mode, isRoot⟩ := fs.rootDirectory
    have different : [] ≠ place := by
      intro same
      subst same
      exact free mode isRoot
    rw [HashMap.get_remove_of_ne _ _ _ different]
    exact ⟨mode, isRoot⟩
  parentDirectory := by
    intro parent name node found
    rw [HashMap.get_remove] at found
    split_ifs at found
    obtain ⟨mode, isDirectory⟩ := fs.parentDirectory parent name node found
    have different : parent ≠ place := by
      intro same
      subst same
      exact free mode isDirectory
    rw [HashMap.get_remove_of_ne _ _ _ different]
    exact ⟨mode, isDirectory⟩
  validNames := by
    intro parent name node found
    rw [HashMap.get_remove] at found
    split_ifs at found
    exact fs.validNames parent name node found

def newFile : Mode := ⟨true, true, false⟩
def newDirectory : Mode := ⟨true, true, true⟩

theorem fits_of_file {fs : FileSystem} {place : List Name} {mode : Mode} {contents : Bytes}
    (found : fs.node place = some (.file mode contents)) : fs.Fits place := by
  refine ⟨?_, fun other => by rw [found]; simp⟩
  rcases List.eq_nil_or_concat place with rfl | ⟨above, name, rfl⟩
  · obtain ⟨mode', isRoot⟩ := fs.rootDirectory
    rw [node, isRoot] at found
    simp at found
  · rw [List.concat_eq_append] at found ⊢
    obtain ⟨mode', isDirectory⟩ := fs.parentDirectory above name _ found
    exact ⟨above, name, mode', rfl, fs.validNames above name _ found, isDirectory⟩

theorem fits_of_free {fs : FileSystem} {place : List Name} {mode : Mode}
    (free : fs.node place = none) (named : place ≠ [] ∧ Path.ValidName (place.getLastD []))
    (parent : fs.node place.dropLast = some (.directory mode)) : fs.Fits place := by
  refine ⟨⟨place.dropLast, place.getLastD [], mode, ?_, named.2, parent⟩, fun other => by simp [free]⟩
  rw [List.getLastD_eq_getLast?, List.getLast?_eq_some_getLast named.1, Option.getD_some,
    List.dropLast_append_getLast named.1]

def openNew (fs : FileSystem) (place : List Name) (free : fs.node place = none) :
    Except IoError (PLift (fs.Fits place)) :=
  match parent : fs.node place.dropLast with
  | some (.directory mode) =>
    if named : place ≠ [] ∧ Path.ValidName (place.getLastD []) then
      if mode.write && mode.search then .ok ⟨fits_of_free free named parent⟩
      else .error .permissionDenied
    else .error .invalidInput
  | _ => .error .notFound

structure Writable (fs : FileSystem) where
  place : List Name
  mode : Mode
  fits : fs.Fits place

/-- `open` with `O_WRONLY`, `O_CREAT` and `O_TRUNC`. -/
def openWrite (fs : FileSystem) (path : Path) : Except IoError fs.Writable :=
  match fs.resolve path with
  | .error e => .error e
  | .ok place =>
    match found : fs.node place with
    | some (.directory _) => .error .isADirectory
    | some (.file mode _) =>
      if path.trailing then .error .notADirectory
      else if mode.write then .ok ⟨place, mode, fits_of_file found⟩
      else .error .permissionDenied
    | none =>
      if path.trailing then .error .isADirectory
      else match fs.openNew place found with
        | .error e => .error e
        | .ok fits => .ok ⟨place, newFile, fits.down⟩

def write (fs : FileSystem) (path : Path) (contents : Bytes) : Except IoError Unit × FileSystem :=
  match fs.openWrite path with
  | .error e => (.error e, fs)
  | .ok target => (.ok (), fs.put target.place (.file target.mode contents) target.fits)

def mkdir (fs : FileSystem) (path : Path) : Except IoError Unit × FileSystem :=
  match fs.resolve path with
  | .error e => (.error e, fs)
  | .ok place =>
    match found : fs.node place with
    | some _ => (.error .alreadyExists, fs)
    | none =>
      match fs.openNew place found with
      | .error e => (.error e, fs)
      | .ok fits => (.ok (), fs.put place (.directory newDirectory) fits.down)

def removeFile (fs : FileSystem) (path : Path) : Except IoError Unit × FileSystem :=
  match fs.resolve path with
  | .error e => (.error e, fs)
  | .ok place =>
    match found : fs.node place with
    | none => (.error .notFound, fs)
    | some (.directory _) => (.error .isADirectory, fs)
    | some (.file ..) =>
      if path.trailing then (.error .notADirectory, fs)
      else match fs.node place.dropLast with
        | some (.directory mode) =>
          if mode.write && mode.search then
            (.ok (), fs.erase place (fun other => by rw [found]; simp))
          else (.error .permissionDenied, fs)
        | _ => (.error .notFound, fs)

/-- `create_dir_all` on the components of a path, last component first. The empty relative
path is always there; so is `/`, which `mkdir` refuses and which is a directory. -/
def createDirs (fs : FileSystem) (absolute : Bool) : List Name → Except IoError Unit × FileSystem
  | [] => (.ok (), fs)
  | last :: earlier =>
    let path : Path := ⟨absolute, (last :: earlier).reverse, false⟩
    match fs.mkdir path with
    | (.ok (), made) => (.ok (), made)
    | (.error .notFound, _) =>
      match fs.createDirs absolute earlier with
      | (.error e, made) => (.error e, made)
      | (.ok (), made) =>
        match made.mkdir path with
        | (.ok (), made) => (.ok (), made)
        | (.error e, _) => if made.isDirectory path then (.ok (), made) else (.error e, made)
    | (.error e, _) => if fs.isDirectory path then (.ok (), fs) else (.error e, fs)

def createDirAll (fs : FileSystem) (path : Path) : Except IoError Unit × FileSystem :=
  fs.createDirs path.absolute path.normalComponents.reverse

/-! What the calls change -/

structure ChangedAt (place : List Name) (new : Option Node) (before after : FileSystem) : Prop where
  cwd : after.cwd = before.cwd
  node : ∀ other, after.node other = if other = place then new else before.node other

theorem changedAt_put (fs : FileSystem) (place : List Name) (new : Node) (fits : fs.Fits place) :
    ChangedAt place (some new) fs (fs.put place new fits) :=
  ⟨rfl, fun other => HashMap.get_insert fs.nodes place other new⟩

theorem changedAt_erase (fs : FileSystem) (place : List Name)
    (free : ∀ mode, fs.node place ≠ some (.directory mode)) :
    ChangedAt place none fs (fs.erase place free) :=
  ⟨rfl, fun other => HashMap.get_remove fs.nodes place other⟩

/-- A place opened for writing holds a file that may be written, or nothing. -/
theorem openWrite_ok {fs : FileSystem} {path : Path} {target : fs.Writable}
    (opened : fs.openWrite path = .ok target) :
    fs.resolve path = .ok target.place ∧ path.trailing = false ∧
      ((fs.node target.place = none ∧ target.mode = newFile) ∨
        ∃ old, fs.node target.place = some (.file target.mode old)) := by
  unfold openWrite at opened
  split at opened
  · cases opened
  · next place resolved =>
    split at opened
    · cases opened
    · next mode old found =>
      split_ifs at opened with trailing writable
      cases opened
      exact ⟨resolved, by simpa using trailing, Or.inr ⟨old, found⟩⟩
    · next found =>
      split_ifs at opened with trailing
      split at opened
      · cases opened
      · cases opened
        exact ⟨resolved, by simpa using trailing, Or.inl ⟨found, rfl⟩⟩

theorem write_cases (fs : FileSystem) (path : Path) (contents : Bytes) :
    (∃ e, fs.openWrite path = .error e ∧ fs.write path contents = (.error e, fs)) ∨
      ∃ target after, fs.openWrite path = .ok target ∧ fs.write path contents = (.ok (), after) ∧
        ChangedAt target.place (some (.file target.mode contents)) fs after := by
  unfold write
  cases opened : fs.openWrite path with
  | error e => exact Or.inl ⟨e, rfl, rfl⟩
  | ok target => exact Or.inr ⟨target, _, rfl, rfl, changedAt_put ..⟩

theorem mkdir_cases (fs : FileSystem) (path : Path) :
    (∃ e, fs.mkdir path = (.error e, fs)) ∨
      ∃ place after, fs.mkdir path = (.ok (), after) ∧ fs.resolve path = .ok place ∧
        fs.node place = none ∧ ChangedAt place (some (.directory newDirectory)) fs after := by
  unfold mkdir
  split
  · exact Or.inl ⟨_, rfl⟩
  · next place resolved =>
    split
    · exact Or.inl ⟨_, rfl⟩
    · next found =>
      split
      · exact Or.inl ⟨_, rfl⟩
      · exact Or.inr ⟨place, _, rfl, resolved, found, changedAt_put ..⟩

theorem removeFile_cases (fs : FileSystem) (path : Path) :
    (∃ e, fs.removeFile path = (.error e, fs)) ∨
      ∃ place mode contents after, fs.removeFile path = (.ok (), after) ∧
        fs.resolve path = .ok place ∧ path.trailing = false ∧
        fs.node place = some (.file mode contents) ∧ ChangedAt place none fs after := by
  unfold removeFile
  split
  · exact Or.inl ⟨_, rfl⟩
  · next place resolved =>
    split
    · exact Or.inl ⟨_, rfl⟩
    · exact Or.inl ⟨_, rfl⟩
    · next mode contents found =>
      split_ifs with trailing
      · exact Or.inl ⟨_, rfl⟩
      · split
        · split_ifs
          · exact Or.inr ⟨place, mode, contents, _, rfl, resolved, by simpa using trailing, found,
              changedAt_erase ..⟩
          · exact Or.inl ⟨_, rfl⟩
        · exact Or.inl ⟨_, rfl⟩

/-- Nothing is lost and only directories are new. -/
structure Grows (before after : FileSystem) : Prop where
  cwd : after.cwd = before.cwd
  kept : ∀ place node, before.node place = some node → after.node place = some node
  directories : ∀ place node, before.node place = none → after.node place = some node →
    node = .directory newDirectory

theorem Grows.refl (fs : FileSystem) : Grows fs fs :=
  ⟨rfl, fun _ _ found => found, fun _ _ absent found => by rw [absent] at found; cases found⟩

theorem Grows.trans {first second third : FileSystem} (early : Grows first second)
    (late : Grows second third) : Grows first third where
  cwd := late.cwd.trans early.cwd
  kept := fun place node found => late.kept place node (early.kept place node found)
  directories := by
    intro place node absent found
    cases between : second.node place with
    | none => exact late.directories place node between found
    | some middle =>
      have same := late.kept place middle between
      rw [found] at same
      cases same
      exact early.directories place node absent between

theorem grows_mkdir {fs after : FileSystem} {path : Path} {result : Except IoError Unit}
    (ran : fs.mkdir path = (result, after)) : Grows fs after := by
  rcases mkdir_cases fs path with ⟨e, failed⟩ | ⟨place, made, done, -, free, changed⟩
  · rw [ran] at failed
    cases failed
    exact Grows.refl fs
  · rw [ran] at done
    cases done
    refine ⟨changed.cwd, ?_, ?_⟩
    · intro other node found
      have different : other ≠ place := by
        intro same
        subst same
        rw [free] at found
        cases found
      rw [changed.node, if_neg different, found]
    · intro other node absent found
      rw [changed.node] at found
      split_ifs at found
      · cases found
        rfl
      · rw [absent] at found
        cases found

/-! What paths lead to afterwards -/

structure KeepsDirectories (before after : FileSystem) : Prop where
  cwd : after.cwd = before.cwd
  kept : ∀ place mode, before.node place = some (.directory mode) →
    after.node place = some (.directory mode)

theorem KeepsDirectories.refl (fs : FileSystem) : KeepsDirectories fs fs :=
  ⟨rfl, fun _ _ found => found⟩

theorem KeepsDirectories.trans {first second third : FileSystem}
    (early : KeepsDirectories first second) (late : KeepsDirectories second third) :
    KeepsDirectories first third :=
  ⟨late.cwd.trans early.cwd, fun place mode found => late.kept place mode (early.kept place mode found)⟩

theorem Grows.keepsDirectories {before after : FileSystem} (grows : Grows before after) :
    KeepsDirectories before after :=
  ⟨grows.cwd, fun place _ found => grows.kept place _ found⟩

theorem ChangedAt.keepsDirectories {place : List Name} {new : Option Node}
    {before after : FileSystem} (changed : ChangedAt place new before after)
    (free : ∀ mode, before.node place ≠ some (.directory mode)) : KeepsDirectories before after := by
  refine ⟨changed.cwd, ?_⟩
  intro other mode found
  have different : other ≠ place := by
    intro same
    subst same
    exact free mode found
  rw [changed.node, if_neg different, found]

theorem KeepsDirectories.walk {before after : FileSystem} (keeps : KeepsDirectories before after)
    {place found : List Name} {components : List Name}
    (walked : before.walk place components = .ok found) :
    after.walk place components = .ok found := by
  induction components generalizing place with
  | nil => exact walked
  | cons component components ih =>
    unfold FileSystem.walk at walked ⊢
    cases here : before.node place with
    | none =>
      rw [here] at walked
      cases walked
    | some node =>
      rw [here] at walked
      cases node with
      | file mode contents => cases walked
      | directory mode =>
        rw [keeps.kept place mode here]
        dsimp only at walked ⊢
        split_ifs at walked ⊢
        all_goals exact ih walked

theorem KeepsDirectories.resolve {before after : FileSystem} (keeps : KeepsDirectories before after)
    {path : Path} {place : List Name} (resolved : before.resolve path = .ok place) :
    after.resolve path = .ok place := by
  unfold FileSystem.resolve FileSystem.start at resolved ⊢
  split_ifs at resolved ⊢
  all_goals
    first
    | rw [keeps.cwd]; exact keeps.walk resolved
    | exact keeps.walk resolved

/-- New are only directories that the leading components of a path lead to. -/
structure CreatesAbove (absolute : Bool) (components : List Name) (before after : FileSystem) :
    Prop where
  grows : Grows before after
  led : ∀ place, after.node place ≠ before.node place →
    ∃ above, above <+: components ∧ after.resolve ⟨absolute, above, false⟩ = .ok place

section
variable {absolute : Bool} {components : List Name}

theorem CreatesAbove.refl (fs : FileSystem) : CreatesAbove absolute components fs fs :=
  ⟨Grows.refl fs, fun _ changed => absurd rfl changed⟩

theorem CreatesAbove.trans {first second third : FileSystem}
    (early : CreatesAbove absolute components first second)
    (late : CreatesAbove absolute components second third) :
    CreatesAbove absolute components first third := by
  refine ⟨early.grows.trans late.grows, ?_⟩
  intro place changed
  by_cases earlier : second.node place = first.node place
  · apply late.led
    rwa [earlier]
  · obtain ⟨above, isAbove, resolved⟩ := early.led place earlier
    exact ⟨above, isAbove, late.grows.keepsDirectories.resolve resolved⟩

theorem CreatesAbove.mono {fewer : List Name} {before after : FileSystem}
    (creates : CreatesAbove absolute fewer before after) (leading : fewer <+: components) :
    CreatesAbove absolute components before after := by
  refine ⟨creates.grows, ?_⟩
  intro place changed
  obtain ⟨above, isAbove, resolved⟩ := creates.led place changed
  exact ⟨above, isAbove.trans leading, resolved⟩

theorem CreatesAbove.directory {before after : FileSystem}
    (creates : CreatesAbove absolute components before after) {place : List Name}
    (changed : after.node place ≠ before.node place) :
    before.node place = none ∧ after.node place = some (.directory newDirectory) := by
  cases here : before.node place with
  | some node =>
    rw [here, creates.grows.kept place node here] at changed
    exact absurd rfl changed
  | none =>
    cases there : after.node place with
    | none =>
      rw [here, there] at changed
      exact absurd rfl changed
    | some node => exact ⟨rfl, by rw [creates.grows.directories place node here there]⟩

theorem createsAbove_mkdir {fs after : FileSystem} {result : Except IoError Unit}
    (ran : fs.mkdir ⟨absolute, components, false⟩ = (result, after)) :
    CreatesAbove absolute components fs after := by
  refine ⟨grows_mkdir ran, ?_⟩
  intro other changed
  rcases mkdir_cases fs ⟨absolute, components, false⟩ with
    ⟨e, failed⟩ | ⟨place, made, done, resolved, -, changedAt⟩
  · rw [ran] at failed
    cases failed
    exact absurd rfl changed
  · rw [ran] at done
    cases done
    have same : other = place := by
      by_contra different
      rw [changedAt.node, if_neg different] at changed
      exact changed rfl
    refine ⟨components, List.prefix_refl _, ?_⟩
    rw [same]
    exact (grows_mkdir ran).keepsDirectories.resolve resolved

theorem createsAbove_createDirs (fs : FileSystem) (reversed : List Name) :
    CreatesAbove absolute reversed.reverse fs (fs.createDirs absolute reversed).2 := by
  induction reversed with
  | nil => exact CreatesAbove.refl fs
  | cons last earlier ih =>
    have leading : earlier.reverse <+: (last :: earlier).reverse := by
      rw [List.reverse_cons]
      exact List.prefix_append _ _
    simp only [createDirs]
    split
    · next made ran => exact createsAbove_mkdir ran
    · split
      · next e made ran => exact (ran ▸ ih).mono leading
      · next made ran =>
        have first : CreatesAbove absolute (last :: earlier).reverse fs made := by
          rw [ran] at ih
          exact ih.mono leading
        split
        · next again ran' => exact first.trans (createsAbove_mkdir ran')
        · split_ifs <;> exact first
    · split_ifs <;> exact CreatesAbove.refl fs

end

theorem createsAbove_createDirAll (fs : FileSystem) (path : Path) :
    CreatesAbove path.absolute path.normalComponents fs (fs.createDirAll path).2 := by
  have creates : CreatesAbove path.absolute path.normalComponents.reverse.reverse fs
      (fs.createDirAll path).2 := createsAbove_createDirs fs _
  rwa [List.reverse_reverse] at creates

theorem metadata_of_resolve {fs : FileSystem} {path : Path} {place : List Name}
    (resolved : fs.resolve path = .ok place) (plain : path.trailing = false) :
    fs.metadata path = (fs.node place).elim (.error .notFound) .ok := by
  unfold metadata
  rw [resolved]
  dsimp only
  cases found : fs.node place with
  | none => rfl
  | some node =>
    cases node with
    | file mode contents => simp [plain]
    | directory mode => rfl

structure Holds (fs : FileSystem) (path : Path) (contents : Bytes) : Prop where
  plain : path.trailing = false
  found : ∃ place mode, fs.resolve path = .ok place ∧
    fs.node place = some (.file mode contents) ∧ mode.read = true

theorem Holds.metadata {fs : FileSystem} {path : Path} {contents : Bytes}
    (holds : fs.Holds path contents) : ∃ mode, fs.metadata path = .ok (.file mode contents) := by
  obtain ⟨place, mode, resolved, found, -⟩ := holds.found
  exact ⟨mode, by rw [metadata_of_resolve resolved holds.plain, found]; rfl⟩

theorem Holds.read {fs : FileSystem} {path : Path} {contents : Bytes}
    (holds : fs.Holds path contents) : fs.read path = .ok contents := by
  obtain ⟨place, mode, resolved, found, readable⟩ := holds.found
  unfold FileSystem.read
  rw [metadata_of_resolve resolved holds.plain, found]
  simp [readable]

theorem holds_of_read {fs : FileSystem} {path : Path} {contents : Bytes}
    (read : fs.read path = .ok contents) : fs.Holds path contents := by
  unfold FileSystem.read metadata at read
  cases resolved : fs.resolve path with
  | error e =>
    rw [resolved] at read
    cases read
  | ok place =>
    rw [resolved] at read
    dsimp only at read
    cases found : fs.node place with
    | none =>
      rw [found] at read
      cases read
    | some node =>
      rw [found] at read
      cases node with
      | directory mode => cases read
      | file mode old =>
        dsimp only at read
        split_ifs at read with trailing
        dsimp only at read
        split_ifs at read with readable
        cases read
        exact ⟨by simpa using trailing, place, mode, resolved, found, readable⟩

theorem directory_of_nil {fs : FileSystem} {path : Path} {place : List Name}
    (resolved : fs.resolve path = .ok place) (empty : path.components = []) :
    ∃ mode, fs.node place = some (.directory mode) := by
  unfold resolve start at resolved
  rw [empty] at resolved
  cases absolute : path.absolute with
  | false => simp [absolute] at resolved
  | true =>
    simp only [absolute, if_true, List.any_nil, walk] at resolved
    cases resolved
    exact fs.rootDirectory

theorem Holds.components_ne_nil {fs : FileSystem} {path : Path} {contents : Bytes}
    (holds : fs.Holds path contents) : path.components ≠ [] := by
  intro empty
  obtain ⟨place, mode, resolved, found, -⟩ := holds.found
  obtain ⟨mode', isDirectory⟩ := directory_of_nil resolved empty
  rw [isDirectory] at found
  cases found

/-- With a slash behind it the path of a file leads nowhere. -/
theorem Holds.trailing {fs : FileSystem} {path : Path} {contents : Bytes}
    (holds : fs.Holds path contents) :
    fs.metadata { path with trailing := true } = .error .notADirectory ∧
      fs.read { path with trailing := true } = .error .notADirectory := by
  obtain ⟨place, mode, resolved, found, -⟩ := holds.found
  have sameResolved : fs.resolve { path with trailing := true } = .ok place := resolved
  have refused : fs.metadata { path with trailing := true } = .error .notADirectory := by
    unfold FileSystem.metadata
    rw [sameResolved]
    dsimp only
    rw [found]
    rfl
  refine ⟨refused, ?_⟩
  unfold FileSystem.read
  rw [refused]

structure Lacks (fs : FileSystem) (path : Path) : Prop where
  plain : path.trailing = false
  missing : ∃ place, fs.resolve path = .ok place ∧ fs.node place = none

theorem Lacks.metadata {fs : FileSystem} {path : Path} (lacks : fs.Lacks path) :
    fs.metadata path = .error .notFound := by
  obtain ⟨place, resolved, free⟩ := lacks.missing
  rw [metadata_of_resolve resolved lacks.plain, free]
  rfl

theorem Lacks.components_ne_nil {fs : FileSystem} {path : Path} (lacks : fs.Lacks path) :
    path.components ≠ [] := by
  intro empty
  obtain ⟨place, resolved, free⟩ := lacks.missing
  obtain ⟨mode, isDirectory⟩ := directory_of_nil resolved empty
  rw [isDirectory] at free
  cases free

def SamePlace (fs : FileSystem) (first second : Path) : Prop :=
  ∃ place, fs.resolve first = .ok place ∧ fs.resolve second = .ok place

instance (fs : FileSystem) (first second : Path) : Decidable (fs.SamePlace first second) :=
  match resolved : fs.resolve first, resolved' : fs.resolve second with
  | .ok place, .ok place' =>
    decidable_of_iff (place = place') (by simp [SamePlace, resolved, resolved', eq_comm])
  | .error _, _ => isFalse (by simp [SamePlace, resolved])
  | .ok _, .error _ => isFalse (by simp [SamePlace, resolved'])

theorem Holds.grows {before after : FileSystem} {path : Path} {contents : Bytes}
    (holds : before.Holds path contents) (grows : Grows before after) :
    after.Holds path contents := by
  obtain ⟨place, mode, resolved, found, readable⟩ := holds.found
  exact ⟨holds.plain, place, mode, grows.keepsDirectories.resolve resolved,
    grows.kept place _ found, readable⟩

theorem Holds.changedAt {before after : FileSystem} {path other : Path} {contents : Bytes}
    {place : List Name} {new : Option Node} (holds : before.Holds path contents)
    (resolved : before.resolve other = .ok place) (apart : ¬before.SamePlace path other)
    (free : ∀ mode, before.node place ≠ some (.directory mode))
    (changed : ChangedAt place new before after) : after.Holds path contents := by
  obtain ⟨own, mode, ownResolved, found, readable⟩ := holds.found
  have different : own ≠ place := by
    intro same
    subst same
    exact apart ⟨own, ownResolved, resolved⟩
  refine ⟨holds.plain, own, mode, (changed.keepsDirectories free).resolve ownResolved, ?_, readable⟩
  rw [changed.node, if_neg different, found]

theorem Lacks.removed {before after : FileSystem} {path : Path} {place : List Name}
    (lacks : before.Lacks path) (free : ∀ mode, before.node place ≠ some (.directory mode))
    (changed : ChangedAt place none before after) : after.Lacks path := by
  obtain ⟨own, resolved, missing⟩ := lacks.missing
  refine ⟨lacks.plain, own, (changed.keepsDirectories free).resolve resolved, ?_⟩
  rw [changed.node]
  split_ifs
  · rfl
  · exact missing

/-- What was written under a path is what the path leads to. -/
theorem holds_of_write {before after : FileSystem} {path : Path} {target : before.Writable}
    {contents : Bytes} (opened : before.openWrite path = .ok target)
    (changed : ChangedAt target.place (some (.file target.mode contents)) before after)
    (readable : ∀ mode old, before.metadata path = .ok (.file mode old) → mode.read = true) :
    after.Holds path contents := by
  obtain ⟨resolved, plain, earlier⟩ := openWrite_ok opened
  refine ⟨plain, target.place, target.mode, ?_, by simp [changed.node], ?_⟩
  · exact (changed.keepsDirectories target.fits.free).resolve resolved
  · rcases earlier with ⟨free, created⟩ | ⟨old, found⟩
    · rw [created]
      rfl
    · apply readable target.mode old
      rw [metadata_of_resolve resolved plain, found]
      rfl

theorem lacks_of_remove {before after : FileSystem} {path : Path} {place : List Name}
    (resolved : before.resolve path = .ok place) (plain : path.trailing = false)
    (free : ∀ mode, before.node place ≠ some (.directory mode))
    (changed : ChangedAt place none before after) : after.Lacks path :=
  ⟨plain, place, (changed.keepsDirectories free).resolve resolved, by simp [changed.node]⟩

end FileSystem

end LocalServer.Library
