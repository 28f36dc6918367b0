import Mathlib.Data.List.DropRight
import LocalServer.Library.Utf8

/-! POSIX path names. A path keeps its components as written; reading them lexically
removes `.` and lets `..` take back the component before it. -/

namespace LocalServer.Library
open Utf8

abbrev Name := Bytes

structure Path where
  absolute : Bool
  /-- The components between slashes, without empty ones. -/
  components : List Name
  /-- A slash stands after the last component. -/
  trailing : Bool
  deriving DecidableEq, Repr

namespace Path

def slash : UInt8 := 47
def dot : Name := [46]
def dotdot : Name := [46, 46]

structure ValidName (name : Name) : Prop where
  nonempty : name ≠ []
  noSlash : slash ∉ name
  noNul : 0 ∉ name
  notDot : name ≠ dot
  notDotdot : name ≠ dotdot

instance (name : Name) : Decidable (ValidName name) :=
  decidable_of_iff (name ≠ [] ∧ slash ∉ name ∧ 0 ∉ name ∧ name ≠ dot ∧ name ≠ dotdot)
    ⟨fun h => ⟨h.1, h.2.1, h.2.2.1, h.2.2.2.1, h.2.2.2.2⟩,
      fun h => ⟨h.1, h.2, h.3, h.4, h.5⟩⟩

def split (bytes : Bytes) : List Name := (bytes.splitOnP (· == slash)).filter (· ≠ [])

def ofBytes (bytes : Bytes) : Path where
  absolute := bytes.head? = some slash
  components := split bytes
  trailing := bytes.getLast? = some slash && split bytes ≠ []

/-- `Path::components`: every `.` is dropped, except one that starts a relative path. -/
def normalComponents (path : Path) : List Name :=
  match path.components with
  | [] => []
  | first :: rest =>
    (if first = dot ∧ path.absolute then [] else [first]) ++ rest.filter (· ≠ dot)

/-- `Path::parent`: the path without its last component. -/
def parent (path : Path) : Option Path :=
  if path.normalComponents = [] then none
  else some ⟨path.absolute, path.normalComponents.dropLast, false⟩

/-- A piece between slashes that is a component: not empty and no `.`, but for a `.` that
starts a relative path. -/
def isComponent (first : Bool) (piece : List Char) : Bool :=
  piece ≠ [] && (piece ≠ ['.'] || first)

def dropNonComponents (pieces : List (List Char)) : List (List Char) :=
  match pieces with
  | [] => []
  | first :: rest => first :: rest.rdropWhile (!isComponent false ·)

/-- `Path::parent` on the text of a path. The pieces before the last component stand as
they were written. -/
def parentText (text : List Char) : Option (List Char) :=
  match dropNonComponents (text.splitOnP (· == '/')) with
  | [] => none
  | [first] => if isComponent true first then some [] else none
  | first :: rest =>
    match dropNonComponents (first :: rest.dropLast) with
    | [[]] => some ['/']
    | pieces => some (List.intercalate ['/'] pieces)

/-! Lexical resolution -/

/-- Where a path leads lexically: `up` levels above the start, then down along `names`. -/
structure Lexical where
  up : Nat
  names : List Name
  deriving DecidableEq, Repr

/-- One component. Above the root of an absolute path there is only the root again. -/
def lexicalStep (absolute : Bool) (at' : Lexical) (component : Name) : Lexical :=
  if component = dot then at'
  else if component = dotdot then
    if at'.names = [] then ⟨if absolute then 0 else at'.up + 1, []⟩
    else ⟨at'.up, at'.names.dropLast⟩
  else ⟨at'.up, at'.names ++ [component]⟩

def lexical (path : Path) : Lexical :=
  path.components.foldl (lexicalStep path.absolute) ⟨0, []⟩

/-- `path` leads into the directory that `root` leads to, or is that directory. -/
structure Inside (root path : Path) : Prop where
  sameStart : path.absolute = root.absolute
  sameUp : path.lexical.up = root.lexical.up
  below : root.lexical.names <+: path.lexical.names

instance (root path : Path) : Decidable (Inside root path) :=
  decidable_of_iff (path.absolute = root.absolute ∧ path.lexical.up = root.lexical.up ∧
      root.lexical.names <+: path.lexical.names)
    ⟨fun h => ⟨h.1, h.2.1, h.2.2⟩, fun h => ⟨h.1, h.2, h.3⟩⟩

/-- The `..` components never take back more than what stands before them;
`depth` names do already. -/
def staysBelow (depth : Nat) : List Name → Bool
  | [] => true
  | component :: rest =>
    if component = dot then staysBelow depth rest
    else if component = dotdot then decide (0 < depth) && staysBelow (depth - 1) rest
    else staysBelow (depth + 1) rest

theorem split_slash (before after : Bytes) :
    split (before ++ slash :: after) = split before ++ split after := by
  rw [split, List.splitOnP_append_cons _ _ (by decide), List.filter_append]
  rfl

theorem split_append {before after : Bytes} (separated : after.head? = some slash) :
    split (before ++ after) = split before ++ split after := by
  cases after with
  | nil => cases separated
  | cons head after =>
    cases separated
    rw [split_slash, ← List.nil_append (slash :: after), split_slash]
    rfl

theorem split_replicate (before : Bytes) (n : Nat) :
    split (before ++ List.replicate n slash) = split before := by
  induction n generalizing before with
  | zero => simp
  | succ n ih =>
    have slashes : split (List.replicate n slash) = [] := ih []
    rw [List.replicate_succ, split_slash, slashes, List.append_nil]

theorem ofBytes_slashes {bytes : Bytes} (named : split bytes ≠ []) {count : Nat} (some' : count ≠ 0) :
    ofBytes (bytes ++ List.replicate count slash) = { ofBytes bytes with trailing := true } := by
  have nonempty : bytes ≠ [] := by
    rintro rfl
    exact named rfl
  have last : (bytes ++ List.replicate count slash).getLast? = some slash := by
    rw [List.getLast?_append_of_ne_nil _ (by simpa using some'), List.getLast?_replicate, if_neg some']
  rw [ofBytes, ofBytes, split_replicate, last, List.head?_append_of_ne_nil _ nonempty]
  simp [named]

theorem split_ne_nil {first : UInt8} (rest : Bytes) (plain : first ≠ slash) :
    split (first :: rest) ≠ [] := by
  obtain ⟨piece, pieces, shape⟩ := List.exists_cons_of_ne_nil
    (List.splitOnP_ne_nil (· == slash) rest)
  rw [split, List.splitOnP_cons_eq_if_modifyHead, if_neg (by simpa using plain), shape]
  simp

theorem foldl_lexicalStep_stays (absolute : Bool) (components : List Name) (depth : Nat)
    (stays : staysBelow depth components = true) (up : Nat) (base own : List Name)
    (deep : own.length = depth) :
    ∃ rest, components.foldl (lexicalStep absolute) ⟨up, base ++ own⟩ = ⟨up, base ++ rest⟩ := by
  induction components generalizing depth own with
  | nil => exact ⟨own, rfl⟩
  | cons component components ih =>
    rw [staysBelow] at stays
    rw [List.foldl_cons]
    by_cases isDot : component = dot
    · rw [if_pos isDot] at stays
      rw [lexicalStep, if_pos isDot]
      exact ih depth stays own deep
    · rw [if_neg isDot] at stays
      rw [lexicalStep, if_neg isDot]
      by_cases isDotdot : component = dotdot
      · rw [if_pos isDotdot] at stays
        rw [if_pos isDotdot]
        rw [Bool.and_eq_true, decide_eq_true_eq] at stays
        have nonempty : own ≠ [] := List.ne_nil_of_length_pos (by omega)
        rw [if_neg (by simp [nonempty])]
        simp only [List.dropLast_append_of_ne_nil nonempty]
        exact ih (depth - 1) stays.2 own.dropLast (by simp [deep])
      · rw [if_neg isDotdot] at stays
        rw [if_neg isDotdot]
        simp only [List.append_assoc]
        exact ih (depth + 1) stays (own ++ [component]) (by simp [deep])

theorem inside_of_stays {root path : Path} {below : List Name}
    (sameStart : path.absolute = root.absolute)
    (components : path.components = root.components ++ below)
    (stays : staysBelow 0 below = true) : Inside root path := by
  obtain ⟨rest, led⟩ := foldl_lexicalStep_stays root.absolute below 0 stays root.lexical.up
    root.lexical.names [] rfl
  have whole : path.lexical = ⟨root.lexical.up, root.lexical.names ++ rest⟩ := by
    rw [lexical, sameStart, components, List.foldl_append, ← led, List.append_nil]
    rfl
  exact ⟨sameStart, by rw [whole], by rw [whole]; exact ⟨rest, rfl⟩⟩

theorem staysBelow_append_left {depth : Nat} {first second : List Name}
    (stays : staysBelow depth (first ++ second) = true) : staysBelow depth first = true := by
  induction first generalizing depth with
  | nil => rfl
  | cons component first ih =>
    rw [List.cons_append, staysBelow] at stays
    rw [staysBelow]
    split_ifs at stays ⊢ with isDot isDotdot
    · exact ih stays
    · rw [Bool.and_eq_true] at stays ⊢
      exact ⟨stays.1, ih stays.2⟩
    · exact ih stays

theorem staysBelow_concat {depth : Nat} {components : List Name} {name : Name}
    (stays : staysBelow depth components = true) (down : name ≠ dotdot) :
    staysBelow depth (components ++ [name]) = true := by
  induction components generalizing depth with
  | nil => simp [staysBelow, down]
  | cons component components ih =>
    rw [staysBelow] at stays
    rw [List.cons_append, staysBelow]
    split_ifs at stays ⊢ with isDot isDotdot
    · exact ih stays
    · rw [Bool.and_eq_true] at stays ⊢
      exact ⟨stays.1, ih stays.2⟩
    · exact ih stays

theorem staysBelow_filter_dot (depth : Nat) (components : List Name) :
    staysBelow depth (components.filter (· ≠ dot)) = staysBelow depth components := by
  induction components generalizing depth with
  | nil => rfl
  | cons component components ih =>
    by_cases isDot : component = dot
    · rw [List.filter_cons_of_neg (by simpa using isDot), staysBelow, if_pos isDot, ih]
    · rw [List.filter_cons_of_pos (by simpa using isDot), staysBelow, staysBelow, if_neg isDot,
        if_neg isDot, ih, ih]

theorem foldl_lexicalStep_filter (absolute : Bool) (components : List Name) (start : Lexical) :
    (components.filter (· ≠ dot)).foldl (lexicalStep absolute) start =
      components.foldl (lexicalStep absolute) start := by
  induction components generalizing start with
  | nil => rfl
  | cons component components ih =>
    by_cases isDot : component = dot
    · rw [List.filter_cons_of_neg (by simpa using isDot), ih, List.foldl_cons, lexicalStep,
        if_pos isDot]
    · rw [List.filter_cons_of_pos (by simpa using isDot), List.foldl_cons, List.foldl_cons, ih]

/-- Dropping `.` leads to the same place. -/
theorem lexical_normalComponents (path : Path) (trailing : Bool) :
    (⟨path.absolute, path.normalComponents, trailing⟩ : Path).lexical = path.lexical := by
  unfold lexical normalComponents
  cases path.components with
  | nil => rfl
  | cons first rest =>
    simp only [List.foldl_append, foldl_lexicalStep_filter, List.foldl_cons]
    split_ifs with dropped
    · rw [lexicalStep, if_pos dropped.1]
      rfl
    · rfl

theorem normalComponents_append {path root : Path} {below : List Name}
    (sameStart : path.absolute = root.absolute) (components : path.components = root.components ++ below)
    (anchored : root.absolute = true ∨ root.components ≠ []) :
    path.normalComponents = root.normalComponents ++ below.filter (· ≠ dot) := by
  unfold normalComponents
  rw [components, sameStart]
  cases inRoot : root.components with
  | cons first rest =>
    simp only [List.cons_append, List.filter_append, List.append_assoc]
  | nil =>
    rcases anchored with absolute | nonempty
    · cases below with
      | nil => rfl
      | cons first rest =>
        rw [absolute]
        by_cases isDot : first = dot <;> simp [isDot]
    · exact absurd inRoot nonempty

theorem mem_of_mem_normalComponents {path : Path} {name : Name}
    (member : name ∈ path.normalComponents) : name ∈ path.components := by
  unfold normalComponents at member
  cases components : path.components with
  | nil =>
    rw [components] at member
    cases member
  | cons first rest =>
    rw [components] at member
    rcases List.mem_append.mp member with isFirst | isLater
    · split_ifs at isFirst
      · cases isFirst
      · rw [List.mem_singleton.mp isFirst]
        exact List.mem_cons_self
    · exact List.mem_cons_of_mem _ (List.mem_filter.mp isLater).1

theorem normalComponents_leading {path : Path} {above : List Name}
    (leading : above <+: path.normalComponents) (trailing : Bool) :
    (⟨path.absolute, above, trailing⟩ : Path).normalComponents = above := by
  have kept : ∀ {part rest : List Name}, part <+: rest.filter (· ≠ dot) →
      part.filter (· ≠ dot) = part ∧ dot ∉ part := by
    intro part rest isPart
    have noDot : ∀ name ∈ part, name ≠ dot := fun name member =>
      of_decide_eq_true (List.mem_filter.mp (isPart.subset member)).2
    exact ⟨List.filter_eq_self.mpr fun name member => decide_eq_true (noDot name member),
      fun member => noDot dot member rfl⟩
  cases above with
  | nil => rfl
  | cons first tail =>
    rw [normalComponents] at leading ⊢
    cases inPath : path.components with
    | nil =>
      rw [inPath] at leading
      cases List.prefix_nil.mp leading
    | cons start rest =>
      rw [inPath] at leading
      dsimp only at leading ⊢
      split_ifs at leading with dropped
      · obtain ⟨normal, noDot⟩ := kept leading
        rw [List.filter_cons] at normal
        have notDot : first ≠ dot := fun isDot => noDot (isDot ▸ List.mem_cons_self)
        rw [if_pos (by simpa using notDot), List.cons.injEq] at normal
        rw [if_neg (fun both => notDot both.1), normal.2]
        rfl
      · obtain ⟨same, tailLeading⟩ := List.cons_prefix_cons.mp leading
        rw [same, if_neg dropped, (kept tailLeading).1]
        rfl

/-- The parent of a path with a name below the root is still inside the root. -/
theorem inside_parent {root path above : Path} {below : List Name}
    (sameStart : path.absolute = root.absolute) (components : path.components = root.components ++ below)
    (anchored : root.absolute = true ∨ root.components ≠ []) (stays : staysBelow 0 below = true)
    (named : below.filter (· ≠ dot) ≠ []) (isParent : path.parent = some above) :
    Inside root above := by
  have normal := normalComponents_append sameStart components anchored
  unfold parent at isParent
  split_ifs at isParent
  cases isParent
  have kept : staysBelow 0 (below.filter (· ≠ dot)).dropLast = true := by
    rw [← staysBelow_filter_dot, ← List.dropLast_append_getLast named] at stays
    exact staysBelow_append_left stays
  have inside : Inside ⟨root.absolute, root.normalComponents, false⟩
      ⟨path.absolute, path.normalComponents.dropLast, false⟩ := by
    refine inside_of_stays sameStart ?_ kept
    rw [normal, List.dropLast_append_of_ne_nil named]
  have sameRoot := lexical_normalComponents root false
  exact ⟨sameStart, by rw [inside.sameUp, sameRoot], by rw [← sameRoot]; exact inside.below⟩

end Path

end LocalServer.Library
