import Mathlib.Data.List.Basic
import Mathlib.Data.List.Infix
import Mathlib.Data.Nat.Find

/-! The first occurrence of a pattern in a list: `windows(n).position(..)` on bytes and
`find`/`contains` on text. -/

namespace LocalServer.Library.Search

variable {α : Type*} [DecidableEq α]

/-- The first index at which `pattern` stands. -/
def position (pattern : List α) : List α → Option Nat
  | [] => if pattern = [] then some 0 else none
  | x :: xs => if pattern <+: x :: xs then some 0 else (position pattern xs).map (· + 1)

def contains (pattern list : List α) : Bool := (position pattern list).isSome

theorem position_eq_some (pattern list : List α) (index : Nat) :
    position pattern list = some index ↔
      index ≤ list.length ∧ pattern <+: list.drop index ∧
        ∀ earlier < index, ¬pattern <+: list.drop earlier := by
  induction list generalizing index with
  | nil =>
    by_cases empty : pattern = []
    · subst empty
      simp only [position, ↓reduceIte, Option.some.injEq, List.length_nil, List.drop_nil,
        List.prefix_rfl, not_true_eq_false]
      constructor
      · intro same
        subst same
        exact ⟨Nat.le_refl 0, trivial, by intro earlier h; omega⟩
      · intro stands
        obtain ⟨bounded, -, -⟩ := stands
        omega
    · simp [position, empty, List.prefix_nil]
  | cons x xs ih =>
    by_cases here : pattern <+: x :: xs
    · simp only [position, if_pos here, Option.some.injEq]
      constructor
      · intro same
        subst same
        exact ⟨by simp, by simpa using here, by intro earlier h; omega⟩
      · intro stands
        obtain ⟨-, -, first⟩ := stands
        by_contra later
        exact first 0 (by omega) (by simpa using here)
    · simp only [position, if_neg here, Option.map_eq_some_iff]
      constructor
      · intro later
        obtain ⟨rest, found, rfl⟩ := later
        obtain ⟨inside, stands, first⟩ := (ih rest).mp found
        refine ⟨by simpa using inside, by simpa using stands, ?_⟩
        intro before smaller
        cases before with
        | zero => simpa using here
        | succ earlier => simpa using first earlier (by omega)
      · intro found
        obtain ⟨inside, stands, first⟩ := found
        cases index with
        | zero => exact absurd (by simpa using stands) here
        | succ index =>
          refine ⟨index, (ih index).mpr ⟨by simpa using inside, by simpa using stands, ?_⟩, rfl⟩
          intro earlier smaller
          simpa using first (earlier + 1) (by omega)

theorem position_split {pattern list : List α} {index : Nat}
    (found : position pattern list = some index) :
    list = list.take index ++ (pattern ++ list.drop (index + pattern.length)) := by
  obtain ⟨-, ⟨rest, stands⟩, -⟩ := (position_eq_some pattern list index).mp found
  have tail : rest = list.drop (index + pattern.length) := by
    rw [← List.drop_drop, ← stands, List.drop_left]
  rw [← tail, stands, List.take_append_drop]

theorem position_length_le {pattern list : List α} {index : Nat}
    (found : position pattern list = some index) : index + pattern.length ≤ list.length := by
  have split := congrArg List.length (position_split found)
  obtain ⟨inside, -, -⟩ := (position_eq_some pattern list index).mp found
  simp only [List.length_append, List.length_take, List.length_drop] at split
  omega

/-- Elements at which no occurrence can start are skipped. -/
theorem position_skip (pattern skipped list : List α)
    (none_starts : ∀ i < skipped.length, ¬pattern <+: (skipped ++ list).drop i) :
    position pattern (skipped ++ list) = (position pattern list).map (· + skipped.length) := by
  induction skipped with
  | nil => simp
  | cons x skipped ih =>
    have here : ¬pattern <+: x :: (skipped ++ list) := by simpa using none_starts 0 (by simp)
    rw [List.cons_append, position, if_neg here, ih]
    · simp only [Option.map_map, List.length_cons]
      rfl
    · intro i small
      simpa using none_starts (i + 1) (by simpa using small)

theorem position_fresh {a : α} {skipped : List α} (fresh : a ∉ skipped) (pattern list : List α) :
    position (a :: pattern) (skipped ++ list) =
      (position (a :: pattern) list).map (· + skipped.length) := by
  apply position_skip
  intro i small stands
  rw [List.drop_append_of_le_length (by omega), List.drop_eq_getElem_cons small, List.cons_append,
    List.cons_prefix_cons] at stands
  exact fresh (stands.1 ▸ List.getElem_mem small)

/-- A pattern is found right after elements that are all different from its head. -/
theorem position_after {head : α} {pattern before : List α} (after : List α)
    (fresh : head ∉ before) :
    position (head :: pattern) (before ++ (head :: pattern ++ after)) = some before.length := by
  rw [position_fresh fresh, List.cons_append, position, if_pos]
  · simp
  · exact ⟨after, rfl⟩

/-- Data appended later does not move an occurrence that was already found. -/
theorem position_append {pattern list : List α} {index : Nat} (later : List α)
    (found : position pattern list = some index) :
    position pattern (list ++ later) = some index := by
  obtain ⟨inside, stands, first⟩ := (position_eq_some pattern list index).mp found
  have fits := position_length_le found
  refine (position_eq_some _ _ _).mpr ⟨by simp only [List.length_append]; omega, ?_, ?_⟩
  · rw [List.drop_append_of_le_length inside]
    exact stands.trans (List.prefix_append _ _)
  · intro earlier smaller present
    rw [List.drop_append_of_le_length (by omega)] at present
    refine first earlier smaller (List.prefix_of_prefix_length_le present (List.prefix_append _ _) ?_)
    simp only [List.length_drop]
    omega

theorem mem_of_position {pattern list : List α} {index : Nat} {a : α}
    (found : position pattern list = some index) (inPattern : a ∈ pattern) : a ∈ list := by
  rw [position_split found]
  simp [inPattern]

/-! Splitting -/

/-- `split` at a pattern; the number counts the elements of an occurrence that are still to be
passed over. -/
def splitFrom (pattern : List α) : Nat → List α → List (List α)
  | _, [] => [[]]
  | skip + 1, _ :: rest => splitFrom pattern skip rest
  | 0, x :: rest =>
    if pattern <+: x :: rest then [] :: splitFrom pattern (pattern.length - 1) rest
    else (splitFrom pattern 0 rest).modifyHead (x :: ·)

def split (pattern list : List α) : List (List α) := splitFrom pattern 0 list

theorem splitFrom_append (pattern skipped list : List α) :
    splitFrom pattern skipped.length (skipped ++ list) = split pattern list := by
  induction skipped with
  | nil => rfl
  | cons x skipped ih => exact ih

theorem split_none {pattern list : List α} (absent : position pattern list = none) :
    split pattern list = [list] := by
  induction list with
  | nil => rfl
  | cons x rest ih =>
    rw [position] at absent
    by_cases here : pattern <+: x :: rest
    · rw [if_pos here] at absent
      cases absent
    · rw [if_neg here, Option.map_eq_none_iff] at absent
      have tail : splitFrom pattern 0 rest = [rest] := ih absent
      rw [split, splitFrom, if_neg here, tail]
      rfl

theorem split_some {pattern before after : List α} (nonempty : pattern ≠ [])
    (first : position pattern (before ++ (pattern ++ after)) = some before.length) :
    split pattern (before ++ (pattern ++ after)) = before :: split pattern after := by
  induction before with
  | nil =>
    obtain ⟨x, pattern, rfl⟩ := List.exists_cons_of_ne_nil nonempty
    have here : x :: pattern <+: x :: (pattern ++ after) := ⟨after, rfl⟩
    have passed := splitFrom_append (x :: pattern) pattern after
    rw [List.nil_append, List.cons_append, split, splitFrom, if_pos here]
    exact congrArg (List.cons []) passed
  | cons x before ih =>
    rw [List.cons_append, position] at first
    by_cases here : pattern <+: x :: (before ++ (pattern ++ after))
    · rw [if_pos here] at first
      cases first
    · rw [if_neg here, List.length_cons, Option.map_eq_some_iff] at first
      obtain ⟨index, found, same⟩ := first
      have tail := ih (by rw [found, Nat.succ.inj same])
      rw [split] at tail
      rw [List.cons_append, split, splitFrom, if_neg here, tail]
      rfl

/-- Where no line is empty, a mark between lines first stands twice behind the last of them. -/
theorem position_double {a : α} {lines : List (List α)} (some' : lines ≠ [])
    (nonempty : ∀ line ∈ lines, line ≠ []) (fresh : ∀ line ∈ lines, a ∉ line) (after : List α) :
    position [a, a] ([a].intercalate lines ++ ([a, a] ++ after)) =
      some ([a].intercalate lines).length := by
  induction lines with
  | nil => exact absurd rfl some'
  | cons line rest ih =>
    cases rest with
    | nil =>
      have here : position [a, a] ([a, a] ++ after) = some 0 := if_pos ⟨after, rfl⟩
      rw [List.intercalate_singleton, position_fresh (fresh line (by simp)), here]
      simp
    | cons next rest =>
      have later := ih (by simp) (fun l member => nonempty l (List.mem_cons_of_mem _ member))
        fun l member => fresh l (List.mem_cons_of_mem _ member)
      obtain ⟨x, tail, rfl⟩ := List.exists_cons_of_ne_nil (nonempty next (by simp))
      have other : a ≠ x := fun same => fresh (x :: tail) (by simp) (by simp [same])
      obtain ⟨shape, leads⟩ : ∃ shape, [a].intercalate ((x :: tail) :: rest) = x :: shape := by
        cases rest with
        | nil => exact ⟨tail, List.intercalate_singleton⟩
        | cons => exact ⟨_, List.intercalate_cons_cons⟩
      have once : position [a, a] ([a] ++ (x :: shape ++ ([a, a] ++ after))) =
          (position [a, a] (x :: shape ++ ([a, a] ++ after))).map (· + 1) := by
        apply position_skip [a, a] [a]
        intro i small stands
        obtain rfl : i = 0 := by simpa using small
        simp [other] at stands
      rw [List.intercalate_cons_cons, List.append_assoc, List.append_assoc,
        position_fresh (fresh line (by simp)), leads, once, ← leads, later]
      simp only [Option.map_some, List.length_append, List.length_cons, List.length_nil]
      congr 1
      omega

section
variable {a b : α} (different : a ≠ b)
include different

/-- The mark does not start inside a line that lacks its second element. -/
theorem position_line {line : List α} (fresh : b ∉ line) (pattern after : List α) :
    position (a :: b :: pattern) (line ++ a :: after) =
      (position (a :: b :: pattern) (a :: after)).map (· + line.length) := by
  apply position_skip
  intro i small stands
  rw [List.drop_append_of_le_length (by omega), List.drop_eq_getElem_cons small, List.cons_append,
    List.cons_prefix_cons] at stands
  cases rest : line.drop (i + 1) with
  | nil =>
    rw [rest, List.nil_append, List.cons_prefix_cons] at stands
    exact different stands.2.1.symm
  | cons next rest' =>
    rw [rest, List.cons_append, List.cons_prefix_cons] at stands
    have member : next ∈ line.drop (i + 1) := by simp [rest]
    exact fresh (stands.2.1 ▸ List.mem_of_mem_drop member)

theorem split_intercalate {lines : List (List α)} (some' : lines ≠ [])
    (fresh : ∀ line ∈ lines, b ∉ line) : split [a, b] ([a, b].intercalate lines) = lines := by
  induction lines with
  | nil => exact absurd rfl some'
  | cons line rest ih =>
    cases rest with
    | nil =>
      rw [List.intercalate_singleton]
      apply split_none
      cases found : position [a, b] line with
      | none => rfl
      | some index => exact absurd (mem_of_position found (by simp)) (fresh line (by simp))
    | cons next rest =>
      rw [List.intercalate_cons_cons, List.append_assoc, split_some (by simp)]
      · rw [ih (by simp) fun l member => fresh l (List.mem_cons_of_mem _ member)]
      · rw [List.cons_append, position_line different (fresh line (by simp)), position, if_pos]
        · simp
        · simp

theorem position_once {x : α} (other : x ≠ a) (rest : List α) :
    position [a, b, a, b] (a :: b :: x :: rest) =
      (position [a, b, a, b] (x :: rest)).map (· + 2) := by
  apply position_skip [a, b, a, b] [a, b]
  intro i small stands
  rcases Nat.lt_or_ge i 1 with first | second
  · obtain rfl : i = 0 := by omega
    simp [other.symm] at stands
  · obtain rfl : i = 1 := by simp at small; omega
    simp [different] at stands

/-- Where no line is empty or starts with the mark's first element, the mark first stands twice
in a row behind the last line. -/
theorem position_lines {lines : List (List α)} (some' : lines ≠ [])
    (fresh : ∀ line ∈ lines, b ∉ line) (starts : ∀ line ∈ lines, ∃ x rest, line = x :: rest ∧ x ≠ a)
    (after : List α) : position [a, b, a, b] ([a, b].intercalate lines ++ ([a, b, a, b] ++ after)) =
      some ([a, b].intercalate lines).length := by
  induction lines with
  | nil => exact absurd rfl some'
  | cons line rest ih =>
    cases rest with
    | nil =>
      rw [List.intercalate_singleton, List.cons_append,
        position_line different (fresh line (by simp)), position, if_pos]
      · simp
      · exact ⟨after, rfl⟩
    | cons next rest =>
      obtain ⟨x, tail, rfl, other⟩ := starts next (by simp)
      have later := ih (by simp) (fun l member => fresh l (List.mem_cons_of_mem _ member))
        fun l member => starts l (List.mem_cons_of_mem _ member)
      obtain ⟨shape, leads⟩ : ∃ shape, [a, b].intercalate ((x :: tail) :: rest) = x :: shape := by
        cases rest with
        | nil => exact ⟨tail, List.intercalate_singleton⟩
        | cons => exact ⟨_, List.intercalate_cons_cons⟩
      rw [List.intercalate_cons_cons, List.append_assoc, List.append_assoc, List.cons_append,
        position_line different (fresh line (by simp))]
      rw [leads] at later ⊢
      rw [List.cons_append] at later
      rw [List.singleton_append, List.cons_append, position_once different other, later]
      simp only [Option.map_some, List.length_append, List.length_cons, List.length_nil]
      congr 1
      omega

end

end LocalServer.Library.Search
