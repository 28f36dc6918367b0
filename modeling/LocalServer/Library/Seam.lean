import LocalServer.Library.Path

/-! Path names put together from two parts: which components the whole has, and how a name
that runs across the seam shows. -/

namespace LocalServer.Library.Path
open Utf8

/-- The same path as `std::path` compares them: trailing and repeated slashes do not count, and
neither does a `.` after the first component. -/
structure SamePath (first second : Path) : Prop where
  start : first.absolute = second.absolute
  components : first.normalComponents = second.normalComponents

instance (first second : Path) : Decidable (SamePath first second) :=
  decidable_of_iff (first.absolute = second.absolute ∧
    first.normalComponents = second.normalComponents) ⟨fun h => ⟨h.1, h.2⟩, fun h => ⟨h.1, h.2⟩⟩

def Joins (before after : Bytes) : Prop :=
  before = [] ∨ after = [] ∨ before.getLast? = some slash ∨ after.head? = some slash

instance (before after : Bytes) : Decidable (Joins before after) :=
  inferInstanceAs (Decidable (before = [] ∨ after = [] ∨ before.getLast? = some slash ∨
    after.head? = some slash))

theorem split_nil : split [] = [] := rfl

theorem split_name {name : Name} (nonempty : name ≠ []) (noSlash : slash ∉ name) :
    split name = [name] := by
  rw [split, List.splitOnP_eq_singleton]
  · simp [nonempty]
  · intro byte member
    rw [beq_eq_false_iff_ne]
    intro isSlash
    exact noSlash (isSlash ▸ member)

theorem split_joins {before after : Bytes} (joins : Joins before after) :
    split (before ++ after) = split before ++ split after := by
  rcases joins with rfl | rfl | ended | started
  · rfl
  · rw [List.append_nil, split_nil, List.append_nil]
  · obtain ⟨init, rfl⟩ := List.getLast?_eq_some_iff.mp ended
    have closed : split (init ++ [slash]) = split init := by
      rw [split_slash, split_nil, List.append_nil]
    rw [closed, List.append_assoc]
    exact split_slash init after
  · exact split_append started

/-- A name weighs so much that two names weigh less than both in one; `.` weighs nothing. -/
def nameWeight (name : Name) : Nat := if name = dot then 0 else 2 * name.length - 1

def weight (bytes : Bytes) : Nat := ((split bytes).map nameWeight).sum

theorem weight_joins {before after : Bytes} (joins : Joins before after) :
    weight (before ++ after) = weight before + weight after := by
  rw [weight, split_joins joins, List.map_append, List.sum_append]
  rfl

theorem nameWeight_le {name : Name} (nonempty : name ≠ []) : nameWeight name + 1 ≤ 2 * name.length := by
  have positive := List.length_pos_iff.mpr nonempty
  unfold nameWeight
  split_ifs <;> omega

theorem nameWeight_append {first second : Name} (nonempty : first ≠ []) (nonempty' : second ≠ []) :
    nameWeight first + nameWeight second < nameWeight (first ++ second) := by
  have early := nameWeight_le nonempty
  have late := nameWeight_le nonempty'
  have positive := List.length_pos_iff.mpr nonempty
  have positive' := List.length_pos_iff.mpr nonempty'
  have long : first ++ second ≠ dot := by
    intro isDot
    have length := congrArg List.length isDot
    rw [List.length_append, show dot.length = 1 from rfl] at length
    omega
  rw [nameWeight, nameWeight, nameWeight, if_neg long, List.length_append]
  rw [nameWeight] at early late
  omega

theorem weight_name {name : Name} (nonempty : name ≠ []) (noSlash : slash ∉ name) :
    weight name = nameWeight name := by
  rw [weight, split_name nonempty noSlash]
  exact Nat.add_zero _

theorem exists_last {bytes : Bytes} (nonempty : bytes ≠ []) (open' : bytes.getLast? ≠ some slash) :
    ∃ init name, bytes = init ++ name ∧ name ≠ [] ∧ slash ∉ name ∧ ∀ after, Joins init after := by
  refine ⟨bytes.rdropWhile (· ≠ slash), bytes.rtakeWhile (· ≠ slash),
    List.rdropWhile_append_rtakeWhile.symm, ?_, ?_, ?_⟩
  · intro empty
    rw [List.rtakeWhile_eq_nil_iff] at empty
    apply open'
    rw [List.getLast?_eq_some_getLast nonempty]
    simpa using empty nonempty
  · intro member
    simpa using List.mem_rtakeWhile_imp member
  · intro after
    by_cases empty : bytes.rdropWhile (· ≠ slash) = []
    · exact Or.inl empty
    · right; right; left
      rw [List.getLast?_eq_some_getLast empty]
      simpa using List.rdropWhile_last_not _ _ empty

theorem exists_first {bytes : Bytes} (nonempty : bytes ≠ []) (open' : bytes.head? ≠ some slash) :
    ∃ name rest, bytes = name ++ rest ∧ name ≠ [] ∧ slash ∉ name ∧ ∀ before, Joins before rest := by
  refine ⟨bytes.takeWhile (· ≠ slash), bytes.dropWhile (· ≠ slash),
    (List.takeWhile_append_dropWhile).symm, ?_, ?_, ?_⟩
  · obtain ⟨first, rest, rfl⟩ := List.exists_cons_of_ne_nil nonempty
    have plain : first ≠ slash := fun isSlash => open' (by rw [isSlash]; rfl)
    rw [List.takeWhile_cons_of_pos (by simpa using plain)]
    exact List.cons_ne_nil _ _
  · intro member
    simpa using List.mem_takeWhile_imp member
  · intro before
    by_cases empty : bytes.dropWhile (· ≠ slash) = []
    · exact Or.inr (Or.inl empty)
    · right; right; right
      rw [List.head?_eq_some_head empty]
      simpa using List.head_dropWhile_not _ empty

theorem weight_glued {before after : Bytes} (glued : ¬Joins before after) :
    weight before + weight after < weight (before ++ after) := by
  simp only [Joins, not_or] at glued
  obtain ⟨init, last, rfl, lastNonempty, lastPlain, initJoins⟩ := exists_last glued.1 glued.2.2.1
  obtain ⟨first, rest, rfl, firstNonempty, firstPlain, restJoins⟩ :=
    exists_first glued.2.1 glued.2.2.2
  have whole : init ++ last ++ (first ++ rest) = init ++ ((last ++ first) ++ rest) := by
    simp only [List.append_assoc]
  have plain : slash ∉ last ++ first := by
    rw [List.mem_append]
    exact fun member => member.elim lastPlain firstPlain
  have heavier := nameWeight_append lastNonempty firstNonempty
  calc
    weight (init ++ last) + weight (first ++ rest) =
        weight init + (nameWeight last + nameWeight first + weight rest) := by
      rw [weight_joins (initJoins last), weight_joins (restJoins first),
        weight_name lastNonempty lastPlain, weight_name firstNonempty firstPlain]
      omega
    _ < weight init + (nameWeight (last ++ first) + weight rest) := by omega
    _ = weight (init ++ last ++ (first ++ rest)) := by
      rw [whole, weight_joins (initJoins _), weight_joins (restJoins _),
        weight_name (List.append_ne_nil_of_left_ne_nil lastNonempty _) plain]

theorem weight_append_le (before after : Bytes) :
    weight before + weight after ≤ weight (before ++ after) := by
  by_cases joins : Joins before after
  · exact (weight_joins joins).ge
  · exact (weight_glued joins).le

theorem joins_of_weight {before after : Bytes}
    (same : weight (before ++ after) = weight before + weight after) : Joins before after := by
  by_contra glued
  have heavier := weight_glued glued
  omega

theorem weight_eq_zero {bytes : Bytes} (light : weight bytes = 0) :
    ∀ name ∈ split bytes, name = dot := by
  intro name member
  have zero : nameWeight name = 0 := by
    apply List.sum_eq_zero_iff_forall_eq_nat.mp light
    exact List.mem_map_of_mem member
  have nonempty : name ≠ [] := of_decide_eq_true (List.mem_filter.mp member).2
  have positive := List.length_pos_iff.mpr nonempty
  unfold nameWeight at zero
  split_ifs at zero with isDot
  · exact isDot
  · omega

theorem filter_normalComponents (path : Path) :
    path.normalComponents.filter (· ≠ dot) = path.components.filter (· ≠ dot) := by
  unfold normalComponents
  cases path.components with
  | nil => rfl
  | cons first rest =>
    rw [List.filter_append, List.filter_filter]
    by_cases isDot : first = dot <;> simp [isDot]

theorem weight_of_filter {first second : Bytes}
    (same : (split first).filter (· ≠ dot) = (split second).filter (· ≠ dot)) :
    weight first = weight second := by
  have kept : ∀ names : List Name,
      (names.map nameWeight).sum = ((names.filter (· ≠ dot)).map nameWeight).sum := by
    intro names
    induction names with
    | nil => rfl
    | cons name names ih =>
      by_cases isDot : name = dot
      · rw [List.filter_cons_of_neg (by simpa using isDot), List.map_cons, List.sum_cons, ih,
          nameWeight, if_pos isDot, Nat.zero_add]
      · rw [List.filter_cons_of_pos (by simpa using isDot), List.map_cons, List.sum_cons, ih,
          List.map_cons, List.sum_cons]
  rw [weight, weight, kept, kept (split second), same]

theorem SamePath.weight {first second : Bytes} (same : SamePath (ofBytes first) (ofBytes second)) :
    weight first = weight second := by
  apply weight_of_filter
  have components := congrArg (List.filter (· ≠ dot)) same.components
  rwa [filter_normalComponents, filter_normalComponents] at components

end LocalServer.Library.Path
