import Mathlib.Data.List.Basic

/-! Machine arithmetic and slicing that can panic: every operation checks what the
compiled code checks and reports a panic instead of a value. -/

namespace LocalServer.Library.Machine

/-- Why a thread was unwound. `outOfFuel` marks a loop cut short by its bound; no loop
of this development is, which is proved where the loop is. -/
inductive Panic where
  | addOverflow
  | mulOverflow
  | sliceBounds
  | outOfFuel
  deriving DecidableEq, Repr

abbrev Checked := Except Panic

/-- `2 ^ 64`, one more than `usize::MAX`. -/
def usizeLimit : Nat := UInt64.size

/-- The length of a slice is a `usize`, so this holds of the contents of every slice. -/
def Addressable {α : Type*} (data : List α) : Prop := data.length < usizeLimit

instance {α : Type*} (data : List α) : Decidable (Addressable data) :=
  inferInstanceAs (Decidable (data.length < usizeLimit))

/-- `a + b` on `usize`. Without overflow checks the sum wraps below `a`, and every use of
`add` in a slice range then panics on the range instead. -/
def add (a b : Nat) : Checked Nat :=
  if a + b < usizeLimit then .ok (a + b) else .error .addOverflow

/-- How the program was compiled: overflow is checked in development builds only. -/
inductive Profile where
  | dev
  | release
  deriving DecidableEq, Repr

def mul (profile : Profile) (a b : Nat) : Checked Nat :=
  if a * b < usizeLimit then .ok (a * b)
  else match profile with
    | .dev => .error .mulOverflow
    | .release => .ok (a * b % usizeLimit)

def sliceFrom {α : Type*} (data : List α) (start : Nat) : Checked (List α) :=
  if start ≤ data.length then .ok (data.drop start) else .error .sliceBounds

def slice {α : Type*} (data : List α) (start stop : Nat) : Checked (List α) :=
  if start ≤ stop ∧ stop ≤ data.length then .ok ((data.take stop).drop start)
  else .error .sliceBounds

variable {α : Type*} {data : List α} {a b start stop : Nat}

theorem add_ok (small : a + b < usizeLimit) : add a b = .ok (a + b) := if_pos small

theorem add_overflow (large : usizeLimit ≤ a + b) : add a b = .error .addOverflow :=
  if_neg (by omega)

theorem mul_ok (profile : Profile) (small : a * b < usizeLimit) : mul profile a b = .ok (a * b) :=
  if_pos small

theorem sliceFrom_ok (inside : start ≤ data.length) : sliceFrom data start = .ok (data.drop start) :=
  if_pos inside

theorem sliceFrom_bounds (outside : data.length < start) :
    sliceFrom data start = .error .sliceBounds := if_neg (by omega)

theorem slice_ok (ordered : start ≤ stop) (inside : stop ≤ data.length) :
    slice data start stop = .ok ((data.take stop).drop start) := if_pos ⟨ordered, inside⟩

theorem slice_append (before piece after : List α) :
    slice (before ++ (piece ++ after)) before.length (before.length + piece.length) = .ok piece := by
  rw [slice_ok (by omega) (by simp only [List.length_append]; omega)]
  congr 1
  rw [List.take_length_add_append, List.drop_left, List.take_left]

theorem sliceFrom_append (before after : List α) :
    sliceFrom (before ++ after) before.length = .ok after := by
  rw [sliceFrom_ok (by simp), List.drop_left]

end LocalServer.Library.Machine
