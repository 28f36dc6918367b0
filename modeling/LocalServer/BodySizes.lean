import LocalServer.ConfigParser

/-! What `parse_body_size` makes of any text. The digits are checked against the range of
`usize`, the product with the unit is not. -/

namespace LocalServer.BodySizes
open Library Machine Text Numeral

inductive SizeUnit where
  | bytes
  | kilobytes
  | megabytes
  deriving DecidableEq, Repr

def SizeUnit.suffix : SizeUnit → Str
  | .bytes => []
  | .kilobytes => "kb".toList
  | .megabytes => "mb".toList

def SizeUnit.factor : SizeUnit → Nat
  | .bytes => 1
  | .kilobytes => 1024
  | .megabytes => 1048576

/-- The text is a decimal number and a unit, in any letter case. -/
def Written (tables : CaseTables) (s : Str) (number : Nat) (unit : SizeUnit) : Prop :=
  ∃ numeral, toLowercase tables s = numeral ++ unit.suffix ∧
    IsDigits 10 (dropPlus (trim numeral)) ∧ value 10 (dropPlus (trim numeral)) = number

/-- The value is the mathematical product, and a product out of range is an error. -/
def NeverWraps (profile : Profile) (tables : CaseTables) (s : Str) : Prop :=
  (∀ v, parseBodySize profile tables s = .ok (.ok v) →
    ∃ number unit, Written tables s number unit ∧ v = number * unit.factor) ∧
  ∀ number unit, Written tables s number unit → usizeLimit ≤ number * unit.factor →
    ∃ message, parseBodySize profile tables s = .ok (.error message)

/-- The suffix the code finds in lowercase text, with what stands before it. -/
def unitOf (lower : Str) : Str × SizeUnit :=
  match stripSuffix SizeUnit.megabytes.suffix lower with
  | some numeral => (numeral, .megabytes)
  | none =>
    match stripSuffix SizeUnit.kilobytes.suffix lower with
    | some numeral => (numeral, .kilobytes)
    | none => (lower, .bytes)

def scale (profile : Profile) : SizeUnit → Nat → Checked Nat
  | .bytes, number => .ok number
  | .kilobytes, number => mul profile number 1024
  | .megabytes, number => do
    let kilobytes ← mul profile number 1024
    mul profile kilobytes 1024

theorem stripSuffix_append (numeral pattern : Str) :
    stripSuffix pattern (numeral ++ pattern) = some numeral := by
  rw [stripSuffix, endsWith, if_pos (List.isSuffixOf_iff_suffix.mpr (List.suffix_append _ _))]
  simp

theorem stripSuffix_eq_some {pattern s numeral : Str} (found : stripSuffix pattern s = some numeral) :
    s = numeral ++ pattern := by
  unfold stripSuffix at found
  split_ifs at found with ends
  rw [endsWith, List.isSuffixOf_iff_suffix] at ends
  obtain ⟨before, rfl⟩ := ends
  cases found
  simp

theorem mem_trim {s : Str} {c : Char} (member : c ∈ s) (visible : isWhitespace c = false) :
    c ∈ trim s := by
  have started : c ∈ trimStart s := by
    have parts := List.takeWhile_append_dropWhile (p := isWhitespace) (l := s)
    rw [← parts] at member
    rcases List.mem_append.mp member with padding | kept
    · rw [List.mem_takeWhile_imp padding] at visible
      cases visible
    · exact kept
  have parts := List.takeWhile_append_dropWhile (p := isWhitespace) (l := (trimStart s).reverse)
  rw [← List.mem_reverse, ← parts] at started
  rcases List.mem_append.mp started with padding | kept
  · rw [List.mem_takeWhile_imp padding] at visible
    cases visible
  · exact List.mem_reverse.mpr kept

theorem mem_dropPlus {s : Str} {c : Char} (member : c ∈ s) (letter : c ≠ '+') : c ∈ dropPlus s := by
  unfold dropPlus
  split
  · exact (List.mem_cons.mp member).resolve_left letter
  · exact member

theorem letter_of_numeral {numeral : Str} (digits : IsDigits 10 (dropPlus (trim numeral))) :
    'b' ∉ numeral := by
  intro member
  have inside := mem_dropPlus (mem_trim member (by decide)) (by decide)
  exact absurd (digits.2 'b' inside) (by decide)

theorem unitOf_append {numeral : Str} (unit : SizeUnit)
    (digits : IsDigits 10 (dropPlus (trim numeral))) :
    unitOf (numeral ++ unit.suffix) = (numeral, unit) := by
  cases unit with
  | bytes =>
    have letter := letter_of_numeral digits
    have noMb : stripSuffix SizeUnit.megabytes.suffix numeral = none :=
      stripSuffix_of_not_mem (by decide) letter
    have noKb : stripSuffix SizeUnit.kilobytes.suffix numeral = none :=
      stripSuffix_of_not_mem (by decide) letter
    rw [SizeUnit.suffix, List.append_nil, unitOf, noMb]
    dsimp only
    rw [noKb]
  | kilobytes =>
    have noMb : stripSuffix SizeUnit.megabytes.suffix (numeral ++ SizeUnit.kilobytes.suffix) = none := by
      apply if_neg
      intro ends
      rw [endsWith, List.isSuffixOf_iff_suffix] at ends
      have both := List.suffix_of_suffix_length_le ends (List.suffix_append numeral _) (by decide)
      exact absurd (both.eq_of_length rfl) (by decide)
    rw [unitOf, noMb]
    dsimp only
    rw [stripSuffix_append]
  | megabytes => rw [unitOf, stripSuffix_append]

theorem eq_unitOf_append (lower : Str) : lower = (unitOf lower).1 ++ (unitOf lower).2.suffix := by
  unfold unitOf
  split
  · next numeral found => exact stripSuffix_eq_some found
  · split
    · next numeral found => exact stripSuffix_eq_some found
    · exact (List.append_nil lower).symm

/-- There is one way to read a size. -/
theorem written_iff {tables : CaseTables} {s : Str} {number : Nat} {unit : SizeUnit} :
    Written tables s number unit ↔
      IsDigits 10 (dropPlus (trim (unitOf (toLowercase tables s)).1)) ∧
        value 10 (dropPlus (trim (unitOf (toLowercase tables s)).1)) = number ∧
        (unitOf (toLowercase tables s)).2 = unit := by
  constructor
  · rintro ⟨numeral, lower, digits, denoted⟩
    rw [lower, unitOf_append unit digits]
    exact ⟨digits, denoted, rfl⟩
  · rintro ⟨digits, denoted, rfl⟩
    exact ⟨_, eq_unitOf_append _, digits, denoted⟩

/-! The value of a size -/

section
variable (profile : Profile) (tables : CaseTables) (s : Str)

theorem parseBodySize_unitOf :
    parseBodySize profile tables s =
      (fromStrRadix 10 usizeLimit (trim (unitOf (toLowercase tables s)).1)).elim
        (.ok (invalidSize (toLowercase tables s)))
        fun number => (scale profile (unitOf (toLowercase tables s)).2 number).map .ok := by
  generalize lowered : toLowercase tables s = lower
  unfold parseBodySize unitOf
  rw [lowered]
  dsimp only [SizeUnit.suffix]
  cases stripSuffix "mb".toList lower with
  | some numeral =>
    dsimp only
    cases fromStrRadix 10 usizeLimit (trim numeral) with
    | none => rfl
    | some number =>
      dsimp only [scale, Option.elim_some]
      cases mul profile number 1024 with
      | error panic => rfl
      | ok kilobytes =>
        change (mul profile kilobytes 1024).bind _ = (mul profile kilobytes 1024).map _
        cases mul profile kilobytes 1024 <;> rfl
  | none =>
    dsimp only
    cases stripSuffix "kb".toList lower with
    | some numeral =>
      dsimp only
      cases fromStrRadix 10 usizeLimit (trim numeral) with
      | none => rfl
      | some number =>
        dsimp only [scale, Option.elim_some]
        cases mul profile number 1024 <;> rfl
    | none =>
      dsimp only
      cases fromStrRadix 10 usizeLimit (trim lower) <;> rfl

theorem scale_ok (unit : SizeUnit) {number : Nat} (fits : number * unit.factor < usizeLimit) :
    scale profile unit number = .ok (number * unit.factor) := by
  cases unit with
  | bytes => rw [scale, SizeUnit.factor, Nat.mul_one]
  | kilobytes => exact mul_ok profile fits
  | megabytes =>
    have product : number * 1024 * 1024 = number * SizeUnit.megabytes.factor := Nat.mul_assoc _ _ _
    rw [← product] at fits ⊢
    rw [scale, mul_ok profile (lt_of_le_of_lt (Nat.le_mul_of_pos_right _ (by decide)) fits)]
    exact mul_ok profile fits

variable {profile tables s}

/-- A size whose digits fit is multiplied out, one whose digits do not fit is refused. -/
theorem parseBodySize_written {number : Nat} {unit : SizeUnit}
    (written : Written tables s number unit) :
    (number < usizeLimit →
        parseBodySize profile tables s = (scale profile unit number).map .ok) ∧
      (usizeLimit ≤ number →
        ∃ message, parseBodySize profile tables s = .ok (.error message)) := by
  obtain ⟨digits, denoted, sameUnit⟩ := written_iff.mp written
  rw [parseBodySize_unitOf, sameUnit]
  constructor
  · intro fits
    rw [(fromStrRadix_eq_some (by decide) (by decide) _ _).mpr ⟨digits, denoted.symm, fits⟩]
    rfl
  · intro large
    cases read : fromStrRadix 10 usizeLimit (trim (unitOf (toLowercase tables s)).1) with
    | none => exact ⟨_, rfl⟩
    | some other =>
      obtain ⟨-, same, small⟩ := (fromStrRadix_eq_some (by decide) (by decide) _ _).mp read
      omega

theorem message_of_refused {message : Str}
    (refused : parseBodySize profile tables s = .ok (.error message)) :
    message = "Invalid size: ".toList ++ toLowercase tables s := by
  rw [parseBodySize_unitOf] at refused
  cases read : fromStrRadix 10 usizeLimit (trim (unitOf (toLowercase tables s)).1) with
  | none =>
    rw [read] at refused
    cases refused
    rfl
  | some number =>
    rw [read, Option.elim_some] at refused
    cases scaled : scale profile (unitOf (toLowercase tables s)).2 number <;>
      rw [scaled] at refused <;> cases refused

/-- Whatever is accepted was written as a number in range. -/
theorem written_of_parseBodySize {v : Nat} (accepted : parseBodySize profile tables s = .ok (.ok v)) :
    ∃ number unit, Written tables s number unit ∧ number < usizeLimit := by
  rw [parseBodySize_unitOf] at accepted
  cases read : fromStrRadix 10 usizeLimit (trim (unitOf (toLowercase tables s)).1) with
  | none =>
    rw [read] at accepted
    cases accepted
  | some number =>
    obtain ⟨digits, denoted, small⟩ := (fromStrRadix_eq_some (by decide) (by decide) _ _).mp read
    exact ⟨number, _, written_iff.mpr ⟨digits, denoted.symm, rfl⟩, small⟩

end

/-- The check of the digits is enough unless the unit carries the product out of range. -/
theorem sizes_exact (profile : Profile) (tables : CaseTables) (s : Str) :
    NeverWraps profile tables s ↔
      ∀ number unit, Written tables s number unit → number < usizeLimit →
        number * unit.factor < usizeLimit := by
  constructor
  · intro exact_ number unit written fits
    by_contra large
    obtain ⟨message, refused⟩ := exact_.2 number unit written (by omega)
    rw [(parseBodySize_written written).1 fits] at refused
    cases scaled : scale profile unit number <;> rw [scaled] at refused <;> cases refused
  · intro room
    refine ⟨?_, ?_⟩
    · intro v accepted
      obtain ⟨number, unit, written, fits⟩ := written_of_parseBodySize accepted
      rw [(parseBodySize_written written).1 fits, scale_ok profile unit (room number unit written fits)]
        at accepted
      cases accepted
      exact ⟨number, unit, written, rfl⟩
    · intro number unit written large
      apply (parseBodySize_written written).2
      by_contra fits
      have small := room number unit written (by omega)
      omega

/-- `2 ^ 54` kilobytes are `2 ^ 64` bytes: accepted as no bytes at all, or a panic. -/
theorem kilobytes_wrap :
    parseBodySize .release asciiTables "18014398509481984kb".toList = .ok (.ok 0) ∧
      parseBodySize .dev asciiTables "18014398509481984kb".toList = .error .mulOverflow ∧
      ∀ profile, ¬ NeverWraps profile asciiTables "18014398509481984kb".toList := by
  have written : Written asciiTables "18014398509481984kb".toList 18014398509481984 .kilobytes :=
    ⟨"18014398509481984".toList, by decide +kernel, by decide +kernel, by decide +kernel⟩
  refine ⟨by decide +kernel, by decide +kernel, ?_⟩
  intro profile never
  obtain ⟨message, refused⟩ := never.2 _ _ written (by decide)
  cases profile with
  | dev =>
    have outcome : parseBodySize .dev asciiTables "18014398509481984kb".toList =
      .error .mulOverflow := by decide +kernel
    cases outcome.symm.trans refused
  | release =>
    have outcome : parseBodySize .release asciiTables "18014398509481984kb".toList =
      .ok (.ok 0) := by decide +kernel
    cases outcome.symm.trans refused

end LocalServer.BodySizes
