import LocalServer.Library.Text

/-! Reading unsigned integers the way `from_str_radix` does: an optional plus sign, at
least one digit, and failure as soon as the value leaves the type. -/

namespace LocalServer.Library.Numeral
open Text

def toDigit (radix : Nat) (c : Char) : Option Nat :=
  let code := c.toNat
  let value :=
    if 48 ≤ code ∧ code ≤ 57 then some (code - 48)
    else if 97 ≤ code ∧ code ≤ 122 then some (code - 87)
    else if 65 ≤ code ∧ code ≤ 90 then some (code - 55)
    else none
  value.filter (· < radix)

def digitStep (radix limit acc : Nat) (c : Char) : Option Nat :=
  match toDigit radix c with
  | none => none
  | some digit => if acc * radix + digit < limit then some (acc * radix + digit) else none

/-- `from_str_radix` of an unsigned type with `limit` values. -/
def fromStrRadix (radix limit : Nat) (s : Str) : Option Nat :=
  match s with
  | [] => none
  | ['+'] => none
  | '+' :: digits => digits.foldlM (digitStep radix limit) 0
  | digits => digits.foldlM (digitStep radix limit) 0

/-- The number a text denotes; characters that are no digits count as zero. -/
def valueFrom (radix : Nat) (acc : Nat) : Str → Nat
  | [] => acc
  | c :: digits => valueFrom radix (acc * radix + (toDigit radix c).getD 0) digits

def value (radix : Nat) (digits : Str) : Nat := valueFrom radix 0 digits

def IsDigits (radix : Nat) (digits : Str) : Prop :=
  digits ≠ [] ∧ ∀ c ∈ digits, (toDigit radix c).isSome = true

instance (radix : Nat) (digits : Str) : Decidable (IsDigits radix digits) :=
  inferInstanceAs (Decidable (digits ≠ [] ∧ ∀ c ∈ digits, (toDigit radix c).isSome = true))

variable {radix limit : Nat}

theorem le_valueFrom (positive : 0 < radix) (acc : Nat) (digits : Str) :
    acc ≤ valueFrom radix acc digits := by
  induction digits generalizing acc with
  | nil => exact Nat.le_refl acc
  | cons c digits ih =>
    calc acc ≤ acc * radix := Nat.le_mul_of_pos_right acc positive
      _ ≤ acc * radix + (toDigit radix c).getD 0 := Nat.le_add_right _ _
      _ ≤ _ := ih _

/-- The digit loop succeeds exactly on digits whose value fits. -/
theorem foldlM_digitStep (positive : 0 < radix) (digits : Str) (acc result : Nat)
    (fits : acc < limit) :
    digits.foldlM (digitStep radix limit) acc = some result ↔
      (∀ c ∈ digits, (toDigit radix c).isSome = true) ∧
        result = valueFrom radix acc digits ∧ result < limit := by
  induction digits generalizing acc with
  | nil =>
    simp only [List.foldlM_nil, Option.pure_def, Option.some.injEq, List.not_mem_nil,
      false_implies, implies_true, valueFrom, true_and]
    constructor
    · intro same
      subst same
      exact ⟨rfl, fits⟩
    · intro same
      obtain ⟨rfl, -⟩ := same
      rfl
  | cons c digits ih =>
    rw [List.foldlM_cons]
    cases known : toDigit radix c with
    | none => simp [digitStep, known]
    | some digit =>
      simp only [digitStep, known, List.mem_cons, forall_eq_or_imp, Option.isSome_some, true_and,
        valueFrom, Option.getD_some]
      by_cases inRange : acc * radix + digit < limit
      · rw [if_pos inRange]
        exact ih _ inRange
      · have grown := le_valueFrom positive (acc * radix + digit) digits
        rw [if_neg inRange]
        simp only [Option.bind_eq_bind, Option.bind_none, reduceCtorEq, false_iff]
        intro same
        obtain ⟨-, rfl, small⟩ := same
        omega

def dropPlus : Str → Str
  | '+' :: digits => digits
  | digits => digits

theorem fromStrRadix_eq_some (positive : 0 < radix) (room : 0 < limit) (s : Str) (result : Nat) :
    fromStrRadix radix limit s = some result ↔
      IsDigits radix (dropPlus s) ∧ result = value radix (dropPlus s) ∧ result < limit := by
  unfold fromStrRadix
  split
  · simp [dropPlus, IsDigits]
  · simp [dropPlus, IsDigits]
  · next digits notAlone =>
    have nonempty : digits ≠ [] := by
      intro same
      subst same
      exact notAlone rfl
    rw [foldlM_digitStep positive digits 0 result room]
    simp [dropPlus, IsDigits, nonempty, value]
  · next nonempty notAlone notPlus =>
    have kept : dropPlus s = s := by
      unfold dropPlus
      split
      · next digits => exact absurd rfl (notPlus digits)
      · rfl
    rw [foldlM_digitStep positive s 0 result room, kept]
    have nonempty' : s ≠ [] := fun empty => nonempty empty
    simp [IsDigits, nonempty', value]

theorem toDigit_plus : toDigit radix '+' = none := by
  simp [toDigit]

theorem dropPlus_digits {digits : Str} (isDigits : IsDigits radix digits) :
    dropPlus digits = digits := by
  unfold dropPlus
  split
  · have plus := isDigits.2 '+' (by simp)
    rw [toDigit_plus] at plus
    cases plus
  · rfl

theorem fromStrRadix_digits (positive : 0 < radix) {digits : Str}
    (isDigits : IsDigits radix digits) (fits : value radix digits < limit) :
    fromStrRadix radix limit digits = some (value radix digits) := by
  rw [fromStrRadix_eq_some positive (by omega), dropPlus_digits isDigits]
  exact ⟨isDigits, rfl, fits⟩

/-- Digits are ASCII letters and numerals, hence neither blanks nor line ends. -/
theorem toDigit_ascii {c : Char} (digit : (toDigit radix c).isSome = true) :
    (48 ≤ c.toNat ∧ c.toNat ≤ 57) ∨ (97 ≤ c.toNat ∧ c.toNat ≤ 122) ∨
      (65 ≤ c.toNat ∧ c.toNat ≤ 90) := by
  simp only [toDigit] at digit
  split_ifs at digit with numeral lower upper
  · exact Or.inl numeral
  · exact Or.inr (Or.inl lower)
  · exact Or.inr (Or.inr upper)
  · simp at digit

theorem isWhitespace_digit {c : Char} (digit : (toDigit radix c).isSome = true) :
    isWhitespace c = false := by
  have range := toDigit_ascii digit
  simp only [isWhitespace, Bool.or_eq_false_iff, Bool.and_eq_false_iff, beq_eq_false_iff_ne,
    decide_eq_false_iff_not]
  omega

theorem toDigit_isDigit {c : Char} (digit : c.isDigit = true) : toDigit 10 c = some (c.toNat - 48) := by
  have range : 48 ≤ c.toNat ∧ c.toNat ≤ 57 := by
    rwa [Char.isDigit_iff_toNat] at digit
  rw [toDigit, if_pos range]
  simp only [Option.filter_some, decide_eq_true_eq]
  rw [if_pos (by omega)]

theorem isDigit_toDigits (n : Nat) {c : Char} (member : c ∈ Nat.toDigits 10 n) : c.isDigit = true :=
  Nat.isDigit_of_mem_toDigits (by decide) (by decide) member

theorem toLowercase_toDigits (tables : CaseTables) (n : Nat) :
    toLowercase tables (Nat.toDigits 10 n) = Nat.toDigits 10 n := by
  have range : ∀ c ∈ Nat.toDigits 10 n, c.toNat ≤ 57 := by
    intro c member
    have digit := isDigit_toDigits n member
    rw [Char.isDigit_iff_toNat] at digit
    exact digit.2
  have ascii : ∀ c ∈ Nat.toDigits 10 n, isAscii c = true := by
    intro c member
    have below := range c member
    simp only [isAscii, decide_eq_true_eq]
    omega
  calc toLowercase tables (Nat.toDigits 10 n)
      = (Nat.toDigits 10 n).map asciiLower := toLowercase_ascii tables _ ascii
    _ = (Nat.toDigits 10 n).map id := List.map_congr_left fun c member =>
        if_neg (by have below := range c member; omega)
    _ = Nat.toDigits 10 n := List.map_id _

theorem isDigits_toDigits (n : Nat) : IsDigits 10 (Nat.toDigits 10 n) := by
  refine ⟨Nat.toDigits_ne_nil, ?_⟩
  intro c member
  rw [toDigit_isDigit (isDigit_toDigits n member)]
  rfl

theorem valueFrom_eq_ofDigitChars (acc : Nat) (digits : Str)
    (allDigits : ∀ c ∈ digits, c.isDigit = true) :
    valueFrom 10 acc digits = Nat.ofDigitChars 10 digits acc := by
  induction digits generalizing acc with
  | nil => rfl
  | cons c digits ih =>
    rw [valueFrom, Nat.ofDigitChars_cons, toDigit_isDigit (allDigits c List.mem_cons_self),
      ih _ fun d member => allDigits d (List.mem_cons_of_mem _ member), Nat.mul_comm]
    rfl

/-- Reading the digits of a number gives the number. -/
theorem fromStrRadix_toDigits {n : Nat} (fits : n < limit) :
    fromStrRadix 10 limit (Nat.toDigits 10 n) = some n := by
  have value_eq : value 10 (Nat.toDigits 10 n) = n := by
    rw [value, valueFrom_eq_ofDigitChars 0 _ fun c => isDigit_toDigits n,
      Nat.ofDigitChars_toDigits (by decide) (by decide)]
  rw [fromStrRadix_digits (by decide) (isDigits_toDigits n) (by rw [value_eq]; exact fits), value_eq]

/-! Hexadecimal digits -/

/-- `{:0widthx}` -/
def hexadecimal (width n : Nat) : Str := (Nat.toDigits 16 n).leftpad width '0'

theorem toDigit_digitChar {digit : Nat} (small : digit < 16) :
    toDigit 16 digit.digitChar = some digit := by
  interval_cases digit <;> rfl

theorem valueFrom_append (acc : Nat) (first second : Str) :
    valueFrom radix acc (first ++ second) = valueFrom radix (valueFrom radix acc first) second := by
  induction first generalizing acc with
  | nil => rfl
  | cons c first ih => exact ih _

theorem isDigits_hexDigits (n : Nat) : IsDigits 16 (Nat.toDigits 16 n) := by
  refine ⟨Nat.toDigits_ne_nil, ?_⟩
  induction n using Nat.strongRecOn with
  | ind n ih =>
    intro c member
    by_cases small : n < 16
    · rw [Nat.toDigits_of_lt_base small, List.mem_singleton] at member
      rw [member, toDigit_digitChar small]
      rfl
    · rw [Nat.toDigits_of_base_le (by omega) (by omega), List.mem_append, List.mem_singleton] at member
      rcases member with earlier | last
      · exact ih (n / 16) (by omega) c earlier
      · rw [last, toDigit_digitChar (by omega)]
        rfl

theorem value_hexDigits (n : Nat) : value 16 (Nat.toDigits 16 n) = n := by
  induction n using Nat.strongRecOn with
  | ind n ih =>
    by_cases small : n < 16
    · rw [Nat.toDigits_of_lt_base small, value, valueFrom, valueFrom, toDigit_digitChar small]
      simp
    · have parts := Nat.div_add_mod n 16
      have earlier := ih (n / 16) (by omega)
      rw [value] at earlier
      rw [Nat.toDigits_of_base_le (by omega) (by omega), value, valueFrom_append, earlier, valueFrom,
        valueFrom, toDigit_digitChar (by omega), Option.getD_some]
      omega

theorem isDigits_hexadecimal (width n : Nat) : IsDigits 16 (hexadecimal width n) := by
  refine ⟨by simp [hexadecimal, List.leftpad, Nat.toDigits_ne_nil], ?_⟩
  intro c member
  rw [hexadecimal, List.leftpad, List.mem_append, List.mem_replicate] at member
  rcases member with ⟨-, padding⟩ | digit
  · rw [padding]
    rfl
  · exact (isDigits_hexDigits n).2 c digit

theorem value_hexadecimal (width n : Nat) : value 16 (hexadecimal width n) = n := by
  have zeros : ∀ count, valueFrom 16 0 (List.replicate count '0') = 0 := by
    intro count
    induction count with
    | zero => rfl
    | succ count ih => exact ih
  rw [hexadecimal, List.leftpad, value, valueFrom_append, zeros]
  exact value_hexDigits n

theorem hexadecimal_injective (width : Nat) : Function.Injective (hexadecimal width) := by
  intro n m same
  calc
    n = value 16 (hexadecimal width n) := (value_hexadecimal width n).symm
    _ = value 16 (hexadecimal width m) := by rw [same]
    _ = m := value_hexadecimal width m

end LocalServer.Library.Numeral
