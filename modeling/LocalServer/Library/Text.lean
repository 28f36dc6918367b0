import Mathlib.Data.List.DropRight
import Mathlib.Tactic.IntervalCases
import LocalServer.Library.Search

/-! The string operations of the Rust standard library on text as a list of characters.
Case mapping beyond ASCII is read from tables, as it is there. -/

namespace LocalServer.Library.Text
open Search

abbrev Str := List Char

instance (priority := high) decidableBall (text : Str) (p : Char → Prop) [DecidablePred p] :
    Decidable (∀ c ∈ text, p c) := List.decidableBAll p text

/-- `char::is_whitespace`, the Unicode property White_Space. -/
def isWhitespace (c : Char) : Bool :=
  let code := c.toNat
  (9 ≤ code && code ≤ 13) || code == 0x20 || code == 0x85 || code == 0xA0 || code == 0x1680 ||
    (0x2000 ≤ code && code ≤ 0x200A) || code == 0x2028 || code == 0x2029 || code == 0x202F ||
    code == 0x205F || code == 0x3000

def trimStart (s : Str) : Str := s.dropWhile isWhitespace
def trimEnd (s : Str) : Str := s.rdropWhile isWhitespace
def trim (s : Str) : Str := trimEnd (trimStart s)

def trimStartMatches (c : Char) (s : Str) : Str := s.dropWhile (· == c)
def trimEndMatches (c : Char) (s : Str) : Str := s.rdropWhile (· == c)

def startsWith (s pattern : Str) : Bool := pattern.isPrefixOf s
def endsWith (s pattern : Str) : Bool := pattern.isSuffixOf s

def stripPrefix (pattern s : Str) : Option Str :=
  if startsWith s pattern then some (s.drop pattern.length) else none

def stripSuffix (pattern s : Str) : Option Str :=
  if endsWith s pattern then some (s.take (s.length - pattern.length)) else none

/-- `split_once` on a character: what stands before its first occurrence, and after. -/
def splitOnce (c : Char) (s : Str) : Option (Str × Str) :=
  match s.dropWhile (· != c) with
  | [] => none
  | _ :: after => some (s.takeWhile (· != c), after)

def splitWhitespace (s : Str) : List Str := (s.splitOnP isWhitespace).filter (· ≠ [])

/-- A terminated line loses the carriage return before its newline. -/
def stripCr (line : Str) : Str :=
  if line.getLast? = some '\r' then line.dropLast else line

/-- `str::lines`: an unterminated last line is kept as it is, an empty one is dropped. -/
def lines (s : Str) : List Str :=
  let pieces := s.splitOnP (· == '\n')
  pieces.dropLast.map stripCr ++ pieces.getLast?.toList.filter (· ≠ [])

structure Unpadded (s : Str) : Prop where
  head : ∀ c ∈ s.head?, isWhitespace c = false
  last : ∀ c ∈ s.getLast?, isWhitespace c = false

instance (s : Str) : Decidable (Unpadded s) :=
  decidable_of_iff (s.head?.all (!isWhitespace ·) = true ∧ s.getLast?.all (!isWhitespace ·) = true) <| by
    simp only [Option.all_eq_true, Bool.not_eq_true']
    exact ⟨fun both => ⟨both.1, both.2⟩, fun unpadded => ⟨unpadded.head, unpadded.last⟩⟩

theorem trimStart_pad (padding s : Str) (blank : ∀ c ∈ padding, isWhitespace c = true) :
    trimStart (padding ++ s) = trimStart s :=
  List.dropWhile_append_of_pos blank

theorem trimEnd_pad (padding s : Str) (blank : ∀ c ∈ padding, isWhitespace c = true) :
    trimEnd (s ++ padding) = trimEnd s := by
  unfold trimEnd List.rdropWhile
  rw [List.reverse_append, List.dropWhile_append_of_pos (by simpa using blank)]

theorem trimEnd_of_last {s : Str} (last : ∀ c ∈ s.getLast?, isWhitespace c = false) :
    trimEnd s = s := by
  unfold trimEnd
  rw [List.rdropWhile_eq_self_iff]
  intro nonempty
  rw [last _ (List.getLast?_eq_some_getLast nonempty)]
  decide

theorem trimStart_of_head {s : Str} (head : ∀ c ∈ s.head?, isWhitespace c = false) :
    trimStart s = s := by
  cases s with
  | nil => rfl
  | cons c s => simp [trimStart, head c rfl]

/-- Trimming recovers the text from any surrounding whitespace. -/
theorem trim_pad {before s after : Str} (unpadded : Unpadded s)
    (blankBefore : ∀ c ∈ before, isWhitespace c = true)
    (blankAfter : ∀ c ∈ after, isWhitespace c = true) : trim (before ++ s ++ after) = s := by
  rw [trim, List.append_assoc, trimStart_pad _ _ blankBefore]
  cases s with
  | nil =>
    rw [List.nil_append]
    have gone : trimStart after = [] := by
      rw [trimStart, List.dropWhile_eq_nil_iff]
      exact blankAfter
    rw [gone]
    rfl
  | cons c s =>
    have kept : trimStart (c :: s ++ after) = c :: s ++ after := trimStart_of_head (by
      intro d first
      exact unpadded.head d first)
    rw [kept, trimEnd_pad _ _ blankAfter, trimEnd_of_last unpadded.last]

theorem trim_append_blanks (s : Str) {padding : Str} (blank : ∀ c ∈ padding, isWhitespace c = true) :
    trim (s ++ padding) = trim s := by
  have gone : trimStart padding = [] := by
    rw [trimStart, List.dropWhile_eq_nil_iff]
    exact blank
  rw [trim, trim]
  by_cases allBlank : ∀ c ∈ s, isWhitespace c = true
  · have empty : trimStart s = [] := by
      rw [trimStart, List.dropWhile_eq_nil_iff]
      exact allBlank
    rw [trimStart_pad s padding allBlank, gone, empty]
  · have nonempty : trimStart s ≠ [] := by
      rw [trimStart, ne_eq, List.dropWhile_eq_nil_iff]
      exact allBlank
    have kept : trimStart (s ++ padding) = trimStart s ++ padding := by
      unfold trimStart at nonempty ⊢
      rw [List.dropWhile_append, if_neg (by rwa [List.isEmpty_iff])]
    rw [kept, trimEnd_pad _ _ blank]

theorem trim_prepend_blanks {padding : Str} (s : Str) (blank : ∀ c ∈ padding, isWhitespace c = true) :
    trim (padding ++ s) = trim s := by
  rw [trim, trim, trimStart_pad padding s blank]

theorem trimStart_split (s : Str) :
    ∃ padding, s = padding ++ trimStart s ∧ ∀ c ∈ padding, isWhitespace c = true :=
  ⟨s.takeWhile isWhitespace, List.takeWhile_append_dropWhile.symm, fun _ => List.mem_takeWhile_imp⟩

theorem trimEndMatches_replicate (c : Char) (s : Str) (count : Nat) :
    trimEndMatches c (s ++ List.replicate count c) = trimEndMatches c s := by
  induction count with
  | zero => rw [List.replicate_zero, List.append_nil]
  | succ count ih =>
    rw [List.replicate_succ', ← List.append_assoc, trimEndMatches, List.rdropWhile_concat,
      if_pos (beq_self_eq_true c)]
    exact ih

theorem trimEnd_split (s : Str) :
    ∃ padding, s = trimEnd s ++ padding ∧ ∀ c ∈ padding, isWhitespace c = true :=
  ⟨s.rtakeWhile isWhitespace, List.rdropWhile_append_rtakeWhile.symm, fun _ => List.mem_rtakeWhile_imp⟩

@[simp] theorem trim_trimStart (s : Str) : trim (trimStart s) = trim s := by
  obtain ⟨padding, split, blank⟩ := trimStart_split s
  conv_rhs => rw [split, trim_prepend_blanks _ blank]

@[simp] theorem trim_trimEnd (s : Str) : trim (trimEnd s) = trim s := by
  obtain ⟨padding, split, blank⟩ := trimEnd_split s
  conv_rhs => rw [split, trim_append_blanks _ blank]

@[simp] theorem trim_trim (s : Str) : trim (trim s) = trim s := by
  show trim (trimEnd (trimStart s)) = trim s
  rw [trim_trimEnd, trim_trimStart]

theorem trimStart_mark (before : Str) {mark : Char} (after : Str)
    (visible : isWhitespace mark = false) :
    trimStart (before ++ mark :: after) = trimStart before ++ mark :: after := by
  unfold trimStart
  rw [List.dropWhile_append]
  split_ifs with allBlank
  · rw [List.isEmpty_iff.mp allBlank, List.nil_append,
      List.dropWhile_cons_of_neg (by rw [visible]; decide)]
  · rfl

/-- A mark in the text is not trimmed away, and nothing behind or before it is reached. -/
theorem trim_around (before : Str) {mark : Char} (after : Str) (visible : isWhitespace mark = false) :
    trim (before ++ mark :: after) = trimStart before ++ mark :: trimEnd after := by
  rw [trim, trimStart_mark before after visible]
  unfold trimEnd List.rdropWhile
  rw [List.reverse_append, List.reverse_cons, List.append_assoc, List.singleton_append]
  have mirrored := trimStart_mark after.reverse (trimStart before).reverse visible
  unfold trimStart at mirrored ⊢
  rw [mirrored]
  simp

/-! Splitting -/

theorem splitOnce_append {c : Char} {before : Str} (after : Str) (fresh : c ∉ before) :
    splitOnce c (before ++ c :: after) = some (before, after) := by
  have keep : ∀ d ∈ before, (d != c) = true := by
    intro d member
    simpa using fun same : d = c => fresh (same ▸ member)
  unfold splitOnce
  rw [List.dropWhile_append_of_pos keep, List.takeWhile_append_of_pos keep]
  simp

theorem splitOnP_prepend_plain {p : Char → Bool} {padding : Str} (s : Str)
    (plain : ∀ c ∈ padding, p c = false) :
    (padding ++ s).splitOnP p = (s.splitOnP p).modifyHead (padding ++ ·) := by
  induction padding with
  | nil =>
    rw [List.nil_append]
    cases s.splitOnP p <;> rfl
  | cons c padding ih =>
    have rest := ih fun d member => plain d (List.mem_cons_of_mem c member)
    rw [List.cons_append, List.splitOnP_cons_eq_if_modifyHead,
      if_neg (by rw [plain c List.mem_cons_self]; decide), rest]
    cases s.splitOnP p <;> rfl

theorem splitOnP_append_plain {p : Char → Bool} (s : Str) {padding : Str}
    (plain : ∀ c ∈ padding, p c = false) :
    ∃ pieces last, s.splitOnP p = pieces ++ [last] ∧
      (s ++ padding).splitOnP p = pieces ++ [last ++ padding] := by
  induction s with
  | nil => exact ⟨[], [], List.splitOnP_nil, List.splitOnP_eq_singleton plain⟩
  | cons c s ih =>
    obtain ⟨pieces, last, alone, padded⟩ := ih
    rw [List.cons_append, List.splitOnP_cons_eq_if_modifyHead, List.splitOnP_cons_eq_if_modifyHead,
      alone, padded]
    by_cases mark : p c = true
    · rw [if_pos mark, if_pos mark]
      exact ⟨[] :: pieces, last, rfl, rfl⟩
    · rw [if_neg mark, if_neg mark]
      cases pieces with
      | nil => exact ⟨[], c :: last, rfl, rfl⟩
      | cons piece pieces => exact ⟨(c :: piece) :: pieces, last, rfl, rfl⟩

theorem map_trim_splitOnP_trim {p : Char → Bool} (s : Str)
    (visible : ∀ c, isWhitespace c = true → p c = false) :
    ((trim s).splitOnP p).map trim = (s.splitOnP p).map trim := by
  have start : ∀ s : Str, ((trimStart s).splitOnP p).map trim = (s.splitOnP p).map trim := by
    intro s
    obtain ⟨padding, split, blank⟩ := trimStart_split s
    conv_rhs => rw [split, splitOnP_prepend_plain _ fun c member => visible c (blank c member)]
    cases (trimStart s).splitOnP p with
    | nil => rfl
    | cons piece pieces =>
      rw [List.modifyHead_cons, List.map_cons, List.map_cons, trim_prepend_blanks _ blank]
  have finish : ∀ s : Str, ((trimEnd s).splitOnP p).map trim = (s.splitOnP p).map trim := by
    intro s
    obtain ⟨padding, split, blank⟩ := trimEnd_split s
    obtain ⟨pieces, last, alone, padded⟩ :=
      splitOnP_append_plain (trimEnd s) fun c member => visible c (blank c member)
    rw [← split] at padded
    rw [alone, padded, List.map_append, List.map_append, List.map_singleton, List.map_singleton,
      trim_append_blanks _ blank]
  rw [trim, finish, start]

/-- The last mark tells what stands before it from what stands after. -/
theorem append_mark_inj {c : Char} {before before' after after' : Str} (fresh : c ∉ after)
    (fresh' : c ∉ after') :
    before ++ c :: after = before' ++ c :: after' ↔ before = before' ∧ after = after' := by
  constructor
  · intro same
    have mirrored : after.reverse ++ c :: before.reverse = after'.reverse ++ c :: before'.reverse := by
      simpa using congrArg List.reverse same
    have split := congrArg (splitOnce c) mirrored
    rw [splitOnce_append _ (by simpa using fresh), splitOnce_append _ (by simpa using fresh'),
      Option.some.injEq, Prod.mk.injEq, List.reverse_inj, List.reverse_inj] at split
    exact ⟨split.2, split.1⟩
  · intro parts
    rw [parts.1, parts.2]

/-- Two marks around a part that holds none: the parts are the same, or one text ends its first part
where the other is still in its last. -/
theorem append_two_marks {c : Char} {first part last first' part' last' : Str} (fresh : c ∉ part)
    (fresh' : c ∉ part') :
    first ++ c :: (part ++ c :: last) = first' ++ c :: (part' ++ c :: last') ↔
      (first = first' ∧ part = part' ∧ last = last') ∨
        (∃ middle, first' = first ++ c :: part ++ middle ∧ c :: last = middle ++ c :: (part' ++ c :: last')) ∨
        ∃ middle, first = first' ++ c :: part' ++ middle ∧ c :: last' = middle ++ c :: (part ++ c :: last) := by
  have shorter : ∀ {first part last first' part' last' : Str} (excess : Str), c ∉ part → c ∉ part' →
      first' = first ++ excess → c :: (part ++ c :: last) = excess ++ c :: (part' ++ c :: last') →
      (first = first' ∧ part = part' ∧ last = last') ∨
        ∃ middle, first' = first ++ c :: part ++ middle ∧
          c :: last = middle ++ c :: (part' ++ c :: last') := by
    intro first part last first' part' last' excess fresh fresh' longer same
    cases excess with
    | nil =>
      left
      have split := congrArg (splitOnce c) (List.cons.inj same).2
      rw [splitOnce_append _ fresh, splitOnce_append _ fresh', Option.some.injEq, Prod.mk.injEq] at split
      rw [List.append_nil] at longer
      exact ⟨longer.symm, split.1, split.2⟩
    | cons d excess =>
      right
      obtain ⟨rfl, rest⟩ := List.cons.inj same
      rcases List.append_eq_append_iff.mp rest with ⟨middle, past, left⟩ | ⟨middle, inside, right⟩
      · exact ⟨middle, by rw [longer, past]; simp, left⟩
      · cases middle with
        | nil => exact ⟨[], by rw [longer, inside]; simp, right.symm⟩
        | cons e middle =>
          obtain ⟨rfl, -⟩ := List.cons.inj right
          exact absurd (by rw [inside]; simp) fresh
  constructor
  · intro same
    rcases List.append_eq_append_iff.mp same with ⟨excess, longer, rest⟩ | ⟨excess, longer, rest⟩
    · rcases shorter excess fresh fresh' longer rest with equal | confused
      · exact Or.inl equal
      · exact Or.inr (Or.inl confused)
    · rcases shorter excess fresh' fresh longer rest with equal | confused
      · exact Or.inl ⟨equal.1.symm, equal.2.1.symm, equal.2.2.symm⟩
      · exact Or.inr (Or.inr confused)
  · rintro (⟨rfl, rfl, rfl⟩ | ⟨middle, rfl, last⟩ | ⟨middle, rfl, last⟩)
    · rfl
    · rw [last]
      simp
    · rw [last]
      simp

def IsWord (s : Str) : Prop := s ≠ [] ∧ ∀ c ∈ s, isWhitespace c = false

instance (s : Str) : Decidable (IsWord s) :=
  inferInstanceAs (Decidable (s ≠ [] ∧ ∀ c ∈ s, isWhitespace c = false))

theorem IsWord.not_mem {word : Str} (isWord : IsWord word) {mark : Char}
    (white : isWhitespace mark = true) : mark ∉ word := by
  intro member
  rw [isWord.2 mark member] at white
  cases white

theorem splitWhitespace_word {word : Str} (isWord : IsWord word) : splitWhitespace word = [word] := by
  rw [splitWhitespace, List.splitOnP_eq_singleton isWord.2]
  simp [isWord.1]

theorem splitWhitespace_cons {word : Str} {blank : Char} (rest : Str) (isWord : IsWord word)
    (white : isWhitespace blank = true) :
    splitWhitespace (word ++ blank :: rest) = word :: splitWhitespace rest := by
  rw [splitWhitespace, List.splitOnP_append_cons_of_forall_mem isWord.2 blank white]
  simp [isWord.1, splitWhitespace]

theorem splitWhitespace_append (before : Str) {blank : Char} (after : Str)
    (white : isWhitespace blank = true) :
    splitWhitespace (before ++ blank :: after) = splitWhitespace before ++ splitWhitespace after := by
  unfold splitWhitespace
  rw [List.splitOnP_append_cons before after white, List.filter_append]

/-- A text that starts with a word: the word goes up to the first whitespace. -/
theorem splitWhitespace_takeWhile {s : Str} (starts : s.takeWhile (!isWhitespace ·) ≠ []) :
    ∃ others, splitWhitespace s = s.takeWhile (!isWhitespace ·) :: others := by
  have isWord : IsWord (s.takeWhile (!isWhitespace ·)) := by
    refine ⟨starts, fun c member => ?_⟩
    simpa using List.mem_takeWhile_imp member
  have whole := @List.takeWhile_append_dropWhile _ (!isWhitespace ·) s
  cases rest : s.dropWhile (!isWhitespace ·) with
  | nil =>
    rw [rest, List.append_nil] at whole
    refine ⟨[], ?_⟩
    conv_lhs => rw [← whole, splitWhitespace_word isWord]
  | cons blank after =>
    rw [rest] at whole
    have white := List.head?_dropWhile_not (!isWhitespace ·) s
    rw [rest] at white
    refine ⟨splitWhitespace after, ?_⟩
    conv_lhs => rw [← whole, splitWhitespace_cons after isWord (by simpa using white)]

theorem splitOnP_lacks {p : Char → Bool} {s piece : Str} (member : piece ∈ s.splitOnP p) :
    ∀ c ∈ piece, p c = false := by
  induction s generalizing piece with
  | nil =>
    rw [List.splitOnP_nil, List.mem_singleton] at member
    simp [member]
  | cons x rest ih =>
    obtain ⟨first, others, shape⟩ := List.exists_cons_of_ne_nil (List.splitOnP_ne_nil p rest)
    rw [List.splitOnP_cons_eq_if_modifyHead] at member
    split_ifs at member with mark
    · rcases List.mem_cons.mp member with rfl | later
      · simp
      · exact ih later
    · rw [shape, List.modifyHead_cons] at member
      rw [shape] at ih
      rcases List.mem_cons.mp member with rfl | later
      · intro c inPiece
        rcases List.mem_cons.mp inPiece with rfl | inFirst
        · simpa using mark
        · exact ih List.mem_cons_self c inFirst
      · exact ih (List.mem_cons_of_mem _ later)

theorem stripCr_subset (line : Str) : stripCr line ⊆ line := by
  unfold stripCr
  split_ifs
  · exact List.dropLast_subset line
  · exact List.Subset.refl line

theorem lines_single {s line : Str} (member : line ∈ lines s) : '\n' ∉ line := by
  have pieces : ∀ piece ∈ s.splitOnP (· == '\n'), '\n' ∉ piece := by
    intro piece isPiece inside
    exact absurd (splitOnP_lacks isPiece '\n' inside) (by decide)
  rcases List.mem_append.mp member with ended | last
  · obtain ⟨piece, isPiece, rfl⟩ := List.mem_map.mp ended
    intro inside
    exact pieces piece (List.dropLast_subset _ isPiece) (stripCr_subset piece inside)
  · have isLast := (List.mem_filter.mp last).1
    exact pieces line (List.mem_of_getLast? (Option.mem_toList.mp isLast))

theorem trim_subset (s : Str) : trim s ⊆ s := by
  have start : trimStart s ⊆ s := (List.dropWhile_sublist _).subset
  exact List.Subset.trans (List.rdropWhile_prefix isWhitespace (trimStart s)).subset start

theorem splitOnce_eq_some {c : Char} {s before after : Str}
    (split : splitOnce c s = some (before, after)) : s = before ++ c :: after ∧ c ∉ before := by
  unfold splitOnce at split
  have whole := @List.takeWhile_append_dropWhile _ (· != c) s
  have first := List.head?_dropWhile_not (· != c) s
  cases rest : s.dropWhile (· != c) with
  | nil =>
    rw [rest] at split
    cases split
  | cons mark tail =>
    rw [rest] at split whole first
    cases split
    have isMark : mark = c := by simpa using first
    rw [isMark] at whole
    refine ⟨whole.symm, ?_⟩
    intro member
    simpa using List.mem_takeWhile_imp member

theorem splitOnce_subset {c : Char} {s before after : Str}
    (split : splitOnce c s = some (before, after)) : after ⊆ s := by
  rw [(splitOnce_eq_some split).1]
  intro d member
  simp [member]

theorem lines_cons {line : Str} (rest : Str) (single : '\n' ∉ line) :
    lines (line ++ '\n' :: rest) = stripCr line :: lines rest := by
  have split : (line ++ '\n' :: rest).splitOnP (· == '\n') = line :: rest.splitOnP (· == '\n') :=
    List.splitOnP_append_cons_of_forall_mem
      (fun c member => by simpa using fun same : c = '\n' => single (same ▸ member)) '\n' rfl rest
  obtain ⟨piece, pieces, shape⟩ := List.exists_cons_of_ne_nil
    (List.splitOnP_ne_nil (· == '\n') rest)
  simp only [lines, split, shape, List.dropLast_cons_cons, List.map_cons, List.cons_append,
    List.getLast?_cons_cons]

theorem lines_last {line : Str} (single : '\n' ∉ line) (nonempty : line ≠ []) :
    lines line = [line] := by
  have split : line.splitOnP (· == '\n') = [line] := List.splitOnP_eq_singleton
    (fun c member => by simpa using fun same : c = '\n' => single (same ▸ member))
  simp [lines, split, nonempty]

/-- Behind the first line, or behind what is followed by a carriage return, stands whitespace. -/
theorem lines_first {s first : Str} {others : List Str} (split : lines s = first :: others)
    (after : Str) : ∃ blank rest, isWhitespace blank = true ∧ s ++ '\r' :: after = first ++ blank :: rest := by
  by_cases single : '\n' ∈ s
  · obtain ⟨line, rest, rfl, fresh⟩ := List.eq_append_cons_of_mem single
    rw [lines_cons rest fresh] at split
    obtain ⟨rfl, -⟩ := List.cons.inj split
    unfold stripCr
    split_ifs with ended
    · obtain ⟨start, rfl⟩ := List.getLast?_eq_some_iff.mp ended
      exact ⟨'\r', '\n' :: rest ++ '\r' :: after, rfl, by simp⟩
    · exact ⟨'\n', rest ++ '\r' :: after, rfl, by simp⟩
  · have alone : s ≠ [] := by
      rintro rfl
      cases split
    rw [lines_last single alone] at split
    cases split
    exact ⟨'\r', after, rfl, rfl⟩

theorem stripCr_terminated (line : Str) : stripCr (line ++ ['\r']) = line := by
  simp [stripCr]

def joinLines : List Str → Str
  | [] => []
  | [line] => line
  | line :: rest => line ++ '\r' :: '\n' :: joinLines rest

theorem lines_joinLines {all : List Str} (nonempty : ∀ line ∈ all, line ≠ [])
    (single : ∀ line ∈ all, '\n' ∉ line) : lines (joinLines all) = all := by
  induction all with
  | nil => rfl
  | cons line rest ih =>
    have tail := ih (fun l member => nonempty l (by simp [member]))
      (fun l member => single l (by simp [member]))
    cases rest with
    | nil => exact lines_last (single line (by simp)) (nonempty line (by simp))
    | cons next rest =>
      have terminated : '\n' ∉ line ++ ['\r'] := by
        simpa using single line (by simp)
      rw [joinLines, show line ++ '\r' :: '\n' :: joinLines (next :: rest) =
        (line ++ ['\r']) ++ '\n' :: joinLines (next :: rest) by simp, lines_cons _ terminated,
        stripCr_terminated, tail]
      simp

theorem stripSuffix_of_not_mem {pattern s : Str} {c : Char} (member : c ∈ pattern)
    (absent : c ∉ s) : stripSuffix pattern s = none := by
  apply if_neg
  intro ends
  rw [endsWith, List.isSuffixOf_iff_suffix] at ends
  exact absent (ends.subset member)

theorem trim_of_no_whitespace {s : Str} (plain : ∀ c ∈ s, isWhitespace c = false) : trim s = s := by
  have unpadded : Unpadded s := ⟨fun c head => plain c (List.mem_of_head? head),
    fun c last => plain c (List.mem_of_getLast? last)⟩
  have trimmed := @trim_pad [] s [] unpadded (by simp) (by simp)
  rwa [List.nil_append, List.append_nil] at trimmed

/-! Case mapping -/

structure CaseTables where
  lower : Char → Str
  cased : Char → Bool
  caseIgnorable : Char → Bool

def asciiTables : CaseTables := ⟨fun c => [c], fun _ => false, fun _ => false⟩

def isAscii (c : Char) : Bool := c.toNat < 128

def asciiLower (c : Char) : Char :=
  if 65 ≤ c.toNat ∧ c.toNat ≤ 90 then Char.ofNat (c.toNat + 32) else c

def isCased (tables : CaseTables) (c : Char) : Bool :=
  if isAscii c then c.isAlpha else tables.cased c

def isCaseIgnorable (tables : CaseTables) (c : Char) : Bool :=
  if isAscii c then c ∈ ['\'', '.', ':', '^', '`'] else tables.caseIgnorable c

def lowerChar (tables : CaseTables) (c : Char) : Str :=
  if isAscii c then [asciiLower c] else tables.lower c

def caseIgnorableThenCased (tables : CaseTables) (s : Str) : Bool :=
  match s.dropWhile (isCaseIgnorable tables) with
  | [] => false
  | c :: _ => isCased tables c

/-- Greek capital sigma is the one letter whose lower case depends on its neighbours;
`before` is the text already passed, last character first. -/
def toLowercaseFrom (tables : CaseTables) (before : Str) : Str → Str
  | [] => []
  | c :: rest =>
    (if c = 'Σ' then
      [if caseIgnorableThenCased tables before && !caseIgnorableThenCased tables rest
        then 'ς' else 'σ']
    else lowerChar tables c) ++ toLowercaseFrom tables (c :: before) rest

def toLowercase (tables : CaseTables) (s : Str) : Str := toLowercaseFrom tables [] s

def SameIgnoringAsciiCase (first second : Str) : Prop :=
  first.map asciiLower = second.map asciiLower

instance (first second : Str) : Decidable (SameIgnoringAsciiCase first second) :=
  inferInstanceAs (Decidable (first.map asciiLower = second.map asciiLower))

theorem lowerChar_ascii (tables : CaseTables) {c : Char} (ascii : isAscii c = true) :
    lowerChar tables c = [asciiLower c] := if_pos ascii

theorem toLowercase_ascii (tables : CaseTables) (s : Str) (ascii : ∀ c ∈ s, isAscii c = true) :
    toLowercase tables s = s.map asciiLower := by
  suffices general : ∀ before, toLowercaseFrom tables before s = s.map asciiLower from general []
  induction s with
  | nil => intro before; rfl
  | cons c s ih =>
    intro before
    have notSigma : c ≠ 'Σ' := by
      intro same
      subst same
      exact absurd (ascii 'Σ' (by simp)) (by decide)
    rw [toLowercaseFrom, if_neg notSigma, lowerChar_ascii tables (ascii c (by simp)),
      ih (fun d member => ascii d (by simp [member]))]
    rfl

private theorem ascii_capital {P : Char → Prop} (c : Char)
    (capital : ∀ n : Nat, n < 26 → P (Char.ofNat (65 + n)))
    (same : asciiLower c = c → P c) : P c := by
  by_cases upper : 65 ≤ c.toNat ∧ c.toNat ≤ 90
  · have code := capital (c.toNat - 65) (by omega)
    rwa [show 65 + (c.toNat - 65) = c.toNat by omega, Char.ofNat_toNat] at code
  · exact same (if_neg upper)

section
variable (tables : CaseTables)

@[simp] theorem isWhitespace_asciiLower (c : Char) : isWhitespace (asciiLower c) = isWhitespace c :=
  ascii_capital (P := fun c => isWhitespace (asciiLower c) = isWhitespace c) c
    (by intro n small; interval_cases n <;> rfl) (fun same => by rw [same])

@[simp] theorem isCased_asciiLower (c : Char) :
    isCased tables (asciiLower c) = isCased tables c :=
  ascii_capital (P := fun c => isCased tables (asciiLower c) = isCased tables c) c
    (by intro n small; interval_cases n <;> rfl) (fun same => by rw [same])

@[simp] theorem isCaseIgnorable_asciiLower (c : Char) :
    isCaseIgnorable tables (asciiLower c) = isCaseIgnorable tables c :=
  ascii_capital (P := fun c => isCaseIgnorable tables (asciiLower c) = isCaseIgnorable tables c) c
    (by intro n small; interval_cases n <;> rfl) (fun same => by rw [same])

@[simp] theorem lowerChar_asciiLower (c : Char) :
    lowerChar tables (asciiLower c) = lowerChar tables c :=
  ascii_capital (P := fun c => lowerChar tables (asciiLower c) = lowerChar tables c) c
    (by intro n small; interval_cases n <;> rfl) (fun same => by rw [same])

theorem asciiLower_eq_sigma (c : Char) : asciiLower c = 'Σ' ↔ c = 'Σ' :=
  ascii_capital (P := fun c => asciiLower c = 'Σ' ↔ c = 'Σ') c
    (by intro n small; interval_cases n <;> decide) (fun same => by rw [same])

theorem caseIgnorableThenCased_asciiLower (s : Str) :
    caseIgnorableThenCased tables (s.map asciiLower) = caseIgnorableThenCased tables s := by
  induction s with
  | nil => rfl
  | cons c s ih =>
    unfold caseIgnorableThenCased at ih ⊢
    by_cases skipped : isCaseIgnorable tables c = true
    · simpa [skipped] using ih
    · simp [skipped]

theorem toLowercaseFrom_asciiLower (before s : Str) :
    toLowercaseFrom tables (before.map asciiLower) (s.map asciiLower) =
      toLowercaseFrom tables before s := by
  induction s generalizing before with
  | nil => rfl
  | cons c s ih =>
    simp only [List.map_cons, toLowercaseFrom, asciiLower_eq_sigma, lowerChar_asciiLower,
      caseIgnorableThenCased_asciiLower]
    rw [← ih (c :: before), List.map_cons]

/-- Lower case forgets the case in which ASCII letters were written. -/
theorem toLowercase_congr {first second : Str} (same : SameIgnoringAsciiCase first second) :
    toLowercase tables first = toLowercase tables second := by
  unfold toLowercase
  rw [← toLowercaseFrom_asciiLower tables [] first, ← toLowercaseFrom_asciiLower tables [] second]
  rw [show first.map asciiLower = second.map asciiLower from same]

end

theorem asciiLower_eq_mark {mark : Char} (noLetter : mark.isAlpha = false) (c : Char) :
    asciiLower c = mark ↔ c = mark := by
  constructor
  · intro lowered
    unfold asciiLower at lowered
    split_ifs at lowered with upper
    · have letter : (Char.ofNat (c.toNat + 32)).isAlpha = true := by
        obtain ⟨n, small, code⟩ : ∃ n < 26, c.toNat + 32 = 97 + n :=
          ⟨c.toNat - 65, by omega, by omega⟩
        rw [code]
        interval_cases n <;> rfl
      rw [lowered, noLetter] at letter
      cases letter
    · exact lowered
  · intro same
    subst same
    apply if_neg
    intro upper
    obtain ⟨n, small, code⟩ : ∃ n < 26, c.toNat = 65 + n := ⟨c.toNat - 65, by omega, by omega⟩
    have letter : (Char.ofNat c.toNat).isAlpha = true := by
      rw [code]
      interval_cases n <;> rfl
    rw [Char.ofNat_toNat, noLetter] at letter
    cases letter

/-- Changing the case of letters neither adds nor removes another character. -/
theorem SameIgnoringAsciiCase.mem_iff {first second : Str} (same : SameIgnoringAsciiCase first second)
    {mark : Char} (noLetter : mark.isAlpha = false) : mark ∈ first ↔ mark ∈ second := by
  have inLower : ∀ s : Str, mark ∈ s ↔ mark ∈ s.map asciiLower := by
    intro s
    simp [List.mem_map, asciiLower_eq_mark noLetter]
  rw [inLower first, inLower second, show first.map asciiLower = second.map asciiLower from same]

theorem SameIgnoringAsciiCase.unpadded {first second : Str}
    (same : SameIgnoringAsciiCase first second) (unpadded : Unpadded second) : Unpadded first := by
  have lists : first.map asciiLower = second.map asciiLower := same
  constructor
  · intro c head
    have heads := congrArg List.head? lists
    rw [List.head?_map, List.head?_map, Option.mem_def.mp head, Option.map_some] at heads
    obtain ⟨d, second', lowered⟩ := Option.map_eq_some_iff.mp heads.symm
    rw [← isWhitespace_asciiLower, ← lowered, isWhitespace_asciiLower]
    exact unpadded.head d second'
  · intro c last
    have lasts := congrArg List.getLast? lists
    rw [List.getLast?_map, List.getLast?_map, Option.mem_def.mp last, Option.map_some] at lasts
    obtain ⟨d, second', lowered⟩ := Option.map_eq_some_iff.mp lasts.symm
    rw [← isWhitespace_asciiLower, ← lowered, isWhitespace_asciiLower]
    exact unpadded.last d second'

def HasKey (tables : CaseTables) (key line : Str) : Prop :=
  ∃ title value, line = title ++ ':' :: value ∧ ':' ∉ title ∧ toLowercase tables (trim title) = key

theorem hasKey_iff {tables : CaseTables} {key line : Str} : HasKey tables key line ↔
    (splitOnce ':' line).map (fun parts => toLowercase tables (trim parts.1)) = some key := by
  constructor
  · rintro ⟨title, value, rfl, fresh, named⟩
    rw [splitOnce_append _ fresh, Option.map_some, named]
  · intro named
    obtain ⟨⟨title, value⟩, split, lowered⟩ := Option.map_eq_some_iff.mp named
    obtain ⟨whole, fresh⟩ := splitOnce_eq_some split
    exact ⟨title, value, whole, fresh, lowered⟩

instance (tables : CaseTables) (key line : Str) : Decidable (HasKey tables key line) :=
  decidable_of_iff _ hasKey_iff.symm

/-- The case tables, and which characters beyond ASCII debug formatting shows as they are. -/
structure UnicodeTables extends CaseTables where
  shown : Char → Bool

def escapeDebug (tables : UnicodeTables) (c : Char) : Str :=
  let code := c.toNat
  if code = 0 then "\\0".toList
  else if code = 9 then "\\t".toList
  else if code = 10 then "\\n".toList
  else if code = 13 then "\\r".toList
  else if code = 34 then "\\\"".toList
  else if code = 92 then "\\\\".toList
  else if (if isAscii c then 32 ≤ code && code ≠ 127 else tables.shown c) then [c]
  else "\\u\x7b".toList ++ Nat.toDigits 16 code ++ "\x7d".toList

def debugStr (tables : UnicodeTables) (s : Str) : Str :=
  "\"".toList ++ s.flatMap (escapeDebug tables) ++ "\"".toList

end LocalServer.Library.Text
