import LocalServer.Tokenizer
import Mathlib.Data.List.Chain

/-! What `tokenize` makes of any text: the pieces it is cut into, in order and without rest,
and the line each of them starts on. -/

namespace LocalServer.Lexing
open Library Text Tokenizer

def tokensAfter : (consumed : Str) → List (TokenKind × Str) → List Token
  | _, [] => []
  | consumed, (kind, gap) :: pieces =>
      ⟨kind, 1 + consumed.count '\n'⟩ :: tokensAfter (consumed ++ kind.text ++ gap) pieces

def tokens (consumed : Str) (layout : Layout) : List Token :=
  tokensAfter (consumed ++ layout.before) layout.pieces

theorem blank_nil : ∀ c ∈ ([] : Str), isWhitespace c = true := List.forall_mem_nil _

def nothing : Layout := ⟨[], [], blank_nil, List.forall_mem_nil _, .nil⟩

def indent (c : Char) (white : isWhitespace c = true) (layout : Layout) : Layout where
  before := c :: layout.before
  pieces := layout.pieces
  blankBefore := List.forall_mem_cons.mpr ⟨white, layout.blankBefore⟩
  blankAfter := layout.blankAfter
  separated := layout.separated

def prepend (kind : TokenKind) (layout : Layout)
    (apart : kind.isWord = true → layout.before = [] →
      ∀ next ∈ layout.pieces.head?, next.1.isWord = false) : Layout where
  before := []
  pieces := (kind, layout.before) :: layout.pieces
  blankBefore := blank_nil
  blankAfter := List.forall_mem_cons.mpr ⟨layout.blankBefore, layout.blankAfter⟩
  separated := by
    apply layout.separated.cons
    intro next isHead isWord nextWord empty
    rw [apart isWord empty next isHead] at nextWord
    cases nextWord

section
variable (consumed : Str) (layout : Layout)

theorem text_indent {c : Char} (white : isWhitespace c = true) :
    (indent c white layout).text = c :: layout.text := rfl

theorem tokens_indent {c : Char} (white : isWhitespace c = true) :
    tokens consumed (indent c white layout) = tokens (consumed ++ [c]) layout := by
  unfold tokens indent
  rw [List.append_assoc, List.singleton_append]

theorem text_prepend (kind : TokenKind)
    (apart : kind.isWord = true → layout.before = [] →
      ∀ next ∈ layout.pieces.head?, next.1.isWord = false) :
    (prepend kind layout apart).text = kind.text ++ layout.text := by
  simp only [Layout.text, prepend, List.nil_append, List.flatMap_cons, List.append_assoc]

theorem tokens_prepend (kind : TokenKind)
    (apart : kind.isWord = true → layout.before = [] →
      ∀ next ∈ layout.pieces.head?, next.1.isWord = false) :
    tokens consumed (prepend kind layout apart) =
      ⟨kind, 1 + consumed.count '\n'⟩ :: tokens (consumed ++ kind.text) layout := by
  simp only [tokens, prepend, List.append_nil, tokensAfter]

end

theorem line_pushWord (state : State) : (pushWord state).line = state.line := by
  unfold pushWord
  split_ifs <;> rfl

theorem line_step (state : State) (c : Char) : (step state c).line = state.line + [c].count '\n' := by
  unfold step push
  split_ifs with newline <;> simp_all [line_pushWord]

theorem line_foldl (state : State) (input : Str) :
    (input.foldl step state).line = state.line + input.count '\n' := by
  induction input generalizing state with
  | nil => rfl
  | cons c input ih =>
    rw [List.foldl_cons, ih, line_step, Nat.add_assoc, ← List.count_append, List.singleton_append]

theorem tokens_pushWord (state : State) : state.tokens <+: (pushWord state).tokens := by
  unfold pushWord
  split_ifs
  · exact List.prefix_rfl
  · exact List.prefix_append _ _

theorem tokens_step (state : State) (c : Char) : state.tokens <+: (step state c).tokens := by
  have pushed := tokens_pushWord state
  unfold step push
  split_ifs
  · exact pushed
  · exact pushed.trans (List.prefix_append _ _)
  · exact pushed.trans (List.prefix_append _ _)
  · exact pushed.trans (List.prefix_append _ _)
  · exact pushed
  · exact List.prefix_rfl

theorem tokens_foldl (state : State) (input : Str) :
    state.tokens <+: (input.foldl step state).tokens := by
  induction input generalizing state with
  | nil => exact List.prefix_rfl
  | cons c input ih => exact (tokens_step state c).trans (ih (step state c))

/-- What one character can do: continue a word, end it, or end it and be a token. -/
theorem step_cases (state : State) (c : Char) :
    (isWordChar c = true ∧ step state c = { state with current := state.current ++ [c] }) ∨
      (isWhitespace c = true ∧
        step state c = ⟨(pushWord state).tokens, [], state.line + [c].count '\n'⟩) ∨
      ∃ kind : TokenKind, kind.isWord = false ∧ kind.text = [c] ∧ c ≠ '\n' ∧
        step state c = ⟨(pushWord state).tokens ++ [⟨kind, state.line⟩], [], state.line⟩ := by
  by_cases char : isWordChar c = true
  · exact Or.inl ⟨char, step_wordChar state char⟩
  · right
    have ended := current_pushWord state
    have sameLine := line_pushWord state
    have mark (kind : TokenKind) : push kind (pushWord state) =
        ⟨(pushWord state).tokens ++ [⟨kind, state.line⟩], [], state.line⟩ := by
      rw [push, sameLine, ended]
    by_cases white : isWhitespace c = true
    · left
      refine ⟨white, ?_⟩
      have notMark : c ≠ '{' ∧ c ≠ '}' ∧ c ≠ ';' := by
        refine ⟨?_, ?_, ?_⟩ <;> rintro rfl <;> exact absurd white (by decide)
      by_cases newline : c = '\n'
      · rw [step, if_pos newline, newline]
        dsimp only
        rw [ended]
        rfl
      · rw [step, if_neg newline, if_neg notMark.1, if_neg notMark.2.1, if_neg notMark.2.2, if_pos white,
          List.count_singleton, if_neg (by simpa using newline), Nat.add_zero, ← ended, ← sameLine]
    · right
      have isMark : c = '{' ∨ c = '}' ∨ c = ';' := by
        by_contra other
        rw [not_or, not_or] at other
        exact char (by simp [isWordChar, white, other])
      rcases isMark with rfl | rfl | rfl
      · exact ⟨.lBrace, rfl, rfl, by decide, mark .lBrace⟩
      · exact ⟨.rBrace, rfl, rfl, by decide, mark .rBrace⟩
      · exact ⟨.semicolon, rfl, rfl, by decide, mark .semicolon⟩

/-! The pieces of a text -/

theorem wordChar_ne_newline {text : Str} (chars : ∀ c ∈ text, isWordChar c = true) :
    text.count '\n' = 0 := by
  apply List.count_eq_zero.mpr
  intro member
  exact absurd (chars _ member) (by decide)

theorem not_white_of_wordChar {c : Char} (char : isWordChar c = true) : isWhitespace c = false := by
  rw [isWordChar, Bool.and_eq_true, Bool.not_eq_true'] at char
  exact char.1

def Pending (consumed current input : Str) (found : List Token) : Prop :=
  ∃ layout : Layout, layout.text = current ++ input ∧ tokens consumed layout = found

theorem Pending.word {consumed current input : Str} {found : List Token}
    (layout : Layout) (covers : layout.text = input)
    (reads : tokens (consumed ++ current) layout = found)
    (apart : layout.before = [] → ∀ next ∈ layout.pieces.head?, next.1.isWord = false) :
    Pending consumed current input ((pushWord ⟨[], current, 1 + consumed.count '\n'⟩).tokens ++ found) := by
  by_cases empty : current = []
  · refine ⟨layout, by rw [covers, empty]; rfl, ?_⟩
    rw [← reads, empty, List.append_nil]
    rfl
  · refine ⟨prepend (.word current) layout fun _ => apart, ?_, ?_⟩
    · rw [text_prepend, covers]
      rfl
    · rw [tokens_prepend, TokenKind.text, reads, pushWord, if_neg empty]
      rfl

theorem tokens_pushWord_append (found : List Token) (current : Str) (line : Nat) :
    (pushWord ⟨found, current, line⟩).tokens = found ++ (pushWord ⟨[], current, line⟩).tokens := by
  unfold pushWord push
  split_ifs <;> simp

/-- Induction on the input: each character extends the word being read, or the layout of what
comes after it. -/
theorem pending_foldl (input consumed current : Str) (found : List Token)
    (chars : ∀ c ∈ current, isWordChar c = true) :
    ∃ rest, (pushWord (input.foldl step ⟨found, current, 1 + consumed.count '\n'⟩)).tokens =
        found ++ rest ∧ Pending consumed current input rest := by
  induction input generalizing consumed current found with
  | nil =>
    refine ⟨_, tokens_pushWord_append _ _ _, ?_⟩
    have last : Pending consumed current [] (_ ++ tokens (consumed ++ current) nothing) :=
      Pending.word nothing rfl rfl fun _ _ isHead => by cases isHead
    rwa [show tokens (consumed ++ current) nothing = [] from rfl, List.append_nil] at last
  | cons c input ih =>
    rw [List.foldl_cons]
    have sameLines : consumed.count '\n' = (consumed ++ current).count '\n' := by
      rw [List.count_append, wordChar_ne_newline chars, Nat.add_zero]
    rcases step_cases ⟨found, current, 1 + consumed.count '\n'⟩ c with
      ⟨char, stepped⟩ | ⟨white, stepped⟩ | ⟨kind, notWord, written, notNewline, stepped⟩
    · rw [stepped]
      obtain ⟨rest, result, layout, covers, reads⟩ := ih consumed (current ++ [c]) found (by
        intro d member
        rcases List.mem_append.mp member with earlier | last
        · exact chars d earlier
        · rwa [List.mem_singleton.mp last])
      refine ⟨rest, result, layout, ?_, reads⟩
      rw [covers, List.append_assoc, List.singleton_append]
    · obtain ⟨rest, result, layout, covers, reads⟩ := ih (consumed ++ current ++ [c]) []
        (pushWord ⟨found, current, 1 + consumed.count '\n'⟩).tokens (by simp)
      rw [stepped, show 1 + consumed.count '\n' + [c].count '\n' =
        1 + (consumed ++ current ++ [c]).count '\n' by
          rw [List.count_append, ← sameLines, Nat.add_assoc], result, tokens_pushWord_append, List.append_assoc]
      refine ⟨_, rfl, ?_⟩
      apply Pending.word (indent c white layout)
      · rw [text_indent, covers]
        rfl
      · rw [tokens_indent, reads]
      · intro none
        cases none
    · obtain ⟨rest, result, layout, covers, reads⟩ := ih (consumed ++ current ++ [c]) []
        ((pushWord ⟨found, current, 1 + consumed.count '\n'⟩).tokens ++
          [⟨kind, 1 + consumed.count '\n'⟩]) (by simp)
      have noNewline : [c].count '\n' = 0 := by
        rw [List.count_singleton, if_neg (by simpa using notNewline)]
      rw [List.count_append, noNewline, Nat.add_zero, ← sameLines, ← stepped] at result
      rw [result, tokens_pushWord_append, List.append_assoc, List.append_assoc, List.singleton_append]
      refine ⟨_, rfl, ?_⟩
      apply Pending.word (prepend kind layout fun isWord => by rw [notWord] at isWord; cases isWord)
      · rw [text_prepend, covers, written]
        rfl
      · rw [tokens_prepend, written, reads, ← sameLines]
      · intro _ next isHead
        cases isHead
        exact notWord

theorem tokenize_covers (input : Str) :
    ∃ layout : Layout, layout.text = input ∧ tokens [] layout = tokenize input := by
  obtain ⟨rest, result, layout, covers, reads⟩ := pending_foldl input [] [] [] (by simp)
  exact ⟨layout, covers, reads.trans result.symm⟩

theorem current_of_not_wordChar (input : Str) (ends : ∀ c ∈ input.getLast?, isWordChar c = false) :
    (input.foldl step ⟨[], [], 1⟩).current = [] := by
  rcases List.eq_nil_or_concat input with rfl | ⟨before, c, rfl⟩
  · rfl
  · rw [List.concat_eq_append] at ends ⊢
    rw [List.foldl_append, List.foldl_cons, List.foldl_nil]
    rcases step_cases (before.foldl step ⟨[], [], 1⟩) c with
      ⟨char, _⟩ | ⟨_, stepped⟩ | ⟨_, _, _, _, stepped⟩
    · rw [ends c (by simp)] at char
      cases char
    · rw [stepped]
    · rw [stepped]

/-- A word is found as soon as the next character does not continue it. -/
theorem pushed_of_not_wordChar (state : State) (after : Str)
    (ends : ∀ c ∈ after.head?, isWordChar c = false) :
    (pushWord state).tokens <+: (pushWord (after.foldl step state)).tokens := by
  cases after with
  | nil => exact List.prefix_rfl
  | cons c after =>
    have kept : (pushWord state).tokens <+: (step state c).tokens := by
      rcases step_cases state c with ⟨char, _⟩ | ⟨_, stepped⟩ | ⟨_, _, _, _, stepped⟩
      · rw [ends c rfl] at char
        cases char
      · rw [stepped]
      · rw [stepped]
        exact List.prefix_append _ _
    exact (kept.trans (tokens_foldl _ after)).trans (tokens_pushWord _)

theorem run_mem_tokenize (before text after : Str) (plain : IsPlain text)
    (begins : ∀ c ∈ before.getLast?, isWordChar c = false)
    (ends : ∀ c ∈ after.head?, isWordChar c = false) :
    ⟨.word text, 1 + before.count '\n'⟩ ∈ tokenize (before ++ text ++ after) := by
  have fresh := current_of_not_wordChar before begins
  have line := line_foldl ⟨[], [], 1⟩ before
  rw [tokenize, List.foldl_append, List.foldl_append]
  apply (pushed_of_not_wordChar _ after ends).subset
  rw [foldl_step_word _ plain.chars, fresh, line, List.nil_append, pushWord,
    if_neg plain.nonempty]
  exact List.mem_append_right _ List.mem_cons_self

theorem flatMap_text_tokensAfter (consumed : Str) (pieces : List (TokenKind × Str)) :
    (tokensAfter consumed pieces).flatMap (fun token => token.kind.text) =
      pieces.flatMap fun piece => piece.1.text := by
  induction pieces generalizing consumed with
  | nil => rfl
  | cons piece pieces ih =>
    rw [tokensAfter, List.flatMap_cons, List.flatMap_cons, ih]

theorem filter_blank {gap : Str} (blank : ∀ c ∈ gap, isWhitespace c = true) :
    gap.filter (fun c => !isWhitespace c) = [] := by
  apply List.filter_eq_nil_iff.mpr
  intro c member
  rw [blank c member]
  decide

theorem filter_text {kind : TokenKind} (plain : ∀ text, kind = .word text → IsPlain text) :
    kind.text.filter (fun c => !isWhitespace c) = kind.text := by
  apply List.filter_eq_self.mpr
  cases kind with
  | word text =>
    intro c member
    rw [not_white_of_wordChar ((plain text rfl).chars c member)]
    rfl
  | lBrace => decide
  | rBrace => decide
  | semicolon => decide

theorem filter_layout (layout : Layout)
    (plain : ∀ piece ∈ layout.pieces, ∀ text, piece.1 = .word text → IsPlain text) :
    layout.text.filter (fun c => !isWhitespace c) =
      layout.pieces.flatMap fun piece => piece.1.text := by
  rw [Layout.text, List.filter_append, filter_blank layout.blankBefore, List.nil_append,
    List.filter_flatMap]
  apply List.flatMap_congr
  intro piece member
  rw [List.filter_append, filter_text (plain piece member),
    filter_blank (layout.blankAfter piece member), List.append_nil]

theorem mem_tokensAfter (consumed : Str) {pieces : List (TokenKind × Str)}
    {piece : TokenKind × Str} (member : piece ∈ pieces) :
    ∃ line, ⟨piece.1, line⟩ ∈ tokensAfter consumed pieces := by
  induction pieces generalizing consumed with
  | nil => cases member
  | cons first pieces ih =>
    rcases List.mem_cons.mp member with rfl | later
    · exact ⟨_, List.mem_cons_self⟩
    · obtain ⟨line, found⟩ := ih _ later
      exact ⟨line, List.mem_cons_of_mem _ found⟩

/-- A text is its tokens in order, with only whitespace around them. Words hold no whitespace and
no mark, two of them in a row are apart, a run of word characters is one word, and the line of
a token counts the line ends before it. -/
theorem tokenize_exact (input : Str) :
    ((tokenize input).flatMap fun token => token.kind.text) =
        input.filter (fun c => !isWhitespace c) ∧
      (∀ token ∈ tokenize input, ∀ text, token.kind = .word text →
        text ≠ [] ∧ ∀ c ∈ text, isWhitespace c = false ∧ c ≠ '{' ∧ c ≠ '}' ∧ c ≠ ';') ∧
      (∃ layout : Layout, layout.text = input ∧ tokens [] layout = tokenize input) ∧
      ∀ before text after, input = before ++ text ++ after → IsPlain text →
        (∀ c ∈ before.getLast?, isWordChar c = false) →
        (∀ c ∈ after.head?, isWordChar c = false) →
        ⟨.word text, 1 + before.count '\n'⟩ ∈ tokenize input := by
  obtain ⟨layout, covers, reads⟩ := tokenize_covers input
  refine ⟨?_, ?_, ⟨layout, covers, reads⟩, ?_⟩
  · have plain : ∀ piece ∈ layout.pieces, ∀ text, piece.1 = .word text → IsPlain text := by
      intro piece member text isWord
      obtain ⟨line, found⟩ := mem_tokensAfter ([] ++ layout.before) member
      rw [← tokens, reads] at found
      exact tokenize_plain input found isWord
    rw [← covers, filter_layout layout plain, covers, ← reads]
    exact flatMap_text_tokensAfter _ _
  · intro token member text isWord
    have plain := tokenize_plain input member isWord
    refine ⟨plain.nonempty, ?_⟩
    intro c inside
    simpa [isWordChar] using plain.chars c inside
  · rintro before text after rfl plain begins ends
    exact run_mem_tokenize before text after plain begins ends

end LocalServer.Lexing
