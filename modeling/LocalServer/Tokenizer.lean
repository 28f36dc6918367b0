import LocalServer.Library.Text

/-! `src/config/tokenizer.rs`: from the text of a configuration to its tokens. -/

namespace LocalServer
open Library Text

inductive TokenKind where
  | word (text : Str)
  | lBrace
  | rBrace
  | semicolon
  deriving DecidableEq, Repr

structure Token where
  kind : TokenKind
  line : Nat
  deriving DecidableEq, Repr

def TokenKind.text : TokenKind → Str
  | .word text => text
  | .lBrace => ['{']
  | .rBrace => ['}']
  | .semicolon => [';']

def TokenKind.isWord : TokenKind → Bool
  | .word _ => true
  | _ => false

namespace Tokenizer

structure State where
  tokens : List Token
  current : Str
  line : Nat
  deriving DecidableEq, Repr

def push (kind : TokenKind) (state : State) : State :=
  { state with tokens := state.tokens ++ [⟨kind, state.line⟩] }

def pushWord (state : State) : State :=
  if state.current = [] then state else { push (.word state.current) state with current := [] }

def step (state : State) (c : Char) : State :=
  if c = '\n' then { pushWord state with line := state.line + 1 }
  else if c = '{' then push .lBrace (pushWord state)
  else if c = '}' then push .rBrace (pushWord state)
  else if c = ';' then push .semicolon (pushWord state)
  else if isWhitespace c then pushWord state
  else { state with current := state.current ++ [c] }

def tokenize (input : Str) : List Token := (pushWord (input.foldl step ⟨[], [], 1⟩)).tokens

def isWordChar (c : Char) : Bool := !isWhitespace c && c ∉ ['{', '}', ';']

/-- A text that is one word wherever it stands. -/
structure IsPlain (text : Str) : Prop where
  nonempty : text ≠ []
  chars : ∀ c ∈ text, isWordChar c = true

instance (text : Str) : Decidable (IsPlain text) :=
  decidable_of_iff (text ≠ [] ∧ ∀ c ∈ text, isWordChar c = true)
    ⟨fun both => ⟨both.1, both.2⟩, fun plain => ⟨plain.nonempty, plain.chars⟩⟩

theorem IsPlain.isWord {text : Str} (plain : IsPlain text) : IsWord text := by
  refine ⟨plain.nonempty, ?_⟩
  intro c member
  have char := plain.chars c member
  rw [isWordChar, Bool.and_eq_true, Bool.not_eq_true'] at char
  exact char.1

theorem step_wordChar (state : State) {c : Char} (char : isWordChar c = true) :
    step state c = { state with current := state.current ++ [c] } := by
  simp only [isWordChar, Bool.and_eq_true, Bool.not_eq_true', decide_eq_true_eq, List.mem_cons,
    List.not_mem_nil, or_false, not_or] at char
  have notNewline : c ≠ '\n' := by
    intro same
    rw [same] at char
    exact absurd char.1 (by decide)
  rw [step, if_neg notNewline, if_neg char.2.1, if_neg char.2.2.1, if_neg char.2.2.2, char.1]
  rfl

theorem foldl_step_word (state : State) {text : Str} (chars : ∀ c ∈ text, isWordChar c = true) :
    text.foldl step state = { state with current := state.current ++ text } := by
  induction text generalizing state with
  | nil => rw [List.append_nil]; rfl
  | cons c text ih =>
    rw [List.foldl_cons, step_wordChar state (chars c List.mem_cons_self),
      ih _ fun d member => chars d (List.mem_cons_of_mem _ member)]
    simp only [List.append_assoc, List.singleton_append]

/-- What `tokenize` would return if the input ended here, without lines. -/
def State.kinds (state : State) : List TokenKind := (pushWord state).tokens.map Token.kind

theorem kinds_of_current {state : State} (empty : state.current = []) :
    state.kinds = state.tokens.map Token.kind := by
  rw [State.kinds, pushWord, if_pos empty]

theorem kinds_push (kind : TokenKind) (state : State) :
    (push kind (pushWord state)).kinds = state.kinds ++ [kind] := by
  unfold State.kinds pushWord
  split_ifs <;> simp_all [push]

theorem kinds_pushWord (state : State) : (pushWord state).kinds = state.kinds := by
  unfold State.kinds pushWord
  split_ifs <;> simp_all

theorem current_pushWord (state : State) : (pushWord state).current = [] := by
  unfold pushWord
  split_ifs with empty
  · exact empty
  · rfl

/-! Texts with any layout -/

/-- A way to write tokens down: whitespace in front, and some after each of them. Two words
in a row need it between them. -/
structure Layout where
  before : Str
  pieces : List (TokenKind × Str)
  blankBefore : ∀ c ∈ before, isWhitespace c = true
  blankAfter : ∀ piece ∈ pieces, ∀ c ∈ piece.2, isWhitespace c = true
  separated : pieces.IsChain fun piece next =>
    piece.1.isWord = true → next.1.isWord = true → piece.2 ≠ []

namespace Layout

def kinds (layout : Layout) : List TokenKind := layout.pieces.map Prod.fst

def text (layout : Layout) : Str :=
  layout.before ++ layout.pieces.flatMap fun piece => piece.1.text ++ piece.2

end Layout

theorem step_blank (state : State) {c : Char} (white : isWhitespace c = true) :
    (step state c).kinds = state.kinds ∧ (step state c).current = [] := by
  have notBrace : ∀ mark : Char, isWhitespace mark = false → c ≠ mark := by
    intro mark plain same
    rw [same, plain] at white
    cases white
  have ended := current_pushWord state
  rw [step]
  split_ifs with newline lBrace rBrace semicolon
  · exact ⟨kinds_of_current ended, ended⟩
  · exact absurd lBrace (notBrace _ (by decide))
  · exact absurd rBrace (notBrace _ (by decide))
  · exact absurd semicolon (notBrace _ (by decide))
  · exact ⟨kinds_pushWord state, ended⟩

theorem foldl_step_blank (state : State) {gap : Str} (blank : ∀ c ∈ gap, isWhitespace c = true) :
    (gap.foldl step state).kinds = state.kinds ∧
      (gap ≠ [] ∨ state.current = [] → (gap.foldl step state).current = []) := by
  induction gap generalizing state with
  | nil => simp
  | cons c gap ih =>
    obtain ⟨sameKinds, ended⟩ := step_blank state (blank c List.mem_cons_self)
    obtain ⟨kinds, current⟩ := ih (step state c) fun d member => blank d (List.mem_cons_of_mem _ member)
    rw [List.foldl_cons]
    exact ⟨kinds.trans sameKinds, fun _ => current (Or.inr ended)⟩

theorem foldl_step_kind (state : State) (kind : TokenKind)
    (plain : ∀ text, kind = .word text → IsPlain text)
    (fresh : kind.isWord = true → state.current = []) :
    (kind.text.foldl step state).kinds = state.kinds ++ [kind] ∧
      (kind.isWord = false → (kind.text.foldl step state).current = []) := by
  cases kind with
  | word text =>
    have isPlain := plain text rfl
    have empty := fresh rfl
    refine ⟨?_, fun notWord => by cases notWord⟩
    rw [TokenKind.text, foldl_step_word state isPlain.chars, empty]
    simp [State.kinds, pushWord, push, empty, isPlain.nonempty]
  | lBrace => exact ⟨kinds_push _ _, fun _ => current_pushWord state⟩
  | rBrace => exact ⟨kinds_push _ _, fun _ => current_pushWord state⟩
  | semicolon => exact ⟨kinds_push _ _, fun _ => current_pushWord state⟩

theorem foldl_step_pieces (pieces : List (TokenKind × Str)) (state : State)
    (plain : ∀ piece ∈ pieces, ∀ text, piece.1 = .word text → IsPlain text)
    (blank : ∀ piece ∈ pieces, ∀ c ∈ piece.2, isWhitespace c = true)
    (separated : pieces.IsChain fun piece next =>
      piece.1.isWord = true → next.1.isWord = true → piece.2 ≠ [])
    (fresh : ∀ piece ∈ pieces.head?, piece.1.isWord = true → state.current = []) :
    ((pieces.flatMap fun piece => piece.1.text ++ piece.2).foldl step state).kinds =
      state.kinds ++ pieces.map Prod.fst := by
  induction pieces generalizing state with
  | nil => simp
  | cons piece pieces ih =>
    obtain ⟨kinds, current⟩ := foldl_step_kind state piece.1 (plain piece List.mem_cons_self)
      (fresh piece rfl)
    obtain ⟨sameKinds, ended⟩ := foldl_step_blank (piece.1.text.foldl step state)
      (blank piece List.mem_cons_self)
    rw [List.flatMap_cons, List.foldl_append, List.foldl_append,
      ih _ (fun other member => plain other (List.mem_cons_of_mem _ member))
        (fun other member => blank other (List.mem_cons_of_mem _ member)) separated.of_cons,
      sameKinds, kinds, List.map_cons, List.append_assoc, List.singleton_append]
    intro next isHead nextWord
    apply ended
    by_cases isWord : piece.1.isWord = true
    · left
      cases pieces with
      | nil => cases isHead
      | cons first pieces =>
        cases isHead
        exact (List.isChain_cons_cons.mp separated).1 isWord nextWord
    · right
      exact current (by simpa using isWord)

/-- Any layout of tokens is read as these tokens. -/
theorem tokenize_layout (layout : Layout)
    (plain : ∀ text, TokenKind.word text ∈ layout.kinds → IsPlain text) :
    (tokenize layout.text).map Token.kind = layout.kinds := by
  have start := foldl_step_blank ⟨[], [], 1⟩ layout.blankBefore
  have words : ∀ piece ∈ layout.pieces, ∀ text, piece.1 = .word text → IsPlain text := by
    intro piece member text isWord
    apply plain
    rw [← isWord]
    exact List.mem_map_of_mem member
  have pieces := foldl_step_pieces layout.pieces (layout.before.foldl step ⟨[], [], 1⟩) words
    layout.blankAfter layout.separated (fun _ _ _ => start.2 (Or.inr rfl))
  rw [start.1] at pieces
  unfold tokenize Layout.text
  rw [List.foldl_append]
  exact pieces

structure State.Plain (state : State) : Prop where
  words : ∀ token ∈ state.tokens, ∀ text, token.kind = .word text → IsPlain text
  current : ∀ c ∈ state.current, isWordChar c = true

theorem State.Plain.pushWord {state : State} (plain : state.Plain) : (pushWord state).Plain := by
  unfold Tokenizer.pushWord
  split_ifs with empty
  · exact plain
  · refine ⟨?_, by simp⟩
    intro token member text isWord
    rcases List.mem_append.mp member with earlier | pushed
    · exact plain.words token earlier text isWord
    · rw [List.mem_singleton.mp pushed] at isWord
      cases isWord
      exact ⟨empty, plain.current⟩

theorem State.Plain.push {state : State} (plain : state.Plain) {kind : TokenKind}
    (notWord : kind.isWord = false) : (push kind state).Plain := by
  refine ⟨?_, plain.current⟩
  intro token member text isWord
  rcases List.mem_append.mp member with earlier | pushed
  · exact plain.words token earlier text isWord
  · rw [List.mem_singleton.mp pushed] at isWord
    rw [show kind = .word text from isWord] at notWord
    cases notWord

theorem State.Plain.step {state : State} (plain : state.Plain) (c : Char) : (step state c).Plain := by
  unfold Tokenizer.step
  split_ifs with newline lBrace rBrace semicolon white
  · exact ⟨plain.pushWord.words, plain.pushWord.current⟩
  · exact plain.pushWord.push rfl
  · exact plain.pushWord.push rfl
  · exact plain.pushWord.push rfl
  · exact plain.pushWord
  · refine ⟨plain.words, ?_⟩
    intro d member
    rcases List.mem_append.mp member with earlier | last
    · exact plain.current d earlier
    · rw [List.mem_singleton.mp last]
      simp [isWordChar, white, lBrace, rBrace, semicolon]

theorem State.Plain.foldl {state : State} (plain : state.Plain) (input : Str) :
    (input.foldl Tokenizer.step state).Plain := by
  induction input generalizing state with
  | nil => exact plain
  | cons c input ih => exact ih (plain.step c)

/-- No text yields a word that could be read as anything else. -/
theorem tokenize_plain (input : Str) {token : Token} (member : token ∈ tokenize input) {text : Str}
    (isWord : token.kind = .word text) : IsPlain text := by
  have start : State.Plain ⟨[], [], 1⟩ := ⟨by simp, by simp⟩
  exact (start.foldl input).pushWord.words token member text isWord

end Tokenizer

end LocalServer
