import LocalServer.ConfigFile
import LocalServer.Library.KindsOnly
import Mathlib.Logic.Relation

/-! Configuration files that are laid out anew. White space between tokens changes nothing but
the line that an error names. -/

namespace LocalServer.Reformatting
open Library Text Machine Parse ConfigParser ConfigFile

/-! The parser -/

inductive SameStop : Stop → Stop → Prop where
  | rejected (message : Str) (line line' : Nat) :
      SameStop (.rejected ⟨message, line⟩) (.rejected ⟨message, line'⟩)
  | panicked (panic : Panic) : SameStop (.panicked panic) (.panicked panic)

theorem SameStop.refl (stop : Stop) : SameStop stop stop := by
  cases stop with
  | rejected error => exact .rejected error.message error.line error.line
  | panicked panic => exact .panicked panic

def LineBlind {α : Type} (parser : ParseResult α) : Prop := KindsOnly Token.kind SameStop parser

section
variable {α : Type}

theorem lineBlind_pure (a : α) : LineBlind (pure a) := kindsOnly_pure a

theorem lineBlind_fail (stop : Stop) : LineBlind (fail stop : ParseResult α) :=
  kindsOnly_fail (.refl stop)

theorem lineBlind_peekKind : LineBlind peekKind := kindsOnly_peek

theorem LineBlind.bind {β : Type} {parser : ParseResult α} {next : α → ParseResult β}
    (earlier : LineBlind parser) (later : ∀ a, LineBlind (next a)) :
    LineBlind (parser >>= next) := KindsOnly.bind earlier later

theorem lineBlind_rejectHere (message : Str) : LineBlind (rejectHere message : ParseResult α) :=
  kindsOnly_position.bind fun _ => lineBlind_fail _

theorem lineBlind_loop {β : Type} {body : α → ParseResult (Turn α β)}
    (turns : ∀ state, LineBlind (body state)) (state : α) :
    LineBlind (loop exhausted body state) := kindsOnly_loop (.refl _) turns state

end

section
variable (profile : Profile) (tables : UnicodeTables)

theorem lineBlind_expectWord : LineBlind (expectWord tables) := by
  refine kindsOnly_next_bind ?_ (lineBlind_fail _)
  intro token token' first second sameKind same
  obtain ⟨kind, line⟩ := token
  obtain ⟨kind', line'⟩ := token'
  cases sameKind
  cases kind with
  | word w => exact .returned same
  | _ => exact .stopped (.rejected _ line line')

theorem lineBlind_expect (expected : TokenKind) : LineBlind (expect tables expected) := by
  refine kindsOnly_next_bind ?_ (lineBlind_fail _)
  intro token token' first second sameKind same
  obtain ⟨kind, line⟩ := token
  obtain ⟨kind', line'⟩ := token'
  cases sameKind
  dsimp only
  split_ifs
  · exact .returned same
  · exact .stopped (.rejected _ line line')

theorem lineBlind_expectValue : LineBlind (expectValue tables) :=
  (lineBlind_expectWord tables).bind fun value =>
    (lineBlind_expect tables .semicolon).bind fun _ => lineBlind_pure value

theorem lineBlind_semicolon {α : Type} (a : α) :
    LineBlind (expect tables .semicolon >>= fun _ => pure a) :=
  (lineBlind_expect tables .semicolon).bind fun _ => lineBlind_pure a

theorem lineBlind_blockTurn {σ : Type} {parseDirective : Str → σ → ParseResult σ}
    (directives : ∀ name state, LineBlind (parseDirective name state)) (block : Str) (state : σ) :
    LineBlind (blockTurn tables parseDirective block state) := by
  apply lineBlind_peekKind.bind
  intro found
  split
  · exact lineBlind_pure _
  · exact kindsOnly_next_bind (fun _ _ _ _ _ same => .returned same) (lineBlind_pure _)
  · exact (lineBlind_expectWord tables).bind fun directive =>
      (directives directive state).bind fun next => lineBlind_pure _
  · exact lineBlind_rejectHere _

theorem lineBlind_methodNamed (m : Str) : LineBlind (methodNamed m) := by
  unfold methodNamed
  split_ifs
  · exact lineBlind_pure _
  · exact lineBlind_pure _
  · exact lineBlind_pure _
  · exact lineBlind_rejectHere _

theorem lineBlind_methodTurn (methods : List Config.Method) :
    LineBlind (methodTurn tables methods) := by
  apply lineBlind_peekKind.bind
  intro found
  split
  · exact (lineBlind_expectWord tables).bind fun m =>
      (lineBlind_methodNamed m).bind fun method => lineBlind_pure _
  · exact lineBlind_pure _

theorem lineBlind_autoindexValue (val : Str) : LineBlind (autoindexValue val) := by
  unfold autoindexValue
  split_ifs
  · exact lineBlind_pure _
  · exact lineBlind_pure _
  · exact lineBlind_rejectHere _

theorem lineBlind_interpreter (ext : Str) : LineBlind (interpreter tables ext) := by
  apply lineBlind_peekKind.bind
  intro found
  split
  · exact lineBlind_expectWord tables
  · exact lineBlind_pure _

theorem lineBlind_locationDirective (directive : Str) (loc : Location) :
    LineBlind (locationDirective tables directive loc) := by
  unfold locationDirective
  split_ifs
  · exact (lineBlind_expectValue tables).bind fun root => lineBlind_pure _
  · exact (lineBlind_expectValue tables).bind fun index => lineBlind_pure _
  · exact (lineBlind_loop (lineBlind_methodTurn tables) _).bind fun methods =>
      lineBlind_semicolon tables _
  · exact (lineBlind_expectWord tables).bind fun val =>
      (lineBlind_autoindexValue val).bind fun autoindex => lineBlind_semicolon tables _
  · exact (lineBlind_expectValue tables).bind fun redirect => lineBlind_pure _
  · exact (lineBlind_expectWord tables).bind fun ext =>
      (lineBlind_interpreter tables ext).bind fun interpreter => lineBlind_semicolon tables _
  · exact lineBlind_rejectHere _

theorem lineBlind_parseLocation : LineBlind (parseLocation tables) := by
  apply (lineBlind_expectWord tables).bind
  intro path
  apply (lineBlind_expect tables .lBrace).bind
  intro opened
  apply (lineBlind_loop (lineBlind_blockTurn tables (lineBlind_locationDirective tables) _) _).bind
  intro result
  obtain ⟨closed, loc⟩ := result
  dsimp only
  split_ifs
  · exact lineBlind_rejectHere _
  · exact lineBlind_rejectHere _
  · exact lineBlind_pure _

theorem lineBlind_serverDirective (directive : Str) (fields : Fields) :
    LineBlind (serverDirective profile tables directive fields) := by
  unfold serverDirective
  split_ifs
  · exact (lineBlind_expectValue tables).bind fun host => lineBlind_pure _
  · apply (lineBlind_expectWord tables).bind
    intro raw
    split
    · exact lineBlind_rejectHere _
    · exact lineBlind_semicolon tables _
  · exact (lineBlind_expectValue tables).bind fun serverName => lineBlind_pure _
  · apply (lineBlind_expectWord tables).bind
    intro raw
    split
    · exact lineBlind_fail _
    · exact lineBlind_rejectHere _
    · exact lineBlind_semicolon tables _
  · apply (lineBlind_expectWord tables).bind
    intro codeStr
    split
    · exact lineBlind_rejectHere _
    · exact (lineBlind_expectValue tables).bind fun path => lineBlind_pure _
  · exact (lineBlind_parseLocation tables).bind fun loc => lineBlind_pure _
  · exact lineBlind_rejectHere _

theorem lineBlind_parseServer : LineBlind (parseServer profile tables) := by
  apply (lineBlind_expect tables .lBrace).bind
  intro opened
  apply (lineBlind_loop
    (lineBlind_blockTurn tables (lineBlind_serverDirective profile tables) _) _).bind
  intro result
  obtain ⟨closed, fields⟩ := result
  dsimp only
  split_ifs
  · exact lineBlind_rejectHere _
  · split
    · exact lineBlind_rejectHere _
    · exact lineBlind_rejectHere _
    · exact lineBlind_pure _

theorem lineBlind_configTurn (servers : List ServerConfig) :
    LineBlind (configTurn profile tables servers) := by
  apply lineBlind_peekKind.bind
  intro found
  split
  · exact lineBlind_pure _
  · apply (lineBlind_expectWord tables).bind
    intro word
    split_ifs
    · exact (lineBlind_parseServer profile tables).bind fun server => lineBlind_pure _
    · exact lineBlind_rejectHere _

theorem lineBlind_parseConfig : LineBlind (parseConfig profile tables) := by
  apply (lineBlind_loop (lineBlind_configTurn profile tables) []).bind
  intro servers
  cases servers with
  | nil => exact lineBlind_fail _
  | cons first rest => exact lineBlind_pure _

end

inductive Relaid : Str → Str → Prop where
  /-- Another space. -/
  | respaced (before after : Str) {c d : Char} (isSpace : isWhitespace c = true)
      (isSpace' : isWhitespace d = true) : Relaid (before ++ c :: after) (before ++ d :: after)
  | widened (before after : Str) {c d : Char} (isSpace : isWhitespace c = true)
      (isSpace' : isWhitespace d = true) : Relaid (before ++ c :: after) (before ++ c :: d :: after)
  /-- Space in front of a brace or semicolon. -/
  | spacedBefore (before after : Str) {mark c : Char} (isMark : mark ∈ ['{', '}', ';'])
      (isSpace : isWhitespace c = true) :
      Relaid (before ++ mark :: after) (before ++ c :: mark :: after)
  | spacedBehind (before after : Str) {mark c : Char} (isMark : mark ∈ ['{', '}', ';'])
      (isSpace : isWhitespace c = true) :
      Relaid (before ++ mark :: after) (before ++ mark :: c :: after)
  | indented (after : Str) {c : Char} (isSpace : isWhitespace c = true) : Relaid after (c :: after)
  | ended (before : Str) {c : Char} (isSpace : isWhitespace c = true) : Relaid before (before ++ [c])

section
open Tokenizer

structure SameWords (first second : State) : Prop where
  kinds : first.tokens.map Token.kind = second.tokens.map Token.kind
  current : first.current = second.current

theorem SameWords.refl (state : State) : SameWords state state := ⟨rfl, rfl⟩

section
variable {first second : State} (same : SameWords first second)
include same

theorem SameWords.push (kind : TokenKind) : SameWords (push kind first) (push kind second) := by
  refine ⟨?_, same.current⟩
  simp only [Tokenizer.push, List.map_append, same.kinds, List.map_cons, List.map_nil]

theorem SameWords.pushWord : SameWords (pushWord first) (pushWord second) := by
  unfold Tokenizer.pushWord
  rw [same.current]
  split_ifs
  · exact same
  · exact ⟨(same.push _).kinds, rfl⟩

theorem SameWords.step (c : Char) : SameWords (step first c) (step second c) := by
  unfold Tokenizer.step
  split_ifs
  · exact ⟨same.pushWord.kinds, same.pushWord.current⟩
  · exact same.pushWord.push _
  · exact same.pushWord.push _
  · exact same.pushWord.push _
  · exact same.pushWord
  · exact ⟨same.kinds, congrArg (· ++ [c]) same.current⟩

theorem SameWords.foldl (text : Str) : SameWords (text.foldl Tokenizer.step first)
    (text.foldl Tokenizer.step second) := by
  induction text generalizing first second with
  | nil => exact same
  | cons c rest ih => exact ih (same.step c)

theorem SameWords.kindsAfter (text : Str) :
    (text.foldl Tokenizer.step first).kinds = (text.foldl Tokenizer.step second).kinds :=
  (same.foldl text).pushWord.kinds

end

theorem SameWords.trans {first second third : State} (early : SameWords first second)
    (late : SameWords second third) : SameWords first third :=
  ⟨early.kinds.trans late.kinds, early.current.trans late.current⟩

theorem SameWords.symm {first second : State} (same : SameWords first second) :
    SameWords second first := ⟨same.kinds.symm, same.current.symm⟩

theorem pushWord_of_empty {state : State} (empty : state.current = []) : pushWord state = state :=
  if_pos empty

theorem step_space (state : State) {c : Char} (isSpace : isWhitespace c = true) :
    SameWords (step state c) (pushWord state) := by
  obtain ⟨kinds, ended⟩ := step_blank state isSpace
  rw [kinds_of_current ended] at kinds
  exact ⟨kinds, ended.trans (current_pushWord state).symm⟩

theorem step_mark (state : State) {mark : Char} (isMark : mark ∈ ['{', '}', ';']) :
    step (pushWord state) mark = step state mark ∧ (step state mark).current = [] := by
  have again := pushWord_of_empty (current_pushWord state)
  simp only [List.mem_cons, List.not_mem_nil, or_false] at isMark
  rcases isMark with rfl | rfl | rfl
  all_goals
    simp only [step, again]
    exact ⟨rfl, current_pushWord state⟩

theorem step_spaces (state : State) {c d : Char} (isSpace : isWhitespace c = true)
    (isSpace' : isWhitespace d = true) : SameWords (step (step state c) d) (step state c) := by
  have ended := step_space state isSpace
  have twice := (step_space (step state c) isSpace').trans ended.pushWord
  rw [pushWord_of_empty (current_pushWord state)] at twice
  exact twice.trans ended.symm

theorem kinds_relaid {text other : Str} (relaid : Relaid text other) :
    (tokenize text).map Token.kind = (tokenize other).map Token.kind := by
  show (text.foldl step ⟨[], [], 1⟩).kinds = (other.foldl step ⟨[], [], 1⟩).kinds
  cases relaid with
  | respaced before after isSpace isSpace' =>
    rw [List.foldl_append, List.foldl_append]
    exact ((step_space _ isSpace).trans (step_space _ isSpace').symm).kindsAfter after
  | widened before after isSpace isSpace' =>
    rw [List.foldl_append, List.foldl_append]
    exact (step_spaces _ isSpace isSpace').symm.kindsAfter after
  | @spacedBefore before after mark c isMark isSpace =>
    rw [List.foldl_append, List.foldl_append]
    have ended := (step_space (before.foldl step ⟨[], [], 1⟩) isSpace).step mark
    rw [(step_mark _ isMark).1] at ended
    exact ended.symm.kindsAfter after
  | @spacedBehind before after mark c isMark isSpace =>
    rw [List.foldl_append, List.foldl_append]
    have ended := step_space (step (before.foldl step ⟨[], [], 1⟩) mark) isSpace
    rw [pushWord_of_empty (step_mark _ isMark).2] at ended
    exact ended.symm.kindsAfter after
  | indented after isSpace =>
    exact (step_space ⟨[], [], 1⟩ isSpace).symm.kindsAfter text
  | ended before isSpace =>
    rw [List.foldl_append]
    exact (step_blank _ isSpace).1.symm

end

/-- Read as the same servers, or refused with the same message at some line. -/
inductive SameReading : Checked (Except Str Config) → Checked (Except Str Config) → Prop where
  | accepted (config : Config) : SameReading (.ok (.ok config)) (.ok (.ok config))
  | misplaced (message : Str) (line line' : Nat) :
      SameReading (.ok (.error (ParseError.display ⟨message, line⟩)))
        (.ok (.error (ParseError.display ⟨message, line'⟩)))
  | refused (message : Str) : SameReading (.ok (.error message)) (.ok (.error message))
  | panicked (panic : Panic) : SameReading (.error panic) (.error panic)

theorem fromFile_same (profile : Profile) (tables : UnicodeTables) (path : Str) {text other : Str}
    (same : (Tokenizer.tokenize text).map Token.kind =
      (Tokenizer.tokenize other).map Token.kind) :
    SameReading (fromFile profile tables path (.ok text))
      (fromFile profile tables path (.ok other)) := by
  unfold fromFile
  dsimp only
  rcases (lineBlind_parseConfig profile tables).run same with
    ⟨config, ran, ran'⟩ | ⟨stop, stop', ran, ran', corresponds⟩
  · rw [ran, ran']
    dsimp only
    cases checkDuplicates [] config.servers with
    | error message => exact .refused message
    | ok checked => exact .accepted config
  · rw [ran, ran']
    cases corresponds with
    | rejected message line line' => exact .misplaced message line line'
    | panicked panic => exact .panicked panic

/-- However a configuration is laid out anew, step by step and back again, it is read as the same
servers, or refused with the same message, where only the line may be another. -/
theorem layout_irrelevant (profile : Profile) (tables : UnicodeTables) (path text other : Str)
    (relaid : Relation.EqvGen Relaid text other) :
    SameReading (fromFile profile tables path (.ok text))
      (fromFile profile tables path (.ok other)) := by
  apply fromFile_same
  induction relaid with
  | rel text other relaid => exact kinds_relaid relaid
  | refl text => rfl
  | symm text other _ ih => exact ih.symm
  | trans text middle other _ _ first second => exact first.trans second

/-- A new line, and a brace that is moved. -/
theorem layout_irrelevant_braces :
    SameReading
      (fromFile .dev ConfigRejection.plainTables "a.conf".toList
        (.ok "server \x7bhost h;port 1;\x7d".toList))
      (fromFile .dev ConfigRejection.plainTables "a.conf".toList
        (.ok "server\n\x7b host h;port 1;\x7d".toList)) := by
  have newLine : Relaid "server \x7bhost h;port 1;\x7d".toList "server\n\x7bhost h;port 1;\x7d".toList :=
    .respaced "server".toList "\x7bhost h;port 1;\x7d".toList (by decide) (by decide)
  have moved : Relaid "server\n\x7bhost h;port 1;\x7d".toList "server\n\x7b host h;port 1;\x7d".toList :=
    .spacedBehind "server\n".toList "host h;port 1;\x7d".toList (by decide) (by decide)
  exact layout_irrelevant .dev ConfigRejection.plainTables "a.conf".toList _ _
    (.trans _ _ _ (.rel _ _ newLine) (.rel _ _ moved))

end LocalServer.Reformatting
