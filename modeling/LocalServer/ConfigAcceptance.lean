import LocalServer.ConfigGrammar

/-! What each parse function reads, from single tokens up to whole configurations. -/

namespace LocalServer.ConfigAcceptance
open Library Machine Text Parse ConfigParser ConfigGrammar

section
variable (tables : UnicodeTables)

theorem reads_expectWord :
    Reads Token.kind (expectWord tables) fun consumed w _ => consumed = [.word w] := by
  intro cursor w last
  unfold expectWord
  cases found : cursor.peek with
  | none =>
    have empty := cursor.head?_kinds Token.kind
    rw [found, Option.map_none, List.head?_eq_none_iff] at empty
    rw [bind_ok]
    simp [next, found, empty, reject]
  | some token =>
    obtain ⟨rest, whole⟩ := cursor.kinds_of_peek Token.kind found
    obtain ⟨kind, line⟩ := token
    rw [bind_ok, whole]
    cases kind <;> simp [next, found, reject, eq_comm, and_comm]

theorem reads_expect (expected : TokenKind) :
    Reads Token.kind (expect tables expected) fun consumed _ _ => consumed = [expected] := by
  intro cursor w last
  unfold expect
  cases found : cursor.peek with
  | none =>
    have empty := cursor.head?_kinds Token.kind
    rw [found, Option.map_none, List.head?_eq_none_iff] at empty
    rw [bind_ok]
    simp [next, found, empty, reject]
  | some token =>
    obtain ⟨rest, whole⟩ := cursor.kinds_of_peek Token.kind found
    obtain ⟨kind, line⟩ := token
    rw [bind_ok, whole]
    by_cases same : kind = expected
    · simp [next, found, same, eq_comm]
    · simp [next, found, same, reject]

theorem reads_expectValue : Reads Token.kind (expectValue tables)
    fun consumed w _ => consumed = [.word w, .semicolon] := by
  refine ((reads_expectWord tables).bind fun w =>
    (reads_expect tables .semicolon).bind fun _ => reads_pure w).mono ?_
  intro consumed w rest
  simp

theorem reads_rejectHere {α : Type} (message : Str) :
    Reads Token.kind (rejectHere message : ParseResult α) fun _ _ _ => False :=
  reads_position_fail _

def BlockEnds {σ : Type} (state : σ) (consumed : List TokenKind) (result : Bool × σ)
    (rest : List TokenKind) : Prop :=
  result.2 = state ∧ (result.1 = true ∧ consumed = [.rBrace] ∨
    result.1 = false ∧ consumed = [] ∧ rest = [])

theorem brace_of_blockEnds {σ : Type} {state : σ} {consumed rest : List TokenKind} {result : Bool × σ}
    {kind : TokenKind} (head : (consumed ++ rest).head? = some kind)
    (ends : BlockEnds state consumed result rest) : kind = .rBrace := by
  rcases ends.2 with ⟨-, rfl⟩ | ⟨-, rfl, rfl⟩
  · cases head
    rfl
  · cases head

section
variable {σ ι : Type} {parseDirective : Str → σ → ParseResult σ} {valid : ι → Prop}
  {write : ι → List TokenKind} {apply : σ → ι → σ}
  (named : ∀ item, ∃ name words, write item = .word name :: words)
include named

theorem word_of_item {item : ι} {consumed rest : List TokenKind} {kind : TokenKind}
    (head : (consumed ++ rest).head? = some kind) (isItem : consumed = write item) :
    ∃ name, kind = .word name := by
  obtain ⟨name, words, shape⟩ := named item
  rw [isItem, shape] at head
  cases head
  exact ⟨name, rfl⟩

variable {cursor : Cursor Token} {state : σ}

theorem readsAt_blockOver (head : (cursor.kinds Token.kind).head? = none) :
    ReadsAt Token.kind (pure (.done (false, state)) : ParseResult (Turn σ (Bool × σ)))
      (itemTurn valid write apply BlockEnds state) cursor := by
  refine (reads_pure _ cursor).mono ?_
  intro consumed turned rest whole
  rw [List.head?_eq_none_iff] at head
  rw [head, eq_comm, List.append_eq_nil_iff] at whole
  obtain ⟨rfl, rfl⟩ := whole
  cases turned with
  | done result => simp [itemTurn, BlockEnds, Prod.ext_iff, and_comm]
  | again next =>
    simp only [itemTurn, reduceCtorEq, and_false, false_iff, not_exists, not_and]
    intro item _ empty
    obtain ⟨name, words, written⟩ := named item
    rw [written] at empty
    cases empty

theorem readsAt_blockBrace (head : (cursor.kinds Token.kind).head? = some .rBrace) :
    ReadsAt Token.kind (next >>= fun _ => pure (.done (true, state)) : ParseResult (Turn σ (Bool × σ)))
      (itemTurn valid write apply BlockEnds state) cursor := by
  refine (readsAt_next head _).mono ?_
  intro consumed turned rest whole
  rw [whole] at head
  cases turned with
  | done result =>
    obtain ⟨closed, final⟩ := result
    simp only [itemTurn, BlockEnds, Turn.done.injEq, Prod.mk.injEq]
    constructor
    · intro read
      obtain ⟨rfl, rfl, rfl⟩ := read
      exact ⟨rfl, Or.inl ⟨rfl, rfl⟩⟩
    · intro ends
      obtain ⟨rfl, ⟨rfl, rfl⟩ | ⟨-, rfl, rfl⟩⟩ := ends
      · exact ⟨rfl, rfl, rfl⟩
      · cases head
  | again next =>
    simp only [reduceCtorEq, and_false, false_iff]
    intro turns
    obtain ⟨item, -, isItem, -⟩ := turns
    obtain ⟨name, isWord⟩ := word_of_item named head isItem
    cases isWord

theorem readsAt_blockWrong {kind : TokenKind} (head : (cursor.kinds Token.kind).head? = some kind)
    (notWord : kind.isWord = false) (notBrace : kind ≠ .rBrace) (message : Str) :
    ReadsAt Token.kind (rejectHere message : ParseResult (Turn σ (Bool × σ)))
      (itemTurn valid write apply BlockEnds state) cursor := by
  refine (reads_rejectHere message cursor).mono ?_
  intro consumed turned rest whole
  rw [whole] at head
  rw [false_iff]
  intro turns
  cases turned with
  | done result => exact notBrace (brace_of_blockEnds head turns)
  | again next =>
    obtain ⟨item, -, isItem, -⟩ := turns
    obtain ⟨name, rfl⟩ := word_of_item named head isItem
    cases notWord

variable (reads : ∀ name state, Reads Token.kind (parseDirective name state) fun consumed next _ =>
    ∃ item, valid item ∧ .word name :: consumed = write item ∧ next = apply state item)
include reads

theorem readsAt_blockItem {w : Str} (head : (cursor.kinds Token.kind).head? = some (.word w)) :
    ReadsAt Token.kind (expectWord tables >>= fun directive => parseDirective directive state >>=
        fun next => pure (.again next) : ParseResult (Turn σ (Bool × σ)))
      (itemTurn valid write apply BlockEnds state) cursor := by
  refine (((reads_expectWord tables).bind fun name =>
    (reads name state).bind fun next => reads_pure _) cursor).mono ?_
  intro consumed turned rest whole
  rw [whole] at head
  constructor
  · intro read
    obtain ⟨name, _, _, rfl, rfl, next, words, _, rfl, ⟨item, isValid, isItem, rfl⟩, rfl, rfl⟩ := read
    exact ⟨item, isValid, by simpa using isItem, rfl⟩
  · intro turns
    cases turned with
    | done result => cases brace_of_blockEnds head turns
    | again next =>
      obtain ⟨item, isValid, rfl, rfl⟩ := turns
      obtain ⟨name, words, shape⟩ := named item
      rw [shape]
      exact ⟨name, [.word name], words, rfl, rfl, _, words, [], by simp,
        ⟨item, isValid, shape.symm, rfl⟩, rfl, rfl⟩

theorem reads_blockTurn (block : Str) (state : σ) :
    Reads Token.kind (blockTurn tables parseDirective block state)
      (itemTurn valid write apply BlockEnds state) := by
  intro cursor
  apply readsAt_peek_bind
  cases head : (cursor.kinds Token.kind).head? with
  | none => exact readsAt_blockOver named head
  | some kind =>
    cases kind with
    | word w => exact readsAt_blockItem tables named reads head
    | rBrace => exact readsAt_blockBrace named head
    | lBrace => exact readsAt_blockWrong named head rfl (by simp) _
    | semicolon => exact readsAt_blockWrong named head rfl (by simp) _

/-- A block is a list of directives, and closed by a brace unless the tokens are at an end. -/
theorem reads_block (block : Str) (state : σ) :
    Reads Token.kind (loop exhausted (blockTurn tables parseDirective block) state)
      fun consumed result rest => ∃ (items : List ι) (last : List TokenKind),
        (∀ item ∈ items, valid item) ∧ consumed = items.flatMap write ++ last ∧
          BlockEnds (items.foldl apply state) last result rest := by
  apply reads_items exhausted ?_ (reads_blockTurn tables named reads block)
  intro item empty
  obtain ⟨name, words, shape⟩ := named item
  rw [shape] at empty
  cases empty

end

theorem reads_closed {σ α : Type} {reader : ParseResult α}
    {accepts : List TokenKind → α → List TokenKind → Prop} (reads : Reads Token.kind reader accepts)
    (set : α → σ) :
    Reads Token.kind (reader >>= fun a => expect tables .semicolon >>= fun _ => pure (set a))
      fun consumed next rest => ∃ a words, accepts words a (.semicolon :: rest) ∧
        consumed = words ++ [.semicolon] ∧ next = set a := by
  refine (reads.bind fun a => (reads_expect tables .semicolon).bind fun _ => reads_pure _).mono ?_
  intro consumed next rest
  constructor
  · intro read
    obtain ⟨a, words, _, rfl, accepted, _, _, _, rfl, rfl, rfl, rfl⟩ := read
    exact ⟨a, words, accepted, rfl, rfl⟩
  · intro read
    obtain ⟨a, words, accepted, rfl, rfl⟩ := read
    exact ⟨a, words, [.semicolon], rfl, accepted, (), [.semicolon], [], rfl, rfl, rfl, rfl⟩

theorem reads_value {σ : Type} (set : Str → σ) :
    Reads Token.kind (expectValue tables >>= fun value => pure (set value))
      fun consumed next _ => ∃ value, consumed = values [value] ∧ next = set value := by
  refine ((reads_expectValue tables).bind fun value => reads_pure _).mono ?_
  intro consumed next rest
  constructor
  · intro read
    obtain ⟨value, _, _, rfl, rfl, rfl, rfl⟩ := read
    exact ⟨value, rfl, rfl⟩
  · intro read
    obtain ⟨value, rfl, rfl⟩ := read
    exact ⟨value, values [value], [], (List.append_nil _).symm, rfl, rfl, rfl⟩

/-! Location blocks -/

theorem reads_methodNamed (m : Str) :
    Reads Token.kind (methodNamed m) fun consumed method _ => consumed = [] ∧ m = methodName method := by
  unfold methodNamed
  split_ifs with get post delete
  · refine (reads_pure _).mono fun consumed method rest => and_congr_right fun _ => ?_
    rw [get]
    cases method <;> decide
  · refine (reads_pure _).mono fun consumed method rest => and_congr_right fun _ => ?_
    rw [post]
    cases method <;> decide
  · refine (reads_pure _).mono fun consumed method rest => and_congr_right fun _ => ?_
    rw [delete]
    cases method <;> decide
  · refine (reads_rejectHere _).mono fun consumed method rest => ?_
    rw [false_iff]
    intro named
    cases method with
    | get => exact get named.2
    | post => exact post named.2
    | delete => exact delete named.2

def MethodsEnd (methods : List Config.Method) (consumed : List TokenKind)
    (result : List Config.Method) (rest : List TokenKind) : Prop :=
  consumed = [] ∧ result = methods ∧ ∀ w, rest.head? ≠ some (TokenKind.word w)

def methodKinds (method : Config.Method) : List TokenKind := [.word (methodName method)]

def methodTurns : List Config.Method → List TokenKind →
    Turn (List Config.Method) (List Config.Method) → List TokenKind → Prop :=
  itemTurn (fun _ => True) methodKinds (fun methods method => methods ++ [method]) MethodsEnd

theorem reads_methodTurn (methods : List Config.Method) :
    Reads Token.kind (methodTurn tables methods) (methodTurns methods) := by
  intro cursor
  apply readsAt_peek_bind
  have stops : (∀ w, (cursor.kinds Token.kind).head? ≠ some (.word w)) →
      ReadsAt Token.kind (pure (.done methods) : ParseResult _) (methodTurns methods) cursor := by
    intro notWord
    refine (reads_pure _ cursor).mono ?_
    intro consumed turned rest whole
    rw [whole] at notWord
    cases turned with
    | done result =>
      simp only [methodTurns, itemTurn, MethodsEnd, Turn.done.injEq, and_congr_right_iff]
      intro empty
      subst empty
      simp [show ∀ w, rest.head? ≠ some (.word w) from notWord]
    | again next =>
      simp only [methodTurns, itemTurn, methodKinds, true_and, reduceCtorEq, and_false, false_iff, not_exists,
        not_and]
      intro method isMethod
      subst isMethod
      exact absurd rfl (notWord _)
  cases head : (cursor.kinds Token.kind).head? with
  | none => exact stops (by simp [head])
  | some kind =>
    cases kind with
    | word w =>
      refine (((reads_expectWord tables).bind fun m =>
        (reads_methodNamed m).bind fun method => reads_pure _) cursor).mono ?_
      intro consumed turned rest whole
      cases turned with
      | done result =>
        simp only [reduceCtorEq, and_false, exists_false, false_iff]
        intro ends
        obtain ⟨rfl, -, notWord⟩ := ends
        rw [whole] at head
        exact notWord w head
      | again next => simp [methodTurns, itemTurn, methodKinds]
    | lBrace => exact stops (by simp [head])
    | rBrace => exact stops (by simp [head])
    | semicolon => exact stops (by simp [head])

theorem reads_methods (methods : List Config.Method) :
    Reads Token.kind (loop exhausted (methodTurn tables) methods) fun consumed result rest =>
      ∃ list : List Config.Method, consumed = (list.map methodName).map TokenKind.word ∧
        result = methods ++ list ∧ ∀ w, rest.head? ≠ some (TokenKind.word w) := by
  refine (reads_items exhausted (by simp [methodKinds]) (reads_methodTurn tables) methods).mono ?_
  intro consumed result rest
  have kinds : ∀ list : List Config.Method,
      list.flatMap methodKinds = (list.map methodName).map TokenKind.word := by
    intro list
    induction list with
    | nil => rfl
    | cons method list ih => rw [List.flatMap_cons, ih]; rfl
  have appended : ∀ list methods : List Config.Method,
      list.foldl (fun methods method => methods ++ [method]) methods = methods ++ list := by
    intro list
    induction list with
    | nil => simp
    | cons method list ih => intro methods; rw [List.foldl_cons, ih]; simp
  simp only [kinds, appended, MethodsEnd]
  constructor
  · intro read
    obtain ⟨list, _, -, rfl, rfl, rfl, notWord⟩ := read
    exact ⟨list, by simp, rfl, notWord⟩
  · intro read
    obtain ⟨list, rfl, rfl, notWord⟩ := read
    exact ⟨list, [], by simp, by simp, rfl, rfl, notWord⟩

theorem reads_autoindexValue (val : Str) : Reads Token.kind (autoindexValue val)
    fun consumed on _ => consumed = [] ∧ val = if on then "on".toList else "off".toList := by
  unfold autoindexValue
  split_ifs with isOn isOff
  · refine (reads_pure _).mono fun consumed on rest => and_congr_right fun _ => ?_
    rw [isOn]
    cases on <;> decide
  · refine (reads_pure _).mono fun consumed on rest => and_congr_right fun _ => ?_
    rw [isOff]
    cases on <;> decide
  · refine (reads_rejectHere _).mono fun consumed on rest => ?_
    rw [false_iff]
    intro named
    cases on with
    | true => exact isOn named.2
    | false => exact isOff named.2

theorem reads_interpreter (ext : Str) : Reads Token.kind (interpreter tables ext)
    fun consumed result rest => ∃ chosen : Option Str, consumed = chosen.toList.map TokenKind.word ∧
      result = chosen.getD (defaultInterpreter ext) ∧
      (chosen = none → ∀ w, rest.head? ≠ some (TokenKind.word w)) := by
  intro cursor
  apply readsAt_peek_bind
  have default : (∀ w, (cursor.kinds Token.kind).head? ≠ some (.word w)) →
      ReadsAt Token.kind (pure (defaultInterpreter ext) : ParseResult Str)
        (fun consumed result rest => ∃ chosen : Option Str,
          consumed = chosen.toList.map TokenKind.word ∧
          result = chosen.getD (defaultInterpreter ext) ∧
          (chosen = none → ∀ w, rest.head? ≠ some (TokenKind.word w))) cursor := by
    intro notWord
    refine (reads_pure _ cursor).mono ?_
    intro consumed result rest whole
    rw [whole] at notWord
    constructor
    · intro read
      obtain ⟨rfl, rfl⟩ := read
      exact ⟨none, rfl, rfl, fun _ => notWord⟩
    · intro read
      obtain ⟨chosen, rfl, rfl, -⟩ := read
      cases chosen with
      | none => exact ⟨rfl, rfl⟩
      | some w => exact absurd rfl (notWord w)
  cases head : (cursor.kinds Token.kind).head? with
  | none => exact default (by simp [head])
  | some kind =>
    cases kind with
    | word w =>
      refine (reads_expectWord tables cursor).mono ?_
      intro consumed result rest whole
      constructor
      · intro read
        exact ⟨some result, read, rfl, by simp⟩
      · intro read
        obtain ⟨chosen, rfl, rfl, notWord⟩ := read
        cases chosen with
        | none =>
          rw [whole] at head
          exact absurd head (notWord rfl w)
        | some chosen => rfl
    | lBrace => exact default (by simp [head])
    | rBrace => exact default (by simp [head])
    | semicolon => exact default (by simp [head])

/-! The location directives -/

section
variable (loc : Location)

theorem reads_methodsDirective :
    Reads Token.kind (do
        let methods ← loop exhausted (methodTurn tables) loc.methods
        expect tables .semicolon
        pure { loc with methods })
      fun consumed next _ => ∃ list, consumed = values (LocationDirective.methods list).words ∧
        next = (LocationDirective.methods list).apply loc := by
  refine (reads_closed tables (reads_methods tables loc.methods) _).mono ?_
  intro consumed next rest
  constructor
  · intro read
    obtain ⟨_, _, ⟨list, rfl, rfl, -⟩, rfl, rfl⟩ := read
    exact ⟨list, rfl, rfl⟩
  · intro read
    obtain ⟨list, rfl, rfl⟩ := read
    -- a semicolon is no word, so that the list ends in front of it
    exact ⟨_, _, ⟨list, rfl, rfl, by simp⟩, rfl, rfl⟩

theorem reads_autoindexDirective :
    Reads Token.kind (do
        let val ← expectWord tables
        let autoindex ← autoindexValue val
        expect tables .semicolon
        pure { loc with autoindex })
      fun consumed next _ => ∃ on, consumed = values (LocationDirective.autoindex on).words ∧
        next = (LocationDirective.autoindex on).apply loc := by
  refine ((reads_expectWord tables).bind fun val =>
    reads_closed tables (reads_autoindexValue val) _).mono ?_
  intro consumed next rest
  constructor
  · intro read
    obtain ⟨_, _, _, rfl, rfl, on, _, ⟨rfl, rfl⟩, rfl, rfl⟩ := read
    exact ⟨on, rfl, rfl⟩
  · intro read
    obtain ⟨on, rfl, rfl⟩ := read
    exact ⟨_, [_], [.semicolon], rfl, rfl, on, [], ⟨rfl, rfl⟩, rfl, rfl⟩

theorem reads_cgiDirective :
    Reads Token.kind (do
        let ext ← expectWord tables
        let interpreter ← interpreter tables ext
        expect tables .semicolon
        pure { loc with cgi := some ⟨ext, interpreter⟩ })
      fun consumed next _ => ∃ cgi : Str × Option Str,
        consumed = values (LocationDirective.cgi cgi.1 cgi.2).words ∧
          next = (LocationDirective.cgi cgi.1 cgi.2).apply loc := by
  refine ((reads_expectWord tables).bind fun ext =>
    reads_closed tables (reads_interpreter tables ext) _).mono ?_
  intro consumed next rest
  constructor
  · intro read
    obtain ⟨ext, _, _, rfl, rfl, _, _, ⟨chosen, rfl, rfl, -⟩, rfl, rfl⟩ := read
    exact ⟨(ext, chosen), rfl, rfl⟩
  · intro read
    obtain ⟨⟨ext, chosen⟩, rfl, rfl⟩ := read
    exact ⟨ext, [_], _, rfl, rfl, _, _, ⟨chosen, rfl, rfl, by simp⟩, rfl, rfl⟩

theorem reads_locationNamed {α : Type} {name : String} {branch : ParseResult Location}
    (make : α → LocationDirective) (named : ∀ a, (make a).name = name)
    (only : ∀ item : LocationDirective, item.name = name → ∃ a, item = make a)
    (reads : Reads Token.kind branch fun consumed next _ =>
      ∃ a, consumed = values (make a).words ∧ next = (make a).apply loc) :
    Reads Token.kind branch fun consumed next _ => ∃ item : LocationDirective, True ∧
      .word name.toList :: consumed = item.kinds ∧ next = item.apply loc := by
  refine reads.mono ?_
  intro consumed next rest
  constructor
  · intro read
    obtain ⟨a, rfl, rfl⟩ := read
    exact ⟨make a, trivial, LocationDirective.written_iff.mpr ⟨named a, rfl⟩, rfl⟩
  · intro written
    obtain ⟨item, -, isItem, rfl⟩ := written
    obtain ⟨isNamed, rfl⟩ := LocationDirective.written_iff.mp isItem
    obtain ⟨a, rfl⟩ := only item isNamed
    exact ⟨a, rfl, rfl⟩

end

theorem reads_locationDirective (name : Str) (loc : Location) :
    Reads Token.kind (locationDirective tables name loc) fun consumed next _ =>
      ∃ item : LocationDirective, True ∧ .word name :: consumed = item.kinds ∧
        next = item.apply loc := by
  unfold locationDirective
  split_ifs with root index methods autoindex redirect cgi
  · subst root
    refine reads_locationNamed loc .root (fun _ => rfl) (fun item isNamed => ?_)
      (reads_value tables fun root => { loc with root })
    cases item <;> simp only [LocationDirective.name, String.reduceEq] at isNamed
    exact ⟨_, rfl⟩
  · subst index
    refine reads_locationNamed loc .index (fun _ => rfl) (fun item isNamed => ?_)
      (reads_value tables fun index => { loc with index := some index })
    cases item <;> simp only [LocationDirective.name, String.reduceEq] at isNamed
    exact ⟨_, rfl⟩
  · subst methods
    refine reads_locationNamed loc .methods (fun _ => rfl) (fun item isNamed => ?_)
      (reads_methodsDirective tables loc)
    cases item <;> simp only [LocationDirective.name, String.reduceEq] at isNamed
    exact ⟨_, rfl⟩
  · subst autoindex
    refine reads_locationNamed loc .autoindex (fun _ => rfl) (fun item isNamed => ?_)
      (reads_autoindexDirective tables loc)
    cases item <;> simp only [LocationDirective.name, String.reduceEq] at isNamed
    exact ⟨_, rfl⟩
  · subst redirect
    refine reads_locationNamed loc .redirect (fun _ => rfl) (fun item isNamed => ?_)
      (reads_value tables fun redirect => { loc with redirect := some redirect })
    cases item <;> simp only [LocationDirective.name, String.reduceEq] at isNamed
    exact ⟨_, rfl⟩
  · subst cgi
    refine reads_locationNamed loc (fun cgi : Str × Option Str => .cgi cgi.1 cgi.2) (fun _ => rfl)
      (fun item isNamed => ?_) (reads_cgiDirective tables loc)
    cases item <;> simp only [LocationDirective.name, String.reduceEq] at isNamed
    exact ⟨(_, _), rfl⟩
  · refine (reads_rejectHere _).mono ?_
    intro consumed next rest
    rw [false_iff]
    intro written
    obtain ⟨item, -, isItem, -⟩ := written
    have isNamed : name = item.name.toList := by
      rw [LocationDirective.kinds, List.cons.injEq, TokenKind.word.injEq] at isItem
      exact isItem.1
    cases item with
    | root => exact root isNamed
    | index => exact index isNamed
    | methods => exact methods isNamed
    | autoindex => exact autoindex isNamed
    | redirect => exact redirect isNamed
    | cgi => exact cgi isNamed

theorem reads_parseLocation : Reads Token.kind (parseLocation tables)
    fun consumed loc _ => ∃ block : LocationBlock, block.path ≠ [] ∧ consumed = block.kinds ∧
      loc = block.meaning := by
  have named : ∀ item : LocationDirective, ∃ name words, item.kinds = .word name :: words :=
    fun item => ⟨_, _, rfl⟩
  have ends : ∀ (path : Str) (result : Bool × Location), Reads Token.kind
      (if !result.1 then
        rejectHere (quoted "Unclosed location block".toList path ++ " — missing '\x7d'".toList)
      else if path = [] then rejectHere "Location path cannot be empty".toList
      else pure result.2) fun consumed loc _ => result.1 = true ∧ path ≠ [] ∧ consumed = [] ∧
        loc = result.2 := by
    intro path result
    split_ifs with unclosed empty
    · refine (reads_rejectHere _).mono ?_
      simp_all
    · refine (reads_rejectHere _).mono ?_
      simp [empty]
    · refine (reads_pure _).mono ?_
      simp_all
  refine ((reads_expectWord tables).bind fun path => (reads_expect tables .lBrace).bind fun _ =>
    (reads_block tables named (reads_locationDirective tables) "location block".toList
      (newLocation path)).bind (ends path)).mono ?_
  intro consumed loc rest
  constructor
  · intro read
    obtain ⟨path, _, _, rfl, rfl, _, _, _, rfl, rfl, result, _, _, rfl,
      ⟨items, last, -, rfl, isResult, closed⟩, isClosed, named, rfl, rfl⟩ := read
    rw [isClosed] at closed
    obtain ⟨-, rfl⟩ | ⟨absurdly, -⟩ := closed
    · refine ⟨⟨path, items⟩, named, ?_, ?_⟩
      · simp [LocationBlock.kinds]
      · rw [meaning_eq_foldl, isResult]
    · cases absurdly
  · intro read
    obtain ⟨block, named, rfl, rfl⟩ := read
    refine ⟨block.path, [_], _, rfl, rfl, (), [_], _, rfl, rfl, (true, block.meaning), _, [],
      (List.append_nil _).symm, ⟨block.directives, [.rBrace], fun _ _ => trivial, rfl, ?_, ?_⟩,
      rfl, named, rfl, rfl⟩
    · exact meaning_eq_foldl block
    · exact Or.inl ⟨rfl, rfl⟩

variable (profile : Profile)

theorem reads_number {α : Type} (raw : Str) (message : Str) {next : Nat → ParseResult α}
    {accepts : Nat → List TokenKind → α → List TokenKind → Prop}
    (later : ∀ value, Reads Token.kind (next value) (accepts value)) :
    Reads Token.kind
      (match parseU16 raw with
      | none => rejectHere message
      | some value => next value)
      fun consumed a rest => ∃ number : Number, raw = number.text ∧
        accepts number.value consumed a rest := by
  cases found : parseU16 raw with
  | none =>
    refine (reads_rejectHere message).mono ?_
    intro consumed a rest
    rw [false_iff]
    intro read
    obtain ⟨number, rfl, -⟩ := read
    rw [number.reads] at found
    cases found
  | some value =>
    refine (later value).mono ?_
    intro consumed a rest
    constructor
    · exact fun accepted => ⟨⟨raw, value, found⟩, rfl, accepted⟩
    · intro read
      obtain ⟨number, rfl, accepted⟩ := read
      rw [number.reads] at found
      cases found
      exact accepted

theorem reads_size {α : Type} (raw : Str) {next : Nat → ParseResult α}
    {accepts : Nat → List TokenKind → α → List TokenKind → Prop}
    (later : ∀ bytes, Reads Token.kind (next bytes) (accepts bytes)) :
    Reads Token.kind
      (match parseBodySize profile tables.toCaseTables raw with
      | .error panic => fail (.panicked panic)
      | .ok (.error message) => rejectHere message
      | .ok (.ok bytes) => next bytes)
      fun consumed a rest => ∃ size : Size profile tables.toCaseTables, raw = size.text ∧
        accepts size.bytes consumed a rest := by
  have refused : (∀ bytes, parseBodySize profile tables.toCaseTables raw ≠ .ok (.ok bytes)) →
      ∀ consumed a rest, False ↔ ∃ size : Size profile tables.toCaseTables, raw = size.text ∧
        accepts size.bytes consumed a rest := by
    intro never consumed a rest
    rw [false_iff]
    intro read
    obtain ⟨size, rfl, -⟩ := read
    exact never _ size.reads
  cases found : parseBodySize profile tables.toCaseTables raw with
  | error panic => exact (reads_fail _).mono (refused (by simp [found]))
  | ok result =>
    cases result with
    | error message => exact (reads_rejectHere message).mono (refused (by simp [found]))
    | ok bytes =>
      refine (later bytes).mono ?_
      intro consumed a rest
      constructor
      · exact fun accepted => ⟨⟨raw, bytes, found⟩, rfl, accepted⟩
      · intro read
        obtain ⟨size, rfl, accepted⟩ := read
        rw [size.reads] at found
        cases found
        exact accepted

theorem notLocation {tables : CaseTables} (item : ServerDirective profile tables)
    (other : item.location? = none) : item.Named := by
  intro block isBlock
  rw [other] at isBlock
  cases isBlock

/-! The server directives -/

section
variable (fields : Fields)

theorem reads_portDirective :
    Reads Token.kind (do
        let raw ← expectWord tables
        match parseU16 raw with
        | none => rejectHere (quoted "Invalid port number".toList raw)
        | some port => do
          expect tables .semicolon
          pure { fields with port := some port })
      fun consumed next _ => ∃ number : Number, consumed = values [number.text] ∧
        next = { fields with port := some number.value } := by
  refine ((reads_expectWord tables).bind fun raw => reads_number raw _ fun port =>
    (reads_expect tables .semicolon).bind fun _ => reads_pure _).mono ?_
  intro consumed next rest
  constructor
  · intro read
    obtain ⟨_, _, _, rfl, rfl, number, rfl, _, _, _, rfl, rfl, rfl, rfl⟩ := read
    exact ⟨number, rfl, rfl⟩
  · intro read
    obtain ⟨number, rfl, rfl⟩ := read
    exact ⟨_, [_], [.semicolon], rfl, rfl, number, rfl, (), [_], [], rfl, rfl, rfl, rfl⟩

theorem reads_sizeDirective :
    Reads Token.kind (do
        let raw ← expectWord tables
        match parseBodySize profile tables.toCaseTables raw with
        | .error panic => fail (.panicked panic)
        | .ok (.error message) => rejectHere message
        | .ok (.ok clientMaxBodySize) => do
          expect tables .semicolon
          pure { fields with clientMaxBodySize })
      fun consumed next _ => ∃ size : Size profile tables.toCaseTables,
        consumed = values [size.text] ∧ next = { fields with clientMaxBodySize := size.bytes } := by
  refine ((reads_expectWord tables).bind fun raw => reads_size tables profile raw fun bytes =>
    (reads_expect tables .semicolon).bind fun _ => reads_pure _).mono ?_
  intro consumed next rest
  constructor
  · intro read
    obtain ⟨_, _, _, rfl, rfl, size, rfl, _, _, _, rfl, rfl, rfl, rfl⟩ := read
    exact ⟨size, rfl, rfl⟩
  · intro read
    obtain ⟨size, rfl, rfl⟩ := read
    exact ⟨_, [_], [.semicolon], rfl, rfl, size, rfl, (), [_], [], rfl, rfl, rfl, rfl⟩

theorem reads_errorPageDirective :
    Reads Token.kind (do
        let codeStr ← expectWord tables
        match parseU16 codeStr with
        | none => rejectHere (quoted "Invalid error code".toList codeStr)
        | some code => do
          let path ← expectValue tables
          pure { fields with errorPages := fields.errorPages.insert code path })
      fun consumed next _ => ∃ page : Number × Str, consumed = values [page.1.text, page.2] ∧
        next = { fields with errorPages := fields.errorPages.insert page.1.value page.2 } := by
  refine ((reads_expectWord tables).bind fun codeStr => reads_number codeStr _ fun code =>
    reads_value tables fun path =>
      { fields with errorPages := fields.errorPages.insert code path }).mono ?_
  intro consumed next rest
  constructor
  · intro read
    obtain ⟨_, _, _, rfl, rfl, code, rfl, path, rfl, rfl⟩ := read
    exact ⟨(code, path), rfl, rfl⟩
  · intro read
    obtain ⟨⟨code, path⟩, rfl, rfl⟩ := read
    exact ⟨_, [_], _, rfl, rfl, code, rfl, path, rfl, rfl⟩

theorem reads_locationBlock :
    Reads Token.kind (do
        let loc ← parseLocation tables
        pure { fields with locations := fields.locations ++ [loc] })
      fun consumed next _ => ∃ block : LocationBlock, block.path ≠ [] ∧ consumed = block.kinds ∧
        next = { fields with locations := fields.locations ++ [block.meaning] } := by
  refine ((reads_parseLocation tables).bind fun loc => reads_pure _).mono ?_
  intro consumed next rest
  constructor
  · intro read
    obtain ⟨_, _, _, rfl, ⟨block, named, rfl, rfl⟩, rfl, rfl⟩ := read
    exact ⟨block, named, List.append_nil _, rfl⟩
  · intro read
    obtain ⟨block, named, rfl, rfl⟩ := read
    exact ⟨_, _, [], (List.append_nil _).symm, ⟨block, named, rfl, rfl⟩, rfl, rfl⟩

/-- The branch for a name other than that of a location reads the directives of that name. -/
theorem reads_serverNamed {α : Type} {name : String} {branch : ParseResult Fields}
    (make : α → ServerDirective profile tables.toCaseTables) (named : ∀ a, (make a).name = name)
    (other : ∀ a, (make a).location? = none)
    (only : ∀ item : ServerDirective profile tables.toCaseTables,
      item.name = name → ∃ a, item = make a)
    (reads : Reads Token.kind branch fun consumed next _ =>
      ∃ a, consumed = (make a).tail ∧ next = (make a).apply fields) :
    Reads Token.kind branch fun consumed next _ =>
      ∃ item : ServerDirective profile tables.toCaseTables, item.Named ∧
        .word name.toList :: consumed = item.kinds ∧ next = item.apply fields := by
  refine reads.mono ?_
  intro consumed next rest
  constructor
  · intro read
    obtain ⟨a, rfl, rfl⟩ := read
    exact ⟨make a, notLocation profile _ (other a),
      ServerDirective.written_iff.mpr ⟨named a, rfl⟩, rfl⟩
  · intro written
    obtain ⟨item, -, isItem, rfl⟩ := written
    obtain ⟨isNamed, rfl⟩ := ServerDirective.written_iff.mp isItem
    obtain ⟨a, rfl⟩ := only item isNamed
    exact ⟨a, rfl, rfl⟩

end

theorem reads_serverDirective (name : Str) (fields : Fields) :
    Reads Token.kind (serverDirective profile tables name fields) fun consumed next _ =>
      ∃ item : ServerDirective profile tables.toCaseTables, item.Named ∧
        .word name :: consumed = item.kinds ∧ next = item.apply fields := by
  unfold serverDirective
  split_ifs with host port serverName size errorPage location
  · subst host
    refine reads_serverNamed tables profile fields .host (fun _ => rfl) (fun _ => rfl)
      (fun item isNamed => ?_) (reads_value tables fun host => { fields with host := some host })
    cases item <;> simp only [ServerDirective.name, String.reduceEq] at isNamed
    exact ⟨_, rfl⟩
  · subst port
    refine reads_serverNamed tables profile fields .port (fun _ => rfl) (fun _ => rfl)
      (fun item isNamed => ?_) (reads_portDirective tables fields)
    cases item <;> simp only [ServerDirective.name, String.reduceEq] at isNamed
    exact ⟨_, rfl⟩
  · subst serverName
    refine reads_serverNamed tables profile fields .serverName (fun _ => rfl) (fun _ => rfl)
      (fun item isNamed => ?_)
      (reads_value tables fun serverName => { fields with serverName := some serverName })
    cases item <;> simp only [ServerDirective.name, String.reduceEq] at isNamed
    exact ⟨_, rfl⟩
  · subst size
    refine reads_serverNamed tables profile fields .clientMaxBodySize (fun _ => rfl) (fun _ => rfl)
      (fun item isNamed => ?_) (reads_sizeDirective tables profile fields)
    cases item <;> simp only [ServerDirective.name, String.reduceEq] at isNamed
    exact ⟨_, rfl⟩
  · subst errorPage
    refine reads_serverNamed tables profile fields
      (fun page : Number × Str => .errorPage page.1 page.2) (fun _ => rfl) (fun _ => rfl)
      (fun item isNamed => ?_) (reads_errorPageDirective tables fields)
    cases item <;> simp only [ServerDirective.name, String.reduceEq] at isNamed
    exact ⟨(_, _), rfl⟩
  · subst location
    refine (reads_locationBlock tables fields).mono ?_
    intro consumed next rest
    constructor
    · intro read
      obtain ⟨block, named, rfl, rfl⟩ := read
      refine ⟨.location block, ?_, ServerDirective.written_iff.mpr ⟨rfl, rfl⟩, rfl⟩
      intro other isOther
      cases isOther
      exact named
    · intro read
      obtain ⟨item, named, isItem, rfl⟩ := read
      obtain ⟨isNamed, rfl⟩ := ServerDirective.written_iff.mp isItem
      cases item <;> simp only [ServerDirective.name, String.reduceEq] at isNamed
      exact ⟨_, named _ rfl, rfl, rfl⟩
  · refine (reads_rejectHere _).mono ?_
    intro consumed next rest
    rw [false_iff]
    intro written
    obtain ⟨item, -, isItem, -⟩ := written
    have isNamed : name = item.name.toList := by
      rw [ServerDirective.kinds, List.cons.injEq, TokenKind.word.injEq] at isItem
      exact isItem.1
    cases item with
    | host => exact host isNamed
    | port => exact port isNamed
    | serverName => exact serverName isNamed
    | clientMaxBodySize => exact size isNamed
    | errorPage => exact errorPage isNamed
    | location => exact location isNamed

/-- The end of `parse_server`, behind the directives. -/
def parseServerEnd (result : Bool × Fields) : ParseResult ServerConfig :=
  if !result.1 then rejectHere "Unclosed server block — missing '\x7d'".toList
  else
    match result.2.host, result.2.port with
    | none, _ => rejectHere "Server block missing 'host'".toList
    | some _, none => rejectHere "Server block missing 'port'".toList
    | some host, some port => pure ⟨host, port, result.2.serverName,
        result.2.clientMaxBodySize, result.2.errorPages, result.2.locations⟩

theorem reads_parseServer : Reads Token.kind (parseServer profile tables)
    fun consumed server _ => ∃ block : ServerBlock profile tables.toCaseTables, block.Named ∧
      consumed = block.kinds ∧ server = block.meaning := by
  have named : ∀ item : ServerDirective profile tables.toCaseTables,
      ∃ name words, item.kinds = .word name :: words := fun item => ⟨_, _, rfl⟩
  have ends : ∀ result : Bool × Fields, Reads Token.kind (parseServerEnd result)
      fun consumed (server : ServerConfig) _ => result.1 = true ∧ consumed = [] ∧ ∃ host port,
        result.2.host = some host ∧ result.2.port = some port ∧
          server = ⟨host, port, result.2.serverName, result.2.clientMaxBodySize,
            result.2.errorPages, result.2.locations⟩ := by
    intro result
    unfold parseServerEnd
    split_ifs with unclosed
    · refine (reads_rejectHere _).mono ?_
      simp_all
    · cases host : result.2.host with
      | none => exact (reads_rejectHere _).mono (by simp)
      | some name =>
        cases port : result.2.port with
        | none => exact (reads_rejectHere _).mono (by simp)
        | some number => exact (reads_pure _).mono (by simp_all)
  refine ((reads_expect tables .lBrace).bind fun _ =>
    (reads_block tables named (reads_serverDirective tables profile) "server block".toList
      Fields.new).bind ends).mono ?_
  intro consumed server rest
  constructor
  · intro read
    obtain ⟨_, _, _, rfl, rfl, result, _, _, rfl, ⟨items, last, allNamed, rfl, isResult, closed⟩,
      isClosed, rfl, host, port, isHost, isPort, rfl⟩ := read
    rw [isClosed] at closed
    obtain ⟨-, rfl⟩ | ⟨absurdly, -⟩ := closed
    · rw [isResult, foldl_apply_server] at isHost isPort
      let block : ServerBlock profile tables.toCaseTables :=
        ⟨items, host, by simpa [Fields.new] using isHost, port, by simpa [Fields.new] using isPort⟩
      refine ⟨block, allNamed, by simp [ServerBlock.kinds, block], ?_⟩
      rw [isResult, foldl_new_server block]
      rfl
    · cases absurdly
  · intro read
    obtain ⟨block, allNamed, rfl, rfl⟩ := read
    have folded := foldl_new_server block
    refine ⟨(), [_], _, rfl, rfl, (true, block.directives.foldl ServerDirective.apply Fields.new), _,
      [], (List.append_nil _).symm, ⟨block.directives, [.rBrace], allNamed, rfl, rfl, ?_⟩, rfl, rfl,
      block.host, block.port, ?_, ?_, ?_⟩
    · exact Or.inl ⟨rfl, rfl⟩
    · rw [folded]
    · rw [folded]
    · rw [folded]
      rfl

def ConfigEnds (servers : List ServerConfig) (consumed : List TokenKind)
    (result : List ServerConfig) (rest : List TokenKind) : Prop :=
  consumed = [] ∧ result = servers ∧ rest = []

def serverKinds (block : ServerBlock profile tables.toCaseTables) : List TokenKind :=
  .word "server".toList :: block.kinds

def addServer (servers : List ServerConfig) (block : ServerBlock profile tables.toCaseTables) :
    List ServerConfig := servers ++ [block.meaning]

theorem reads_configTurn (servers : List ServerConfig) :
    Reads Token.kind (configTurn profile tables servers)
      (itemTurn ServerBlock.Named (serverKinds tables profile) (addServer tables profile) ConfigEnds
        servers) := by
  intro cursor
  apply readsAt_peek_bind
  cases head : (cursor.kinds Token.kind).head? with
  | none =>
    refine (reads_pure _ cursor).mono ?_
    intro consumed turned rest whole
    rw [List.head?_eq_none_iff] at head
    rw [head, eq_comm, List.append_eq_nil_iff] at whole
    obtain ⟨rfl, rfl⟩ := whole
    cases turned with
    | done result => simp [itemTurn, ConfigEnds]
    | again next => simp [itemTurn, serverKinds]
  | some kind =>
    have named : ∀ word : Str, Reads Token.kind
        (if word = "server".toList then
          parseServer profile tables >>= fun server => pure (.again (servers ++ [server]))
        else rejectHere (quoted "Unknown top-level directive".toList word) : ParseResult (Turn _ _))
        fun consumed (turned : Turn (List ServerConfig) (List ServerConfig)) _ =>
          word = "server".toList ∧
            ∃ block : ServerBlock profile tables.toCaseTables, block.Named ∧
              consumed = block.kinds ∧ turned = .again (servers ++ [block.meaning]) := by
      intro word
      split_ifs with isServer
      · refine ((reads_parseServer tables profile).bind fun server => reads_pure _).mono ?_
        intro consumed turned rest
        constructor
        · intro read
          obtain ⟨_, _, _, rfl, ⟨block, allNamed, rfl, rfl⟩, rfl, rfl⟩ := read
          exact ⟨isServer, block, allNamed, List.append_nil _, rfl⟩
        · intro read
          obtain ⟨-, block, allNamed, rfl, rfl⟩ := read
          exact ⟨_, _, [], (List.append_nil _).symm, ⟨block, allNamed, rfl, rfl⟩, rfl, rfl⟩
      · refine (reads_rejectHere _).mono ?_
        intro consumed turned rest
        rw [false_iff]
        exact fun read => isServer read.1
    refine (((reads_expectWord tables).bind named) cursor).mono ?_
    intro consumed turned rest whole
    constructor
    · intro read
      obtain ⟨_, _, _, rfl, rfl, rfl, block, allNamed, rfl, rfl⟩ := read
      exact ⟨block, allNamed, rfl, rfl⟩
    · intro turns
      cases turned with
      | done result =>
        obtain ⟨rfl, -, rfl⟩ := turns
        rw [whole] at head
        cases head
      | again next =>
        obtain ⟨block, allNamed, rfl, rfl⟩ := turns
        exact ⟨_, [_], _, rfl, rfl, rfl, block, allNamed, rfl, rfl⟩

theorem foldl_addServer (blocks : List (ServerBlock profile tables.toCaseTables))
    (servers : List ServerConfig) :
    blocks.foldl (addServer tables profile) servers = servers ++ blocks.map ServerBlock.meaning := by
  induction blocks generalizing servers with
  | nil => simp
  | cons block blocks ih => rw [List.foldl_cons, ih]; simp [addServer]

/-- The end of `parse_config`, behind the servers. -/
def parseConfigEnd : List ServerConfig → ParseResult Config
  | [] => reject "Config must define at least one server".toList 0
  | first :: rest => pure ⟨first :: rest⟩

theorem reads_parseConfig : Reads Token.kind (parseConfig profile tables)
    fun consumed config rest => ∃ tree : ConfigTree profile tables.toCaseTables, tree.Named ∧
      consumed = tree.kinds ∧ rest = [] ∧ config = tree.meaning := by
  have ends : ∀ servers : List ServerConfig, Reads Token.kind (parseConfigEnd servers)
      fun consumed config _ => servers ≠ [] ∧ consumed = [] ∧ config = ⟨servers⟩ := by
    intro servers
    cases servers with
    | nil => exact (reads_fail _).mono (by simp)
    | cons first rest => exact (reads_pure _).mono (by simp)
  refine ((reads_items exhausted (by simp [serverKinds]) (reads_configTurn tables profile) []).bind
    ends).mono ?_
  intro consumed config rest
  constructor
  · intro read
    obtain ⟨_, _, _, rfl, ⟨blocks, _, allNamed, rfl, rfl, rfl, isEnd⟩, nonempty, rfl, rfl⟩ := read
    rw [foldl_addServer, List.nil_append] at nonempty
    refine ⟨⟨blocks, by simpa using nonempty⟩, allNamed, ?_, by simpa using isEnd, ?_⟩
    · rw [List.append_nil, List.append_nil]
      rfl
    · rw [foldl_addServer]
      rfl
  · intro read
    obtain ⟨tree, allNamed, rfl, rfl, rfl⟩ := read
    refine ⟨_, _, [], (List.append_nil _).symm, ⟨tree.servers, [], allNamed, (List.append_nil _).symm,
      rfl, rfl, rfl⟩, ?_, rfl, ?_⟩
    · rw [foldl_addServer]
      simpa using tree.nonempty
    · rw [foldl_addServer]
      rfl

end

end LocalServer.ConfigAcceptance
