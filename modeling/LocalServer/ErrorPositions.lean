import LocalServer.BodySizes
import LocalServer.ConfigRejection

/-! Which token a rejected text is rejected for, and the line its error names. The grammar is read
from left to right: every place between two tokens takes some tokens and refuses the others. -/

namespace LocalServer.ErrorPositions
open Library Machine Text Parse ConfigParser ConfigGrammar ConfigAcceptance ConfigRejection

structure Seen where
  host : Bool
  port : Bool
  deriving DecidableEq, Repr

inductive Place where
  | top
  | server (seen : Seen)
  | location (seen : Seen)
  | word (next : Place)
  | port (next : Place)
  | code (next : Place)
  | size (next : Place)
  | onOff (next : Place)
  | methods (next : Place)
  | interpreter (next : Place)
  | mark (kind : TokenKind) (next : Place)
  deriving DecidableEq, Repr

/-- What a place makes of a token. A server that lacks a directive is refused as a whole, as is
one whose size makes the parser panic. -/
inductive Verdict where
  | go (next : Place)
  | offends
  | incomplete
  deriving DecidableEq, Repr

def serverPlace (seen : Seen) (directive : Str) : Option Place :=
  if directive = "host".toList then some (.word (.mark .semicolon (.server { seen with host := true })))
  else if directive = "port".toList then some (.port (.mark .semicolon (.server { seen with port := true })))
  else if directive = "server_name".toList then some (.word (.mark .semicolon (.server seen)))
  else if directive = "client_max_body_size".toList then some (.size (.mark .semicolon (.server seen)))
  else if directive = "error_page".toList then some (.code (.word (.mark .semicolon (.server seen))))
  else if directive = "location".toList then some (.word (.mark .lBrace (.location seen)))
  else none

def locationPlace (seen : Seen) (directive : Str) : Option Place :=
  if directive = "root".toList then some (.word (.mark .semicolon (.location seen)))
  else if directive = "index".toList then some (.word (.mark .semicolon (.location seen)))
  else if directive = "methods".toList then some (.methods (.location seen))
  else if directive = "autoindex".toList then some (.onOff (.mark .semicolon (.location seen)))
  else if directive = "redirect".toList then some (.word (.mark .semicolon (.location seen)))
  else if directive = "cgi".toList then some (.word (.interpreter (.location seen)))
  else none

def goIf (fits : Bool) (next : Place) : Verdict := if fits then .go next else .offends

section
variable (profile : Profile) (tables : UnicodeTables)

def sizeVerdict (next : Place) : Checked (Except Str Nat) → Verdict
  | .ok (.ok _) => .go next
  | .ok (.error _) => .offends
  | .error _ => .incomplete

def Place.takesWord : Place → Str → Verdict
  | .top, w => goIf (w = "server".toList) (.mark .lBrace (.server ⟨false, false⟩))
  | .server seen, w => (serverPlace seen w).elim .offends .go
  | .location seen, w => (locationPlace seen w).elim .offends .go
  | .word next, _ => .go next
  | .port next, w => goIf (parseU16 w).isSome next
  | .code next, w => goIf (parseU16 w).isSome next
  | .size next, w => sizeVerdict next (parseBodySize profile tables.toCaseTables w)
  | .onOff next, w => goIf (w = "on".toList || w = "off".toList) next
  | .methods next, w =>
      goIf (w = "GET".toList || w = "POST".toList || w = "DELETE".toList) (.methods next)
  | .interpreter next, _ => .go (.mark .semicolon next)
  | .mark wanted next, w => goIf (.word w = wanted) next

def Place.takesMark : Place → TokenKind → Verdict
  | .server seen, kind =>
      if kind = .rBrace then (if seen.host && seen.port then .go .top else .incomplete) else .offends
  | .location seen, kind => goIf (kind = .rBrace) (.server seen)
  | .methods next, kind => goIf (kind = .semicolon) next
  | .interpreter next, kind => goIf (kind = .semicolon) next
  | .mark wanted next, kind => goIf (kind = wanted) next
  | _, _ => .offends

def Place.takes (place : Place) : TokenKind → Verdict
  | .word w => place.takesWord profile tables w
  | kind => place.takesMark kind

def expected (kind found : TokenKind) : Str :=
  "Expected ".toList ++ kind.debug tables ++ ", got ".toList ++ found.debug tables

def unexpected (found : TokenKind) (block : Str) : Str :=
  "Unexpected token ".toList ++ found.debug tables ++ " in ".toList ++ block

def Place.complaintWord : Place → Str → Str
  | .top, w => quoted "Unknown top-level directive".toList w
  | .server _, w => quoted "Unknown server directive".toList w
  | .location _, w => quoted "Unknown location directive".toList w
  | .port _, w => quoted "Invalid port number".toList w
  | .code _, w => quoted "Invalid error code".toList w
  | .size _, w => "Invalid size: ".toList ++ toLowercase tables.toCaseTables w
  | .onOff _, w => quoted "autoindex must be 'on' or 'off', got".toList w
  | .methods _, w => quoted "Unknown method".toList w
  | .mark wanted _, w => expected tables wanted (.word w)
  | _, _ => []

def Place.complaintMark : Place → TokenKind → Str
  | .server _, kind => unexpected tables kind "server block".toList
  | .location _, kind => unexpected tables kind "location block".toList
  | .methods _, kind => expected tables .semicolon kind
  | .interpreter _, kind => expected tables .semicolon kind
  | .mark wanted _, kind => expected tables wanted kind
  | _, kind => "Expected a value, got ".toList ++ kind.debug tables

def Place.complaint (place : Place) : TokenKind → Str
  | .word w => place.complaintWord tables w
  | kind => place.complaintMark tables kind

def Place.judges : Place → Bool
  | .mark _ _ => false
  | .interpreter _ => false
  | _ => true

def Place.isBlock : Place → Bool
  | .server _ => true
  | .location _ => true
  | _ => false

/-- What the error gives as its line: how many tokens were read where a word is judged, or seen
before the token where a block goes on, and the line of the token elsewhere. -/
def Place.reported (place : Place) (token : Token) (index : Nat) : Nat :=
  if token.kind.isWord then (if place.judges then index + 1 else token.line)
  else if place.isBlock then index else token.line

def report (place : Place) (token : Token) (index : Nat) : ParseError :=
  ⟨place.complaint tables token.kind, place.reported token index⟩

variable (tokens : List Token)

def placeAt : Nat → Option Place
  | 0 => some .top
  | index + 1 =>
    match placeAt index, tokens[index]? with
    | some place, some token =>
      match place.takes profile tables token.kind with
      | .go next => some next
      | _ => none
    | _, _ => none

structure OffendsAt (index : Nat) (place : Place) (token : Token) : Prop where
  reached : placeAt profile tables tokens index = some place
  found : tokens[index]? = some token
  refused : place.takes profile tables token.kind = .offends

/-- What parsing stops at: a token that offends, the end of the text, or a server that is
refused as a whole. -/
inductive Stopped (stop : Stop) : Prop where
  | offended {index : Nat} {place : Place} {token : Token}
      (offends : OffendsAt profile tables tokens index place token)
      (rejected : stop = .rejected (report tables place token index))
  | ended {index : Nat} {place : Place} (reached : placeAt profile tables tokens index = some place)
      (found : tokens[index]? = none)
  | incomplete {index : Nat} {place : Place} {token : Token}
      (reached : placeAt profile tables tokens index = some place)
      (found : tokens[index]? = some token)
      (incomplete : place.takes profile tables token.kind = .incomplete)

structure Ahead (place : Place) (cursor : Cursor Token) : Prop where
  stream : cursor.tokens = tokens
  reached : placeAt profile tables tokens cursor.pos = some place

structure Judging (place : Place) (kind : TokenKind) (cursor : Cursor Token) : Prop where
  stream : cursor.tokens = tokens
  read : ∃ index line, cursor.pos = index + 1 ∧ tokens[index]? = some ⟨kind, line⟩ ∧
    placeAt profile tables tokens index = some place

end

section
variable {profile : Profile} {tables : UnicodeTables} {tokens : List Token}

theorem placeAt_succ {index : Nat} {place next : Place} {token : Token}
    (reached : placeAt profile tables tokens index = some place) (found : tokens[index]? = some token)
    (taken : place.takes profile tables token.kind = .go next) :
    placeAt profile tables tokens (index + 1) = some next := by
  simp only [placeAt, reached, found, taken]

theorem placeAt_none {index later : Nat} (stuck : placeAt profile tables tokens (index + 1) = none)
    (behind : index < later) : placeAt profile tables tokens later = none := by
  induction later with
  | zero => omega
  | succ later ih =>
    by_cases same : index = later
    · rw [← same]
      exact stuck
    · rw [placeAt, ih (by omega)]

theorem OffendsAt.last {index : Nat} {token : Token}
    {place : Place} (offends : OffendsAt profile tables tokens index place token)
    {later : Nat} {other : Place}
    (reached : placeAt profile tables tokens later = some other) : later ≤ index := by
  by_contra behind
  have stuck : placeAt profile tables tokens (index + 1) = none := by
    simp only [placeAt, offends.reached, offends.found, offends.refused]
  rw [placeAt_none stuck (by omega)] at reached
  cases reached

/-! Single tokens -/

variable {place next : Place} {w : Str}

theorem Ahead.skip {cursor : Cursor Token} (ahead : Ahead profile tables tokens place cursor)
    {token : Token} (found : cursor.peek = some token)
    (taken : place.takes profile tables token.kind = .go next) :
    Ahead profile tables tokens next (cursor.skip 1) := by
  rw [Cursor.peek, ahead.stream] at found
  exact ⟨ahead.stream, placeAt_succ ahead.reached found taken⟩

theorem Ahead.ended {cursor : Cursor Token} (ahead : Ahead profile tables tokens place cursor)
    (found : cursor.peek = none) (stop : Stop) : Stopped profile tables tokens stop := by
  rw [Cursor.peek, ahead.stream] at found
  exact .ended ahead.reached found

theorem Ahead.offended {cursor : Cursor Token} (ahead : Ahead profile tables tokens place cursor)
    {token : Token} (found : cursor.peek = some token)
    (refused : place.takes profile tables token.kind = .offends) :
    Stopped profile tables tokens (.rejected (report tables place token cursor.pos)) := by
  rw [Cursor.peek, ahead.stream] at found
  exact .offended ⟨ahead.reached, found, refused⟩ rfl

theorem Judging.taken {kind : TokenKind} {cursor : Cursor Token}
    (judging : Judging profile tables tokens place kind cursor)
    (taken : place.takes profile tables kind = .go next) :
    Ahead profile tables tokens next cursor := by
  obtain ⟨index, line, pos, found, reached⟩ := judging.read
  refine ⟨judging.stream, ?_⟩
  rw [pos]
  exact placeAt_succ reached found taken

theorem Judging.incomplete {kind : TokenKind} {cursor : Cursor Token}
    (judging : Judging profile tables tokens place kind cursor)
    (incomplete : place.takes profile tables kind = .incomplete) (stop : Stop) :
    Stopped profile tables tokens stop := by
  obtain ⟨index, line, pos, found, reached⟩ := judging.read
  exact .incomplete reached found incomplete

/-- A word that is refused is refused with the number of tokens read. -/
theorem triple_refused {α : Type} {after : α → Cursor Token → Prop}
    (refused : place.takes profile tables (.word w) = .offends) (judges : place.judges = true) :
    Triple (Judging profile tables tokens place (.word w))
      (rejectHere (place.complaint tables (.word w)) : ParseResult α) after
      (Stopped profile tables tokens) := by
  constructor
  intro cursor judging
  obtain ⟨index, line, pos, found, reached⟩ := judging.read
  apply Stopped.offended ⟨reached, found, refused⟩
  simp [pos, report, Place.reported, TokenKind.isWord, judges]

def AsksWord (profile : Profile) (tables : UnicodeTables) (place : Place) : Prop :=
  ∀ kind : TokenKind, kind.isWord = false → place.takes profile tables kind = .offends ∧
    ∀ line index, report tables place ⟨kind, line⟩ index =
      ⟨"Expected a value, got ".toList ++ kind.debug tables, line⟩

theorem asksWord (refuses : ∀ kind, place.takesMark kind = .offends)
    (complaint : ∀ kind, place.complaintMark tables kind =
      "Expected a value, got ".toList ++ kind.debug tables) (inline : place.isBlock = false) :
    AsksWord profile tables place := by
  intro kind isMark
  cases kind with
  | word w => cases isMark
  | _ => simp [Place.takes, refuses, report, Place.complaint, complaint, Place.reported,
      TokenKind.isWord, inline]

theorem triple_expectWord (asks : AsksWord profile tables place) :
    Triple (Ahead profile tables tokens place) (expectWord tables)
      (fun w => Judging profile tables tokens place (.word w)) (Stopped profile tables tokens) := by
  constructor
  intro cursor ahead
  unfold expectWord
  rw [bind_apply]
  cases found : cursor.peek with
  | none =>
    simp only [next, found]
    exact ahead.ended found _
  | some token =>
    obtain ⟨kind, line⟩ := token
    have mark (isMark : kind.isWord = false) := ahead.offended found (asks kind isMark).1
    cases kind with
    | word w =>
      simp only [next, found]
      rw [Cursor.peek, ahead.stream] at found
      exact ⟨ahead.stream, cursor.pos, line, rfl, found, ahead.reached⟩
    | _ =>
      simp only [next, found]
      rw [(asks _ rfl).2] at mark
      exact mark rfl

theorem triple_expect {wanted : TokenKind} {possible : TokenKind → Prop}
    (taken : place.takes profile tables wanted = .go next)
    (others : ∀ kind, possible kind → kind ≠ wanted → place.takes profile tables kind = .offends ∧
      ∀ line index, report tables place ⟨kind, line⟩ index = ⟨expected tables wanted kind, line⟩) :
    Triple (fun cursor => Ahead profile tables tokens place cursor ∧
        ∀ token ∈ cursor.peek, possible token.kind)
      (expect tables wanted) (fun _ => Ahead profile tables tokens next)
      (Stopped profile tables tokens) := by
  constructor
  rintro cursor ⟨ahead, isPossible⟩
  unfold expect
  rw [bind_apply]
  cases found : cursor.peek with
  | none =>
    simp only [Parse.next, found]
    exact ahead.ended found _
  | some token =>
    obtain ⟨kind, line⟩ := token
    simp only [Parse.next, found]
    by_cases same : kind = wanted
    · rw [if_pos same]
      exact ahead.skip found (by rw [same]; exact taken)
    · rw [if_neg same]
      obtain ⟨refused, reported⟩ := others kind (isPossible _ found) same
      have stopped := ahead.offended found refused
      rw [reported] at stopped
      exact stopped

theorem takes_mark (wanted kind : TokenKind) :
    (Place.mark wanted next).takes profile tables kind = goIf (kind = wanted) next := by
  cases kind <;> rfl

theorem triple_expectMark (wanted : TokenKind) :
    Triple (Ahead profile tables tokens (.mark wanted next)) (expect tables wanted)
      (fun _ => Ahead profile tables tokens next) (Stopped profile tables tokens) := by
  have taken : (Place.mark wanted next).takes profile tables wanted = .go next := by
    rw [takes_mark, goIf, if_pos (decide_eq_true rfl)]
  have others (kind : TokenKind) (_ : True) (different : kind ≠ wanted) :
      (Place.mark wanted next).takes profile tables kind = .offends ∧
        ∀ line index, report tables (.mark wanted next) ⟨kind, line⟩ index =
          ⟨expected tables wanted kind, line⟩ := by
    rw [takes_mark, goIf, if_neg fun same => different (of_decide_eq_true same)]
    exact ⟨rfl, fun _ _ => by cases kind <;> rfl⟩
  exact (triple_expect taken others).of_imp fun cursor ahead => ⟨ahead, fun _ _ => trivial⟩

theorem triple_expectValue :
    Triple (Ahead profile tables tokens (.word (.mark .semicolon next))) (expectValue tables)
      (fun _ => Ahead profile tables tokens next) (Stopped profile tables tokens) := by
  refine (triple_expectWord (asksWord (fun _ => rfl) (fun _ => rfl) rfl)).bind fun w => ?_
  refine Triple.bind ((triple_expectMark .semicolon).of_imp fun _ judging => judging.taken rfl) fun _ => ?_
  exact triple_pure fun _ ahead => ahead

theorem triple_seenWord {seen : Str} {stops : Stop → Prop} :
    Triple (fun cursor => Ahead profile tables tokens place cursor ∧
        cursor.peek.map Token.kind = some (.word seen))
      (expectWord tables) (fun w => Judging profile tables tokens place (.word w)) stops := by
  constructor
  rintro cursor ⟨ahead, isWord⟩
  obtain ⟨⟨kind, line⟩, found, isKind⟩ := Option.map_eq_some_iff.mp isWord
  cases isKind
  unfold expectWord
  rw [bind_apply]
  simp only [Parse.next, found]
  rw [Cursor.peek, ahead.stream] at found
  exact ⟨ahead.stream, cursor.pos, line, rfl, found, ahead.reached⟩

/-! Values that are judged -/

theorem triple_semicolon {α : Type} {a : α} {after : α → Cursor Token → Prop}
    (holds : ∀ cursor, Ahead profile tables tokens next cursor → after a cursor) :
    Triple (Ahead profile tables tokens (.mark .semicolon next))
      (expect tables .semicolon >>= fun _ => pure a) after (Stopped profile tables tokens) :=
  (triple_expectMark .semicolon).bind fun _ => triple_pure holds

theorem not_word_of_peek {found : Option TokenKind} (notWord : ∀ w, found = some (.word w) → False)
    {cursor : Cursor Token} (seen : cursor.peek.map Token.kind = found) :
    ∀ token ∈ cursor.peek, token.kind.isWord = false := by
  intro token isNext
  rw [Option.mem_def.mp isNext, Option.map_some] at seen
  cases isKind : token.kind with
  | word w =>
    rw [isKind] at seen
    exact absurd seen.symm (notWord w)
  | _ => rfl

theorem triple_methodTurn (methods : List Config.Method) :
    Triple (Ahead profile tables tokens (.methods next)) (methodTurn tables methods)
      (afterTurn (fun _ => Ahead profile tables tokens (.methods next)) fun _ cursor =>
        Ahead profile tables tokens (.methods next) cursor ∧
          ∀ token ∈ cursor.peek, token.kind.isWord = false)
      (Stopped profile tables tokens) := by
  apply triple_peek_bind
  intro found
  split
  · refine triple_seenWord.bind fun m => ?_
    have refused (get : m ≠ "GET".toList) (post : m ≠ "POST".toList) (delete : m ≠ "DELETE".toList) :
        (Place.methods next).takes profile tables (.word m) = .offends := by
      apply if_neg
      simp only [Bool.or_eq_true, decide_eq_true_eq, not_or]
      exact ⟨⟨get, post⟩, delete⟩
    have taken (isMethod : m = "GET".toList ∨ m = "POST".toList ∨ m = "DELETE".toList) :
        (Place.methods next).takes profile tables (.word m) = .go (.methods next) := by
      apply if_pos
      rcases isMethod with rfl | rfl | rfl <;> rfl
    have judged : Triple (Judging profile tables tokens (.methods next) (.word m)) (methodNamed m)
        (fun _ => Ahead profile tables tokens (.methods next)) (Stopped profile tables tokens) := by
      unfold methodNamed
      split_ifs with get post delete
      · exact triple_pure fun _ judging => judging.taken (taken (Or.inl get))
      · exact triple_pure fun _ judging => judging.taken (taken (Or.inr (Or.inl post)))
      · exact triple_pure fun _ judging => judging.taken (taken (Or.inr (Or.inr delete)))
      · exact triple_refused (refused get post delete) rfl
    exact judged.bind fun _ => triple_pure fun _ ahead => ahead
  · next notWord =>
    apply triple_pure
    rintro cursor ⟨ahead, seen⟩
    exact ⟨ahead, not_word_of_peek notWord seen⟩

theorem triple_semicolonHere {α : Type} {a : α} (takes : place.takesMark .semicolon = .go next)
    (others : ∀ kind : TokenKind, kind.isWord = false → kind ≠ .semicolon →
      place.takesMark kind = .offends ∧
        place.complaintMark tables kind = expected tables .semicolon kind)
    (inline : place.isBlock = false) :
    Triple (fun cursor => Ahead profile tables tokens place cursor ∧
        ∀ token ∈ cursor.peek, token.kind.isWord = false)
      (expect tables .semicolon >>= fun _ => pure a) (fun _ => Ahead profile tables tokens next)
      (Stopped profile tables tokens) := by
  have refused (kind : TokenKind) (isMark : kind.isWord = false) (different : kind ≠ .semicolon) :
      place.takes profile tables kind = .offends ∧ ∀ line index,
        report tables place ⟨kind, line⟩ index = ⟨expected tables .semicolon kind, line⟩ := by
    obtain ⟨refused, complaint⟩ := others kind isMark different
    cases kind with
    | word w => cases isMark
    | _ => simp [Place.takes, refused, report, Place.complaint, complaint, Place.reported,
        TokenKind.isWord, inline]
  have mark : Triple (fun cursor => Ahead profile tables tokens place cursor ∧
        ∀ token ∈ cursor.peek, token.kind.isWord = false)
      (expect tables .semicolon) (fun _ => Ahead profile tables tokens next)
      (Stopped profile tables tokens) :=
    triple_expect (show place.takes profile tables .semicolon = .go next from takes) refused
  exact mark.bind fun _ => triple_pure fun _ ahead => ahead

theorem triple_methods {α : Type} (result : List Config.Method → α) (methods : List Config.Method) :
    Triple (Ahead profile tables tokens (.methods next))
      (loop exhausted (methodTurn tables) methods >>= fun methods =>
        expect tables .semicolon >>= fun _ => pure (result methods))
      (fun _ => Ahead profile tables tokens next) (Stopped profile tables tokens) := by
  have moves : ∀ {state next : List Config.Method} {consumed rest : List TokenKind},
      itemTurn (fun _ => True) methodKinds (fun methods method => methods ++ [method]) MethodsEnd
        state consumed (.again next) rest → consumed ≠ [] := itemTurn_moves (by simp [methodKinds])
  refine (triple_loop exhausted moves (reads_methodTurn tables) triple_methodTurn methods).bind
    fun methods => triple_semicolonHere rfl ?_ rfl
  intro kind isMark different
  cases kind with
  | word w => cases isMark
  | semicolon => exact absurd rfl different
  | _ => exact ⟨rfl, rfl⟩

theorem triple_autoindexValue (val : Str) :
    Triple (Judging profile tables tokens (.onOff next) (.word val)) (autoindexValue val)
      (fun _ => Ahead profile tables tokens next) (Stopped profile tables tokens) := by
  unfold autoindexValue
  split_ifs with on off
  · exact triple_pure fun _ judging => judging.taken (if_pos (by simp [on]))
  · exact triple_pure fun _ judging => judging.taken (if_pos (by simp [off]))
  · refine triple_refused (if_neg ?_) rfl
    simp only [Bool.or_eq_true, decide_eq_true_eq, not_or]
    exact ⟨on, off⟩

theorem triple_number {α : Type} {later : Nat → ParseResult α} {after : α → Cursor Token → Prop}
    (raw : Str) {message : Str}
    (takes : place.takesWord profile tables raw = goIf (parseU16 raw).isSome next)
    (complains : place.complaintWord tables raw = message) (judges : place.judges = true)
    (rest : ∀ value, Triple (Ahead profile tables tokens next) (later value) after
      (Stopped profile tables tokens)) :
    Triple (Judging profile tables tokens place (.word raw))
      (match parseU16 raw with
      | none => rejectHere message
      | some value => later value)
      after (Stopped profile tables tokens) := by
  have takes : place.takes profile tables (.word raw) = goIf (parseU16 raw).isSome next := takes
  cases found : parseU16 raw with
  | none =>
    rw [found] at takes
    rw [← complains]
    exact triple_refused takes judges
  | some value =>
    rw [found] at takes
    exact (rest value).of_imp fun _ judging => judging.taken takes

theorem triple_size {α : Type} {later : Nat → ParseResult α} {after : α → Cursor Token → Prop}
    (raw : Str)
    (rest : ∀ bytes, Triple (Ahead profile tables tokens next) (later bytes) after
      (Stopped profile tables tokens)) :
    Triple (Judging profile tables tokens (.size next) (.word raw))
      (match parseBodySize profile tables.toCaseTables raw with
      | .error panic => fail (.panicked panic)
      | .ok (.error message) => rejectHere message
      | .ok (.ok bytes) => later bytes)
      after (Stopped profile tables tokens) := by
  have takes : (Place.size next).takes profile tables (.word raw) =
    sizeVerdict next (parseBodySize profile tables.toCaseTables raw) := rfl
  cases found : parseBodySize profile tables.toCaseTables raw with
  | error panic =>
    rw [found] at takes
    exact ⟨fun _ judging => judging.incomplete takes _⟩
  | ok result =>
    rw [found] at takes
    cases result with
    | error message =>
      rw [BodySizes.message_of_refused found]
      exact triple_refused takes rfl
    | ok bytes => exact (rest bytes).of_imp fun _ judging => judging.taken takes

theorem triple_interpreter {α : Type} (result : Str → α) (ext : Str) :
    Triple (Ahead profile tables tokens (.interpreter next))
      (interpreter tables ext >>= fun chosen =>
        expect tables .semicolon >>= fun _ => pure (result chosen))
      (fun _ => Ahead profile tables tokens next) (Stopped profile tables tokens) := by
  have here {chosen : Str} : Triple (fun cursor => Ahead profile tables tokens (.interpreter next) cursor ∧
        ∀ token ∈ cursor.peek, token.kind.isWord = false)
      (expect tables .semicolon >>= fun _ => pure (result chosen))
      (fun _ => Ahead profile tables tokens next) (Stopped profile tables tokens) := by
    refine triple_semicolonHere rfl ?_ rfl
    intro kind isMark different
    cases kind with
    | word w => cases isMark
    | semicolon => exact absurd rfl different
    | _ => exact ⟨rfl, rfl⟩
  have chosen : Triple (Ahead profile tables tokens (.interpreter next)) (interpreter tables ext)
      (fun _ cursor => Ahead profile tables tokens (.mark .semicolon next) cursor ∨
        Ahead profile tables tokens (.interpreter next) cursor ∧
          ∀ token ∈ cursor.peek, token.kind.isWord = false) (Stopped profile tables tokens) := by
    apply triple_peek_bind
    intro found
    split
    · exact triple_seenWord.imp fun w cursor judging => Or.inl (judging.taken rfl)
    · next notWord =>
      apply triple_pure
      rintro cursor ⟨ahead, seen⟩
      exact Or.inr ⟨ahead, not_word_of_peek notWord seen⟩
  refine chosen.bind fun _ => Triple.or (triple_semicolon ?_) here
  exact fun _ ahead => ahead

/-! Blocks -/

def AfterBlock (profile : Profile) (tables : UnicodeTables) (tokens : List Token) {σ : Type}
    (block : σ → Place) (result : Bool × σ) (cursor : Cursor Token) : Prop :=
  (result.1 = true → Judging profile tables tokens (block result.2) .rBrace cursor) ∧
    (result.1 = false → Ahead profile tables tokens (block result.2) cursor ∧ cursor.peek = none)

theorem triple_blockTurn {σ : Type} {block : σ → Place} {parseDirective : Str → σ → ParseResult σ}
    {name : Str}
    (directive : ∀ w state, Triple (Judging profile tables tokens (block state) (.word w))
      (parseDirective w state) (fun next => Ahead profile tables tokens (block next))
      (Stopped profile tables tokens))
    (isBlock : ∀ state, (block state).isBlock = true)
    (refuses : ∀ state kind, kind = .lBrace ∨ kind = .semicolon →
      (block state).takesMark kind = .offends ∧
        (block state).complaintMark tables kind = unexpected tables kind name) (state : σ) :
    Triple (Ahead profile tables tokens (block state)) (blockTurn tables parseDirective name state)
      (afterTurn (fun state => Ahead profile tables tokens (block state))
        (AfterBlock profile tables tokens block)) (Stopped profile tables tokens) := by
  apply triple_peek_bind
  intro found
  split
  · apply triple_pure
    rintro cursor ⟨ahead, ended⟩
    refine ⟨?_, fun _ => ⟨ahead, Option.map_eq_none_iff.mp ended⟩⟩
    intro closed
    cases closed
  · constructor
    rintro cursor ⟨ahead, isBrace⟩
    obtain ⟨⟨kind, line⟩, seen, isKind⟩ := Option.map_eq_some_iff.mp isBrace
    cases isKind
    rw [Cursor.peek, ahead.stream] at seen
    exact ⟨fun _ => ⟨ahead.stream, cursor.pos, line, rfl, seen, ahead.reached⟩,
      fun unclosed => by cases unclosed⟩
  · refine triple_seenWord.bind fun w => (directive w state).bind fun next => ?_
    exact triple_pure fun _ ahead => ahead
  · next notBrace notWord =>
    constructor
    rintro cursor ⟨ahead, isKind⟩
    obtain ⟨⟨mark, line⟩, seen, rfl⟩ := Option.map_eq_some_iff.mp isKind
    have isMark : mark = .lBrace ∨ mark = .semicolon := by
      cases mark with
      | word w => exact absurd rfl (notWord w)
      | rBrace => exact absurd rfl notBrace
      | lBrace => exact Or.inl rfl
      | semicolon => exact Or.inr rfl
    obtain ⟨refused, complaint⟩ := refuses state mark isMark
    have takes : (block state).takes profile tables mark = .offends := by
      rcases isMark with rfl | rfl <;> exact refused
    have reported : report tables (block state) ⟨mark, line⟩ cursor.pos =
        ⟨unexpected tables mark name, cursor.pos⟩ := by
      rcases isMark with rfl | rfl <;>
        simp [report, Place.complaint, complaint, Place.reported, TokenKind.isWord, isBlock]
    have stopped := ahead.offended seen takes
    rw [reported] at stopped
    exact stopped

theorem triple_locationDirective (seen : Seen) (name : Str) (loc : Location) :
    Triple (Judging profile tables tokens (.location seen) (.word name))
      (locationDirective tables name loc) (fun _ => Ahead profile tables tokens (.location seen))
      (Stopped profile tables tokens) := by
  have taken {next : Place} (found : locationPlace seen name = some next) :
      (Place.location seen).takes profile tables (.word name) = .go next := by
    rw [Place.takes, Place.takesWord, found, Option.elim_some]
  have value (found : locationPlace seen name = some (.word (.mark .semicolon (.location seen))))
      (result : Str → Location) : Triple (Judging profile tables tokens (.location seen) (.word name))
        (expectValue tables >>= fun value => pure (result value))
        (fun _ => Ahead profile tables tokens (.location seen)) (Stopped profile tables tokens) := by
    refine Triple.bind (triple_expectValue.of_imp fun _ judging => judging.taken (taken found)) fun _ => ?_
    exact triple_pure fun _ ahead => ahead
  generalize isPlace : locationPlace seen name = found at taken value
  unfold locationPlace at isPlace
  unfold locationDirective
  split_ifs at isPlace ⊢ with root index methods autoindex redirect cgi <;> subst isPlace
  · exact value rfl _
  · exact value rfl _
  · exact (triple_methods _ _).of_imp fun _ judging => judging.taken (taken rfl)
  · have asks : AsksWord profile tables (.onOff (.mark .semicolon (.location seen))) :=
      asksWord (fun _ => rfl) (fun _ => rfl) rfl
    refine Triple.bind ((triple_expectWord asks).of_imp fun _ judging => judging.taken (taken rfl))
      fun val => ?_
    refine (triple_autoindexValue val).bind fun _ => triple_semicolon ?_
    exact fun _ ahead => ahead
  · exact value rfl _
  · have asks : AsksWord profile tables (.word (.interpreter (.location seen))) :=
      asksWord (fun _ => rfl) (fun _ => rfl) rfl
    refine Triple.bind ((triple_expectWord asks).of_imp fun _ judging => judging.taken (taken rfl))
      fun ext => ?_
    exact (triple_interpreter _ ext).of_imp fun _ judging => judging.taken rfl
  · refine triple_refused ?_ rfl
    rw [Place.takes, Place.takesWord, locationPlace, if_neg root, if_neg index, if_neg methods,
      if_neg autoindex, if_neg redirect, if_neg cgi]
    rfl

theorem refuses_location (seen : Seen) (kind : TokenKind) (isMark : kind = .lBrace ∨ kind = .semicolon) :
    (Place.location seen).takesMark kind = .offends ∧
      (Place.location seen).complaintMark tables kind =
        unexpected tables kind "location block".toList := by
  rcases isMark with rfl | rfl <;> exact ⟨rfl, rfl⟩

theorem refuses_server (seen : Seen) (kind : TokenKind) (isMark : kind = .lBrace ∨ kind = .semicolon) :
    (Place.server seen).takesMark kind = .offends ∧
      (Place.server seen).complaintMark tables kind =
        unexpected tables kind "server block".toList := by
  rcases isMark with rfl | rfl <;> exact ⟨rfl, rfl⟩

theorem triple_unclosed {σ α : Type} {block : σ → Place} {state : σ} {message : Str}
    {after : α → Cursor Token → Prop} :
    Triple (AfterBlock profile tables tokens block (false, state)) (rejectHere message : ParseResult α)
      after (Stopped profile tables tokens) := by
  constructor
  intro cursor ended
  obtain ⟨ahead, last⟩ := ended.2 rfl
  exact ahead.ended last _

section
variable (words : ∀ token ∈ tokens, token.kind ≠ .word [])
include words

theorem Judging.nonempty {cursor : Cursor Token}
    (judging : Judging profile tables tokens place (.word w) cursor) : w ≠ [] := by
  rintro rfl
  obtain ⟨index, line, -, found, -⟩ := judging.read
  exact words _ (List.mem_of_getElem? found) rfl

theorem triple_parseLocation (seen : Seen) :
    Triple (Ahead profile tables tokens (.word (.mark .lBrace (.location seen)))) (parseLocation tables)
      (fun _ => Ahead profile tables tokens (.server seen)) (Stopped profile tables tokens) := by
  have named : ∀ item : LocationDirective, ∃ name words, item.kinds = .word name :: words :=
    fun item => ⟨_, _, rfl⟩
  have nonempty : ∀ item : LocationDirective, item.kinds ≠ [] := by
    intro item
    simp [LocationDirective.kinds]
  refine (triple_expectWord (asksWord (fun _ => rfl) (fun _ => rfl) rfl)).bind fun path => ?_
  have block : Triple (Ahead profile tables tokens (.location seen))
      (loop exhausted (locationTurn tables) (newLocation path))
      (AfterBlock profile tables tokens fun _ => .location seen) (Stopped profile tables tokens) :=
    triple_loop exhausted (itemTurn_moves nonempty)
      (reads_blockTurn tables named (reads_locationDirective tables) _)
      (triple_blockTurn (triple_locationDirective seen) (fun _ => rfl)
        (fun _ => refuses_location seen)) _
  have rest (given : path ≠ []) : Triple (Ahead profile tables tokens (.mark .lBrace (.location seen)))
      (expect tables .lBrace >>= fun _ => loop exhausted (locationTurn tables) (newLocation path) >>=
        fun result =>
          if !result.1 then
            rejectHere (quoted "Unclosed location block".toList path ++ " — missing '\x7d'".toList)
          else if path = [] then rejectHere "Location path cannot be empty".toList
          else pure result.2)
      (fun _ => Ahead profile tables tokens (.server seen)) (Stopped profile tables tokens) := by
    refine (triple_expectMark .lBrace).bind fun _ => block.bind fun result => ?_
    obtain ⟨closed, loc⟩ := result
    cases closed with
    | false => exact triple_unclosed
    | true =>
      rw [if_neg (by simp), if_neg given]
      exact triple_pure fun _ ended => (ended.1 rfl).taken rfl
  constructor
  intro cursor judging
  exact (rest (judging.nonempty words)).ends cursor (judging.taken rfl)

def seenIn (fields : Fields) : Seen := ⟨fields.host.isSome, fields.port.isSome⟩

theorem triple_serverDirective (name : Str) (fields : Fields) :
    Triple (Judging profile tables tokens (.server (seenIn fields)) (.word name))
      (serverDirective profile tables name fields)
      (fun next => Ahead profile tables tokens (.server (seenIn next)))
      (Stopped profile tables tokens) := by
  have taken {next : Place} (found : serverPlace (seenIn fields) name = some next) :
      (Place.server (seenIn fields)).takes profile tables (.word name) = .go next := by
    rw [Place.takes, Place.takesWord, found, Option.elim_some]
  have value {seen : Seen} (found : serverPlace (seenIn fields) name =
      some (.word (.mark .semicolon (.server seen)))) (result : Str → Fields)
      (same : ∀ value, seenIn (result value) = seen) :
      Triple (Judging profile tables tokens (.server (seenIn fields)) (.word name))
        (expectValue tables >>= fun value => pure (result value))
        (fun next => Ahead profile tables tokens (.server (seenIn next)))
        (Stopped profile tables tokens) := by
    refine Triple.bind (triple_expectValue.of_imp fun _ judging => judging.taken (taken found))
      fun w => ?_
    apply triple_pure
    intro cursor ahead
    rwa [same w]
  have word {place : Place} (found : serverPlace (seenIn fields) name = some place)
      (asks : AsksWord profile tables place) :
      Triple (Judging profile tables tokens (.server (seenIn fields)) (.word name)) (expectWord tables)
        (fun w => Judging profile tables tokens place (.word w)) (Stopped profile tables tokens) :=
    (triple_expectWord asks).of_imp fun _ judging => judging.taken (taken found)
  generalize isPlace : serverPlace (seenIn fields) name = found at taken value word
  unfold serverPlace at isPlace
  unfold serverDirective
  split_ifs at isPlace ⊢ with host port serverName size errorPage location <;> subst isPlace
  · exact value rfl _ fun _ => rfl
  · refine (word rfl (asksWord (fun _ => rfl) (fun _ => rfl) rfl)).bind fun raw => ?_
    exact triple_number raw rfl rfl rfl fun port => triple_semicolon fun _ ahead => ahead
  · exact value rfl _ fun _ => rfl
  · refine (word rfl (asksWord (fun _ => rfl) (fun _ => rfl) rfl)).bind fun raw => ?_
    exact triple_size raw fun bytes => triple_semicolon fun _ ahead => ahead
  · refine (word rfl (asksWord (fun _ => rfl) (fun _ => rfl) rfl)).bind fun codeStr => ?_
    refine triple_number codeStr rfl rfl rfl fun code => ?_
    exact triple_expectValue.bind fun path => triple_pure fun _ ahead => ahead
  · refine Triple.of_imp ?_ fun _ judging => judging.taken (taken rfl)
    exact (triple_parseLocation words _).bind fun loc => triple_pure fun _ ahead => ahead
  · refine triple_refused ?_ rfl
    rw [Place.takes, Place.takesWord, serverPlace, if_neg host, if_neg port, if_neg serverName,
      if_neg size, if_neg errorPage, if_neg location]
    rfl

theorem triple_parseServer :
    Triple (Ahead profile tables tokens (.mark .lBrace (.server ⟨false, false⟩)))
      (parseServer profile tables) (fun _ => Ahead profile tables tokens .top)
      (Stopped profile tables tokens) := by
  have named : ∀ item : ServerDirective profile tables.toCaseTables,
      ∃ name words, item.kinds = .word name :: words := fun item => ⟨_, _, rfl⟩
  have nonempty : ∀ item : ServerDirective profile tables.toCaseTables, item.kinds ≠ [] := by
    intro item
    simp [ServerDirective.kinds]
  have block : Triple (Ahead profile tables tokens (.server ⟨false, false⟩))
      (loop exhausted (serverTurn profile tables) Fields.new)
      (AfterBlock profile tables tokens fun fields => .server (seenIn fields))
      (Stopped profile tables tokens) :=
    triple_loop exhausted (itemTurn_moves nonempty)
      (reads_blockTurn tables named (reads_serverDirective tables profile) _)
      (triple_blockTurn (triple_serverDirective words) (fun _ => rfl)
        (fun _ => refuses_server _)) Fields.new
  refine (triple_expectMark .lBrace).bind fun _ => block.bind fun result => ?_
  obtain ⟨closed, fields⟩ := result
  cases closed with
  | false => exact triple_unclosed
  | true =>
    have judged : (Place.server (seenIn fields)).takes profile tables .rBrace =
      if fields.host.isSome && fields.port.isSome then .go .top else .incomplete := rfl
    dsimp only
    rw [if_neg (by simp)]
    constructor
    intro cursor ended
    have judging := ended.1 rfl
    cases host : fields.host with
    | none =>
      rw [host, Option.isSome_none, Bool.false_and] at judged
      exact judging.incomplete judged _
    | some name =>
      cases port : fields.port with
      | none =>
        rw [port, Option.isSome_none, Bool.and_false] at judged
        exact judging.incomplete judged _
      | some number =>
        rw [host, port] at judged
        exact judging.taken judged

theorem triple_configTurn (servers : List ServerConfig) :
    Triple (Ahead profile tables tokens .top) (configTurn profile tables servers)
      (afterTurn (fun _ => Ahead profile tables tokens .top) fun _ cursor =>
        Ahead profile tables tokens .top cursor ∧ cursor.peek = none)
      (Stopped profile tables tokens) := by
  apply triple_peek_bind
  intro found
  split
  · apply triple_pure
    rintro cursor ⟨ahead, ended⟩
    exact ⟨ahead, Option.map_eq_none_iff.mp ended⟩
  · have asks : AsksWord profile tables .top := asksWord (fun _ => rfl) (fun _ => rfl) rfl
    refine Triple.bind ((triple_expectWord asks).of_imp fun _ both => both.1) fun w => ?_
    split_ifs with server
    · refine Triple.of_imp ?_ fun _ judging => judging.taken (if_pos (decide_eq_true server))
      exact (triple_parseServer words).bind fun _ => triple_pure fun _ ahead => ahead
    · have different : ¬decide (w = "server".toList) = true := by
        rw [decide_eq_true_eq]
        exact server
      exact triple_refused (if_neg different) rfl

theorem triple_parseConfig :
    Triple (Ahead profile tables tokens .top) (parseConfig profile tables)
      (fun _ cursor => Ahead profile tables tokens .top cursor ∧ cursor.peek = none)
      (Stopped profile tables tokens) := by
  have nonempty : ∀ block : ServerBlock profile tables.toCaseTables,
      serverKinds tables profile block ≠ [] := by
    intro block
    simp [serverKinds]
  have servers := triple_loop exhausted (itemTurn_moves nonempty) (reads_configTurn tables profile)
    (triple_configTurn words) []
  refine servers.bind fun servers => ?_
  constructor
  rintro cursor ⟨ahead, ended⟩
  cases servers with
  | nil => exact ahead.ended ended _
  | cons first rest => exact ⟨ahead, ended⟩

/-- Parsing ends behind the last token, or is stopped by what the text holds. -/
theorem run_cases :
    (∃ config index, run (parseConfig profile tables) tokens = .ok config ∧
        placeAt profile tables tokens index = some .top ∧ tokens[index]? = none) ∨
      ∃ stop, run (parseConfig profile tables) tokens = .error stop ∧
        Stopped profile tables tokens stop := by
  have start : Ahead profile tables tokens .top ⟨tokens, 0⟩ := ⟨rfl, rfl⟩
  have ended := (triple_parseConfig words).ends _ start
  unfold run
  cases ran : parseConfig profile tables ⟨tokens, 0⟩ with
  | ok result =>
    rw [ran] at ended
    obtain ⟨ahead, last⟩ := ended
    rw [Cursor.peek, ahead.stream] at last
    exact Or.inl ⟨_, _, rfl, ahead.reached, last⟩
  | error stop =>
    rw [ran] at ended
    exact Or.inr ⟨stop, rfl, ended⟩

theorem run_offends {index : Nat} {token : Token}
    (offends : OffendsAt profile tables tokens index place token) :
    run (parseConfig profile tables) tokens =
      .error (.rejected (report tables place token index)) := by
  have inside : index < tokens.length := (List.getElem?_eq_some_iff.mp offends.found).1
  have atEnd {later : Nat} {other : Place} (reached : placeAt profile tables tokens later = some other)
      (found : tokens[later]? = none) : False := by
    have before := offends.last reached
    have length := List.getElem?_eq_none_iff.mp found
    omega
  rcases run_cases words with ⟨config, later, -, reached, found⟩ | ⟨stop, failed, stopped⟩
  · exact (atEnd reached found).elim
  · rw [failed]
    cases stopped with
    | ended reached found => exact (atEnd reached found).elim
    | @offended other place' token' otherOffends rejected =>
      have same : other = index :=
        le_antisymm (offends.last otherOffends.reached) (otherOffends.last offends.reached)
      subst same
      cases offends.reached.symm.trans otherOffends.reached
      cases offends.found.symm.trans otherOffends.found
      rw [rejected]
    | @incomplete other place' token' reached found incomplete =>
      have stuck : placeAt profile tables tokens (other + 1) = none := by
        simp only [placeAt, reached, found, incomplete]
      have same : other = index := by
        apply le_antisymm (offends.last reached)
        by_contra behind
        have missing := placeAt_none stuck (show other < index by omega)
        rw [offends.reached] at missing
        cases missing
      subst same
      cases offends.reached.symm.trans reached
      cases offends.found.symm.trans found
      cases offends.refused.symm.trans incomplete

end

end

def WellPlaced (place : Place) (token : Token) (index : Nat) : Prop :=
  (token.kind.isWord = true → place.judges = true → token.line = index + 1) ∧
    (token.kind.isWord = false → place.isBlock = true → token.line = index)

theorem reported_eq_line (place : Place) (token : Token) (index : Nat) :
    place.reported token index = token.line ↔ WellPlaced place token index := by
  unfold Place.reported WellPlaced
  split_ifs with isWord judges isBlock <;> grind

theorem nonempty_words (input : Str) (token : Token) (member : token ∈ Tokenizer.tokenize input) :
    token.kind ≠ .word [] :=
  fun isWord => (Tokenizer.tokenize_plain input member isWord).nonempty rfl

/-- A text with a token that offends is rejected, and the error gives the line of that token where
the parser takes the line from it. Where it gives the number of tokens it has read, only a token
on the line of that number is found. -/
theorem error_positions (profile : Profile) (tables : UnicodeTables) (input : Str) {index : Nat}
    {place : Place} {token : Token}
    (offends : OffendsAt profile tables (Tokenizer.tokenize input) index place token) :
    ∃ error, run (parseConfig profile tables) (Tokenizer.tokenize input) = .error (.rejected error) ∧
      (error.line = token.line ↔ WellPlaced place token index) :=
  ⟨_, run_offends (nonempty_words input) offends, reported_eq_line place token index⟩

def badPortText : Str := "server \x7b\n  host h;\n  port x;\n\x7d\n".toList

theorem badPort_offends :
    OffendsAt .release plainTables (Tokenizer.tokenize badPortText) 6
      (.port (.mark .semicolon (.server ⟨true, true⟩))) ⟨.word "x".toList, 3⟩ :=
  ⟨by decide +kernel, by decide +kernel, by decide +kernel⟩

theorem badPort_position :
    ∃ error, run (parseConfig .release plainTables) (Tokenizer.tokenize badPortText) =
        .error (.rejected error) ∧
      (error.line = 3 ↔ WellPlaced (.port (.mark .semicolon (.server ⟨true, true⟩)))
        ⟨.word "x".toList, 3⟩ 6) :=
  error_positions .release plainTables badPortText badPort_offends

/-- The error says line 7, which is how many tokens were read; the text has four lines. -/
theorem badPort_misplaced :
    OffendsAt .release plainTables (Tokenizer.tokenize badPortText) 6
        (.port (.mark .semicolon (.server ⟨true, true⟩))) ⟨.word "x".toList, 3⟩ ∧
      run (parseConfig .release plainTables) (Tokenizer.tokenize badPortText) =
        .error (.rejected ⟨"Invalid port number 'x'".toList, 7⟩) :=
  ⟨badPort_offends, run_offends (nonempty_words badPortText) badPort_offends⟩

end LocalServer.ErrorPositions
