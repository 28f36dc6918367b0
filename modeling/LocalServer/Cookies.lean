import LocalServer.RequestText

/-! Cookies on their way through a request: the pairs of one Cookie header come back as they
were written, whatever stands around them. -/

namespace LocalServer.Cookies
open Library Machine Search Utf8 Text Request RequestText RequestFraming

def isSpace (c : Char) : Bool := isWhitespace c && c != '\r' && c != '\n'

def Single (text : Str) : Prop := '\r' ∉ text ∧ '\n' ∉ text

instance (text : Str) : Decidable (Single text) :=
  inferInstanceAs (Decidable ('\r' ∉ text ∧ '\n' ∉ text))

/-- A cookie as a client may write it: `name=value` with spaces around both. -/
structure WrittenCookie where
  name : Str
  value : Str
  beforeName : Str
  afterName : Str
  beforeValue : Str
  afterValue : Str
  nameMarks : ';' ∉ name ∧ '=' ∉ name ∧ Single name
  valueMarks : ';' ∉ value ∧ Single value
  nameEnds : Unpadded name
  valueEnds : Unpadded value
  spaces : ∀ pad ∈ [beforeName, afterName, beforeValue, afterValue], ∀ c ∈ pad, isSpace c = true

namespace WrittenCookie

variable (cookie : WrittenCookie)

def pair : Str × Str := (cookie.name, cookie.value)

def text : Str :=
  (cookie.beforeName ++ cookie.name ++ cookie.afterName) ++
    '=' :: (cookie.beforeValue ++ cookie.value ++ cookie.afterValue)

end WrittenCookie

def joinCookies (cookies : List WrittenCookie) : Str :=
  [';'].intercalate (cookies.map WrittenCookie.text)

structure CookieRequest (tables : CaseTables) where
  method : Str
  path : Str
  version : Str
  earlier : List Str
  title : Str
  before : Str
  cookies : List WrittenCookie
  after : Str
  later : List Str
  body : Bytes
  words : IsWord method ∧ IsWord path ∧ IsWord version
  titled : ':' ∉ title ∧ Single title ∧ toLowercase tables (trim title) = "cookie".toList
  spaces : ∀ pad ∈ [before, after], ∀ c ∈ pad, isSpace c = true
  others : ∀ line ∈ earlier ++ later, line ≠ [] ∧ Single line ∧ ¬HasKey tables "cookie".toList line
  distinct : (cookies.map WrittenCookie.name).Nodup

namespace CookieRequest

variable {tables : CaseTables} (sent : CookieRequest tables)

def cookieLine : Str := sent.title ++ ':' :: (sent.before ++ joinCookies sent.cookies ++ sent.after)

def headerLines : List Str := sent.earlier ++ sent.cookieLine :: sent.later

def headers : HashMap Str Str := sent.headerLines.foldl (insertHeader tables) HashMap.empty

def bytes : Bytes :=
  (requestLine sent.method sent.path sent.version :: sent.headerLines).flatMap
    (fun line => encode line ++ crlf) ++ (crlf ++ sent.body)

def Framed : Prop :=
  isChunked tables sent.headers = true → ∃ decoded, decodeChunked sent.body = .ok (some decoded)

end CookieRequest

theorem isWhitespace_space {c : Char} (space : isSpace c = true) : isWhitespace c = true := by
  unfold isSpace at space
  simp only [Bool.and_eq_true] at space
  exact space.1.1

namespace WrittenCookie

variable (cookie : WrittenCookie)

theorem pad_lacks {pad : Str}
    (member : pad ∈ [cookie.beforeName, cookie.afterName, cookie.beforeValue, cookie.afterValue])
    {mark : Char} (noSpace : isSpace mark = false) : mark ∉ pad := by
  intro inPad
  rw [cookie.spaces pad member mark inPad] at noSpace
  cases noSpace

theorem text_lacks {mark : Char} (noSpace : isSpace mark = false) (inName : mark ∉ cookie.name)
    (inValue : mark ∉ cookie.value) (different : mark ≠ '=') : mark ∉ cookie.text := by
  simp only [text, List.mem_append, List.mem_cons, not_or]
  exact ⟨⟨⟨cookie.pad_lacks (by simp) noSpace, inName⟩, cookie.pad_lacks (by simp) noSpace⟩,
    different, ⟨cookie.pad_lacks (by simp) noSpace, inValue⟩, cookie.pad_lacks (by simp) noSpace⟩

theorem text_separate : ';' ∉ cookie.text :=
  cookie.text_lacks (by decide) cookie.nameMarks.1 cookie.valueMarks.1 (by decide)

theorem text_single : Single cookie.text :=
  ⟨cookie.text_lacks (by decide) cookie.nameMarks.2.2.1 cookie.valueMarks.2.1 (by decide),
    cookie.text_lacks (by decide) cookie.nameMarks.2.2.2 cookie.valueMarks.2.2 (by decide)⟩

/-- The first `=` of the trimmed pair is the one behind the name, also where the value holds more. -/
theorem insertCookie_text (map : HashMap Str Str) :
    insertCookie map cookie.text = map.insert cookie.name cookie.value := by
  have blank : ∀ pad ∈ [cookie.beforeName, cookie.afterName, cookie.beforeValue, cookie.afterValue],
      ∀ c ∈ pad, isWhitespace c = true :=
    fun pad member c inPad => isWhitespace_space (cookie.spaces pad member c inPad)
  have fresh : '=' ∉ cookie.beforeName ++ cookie.name ++ cookie.afterName := by
    simp only [List.mem_append, not_or]
    exact ⟨⟨cookie.pad_lacks (by simp) (by decide), cookie.nameMarks.2.1⟩,
      cookie.pad_lacks (by simp) (by decide)⟩
  have freshStart : '=' ∉ trimStart (cookie.beforeName ++ cookie.name ++ cookie.afterName) :=
    fun member => fresh ((List.dropWhile_sublist _).subset member)
  have key : trim (cookie.beforeName ++ cookie.name ++ cookie.afterName) = cookie.name :=
    trim_pad cookie.nameEnds (blank _ (by simp)) (blank _ (by simp))
  have value : trim (cookie.beforeValue ++ cookie.value ++ cookie.afterValue) = cookie.value :=
    trim_pad cookie.valueEnds (blank _ (by simp)) (blank _ (by simp))
  rw [insertCookie, text, trim_around _ _ (by decide), splitOnce_append _ freshStart]
  dsimp only
  rw [trim_trimStart, trim_trimEnd, key, value]

end WrittenCookie

theorem insertCookie_trim (map : HashMap Str Str) (piece : Str) :
    insertCookie map (trim piece) = insertCookie map piece := by
  rw [insertCookie, insertCookie, trim_trim]

theorem foldl_insertCookie_congr {first second : List Str}
    (same : first.map trim = second.map trim) (map : HashMap Str Str) :
    first.foldl insertCookie map = second.foldl insertCookie map := by
  have trimmed : ∀ pieces : List Str,
      pieces.foldl insertCookie map = (pieces.map trim).foldl insertCookie map := by
    intro pieces
    rw [List.foldl_map]
    simp only [insertCookie_trim]
  rw [trimmed, same, ← trimmed]

/-- The pairs of a header, read as they were written. -/
theorem foldl_joinCookies (cookies : List WrittenCookie) :
    ((joinCookies cookies).splitOnP (· == ';')).foldl insertCookie HashMap.empty =
      HashMap.ofPairs (cookies.map WrittenCookie.pair) := by
  cases cookies with
  | nil => rfl
  | cons cookie cookies =>
    have split : (joinCookies (cookie :: cookies)).splitOnP (· == ';') =
        (cookie :: cookies).map WrittenCookie.text := by
      apply List.splitOn_intercalate ';'
      · intro piece member
        obtain ⟨written, -, rfl⟩ := List.mem_map.mp member
        exact written.text_separate
      · exact List.cons_ne_nil _ _
    rw [split, HashMap.ofPairs, List.foldl_map, List.foldl_map]
    simp only [WrittenCookie.insertCookie_text]
    rfl

theorem joinCookies_lacks {mark : Char} {cookies : List WrittenCookie} (different : mark ≠ ';')
    (absent : ∀ cookie ∈ cookies, mark ∉ cookie.text) : mark ∉ joinCookies cookies := by
  unfold joinCookies
  induction cookies with
  | nil => simp
  | cons cookie cookies ih =>
    have first := absent cookie List.mem_cons_self
    have rest := ih fun other member => absent other (List.mem_cons_of_mem _ member)
    cases cookies with
    | nil => simpa using first
    | cons next cookies =>
      rw [List.map_cons, List.map_cons, List.intercalate_cons_cons]
      simp only [List.mem_append, List.mem_singleton, not_or]
      exact ⟨⟨first, different⟩, rest⟩

/-! The headers -/

theorem get_insertHeader_other {tables : CaseTables} {line : Str} (other : ¬HasKey tables "cookie".toList line)
    (headers : HashMap Str Str) :
    (insertHeader tables headers line).get "cookie".toList = headers.get "cookie".toList := by
  unfold insertHeader
  rw [hasKey_iff] at other
  cases split : splitOnce ':' line with
  | none => rfl
  | some parts =>
    apply HashMap.get_insert_of_ne
    intro same
    rw [split, Option.map_some, same] at other
    exact other rfl

theorem get_foldl_insertHeader {tables : CaseTables} {lines : List Str}
    (others : ∀ line ∈ lines, ¬HasKey tables "cookie".toList line) (headers : HashMap Str Str) :
    (lines.foldl (insertHeader tables) headers).get "cookie".toList =
      headers.get "cookie".toList := by
  induction lines generalizing headers with
  | nil => rfl
  | cons line lines ih =>
    rw [List.foldl_cons, ih fun other member => others other (List.mem_cons_of_mem _ member),
      get_insertHeader_other (others line List.mem_cons_self)]

namespace CookieRequest

variable {tables : CaseTables} (sent : CookieRequest tables)

theorem get_cookie :
    sent.headers.get "cookie".toList = some (trim (joinCookies sent.cookies)) := by
  have earlier : ∀ line ∈ sent.earlier, ¬HasKey tables "cookie".toList line :=
    fun line member => (sent.others line (by simp [member])).2.2
  have later : ∀ line ∈ sent.later, ¬HasKey tables "cookie".toList line :=
    fun line member => (sent.others line (by simp [member])).2.2
  have blank : ∀ pad ∈ [sent.before, sent.after], ∀ c ∈ pad, isWhitespace c = true :=
    fun pad member c inPad => isWhitespace_space (sent.spaces pad member c inPad)
  obtain ⟨fresh, -, named⟩ := sent.titled
  rw [headers, headerLines, List.foldl_append, List.foldl_cons, get_foldl_insertHeader later,
    insertHeader, cookieLine, splitOnce_append _ fresh]
  dsimp only
  rw [named, HashMap.get_insert_self, trim_append_blanks _ (blank _ (by simp)),
    trim_prepend_blanks _ (blank _ (by simp))]

theorem cookieLine_plain : sent.cookieLine ≠ [] ∧ Single sent.cookieLine := by
  have single : ∀ mark, isSpace mark = false → mark ≠ ':' → mark ∉ sent.title →
      mark ∉ joinCookies sent.cookies → mark ∉ sent.cookieLine := by
    intro mark noSpace different inTitle inCookies
    have inPad : ∀ pad ∈ [sent.before, sent.after], mark ∉ pad := by
      intro pad member inPad
      rw [sent.spaces pad member mark inPad] at noSpace
      cases noSpace
    simp only [cookieLine, List.mem_append, List.mem_cons, not_or]
    exact ⟨inTitle, different, ⟨inPad _ (by simp), inCookies⟩, inPad _ (by simp)⟩
  obtain ⟨-, ⟨noCr, noLf⟩, -⟩ := sent.titled
  refine ⟨by simp [cookieLine], ?_, ?_⟩
  · exact single '\r' (by decide) (by decide) noCr
      (joinCookies_lacks (by decide) fun cookie _ => cookie.text_single.1)
  · exact single '\n' (by decide) (by decide) noLf
      (joinCookies_lacks (by decide) fun cookie _ => cookie.text_single.2)

theorem headerLines_plain {line : Str} (member : line ∈ sent.headerLines) :
    line ≠ [] ∧ Single line := by
  rcases List.mem_append.mp member with inEarlier | rest
  · have plain := sent.others line (by simp [inEarlier])
    exact ⟨plain.1, plain.2.1⟩
  · rcases List.mem_cons.mp rest with rfl | inLater
    · exact sent.cookieLine_plain
    · have plain := sent.others line (by simp [inLater])
      exact ⟨plain.1, plain.2.1⟩

theorem parse_bytes (fits : Addressable sent.bytes) :
    parse tables sent.bytes =
      bodyOf tables ⟨methodOf sent.method, sent.path, sent.version, sent.headers⟩ sent.body := by
  obtain ⟨isMethod, isPath, isVersion⟩ := sent.words
  have plain : ∀ line ∈ requestLine sent.method sent.path sent.version :: sent.headerLines,
      line ≠ [] ∧ '\r' ∉ line ∧ '\n' ∉ line := by
    intro line member
    rcases List.mem_cons.mp member with rfl | inHeaders
    · exact requestLine_plain isMethod isPath isVersion
    · exact sent.headerLines_plain inHeaders
  have block := headerBlock_lines (List.cons_ne_nil _ _)
    (fun line member => ⟨(plain line member).1, (plain line member).2.1⟩) sent.body
  have head := parseHead_lines tables isMethod isPath isVersion
    fun line member => ⟨(plain line member).1, (plain line member).2.2⟩
  rw [bytes, parse_block block fits, fromUtf8Lossy_encode, head]
  rfl

/-- The server parses the request, and its cookies are the ones that were written: each name
with its value, and no other. -/
theorem cookies_parse (fits : Addressable sent.bytes) (framed : sent.Framed) :
    ∃ request, parse tables sent.bytes = .ok (some request) ∧
      (∀ name value, request.cookies.get name = some value ↔
        (name, value) ∈ sent.cookies.map WrittenCookie.pair) ∧
      ∀ id, request.sessionId = some id ↔
        ("session_id".toList, id) ∈ sent.cookies.map WrittenCookie.pair := by
  obtain ⟨body, parsed⟩ : ∃ body, parse tables sent.bytes = .ok (some
      ⟨methodOf sent.method, sent.path, sent.version, sent.headers, body⟩) := by
    rw [sent.parse_bytes fits, bodyOf]
    by_cases chunked : isChunked tables sent.headers = true
    · obtain ⟨decoded, decodes⟩ := framed chunked
      rw [if_pos chunked, decodes]
      exact ⟨decoded, rfl⟩
    · rw [if_neg chunked]
      exact ⟨sent.body, rfl⟩
  have read : Request.cookies ⟨methodOf sent.method, sent.path, sent.version, sent.headers, body⟩ =
      HashMap.ofPairs (sent.cookies.map WrittenCookie.pair) := by
    rw [Request.cookies, sent.get_cookie]
    dsimp only
    rw [foldl_insertCookie_congr (map_trim_splitOnP_trim _ _), foldl_joinCookies]
    intro c white
    rw [beq_eq_false_iff_ne]
    rintro rfl
    cases white
  have found : ∀ name value,
      (HashMap.ofPairs (sent.cookies.map WrittenCookie.pair)).get name = some value ↔
        (name, value) ∈ sent.cookies.map WrittenCookie.pair := by
    apply HashMap.get_ofPairs
    rw [List.map_map]
    exact sent.distinct
  refine ⟨_, parsed, ?_, ?_⟩
  · rw [read]
    exact found
  · intro id
    rw [Request.sessionId, read]
    exact found _ id

end CookieRequest

def someCookies : List WrittenCookie :=
  [⟨"my_session_id".toList, "x".toList, [], [' '], ['\t'], [], by decide, by decide, by decide,
      by decide, by decide⟩,
    ⟨"session_id".toList, "a=b=".toList, [' '], [], [], [' '], by decide, by decide, by decide,
      by decide, by decide⟩]

def someRequest : CookieRequest asciiTables where
  method := "GET".toList
  path := "/".toList
  version := "HTTP/1.1".toList
  earlier := ["Host: localhost".toList]
  title := "COOKIE ".toList
  before := [' ']
  cookies := someCookies
  after := []
  later := ["X-Cookie: session_id=c".toList]
  body := [10]
  words := by decide
  titled := by decide
  spaces := by decide
  others := by decide +kernel
  distinct := by decide

theorem cookies_parse_some : ∃ request, parse asciiTables someRequest.bytes = .ok (some request) ∧
    request.cookies.get "my_session_id".toList = some "x".toList ∧
    request.sessionId = some "a=b=".toList := by
  have plain : isChunked asciiTables someRequest.headers = false := by decide +kernel
  obtain ⟨request, parsed, cookies, sessionId⟩ := someRequest.cookies_parse (by decide +kernel)
    (by
      intro chunked
      rw [plain] at chunked
      cases chunked)
  exact ⟨request, parsed, (cookies _ _).mpr (by decide), (sessionId _).mpr (by decide)⟩

end LocalServer.Cookies
