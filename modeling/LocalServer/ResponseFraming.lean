import LocalServer.ConfigFile
import LocalServer.RequestFraming
import LocalServer.Responses

/-! The bytes of a response: header lines, a blank line and the body. No value that stands in
a header line can end it. -/

namespace LocalServer.ResponseFraming
open Library Action Machine Search Utf8 Text Handler Server RequestFraming ConfigText Responses

def statusText (response : Response) : Str :=
  if response.redirectLocation.isSome then "301 Moved Permanently".toList
  else response.status.asStr

def statusLine (response : Response) : Str := "HTTP/1.1 ".toList ++ statusText response

def headerLines (response : Response) : List Str :=
  [statusLine response, "Content-Type: ".toList ++ response.contentType,
    "Content-Length: ".toList ++ Response.decimal response.body.length] ++
  (response.redirectLocation.toList.map ("Location: ".toList ++ ·) ++
    response.cookies.map ("Set-Cookie: ".toList ++ ·))

/-- The first blank line ends the header block and the body follows it. The block split at line
ends has the header lines: one with the status, the type and the length each, one with the
location if there is one, and one with each cookie. -/
structure Framed (response : Response) (block : Bytes) : Prop where
  ends : HeaderBlock response.serializeResponse block response.body
  lines : split Request.crlf block = (headerLines response).map encode

/-- No value that a handler chooses has a line end in it. -/
structure Unbroken (response : Response) : Prop where
  contentType : '\n' ∉ response.contentType
  location : ∀ target ∈ response.redirectLocation, '\n' ∉ target
  cookies : ∀ cookie ∈ response.cookies, '\n' ∉ cookie

/-- Lines with their ends are lines with the marks between them and a mark behind. -/
theorem flatMap_terminated (mark : Bytes) {lines : List Bytes} (some' : lines ≠ []) :
    lines.flatMap (· ++ mark) = mark.intercalate lines ++ mark := by
  induction lines with
  | nil => exact absurd rfl some'
  | cons line rest ih =>
    cases rest with
    | nil => simp
    | cons next rest =>
      rw [List.flatMap_cons, ih (by simp), List.intercalate_cons_cons]
      simp only [List.append_assoc]

theorem encode_cookies (cookies : List Str) :
    encode (cookies.flatMap fun cookie => "Set-Cookie: ".toList ++ (cookie ++ "\r\n".toList)) =
      ((cookies.map ("Set-Cookie: ".toList ++ ·)).map encode).flatMap (· ++ Request.crlf) := by
  have ended : encode "\r\n".toList = Request.crlf := by decide
  induction cookies with
  | nil => rfl
  | cons cookie rest ih =>
    rw [List.flatMap_cons, encode_append, ih, ← List.append_assoc, encode_append, ended]
    rfl

theorem serializeResponse_eq (response : Response) : response.serializeResponse =
    Request.crlf.intercalate ((headerLines response).map encode) ++
      (Request.separator ++ response.body) := by
  have ended : encode "\r\n".toList = Request.crlf := by decide
  have some' : (headerLines response).map encode ≠ [] := by simp [headerLines]
  have typeLine : "\r\nContent-Type: ".toList = "\r\n".toList ++ "Content-Type: ".toList := rfl
  have lengthLine : "\r\nContent-Length: ".toList = "\r\n".toList ++ "Content-Length: ".toList := rfl
  calc
    response.serializeResponse =
        ((headerLines response).map encode).flatMap (· ++ Request.crlf) ++
          (Request.crlf ++ response.body) := by
      unfold Response.serializeResponse headerLines statusLine statusText
      cases response.redirectLocation <;>
        simp only [typeLine, lengthLine, encode_append, encode_cookies, ended, Option.isSome_none,
          Option.isSome_some, Option.toList_none, Option.toList_some, List.map_append, List.map_cons, List.map_nil,
          List.flatMap_append, List.flatMap_cons, List.flatMap_nil, List.append_assoc,
          List.append_nil, List.nil_append, if_true, if_false, reduceCtorEq]
    _ = _ := by
      rw [flatMap_terminated Request.crlf some', List.append_assoc]
      rfl

theorem byte_not_mem {text : Str} (single : '\n' ∉ text) : (10 : UInt8) ∉ encode text :=
  fun member => single (mem_encode_ascii (by decide) member)

theorem headerLines_single {response : Response} (unbroken : Unbroken response) :
    ∀ line ∈ headerLines response, '\n' ∉ line := by
  have labels : '\n' ∉ "Content-Type: ".toList ∧ '\n' ∉ "Content-Length: ".toList ∧
      '\n' ∉ "Location: ".toList ∧ '\n' ∉ "Set-Cookie: ".toList := by decide
  obtain ⟨typeLabel, lengthLabel, locationLabel, cookieLabel⟩ := labels
  have status : '\n' ∉ statusLine response := by
    unfold statusLine statusText
    split_ifs
    · decide
    · cases response.status <;> decide
  have length : '\n' ∉ Response.decimal response.body.length := by
    intro member
    exact absurd (Response.isDigit_decimal _ member) (by decide)
  have join {label value : Str} (first : '\n' ∉ label) (second : '\n' ∉ value) :
      '\n' ∉ label ++ value := by
    rw [List.mem_append]
    exact not_or.mpr ⟨first, second⟩
  intro line member
  simp only [headerLines, List.mem_append, List.mem_cons, List.not_mem_nil, or_false,
    List.mem_map, Option.mem_toList] at member
  rcases member with (rfl | rfl | rfl) | ⟨target, isTarget, rfl⟩ | ⟨cookie, isCookie, rfl⟩
  · exact status
  · exact join typeLabel unbroken.contentType
  · exact join lengthLabel length
  · exact join locationLabel (unbroken.location target isTarget)
  · exact join cookieLabel (unbroken.cookies cookie isCookie)

theorem headerLines_start (response : Response) :
    ∀ line ∈ (headerLines response).map encode, ∃ first rest, line = first :: rest ∧ first ≠ 13 := by
  intro line member
  simp only [headerLines, List.map_append, List.map_cons, List.map_nil, List.map_map,
    List.mem_append, List.mem_cons, List.not_mem_nil, or_false, List.mem_map] at member
  rcases member with (rfl | rfl | rfl) | ⟨target, -, rfl⟩ | ⟨cookie, -, rfl⟩
  · exact ⟨72, _, rfl, by decide⟩
  · exact ⟨67, _, rfl, by decide⟩
  · exact ⟨67, _, rfl, by decide⟩
  · exact ⟨76, _, rfl, by decide⟩
  · exact ⟨83, _, rfl, by decide⟩

theorem framed_of_unbroken {response : Response} (unbroken : Unbroken response) :
    ∃ block, Framed response block := by
  have some' : (headerLines response).map encode ≠ [] := by simp [headerLines]
  have single : ∀ line ∈ (headerLines response).map encode, (10 : UInt8) ∉ line := by
    intro line member
    obtain ⟨text, isLine, rfl⟩ := List.mem_map.mp member
    exact byte_not_mem (headerLines_single unbroken text isLine)
  have different : (13 : UInt8) ≠ 10 := by decide
  refine ⟨Request.crlf.intercalate ((headerLines response).map encode), ⟨?_, ?_⟩, ?_⟩
  · exact serializeResponse_eq response
  · rw [serializeResponse_eq]
    exact position_lines different some' single (headerLines_start response) _
  · exact split_intercalate different some' single

theorem position_statusLine (response : Response) :
    ∃ rest, response.serializeResponse = encode (statusLine response) ++ (Request.crlf ++ rest) ∧
      position Request.crlf response.serializeResponse = some (encode (statusLine response)).length := by
  have starts : ∃ rest,
      response.serializeResponse = encode (statusLine response) ++ (Request.crlf ++ rest) := by
    rw [serializeResponse_eq]
    simp only [headerLines, List.cons_append, List.map_cons, List.intercalate_cons_cons,
      List.append_assoc]
    exact ⟨_, rfl⟩
  obtain ⟨rest, shape⟩ := starts
  have single : (13 : UInt8) ∉ encode (statusLine response) := by
    intro member
    have inText : '\r' ∈ statusLine response := mem_encode_ascii (by decide) member
    revert inText
    unfold statusLine statusText
    split_ifs
    · decide
    · cases response.status <;> decide
  refine ⟨rest, shape, ?_⟩
  rw [shape]
  exact position_after rest single

theorem statusLine_congr {first second : Response}
    (same : first.serializeResponse = second.serializeResponse) :
    statusLine first = statusLine second := by
  obtain ⟨rest, shape, found⟩ := position_statusLine first
  obtain ⟨rest', shape', found'⟩ := position_statusLine second
  rw [same, found', Option.some.injEq] at found
  rw [shape, shape'] at same
  exact encode_injective (List.append_inj same found.symm).1

/-! Where the values come from -/

theorem html_single : '\n' ∉ "text/html".toList := by decide

theorem unbroken_new {status : StatusCode} {contentType : Str} (body : Bytes)
    (single : '\n' ∉ contentType) : Unbroken (.new status contentType body) where
  contentType := single
  location := fun target none => by cases none
  cookies := fun cookie none => by cases none

theorem unbroken_setCookie {value : Str} (body : Bytes) (single : '\n' ∉ value) :
    Unbroken ((Response.new .ok "text/html".toList body).setCookie "session_id".toList value) where
  contentType := html_single
  location := fun target none => by cases none
  cookies := by
    have around : '\n' ∉ "session_id".toList ++ "=".toList ∧
        '\n' ∉ "; HttpOnly; SameSite=Strict".toList := by decide
    intro cookie member
    obtain rfl := List.mem_singleton.mp member
    rw [List.mem_append, List.mem_append]
    exact not_or.mpr ⟨not_or.mpr ⟨around.1, single⟩, around.2⟩

theorem readHeader_single (tables : CaseTables) {known : StatusCode × Str} {line : Str}
    (single : '\n' ∉ known.2) (isLine : '\n' ∉ line) :
    '\n' ∉ (Cgi.readHeader tables known line).2 := by
  unfold Cgi.readHeader
  cases cut : splitOnce ':' line with
  | none => exact single
  | some pair =>
    obtain ⟨key, value⟩ := pair
    dsimp only
    split_ifs
    · intro inside
      exact isLine (splitOnce_subset cut (trim_subset value inside))
    · exact single
    · exact single

/-- The content type of a script is what is left of one line of its output. -/
theorem unbroken_parseCgiOutput (tables : CaseTables) (output : Bytes) :
    Unbroken (Cgi.parseCgiOutput tables output) := by
  unfold Cgi.parseCgiOutput
  cases Cgi.splitOutput output with
  | none => exact unbroken_new _ html_single
  | some halves =>
    apply unbroken_new
    let Single (known : StatusCode × Str) : Prop := '\n' ∉ known.2
    have start : Single (.ok, "text/html".toList) := html_single
    have folded : Single ((lines (fromUtf8Lossy halves.1)).foldl (Cgi.readHeader tables)
        (.ok, "text/html".toList)) :=
      List.foldlRecOn _ _ start fun known single line member =>
        readHeader_single tables single (lines_single member)
    exact folded

theorem getContentType_single (path : Str) : '\n' ∉ getContentType path := by
  unfold getContentType
  split_ifs <;> decide

theorem generateId_single (clock : Clock) : '\n' ∉ generateId clock := by
  intro inside
  have digit := Numeral.isWhitespace_digit ((isDigits_generateId clock).2 _ inside)
  exact absurd digit (by decide)

/-- Redirects lead to words of the configuration. -/
theorem unbroken_of_answer {tables : CaseTables} {clock : Clock} {config : ServerConfig}
    (plain : PlainServer config) {response : Response}
    (isAnswer : Answer tables clock config response) : Unbroken response := by
  cases isAnswer with
  | page other body => exact unbroken_new body html_single
  | file path contents => exact unbroken_new contents (getContentType_single path)
  | script output => exact unbroken_parseCgiOutput tables output
  | login body => exact unbroken_setCookie body (generateId_single clock)
  | logout body => exact unbroken_setCookie body (by decide)
  | redirect isLocation redirects body =>
    refine ⟨html_single, ?_, fun cookie none => by cases none⟩
    intro target isTarget
    cases isTarget
    exact ((plain.locations _ isLocation).redirect _ redirects).isWord.not_mem (by decide)

theorem matchConfig_mem (server : Server) (request : Request) :
    server.matchConfig request ∈ server.configs := by
  unfold matchConfig
  cases found : server.configs.find? fun config => config.serverName = some (host request) with
  | none => exact List.head_mem server.nonempty
  | some config => exact List.mem_of_find?_eq_some found

theorem unbroken_of_reached {tables : CaseTables} {server : Server}
    (plain : ∀ config ∈ server.configs, PlainServer config) {response : Response}
    (reached : Reached tables server response) : Unbroken response := by
  cases reached with
  | tooLarge => exact unbroken_new _ html_single
  | badRequest => exact unbroken_new _ html_single
  | answer request isAnswer =>
    exact unbroken_of_answer (plain _ (matchConfig_mem server request)) isAnswer

/-- Under an accepted configuration every response that a request is answered with, and every
response that a read event leaves to be written, has exactly its own header lines and body. -/
theorem responses_framed {profile : Profile} {tables : UnicodeTables} {path text : Str}
    {config : Config}
    (accepted : ConfigFile.fromFile profile tables path (.ok text) = .ok (.ok config)) :
    (∀ (platform : Platform) (clock : Clock) (request : Request), ∀ server ∈ config.servers,
      ∀ world, ∃ block, Framed (buildResponse platform clock request server world).1 block) ∧
    ∀ (platform : Platform) (server : Server), (∀ config' ∈ server.configs, config' ∈ config.servers) →
      ∀ (clock : Clock) (fd other : Fd) (results : List ReadResult) (loop : Loop) (queued : Bytes),
        (handleRead platform server clock fd results loop).2.writeBuffers.get other = some queued →
        loop.writeBuffers.get other = some queued ∨
          ∃ response block, queued = response.serializeResponse ∧ Framed response block := by
  constructor
  · intro platform clock request server member world
    apply framed_of_unbroken
    apply unbroken_of_answer (ConfigFile.plain_of_accepted accepted member)
    exact answers_buildResponse platform clock request server world
  · intro platform server among clock fd other results loop queued held
    have plain : ∀ config' ∈ server.configs, PlainServer config' :=
      fun config' member => ConfigFile.plain_of_accepted accepted (among config' member)
    rcases queued_handleRead platform server clock held with kept | ⟨response, reached, same⟩
    · exact .inl kept
    · obtain ⟨block, framed⟩ := framed_of_unbroken (unbroken_of_reached plain reached)
      exact .inr ⟨response, block, same, framed⟩

def movedText : Str :=
  "server \x7b host h; port 80; location /old \x7b redirect /new; \x7d \x7d".toList

def movedServer : ServerConfig :=
  ⟨"h".toList, 80, none, 1024 * 1024, HashMap.empty,
    [⟨"/old".toList, [], none, [], false, some "/new".toList, none⟩]⟩

set_option maxRecDepth 4000 in
theorem moved_accepted : ConfigFile.fromFile .release ConfigRejection.plainTables "moved.conf".toList
    (.ok movedText) = .ok (.ok ⟨[movedServer]⟩) := by
  rfl

theorem responses_framed_moved : ∃ block, Framed
    (buildResponse quietPlatform ⟨0, 0, 0⟩ (getRequest "/old/page") movedServer emptyWorld).1 block :=
  (responses_framed moved_accepted).1 quietPlatform ⟨0, 0, 0⟩ (getRequest "/old/page") movedServer
    List.mem_cons_self emptyWorld

end LocalServer.ResponseFraming
