import LocalServer.Library.HashMap
import LocalServer.Library.Machine
import LocalServer.Library.Numeral
import LocalServer.Library.Utf8

/-! `src/request.rs`: the request parser, cookies, and the chunked body decoder. -/

namespace LocalServer
open Library Machine Search Utf8 Text Numeral

inductive Request.Method where
  | get
  | post
  | delete
  | unknown (name : Str)
  deriving DecidableEq

structure Request where
  method : Request.Method
  path : Str
  version : Str
  headers : HashMap Str Str
  body : Bytes

namespace Request

def crlf : Bytes := [13, 10]

def separator : Bytes := [13, 10, 13, 10]

def methodOf (word : Str) : Method :=
  if word = "GET".toList then .get
  else if word = "POST".toList then .post
  else if word = "DELETE".toList then .delete
  else .unknown word

def methodStr : Method → Str
  | .get => "GET".toList
  | .post => "POST".toList
  | .delete => "DELETE".toList
  | .unknown name => name

theorem methodStr_methodOf (word : Str) : methodStr (methodOf word) = word := by
  unfold methodOf
  split_ifs with get post delete
  · exact get.symm
  · exact post.symm
  · exact delete.symm
  · rfl

inductive ChunkStep where
  | malformed
  | finished (body : Bytes)
  | next (pos : Nat) (body : Bytes)
  deriving DecidableEq

def chunkSize (line : Bytes) : Option Nat :=
  match fromUtf8 line with
  | none => none
  | some sizeStr => fromStrRadix 16 usizeLimit (trim sizeStr)

/-- The end of a pass, once the size is known and `pos` is behind the size line. -/
def takeChunk (data : Bytes) (pos size : Nat) (body : Bytes) : Checked ChunkStep := do
  let stop ← add pos size
  if data.length < stop then pure .malformed
  else
    let piece ← slice data pos stop
    -- skip past the data and the two bytes after it, which are not looked at
    let pos ← add pos (← add size 2)
    pure (.next pos (body ++ piece))

/-- The body of the loop in `decode_chunked`. -/
def decodeStep (data : Bytes) (pos : Nat) (body : Bytes) : Checked ChunkStep := do
  let rest ← sliceFrom data pos
  match position crlf rest with
  | none => pure .malformed
  | some lineEnd =>
    let line ← slice data pos (← add pos lineEnd)
    match chunkSize line with
    | none => pure .malformed
    | some size =>
      -- skip past the size line and its line end
      let pos ← add pos (← add lineEnd 2)
      if size = 0 then pure (.finished body)
      else takeChunk data pos size body

def decodeLoop (data : Bytes) : Nat → Nat → Bytes → Checked (Option Bytes)
  | 0, _, _ => .error .outOfFuel
  | fuel + 1, pos, body => do
    match ← decodeStep data pos body with
    | .malformed => pure none
    | .finished body => pure (some body)
    | .next pos body => decodeLoop data fuel pos body

/-- `decode_chunked`. Every pass but the last moves `pos` forward inside the data, so one
more pass than there are bytes is enough. -/
def decodeChunked (data : Bytes) : Checked (Option Bytes) :=
  decodeLoop data (data.length + 1) 0 []

structure Head where
  method : Method
  path : Str
  version : Str
  headers : HashMap Str Str

def Head.withBody (head : Head) (body : Bytes) : Request :=
  ⟨head.method, head.path, head.version, head.headers, body⟩

/-- One header line; a line without a colon is skipped. -/
def insertHeader (tables : CaseTables) (headers : HashMap Str Str) (line : Str) :
    HashMap Str Str :=
  match splitOnce ':' line with
  | none => headers
  | some (key, value) => headers.insert (toLowercase tables (trim key)) (trim value)

def parseHead (tables : CaseTables) (headerText : Str) : Option Head :=
  match lines headerText with
  | [] => none
  | firstLine :: headerLines =>
    match splitWhitespace firstLine with
    | method :: path :: version :: _ =>
      some ⟨methodOf method, path, version,
        headerLines.foldl (insertHeader tables) HashMap.empty⟩
    | _ => none

def isChunked (tables : CaseTables) (headers : HashMap Str Str) : Bool :=
  match headers.get "transfer-encoding".toList with
  | none => false
  | some value => contains "chunked".toList (toLowercase tables value)

def parse (tables : CaseTables) (buffer : Bytes) : Checked (Option Request) := do
  match position separator buffer with
  | none => pure none
  | some headerEnd =>
    let headerSection ← slice buffer 0 headerEnd
    let body ← sliceFrom buffer (← add headerEnd 4)
    match parseHead tables (fromUtf8Lossy headerSection) with
    | none => pure none
    | some head =>
      if isChunked tables head.headers then
        match ← decodeChunked body with
        | none => pure none
        | some decoded => pure (some (head.withBody decoded))
      else pure (some (head.withBody body))

def insertCookie (map : HashMap Str Str) (pair : Str) : HashMap Str Str :=
  match splitOnce '=' (trim pair) with
  | none => map
  | some (key, value) => map.insert (trim key) (trim value)

def cookies (request : Request) : HashMap Str Str :=
  match request.headers.get "cookie".toList with
  | none => HashMap.empty
  | some header => (header.splitOnP (· == ';')).foldl insertCookie HashMap.empty

def sessionId (request : Request) : Option Str := request.cookies.get "session_id".toList

/-- The Content-Length header as `parse::<usize>` reads it. -/
def declaredLength (headers : HashMap Str Str) : Option Nat :=
  (headers.get "content-length".toList).bind (fromStrRadix 10 usizeLimit)

def contentLength (request : Request) : Nat := (declaredLength request.headers).getD 0

end Request

end LocalServer
