import LocalServer.Library.Action
import LocalServer.Library.FileSystem
import LocalServer.Request
import LocalServer.Response
import LocalServer.Session

/-! `src/cgi.rs`: running a script and reading its answer. What a process does is a
parameter, given with the rest of the platform. -/

namespace LocalServer
open Library Search Utf8 Text Numeral Request

structure Command where
  program : Str
  argument : Str
  environment : List (Str × Str)
  /-- Written to the child and closed; `none` leaves the pipe open and empty. -/
  stdin : Option Bytes
  deriving DecidableEq, Repr

structure Output where
  success : Bool
  stdout : Bytes
  stderr : Bytes
  deriving DecidableEq, Repr

structure Child where
  /-- The time elapsed at each poll that finds the child running. -/
  running : List Nat
  /-- What the poll after these finds: the exit status and output, or an error. -/
  output : Option Output
  /-- The file system when the parent stops waiting. -/
  files : FileSystem

structure Platform where
  tables : CaseTables
  /-- Starts a process, if that is possible. -/
  spawn : Command → FileSystem → Option Child

namespace Cgi

/-- The status line of a header `Status: 404 Not Found`. -/
def statusOf (value : Str) : StatusCode :=
  let code := ((splitWhitespace (trim value)).head?.bind (fromStrRadix 10 (2 ^ 16))).getD 200
  if code = 200 then .ok
  else if code = 400 then .badRequest
  else if code = 403 then .forbidden
  else if code = 404 then .notFound
  else if code = 500 then .internalServerError
  else .ok

def readHeader (tables : CaseTables) (known : StatusCode × Str) (line : Str) : StatusCode × Str :=
  match splitOnce ':' line with
  | none => known
  | some (key, value) =>
    if toLowercase tables (trim key) = "content-type".toList then (known.1, trim value)
    else if toLowercase tables (trim key) = "status".toList then (statusOf value, known.2)
    else known

/-- The header bytes and the body: at the first `\r\n\r\n`, else at the first `\n\n`. -/
def splitOutput (output : Bytes) : Option (Bytes × Bytes) :=
  match position separator output with
  | some pos => some (output.take pos, output.drop (pos + 4))
  | none =>
    match position [10, 10] output with
    | some pos => some (output.take pos, output.drop (pos + 2))
    | none => none

def parseCgiOutput (tables : CaseTables) (output : Bytes) : Response :=
  match splitOutput output with
  | none => .error .internalServerError
  | some (headerBytes, body) =>
    let (status, contentType) :=
      (lines (fromUtf8Lossy headerBytes)).foldl (readHeader tables) (.ok, "text/html".toList)
    .new status contentType body

/-- `wait_with_timeout`: the child is killed at the first poll past the timeout. -/
def waitWithTimeout (timeout : Nat) (output : Option Output) : List Nat → Option Output
  | [] => output
  | elapsed :: running =>
    if timeout < elapsed then none else waitWithTimeout timeout output running

/-- `query_string`, which nothing calls. -/
def queryString (path : Str) : Str :=
  match splitOnce '?' path with
  | some (_, query) => query
  | none => []

end Cgi

structure CgiRunner where
  interpreter : Str
  scriptPath : Str
  timeout : Nat
  deriving DecidableEq, Repr

namespace CgiRunner

def new (interpreter scriptPath : Str) : CgiRunner := ⟨interpreter, scriptPath, 10 * nanosPerSec⟩

def withTimeout (runner : CgiRunner) (timeout : Nat) : CgiRunner := { runner with timeout }

def command (runner : CgiRunner) (request : Request) : Command where
  program := runner.interpreter
  argument := runner.scriptPath
  environment := [
    ("QUERY_STRING".toList, (request.headers.get "x-query-string".toList).getD []),
    ("REQUEST_METHOD".toList, methodStr request.method),
    ("PATH_INFO".toList, request.path),
    ("CONTENT_LENGTH".toList, Response.decimal request.body.length),
    ("CONTENT_TYPE".toList, (request.headers.get "content-type".toList).getD []),
    ("SERVER_PROTOCOL".toList, "HTTP/1.1".toList),
    ("GATEWAY_INTERFACE".toList, "CGI/1.1".toList)]
  stdin := if request.body = [] then none else some request.body

/-- `CgiRunner::run`. The wait has its own ten seconds, not the runner's timeout. -/
def run (platform : Platform) (runner : CgiRunner) (request : Request) :
    Action FileSystem Response := fun files =>
  match platform.spawn (runner.command request) files with
  | none => (.error .internalServerError, files)
  | some child =>
    match Cgi.waitWithTimeout (10 * nanosPerSec) child.output child.running with
    | none => (.error .internalServerError, child.files)
    | some output =>
      if output.success then (Cgi.parseCgiOutput platform.tables output.stdout, child.files)
      else (.error .internalServerError, child.files)

end CgiRunner

end LocalServer
