import LocalServer.Library.Writer
import LocalServer.Library.Text
import LocalServer.Library.Utf8

/-! `src/response.rs`: status codes and responses. -/

namespace LocalServer
open Library Utf8 Text

inductive StatusCode where
  | ok
  | badRequest
  | forbidden
  | notFound
  | methodNotAllowed
  | contentTooLarge
  | internalServerError
  deriving DecidableEq, Repr

def StatusCode.asStr : StatusCode → Str
  | .ok => "200 OK".toList
  | .badRequest => "400 Bad Request".toList
  | .forbidden => "403 Forbidden".toList
  | .notFound => "404 Not Found".toList
  | .methodNotAllowed => "405 Method Not Allowed".toList
  | .contentTooLarge => "413 Content Too Large".toList
  | .internalServerError => "500 Internal Server Error".toList

structure Response where
  status : StatusCode
  contentType : Str
  body : Bytes
  cookies : List Str
  redirectLocation : Option Str
  deriving DecidableEq, Repr

namespace Response

def new (status : StatusCode) (contentType : Str) (body : Bytes) : Response :=
  ⟨status, contentType, body, [], none⟩

/-- A redirect keeps status 200; the status line is chosen where it is written out. -/
def redirect (location : Str) (body : Bytes) : Response :=
  { new .ok "text/html".toList body with redirectLocation := some location }

def setCookie (response : Response) (name value : Str) : Response :=
  { response with cookies :=
      response.cookies ++ [name ++ "=".toList ++ value ++ "; HttpOnly; SameSite=Strict".toList] }

def error (status : StatusCode) : Response :=
  new status "text/html".toList
    (encode ("<html><body><h1>".toList ++ status.asStr ++ "</h1></body></html>".toList))

structure Succeeds (response : Response) : Prop where
  status : response.status = .ok
  direct : response.redirectLocation = none

def decimal (n : Nat) : Str := (toString n).toList

theorem decimal_eq_toDigits (n : Nat) : decimal n = Nat.toDigits 10 n := Nat.toList_repr

theorem isDigit_decimal (n : Nat) {c : Char} (member : c ∈ decimal n) : c.isDigit = true := by
  rw [decimal_eq_toDigits] at member
  exact Nat.isDigit_of_mem_toDigits (by omega) (by omega) member

theorem decimal_injective : Function.Injective decimal := by
  intro n m same
  rw [decimal_eq_toDigits, decimal_eq_toDigits] at same
  calc
    n = Nat.ofDigitChars 10 (Nat.toDigits 10 n) 0 := Nat.ofDigitChars_ten_toDigits.symm
    _ = Nat.ofDigitChars 10 (Nat.toDigits 10 m) 0 := by rw [same]
    _ = m := Nat.ofDigitChars_ten_toDigits

def serializeResponse (response : Response) : Bytes :=
  let status := match response.redirectLocation with
    | some _ => "301 Moved Permanently".toList
    | none => response.status.asStr
  let locationHeader := match response.redirectLocation with
    | some location => "Location: ".toList ++ location ++ "\r\n".toList
    | none => []
  let cookieHeaders :=
    response.cookies.flatMap fun cookie => "Set-Cookie: ".toList ++ cookie ++ "\r\n".toList
  encode ("HTTP/1.1 ".toList ++ status ++ "\r\nContent-Type: ".toList ++ response.contentType ++
    "\r\nContent-Length: ".toList ++ decimal response.body.length ++ "\r\n".toList ++
    locationHeader ++ cookieHeaders ++ "\r\n".toList) ++ response.body

/-- `Response::send`. What could not be written is only reported. -/
def send (response : Response) : Action Writer Unit := do
  let cookieHeaders :=
    response.cookies.flatMap fun cookie => "Set-Cookie: ".toList ++ cookie ++ "\r\n".toList
  let header := "HTTP/1.1 ".toList ++ response.status.asStr ++ "\r\nContent-Type: ".toList ++
    response.contentType ++ "\r\nContent-Length: ".toList ++ decimal response.body.length ++
    "\r\n".toList ++ cookieHeaders ++ "\r\n".toList
  if ← Writer.writeAll (encode header) then
    let _ ← Writer.writeAll response.body
    pure ()
  else pure ()

end Response

end LocalServer
