import LocalServer.Config
import LocalServer.Library.Machine
import LocalServer.Library.Numeral
import LocalServer.Library.Parsing
import LocalServer.Tokenizer

/-! `src/config/parser.rs` and `src/config/errors.rs`: from tokens to a configuration.
Sizes are read by `parse_body_size` of `src/config/mod.rs`. -/

namespace LocalServer
open Library Machine Text Numeral

structure Config where
  servers : List ServerConfig

/-- The line is a token position wherever the parser reports its own. -/
structure ParseError where
  message : Str
  line : Nat
  deriving DecidableEq, Repr

inductive Stop where
  | rejected (error : ParseError)
  | panicked (panic : Panic)
  deriving DecidableEq, Repr

def invalidSize (s : Str) : Except Str Nat := .error ("Invalid size: ".toList ++ s)

/-- Converts `10MB`, `1kb` or `500` into bytes. -/
def parseBodySize (profile : Profile) (tables : CaseTables) (s : Str) : Checked (Except Str Nat) :=
  let s := toLowercase tables s
  match stripSuffix "mb".toList s with
  | some n =>
    match fromStrRadix 10 usizeLimit (trim n) with
    | some n => do
      let kilobytes ← mul profile n 1024
      let bytes ← mul profile kilobytes 1024
      pure (.ok bytes)
    | none => pure (invalidSize s)
  | none =>
    match stripSuffix "kb".toList s with
    | some n =>
      match fromStrRadix 10 usizeLimit (trim n) with
      | some n => do
        let bytes ← mul profile n 1024
        pure (.ok bytes)
      | none => pure (invalidSize s)
    | none =>
      match fromStrRadix 10 usizeLimit (trim s) with
      | some n => pure (.ok n)
      | none => pure (invalidSize s)

/-- `str::parse::<u16>` -/
def parseU16 (s : Str) : Option Nat := fromStrRadix 10 UInt16.size s

def TokenKind.debug (tables : UnicodeTables) : TokenKind → Str
  | .word text => "Word(".toList ++ debugStr tables text ++ ")".toList
  | .lBrace => "LBrace".toList
  | .rBrace => "RBrace".toList
  | .semicolon => "Semicolon".toList

abbrev ParseResult (α : Type) := Parse Stop Token α

namespace ConfigParser
open Parse

def new (tokens : List Token) : Cursor Token := ⟨tokens, 0⟩

def reject {α : Type} (message : Str) (line : Nat) : ParseResult α :=
  fail (.rejected ⟨message, line⟩)

/-- An error at `self.pos`. -/
def rejectHere {α : Type} (message : Str) : ParseResult α :=
  position >>= fun pos => fail (.rejected ⟨message, pos⟩)

/-- No loop below is cut short. -/
def exhausted : Stop := .panicked .outOfFuel

def peekKind : ParseResult (Option TokenKind) := peek Token.kind

def quoted (before word : Str) : Str := before ++ " '".toList ++ word ++ "'".toList

section
variable (profile : Profile) (tables : UnicodeTables)

/-! Low level token operations -/

def expectWord : ParseResult Str := do
  match ← next with
  | some ⟨.word w, _⟩ => pure w
  | some ⟨other, line⟩ => reject ("Expected a value, got ".toList ++ other.debug tables) line
  | none => reject "Unexpected end of config".toList 0

def expect (expected : TokenKind) : ParseResult Unit := do
  match ← next with
  | some ⟨kind, line⟩ =>
    if kind = expected then pure ()
    else reject ("Expected ".toList ++ expected.debug tables ++ ", got ".toList ++
      kind.debug tables) line
  | none => reject ("Expected ".toList ++ expected.debug tables ++
      " but reached end of config".toList) 0

def expectValue : ParseResult Str := do
  let value ← expectWord tables
  expect tables .semicolon
  pure value

def blockTurn {σ : Type} (parseDirective : Str → σ → ParseResult σ) (block : Str) (state : σ) :
    ParseResult (Turn σ (Bool × σ)) := do
  match ← peekKind with
  | none => pure (.done (false, state))
  | some .rBrace => next >>= fun _ => pure (.done (true, state))
  | some (.word _) => do
    let directive ← expectWord tables
    let state ← parseDirective directive state
    pure (.again state)
  | some other =>
    rejectHere ("Unexpected token ".toList ++ other.debug tables ++ " in ".toList ++ block)

/-! Location blocks -/

/-- The variables of `parse_location` are the fields of the location. -/
def newLocation (path : Str) : Location := ⟨path, [], none, [], false, none, none⟩

def methodNamed (m : Str) : ParseResult Config.Method :=
  if m = "GET".toList then pure .get
  else if m = "POST".toList then pure .post
  else if m = "DELETE".toList then pure .delete
  else rejectHere (quoted "Unknown method".toList m)

def methodTurn (methods : List Config.Method) :
    ParseResult (Turn (List Config.Method) (List Config.Method)) := do
  match ← peekKind with
  | some (.word _) => do
    let m ← expectWord tables
    let method ← methodNamed m
    pure (.again (methods ++ [method]))
  | _ => pure (.done methods)

def autoindexValue (val : Str) : ParseResult Bool :=
  if val = "on".toList then pure true
  else if val = "off".toList then pure false
  else rejectHere (quoted "autoindex must be 'on' or 'off', got".toList val)

def defaultInterpreter (ext : Str) : Str :=
  if ext = ".py".toList then "python3".toList
  else if ext = ".php".toList then "php".toList
  else "sh".toList

def interpreter (ext : Str) : ParseResult Str := do
  match ← peekKind with
  | some (.word _) => expectWord tables
  | _ => pure (defaultInterpreter ext)

def locationDirective (directive : Str) (loc : Location) : ParseResult Location :=
  if directive = "root".toList then do
    let root ← expectValue tables
    pure { loc with root }
  else if directive = "index".toList then do
    let index ← expectValue tables
    pure { loc with index := some index }
  else if directive = "methods".toList then do
    let methods ← loop exhausted (methodTurn tables) loc.methods
    expect tables .semicolon
    pure { loc with methods }
  else if directive = "autoindex".toList then do
    let val ← expectWord tables
    let autoindex ← autoindexValue val
    expect tables .semicolon
    pure { loc with autoindex }
  else if directive = "redirect".toList then do
    let redirect ← expectValue tables
    pure { loc with redirect := some redirect }
  else if directive = "cgi".toList then do
    let ext ← expectWord tables
    let interpreter ← interpreter tables ext
    expect tables .semicolon
    pure { loc with cgi := some ⟨ext, interpreter⟩ }
  else rejectHere (quoted "Unknown location directive".toList directive)

def locationTurn : Location → ParseResult (Turn Location (Bool × Location)) :=
  blockTurn tables (locationDirective tables) "location block".toList

def parseLocation : ParseResult Location := do
  let path ← expectWord tables
  expect tables .lBrace
  let (closed, loc) ← loop exhausted (locationTurn tables) (newLocation path)
  if !closed then
    rejectHere (quoted "Unclosed location block".toList path ++ " — missing '\x7d'".toList)
  else if path = [] then rejectHere "Location path cannot be empty".toList
  else pure loc

/-! Server blocks -/

/-- The variables of `parse_server`. -/
structure Fields where
  host : Option Str
  port : Option Nat
  serverName : Option Str
  clientMaxBodySize : Nat
  errorPages : HashMap Nat Str
  locations : List Location

def Fields.new : Fields := ⟨none, none, none, 1024 * 1024, HashMap.empty, []⟩

def serverDirective (directive : Str) (fields : Fields) : ParseResult Fields :=
  if directive = "host".toList then do
    let host ← expectValue tables
    pure { fields with host := some host }
  else if directive = "port".toList then do
    let raw ← expectWord tables
    match parseU16 raw with
    | none => rejectHere (quoted "Invalid port number".toList raw)
    | some port => do
      expect tables .semicolon
      pure { fields with port := some port }
  else if directive = "server_name".toList then do
    let serverName ← expectValue tables
    pure { fields with serverName := some serverName }
  else if directive = "client_max_body_size".toList then do
    let raw ← expectWord tables
    match parseBodySize profile tables.toCaseTables raw with
    | .error panic => fail (.panicked panic)
    | .ok (.error message) => rejectHere message
    | .ok (.ok clientMaxBodySize) => do
      expect tables .semicolon
      pure { fields with clientMaxBodySize }
  else if directive = "error_page".toList then do
    let codeStr ← expectWord tables
    match parseU16 codeStr with
    | none => rejectHere (quoted "Invalid error code".toList codeStr)
    | some code => do
      let path ← expectValue tables
      pure { fields with errorPages := fields.errorPages.insert code path }
  else if directive = "location".toList then do
    let loc ← parseLocation tables
    pure { fields with locations := fields.locations ++ [loc] }
  else rejectHere (quoted "Unknown server directive".toList directive)

def serverTurn : Fields → ParseResult (Turn Fields (Bool × Fields)) :=
  blockTurn tables (serverDirective profile tables) "server block".toList

def parseServer : ParseResult ServerConfig := do
  expect tables .lBrace
  let (closed, fields) ← loop exhausted (serverTurn profile tables) Fields.new
  if !closed then rejectHere "Unclosed server block — missing '\x7d'".toList
  else
    match fields.host, fields.port with
    | none, _ => rejectHere "Server block missing 'host'".toList
    | some _, none => rejectHere "Server block missing 'port'".toList
    | some host, some port => pure ⟨host, port, fields.serverName, fields.clientMaxBodySize,
        fields.errorPages, fields.locations⟩

/-! Top level -/

def configTurn (servers : List ServerConfig) :
    ParseResult (Turn (List ServerConfig) (List ServerConfig)) := do
  match ← peekKind with
  | none => pure (.done servers)
  | some _ => do
    let word ← expectWord tables
    if word = "server".toList then do
      let server ← parseServer profile tables
      pure (.again (servers ++ [server]))
    else rejectHere (quoted "Unknown top-level directive".toList word)

def parseConfig : ParseResult Config := do
  let servers ← loop exhausted (configTurn profile tables) []
  match servers with
  | [] => reject "Config must define at least one server".toList 0
  | first :: rest => pure ⟨first :: rest⟩

end

end ConfigParser

end LocalServer
