import LocalServer.ConfigParser

/-! The grammar of configurations: syntax trees, the tokens they are written with and what
they mean. The parser accepts exactly the tokens of a tree and returns its meaning. -/

namespace LocalServer.ConfigGrammar
open Library Machine Text Parse ConfigParser

/-! Syntax trees -/

inductive LocationDirective where
  | root (path : Str)
  | index (name : Str)
  | methods (list : List Config.Method)
  | autoindex (on : Bool)
  | redirect (target : Str)
  | cgi (extension : Str) (interpreter : Option Str)
  deriving DecidableEq

structure LocationBlock where
  path : Str
  directives : List LocationDirective
  deriving DecidableEq

structure Number where
  text : Str
  value : Nat
  reads : parseU16 text = some value
  deriving DecidableEq

structure Size (profile : Profile) (tables : CaseTables) where
  text : Str
  bytes : Nat
  reads : parseBodySize profile tables text = .ok (.ok bytes)
  deriving DecidableEq

inductive ServerDirective (profile : Profile) (tables : CaseTables) where
  | host (name : Str)
  | port (number : Number)
  | serverName (name : Str)
  | clientMaxBodySize (size : Size profile tables)
  | errorPage (code : Number) (path : Str)
  | location (block : LocationBlock)
  deriving DecidableEq

/-- What the last of the directives that set something sets it to. -/
def lastOf {α β : Type} (pick : α → Option β) (directives : List α) : Option β :=
  (directives.filterMap pick).getLast?

namespace LocationDirective

def root? : LocationDirective → Option Str
  | .root path => some path
  | _ => none

def index? : LocationDirective → Option Str
  | .index name => some name
  | _ => none

def methods? : LocationDirective → Option (List Config.Method)
  | .methods list => some list
  | _ => none

def autoindex? : LocationDirective → Option Bool
  | .autoindex on => some on
  | _ => none

def redirect? : LocationDirective → Option Str
  | .redirect target => some target
  | _ => none

def cgi? : LocationDirective → Option CGI
  | .cgi extension interpreter => some ⟨extension, interpreter.getD (defaultInterpreter extension)⟩
  | _ => none

end LocationDirective

/-- For a repeated directive the last one holds; the methods of all of them are allowed. -/
def LocationBlock.meaning (block : LocationBlock) : Location where
  path := block.path
  root := (lastOf LocationDirective.root? block.directives).getD []
  index := lastOf LocationDirective.index? block.directives
  methods := (block.directives.filterMap LocationDirective.methods?).flatten
  autoindex := (lastOf LocationDirective.autoindex? block.directives).getD false
  redirect := lastOf LocationDirective.redirect? block.directives
  cgi := lastOf LocationDirective.cgi? block.directives

section
variable {profile : Profile} {tables : CaseTables}

namespace ServerDirective

def host? : ServerDirective profile tables → Option Str
  | .host name => some name
  | _ => none

def port? : ServerDirective profile tables → Option Nat
  | .port number => some number.value
  | _ => none

def serverName? : ServerDirective profile tables → Option Str
  | .serverName name => some name
  | _ => none

def size? : ServerDirective profile tables → Option Nat
  | .clientMaxBodySize size => some size.bytes
  | _ => none

def errorPage? : ServerDirective profile tables → Option (Nat × Str)
  | .errorPage code path => some (code.value, path)
  | _ => none

def location? : ServerDirective profile tables → Option LocationBlock
  | .location block => some block
  | _ => none

end ServerDirective

variable (profile tables) in
structure ServerBlock where
  directives : List (ServerDirective profile tables)
  host : Str
  isHost : lastOf ServerDirective.host? directives = some host
  port : Nat
  isPort : lastOf ServerDirective.port? directives = some port

def ServerBlock.meaning (block : ServerBlock profile tables) : ServerConfig where
  host := block.host
  port := block.port
  serverName := lastOf ServerDirective.serverName? block.directives
  clientMaxBodySize := (lastOf ServerDirective.size? block.directives).getD (1024 * 1024)
  errorPages := HashMap.ofPairs (block.directives.filterMap ServerDirective.errorPage?)
  locations := (block.directives.filterMap ServerDirective.location?).map LocationBlock.meaning

variable (profile tables) in
structure ConfigTree where
  servers : List (ServerBlock profile tables)
  nonempty : servers ≠ []

def ConfigTree.meaning (tree : ConfigTree profile tables) : Config :=
  ⟨tree.servers.map ServerBlock.meaning⟩

end

def values (words : List Str) : List TokenKind := words.map TokenKind.word ++ [.semicolon]

def methodName : Config.Method → Str
  | .get => "GET".toList
  | .post => "POST".toList
  | .delete => "DELETE".toList

namespace LocationDirective

def name : LocationDirective → String
  | .root _ => "root"
  | .index _ => "index"
  | .methods _ => "methods"
  | .autoindex _ => "autoindex"
  | .redirect _ => "redirect"
  | .cgi _ _ => "cgi"

def words : LocationDirective → List Str
  | .root path => [path]
  | .index name => [name]
  | .methods list => list.map methodName
  | .autoindex on => [if on then "on".toList else "off".toList]
  | .redirect target => [target]
  | .cgi extension interpreter => extension :: interpreter.toList

def kinds (item : LocationDirective) : List TokenKind :=
  .word item.name.toList :: values item.words

theorem written_iff {item : LocationDirective} {name : String} {consumed : List TokenKind} :
    .word name.toList :: consumed = item.kinds ↔ item.name = name ∧ consumed = values item.words := by
  rw [kinds, List.cons.injEq, TokenKind.word.injEq, String.toList_inj, eq_comm]

end LocationDirective

def LocationBlock.kinds (block : LocationBlock) : List TokenKind :=
  .word block.path :: .lBrace :: block.directives.flatMap LocationDirective.kinds ++ [.rBrace]

section
variable {profile : Profile} {tables : CaseTables}

namespace ServerDirective

def name : ServerDirective profile tables → String
  | .host _ => "host"
  | .port _ => "port"
  | .serverName _ => "server_name"
  | .clientMaxBodySize _ => "client_max_body_size"
  | .errorPage _ _ => "error_page"
  | .location _ => "location"

def tail : ServerDirective profile tables → List TokenKind
  | .host name => values [name]
  | .port number => values [number.text]
  | .serverName name => values [name]
  | .clientMaxBodySize size => values [size.text]
  | .errorPage code path => values [code.text, path]
  | .location block => block.kinds

def kinds (item : ServerDirective profile tables) : List TokenKind :=
  .word item.name.toList :: item.tail

theorem written_iff {item : ServerDirective profile tables} {name : String}
    {consumed : List TokenKind} :
    .word name.toList :: consumed = item.kinds ↔ item.name = name ∧ consumed = item.tail := by
  rw [kinds, List.cons.injEq, TokenKind.word.injEq, String.toList_inj, eq_comm]

end ServerDirective

def ServerBlock.kinds (block : ServerBlock profile tables) : List TokenKind :=
  .lBrace :: block.directives.flatMap ServerDirective.kinds ++ [.rBrace]

def ConfigTree.kinds (tree : ConfigTree profile tables) : List TokenKind :=
  tree.servers.flatMap fun block => .word "server".toList :: block.kinds

def ServerDirective.Named (item : ServerDirective profile tables) : Prop :=
  ∀ block, item.location? = some block → block.path ≠ []

def ServerBlock.Named (block : ServerBlock profile tables) : Prop :=
  ∀ item ∈ block.directives, item.Named

def ConfigTree.Named (tree : ConfigTree profile tables) : Prop :=
  ∀ block ∈ tree.servers, block.Named

end

theorem lastOf_cons {α β : Type} (pick : α → Option β) (first : α) (rest : List α) :
    lastOf pick (first :: rest) = (lastOf pick rest).or (pick first) := by
  unfold lastOf
  cases picked : pick first with
  | none => simp [picked]
  | some b =>
    rw [List.filterMap_cons_some picked, List.getLast?_cons]
    cases (rest.filterMap pick).getLast? <;> rfl

def LocationDirective.apply (loc : Location) : LocationDirective → Location
  | .root path => { loc with root := path }
  | .index name => { loc with index := some name }
  | .methods list => { loc with methods := loc.methods ++ list }
  | .autoindex on => { loc with autoindex := on }
  | .redirect target => { loc with redirect := some target }
  | .cgi extension interpreter =>
    { loc with cgi := some ⟨extension, interpreter.getD (defaultInterpreter extension)⟩ }

theorem foldl_apply_location (items : List LocationDirective) (loc : Location) :
    items.foldl LocationDirective.apply loc =
      { path := loc.path
        root := (lastOf LocationDirective.root? items).getD loc.root
        index := (lastOf LocationDirective.index? items).or loc.index
        methods := loc.methods ++ (items.filterMap LocationDirective.methods?).flatten
        autoindex := (lastOf LocationDirective.autoindex? items).getD loc.autoindex
        redirect := (lastOf LocationDirective.redirect? items).or loc.redirect
        cgi := (lastOf LocationDirective.cgi? items).or loc.cgi } := by
  induction items generalizing loc with
  | nil => simp [lastOf]
  | cons item items ih =>
    rw [List.foldl_cons, ih]
    cases item <;> simp [lastOf_cons, LocationDirective.apply, LocationDirective.root?,
      LocationDirective.index?, LocationDirective.methods?, LocationDirective.autoindex?,
      LocationDirective.redirect?, LocationDirective.cgi?, List.filterMap_cons]

/-- Directives applied one after the other give the meaning of their block. -/
theorem meaning_eq_foldl (block : LocationBlock) :
    block.meaning = block.directives.foldl LocationDirective.apply (newLocation block.path) := by
  rw [foldl_apply_location]
  simp [LocationBlock.meaning, newLocation]

section
variable {profile : Profile} {tables : CaseTables}

def ServerDirective.apply (fields : Fields) : ServerDirective profile tables → Fields
  | .host name => { fields with host := some name }
  | .port number => { fields with port := some number.value }
  | .serverName name => { fields with serverName := some name }
  | .clientMaxBodySize size => { fields with clientMaxBodySize := size.bytes }
  | .errorPage code path => { fields with errorPages := fields.errorPages.insert code.value path }
  | .location block => { fields with locations := fields.locations ++ [block.meaning] }

theorem foldl_apply_server (items : List (ServerDirective profile tables)) (fields : Fields) :
    items.foldl ServerDirective.apply fields =
      { host := (lastOf ServerDirective.host? items).or fields.host
        port := (lastOf ServerDirective.port? items).or fields.port
        serverName := (lastOf ServerDirective.serverName? items).or fields.serverName
        clientMaxBodySize := (lastOf ServerDirective.size? items).getD fields.clientMaxBodySize
        errorPages := (items.filterMap ServerDirective.errorPage?).foldl
          (fun map pair => map.insert pair.1 pair.2) fields.errorPages
        locations := fields.locations ++
          (items.filterMap ServerDirective.location?).map LocationBlock.meaning } := by
  induction items generalizing fields with
  | nil => simp [lastOf]
  | cons item items ih =>
    rw [List.foldl_cons, ih]
    cases item <;> simp [lastOf_cons, ServerDirective.apply, ServerDirective.host?,
      ServerDirective.port?, ServerDirective.serverName?, ServerDirective.size?,
      ServerDirective.errorPage?, ServerDirective.location?, List.filterMap_cons]

theorem foldl_new_server (block : ServerBlock profile tables) :
    block.directives.foldl ServerDirective.apply Fields.new =
      ⟨some block.host, some block.port, block.meaning.serverName, block.meaning.clientMaxBodySize,
        block.meaning.errorPages, block.meaning.locations⟩ := by
  rw [foldl_apply_server, block.isHost, block.isPort]
  simp [ServerBlock.meaning, Fields.new, HashMap.ofPairs]

end

end LocalServer.ConfigGrammar
