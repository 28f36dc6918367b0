import LocalServer.Cgi
import LocalServer.Config

/-! `src/handler.rs`: from a request and a configuration to a response. -/

namespace LocalServer
open Library Utf8 Text FileSystem

inductive Access.Kind where
  | stat
  | read
  | list
  | createDirectories
  | write
  | remove
  | execute
  deriving DecidableEq, Repr

structure Access where
  kind : Access.Kind
  path : Path
  deriving DecidableEq, Repr

/-- What a request can change. The accesses only record what was asked for. -/
structure World where
  files : FileSystem
  sessions : SessionStore
  accesses : List Access

def filePath (name : Str) : Path := Path.ofBytes (encode name)

namespace World

/-! The calls of `std::fs` and of the script runner, each with its entry in the log. -/

def log (world : World) (kind : Access.Kind) (path : Path) : World :=
  { world with accesses := world.accesses ++ [⟨kind, path⟩] }

def metadata (path : Path) : Action World (Except IoError Node) := fun world =>
  (world.files.metadata path, world.log .stat path)

def read (path : Path) : Action World (Except IoError Bytes) := fun world =>
  (world.files.read path, world.log .read path)

def readDir (path : Path) : Action World (Except IoError (List Name × List Name)) := fun world =>
  (world.files.readDir path, world.log .list path)

/-- `DirEntry::metadata`, for an entry of a directory that was listed under `path`. -/
def entryMetadata (path : Path) (place : List Name) (name : Name) : Action World (Option Node) :=
  fun world => (world.files.entryMetadata place name,
    world.log .stat ⟨path.absolute, path.components ++ [name], false⟩)

def createDirAll (path : Path) : Action World (Except IoError Unit) := fun world =>
  ((world.files.createDirAll path).1,
    { world.log .createDirectories path with files := (world.files.createDirAll path).2 })

def write (path : Path) (contents : Bytes) : Action World (Except IoError Unit) := fun world =>
  ((world.files.write path contents).1,
    { world.log .write path with files := (world.files.write path contents).2 })

def removeFile (path : Path) : Action World (Except IoError Unit) := fun world =>
  ((world.files.removeFile path).1,
    { world.log .remove path with files := (world.files.removeFile path).2 })

def runScript (platform : Platform) (runner : CgiRunner) (request : Request) :
    Action World Response := fun world =>
  ((runner.run platform request world.files).1,
    { world.log .execute (filePath runner.scriptPath) with
      files := (runner.run platform request world.files).2 })

end World

namespace Handler

def getContentType (path : Str) : Str :=
  if endsWith path ".html".toList then "text/html".toList
  else if endsWith path ".css".toList then "text/css".toList
  else if endsWith path ".js".toList then "application/javascript".toList
  else if endsWith path ".png".toList then "image/png".toList
  else if endsWith path ".jpg".toList then "image/jpeg".toList
  else if endsWith path ".json".toList then "application/json".toList
  else if endsWith path ".txt".toList then "text/plain".toList
  else "application/octet-stream".toList

/-- `max_by_key`: the last of the elements with the largest key. -/
def maxByKey {α : Type} (key : α → Nat) : List α → Option α
  | [] => none
  | a :: rest =>
    match maxByKey key rest with
    | none => some a
    | some best => if key a ≤ key best then some best else some a

def matchLocation (path : Str) (config : ServerConfig) : Option Location :=
  maxByKey (fun loc => (encode loc.path).length)
    (config.locations.filter fun loc => startsWith path loc.path)

theorem mem_of_maxByKey {α : Type} {key : α → Nat} {list : List α} {a : α}
    (best : maxByKey key list = some a) : a ∈ list := by
  induction list generalizing a with
  | nil => cases best
  | cons first rest ih =>
    rw [maxByKey] at best
    cases later : maxByKey key rest with
    | none =>
      rw [later] at best
      cases best
      exact List.mem_cons_self
    | some other =>
      rw [later] at best
      dsimp only at best
      split_ifs at best
      · cases best
        exact List.mem_cons_of_mem _ (ih later)
      · cases best
        exact List.mem_cons_self

theorem maxByKey_eq_none {α : Type} {key : α → Nat} {list : List α} :
    maxByKey key list = none ↔ list = [] := by
  cases list with
  | nil => simp [maxByKey]
  | cons first rest =>
    rw [maxByKey]
    cases maxByKey key rest with
    | none => simp
    | some best =>
      dsimp only
      split_ifs <;> simp

theorem le_of_maxByKey {α : Type} {key : α → Nat} {list : List α} {a : α}
    (best : maxByKey key list = some a) : ∀ b ∈ list, key b ≤ key a := by
  induction list generalizing a with
  | nil => cases best
  | cons first rest ih =>
    rw [maxByKey] at best
    intro b member
    cases later : maxByKey key rest with
    | none =>
      rw [later] at best
      cases best
      rw [maxByKey_eq_none.mp later, List.mem_singleton] at member
      rw [member]
    | some other =>
      rw [later] at best
      dsimp only at best
      have below := ih later
      rcases List.mem_cons.mp member with rfl | isLater
      · split_ifs at best with small <;> cases best <;> omega
      · have bound := below b isLater
        split_ifs at best with small <;> cases best <;> omega

theorem matchLocation_leads {path : Str} {config : ServerConfig} {loc : Location}
    (matched : matchLocation path config = some loc) :
    loc ∈ config.locations ∧ startsWith path loc.path = true :=
  List.mem_filter.mp (mem_of_maxByKey matched)

theorem matchLocation_longest {path : Str} {config : ServerConfig} {loc : Location}
    (matched : matchLocation path config = some loc) :
    ∀ other ∈ config.locations, startsWith path other.path = true →
      (encode other.path).length ≤ (encode loc.path).length :=
  fun other member leads => le_of_maxByKey matched other (List.mem_filter.mpr ⟨member, leads⟩)

def isMethodAllowed (method : Request.Method) (loc : Location) : Bool :=
  loc.methods.isEmpty || loc.methods.any fun allowed =>
    match allowed, method with
    | .get, .get => true
    | .post, .post => true
    | .delete, .delete => true
    | _, _ => false

def errorCode : StatusCode → Option Nat
  | .notFound => some 404
  | .forbidden => some 403
  | .internalServerError => some 500
  | .badRequest => some 400
  | .methodNotAllowed => some 405
  | .contentTooLarge => some 413
  | .ok => none

def errorResponse (status : StatusCode) (config : ServerConfig) : Action World Response :=
  match (errorCode status).bind config.errorPages.get with
  | none => pure (.error status)
  | some pagePath => do
    match ← World.read (filePath pagePath) with
    | .ok contents => pure (.new status "text/html".toList contents)
    | .error _ => pure (.error status)

def entryRow (urlPath : Str) (name : Name) (found : Node) : Str :=
  let nameStr := fromUtf8Lossy name
  let (displayName, size) := match found with
    | .directory _ => (nameStr ++ "/".toList, "-".toList)
    | .file _ contents => (nameStr, Response.decimal contents.length ++ " bytes".toList)
  let href := trimEndMatches '/' urlPath ++ "/".toList ++ displayName
  "<tr><td><a href='".toList ++ href ++ "'>".toList ++ displayName ++ "</a></td><td>".toList ++
    size ++ "</td></tr>\n".toList

/-- The rows of the entries in order; an entry whose metadata cannot be read is left out. -/
def entryRows (urlPath : Str) (path : Path) (place : List Name) : List Name → Action World Str
  | [] => pure []
  | name :: names => do
    match ← World.entryMetadata path place name with
    | none => entryRows urlPath path place names
    | some found => do
      let rows ← entryRows urlPath path place names
      pure (entryRow urlPath name found ++ rows)

def parentRow (urlPath : Str) : Str :=
  if urlPath = "/".toList then []
  else
    "<tr><td><a href='".toList ++ (Path.parentText urlPath).getD "/".toList ++
      "/'>..</a></td><td>-</td><td>-</td></tr>\n".toList

def listingPage (path rows : Str) : Str :=
  "<!DOCTYPE html>
<html>
<head>
    <title>Index of ".toList ++ path ++ "</title>
    <style>
        body  \x7b font-family: monospace; padding: 2rem; \x7d
        h1    \x7b border-bottom: 1px solid #ccc; padding-bottom: 0.5rem; \x7d
        table \x7b border-collapse: collapse; width: 100%; \x7d
        td    \x7b padding: 0.3rem 1rem; \x7d
        tr:hover \x7b background: #f5f5f5; \x7d
        a     \x7b text-decoration: none; color: #0066cc; \x7d
        a:hover \x7b text-decoration: underline; \x7d
    </style>
</head>
<body>
    <h1>Index of ".toList ++ path ++ "</h1>
    <table>
        <tr><th align='left'>Name</th><th align='left'>Size</th></tr>
        ".toList ++ rows ++ "
    </table>
</body>
</html>".toList

def serveDirectory (urlPath dirPath : Str) (config : ServerConfig) : Action World Response :=
  if ((matchLocation urlPath config).map Location.autoindex).getD false then do
    match ← World.readDir (filePath dirPath) with
    | .error _ => errorResponse .internalServerError config
    | .ok (place, names) => do
      let rows ← entryRows urlPath (filePath dirPath) place names
      pure (.new .ok "text/html".toList
        (encode (listingPage urlPath (parentRow urlPath ++ rows))))
  else errorResponse .forbidden config

/-- The end of `serve_file`, once something was found under the path. -/
def serveFound (path file : Str) (found : Node) (config : ServerConfig) : Action World Response :=
  if found.isDirectory then do
    match ← World.read (filePath (trimEndMatches '/' file ++ "/index.html".toList)) with
    | .ok contents => pure (.new .ok "text/html".toList contents)
    | .error _ => serveDirectory path file config
  else do
    match ← World.read (filePath file) with
    | .ok contents => pure (.new .ok (getContentType path) contents)
    | .error _ => errorResponse .notFound config

def serveFile (path root : Str) (config : ServerConfig) : Action World Response := do
  match ← World.metadata (filePath (root ++ path)) with
  | .ok found => serveFound path (root ++ path) found config
  | .error _ => do
    -- once more without trailing slashes; what is served is still the path with them
    match ← World.metadata (filePath (root ++ trimEndMatches '/' path)) with
    | .ok found => serveFound path (root ++ path) found config
    | .error _ => errorResponse .notFound config

/-- `create_dir_all` on the parent of a path, if it has one. -/
def createParent (path : Path) : Action World (Except IoError Unit) :=
  match path.parent with
  | none => pure (.ok ())
  | some parent => World.createDirAll parent

def handlePost (request : Request) (root : Str) (config : ServerConfig) : Action World Response :=
  if request.body = [] then errorResponse .badRequest config
  else do
    match ← createParent (filePath (root ++ request.path)) with
    | .error _ => errorResponse .internalServerError config
    | .ok () => do
      match ← World.write (filePath (root ++ request.path)) request.body with
      | .ok () => pure (.new .ok "text/html".toList (encode
          ("<html><body><h1>Uploaded to ".toList ++ request.path ++ "</h1></body></html>".toList)))
      | .error _ => errorResponse .internalServerError config

def handleDelete (request : Request) (root : Str) (config : ServerConfig) : Action World Response := do
  match ← World.removeFile (filePath (root ++ request.path)) with
  | .ok () => pure (.new .ok "text/html".toList (encode
      ("<html><body><h1>Deleted ".toList ++ request.path ++ "</h1></body></html>".toList)))
  | .error _ => errorResponse .notFound config

/-! Session routes -/

/-- One `key=value` pair of a form; a pair without `=` is skipped. -/
def insertParam (params : HashMap Str Str) (pair : Str) : HashMap Str Str :=
  match splitOnce '=' pair with
  | none => params
  | some (key, value) => params.insert key value

def formParams (body : Bytes) : HashMap Str Str :=
  ((fromUtf8Lossy body).splitOnP (· == '&')).foldl insertParam HashMap.empty

def credentialsMatch (body : Bytes) : Bool :=
  let params := formParams body
  (params.get "username".toList).getD [] = "admin".toList &&
    (params.get "password".toList).getD [] = "secret".toList

def handleLogin (clock : Clock) (request : Request) : Action World Response := fun world =>
  if credentialsMatch request.body then
    let (sessionId, sessions) := world.sessions.create clock
    let (_, sessions) := sessions.set clock sessionId "username".toList "admin".toList
    ((Response.new .ok "text/html".toList
        (utf8 "<html><body><h1>Logged in!</h1></body></html>")).setCookie
          "session_id".toList sessionId, { world with sessions })
  else (.new .ok "text/html".toList
    (utf8 "<html><body><h1>Invalid credentials</h1></body></html>"), world)

def handleLogout (request : Request) : Action World Response := fun world =>
  let sessions := match request.sessionId with
    | some id => world.sessions.destroy id
    | none => world.sessions
  ((Response.new .ok "text/html".toList
      (utf8 "<html><body><h1>Logged out</h1></body></html>")).setCookie
        "session_id".toList "deleted; Max-Age=0".toList, { world with sessions })

def sessionUser (clock : Clock) (request : Request) : Action World (Option Str) := fun world =>
  match request.sessionId with
  | none => (none, world)
  | some id =>
    let (username, sessions) := world.sessions.getValue clock id "username".toList
    (username, { world with sessions })

def handleWhoami (clock : Clock) (request : Request) (config : ServerConfig) :
    Action World Response := do
  match ← sessionUser clock request with
  | some name => pure (.new .ok "text/html".toList (encode
      ("<html><body><h1>You are: ".toList ++ name ++ "</h1></body></html>".toList)))
  | none => errorResponse .forbidden config

/-! Routing -/

def findCgi (path : Str) (loc : Location) : Option CGI :=
  loc.cgi.filter fun cgi => endsWith path cgi.extension

def stripLocationPrefix (urlPath locationPath : Str) : Str :=
  trimStartMatches '/' ((stripPrefix locationPath urlPath).getD urlPath)

def scriptPath (path : Str) (loc : Location) : Str :=
  loc.root ++ "/".toList ++ stripLocationPrefix path loc.path

section
variable (platform : Platform) (clock : Clock)

/-- `handle_with_route`. Uploads, deletions and static files use the whole request path;
the source also computes the stripped one for the first two, and drops it. -/
def handleWithRoute (request : Request) (config : ServerConfig) : Action World Response :=
  match matchLocation request.path config with
  | none => errorResponse .notFound config
  | some loc =>
    if isMethodAllowed request.method loc then
      match request.method with
      | .get =>
        match findCgi request.path loc with
        | some cgi =>
          World.runScript platform (.new cgi.interpreter (scriptPath request.path loc)) request
        | none => serveFile request.path loc.root config
      | .post =>
        match findCgi request.path loc with
        | some cgi =>
          World.runScript platform (.new cgi.interpreter (scriptPath request.path loc)) request
        | none => handlePost request loc.root config
      | .delete => handleDelete request loc.root config
      | .unknown _ => errorResponse .methodNotAllowed config
    else errorResponse .methodNotAllowed config

/-- The session routes come before the locations. -/
def dispatch (request : Request) (config : ServerConfig) : Action World Response :=
  if request.path = "/login".toList ∧ request.method = .post then handleLogin clock request
  else if request.path = "/logout".toList ∧ request.method = .post then handleLogout request
  else if request.path = "/whoami".toList then handleWhoami clock request config
  else handleWithRoute platform request config

def redirectPage (target : Str) : Str :=
  "<html><body>Redirecting to <a href='".toList ++ target ++ "'>".toList ++ target ++
    "</a></body></html>".toList

/-- A redirect of the matching location comes before everything else. -/
def buildResponse (request : Request) (config : ServerConfig) : Action World Response :=
  match (matchLocation request.path config).bind Location.redirect with
  | some target => pure (.redirect target (encode (redirectPage target)))
  | none => dispatch platform clock request config

/-- The configuration that `handle_with_root` makes up. -/
def rootConfig (root : Str) : ServerConfig :=
  ⟨"127.0.0.1".toList, 8080, none, 1024 * 1024, HashMap.empty,
    [⟨"/".toList, root, some "index.html".toList, [], false, none, none⟩]⟩

/-- `handle_with_root`: the answer goes to the stream at once. -/
def handleWithRoot (request : Request) (root : Str) (stream : Writer) : Action World Writer := do
  let response ← buildResponse platform clock request (rootConfig root)
  pure (response.send stream).2

end

def webLocation : Location :=
  ⟨"/".toList, "./www".toList, none, [], false, none, none⟩

def webConfig : ServerConfig :=
  ⟨"127.0.0.1".toList, 8080, none, 1048576, HashMap.empty, [webLocation]⟩

def quietPlatform : Platform := ⟨asciiTables, fun _ _ => none⟩

def emptyWorld : World := ⟨FileSystem.bare, SessionStore.new, []⟩

def getRequest (path : String) : Request :=
  ⟨.get, path.toList, "HTTP/1.1".toList, HashMap.empty, []⟩

end Handler

end LocalServer
