import LocalServer.ErrorPages
import LocalServer.Exchanges
import LocalServer.Relevance

/-! What the server starts: for a request to a script one process, which is told of the
request what the query, the path, the method, the content type and the body say, and nothing
for any other request. -/

namespace LocalServer.Scripts
open Library Machine Action Utf8 Text Request Handler Server Loop Effects ErrorPages
  ResponseFraming Relevance

def barePath (path : Str) : Str := ((splitOnce '?' path).map Prod.fst).getD path

structure Scripted (request : Request) (config : ServerConfig) (loc : Location) (cgi : CGI) :
    Prop where
  matched : matchLocation request.path config = some loc
  direct : loc.redirect = none
  free : ¬SessionRoute request
  method : request.method = .get ∨ request.method = .post
  allowed : isMethodAllowed request.method loc = true
  found : findCgi request.path loc = some cgi

/-- The process for a request, told from the request as the client wrote it. -/
def commandFor (request : Request) (loc : Location) (cgi : CGI) : Command where
  program := cgi.interpreter
  argument := scriptPath (barePath request.path) loc
  environment := [
    ("QUERY_STRING".toList, Cgi.queryString request.path),
    ("REQUEST_METHOD".toList, methodStr request.method),
    ("PATH_INFO".toList, barePath request.path),
    ("CONTENT_LENGTH".toList, Response.decimal request.body.length),
    ("CONTENT_TYPE".toList, (request.headers.get "content-type".toList).getD []),
    ("SERVER_PROTOCOL".toList, "HTTP/1.1".toList),
    ("GATEWAY_INTERFACE".toList, "CGI/1.1".toList)]
  stdin := if request.body = [] then none else some request.body

/-- A process that answers: it is never seen to run past the deadline, and exits with status
zero. -/
structure Answers (child : Child) (output : Output) : Prop where
  inTime : ∀ elapsed ∈ child.running, elapsed ≤ 10 * nanosPerSec
  ended : child.output = some output
  success : output.success = true

section
variable {request : Request} {config : ServerConfig} {loc : Location} {cgi : CGI}

theorem route_of_scripted (scripted : Scripted request config loc cgi) :
    route request config = .script cgi loc := by
  rw [route_direct scripted.matched scripted.direct scripted.free, locationRoute,
    scripted.matched]
  dsimp only
  rw [if_pos scripted.allowed, scripted.found]
  rcases scripted.method with isGet | isPost
  · rw [isGet]
  · rw [isPost]

theorem scripted_of_route (isScript : route request config = .script cgi loc) :
    Scripted request config loc cgi := by
  have served : (route request config).location? = some loc := by
    rw [isScript]
    rfl
  obtain ⟨matched, direct, allowed, free⟩ := route_location served
  rw [route_direct matched direct free, locationRoute, matched] at isScript
  dsimp only at isScript
  rw [if_pos allowed] at isScript
  cases method : request.method with
  | get =>
    rw [method] at isScript
    cases found : findCgi request.path loc with
    | none =>
      rw [found] at isScript
      cases isScript
    | some other =>
      rw [found] at isScript
      cases isScript
      exact ⟨matched, direct, free, .inl method, allowed, found⟩
  | post =>
    rw [method] at isScript
    cases found : findCgi request.path loc with
    | none =>
      rw [found] at isScript
      cases isScript
    | some other =>
      rw [found] at isScript
      cases isScript
      exact ⟨matched, direct, free, .inr method, allowed, found⟩
  | delete =>
    rw [method] at isScript
    cases isScript
  | unknown name =>
    rw [method] at isScript
    cases isScript

end

/-- The runner hands on what the request said before its query was split off. -/
theorem command_splitQuery (request : Request) (loc : Location) (cgi : CGI) :
    (CgiRunner.new cgi.interpreter (scriptPath (splitQuery request).path loc)).command
      (splitQuery request) = commandFor request loc cgi := by
  have path : (splitQuery request).path = barePath request.path := path_splitQuery request
  unfold CgiRunner.command commandFor CgiRunner.new
  rw [path, get_query, get_splitQuery request (by decide), method_splitQuery, body_splitQuery,
    Option.getD_some]

theorem waitWithTimeout_inTime {timeout : Nat} {output : Option Output} {running : List Nat}
    (inTime : ∀ elapsed ∈ running, elapsed ≤ timeout) :
    Cgi.waitWithTimeout timeout output running = output := by
  induction running with
  | nil => rfl
  | cons elapsed running ih =>
    have early := inTime elapsed List.mem_cons_self
    rw [Cgi.waitWithTimeout, if_neg (by omega)]
    exact ih fun later member => inTime later (List.mem_cons_of_mem _ member)

theorem waitWithTimeout_eq_some {timeout : Nat} {output : Option Output} {found : Output}
    {running : List Nat} (waited : Cgi.waitWithTimeout timeout output running = some found) :
    (∀ elapsed ∈ running, elapsed ≤ timeout) ∧ output = some found := by
  induction running with
  | nil => exact ⟨nofun, waited⟩
  | cons elapsed running ih =>
    rw [Cgi.waitWithTimeout] at waited
    split_ifs at waited with late
    obtain ⟨earlier, same⟩ := ih waited
    refine ⟨?_, same⟩
    intro poll member
    rcases List.mem_cons.mp member with rfl | later
    · omega
    · exact earlier _ later

section
variable {platform other : Platform} {runner : CgiRunner} {request : Request} {files : FileSystem}

theorem run_answers {child : Child} {output : Output}
    (spawned : platform.spawn (runner.command request) files = some child)
    (answers : Answers child output) :
    runner.run platform request files =
      (Cgi.parseCgiOutput platform.tables output.stdout, child.files) := by
  unfold CgiRunner.run
  rw [spawned]
  dsimp only
  rw [waitWithTimeout_inTime answers.inTime, answers.ended]
  exact if_pos answers.success

/-- Without a process that answers there is nothing to relay. -/
theorem run_silent
    (silent : ∀ child output, platform.spawn (runner.command request) files = some child →
      ¬Answers child output) :
    (runner.run platform request files).1 = .error .internalServerError := by
  unfold CgiRunner.run
  cases spawned : platform.spawn (runner.command request) files with
  | none => rfl
  | some child =>
    dsimp only
    cases waited : Cgi.waitWithTimeout (10 * nanosPerSec) child.output child.running with
    | none => rfl
    | some output =>
      obtain ⟨inTime, ended⟩ := waitWithTimeout_eq_some waited
      have failed : ¬output.success = true :=
        fun success => silent child output spawned ⟨inTime, ended, success⟩
      dsimp only
      rw [if_neg failed]

theorem run_other (tables : platform.tables = other.tables)
    (agree : platform.spawn (runner.command request) files =
      other.spawn (runner.command request) files) :
    runner.run platform request files = runner.run other request files := by
  unfold CgiRunner.run
  rw [agree, tables]

end

/-! Replies -/

section
variable {platform other : Platform} {server : Server} {clock : Clock} {request : Request}
  {config : ServerConfig} {world : World}

theorem buildResponse_other (tables : platform.tables = other.tables)
    (agree : ∀ loc cgi, Scripted (splitQuery request) config loc cgi →
      platform.spawn (commandFor request loc cgi) world.files =
        other.spawn (commandFor request loc cgi) world.files) :
    buildResponse platform clock (splitQuery request) config world =
      buildResponse other clock (splitQuery request) config world := by
  rw [buildResponse_eq_follow, buildResponse_eq_follow]
  cases taken : route (splitQuery request) config with
  | script cgi loc =>
    have same := agree loc cgi (scripted_of_route taken)
    rw [← command_splitQuery] at same
    simp only [follow, World.runScript]
    rw [run_other tables same]
  | _ => rfl

variable {data : Bytes} (parsed : parse platform.tables data = .ok (some request))
include parsed

/-- What is answered depends on what one command does, if the request is for a script, and on
nothing else that processes do. -/
theorem respond_other (tables : platform.tables = other.tables)
    (agree : ∀ loc cgi, Scripted (splitQuery request) (server.matchConfig request) loc cgi →
      platform.spawn (commandFor request loc cgi) world.files =
        other.spawn (commandFor request loc cgi) world.files) :
    respond platform server clock data world = respond other server clock data world := by
  have parsed' : parse other.tables data = .ok (some request) := by rwa [← tables]
  rw [respond_request parsed, respond_request parsed', buildResponse_other tables agree]

variable (small : data.length ≤ (server.matchConfig request).clientMaxBodySize)
include small

variable {loc : Location} {cgi : CGI}
  (scripted : Scripted (splitQuery request) (server.matchConfig request) loc cgi)
include scripted

theorem respond_answers {child : Child} {output : Output}
    (spawned : platform.spawn (commandFor request loc cgi) world.files = some child)
    (answers : Answers child output) :
    respond platform server clock data world = .ok (.answered
      (Cgi.parseCgiOutput platform.tables output.stdout)
      { world.log .execute (filePath (scriptPath (barePath request.path) loc)) with
        files := child.files }) := by
  rw [← command_splitQuery] at spawned
  have ran := run_answers spawned answers
  have path : (splitQuery request).path = barePath request.path := path_splitQuery request
  rw [path] at ran
  rw [respond_some parsed (not_lt.mpr small), buildResponse_eq_follow, route_of_scripted scripted]
  simp only [follow, World.runScript, path]
  rw [ran]
  rfl

theorem respond_silent
    (silent : ∀ child output, platform.spawn (commandFor request loc cgi) world.files = some child →
      ¬Answers child output) :
    ∃ after, respond platform server clock data world =
      .ok (.answered (.error .internalServerError) after) := by
  rw [← command_splitQuery] at silent
  rw [respond_some parsed (not_lt.mpr small), buildResponse_eq_follow, route_of_scripted scripted]
  simp only [follow, World.runScript, run_silent silent]
  exact ⟨_, rfl⟩

end

/-- Of the processes that could be started, what is answered to a request depends on one: the
interpreter with the script's path, told the query, the path before it, the method, the content
type and the body. What it writes is what is relayed if it ends in time with status zero, and
any other end is a 500. A request for anything but a script starts nothing. -/
theorem script_relayed (platform : Platform) (server : Server) (clock : Clock) (data : Bytes)
    (world : World) (request : Request) (parsed : parse platform.tables data = .ok (some request))
    (small : data.length ≤ (server.matchConfig request).clientMaxBodySize) :
    (∀ loc cgi, Scripted (splitQuery request) (server.matchConfig request) loc cgi →
      (∀ child output, platform.spawn (commandFor request loc cgi) world.files = some child →
        Answers child output → respond platform server clock data world = .ok (.answered
          (Cgi.parseCgiOutput platform.tables output.stdout)
          { world.log .execute (filePath (scriptPath (barePath request.path) loc)) with
            files := child.files })) ∧
      ((∀ child output, platform.spawn (commandFor request loc cgi) world.files = some child →
        ¬Answers child output) → ∃ after, respond platform server clock data world =
          .ok (.answered (.error .internalServerError) after))) ∧
    ((∀ loc cgi, ¬Scripted (splitQuery request) (server.matchConfig request) loc cgi) →
      ∀ other : Platform, platform.tables = other.tables →
        respond platform server clock data world = respond other server clock data world) := by
  constructor
  · intro loc cgi scripted
    exact ⟨fun child output => respond_answers parsed small scripted,
      respond_silent parsed small scripted⟩
  · intro unscripted other tables
    exact respond_other parsed tables fun loc cgi scripted => absurd scripted (unscripted loc cgi)

def echoPlatform : Platform :=
  ⟨asciiTables, fun command files =>
    some ⟨[], some ⟨true, utf8 "Content-Type: text/plain\n\n" ++ command.stdin.getD [], []⟩, files⟩⟩

def echoCgi : CGI := ⟨".py".toList, "python3".toList⟩

def echoLocation : Location :=
  ⟨"/cgi/".toList, "./cgi".toList, none, [.post], false, none, some echoCgi⟩

def echoServer : Server := ⟨[{ webConfig with locations := [echoLocation] }], by simp⟩

def echoAsk : Bytes := utf8 "POST /cgi/echo.py?x HTTP/1.1\r\n\r\nhi"

theorem parse_echoAsk : ∃ request, parse asciiTables echoAsk = .ok (some request) ∧
    request.method = .post ∧ request.path = "/cgi/echo.py?x".toList ∧ request.body = utf8 "hi" := by
  apply parse_some
  decide +kernel

theorem config_echoServer (request : Request) :
    echoServer.matchConfig request = { webConfig with locations := [echoLocation] } :=
  List.mem_singleton.mp (matchConfig_mem echoServer request)

theorem scripted_echo {request : Request} (method : request.method = .post)
    (path : request.path = "/cgi/echo.py?x".toList) :
    Scripted (splitQuery request) { webConfig with locations := [echoLocation] } echoLocation
      echoCgi := by
  have bare : (splitQuery request).path = "/cgi/echo.py".toList := by
    rw [path_splitQuery, path]
    decide
  have posts : (splitQuery request).method = .post := (method_splitQuery request).trans method
  constructor
  · rw [bare]
    decide +kernel
  · rfl
  · unfold SessionRoute
    rw [bare, posts]
    decide
  · exact .inr posts
  · rw [posts]
    decide
  · rw [bare]
    decide +kernel

theorem script_relayed_echo : ∃ after,
    respond echoPlatform echoServer ⟨0, 0, 0⟩ echoAsk emptyWorld =
      .ok (.answered (.new .ok "text/plain".toList (utf8 "hi")) after) := by
  obtain ⟨request, parsed, method, path, body⟩ := parse_echoAsk
  have small : echoAsk.length ≤ (echoServer.matchConfig request).clientMaxBodySize := by
    rw [config_echoServer]
    decide +kernel
  have scripted := scripted_echo method path
  rw [← config_echoServer request] at scripted
  obtain ⟨relayed, -⟩ := (script_relayed echoPlatform echoServer ⟨0, 0, 0⟩ echoAsk emptyWorld
    request parsed small).1 echoLocation echoCgi scripted
  have stdin : (commandFor request echoLocation echoCgi).stdin = some (utf8 "hi") := by
    unfold commandFor
    dsimp only
    rw [body, if_neg (by decide +kernel)]
  have output : Cgi.parseCgiOutput asciiTables
      (utf8 "Content-Type: text/plain\n\n" ++ utf8 "hi") =
        .new .ok "text/plain".toList (utf8 "hi") := by decide +kernel
  rw [relayed _ _ rfl ⟨nofun, rfl, rfl⟩, stdin]
  exact ⟨_, congrArg (fun response => Except.ok (Reply.answered response _)) output⟩

/-! Runs -/

def Launches (server : Server) (command : Command) : Prop :=
  ∃ request, ∃ config ∈ server.configs, ∃ loc cgi,
    Scripted (splitQuery request) config loc cgi ∧ command = commandFor request loc cgi

section
variable {platform other : Platform} {server : Server} {listener : Fd}
  (tables : platform.tables = other.tables)
  (agree : ∀ command files, Launches server command →
    platform.spawn command files = other.spawn command files)
include tables agree

theorem respond_alike (clock : Clock) (data : Bytes) (world : World) :
    respond platform server clock data world = respond other server clock data world := by
  cases parsed : parse platform.tables data with
  | error panic =>
    have parsed' : parse other.tables data = .error panic := by rwa [← tables]
    simp only [respond, parsed, parsed', bind, Except.bind]
  | ok found =>
    cases found with
    | none =>
      have parsed' : parse other.tables data = .ok none := by rwa [← tables]
      simp only [respond, parsed, parsed', bind, Except.bind]
    | some request =>
      apply respond_other parsed tables
      intro loc cgi scripted
      have isConfig := matchConfig_mem server request
      exact agree _ _ ⟨request, _, isConfig, loc, cgi, scripted, rfl⟩

theorem handleRead_alike (clock : Clock) (fd : Fd) (results : List ReadResult) :
    handleRead platform server clock fd results = handleRead other server clock fd results := by
  have same : answer platform server clock fd = answer other server clock fd := by
    funext loop
    simp only [answer, respond_alike tables agree]
  unfold handleRead
  rw [same]

theorem step_alike {loop next : Loop} {label : Label}
    (steps : Step platform server listener loop label next) :
    Step other server listener loop label next := by
  cases steps with
  | wait phase reported distinct bounded each expired =>
    exact .wait phase reported distinct bounded each expired
  | waitFailed phase => exact .waitFailed phase
  | accept phase isListener fresh => exact .accept phase isListener fresh
  | write phase isClient writable => exact .write phase isClient writable
  | read phase isClient readable =>
    rw [handleRead_alike tables agree]
    exact .read phase isClient readable
  | again phase => exact .again phase
  | other => exact .other

end

/-- Two platforms that agree on the commands which requests to the server start give the same
runs, whatever else they would start. -/
theorem runs_alike (platform other : Platform) (server : Server) (listener : Fd)
    (tables : platform.tables = other.tables)
    (agree : ∀ command files, Launches server command →
      platform.spawn command files = other.spawn command files)
    (guard : Loop → Label → Prop) (start : Loop → Prop) (loop : Loop) :
    Reaches (Step platform server listener) guard start loop ↔
      Reaches (Step other server listener) guard start loop := by
  constructor
  · intro reached
    exact reached.of_steps fun state label next steps => step_alike tables agree steps
  · intro reached
    have agree' : ∀ command files, Launches server command →
        other.spawn command files = platform.spawn command files :=
      fun command files launches => (agree command files launches).symm
    exact reached.of_steps fun state label next steps => step_alike tables.symm agree' steps

/-- A platform that starts anything runs a server without scripts as one that starts nothing. -/
theorem runs_alike_webWritten :
    Reaches (Step echoPlatform webServer 3) Exchanges.Ordinary Initial Timeouts.webWritten := by
  have nothing : ∀ command, ¬Launches webServer command := by
    rintro command ⟨request, config, isConfig, loc, cgi, scripted, -⟩
    rw [List.mem_singleton.mp isConfig] at scripted
    have member := (matchLocation_leads scripted.matched).1
    have found := scripted.found
    rw [List.mem_singleton.mp member] at found
    cases found
  exact (runs_alike quietPlatform echoPlatform webServer 3 rfl
    (fun command files launches => absurd launches (nothing command)) Exchanges.Ordinary Initial
    Timeouts.webWritten).mp Exchanges.reaches_webWritten

end LocalServer.Scripts
