import LocalServer.RequestFraming
import LocalServer.Server

/-! When it makes no difference in how many segments a request arrives. The first segments
that fit the size limit are answered as if they were the whole request, and what comes
later is dropped. -/

namespace LocalServer.Segmentation
open Library Machine Utf8 Text Request RequestFraming ChunkedBody Handler Server Loop

/-! Delivery -/

/-- What is left of a delivery on a descriptor: whether the loop still runs, the response
that waits, the files and the sessions. -/
structure Outcome where
  running : Bool
  queued : Option Bytes
  files : FileSystem
  sessions : SessionStore

def outcome (fd : Fd) (result : Bool × Loop) : Outcome :=
  ⟨result.1, result.2.writeBuffers.get fd, result.2.world.files, result.2.world.sessions⟩

section
variable (platform : Platform) (server : Server) (clock : Clock) (fd : Fd)

/-- A read event for each list of pieces: `read` returns one after the other, then would block. -/
def deliver : List (List Bytes) → Action Loop Bool
  | [] => pure true
  | pieces :: later => do
    if ← handleRead platform server clock fd (pieces.map .received) then deliver later
    else pure false

/-- The response to these bytes and what it leaves; `none` when the parser panics. -/
def heard (data : Bytes) (world : World) : Option (Bytes × FileSystem × SessionStore) :=
  match respond platform server clock data world with
  | .error _ => none
  | .ok .tooLarge =>
    some ((Response.error .contentTooLarge).serializeResponse, world.files, world.sessions)
  | .ok (.answered response after) =>
    some (response.serializeResponse, after.files, after.sessions)

end

def prefixes (before : Bytes) : List Bytes → List Bytes
  | [] => []
  | segment :: later => (before ++ segment) :: prefixes (before ++ segment) later

section
variable {platform : Platform} {server : Server} {clock : Clock} {fd : Fd}

theorem drain_received (pieces : List Bytes) (loop : Loop) :
    (drain fd (pieces.map .received) loop).1 = true ∧
      (drain fd (pieces.map .received) loop).2.readBuffers.get fd =
        (loop.readBuffers.get fd).map (· ++ pieces.flatten) ∧
      (drain fd (pieces.map .received) loop).2.writeBuffers = loop.writeBuffers ∧
      (drain fd (pieces.map .received) loop).2.world = loop.world := by
  induction pieces generalizing loop with
  | nil => exact ⟨rfl, by simp [drain, issue], rfl, rfl⟩
  | cons piece pieces ih =>
    let read := (issue (.read fd (.received piece)) loop).2
    let extended := (extendRead fd piece read).2
    have buffers : extended.readBuffers.get fd = (loop.readBuffers.get fd).map (· ++ piece) ∧
        extended.writeBuffers = loop.writeBuffers ∧ extended.world = loop.world := by
      have same : read.readBuffers = loop.readBuffers := rfl
      show (extendRead fd piece read).2.readBuffers.get fd = _ ∧
        (extendRead fd piece read).2.writeBuffers = _ ∧ (extendRead fd piece read).2.world = _
      unfold extendRead
      rw [same]
      cases found : loop.readBuffers.get fd with
      | none => exact ⟨by simp [same, found], rfl, rfl⟩
      | some data => exact ⟨by simp, rfl, rfl⟩
    obtain ⟨more, gathered, writes, world⟩ := ih extended
    refine ⟨more, gathered.trans ?_, writes.trans buffers.2.1, world.trans buffers.2.2⟩
    rw [buffers.1, Option.map_map]
    congr 1
    funext data
    simp

theorem handleRead_ignored (platform : Platform) (server : Server) (clock : Clock)
    (pieces : List Bytes) (loop : Loop)
    (closed : loop.readBuffers.get fd = none) :
    (handleRead platform server clock fd (pieces.map .received) loop).1 = true ∧
      (handleRead platform server clock fd (pieces.map .received) loop).2.readBuffers.get fd = none ∧
      (handleRead platform server clock fd (pieces.map .received) loop).2.writeBuffers =
        loop.writeBuffers ∧
      (handleRead platform server clock fd (pieces.map .received) loop).2.world = loop.world := by
  obtain ⟨more, gathered, writes, world⟩ := drain_received pieces loop
  rw [closed] at gathered
  simp only [handleRead, Action.bind_apply, more, if_true, answer_no_buffer gathered]
  exact ⟨trivial, HashMap.get_remove_self _ _, writes, world⟩

section
variable {before : Bytes} (pieces : List Bytes) {loop : Loop}
  (buffer : loop.readBuffers.get fd = some before)
include buffer

theorem handleRead_panics {panic : Panic}
    (computed : respond platform server clock (before ++ pieces.flatten) loop.world = .error panic) :
    (handleRead platform server clock fd (pieces.map .received) loop).1 = false := by
  obtain ⟨more, gathered, -, world⟩ := drain_received pieces loop
  rw [buffer] at gathered
  rw [← world] at computed
  simp only [handleRead, Action.bind_apply, more, if_true, answer_panics gathered computed]

theorem handleRead_tooLarge
    (computed : respond platform server clock (before ++ pieces.flatten) loop.world = .ok .tooLarge) :
    (handleRead platform server clock fd (pieces.map .received) loop).1 = true ∧
      (handleRead platform server clock fd (pieces.map .received) loop).2.readBuffers.get fd =
        some (before ++ pieces.flatten) ∧
      (handleRead platform server clock fd (pieces.map .received) loop).2.writeBuffers.get fd =
        some (Response.error .contentTooLarge).serializeResponse ∧
      (handleRead platform server clock fd (pieces.map .received) loop).2.world = loop.world := by
  obtain ⟨more, gathered, -, world⟩ := drain_received pieces loop
  rw [buffer] at gathered
  rw [← world] at computed
  simp only [handleRead, Action.bind_apply, more, if_true, answer_tooLarge gathered computed]
  exact ⟨trivial, gathered, HashMap.get_insert_self _ _ _, world⟩

theorem handleRead_answered {response : Response} {after : World}
    (computed : respond platform server clock (before ++ pieces.flatten) loop.world =
      .ok (.answered response after)) :
    (handleRead platform server clock fd (pieces.map .received) loop).1 = true ∧
      (handleRead platform server clock fd (pieces.map .received) loop).2.readBuffers.get fd = none ∧
      (handleRead platform server clock fd (pieces.map .received) loop).2.writeBuffers.get fd =
        some response.serializeResponse ∧
      (handleRead platform server clock fd (pieces.map .received) loop).2.world = after := by
  obtain ⟨more, gathered, -, world⟩ := drain_received pieces loop
  rw [buffer] at gathered
  rw [← world] at computed
  simp only [handleRead, Action.bind_apply, more, if_true, answer_answered gathered computed]
  exact ⟨trivial, HashMap.get_remove_self _ _, HashMap.get_insert_self _ _ _, rfl⟩

end

theorem deliver_cons (pieces : List Bytes) (later : List (List Bytes)) (loop : Loop)
    (more : (handleRead platform server clock fd (pieces.map .received) loop).1 = true) :
    deliver platform server clock fd (pieces :: later) loop = deliver platform server clock fd later
      (handleRead platform server clock fd (pieces.map .received) loop).2 := by
  simp only [deliver, Action.bind_apply, more, if_true]

theorem deliver_ignored (events : List (List Bytes)) (loop : Loop)
    (closed : loop.readBuffers.get fd = none) :
    outcome fd (deliver platform server clock fd events loop) = outcome fd (true, loop) := by
  induction events generalizing loop with
  | nil => rfl
  | cons pieces later ih =>
    obtain ⟨more, still, writes, world⟩ :=
      handleRead_ignored platform server clock pieces loop closed
    rw [deliver_cons _ _ _ more, ih _ still, outcome, outcome, writes, world]

theorem deliver_tooLarge (events : List (List Bytes)) {loop : Loop} {before : Bytes}
    (buffer : loop.readBuffers.get fd = some before) (some' : events ≠ [])
    (large : ∀ data ∈ prefixes before (events.map List.flatten),
      respond platform server clock data loop.world = .ok .tooLarge) :
    outcome fd (deliver platform server clock fd events loop) =
      ⟨true, some (Response.error .contentTooLarge).serializeResponse, loop.world.files,
        loop.world.sessions⟩ := by
  induction events generalizing loop before with
  | nil => exact absurd rfl some'
  | cons pieces later ih =>
    obtain ⟨more, kept, queued, world⟩ := handleRead_tooLarge pieces buffer
      (large _ (by simp [prefixes]))
    rw [deliver_cons _ _ _ more]
    cases later with
    | nil => simp only [deliver, Action.pure_apply, outcome, queued, world]
    | cons next later =>
      rw [← world]
      exact ih kept (by simp) fun data member => by
        rw [world]
        exact large data (by simp only [List.map_cons, prefixes, List.mem_cons] at member ⊢; tauto)

theorem deliver_decides (events : List (List Bytes)) {loop : Loop} {before first : Bytes}
    (buffer : loop.readBuffers.get fd = some before) (tooLarge : Bytes → Bool)
    (keeps : ∀ data, tooLarge data = true ↔
      respond platform server clock data loop.world = .ok .tooLarge)
    (decides : (prefixes before (events.map List.flatten)).find? (fun data => !tooLarge data) =
      some first) :
    (∀ queued files sessions, heard platform server clock first loop.world =
        some (queued, files, sessions) →
      outcome fd (deliver platform server clock fd events loop) =
        ⟨true, some queued, files, sessions⟩) ∧
    (heard platform server clock first loop.world = none →
      (outcome fd (deliver platform server clock fd events loop)).running = false) := by
  induction events generalizing loop before with
  | nil => cases decides
  | cons pieces later ih =>
    rw [List.map_cons, prefixes, List.find?_cons] at decides
    cases large : tooLarge (before ++ pieces.flatten) with
    | true =>
      rw [large] at decides
      obtain ⟨more, kept, -, world⟩ := handleRead_tooLarge pieces buffer ((keeps _).mp large)
      rw [deliver_cons _ _ _ more, ← world]
      exact ih kept (by rwa [world]) decides
    | false =>
      rw [large] at decides
      cases decides
      have notLarge : respond platform server clock (before ++ pieces.flatten) loop.world ≠
          .ok .tooLarge := fun same => by rw [(keeps _).mpr same] at large; cases large
      unfold heard
      cases computed : respond platform server clock (before ++ pieces.flatten) loop.world with
      | error panic =>
        have panics := handleRead_panics pieces buffer computed
        refine ⟨fun queued files sessions same => (by cases same), fun _ => ?_⟩
        simp [deliver, panics, outcome]
      | ok reply =>
        cases reply with
        | tooLarge => exact absurd computed notLarge
        | answered response after =>
          obtain ⟨more, closed, queued, world⟩ := handleRead_answered pieces buffer computed
          refine ⟨fun bytes files sessions same => ?_, fun none => (by cases none)⟩
          cases same
          rw [deliver_cons _ _ _ more, deliver_ignored _ _ closed, outcome, queued, world]

end

abbrev Limits := List (Option Str × Nat)

def limits (server : Server) : Limits :=
  server.configs.map fun config => (config.serverName, config.clientMaxBodySize)

/-- The limit that holds for what was parsed: that of the named server, else of the first. -/
def limitFor (limits : Limits) (parsed : Option Request) : Nat :=
  let first := limits.headD (none, 0)
  match parsed with
  | some request => ((limits.find? fun limit => limit.1 = some (host request)).getD first).2
  | none => first.2

def tooLarge (tables : CaseTables) (limits : Limits) (data : Bytes) : Bool :=
  match parse tables data with
  | .error _ => false
  | .ok parsed => limitFor limits parsed < data.length

/-- The same on the bytes: they are more than the limit of the server that their head names,
or, when they carry no request and do not break the parser, than that of the first. -/
inductive OverLimit (tables : CaseTables) (limits : Limits) (data : Bytes) : Prop where
  | request {head : Head} {body : Bytes} (carries : Carries tables data head body)
      (large : limitFor limits (some (head.withBody body)) < data.length)
  | incomplete (absent : ∀ head body, ¬Carries tables data head body)
      (whole : ¬BrokenBody tables data) (large : limitFor limits none < data.length)

theorem tooLarge_iff {tables : CaseTables} {limits : Limits} {data : Bytes}
    (fits : Addressable data) : tooLarge tables limits data = true ↔ OverLimit tables limits data := by
  unfold tooLarge
  cases parsed : parse tables data with
  | error panic =>
    have broken := (parse_panics fits).mp ⟨panic, parsed⟩
    apply iff_of_false (by simp)
    intro overLimit
    cases overLimit with
    | request carries large =>
      cases parsed.symm.trans ((parse_eq_some fits).mpr ⟨_, _, carries, rfl⟩)
    | incomplete absent whole large => exact whole broken
  | ok result =>
    simp only [decide_eq_true_eq]
    cases result with
    | none =>
      have absent : ∀ head body, ¬Carries tables data head body := by
        intro head body carries
        cases parsed.symm.trans ((parse_eq_some fits).mpr ⟨head, body, carries, rfl⟩)
      have whole : ¬BrokenBody tables data := by
        rw [← parse_panics fits, parsed]
        simp
      constructor
      · exact .incomplete absent whole
      · intro overLimit
        cases overLimit with
        | request carries large => exact absurd carries (absent _ _)
        | incomplete absent whole large => exact large
    | some request =>
      obtain ⟨head, body, carries, rfl⟩ := (parse_eq_some fits).mp parsed
      constructor
      · exact .request carries
      · intro overLimit
        cases overLimit with
        | request carries' large =>
          have same := parsed.symm.trans ((parse_eq_some fits).mpr ⟨_, _, carries', rfl⟩)
          rw [Except.ok.injEq, Option.some.injEq] at same
          rw [same]
          exact large
        | incomplete absent whole large => exact absurd carries (absent _ _)

theorem limitFor_limits (server : Server) (parsed : Option Request) :
    limitFor (limits server) parsed = (server.limitConfig parsed).clientMaxBodySize := by
  have first : ((limits server).headD (none, 0)).2 = server.first.clientMaxBodySize := by
    obtain ⟨config, configs, shape⟩ := List.exists_cons_of_ne_nil server.nonempty
    simp [limits, Server.first, shape]
  cases parsed with
  | none => exact first
  | some request =>
    simp only [limitFor, Server.limitConfig, Server.matchConfig]
    simp only [limits, List.find?_map] at first ⊢
    generalize same : server.configs.find? _ = found
    have also : server.configs.find? (fun config => config.serverName = some (host request)) =
      found := same
    rw [also]
    cases found with
    | none => exact first
    | some config => rfl

section
variable {platform : Platform} {server : Server}

theorem respond_tooLarge (clock : Clock) (data : Bytes) (world : World) :
    tooLarge platform.tables (limits server) data = true ↔
      respond platform server clock data world = .ok .tooLarge := by
  unfold tooLarge respond
  cases parse platform.tables data with
  | error panic => simp [bind, Except.bind]
  | ok parsed =>
    simp only [bind, Except.bind, limitFor_limits]
    by_cases large : (server.limitConfig parsed).clientMaxBodySize < data.length
    · simp [large, pure, Except.pure]
    · cases parsed <;> simp [large, pure, Except.pure]

variable {clock : Clock}

theorem respond_unparsed {data : Bytes} {world : World}
    (parsed : parse platform.tables data = .ok none)
    (fits : tooLarge platform.tables (limits server) data = false) :
    respond platform server clock data world = .ok (.answered (.error .badRequest) world) := by
  simp only [tooLarge, parsed, limitFor_limits, decide_eq_false_iff_not] at fits
  simp only [respond, parsed, bind, Except.bind, if_neg fits]
  rfl

theorem respond_parsed {data : Bytes} {world : World} {request : Request}
    (parsed : parse platform.tables data = .ok (some request))
    (fits : tooLarge platform.tables (limits server) data = false) :
    respond platform server clock data world =
      .ok (.answered
        (buildResponse platform clock (splitQuery request)
          (server.matchConfig (splitQuery request)) world).1
        (buildResponse platform clock (splitQuery request)
          (server.matchConfig (splitQuery request)) world).2) := by
  simp only [tooLarge, parsed, limitFor_limits, decide_eq_false_iff_not] at fits
  simp only [respond, parsed, bind, Except.bind, if_neg fits]
  rfl

end

/-- The answer does not depend on what the body became later: there is no difference, or the
method has no use for a body, or a session route reads no more of it than the credentials. -/
def Unread (early whole : Request) : Prop :=
  early.body = whole.body ∨ (whole.method ≠ .get ∧ whole.method ≠ .post) ∨
    whole.path = "/whoami".toList ∨
    whole.method = .post ∧ (whole.path = "/logout".toList ∨
      whole.path = "/login".toList ∧
        credentialsMatch early.body = credentialsMatch whole.body)

theorem splitQuery_withBody (request : Request) (body : Bytes) :
    splitQuery { request with body } = { splitQuery request with body } := by
  unfold splitQuery
  cases splitOnce '?' request.path <;> rfl

section
variable (platform : Platform) (clock : Clock) (request : Request) (config : ServerConfig)

theorem handleWithRoute_withBody (body : Bytes)
    (useless : request.method ≠ .get ∧ request.method ≠ .post) :
    handleWithRoute platform { request with body } config =
      handleWithRoute platform request config := by
  unfold handleWithRoute
  cases matchLocation request.path config with
  | none => rfl
  | some loc =>
    cases known : request.method with
    | get => exact absurd known useless.1
    | post => exact absurd known useless.2
    | delete => rfl
    | unknown name => rfl

theorem dispatch_withBody (body : Bytes) (unread : Unread { request with body } request) :
    dispatch platform clock { request with body } config =
      dispatch platform clock request config := by
  unfold dispatch
  rcases unread with same | useless | whoami | ⟨post, logout | ⟨login, verdict⟩⟩
  · have unchanged : body = request.body := same
    rw [unchanged]
  · rw [handleWithRoute_withBody platform request config body useless]
    simp only [useless.2, and_false, if_false]
    rfl
  · simp only [whoami]
    rfl
  · simp only [logout, post]
    rfl
  · have same : handleLogin clock { request with body } = handleLogin clock request := by
      unfold handleLogin
      rw [show credentialsMatch body = credentialsMatch request.body from verdict]
    rw [if_pos ⟨login, post⟩, if_pos ⟨login, post⟩, same]

theorem buildResponse_withBody (body : Bytes) (unread : Unread { request with body } request) :
    buildResponse platform clock { request with body } config =
      buildResponse platform clock request config := by
  unfold buildResponse
  rw [dispatch_withBody platform clock request config body unread]

end

def configsWith (loc : Location) (limits : Limits) : List ServerConfig :=
  limits.map fun limit => ⟨[], 0, limit.1, limit.2, HashMap.empty, [loc]⟩

def serverWith (loc : Location) (limits : Limits) (some' : limits ≠ []) : Server :=
  ⟨configsWith loc limits, by simpa [configsWith] using some'⟩

theorem limits_serverWith (loc : Location) {limits : Limits} (some' : limits ≠ []) :
    Segmentation.limits (serverWith loc limits some') = limits := by
  simp [Segmentation.limits, serverWith, configsWith, Function.comp_def]

theorem matchConfig_serverWith (loc : Location) {limits : Limits} (some' : limits ≠ [])
    (request : Request) : ((serverWith loc limits some').matchConfig request).locations = [loc] := by
  have all : ∀ config ∈ configsWith loc limits, config.locations = [loc] := by
    intro config member
    obtain ⟨limit, -, rfl⟩ := List.mem_map.mp member
    rfl
  unfold Server.matchConfig
  cases found : (serverWith loc limits some').configs.find?
      fun config => config.serverName = some (host request) with
  | none => exact all _ (List.head_mem _)
  | some config => exact all config (List.mem_of_find?_eq_some found)

def anywhere (redirect : Option Str) (cgi : Option CGI) : Location :=
  ⟨[], [], none, [], false, redirect, cgi⟩

theorem matchLocation_anywhere {redirect : Option Str} {cgi : Option CGI} {config : ServerConfig}
    (only : config.locations = [anywhere redirect cgi]) (path : Str) :
    matchLocation path config = some (anywhere redirect cgi) := by
  simp [matchLocation, only, anywhere, startsWith, maxByKey]

def redirected : Response := .redirect "/x".toList (encode (redirectPage "/x".toList))

/-- Everything is redirected. -/
theorem buildResponse_redirected (platform : Platform) (clock : Clock) (request : Request)
    {config : ServerConfig} (only : config.locations = [anywhere (some "/x".toList) none])
    (world : World) : buildResponse platform clock request config world = (redirected, world) := by
  unfold buildResponse
  rw [matchLocation_anywhere only]
  rfl

/-- A program that cannot be started for one input, and else ends at once. -/
def pickyPlatform (tables : CaseTables) (refused : Option Bytes) : Platform where
  tables := tables
  spawn := fun command files =>
    if command.stdin = refused then none
    else some ⟨[], some ⟨true, utf8 "\n\n", []⟩, files⟩

def stdinOf (body : Bytes) : Option Bytes := if body = [] then none else some body

theorem stdinOf_injective {first second : Bytes} (same : stdinOf first = stdinOf second) :
    first = second := by
  unfold stdinOf at same
  split_ifs at same with empty empty'
  · rw [empty, empty']
  · exact Option.some.inj same

theorem run_picky (tables : CaseTables) (refused : Option Bytes) (runner : CgiRunner)
    (request : Request) (files : FileSystem) :
    runner.run (pickyPlatform tables refused) request files =
      (if stdinOf request.body = refused then .error .internalServerError
        else .new .ok "text/html".toList [], files) := by
  have parsed : Cgi.parseCgiOutput tables (utf8 "\n\n") = .new .ok "text/html".toList [] := by
    have split : Cgi.splitOutput (utf8 "\n\n") = some ([], []) := by decide +kernel
    simp only [Cgi.parseCgiOutput, split]
    rfl
  have stdin : (runner.command request).stdin = stdinOf request.body := rfl
  simp only [CgiRunner.run, pickyPlatform, stdin]
  split_ifs with same
  · rfl
  · simp only [Cgi.waitWithTimeout, if_true, parsed]

/-- Everything but the session routes runs a program. -/
theorem buildResponse_picky (tables : CaseTables) (refused : Option Bytes) (clock : Clock)
    {request : Request} {config : ServerConfig}
    (only : config.locations = [anywhere none (some ⟨[], []⟩)])
    (asked : request.method = .get ∨ request.method = .post)
    (free : request.path ≠ "/whoami".toList ∧
      (request.method = .post → request.path ≠ "/login".toList ∧ request.path ≠ "/logout".toList))
    (world : World) :
    (buildResponse (pickyPlatform tables refused) clock request config world).1 =
      if stdinOf request.body = refused then .error .internalServerError
      else .new .ok "text/html".toList [] := by
  have runs : handleWithRoute (pickyPlatform tables refused) request config =
      World.runScript (pickyPlatform tables refused)
        (.new [] (scriptPath request.path (anywhere none (some ⟨[], []⟩)))) request := by
    have found : findCgi request.path (anywhere none (some ⟨[], []⟩)) = some ⟨[], []⟩ := by
      simp [findCgi, anywhere, endsWith]
    unfold handleWithRoute
    simp only [matchLocation_anywhere only]
    rw [if_pos (by rfl)]
    rcases asked with get | post
    · simp only [get, found]
    · simp only [post, found]
  unfold buildResponse
  simp only [matchLocation_anywhere only, Option.bind_some]
  show (dispatch (pickyPlatform tables refused) clock request config world).1 = _
  unfold dispatch
  rw [if_neg (fun login => (free.2 login.2).1 login.1),
    if_neg (fun logout => (free.2 logout.2).2 logout.1), if_neg free.1, runs]
  simp only [World.runScript, run_picky]

/-! Which bytes are answered like those that came after -/

theorem heard_unparsed {platform : Platform} {server : Server} {data : Bytes} (clock : Clock)
    (world : World) (parsed : parse platform.tables data = .ok none)
    (fits : tooLarge platform.tables (limits server) data = false) :
    heard platform server clock data world =
      some ((Response.error .badRequest).serializeResponse, world.files, world.sessions) := by
  simp only [heard, respond_unparsed parsed fits]

theorem heard_tooLarge {platform : Platform} {server : Server} {data : Bytes} (clock : Clock)
    (world : World) (large : tooLarge platform.tables (limits server) data = true) :
    heard platform server clock data world =
      some ((Response.error .contentTooLarge).serializeResponse, world.files, world.sessions) := by
  simp only [heard, (respond_tooLarge clock data world).mp large]

theorem heard_parsed {platform : Platform} {server : Server} {data : Bytes} {request : Request}
    (clock : Clock) (world : World) (parsed : parse platform.tables data = .ok (some request))
    (fits : tooLarge platform.tables (limits server) data = false) :
    heard platform server clock data world =
      let answered := buildResponse platform clock (splitQuery request)
        (server.matchConfig (splitQuery request)) world
      some (answered.1.serializeResponse, answered.2.files, answered.2.sessions) := by
  simp only [heard, respond_parsed parsed fits]

theorem login_answers (platform : Platform) {request : Request} {config : ServerConfig}
    (only : config.locations = [anywhere none none]) (login : request.path = "/login".toList)
    (post : request.method = .post) (clock : Clock) (world : World) :
    (buildResponse platform clock request config world).1 =
      if credentialsMatch request.body then
        (Response.new .ok "text/html".toList
          (utf8 "<html><body><h1>Logged in!</h1></body></html>")).setCookie
            "session_id".toList (generateId clock)
      else .new .ok "text/html".toList
        (utf8 "<html><body><h1>Invalid credentials</h1></body></html>") := by
  unfold buildResponse
  simp only [matchLocation_anywhere only, Option.bind_some]
  show (dispatch platform clock request config world).1 = _
  unfold dispatch
  rw [if_pos ⟨login, post⟩, handleLogin]
  split_ifs <;> rfl

section
variable {request : Request} {config : ServerConfig} {body : Bytes}

/-- Logging in tells good credentials from bad ones. -/
theorem credentials_of_texts (platform : Platform) (only : config.locations = [anywhere none none])
    (login : request.path = "/login".toList) (post : request.method = .post)
    (same : (buildResponse platform ⟨0, 0, 0⟩ { request with body } config
        emptyWorld).1.serializeResponse =
      (buildResponse platform ⟨0, 0, 0⟩ request config emptyWorld).1.serializeResponse) :
    credentialsMatch body = credentialsMatch request.body := by
  have early := login_answers platform only
    (show Request.path { request with body } = _ from login) post ⟨0, 0, 0⟩ emptyWorld
  have late := login_answers platform only login post ⟨0, 0, 0⟩ emptyWorld
  rw [early, late] at same
  have different : ((Response.new .ok "text/html".toList
      (utf8 "<html><body><h1>Logged in!</h1></body></html>")).setCookie
        "session_id".toList (generateId ⟨0, 0, 0⟩)).serializeResponse ≠
      (Response.new .ok "text/html".toList
        (utf8 "<html><body><h1>Invalid credentials</h1></body></html>")).serializeResponse := by
    decide +kernel
  split_ifs at same with first second second
  · exact first.trans second.symm
  · exact absurd same different
  · exact absurd same.symm different
  · rw [Bool.not_eq_true] at first second
    exact first.trans second.symm

/-- A program that fails on one body tells that body from any other. -/
theorem body_of_texts (tables : CaseTables)
    (only : config.locations = [anywhere none (some ⟨[], []⟩)])
    (asked : request.method = .get ∨ request.method = .post)
    (free : request.path ≠ "/whoami".toList ∧
      (request.method = .post → request.path ≠ "/login".toList ∧ request.path ≠ "/logout".toList))
    (same : (buildResponse (pickyPlatform tables (stdinOf request.body)) ⟨0, 0, 0⟩
        { request with body } config emptyWorld).1.serializeResponse =
      (buildResponse (pickyPlatform tables (stdinOf request.body)) ⟨0, 0, 0⟩ request config
        emptyWorld).1.serializeResponse) :
    body = request.body := by
  have early := buildResponse_picky tables (stdinOf request.body) ⟨0, 0, 0⟩ only
    (show Request.method { request with body } = _ ∨ Request.method { request with body } = _
      from asked) free emptyWorld
  have late := buildResponse_picky tables (stdinOf request.body) ⟨0, 0, 0⟩ only asked free emptyWorld
  have different : (Response.new .ok "text/html".toList []).serializeResponse ≠
      (Response.error .internalServerError).serializeResponse := by decide +kernel
  by_contra bodies
  rw [early, late, if_pos rfl, if_neg (fun inputs => bodies (stdinOf_injective inputs))] at same
  exact different same

end

section
variable {tables : CaseTables} {limits : Limits} (some' : limits ≠ []) {first later : Bytes}
  {whole : Request} (fits : Addressable (first ++ later))
  (parsed : parse tables (first ++ later) = .ok (some whole))
  (small : tooLarge tables limits first = false)
include some' parsed small

/-- Servers that redirect everything answer the same only if both are answered at all. -/
theorem both_answered
    (same : ∀ platform server clock world, platform.tables = tables →
      Segmentation.limits server = limits →
      heard platform server clock first world = heard platform server clock (first ++ later) world) :
    tooLarge tables limits (first ++ later) = false ∧
      ∃ early, parse tables first = .ok (some early) := by
  obtain ⟨platform, rfl⟩ : ∃ platform : Platform, platform.tables = tables :=
    ⟨pickyPlatform tables none, rfl⟩
  obtain ⟨server, rfl, only⟩ : ∃ server : Server, Segmentation.limits server = limits ∧
      ∀ request, (server.matchConfig request).locations = [anywhere (some "/x".toList) none] :=
    ⟨serverWith _ limits some', limits_serverWith _ some', matchConfig_serverWith _ some'⟩
  have answers := same platform server ⟨0, 0, 0⟩ emptyWorld rfl rfl
  have redirects : ∀ data request, parse platform.tables data = .ok (some request) →
      tooLarge platform.tables (Segmentation.limits server) data = false →
      heard platform server ⟨0, 0, 0⟩ data emptyWorld =
        some (redirected.serializeResponse, emptyWorld.files, emptyWorld.sessions) := by
    intro data request parsed fits
    rw [heard_parsed _ _ parsed fits, buildResponse_redirected _ _ _ (only _)]
  -- the answer to all of the bytes
  have last : heard platform server ⟨0, 0, 0⟩ (first ++ later) emptyWorld =
      some ((if tooLarge platform.tables (Segmentation.limits server) (first ++ later) then
        Response.error .contentTooLarge else redirected).serializeResponse,
        emptyWorld.files, emptyWorld.sessions) := by
    cases large : tooLarge platform.tables (Segmentation.limits server) (first ++ later) with
    | false => exact redirects _ _ parsed large
    | true => exact heard_tooLarge _ _ large
  rw [last] at answers
  cases early : parse platform.tables first with
  | error panic =>
    have panics : heard platform server ⟨0, 0, 0⟩ first emptyWorld = none := by
      simp only [heard, respond, early]
      rfl
    rw [panics] at answers
    cases answers
  | ok result =>
    have different : (Response.error .badRequest).serializeResponse ≠
        (Response.error .contentTooLarge).serializeResponse ∧
        (Response.error .badRequest).serializeResponse ≠ redirected.serializeResponse ∧
        redirected.serializeResponse ≠ (Response.error .contentTooLarge).serializeResponse := by
      decide +kernel
    cases result with
    | none =>
      rw [heard_unparsed _ _ early small] at answers
      have texts := congrArg Prod.fst (Option.some.inj answers)
      simp only at texts
      split_ifs at texts
      · exact absurd texts different.1
      · exact absurd texts different.2.1
    | some request =>
      rw [redirects first request early small] at answers
      refine ⟨?_, request, rfl⟩
      have texts := congrArg Prod.fst (Option.some.inj answers)
      simp only at texts
      split_ifs at texts with large
      · exact absurd texts different.2.2
      · simpa using large

include fits

/-- Servers that run a program on the body, or check the credentials in it, tell two bodies
apart. -/
theorem unread_of_same {early : Request} (parsedEarly : parse tables first = .ok (some early))
    (small' : tooLarge tables limits (first ++ later) = false)
    (same : ∀ platform server clock world, platform.tables = tables →
      Segmentation.limits server = limits →
      heard platform server clock first world = heard platform server clock (first ++ later) world) :
    Unread (splitQuery early) (splitQuery whole) := by
  have shape := parse_later fits parsedEarly parsed
  generalize early.body = body at shape
  subst shape
  rw [splitQuery_withBody]
  generalize known : splitQuery whole = request
  by_contra unread
  unfold Unread at unread
  simp only [not_or, not_and] at unread
  obtain ⟨bodies, useful, whoami, session⟩ := unread
  have texts : ∀ (platform : Platform) (server : Server), platform.tables = tables →
      Segmentation.limits server = limits →
      (buildResponse platform ⟨0, 0, 0⟩ { request with body } (server.matchConfig request)
          emptyWorld).1.serializeResponse =
        (buildResponse platform ⟨0, 0, 0⟩ request (server.matchConfig request)
          emptyWorld).1.serializeResponse := by
    intro platform server sameTables sameLimits
    subst sameTables sameLimits
    have answers := same platform server ⟨0, 0, 0⟩ emptyWorld rfl rfl
    rw [heard_parsed _ _ parsedEarly small, heard_parsed _ _ parsed small', splitQuery_withBody,
      known] at answers
    exact congrArg Prod.fst (Option.some.inj answers)
  by_cases login : request.method = .post ∧ request.path = "/login".toList
  · obtain ⟨post, login⟩ := login
    have only := matchConfig_serverWith (anywhere none none) some' request
    exact (session post).2 login (credentials_of_texts _ only login post
      (texts (pickyPlatform tables none) _ rfl (limits_serverWith _ some')))
  · have asked : request.method = .get ∨ request.method = .post := by
      by_cases get : request.method = .get
      · exact Or.inl get
      · exact Or.inr (not_not.mp (useful get))
    have free : request.path ≠ "/whoami".toList ∧ (request.method = .post →
        request.path ≠ "/login".toList ∧ request.path ≠ "/logout".toList) :=
      ⟨whoami, fun post => ⟨fun isLogin => login ⟨post, isLogin⟩, (session post).1⟩⟩
    have only := matchConfig_serverWith (anywhere none (some ⟨[], []⟩)) some' request
    exact bodies (body_of_texts tables only asked free
      (texts (pickyPlatform tables (stdinOf request.body)) _ rfl (limits_serverWith _ some')))

/-- Bytes are answered like all of the request exactly when both are answered and the rest
of the body is not read. -/
theorem heard_iff :
    (∀ platform server clock world, platform.tables = tables →
      Segmentation.limits server = limits →
      heard platform server clock first world =
        heard platform server clock (first ++ later) world) ↔
      tooLarge tables limits (first ++ later) = false ∧
        ∃ early, parse tables first = .ok (some early) ∧
          Unread (splitQuery early) (splitQuery whole) := by
  constructor
  · intro same
    obtain ⟨small', early, parsedEarly⟩ := both_answered some' parsed small same
    exact ⟨small', early, parsedEarly,
      unread_of_same some' fits parsed small parsedEarly small' same⟩
  · intro answered platform server clock world sameTables sameLimits
    subst sameTables sameLimits
    obtain ⟨small', early, parsedEarly, unread⟩ := answered
    have shape := parse_later fits parsedEarly parsed
    generalize early.body = body at shape
    subst shape
    rw [splitQuery_withBody] at unread
    rw [heard_parsed _ _ parsedEarly small, heard_parsed _ _ parsed small', splitQuery_withBody,
      show server.matchConfig { splitQuery whole with body } =
        server.matchConfig (splitQuery whole) from rfl,
      buildResponse_withBody platform clock _ _ body unread]

end

def trailers (lines : List Bytes) : Bytes := lines.flatMap fun line => line ++ crlf

/-- One whole request: a header block whose head can be read, then as many bytes as
Content-Length says, or a chunked body up to its last blank line. -/
structure CompleteRequest (tables : CaseTables) (message : Bytes) : Prop where
  fits : Addressable message
  framed : ∃ section' rest head, HeaderBlock message section' rest ∧
    parseHead tables (fromUtf8Lossy section') = some head ∧
    if isChunked tables head.headers = true then
      ∃ text body lines, Message text body ∧ rest = text ++ (trailers lines ++ crlf) ∧
        ∀ line ∈ lines, line ≠ [] ∧ 13 ∉ line
    else rest.length = (declaredLength head.headers).getD 0

theorem CompleteRequest.parsed {tables : CaseTables} {message : Bytes}
    (complete : CompleteRequest tables message) :
    ∃ request, parse tables message = .ok (some request) := by
  obtain ⟨section', rest, head, block, known, body⟩ := complete.framed
  rw [parse_block block complete.fits, known]
  simp only [bodyOf]
  split_ifs at body ⊢ with chunked
  · obtain ⟨text, body, lines, message', rfl, -⟩ := body
    have restFits : Addressable (text ++ (trailers lines ++ crlf)) := by
      have lengths := congrArg List.length block.cut
      have whole := complete.fits
      simp only [List.length_append, Addressable] at lengths whole ⊢
      omega
    rw [message'.decoded _ restFits]
    exact ⟨_, rfl⟩
  · exact ⟨_, rfl⟩

/-! Segmentation -/

/-- However the system and the servers behave, the request leaves the same as when it
arrives in one read event. -/
def Independent (tables : CaseTables) (limits : Limits) (events : List (List Bytes)) : Prop :=
  ∀ platform server clock loop fd, platform.tables = tables → Segmentation.limits server = limits →
    loop.readBuffers.get fd = some [] →
    outcome fd (deliver platform server clock fd events loop) =
      outcome fd (deliver platform server clock fd [events.flatten] loop)

def cuts (events : List (List Bytes)) : List Bytes :=
  (prefixes [] (events.map List.flatten)).dropLast

/-- The first cut with no more bytes than the limit; what comes before it is kept, and
counted again with what comes next. -/
structure Decides (tables : CaseTables) (limits : Limits) (events : List (List Bytes))
    (first : Bytes) : Prop where
  found : ∃ earlier later, cuts events = earlier ++ first :: later ∧
    ∀ data ∈ earlier, OverLimit tables limits data
  small : ¬OverLimit tables limits first

/-- If a cut decides, it gives the whole answer: all of the bytes are within the limit as well,
the head is there, and the rest of the body is not read. -/
def Undivided (tables : CaseTables) (limits : Limits) (events : List (List Bytes)) : Prop :=
  ∀ first, Decides tables limits events first →
    ¬OverLimit tables limits events.flatten.flatten ∧
      ∃ head body all, Carries tables first head body ∧
        Carries tables events.flatten.flatten head all ∧
        Unread (splitQuery (head.withBody body)) (splitQuery (head.withBody all))

theorem prefixes_concat (before : Bytes) {segments : List Bytes} (some' : segments ≠ []) :
    prefixes before segments =
      (prefixes before segments).dropLast ++ [before ++ segments.flatten] := by
  induction segments generalizing before with
  | nil => exact absurd rfl some'
  | cons segment later ih =>
    cases later with
    | nil => simp [prefixes]
    | cons next later =>
      rw [prefixes, List.dropLast_cons_of_ne_nil (by simp [prefixes]), List.cons_append,
        List.flatten_cons, ← List.append_assoc, ← ih (before ++ segment) (by simp)]

theorem prefix_of_mem_prefixes {before data : Bytes} {segments : List Bytes}
    (member : data ∈ prefixes before segments) : data <+: before ++ segments.flatten := by
  induction segments generalizing before with
  | nil => cases member
  | cons segment later ih =>
    rcases List.mem_cons.mp member with rfl | further
    · exact ⟨later.flatten, by simp⟩
    · simpa using ih further

theorem prefix_of_mem_cuts {events : List (List Bytes)} {data : Bytes} (member : data ∈ cuts events) :
    data <+: events.flatten.flatten := by
  have early := prefix_of_mem_prefixes (List.mem_of_mem_dropLast member)
  rwa [List.nil_append, ← List.flatten_flatten] at early

theorem Addressable.start {data whole : Bytes} (fits : Addressable whole)
    (early : data <+: whole) : Addressable data :=
  lt_of_le_of_lt early.length_le fits

theorem decides_iff {tables : CaseTables} {limits : Limits} {events : List (List Bytes)}
    (fits : Addressable events.flatten.flatten) (first : Bytes) :
    Decides tables limits events first ↔
      (cuts events).find? (fun data => !tooLarge tables limits data) = some first := by
  have beyond : ∀ data ∈ cuts events, tooLarge tables limits data = true ↔
      OverLimit tables limits data :=
    fun data member => tooLarge_iff (Addressable.start fits (prefix_of_mem_cuts member))
  rw [List.find?_eq_some_iff_append]
  constructor
  · intro decides
    obtain ⟨⟨earlier, later, split, large⟩, small⟩ := decides
    have within : ∀ data ∈ earlier, data ∈ cuts events := fun data member => by simp [split, member]
    refine ⟨?_, earlier, later, split, fun data member => ?_⟩
    · rw [← beyond first (by simp [split])] at small
      simpa using small
    · simp [(beyond data (within data member)).mpr (large data member)]
  · intro first
    obtain ⟨small, earlier, later, split, large⟩ := first
    have within : ∀ data ∈ earlier, data ∈ cuts events := fun data member => by simp [split, member]
    refine ⟨⟨earlier, later, split, fun data member => ?_⟩, ?_⟩
    · exact (beyond data (within data member)).mp (by simpa using large data member)
    · rw [← beyond first (by simp [split])]
      simpa using small

section
variable {platform : Platform} (server : Server) (clock : Clock) {fd : Fd}

theorem heard_of_parsed {data : Bytes} {request : Request}
    (parsed : parse platform.tables data = .ok (some request)) (world : World) :
    ∃ queued files sessions,
      heard platform server clock data world = some (queued, files, sessions) := by
  cases large : tooLarge platform.tables (limits server) data with
  | true => exact ⟨_, _, _, heard_tooLarge clock world large⟩
  | false => exact ⟨_, _, _, heard_parsed clock world parsed large⟩

variable {server clock}

/-- The last bytes decide if nothing before them does. -/
theorem deliver_last (events : List (List Bytes)) {loop : Loop}
    (buffer : loop.readBuffers.get fd = some []) (some' : events ≠ [])
    (undecided : ∀ data ∈ cuts events, tooLarge platform.tables (limits server) data = true)
    {queued : Bytes} {files : FileSystem} {sessions : SessionStore}
    (last : heard platform server clock events.flatten.flatten loop.world =
      some (queued, files, sessions)) :
    outcome fd (deliver platform server clock fd events loop) = ⟨true, some queued, files, sessions⟩ := by
  have all : prefixes [] (events.map List.flatten) = cuts events ++ [events.flatten.flatten] := by
    rw [prefixes_concat [] (by simpa using some'), cuts, List.flatten_flatten]
    rfl
  cases large : tooLarge platform.tables (limits server) events.flatten.flatten with
  | true =>
    rw [heard_tooLarge clock loop.world large] at last
    cases last
    refine deliver_tooLarge events buffer some' fun data member =>
      (respond_tooLarge clock data _).mp ?_
    rw [all, List.mem_append, List.mem_singleton] at member
    rcases member with early | rfl
    · exact undecided data early
    · exact large
  | false =>
    refine (deliver_decides events buffer _ (fun data => respond_tooLarge clock data _) ?_).1 _ _ _ last
    rw [all, List.find?_append, List.find?_eq_none.mpr fun data member => by
      simp [undecided data member]]
    simp [large]

end

theorem deliver_once {platform : Platform} {message : Bytes} {whole : Request}
    (parsed : parse platform.tables message = .ok (some whole)) (server : Server) (clock : Clock)
    {loop : Loop} {fd : Fd} (buffer : loop.readBuffers.get fd = some []) {pieces : List Bytes}
    (cut : pieces.flatten = message) : ∃ queued files sessions,
      heard platform server clock message loop.world = some (queued, files, sessions) ∧
      outcome fd (deliver platform server clock fd [pieces] loop) =
        ⟨true, some queued, files, sessions⟩ := by
  obtain ⟨queued, files, sessions, answer⟩ := heard_of_parsed server clock parsed loop.world
  have nothing : ∀ data ∈ cuts [pieces],
      tooLarge platform.tables (Segmentation.limits server) data = true := by
    intro data member
    simp [cuts, prefixes] at member
  have last : heard platform server clock [pieces].flatten.flatten loop.world =
      some (queued, files, sessions) := by simpa [cut] using answer
  exact ⟨queued, files, sessions, answer, deliver_last [pieces] buffer (by simp) nothing last⟩

section
variable {tables : CaseTables} {limits : Limits} {message : Bytes} {whole : Request}
  {events : List (List Bytes)} (parsed : parse tables message = .ok (some whole))
  (cut : events.flatten.flatten = message)
include parsed cut

theorem independent_undecided (arrives : events ≠ [])
    (undecided : ∀ data ∈ cuts events, tooLarge tables limits data = true) :
    Independent tables limits events := by
  intro platform server clock loop fd sameTables sameLimits buffer
  subst sameTables sameLimits
  obtain ⟨queued, files, sessions, answer, once⟩ := deliver_once parsed server clock buffer cut
  rw [once]
  exact deliver_last events buffer arrives undecided (by rw [cut]; exact answer)

/-- If one is, all depends on whether it is answered as the whole request is. -/
theorem independent_decided (arrives : events ≠ []) {first : Bytes}
    (decides : (cuts events).find? (fun data => !tooLarge tables limits data) = some first) :
    Independent tables limits events ↔
      ∀ platform server clock world, platform.tables = tables →
        Segmentation.limits server = limits →
        heard platform server clock first world = heard platform server clock message world := by
  have all : prefixes [] (events.map List.flatten) = cuts events ++ [message] := by
    rw [prefixes_concat [] (by simpa using arrives), cuts, ← cut, List.flatten_flatten]
    rfl
  have found : (prefixes [] (events.map List.flatten)).find?
      (fun data => !tooLarge tables limits data) = some first := by
    rw [all, List.find?_append, decides]
    rfl
  constructor
  · intro same platform server clock world sameTables sameLimits
    subst sameTables sameLimits
    let loop : Loop := { webStart with readBuffers := HashMap.empty.insert 0 [], world }
    have buffer : loop.readBuffers.get 0 = some [] := HashMap.get_insert_self _ _ _
    obtain ⟨queued, files, sessions, answer, once⟩ := deliver_once parsed server clock buffer cut
    have outcomes := same platform server clock loop 0 rfl rfl buffer
    rw [once] at outcomes
    obtain ⟨decided, panicked⟩ := deliver_decides events buffer _
      (fun data => respond_tooLarge clock data loop.world) found
    rw [show heard platform server clock message world = _ from answer]
    cases early : heard platform server clock first world with
    | none =>
      have stopped := panicked early
      rw [outcomes] at stopped
      cases stopped
    | some result =>
      obtain ⟨queued', files', sessions'⟩ := result
      rw [decided _ _ _ early] at outcomes
      cases outcomes
      rfl
  · intro same platform server clock loop fd sameTables sameLimits buffer
    subst sameTables sameLimits
    obtain ⟨queued, files, sessions, answer, once⟩ := deliver_once parsed server clock buffer cut
    obtain ⟨decided, -⟩ := deliver_decides events buffer _
      (fun data => respond_tooLarge clock data loop.world) found
    rw [once]
    apply decided
    rw [same platform server clock loop.world rfl rfl, answer]

end

def cutRequest : List (List Bytes) := [[utf8 "GET / HT"], [utf8 "TP/1.1\r\n\r\n"]]

theorem cutRequest_complete : CompleteRequest asciiTables (utf8 "GET / HTTP/1.1\r\n\r\n") := by
  have fields : (parseHead asciiTables "GET / HTTP/1.1".toList).map
      (fun head => (isChunked asciiTables head.headers, declaredLength head.headers)) =
        some (false, none) := by decide +kernel
  obtain ⟨head, known, plain⟩ := Option.map_eq_some_iff.mp fields
  obtain ⟨notChunked, undeclared⟩ := Prod.mk.inj plain
  refine ⟨by decide +kernel, utf8 "GET / HTTP/1.1", [], head, ⟨by decide +kernel, by decide +kernel⟩,
    ?_, ?_⟩
  · rw [utf8, fromUtf8Lossy_encode]
    exact known
  · rw [if_neg (by simp [notChunked]), undeclared]
    rfl

end LocalServer.Segmentation
