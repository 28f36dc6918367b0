import LocalServer.Responses

/-! The configured error pages: which errors are answered with them. -/

namespace LocalServer.ErrorPages
open Library Action Machine Utf8 Text FileSystem Handler Effects Server

/-- No file is lost, and new are only directories. -/
def GrowsFiles (before after : World) : Prop := Grows before.files after.files

instance : Std.Refl GrowsFiles := ⟨fun world => Grows.refl world.files⟩

instance : IsTrans World GrowsFiles := ⟨fun _ _ _ early late => early.trans late⟩

theorem keptByReading_growsFiles : KeptByReading GrowsFiles :=
  ⟨fun _ world => Grows.refl world.files, fun _ world => Grows.refl world.files,
    fun _ world => Grows.refl world.files, fun _ _ _ world => Grows.refl world.files⟩

/-! The handlers -/

def Paged (config : ServerConfig) (files : FileSystem) (response : Response) : Prop :=
  ∀ page contents, (errorCode response.status).bind config.errorPages.get = some page →
    files.read (filePath page) = .ok contents →
    response.body = contents ∧ response.contentType = "text/html".toList

theorem Paged.ok {config : ServerConfig} {files : FileSystem} {response : Response}
    (succeeds : response.status = .ok) : Paged config files response := by
  intro page contents configured
  rw [succeeds] at configured
  cases configured

def UsesPages (config : ServerConfig) (action : Action World Response) : Prop :=
  ∀ world, Paged config world.files (action world).1

section
variable {config : ServerConfig}

theorem usesPages_ok {response : Response} (succeeds : response.status = .ok) :
    UsesPages config (pure response) := fun _ => .ok succeeds

theorem UsesPages.bind {α : Type} {action : Action World α} {next : α → Action World Response}
    (first : Keeps GrowsFiles action) (later : ∀ a, UsesPages config (next a)) :
    UsesPages config (action >>= next) := by
  intro world page contents configured readable
  have kept := (holds_of_read readable).grows (first world)
  exact later _ _ page contents configured kept.read

theorem usesPages_errorResponse (status : StatusCode) :
    UsesPages config (errorResponse status config) := by
  intro world page contents configured readable
  rw [(errorResponse_status status config world).1] at configured
  unfold errorResponse
  rw [configured]
  dsimp only
  rw [bind_apply]
  simp only [World.read, readable]
  exact ⟨rfl, rfl⟩

theorem usesPages_serveDirectory (urlPath dirPath : Str) :
    UsesPages config (serveDirectory urlPath dirPath config) := by
  unfold serveDirectory
  split_ifs
  · apply UsesPages.bind (keptByReading_growsFiles.readDir _)
    intro listed
    cases listed with
    | error failed => exact usesPages_errorResponse _
    | ok found =>
      obtain ⟨place, names⟩ := found
      apply UsesPages.bind (keeps_entryRows keptByReading_growsFiles _ _ _ _)
      exact fun rows => usesPages_ok rfl
  · exact usesPages_errorResponse _

theorem usesPages_serveFound (path file : Str) (found : Node) :
    UsesPages config (serveFound path file found config) := by
  unfold serveFound
  split_ifs
  · apply UsesPages.bind (keptByReading_growsFiles.read _)
    intro contents
    cases contents with
    | ok index => exact usesPages_ok rfl
    | error failed => exact usesPages_serveDirectory _ _
  · apply UsesPages.bind (keptByReading_growsFiles.read _)
    intro contents
    cases contents with
    | ok contents => exact usesPages_ok rfl
    | error failed => exact usesPages_errorResponse _

theorem usesPages_serveFile (path root : Str) : UsesPages config (serveFile path root config) := by
  apply UsesPages.bind (keptByReading_growsFiles.metadata _)
  intro found
  cases found with
  | ok found => exact usesPages_serveFound _ _ _
  | error failed =>
    apply UsesPages.bind (keptByReading_growsFiles.metadata _)
    intro again
    cases again with
    | ok found => exact usesPages_serveFound _ _ _
    | error failed => exact usesPages_errorResponse _

/-- Where the upload fails only directories are new, so the page is still there. -/
theorem usesPages_handlePost (request : Request) (root : Str) :
    UsesPages config (handlePost request root config) := by
  unfold handlePost
  split_ifs
  · exact usesPages_errorResponse _
  · apply UsesPages.bind
    · intro world
      unfold GrowsFiles
      rw [createParent_files]
      exact grows_aboveCreated _ _
    · intro created
      cases created with
      | error failed => exact usesPages_errorResponse _
      | ok done =>
        intro world
        dsimp only
        rw [bind_apply]
        rcases write_cases world.files (filePath (root ++ request.path)) request.body with
          ⟨e, -, failed⟩ | ⟨place, after, -, stored, -⟩
        · simp only [World.write, failed]
          exact usesPages_errorResponse _ _
        · simp only [World.write, stored]
          exact .ok rfl

theorem usesPages_handleDelete (request : Request) (root : Str) :
    UsesPages config (handleDelete request root config) := by
  intro world
  unfold handleDelete
  rw [bind_apply]
  rcases removeFile_cases world.files (filePath (root ++ request.path)) with
    ⟨e, failed⟩ | ⟨place, mode, contents, after, removed, -⟩
  · simp only [World.removeFile, failed]
    exact usesPages_errorResponse _ _
  · simp only [World.removeFile, removed]
    exact .ok rfl

theorem usesPages_handleWhoami (clock : Clock) (request : Request) :
    UsesPages config (handleWhoami clock request config) := by
  apply UsesPages.bind
  · intro world
    unfold sessionUser
    cases request.sessionId <;> exact Grows.refl world.files
  · intro user
    cases user with
    | some name => exact usesPages_ok rfl
    | none => exact usesPages_errorResponse _

theorem usesPages_handleLogin (clock : Clock) (request : Request) :
    UsesPages config (handleLogin clock request) := by
  intro world
  unfold handleLogin
  split_ifs <;> exact .ok rfl

theorem usesPages_follow (platform : Platform) (clock : Clock) (request : Request) {taken : Route}
    (noScript : ∀ cgi loc, taken ≠ .script cgi loc) :
    UsesPages config (follow platform clock request config taken) := by
  cases taken with
  | redirect target => exact usesPages_ok rfl
  | login => exact usesPages_handleLogin clock request
  | logout => exact fun world => .ok rfl
  | whoami => exact usesPages_handleWhoami clock request
  | script cgi loc => exact absurd rfl (noScript cgi loc)
  | static loc => exact usesPages_serveFile _ _
  | upload loc => exact usesPages_handlePost _ _
  | deletion loc => exact usesPages_handleDelete _ _
  | refused status => exact usesPages_errorResponse status

end

/-- The script runs to its end, in time and successfully, and puts headers before its output. -/
def Answers (platform : Platform) (runner : CgiRunner) (request : Request) (files : FileSystem) :
    Prop :=
  ∃ child output, platform.spawn (runner.command request) files = some child ∧
    Cgi.waitWithTimeout (10 * nanosPerSec) child.output child.running = some output ∧
    output.success = true ∧ Cgi.splitOutput output.stdout ≠ none

/-- A run that gives no answer ends in the default page, wherever it fails. -/
theorem run_fails {platform : Platform} {runner : CgiRunner} {request : Request}
    {files : FileSystem} (fails : ¬Answers platform runner request files) :
    (runner.run platform request files).1 = .error .internalServerError := by
  unfold CgiRunner.run
  cases started : platform.spawn (runner.command request) files with
  | none => rfl
  | some child =>
    dsimp only
    cases ended : Cgi.waitWithTimeout (10 * nanosPerSec) child.output child.running with
    | none => rfl
    | some output =>
      dsimp only
      by_cases success : output.success = true
      · rw [if_pos success]
        by_cases usable : Cgi.splitOutput output.stdout = none
        · rw [Cgi.parseCgiOutput, usable]
        · exact absurd ⟨child, output, started, ended, success, usable⟩ fails
      · rw [if_neg success]

/-! What is answered to the bytes received -/

section
variable (platform : Platform) (server : Server) (data : Bytes) (world : World)

def Large (parsed : Option Request) : Prop :=
  (server.limitConfig parsed).clientMaxBodySize < data.length

def Scripted (request : Request) : Prop :=
  ∃ cgi loc, route (splitQuery request) (server.matchConfig request) = .script cgi loc ∧
    Answers platform (.new cgi.interpreter (scriptPath (splitQuery request).path loc))
      (splitQuery request) world.files

/-- The errors that are not answered by `error_response`. -/
inductive Bypass : Option Request → StatusCode → Prop where
  | tooLarge {parsed : Option Request} (large : Large server data parsed) :
      Bypass parsed .contentTooLarge
  | badRequest (fits : ¬Large server data none) : Bypass none .badRequest
  | script {request : Request} {cgi : CGI} {loc : Location}
      (fits : ¬Large server data (some request))
      (taken : route (splitQuery request) (server.matchConfig request) = .script cgi loc)
      (fails : ¬Answers platform (.new cgi.interpreter (scriptPath (splitQuery request).path loc))
        (splitQuery request) world.files) : Bypass (some request) .internalServerError

/-- The answer is the server's own, not a script's. -/
def Own (parsed : Option Request) : Prop :=
  Large server data parsed ∨ ∀ request, parsed = some request →
    ¬Scripted platform server world request

/-- Whatever error the server answers with itself, the page that the request's server has
configured for it is sent, if it can be read. -/
def PagesUsed (clock : Clock) : Prop :=
  ∀ parsed reply, Request.parse platform.tables data = .ok parsed →
    respond platform server clock data world = .ok reply → Own platform server data world parsed →
    Paged (server.limitConfig parsed) world.files reply.response

end

theorem answer_queues {platform : Platform} {server : Server} {clock : Clock} {fd : Fd} {loop : Loop}
    {data : Bytes} {reply : Reply} (found : loop.readBuffers.get fd = some data)
    (computed : respond platform server clock data loop.world = .ok reply) :
    (answer platform server clock fd loop).2.writeBuffers.get fd =
      some reply.response.serializeResponse := by
  cases reply with
  | tooLarge =>
    rw [answer_tooLarge found computed]
    exact HashMap.get_insert_self _ _ _
  | answered response world =>
    rw [answer_answered found computed]
    exact HashMap.get_insert_self _ _ _

/-- The query string's header does not change which server is chosen. -/
theorem matchConfig_splitQuery (server : Server) (request : Request) :
    server.matchConfig (splitQuery request) = server.matchConfig request := by
  have sameHost : host (splitQuery request) = host request := by
    unfold splitQuery
    cases splitOnce '?' request.path with
    | none =>
      dsimp only
      rw [host, HashMap.get_insert_of_ne _ _ _ _ (by decide)]
      rfl
    | some halves =>
      dsimp only
      rw [host, HashMap.get_insert_of_ne _ _ _ _ (by decide)]
      rfl
  rw [matchConfig, sameHost]
  rfl

section
variable {platform : Platform} {server : Server} {clock : Clock} {data : Bytes} {world : World}

theorem respond_large {parsed : Option Request}
    (parses : Request.parse platform.tables data = .ok parsed) (large : Large server data parsed) :
    respond platform server clock data world = .ok .tooLarge := by
  unfold Large at large
  simp only [respond, parses, bind, Except.bind, if_pos large]
  rfl

theorem respond_none (parses : Request.parse platform.tables data = .ok none)
    (fits : ¬Large server data none) :
    respond platform server clock data world = .ok (.answered (.error .badRequest) world) := by
  unfold Large at fits
  simp only [respond, parses, bind, Except.bind, if_neg fits]
  rfl

theorem respond_some {request : Request}
    (parses : Request.parse platform.tables data = .ok (some request))
    (fits : ¬Large server data (some request)) :
    respond platform server clock data world = .ok (.answered
      (buildResponse platform clock (splitQuery request) (server.matchConfig request) world).1
      (buildResponse platform clock (splitQuery request) (server.matchConfig request) world).2) := by
  unfold Large at fits
  simp only [respond, parses, bind, Except.bind, if_neg fits, matchConfig_splitQuery]
  rfl

theorem respond_bypass {parsed : Option Request} {status : StatusCode} (clock : Clock)
    (parses : Request.parse platform.tables data = .ok parsed)
    (bypass : Bypass platform server data world parsed status) :
    Own platform server data world parsed ∧
      ∃ reply, respond platform server clock data world = .ok reply ∧
        reply.response = .error status := by
  cases bypass with
  | tooLarge large => exact ⟨Or.inl large, _, respond_large parses large, rfl⟩
  | badRequest fits => exact ⟨Or.inr nofun, _, respond_none parses fits, rfl⟩
  | @script request cgi loc fits taken fails =>
    constructor
    · right
      intro other isRequest scripted
      cases isRequest
      obtain ⟨cgi', loc', taken', answers⟩ := scripted
      rw [taken] at taken'
      cases taken'
      exact fails answers
    · refine ⟨_, respond_some parses fits, ?_⟩
      rw [buildResponse_eq_follow, taken]
      exact run_fails fails

theorem paged_respond {parsed : Option Request} {reply : Reply}
    (parses : Request.parse platform.tables data = .ok parsed)
    (computed : respond platform server clock data world = .ok reply)
    (own : Own platform server data world parsed) :
    (∃ status, Bypass platform server data world parsed status ∧ reply.response = .error status) ∨
      Paged (server.limitConfig parsed) world.files reply.response := by
  by_cases large : Large server data parsed
  · rw [respond_large parses large] at computed
    cases computed
    exact Or.inl ⟨_, .tooLarge large, rfl⟩
  · cases parsed with
    | none =>
      rw [respond_none parses large] at computed
      cases computed
      exact Or.inl ⟨_, .badRequest large, rfl⟩
    | some request =>
      rw [respond_some parses large] at computed
      cases computed
      by_cases script : ∃ cgi loc,
          route (splitQuery request) (server.matchConfig request) = .script cgi loc
      · obtain ⟨cgi, loc, taken⟩ := script
        have fails : ¬Answers platform
            (.new cgi.interpreter (scriptPath (splitQuery request).path loc))
            (splitQuery request) world.files := by
          intro answers
          rcases own with isLarge | unscripted
          · exact large isLarge
          · exact unscripted request rfl ⟨cgi, loc, taken, answers⟩
        refine Or.inl ⟨_, .script large taken fails, ?_⟩
        show (buildResponse platform clock (splitQuery request) _ world).1 = _
        rw [buildResponse_eq_follow, taken]
        exact run_fails fails
      · right
        show Paged _ _ (buildResponse platform clock (splitQuery request) _ world).1
        rw [buildResponse_eq_follow]
        apply usesPages_follow
        intro cgi loc taken
        exact script ⟨cgi, loc, taken⟩

end

theorem PagesUsed.default {platform : Platform} {server : Server} {clock : Clock} {data : Bytes}
    {world : World} (used : PagesUsed platform server data world clock) {parsed : Option Request}
    {status : StatusCode} {page : Str} {contents : Bytes}
    (parses : Request.parse platform.tables data = .ok parsed)
    (bypass : Bypass platform server data world parsed status)
    (configured : (errorCode status).bind (server.limitConfig parsed).errorPages.get = some page)
    (readable : world.files.read (filePath page) = .ok contents) :
    contents = (Response.error status).body := by
  obtain ⟨own, reply, computed, same⟩ := respond_bypass clock parses bypass
  have paged := used parsed reply parses computed own
  rw [same] at paged
  exact (paged page contents configured readable).1.symm

/-- The configured pages are used everywhere exactly where, for an error that bypasses them, no
readable page differs from the default one. -/
theorem pagesUsed_iff (platform : Platform) (server : Server) (clock : Clock) (data : Bytes)
    (world : World) : PagesUsed platform server data world clock ↔
      ∀ parsed status page contents, Request.parse platform.tables data = .ok parsed →
        Bypass platform server data world parsed status →
        (errorCode status).bind (server.limitConfig parsed).errorPages.get = some page →
        world.files.read (filePath page) = .ok contents →
        contents = (Response.error status).body := by
  constructor
  · intro used parsed status page contents parses bypass configured readable
    exact used.default parses bypass configured readable
  · intro defaults parsed reply parses computed own
    rcases paged_respond parses computed own with ⟨status, bypass, same⟩ | paged
    · rw [same]
      intro page contents configured readable
      exact ⟨(defaults parsed status page contents parses bypass configured readable).symm, rfl⟩
    · exact paged

def pageName : Str := "400.html".toList

def pagedServer : Server :=
  ⟨[{ webConfig with errorPages := HashMap.empty.insert 400 pageName }], by simp⟩

def pagedWorld : World :=
  { emptyWorld with files := (bare.write (filePath pageName) (utf8 "Oops")).2 }

theorem pages_bypassed :
    ¬∀ (platform : Platform) (server : Server) (clock : Clock) (data : Bytes) (world : World),
      PagesUsed platform server data world clock := by
  intro used
  have parses : Request.parse quietPlatform.tables (utf8 "x") = .ok none := by rfl
  have readable : pagedWorld.files.read (filePath pageName) = .ok (utf8 "Oops") := by
    decide +kernel
  have bypass : Bypass quietPlatform pagedServer (utf8 "x") pagedWorld none .badRequest :=
    .badRequest (by unfold Large; decide +kernel)
  have same := (used quietPlatform pagedServer ⟨0, 0, 0⟩ (utf8 "x") pagedWorld).default parses bypass
    (HashMap.get_insert_self _ _ _) readable
  exact absurd same (by decide +kernel)

end LocalServer.ErrorPages
