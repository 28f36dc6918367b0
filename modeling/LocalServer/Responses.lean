import LocalServer.Effects
import LocalServer.Footprint

/-! The shapes that an answer can have, and which answers wait on a descriptor. -/

namespace LocalServer.Responses
open Library Action Machine Utf8 Text Handler Effects

/-- What `build_response` can give under a configuration. -/
inductive Answer (tables : CaseTables) (clock : Clock) (config : ServerConfig) :
    Response → Prop where
  | page {status : StatusCode} (other : status ≠ .contentTooLarge) (body : Bytes) :
    Answer tables clock config (.new status "text/html".toList body)
  | file (path : Str) (contents : Bytes) :
    Answer tables clock config (.new .ok (getContentType path) contents)
  | script (output : Bytes) : Answer tables clock config (Cgi.parseCgiOutput tables output)
  | login (body : Bytes) :
    Answer tables clock config ((Response.new .ok "text/html".toList body).setCookie
      "session_id".toList (generateId clock))
  | logout (body : Bytes) :
    Answer tables clock config ((Response.new .ok "text/html".toList body).setCookie
      "session_id".toList "deleted; Max-Age=0".toList)
  | redirect {loc : Location} {target : Str} (isLocation : loc ∈ config.locations)
      (redirects : loc.redirect = some target) (body : Bytes) :
    Answer tables clock config (.redirect target body)

section
variable {request : Request} {config : ServerConfig}

/-- The locations refuse requests that match none of them, or whose method they do not allow. -/
theorem locationRoute_refuses {status : StatusCode}
    (taken : locationRoute request config = .refused status) :
    status = .notFound ∨ status = .methodNotAllowed := by
  unfold locationRoute at taken
  cases matched : matchLocation request.path config with
  | none =>
    rw [matched] at taken
    cases taken
    exact .inl rfl
  | some loc =>
    rw [matched] at taken
    dsimp only at taken
    split_ifs at taken
    · split at taken <;> cases taken
      exact .inr rfl
    · cases taken
      exact .inr rfl

theorem locationRoute_direct (target : Str) : locationRoute request config ≠ .redirect target := by
  unfold locationRoute
  cases matchLocation request.path config with
  | none => simp
  | some loc =>
    dsimp only
    split_ifs
    · split <;> simp
    · simp

theorem route_redirect {target : Str} (taken : route request config = .redirect target) :
    ∃ loc ∈ config.locations, loc.redirect = some target := by
  unfold route at taken
  cases chosen : (matchLocation request.path config).bind Location.redirect with
  | some other =>
    rw [chosen] at taken
    cases taken
    obtain ⟨loc, matched, redirects⟩ := Option.bind_eq_some_iff.mp chosen
    exact ⟨loc, (matchLocation_leads matched).1, redirects⟩
  | none =>
    rw [chosen] at taken
    dsimp only at taken
    split_ifs at taken
    exact absurd taken (locationRoute_direct target)

theorem route_refused {status : StatusCode} (taken : route request config = .refused status) :
    status = .notFound ∨ status = .methodNotAllowed := by
  unfold route at taken
  cases chosen : (matchLocation request.path config).bind Location.redirect with
  | some other =>
    rw [chosen] at taken
    cases taken
  | none =>
    rw [chosen] at taken
    dsimp only at taken
    split_ifs at taken
    exact locationRoute_refuses taken

end

/-! What the handlers return -/

section
variable {tables : CaseTables} {clock : Clock} {config : ServerConfig}

theorem answers_errorResponse {status : StatusCode} (other : status ≠ .contentTooLarge) :
    Returns (Answer tables clock config) (errorResponse status config) := by
  unfold errorResponse
  cases (errorCode status).bind config.errorPages.get with
  | none => exact fun world => .page other _
  | some page =>
    apply Returns.bind
    intro contents
    cases contents <;> exact fun world => .page other _

theorem answers_serveDirectory (urlPath dirPath : Str) :
    Returns (Answer tables clock config) (serveDirectory urlPath dirPath config) := by
  unfold serveDirectory
  split_ifs
  · apply Returns.bind
    intro listed
    cases listed with
    | error failed => exact answers_errorResponse (by decide)
    | ok found =>
      obtain ⟨place, names⟩ := found
      apply Returns.bind
      exact fun rows world => .page (by decide) _
  · exact answers_errorResponse (by decide)

theorem answers_serveFound (path file : Str) (found : Node) :
    Returns (Answer tables clock config) (serveFound path file found config) := by
  unfold serveFound
  split_ifs
  · apply Returns.bind
    intro contents
    cases contents with
    | ok index => exact fun world => .page (by decide) _
    | error failed => exact answers_serveDirectory _ _
  · apply Returns.bind
    intro contents
    cases contents with
    | ok contents => exact fun world => .file path contents
    | error failed => exact answers_errorResponse (by decide)

theorem answers_serveFile (path root : Str) :
    Returns (Answer tables clock config) (serveFile path root config) := by
  apply Returns.bind
  intro found
  cases found with
  | ok found => exact answers_serveFound _ _ _
  | error failed =>
    apply Returns.bind
    intro again
    cases again with
    | ok found => exact answers_serveFound _ _ _
    | error failed => exact answers_errorResponse (by decide)

theorem answers_handlePost (request : Request) (root : Str) :
    Returns (Answer tables clock config) (handlePost request root config) := by
  unfold handlePost
  split_ifs
  · exact answers_errorResponse (by decide)
  · apply Returns.bind
    intro created
    cases created with
    | error failed => exact answers_errorResponse (by decide)
    | ok done =>
      apply Returns.bind
      intro written
      cases written with
      | error failed => exact answers_errorResponse (by decide)
      | ok done => exact fun world => .page (by decide) _

theorem answers_handleDelete (request : Request) (root : Str) :
    Returns (Answer tables clock config) (handleDelete request root config) := by
  apply Returns.bind
  intro removed
  cases removed with
  | error failed => exact answers_errorResponse (by decide)
  | ok done => exact fun world => .page (by decide) _

theorem answers_handleLogin (request : Request) :
    Returns (Answer tables clock config) (handleLogin clock request) := by
  intro world
  unfold handleLogin
  split_ifs
  · exact .login _
  · exact .page (by decide) _

theorem answers_handleWhoami (request : Request) :
    Returns (Answer tables clock config) (handleWhoami clock request config) := by
  apply Returns.bind
  intro user
  cases user with
  | some name => exact fun world => .page (by decide) _
  | none => exact answers_errorResponse (by decide)

end

theorem answers_runScript (platform : Platform) (clock : Clock) (config : ServerConfig)
    (runner : CgiRunner) (request : Request) :
    Returns (Answer platform.tables clock config) (World.runScript platform runner request) := by
  intro world
  unfold World.runScript CgiRunner.run
  dsimp only
  split
  · exact .page (by decide) _
  · split
    · exact .page (by decide) _
    · split_ifs
      · exact .script _
      · exact .page (by decide) _

theorem answers_buildResponse (platform : Platform) (clock : Clock) (request : Request)
    (config : ServerConfig) :
    Returns (Answer platform.tables clock config)
      (buildResponse platform clock request config) := by
  rw [buildResponse_eq_follow]
  cases taken : route request config with
  | redirect target =>
    obtain ⟨loc, isLocation, redirects⟩ := route_redirect taken
    exact fun world => .redirect isLocation redirects _
  | login => exact answers_handleLogin request
  | logout => exact fun world => .logout _
  | whoami => exact answers_handleWhoami request
  | script cgi loc => exact answers_runScript _ _ _ _ _
  | static loc => exact answers_serveFile _ _
  | upload loc => exact answers_handlePost _ _
  | deletion loc => exact answers_handleDelete _ _
  | refused status =>
    apply answers_errorResponse
    rcases route_refused taken with rfl | rfl <;> decide

theorem statusOf_ne (value : Str) : Cgi.statusOf value ≠ .contentTooLarge := by
  unfold Cgi.statusOf
  dsimp only
  split_ifs <;> simp

theorem readHeader_status_ne (tables : CaseTables) {known : StatusCode × Str} (line : Str)
    (other : known.1 ≠ .contentTooLarge) :
    (Cgi.readHeader tables known line).1 ≠ .contentTooLarge := by
  unfold Cgi.readHeader
  cases splitOnce ':' line with
  | none => exact other
  | some pair =>
    obtain ⟨key, value⟩ := pair
    dsimp only
    split_ifs
    · exact other
    · exact statusOf_ne value
    · exact other

/-- No handler answers that a request is too large. -/
theorem Answer.status_ne {tables : CaseTables} {clock : Clock} {config : ServerConfig}
    {response : Response} (isAnswer : Answer tables clock config response) :
    response.status ≠ .contentTooLarge := by
  cases isAnswer with
  | page other body => exact other
  | file path contents => exact nofun
  | script output =>
    unfold Cgi.parseCgiOutput
    cases Cgi.splitOutput output with
    | none => exact nofun
    | some halves =>
      let Other (known : StatusCode × Str) : Prop := known.1 ≠ .contentTooLarge
      have start : Other (.ok, "text/html".toList) := nofun
      have folded : Other ((lines (fromUtf8Lossy halves.1)).foldl (Cgi.readHeader tables)
          (.ok, "text/html".toList)) :=
        List.foldlRecOn _ _ start fun known other line _ => readHeader_status_ne tables line other
      exact folded
  | login body => exact nofun
  | logout body => exact nofun
  | redirect isLocation redirects body => exact nofun

inductive Reached (tables : CaseTables) (server : Server) : Response → Prop where
  | tooLarge : Reached tables server (.error .contentTooLarge)
  | badRequest : Reached tables server (.error .badRequest)
  | answer {clock : Clock} {response : Response} (request : Request)
      (isAnswer : Answer tables clock (server.matchConfig request) response) :
    Reached tables server response

section
variable (platform : Platform) (server : Server) (clock : Clock)

theorem reached_respond {data : Bytes} {world : World} {reply : Server.Reply}
    (computed : Server.respond platform server clock data world = .ok reply) :
    Reached platform.tables server reply.response := by
  unfold Server.respond at computed
  cases parsed : Request.parse platform.tables data with
  | error panic =>
    rw [parsed] at computed
    cases computed
  | ok result =>
    simp only [parsed, bind, Except.bind] at computed
    split_ifs at computed
    · cases computed
      exact .tooLarge
    · cases result with
      | none =>
        cases computed
        exact .badRequest
      | some request =>
        cases computed
        exact .answer (Server.splitQuery request) (answers_buildResponse _ _ _ _ _)

def NoneQueued (before after : Loop) : Prop :=
  ∀ fd queued, after.writeBuffers.get fd = some queued → before.writeBuffers.get fd = some queued

instance : Std.Refl NoneQueued := ⟨fun _ _ _ held => held⟩

instance : IsTrans Loop NoneQueued :=
  ⟨fun _ _ _ early late fd queued held => early fd queued (late fd queued held)⟩

theorem noneQueued_removeWrite (fd : Fd) : Keeps NoneQueued (Loop.removeWrite fd) := by
  intro loop other queued held
  by_cases same : other = fd
  · rw [same, Loop.removeWrite, HashMap.get_remove_self] at held
    cases held
  · rwa [Loop.removeWrite, HashMap.get_remove_of_ne _ _ _ same] at held

theorem noneQueued_extendRead (fd : Fd) (segment : Bytes) :
    Keeps NoneQueued (Loop.extendRead fd segment) := by
  intro loop other queued held
  unfold Loop.extendRead at held
  split at held <;> exact held

theorem noneQueued_draining (fd : Fd) : Footprint.Draining fd NoneQueued where
  issue := fun _ _ _ _ _ _ held => held
  removeRead := fun _ _ _ held => held
  removeWrite := noneQueued_removeWrite fd
  extendRead := noneQueued_extendRead fd

theorem held_queue {fd other : Fd} {response : Response} {loop : Loop} {queued : Bytes}
    (held : (Server.queue fd response loop).2.writeBuffers.get other = some queued) :
    loop.writeBuffers.get other = some queued ∨ queued = response.serializeResponse := by
  have stored : (Server.queue fd response loop).2.writeBuffers =
    loop.writeBuffers.insert fd response.serializeResponse := rfl
  rw [stored, HashMap.get_insert] at held
  split_ifs at held
  · exact .inr (Option.some.inj held).symm
  · exact .inl held

/-- What waits after a read event waited before, or is a response that can be given. -/
theorem queued_handleRead {fd other : Fd} {results : List ReadResult} {loop : Loop} {queued : Bytes}
    (held : (Server.handleRead platform server clock fd results loop).2.writeBuffers.get other =
      some queued) :
    loop.writeBuffers.get other = some queued ∨
      ∃ response, Reached platform.tables server response ∧ queued = response.serializeResponse := by
  have drained := (noneQueued_draining fd).drain results loop other queued
  rw [Server.handleRead, bind_apply] at held
  generalize Server.drain fd results loop = state at held drained
  obtain ⟨more, after⟩ := state
  cases more with
  | false => exact .inl (drained held)
  | true =>
    simp only [if_true] at held
    unfold Server.answer at held
    split at held
    · exact .inl (drained held)
    · split at held
      · exact .inl (drained held)
      · rcases held_queue held with kept | same
        · exact .inl (drained kept)
        · exact .inr ⟨_, .tooLarge, same⟩
      · next response world computed =>
        rcases held_queue held with kept | same
        · exact .inl (drained kept)
        · exact .inr ⟨response, reached_respond platform server clock computed, same⟩

end

end LocalServer.Responses
