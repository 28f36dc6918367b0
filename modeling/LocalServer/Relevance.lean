import LocalServer.ErrorPages
import LocalServer.ResponseFraming
import LocalServer.Segmentation

/-! What of a request can make a difference. Of its headers, only `Host`, `Cookie` and
`Content-Type` are looked at once the body is known; a query header of the client's own is
overwritten. -/

namespace LocalServer.Relevance
open Library Machine Action Utf8 Text Request Handler Server Loop Effects
  ErrorPages ResponseFraming Segmentation

/-- Two requests that cannot be told apart by what they are answered. -/
structure Alike (first second : Request) : Prop where
  method : first.method = second.method
  path : first.path = second.path
  body : first.body = second.body
  host : first.headers.get "host".toList = second.headers.get "host".toList
  cookie : first.headers.get "cookie".toList = second.headers.get "cookie".toList
  contentType : first.headers.get "content-type".toList = second.headers.get "content-type".toList

structure Same (first second : Request) : Prop extends Alike first second where
  query : first.headers.get "x-query-string".toList = second.headers.get "x-query-string".toList

section
variable {first second : Request}

theorem get_splitQuery (request : Request) {name : Str} (other : name ≠ "x-query-string".toList) :
    (splitQuery request).headers.get name = request.headers.get name := by
  unfold splitQuery
  cases splitOnce '?' request.path with
  | none => exact HashMap.get_insert_of_ne _ _ _ _ other
  | some parts => exact HashMap.get_insert_of_ne _ _ _ _ other

/-- What the query header of the client's own said is lost. -/
theorem get_query (request : Request) :
    (splitQuery request).headers.get "x-query-string".toList =
      some (Cgi.queryString request.path) := by
  unfold splitQuery Cgi.queryString
  cases splitOnce '?' request.path with
  | none => exact HashMap.get_insert_self _ _ _
  | some parts => exact HashMap.get_insert_self _ _ _

theorem path_splitQuery (request : Request) :
    (splitQuery request).path = ((splitOnce '?' request.path).map Prod.fst).getD request.path := by
  unfold splitQuery
  cases splitOnce '?' request.path <;> rfl

theorem method_splitQuery (request : Request) : (splitQuery request).method = request.method := by
  unfold splitQuery
  cases splitOnce '?' request.path <;> rfl

theorem body_splitQuery (request : Request) : (splitQuery request).body = request.body := by
  unfold splitQuery
  cases splitOnce '?' request.path <;> rfl

theorem Alike.splitQuery (alike : Alike first second) :
    Same (Server.splitQuery first) (Server.splitQuery second) where
  method := by rw [method_splitQuery, method_splitQuery, alike.method]
  path := by rw [path_splitQuery, path_splitQuery, alike.path]
  body := by rw [body_splitQuery, body_splitQuery, alike.body]
  host := by rw [get_splitQuery _ (by decide), get_splitQuery _ (by decide), alike.host]
  cookie := by rw [get_splitQuery _ (by decide), get_splitQuery _ (by decide), alike.cookie]
  contentType := by
    rw [get_splitQuery _ (by decide), get_splitQuery _ (by decide), alike.contentType]
  query := by rw [get_query, get_query, alike.path]

/-! The handlers -/

theorem Alike.matchConfig (alike : Alike first second) (server : Server) :
    server.matchConfig first = server.matchConfig second := by
  have host : Server.host first = Server.host second := by
    unfold Server.host
    rw [alike.host]
  unfold Server.matchConfig
  rw [host]

theorem Alike.sessionId (alike : Alike first second) : first.sessionId = second.sessionId := by
  unfold Request.sessionId cookies
  rw [alike.cookie]

theorem Same.command (same : Same first second) (runner : CgiRunner) :
    runner.command first = runner.command second := by
  unfold CgiRunner.command
  rw [same.query, same.method, same.path, same.contentType, same.body]

theorem Same.run (same : Same first second) (platform : Platform) (runner : CgiRunner) :
    runner.run platform first = runner.run platform second := by
  unfold CgiRunner.run
  rw [same.command]

theorem Same.runScript (same : Same first second) (platform : Platform) (runner : CgiRunner) :
    World.runScript platform runner first = World.runScript platform runner second := by
  funext world
  simp only [World.runScript, same.run]

theorem Alike.route (alike : Alike first second) (config : ServerConfig) :
    route first config = route second config := by
  unfold Effects.route locationRoute
  rw [alike.path, alike.method]

theorem Same.follow (same : Same first second) (platform : Platform) (clock : Clock)
    (config : ServerConfig) (route : Route) :
    follow platform clock first config route = follow platform clock second config route := by
  cases route with
  | redirect target => rfl
  | login =>
    unfold Effects.follow handleLogin
    rw [same.body]
  | logout =>
    unfold Effects.follow handleLogout
    rw [same.sessionId]
  | whoami =>
    unfold Effects.follow handleWhoami sessionUser
    rw [same.sessionId]
  | script cgi loc =>
    unfold Effects.follow
    dsimp only
    rw [same.path, same.runScript]
  | static loc =>
    unfold Effects.follow
    rw [same.path]
  | upload loc =>
    unfold Effects.follow handlePost
    rw [same.body, same.path]
  | deletion loc =>
    unfold Effects.follow handleDelete
    rw [same.path]
  | refused status => rfl

theorem Same.buildResponse (same : Same first second) (platform : Platform) (clock : Clock)
    (config : ServerConfig) :
    buildResponse platform clock first config = buildResponse platform clock second config := by
  rw [buildResponse_eq_follow, buildResponse_eq_follow, same.route, same.follow]

end

theorem respond_request {platform : Platform} {server : Server} {data : Bytes} {request : Request}
    (parsed : parse platform.tables data = .ok (some request)) (clock : Clock) (world : World) :
    respond platform server clock data world =
      if (server.matchConfig request).clientMaxBodySize < data.length then .ok .tooLarge
      else .ok (.answered
        (buildResponse platform clock (splitQuery request) (server.matchConfig request) world).1
        (buildResponse platform clock (splitQuery request) (server.matchConfig request) world).2) := by
  by_cases large : (server.matchConfig request).clientMaxBodySize < data.length
  · rw [if_pos large, respond, parsed]
    exact if_pos large
  · rw [if_neg large]
    exact respond_some parsed large

/-- Two requests with the same method, path, body, host, cookies and content type get the same
answer and leave the same files and sessions, if both or neither are over the size limit: no
other header, the version and the order of headers make a difference. -/
theorem answers_alike (platform : Platform) (server : Server) (clock : Clock) (world : World)
    (data other : Bytes) (request request' : Request)
    (parsed : parse platform.tables data = .ok (some request))
    (parsed' : parse platform.tables other = .ok (some request')) (alike : Alike request request')
    (limit : (server.matchConfig request).clientMaxBodySize < data.length ↔
      (server.matchConfig request').clientMaxBodySize < other.length) :
    respond platform server clock data world = respond platform server clock other world := by
  have same := alike.splitQuery
  rw [alike.matchConfig server] at limit
  rw [respond_request parsed, respond_request parsed', alike.matchConfig server, same.buildResponse]
  by_cases large : (server.matchConfig request').clientMaxBodySize < data.length
  · rw [if_pos large, if_pos (limit.mp large)]
  · rw [if_neg large, if_neg fun exceeds => large (limit.mpr exceeds)]

def plainAsk : Bytes := utf8 "GET /page?x HTTP/1.1\r\nHost: h\r\n\r\n"

def wordyAsk : Bytes :=
  utf8 "GET /page?x HTTP/1.0\r\nX-Query-String: y\r\nHost: h\r\nExpect: 9\r\n\r\n"

def IsPage (request : Request) : Prop :=
  (request.method = .get ∧ request.path = "/page?x".toList ∧ request.body = []) ∧
    request.headers.get "host".toList = some "h".toList ∧
    request.headers.get "cookie".toList = none ∧
    request.headers.get "content-type".toList = none

instance : DecidablePred IsPage := fun request => by
  unfold IsPage
  infer_instance

theorem IsPage.alike {first second : Request} (page : IsPage first) (page' : IsPage second) : Alike first second := by
  obtain ⟨⟨method, path, body⟩, host, cookie, contentType⟩ := page
  obtain ⟨⟨method', path', body'⟩, host', cookie', contentType'⟩ := page'
  exact ⟨method.trans method'.symm, path.trans path'.symm, body.trans body'.symm,
    host.trans host'.symm, cookie.trans cookie'.symm, contentType.trans contentType'.symm⟩

theorem parse_some {ask : Bytes} {asked : Request → Prop} [DecidablePred asked]
    (read : (parse asciiTables ask).map (Option.any (decide <| asked ·)) = .ok true) :
    ∃ request, parse asciiTables ask = .ok (some request) ∧ asked request := by
  cases result : parse asciiTables ask with
  | error panic =>
    rw [result] at read
    exact nomatch read
  | ok found =>
    rw [result] at read
    obtain ⟨request, rfl, told⟩ := (Option.any_eq_true _ _).mp (Except.ok.inj read)
    exact ⟨request, rfl, of_decide_eq_true told⟩

theorem parse_plainAsk : ∃ request, parse asciiTables plainAsk = .ok (some request) ∧
    IsPage request := by
  apply parse_some
  decide +kernel

theorem parse_wordyAsk : ∃ request, parse asciiTables wordyAsk = .ok (some request) ∧
    IsPage request := by
  apply parse_some
  decide +kernel

theorem limit_webServer (request : Request) :
    (webServer.matchConfig request).clientMaxBodySize = webConfig.clientMaxBodySize := by
  rw [List.mem_singleton.mp (matchConfig_mem webServer request)]

theorem answers_alike_page :
    respond quietPlatform webServer ⟨0, 0, 0⟩ plainAsk emptyWorld =
      respond quietPlatform webServer ⟨0, 0, 0⟩ wordyAsk emptyWorld := by
  obtain ⟨request, parsed, page⟩ := parse_plainAsk
  obtain ⟨request', parsed', page'⟩ := parse_wordyAsk
  have small : ¬(webServer.matchConfig request).clientMaxBodySize < plainAsk.length := by
    rw [limit_webServer]
    decide +kernel
  have small' : ¬(webServer.matchConfig request').clientMaxBodySize < wordyAsk.length := by
    rw [limit_webServer]
    decide +kernel
  exact answers_alike quietPlatform webServer ⟨0, 0, 0⟩ emptyWorld plainAsk wordyAsk request request'
    parsed parsed' (page.alike page') (iff_of_false small small')

end LocalServer.Relevance
