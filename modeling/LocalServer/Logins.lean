import LocalServer.ClientView
import LocalServer.Cookies
import LocalServer.SessionLoops

/-! A user who logs in and comes back. The client keeps the cookie that it reads in the answer to
its login, and sends it with a later request, on any connection to any of the threads. -/

namespace LocalServer.Logins
open Library Action Machine Utf8 Text Request Handler Server Loop Handling Footprint Relevance
  RequestFraming ResponseFraming Effects SessionRuns StoreRuns SessionLoops Threads ClientView
  Cookies

def cookieLabel : Bytes := utf8 "Set-Cookie: "

def cookieOf (line : Bytes) : Option (Str × Str) :=
  if cookieLabel <+: line then
    splitOnce '=' ((fromUtf8Lossy (line.drop cookieLabel.length)).takeWhile (· != ';'))
  else none

def keptCookie (view : Seen) : Option (Str × Str) := view.lines.findSome? cookieOf

theorem cookieOf_other {first : UInt8} (rest : Bytes) (other : first ≠ 83) :
    cookieOf (first :: rest) = none := by
  rw [cookieOf, if_neg]
  intro labelled
  exact other (List.cons_prefix_cons.mp labelled).1.symm

theorem cookieOf_setCookie {name value : Str} (attributes : Str) (single : '=' ∉ name)
    (nameEnds : ';' ∉ name) (valueEnds : ';' ∉ value) :
    cookieOf (encode ("Set-Cookie: ".toList ++ (name ++ '=' :: value ++ ';' :: attributes))) =
      some (name, value) := by
  have label : encode "Set-Cookie: ".toList = cookieLabel := rfl
  have kept : ∀ c ∈ name ++ '=' :: value, (c != ';') = true := by
    intro c member
    rw [bne_iff_ne]
    rintro rfl
    simp only [List.mem_append, List.mem_cons] at member
    rcases member with inName | mark | inValue
    · exact nameEnds inName
    · cases mark
    · exact valueEnds inValue
  rw [encode_append, label, cookieOf, if_pos (List.prefix_append _ _), List.drop_left,
    fromUtf8Lossy_encode, List.takeWhile_append_of_pos kept, List.takeWhile_cons_of_neg (by simp),
    List.append_nil, splitOnce_append _ single]

def loginPage (id : Str) : Response :=
  (Response.new .ok "text/html".toList
    (utf8 "<html><body><h1>Logged in!</h1></body></html>")).setCookie "session_id".toList id

theorem answer_issues {visit : Visit} {id : Str} (issues : visit.Issues id) (store : SessionStore)
    (direct : SessionRoute visit.request →
      (matchLocation visit.request.path visit.config).bind Location.redirect = none) :
    (visit.answer store).1 = loginPage id := by
  obtain ⟨isLogin, matching, rfl⟩ := issues
  rw [answer_login store direct isLogin, handleLogin, if_pos matching]
  rfl

theorem digits_lack {id : Str} (digits : Numeral.IsDigits 16 id) {mark : Char}
    (noDigit : (Numeral.toDigit 16 mark).isSome = false) : mark ∉ id := by
  intro member
  rw [digits.2 mark member] at noDigit
  cases noDigit

theorem sessionName_marks :
    ';' ∉ "session_id".toList ∧ '=' ∉ "session_id".toList ∧ Single "session_id".toList := by decide

/-- The client reads the page of its login, and keeps the id that was issued. -/
theorem readReply_loginPage {id : Str} (digits : Numeral.IsDigits 16 id) :
    ∃ view, readReply (loginPage id).serializeResponse = some (view, []) ∧
      keptCookie view = some ("session_id".toList, id) := by
  have cookies : (loginPage id).cookies =
      ["session_id".toList ++ '=' :: id ++ ';' :: " HttpOnly; SameSite=Strict".toList] := by
    simp [loginPage, Response.setCookie, Response.new]
  have unbroken : Unbroken (loginPage id) := by
    have type : '\n' ∉ "text/html".toList := by decide
    refine ⟨type, ?_, ?_⟩
    · intro target redirects
      cases redirects
    · intro cookie member
      have fresh : '\n' ∉ id := digits_lack digits (by decide)
      rw [cookies, List.mem_singleton] at member
      rw [member]
      simp [fresh]
  refine ⟨_, readReply_serializeResponse unbroken, ?_⟩
  have status : cookieOf (encode (statusLine (loginPage id))) = none := cookieOf_other _ (by decide)
  have type : cookieOf (encode ("Content-Type: ".toList ++ (loginPage id).contentType)) = none :=
    cookieOf_other _ (by decide)
  have length : cookieOf (encode ("Content-Length: ".toList ++
      Response.decimal (loginPage id).body.length)) = none := cookieOf_other _ (by decide)
  obtain ⟨nameEnds, single, -⟩ := sessionName_marks
  have kept := cookieOf_setCookie " HttpOnly; SameSite=Strict".toList single nameEnds
    (digits_lack digits (by decide))
  have location : (loginPage id).redirectLocation = none := rfl
  simp only [keptCookie, seen, headerLines, location, cookies, Option.toList_none, List.map_nil,
    List.map_cons, List.nil_append, List.cons_append, List.findSome?_cons, status, type, length,
    List.append_assoc] at kept ⊢
  rw [kept]

section
variable {tables : CaseTables} (sent : CookieRequest tables)

theorem parse_sent (fits : Addressable sent.bytes) (framed : sent.Framed) :
    ∃ body, parse tables sent.bytes =
      .ok (some ⟨methodOf sent.method, sent.path, sent.version, sent.headers, body⟩) := by
  rw [sent.parse_bytes fits, bodyOf]
  by_cases chunked : isChunked tables sent.headers = true
  · obtain ⟨decoded, decodes⟩ := framed chunked
    rw [if_pos chunked, decodes]
    exact ⟨decoded, rfl⟩
  · rw [if_neg chunked]
    exact ⟨sent.body, rfl⟩

theorem sessionId_sent {request : Request} (headers : request.headers = sent.headers) {id : Str}
    (among : ("session_id".toList, id) ∈ sent.cookies.map WrittenCookie.pair) :
    (splitQuery request).sessionId = some id := by
  have cookies : (splitQuery request).cookies =
      HashMap.ofPairs (sent.cookies.map WrittenCookie.pair) := by
    rw [Request.cookies, get_splitQuery _ (by decide), headers, sent.get_cookie]
    dsimp only
    rw [foldl_insertCookie_congr (map_trim_splitOnP_trim _ _), foldl_joinCookies]
    intro c white
    rw [beq_eq_false_iff_ne]
    rintro rfl
    cases white
  have distinct : ((sent.cookies.map WrittenCookie.pair).map Prod.fst).Nodup := by
    rw [List.map_map]
    exact sent.distinct
  rw [Request.sessionId, cookies]
  exact (HashMap.get_ofPairs distinct _ _).mpr among

structure Sends (loop : Loop) (event : Event) (results : List ReadResult) (data : Bytes) : Prop where
  drained : ending results = .wouldBlock
  whole : (loop.readBuffers.get event.fd).map (· ++ receivedBytes results) = some data

/-- A request for `/whoami` that the server takes: its bytes are within the limit, and no
location sends it elsewhere. -/
structure AsksWho (server : Server) : Prop where
  fits : Addressable sent.bytes
  framed : sent.Framed
  path : sent.path = "/whoami".toList
  small : ∀ config ∈ server.configs, sent.bytes.length ≤ config.clientMaxBodySize
  direct : ∀ config ∈ server.configs,
    (matchLocation "/whoami".toList config).bind Location.redirect = none

end

theorem handed_sends {platform : Platform} {server : Server} {loop : Loop} {clock : Clock}
    {event : Event} {results : List ReadResult} {data : Bytes} (sends : Sends loop event results data) :
    handed platform server loop (.read clock event results) = admitted platform server clock data := by
  obtain ⟨before, buffer, rfl⟩ := Option.map_eq_some_iff.mp sends.whole
  rw [handed, if_pos sends.drained, buffer]
  rfl

theorem hands_sent {ι : Type} {platform : Platform} {servers : ι → Server} {process : ι → Loop}
    {reader : ι} {event : Event} {results : List ReadResult} {sent : CookieRequest platform.tables}
    (clock : Clock) (sends : Sends (process reader) event results sent.bytes)
    (asks : AsksWho sent (servers reader)) {id : Str}
    (among : ("session_id".toList, id) ∈ sent.cookies.map WrittenCookie.pair) :
    ∃ visit, Hands platform servers process (reader, .read clock event results) (some visit) ∧
      visit.clock = clock ∧ visit.request.path = "/whoami".toList ∧
      visit.request.sessionId = some id ∧
      (matchLocation visit.request.path visit.config).bind Location.redirect = none := by
  obtain ⟨body, parsed⟩ := parse_sent sent asks.fits asks.framed
  generalize isRequest : (⟨methodOf sent.method, sent.path, sent.version, sent.headers, body⟩ : Request) =
    request at parsed
  have headers : request.headers = sent.headers := by rw [← isRequest]
  have path : request.path = "/whoami".toList := by rw [← isRequest, ← asks.path]
  have samePath : (splitQuery request).path = "/whoami".toList := by
    rw [path_splitQuery, path]
    decide
  have config := matchConfig_mem (servers reader) request
  have small := asks.small _ config
  have isAdmitted : admitted platform (servers reader) clock sent.bytes =
      some ⟨clock, splitQuery request, (servers reader).matchConfig request⟩ := by
    rw [admitted, parsed]
    exact if_neg (by omega)
  refine ⟨onStore platform (process reader).world
    ⟨clock, splitQuery request, (servers reader).matchConfig request⟩, ⟨?_, ?_⟩, rfl,
    samePath, sessionId_sent sent headers among, ?_⟩
  · intro world other
    cases other
  · rw [handed_sends sends, isAdmitted]
    rfl
  · show (matchLocation (splitQuery request).path _).bind Location.redirect = none
    rw [samePath]
    exact asks.direct _ config

/-- While its session is alive, a request is answered with the user's name. -/
theorem answer_alive {threads : SessionRuns.Threads} {visit : SessionRuns.Visit}
    (reached : Reaches SessionRuns.step Guard begins threads) (guard : Guard threads visit)
    (whoami : visit.request.path = "/whoami".toList) {id : Str} {time : Nat}
    (carried : visit.request.sessionId = some id) (isIssued : issued id threads.handled = some time)
    (fresh : visit.clock.now ≤ time + hour) :
    (visit.answer threads.store).1 = naming "admin".toList := by
  have agrees := agrees_reached reached
  apply (response_whoami threads.store guard.direct whoami).1
  rcases sessionUser_cases visit threads.store with
    ⟨other, session, isOther, found, expired, -⟩ | ⟨name, looked, -, found⟩
  · rw [carried, Option.some.injEq] at isOther
    have known := (agrees.known other session found).2
    rw [← isOther, isIssued, Option.some.injEq] at known
    omega
  · rw [looked]
    rcases agrees.kept id time isIssued with ⟨session, held⟩ | ⟨earlier, member, expired⟩
    · rw [((found id carried).1 session held).2]
      exact (agrees.known id session held).1
    · have ordered := guard.ordered earlier member
      omega

theorem issued_since {store : SessionStore} {early late : List SessionRuns.Visit}
    {login : SessionRuns.Visit} {id : Str}
    (reached : Reaches SessionRuns.step Guard begins ⟨store, (early ++ login :: late).reverse⟩)
    (issues : login.Issues id) (kept : ∀ visit ∈ late, ¬visit.LogsOut id) :
    ∃ time, issued id (early ++ login :: late).reverse = some time ∧ login.clock.now ≤ time := by
  have latestFirst : (early ++ login :: late).reverse = late.reverse ++ login :: early.reverse := by
    simp
  have ordered : Ordered (early ++ login :: late).reverse := (agrees_reached reached).ordered
  rw [latestFirst] at ordered ⊢
  exact issued_after ordered issues fun visit member => kept visit (List.mem_reverse.mp member)

/-- A user who logs in on one thread is known to all of them: the answer to the login gives the
client a cookie, and a request for `/whoami` that brings it back within the hour, beside other
headers and cookies, on any connection to any thread, is answered with the user's name, unless a
logout with this cookie came in between. -/
theorem logins_come_back {ι : Type} [DecidableEq ι] (platform : Platform) (servers : ι → Server)
    (listeners : ι → Fd) (first before after process : ι → Loop)
    (share : Share first SessionStore.new) (early late : List SessionRuns.Visit)
    (login : SessionRuns.Visit) (thread : ι) (clock : Clock) (event : Event)
    (results : List ReadResult)
    (run : Recorded (ProcessStep platform servers listeners) (Hands platform servers) first early
      before)
    (hands : Hands platform servers before (thread, .read clock event results) (some login))
    (turn : ProcessStep platform servers listeners before (thread, .read clock event results) after)
    (since : Recorded (ProcessStep platform servers listeners) (Hands platform servers) after late
      process)
    (timely : Timely (early ++ login :: late)) (isLogin : SessionRuns.isLogin login.request)
    (matching : credentialsMatch login.request.body = true)
    (kept : ∀ visit ∈ late, ¬visit.LogsOut (generateId login.clock)) :
    (∃ reply view, (after thread).writeBuffers.get event.fd = some reply ∧
      readReply reply = some (view, []) ∧
      keptCookie view = some ("session_id".toList, generateId login.clock)) ∧
    ∀ reader clock' event' results' next (sent : CookieRequest platform.tables),
      Sends (process reader) event' results' sent.bytes → AsksWho sent (servers reader) →
      ("session_id".toList, generateId login.clock) ∈ sent.cookies.map WrittenCookie.pair →
      (∀ visit ∈ early ++ login :: late, visit.clock.now ≤ clock'.now) →
      clock'.now ≤ login.clock.now + hour →
      ProcessStep platform servers listeners process (reader, .read clock' event' results') next →
      (next reader).writeBuffers.get event'.fd =
        some (naming "admin".toList).serializeResponse := by
  have issues : login.Issues (generateId login.clock) := ⟨isLogin, matching, rfl⟩
  constructor
  · obtain ⟨store, shared, -⟩ := run_refines share timely.sooner run
    have queued := (share_handed shared turn hands).2 clock event results rfl
    rw [answer_issues issues store (timely.direct login (by simp))] at queued
    obtain ⟨view, reads, keeps⟩ := readReply_loginPage (isDigits_generateId login.clock)
    exact ⟨_, view, queued, reads, keeps⟩
  · intro reader clock' event' results' next sent sends asks among ordered fresh turn'
    have whole : Recorded (ProcessStep platform servers listeners) (Hands platform servers) first
        (early ++ login :: late) process := by
      have both := (run.step hands turn).append since
      rwa [Option.toList_some, List.append_assoc, List.singleton_append] at both
    obtain ⟨store, shared, reached⟩ := run_refines share timely whole
    obtain ⟨visit, handing, rfl, path, carried, direct⟩ := hands_sent clock' sends asks among
    obtain ⟨time, isIssued, later⟩ := issued_since reached issues kept
    have guard : Guard ⟨store, (early ++ login :: late).reverse⟩ visit :=
      ⟨fun earlier member => ordered earlier (List.mem_reverse.mp member), fun _ => direct⟩
    have answer := answer_alive reached guard path carried isIssued (by omega)
    have queued := (share_handed shared turn' handing).2 visit.clock event' results' rfl
    rwa [answer] at queued

/-! A user who comes back on a second connection -/

def whoReady : Event := ⟨8, false, 1⟩

def comingBack : Loop :=
  ⟨.dispatching [loginReady, whoReady], (HashMap.empty.insert 7 []).insert 8 [], HashMap.empty,
    HashMap.empty, Kernel.new, emptyWorld⟩

def loggedIn : Loop :=
  continueWith (handleRead quietPlatform webServer UploadCycle.epoch 7 [.received loginAsk]
      (dispatched loginReady comingBack)).1 [whoReady]
    (handleRead quietPlatform webServer UploadCycle.epoch 7 [.received loginAsk]
      (dispatched loginReady comingBack)).2

def siteLoggedIn : Thread twoSites → Loop :=
  Function.update (fun _ => notice comingBack loggedIn comingBack) webThread loggedIn

theorem sessionName_ends : Unpadded "session_id".toList := by decide

def whoRequest : CookieRequest quietPlatform.tables where
  method := "GET".toList
  path := "/whoami".toList
  version := "HTTP/1.1".toList
  earlier := ["Host: localhost".toList]
  title := "Cookie".toList
  before := []
  cookies :=
    [⟨"theme".toList, "dark".toList, [], [], [], [], by decide, by decide, by decide, by decide,
        by decide⟩,
      ⟨"session_id".toList, generateId UploadCycle.epoch, [' '], [], [], [], sessionName_marks,
        by decide +kernel, sessionName_ends, by decide +kernel, by decide⟩]
  after := []
  later := []
  body := []
  words := by decide
  titled := by decide
  spaces := by decide
  others := by decide +kernel
  distinct := by decide

theorem asksWho_whoRequest : AsksWho whoRequest webServer where
  fits := by decide +kernel
  framed := by
    have plain : isChunked quietPlatform.tables whoRequest.headers = false := by decide +kernel
    intro chunked
    rw [plain] at chunked
    cases chunked
  path := rfl
  small := by decide +kernel
  direct := by decide +kernel

theorem logins_come_back_whoRequest : ∃ next : Thread twoSites → Loop,
    ProcessStep quietPlatform Thread.server twoListeners siteLoggedIn
        (webThread, .read UploadCycle.epoch whoReady [.received whoRequest.bytes]) next ∧
      (next webThread).writeBuffers.get whoReady.fd =
        some (naming "admin".toList).serializeResponse := by
  have isLoggedIn : siteLoggedIn webThread = loggedIn := Function.update_self _ _ _
  have listener : twoListeners webThread = 3 := if_pos rfl
  have buffer : loggedIn.readBuffers.get whoReady.fd = some [] := by decide +kernel
  obtain ⟨login, hands, timely, isLogin, matching, clock⟩ := @hands_login comingBack (by decide)
  have logs : Step quietPlatform webThread.server (twoListeners webThread) comingBack
      (.read UploadCycle.epoch loginReady [.received loginAsk]) loggedIn := by
    rw [listener]
    exact .read rfl (by decide) rfl
  have comes : ∃ next, Step quietPlatform webThread.server (twoListeners webThread)
      (siteLoggedIn webThread)
      (.read UploadCycle.epoch whoReady [.received whoRequest.bytes]) next := by
    have phase : loggedIn.phase = .dispatching [whoReady] := by decide +kernel
    rw [isLoggedIn, listener]
    exact ⟨_, @Step.read quietPlatform webThread.server 3 loggedIn whoReady []
      [.received whoRequest.bytes] UploadCycle.epoch phase (by decide) rfl⟩
  obtain ⟨next, steps⟩ := comes
  have turn : ProcessStep quietPlatform Thread.server twoListeners siteLoggedIn
      (webThread, .read UploadCycle.epoch whoReady [.received whoRequest.bytes]) _ :=
    Interleaved.step steps
  have sends : Sends (siteLoggedIn webThread) whoReady [.received whoRequest.bytes]
      whoRequest.bytes := by
    refine ⟨rfl, ?_⟩
    rw [isLoggedIn, buffer]
    simp [receivedBytes]
  have among : ("session_id".toList, generateId login.clock) ∈
      whoRequest.cookies.map WrittenCookie.pair := by
    rw [clock]
    exact List.mem_cons_of_mem _ List.mem_cons_self
  have answered := (logins_come_back quietPlatform Thread.server twoListeners (fun _ => comingBack)
    (fun _ => comingBack) siteLoggedIn siteLoggedIn (fun _ => rfl) [] [] login webThread
    UploadCycle.epoch loginReady [.received loginAsk] .start hands (Interleaved.step logs) .start
    timely isLogin matching (by simp)).2
  refine ⟨_, turn, answered webThread UploadCycle.epoch whoReady [.received whoRequest.bytes] _
    whoRequest sends asksWho_whoRequest among ?_ ?_ turn⟩
  · intro visit member
    rw [List.mem_singleton.mp member, clock]
  · rw [clock]
    exact Nat.le_add_right _ _

end LocalServer.Logins
