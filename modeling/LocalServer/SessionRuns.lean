import LocalServer.Effects
import LocalServer.Library.Transition

/-! Sessions over the runs of any number of threads that share one store. -/

namespace LocalServer.SessionRuns
open Library Action Utf8 Text Handler Effects

/-- A request on some thread, with the readings of the moment that thread holds the store's
lock. Files and programs are whatever they are by then. -/
structure Visit where
  platform : Platform
  files : FileSystem
  config : ServerConfig
  request : Request
  clock : Clock

def Visit.answer (visit : Visit) (store : SessionStore) : Response × World :=
  buildResponse visit.platform visit.clock visit.request visit.config ⟨visit.files, store, []⟩

structure Threads where
  store : SessionStore
  handled : List Visit

def begins (threads : Threads) : Prop := threads = ⟨SessionStore.new, []⟩

/-- Some thread handles a request. A request takes the lock at most once, so the threads
interleave in the order in which they take it. -/
def step (before : Threads) (visit : Visit) (after : Threads) : Prop :=
  after = ⟨(visit.answer before.store).2.sessions, visit :: before.handled⟩

/-- The clock does not run backwards, and no location redirects a session route. -/
structure Guard (threads : Threads) (visit : Visit) : Prop where
  ordered : ∀ earlier ∈ threads.handled, earlier.clock.now ≤ visit.clock.now
  direct : SessionRoute visit.request →
    (matchLocation visit.request.path visit.config).bind Location.redirect = none

def isLogin (request : Request) : Prop := request.path = "/login".toList ∧ request.method = .post

def isLogout (request : Request) : Prop := request.path = "/logout".toList ∧ request.method = .post

instance (request : Request) : Decidable (isLogin request) :=
  inferInstanceAs (Decidable (request.path = "/login".toList ∧ request.method = .post))

instance (request : Request) : Decidable (isLogout request) :=
  inferInstanceAs (Decidable (request.path = "/logout".toList ∧ request.method = .post))

def Visit.Issues (visit : Visit) (id : Str) : Prop :=
  isLogin visit.request ∧ credentialsMatch visit.request.body = true ∧ generateId visit.clock = id

def Visit.LogsOut (visit : Visit) (id : Str) : Prop :=
  isLogout visit.request ∧ visit.request.sessionId = some id

instance (visit : Visit) (id : Str) : Decidable (visit.Issues id) :=
  inferInstanceAs (Decidable (isLogin visit.request ∧
    credentialsMatch visit.request.body = true ∧ generateId visit.clock = id))

instance (visit : Visit) (id : Str) : Decidable (visit.LogsOut id) :=
  inferInstanceAs (Decidable (isLogout visit.request ∧ visit.request.sessionId = some id))

/-- The id was issued at most an hour before `now`, and no logout carried it since. -/
def Alive (handled : List Visit) (id : Str) (now : Nat) : Prop :=
  ∃ late login early, handled = late ++ login :: early ∧ login.Issues id ∧
    now ≤ login.clock.now + hour ∧ ∀ visit ∈ late, ¬visit.LogsOut id

/-- When the id was last issued, unless a logout carried it since. -/
def issued (id : Str) : List Visit → Option Nat
  | [] => none
  | visit :: earlier =>
    if visit.Issues id then some visit.clock.now
    else if visit.LogsOut id then none
    else issued id earlier

theorem issued_mem {handled : List Visit} {id : Str} {time : Nat}
    (isIssued : issued id handled = some time) :
    ∃ late login early, handled = late ++ login :: early ∧ login.Issues id ∧
      login.clock.now = time ∧ ∀ visit ∈ late, ¬visit.LogsOut id := by
  induction handled with
  | nil => cases isIssued
  | cons visit earlier ih =>
    rw [issued] at isIssued
    split_ifs at isIssued with issues logsOut
    · cases isIssued
      exact ⟨[], visit, earlier, rfl, issues, rfl, by simp⟩
    · obtain ⟨late, login, early, rfl, loginIssues, atTime, kept⟩ := ih isIssued
      refine ⟨visit :: late, login, early, rfl, loginIssues, atTime, ?_⟩
      intro other member
      rcases List.mem_cons.mp member with rfl | isLate
      · exact logsOut
      · exact kept other isLate

def Ordered (handled : List Visit) : Prop :=
  handled.Pairwise fun late early => early.clock.now ≤ late.clock.now

theorem issued_after {late early : List Visit} {login : Visit} {id : Str}
    (ordered : Ordered (late ++ login :: early)) (issues : login.Issues id)
    (kept : ∀ visit ∈ late, ¬visit.LogsOut id) :
    ∃ time, issued id (late ++ login :: early) = some time ∧ login.clock.now ≤ time := by
  induction late with
  | nil => exact ⟨login.clock.now, by rw [List.nil_append, issued, if_pos issues], le_rfl⟩
  | cons visit late ih =>
    obtain ⟨before, laterOrdered⟩ := List.pairwise_cons.mp ordered
    rw [List.cons_append, issued]
    by_cases again : visit.Issues id
    · exact ⟨visit.clock.now, if_pos again, before login (by simp)⟩
    · rw [if_neg again, if_neg (kept visit List.mem_cons_self)]
      exact ih laterOrdered fun other isLate => kept other (List.mem_cons_of_mem _ isLate)

theorem alive_iff {handled : List Visit} {id : Str} {now : Nat} (ordered : Ordered handled) :
    Alive handled id now ↔ ∃ time, issued id handled = some time ∧ now ≤ time + hour := by
  constructor
  · intro alive
    obtain ⟨late, login, early, rfl, issues, fresh, kept⟩ := alive
    obtain ⟨time, isIssued, later⟩ := issued_after ordered issues kept
    exact ⟨time, isIssued, by omega⟩
  · intro alive
    obtain ⟨time, isIssued, fresh⟩ := alive
    obtain ⟨late, login, early, whole, issues, rfl, kept⟩ := issued_mem isIssued
    exact ⟨late, login, early, whole, issues, fresh, kept⟩

def SameSessions (before after : World) : Prop := after.sessions = before.sessions

instance : Std.Refl SameSessions := ⟨fun _ => rfl⟩

instance : IsTrans World SameSessions := ⟨fun _ _ _ early late => late.trans early⟩

theorem keptByCalls_sameSessions : KeptByCalls SameSessions where
  metadata := fun _ _ => rfl
  read := fun _ _ => rfl
  readDir := fun _ _ => rfl
  entryMetadata := fun _ _ _ _ => rfl
  createDirAll := fun _ _ => rfl
  write := fun _ _ _ => rfl
  removeFile := fun _ _ => rfl
  runScript := fun _ _ _ _ => rfl

/-- Only the session routes look at sessions. -/
theorem sameSessions_follow (platform : Platform) (clock : Clock) (request : Request)
    (config : ServerConfig) {taken : Route} (free : taken ≠ .login ∧ taken ≠ .logout ∧ taken ≠ .whoami) :
    Keeps SameSessions (follow platform clock request config taken) := by
  have calls := keptByCalls_sameSessions
  have reading := calls.toKeptByReading
  cases taken with
  | redirect target => exact keeps_pure _ _
  | login => exact absurd rfl free.1
  | logout => exact absurd rfl free.2.1
  | whoami => exact absurd rfl free.2.2
  | script cgi loc => exact calls.runScript _ _ _
  | static loc => exact keeps_serveFile reading _ _ _
  | upload loc => exact keeps_handlePost calls _ _ _
  | deletion loc => exact keeps_handleDelete calls _ _ _
  | refused status => exact keeps_errorResponse reading _ _

theorem route_session {request : Request} {config : ServerConfig}
    (direct : (matchLocation request.path config).bind Location.redirect = none) :
    (isLogin request → route request config = .login) ∧
      (isLogout request → route request config = .logout) ∧
      (request.path = "/whoami".toList → route request config = .whoami) := by
  unfold route
  rw [direct]
  dsimp only
  refine ⟨fun login => if_pos login, ?_, ?_⟩
  · intro logout
    have notLogin : request.path ≠ "/login".toList := by rw [logout.1]; decide
    rw [if_neg fun both => notLogin both.1]
    exact if_pos logout
  · intro whoami
    have notLogin : request.path ≠ "/login".toList := by rw [whoami]; decide
    have notLogout : request.path ≠ "/logout".toList := by rw [whoami]; decide
    rw [if_neg fun both => notLogin both.1, if_neg fun both => notLogout both.1, if_pos whoami]

theorem route_free {request : Request} {config : ServerConfig} (free : ¬SessionRoute request) :
    route request config ≠ .login ∧ route request config ≠ .logout ∧
      route request config ≠ .whoami := by
  simp only [SessionRoute, not_or] at free
  have others : ∀ taken, taken = .login ∨ taken = .logout ∨ taken = .whoami →
      locationRoute request config ≠ taken := by
    intro taken isSession
    unfold locationRoute
    split
    · rcases isSession with rfl | rfl | rfl <;> simp
    · split_ifs
      · split <;> rcases isSession with rfl | rfl | rfl <;> simp
      · rcases isSession with rfl | rfl | rfl <;> simp
  unfold route
  rw [if_neg free.1, if_neg free.2.1, if_neg free.2.2]
  cases (matchLocation request.path config).bind Location.redirect with
  | some target => exact ⟨by simp, by simp, by simp⟩
  | none => exact ⟨others _ (by simp), others _ (by simp), others _ (by simp)⟩

theorem answer_other {visit : Visit} (free : ¬SessionRoute visit.request) (store : SessionStore) :
    (visit.answer store).2.sessions = store := by
  rw [Visit.answer, buildResponse_eq_follow]
  exact sameSessions_follow _ _ _ _ (route_free free) _

/-! Store operations -/

def userData : HashMap Str Str := HashMap.empty.insert "username".toList "admin".toList

def naming (name : Str) : Response :=
  .new .ok "text/html".toList (encode
    ("<html><body><h1>You are: ".toList ++ name ++ "</h1></body></html>".toList))

section
variable {visit : Visit} (store : SessionStore)
  (direct : SessionRoute visit.request →
    (matchLocation visit.request.path visit.config).bind Location.redirect = none)
include direct

theorem answer_login (login : isLogin visit.request) : visit.answer store =
    handleLogin visit.clock visit.request ⟨visit.files, store, []⟩ := by
  rw [Visit.answer, buildResponse_eq_follow, (route_session (direct (Or.inl login))).1 login]
  rfl

theorem answer_logout (logout : isLogout visit.request) : visit.answer store =
    handleLogout visit.request ⟨visit.files, store, []⟩ := by
  rw [Visit.answer, buildResponse_eq_follow,
    (route_session (direct (Or.inr (Or.inl logout)))).2.1 logout]
  rfl

theorem answer_whoami (whoami : visit.request.path = "/whoami".toList) : visit.answer store =
    handleWhoami visit.clock visit.request visit.config ⟨visit.files, store, []⟩ := by
  rw [Visit.answer, buildResponse_eq_follow,
    (route_session (direct (Or.inr (Or.inr whoami)))).2.2 whoami]
  rfl

theorem sessions_login (login : isLogin visit.request)
    (matching : credentialsMatch visit.request.body = true) : (visit.answer store).2.sessions =
      ((store.create visit.clock).2.set visit.clock (store.create visit.clock).1
        "username".toList "admin".toList).2 := by
  rw [answer_login store direct login]
  unfold handleLogin
  rw [if_pos matching]

theorem sessions_denied (login : isLogin visit.request)
    (wrong : ¬credentialsMatch visit.request.body = true) :
    (visit.answer store).2.sessions = store := by
  rw [answer_login store direct login]
  unfold handleLogin
  rw [if_neg wrong]

theorem sessions_logout (logout : isLogout visit.request) : (visit.answer store).2.sessions =
    match visit.request.sessionId with
      | some id => store.destroy id
      | none => store := by
  rw [answer_logout store direct logout]
  rfl

theorem sessions_whoami (whoami : visit.request.path = "/whoami".toList) :
    (visit.answer store).2.sessions =
      (sessionUser visit.clock visit.request ⟨visit.files, store, []⟩).2.sessions := by
  rw [answer_whoami store direct whoami]
  unfold handleWhoami
  rw [bind_apply]
  cases (sessionUser visit.clock visit.request ⟨visit.files, store, []⟩).1 with
  | some name => rfl
  | none => exact keeps_errorResponse keptByCalls_sameSessions.toKeptByReading _ _ _

theorem response_whoami (whoami : visit.request.path = "/whoami".toList) :
    (∀ name, (sessionUser visit.clock visit.request ⟨visit.files, store, []⟩).1 = some name →
      (visit.answer store).1 = naming name) ∧
    ((sessionUser visit.clock visit.request ⟨visit.files, store, []⟩).1 = none →
      (visit.answer store).1.status = .forbidden ∧
        (visit.answer store).1.redirectLocation = none) := by
  rw [answer_whoami store direct whoami]
  unfold handleWhoami
  rw [bind_apply]
  constructor
  · intro name found
    rw [found]
    rfl
  · intro absent
    rw [absent]
    exact errorResponse_status _ _ _

end

/-- The look-up of a session: one that has expired is dropped. -/
theorem sessionUser_cases (visit : Visit) (store : SessionStore) :
    (∃ id session, visit.request.sessionId = some id ∧ store.sessions.get id = some session ∧
      session.createdAt + hour < visit.clock.now ∧
      sessionUser visit.clock visit.request ⟨visit.files, store, []⟩ =
        (none, ⟨visit.files, ⟨store.sessions.remove id⟩, []⟩)) ∨
    ∃ name, sessionUser visit.clock visit.request ⟨visit.files, store, []⟩ =
        (name, ⟨visit.files, store, []⟩) ∧
      (visit.request.sessionId = none → name = none) ∧
      ∀ id, visit.request.sessionId = some id →
        (∀ session, store.sessions.get id = some session →
          visit.clock.now ≤ session.createdAt + hour ∧ name = session.data.get "username".toList) ∧
        (store.sessions.get id = none → name = none) := by
  unfold sessionUser
  cases visit.request.sessionId with
  | none =>
    right
    exact ⟨none, rfl, by simp⟩
  | some id =>
    unfold SessionStore.getValue
    dsimp only
    rcases SessionStore.getMut_cases store visit.clock id with ⟨absent, looked⟩ |
      ⟨session, found, expired, looked⟩ | ⟨session, found, live, looked⟩
    · right
      rw [looked]
      refine ⟨none, rfl, fun _ => rfl, ?_⟩
      intro other same
      cases same
      constructor
      · intro session found
        rw [absent] at found
        cases found
      · exact fun _ => rfl
    · left
      rw [looked]
      exact ⟨id, session, rfl, found, (Session.isExpired_iff _ _).mp expired, rfl⟩
    · right
      rw [looked]
      refine ⟨session.data.get "username".toList, rfl, fun missing => absurd missing (Option.some_ne_none id), ?_⟩
      intro other same
      cases same
      constructor
      · intro other isOther
        rw [found] at isOther
        cases isOther
        rw [Bool.eq_false_iff, ne_eq, Session.isExpired_iff] at live
        exact ⟨by omega, rfl⟩
      · intro absent
        rw [found] at absent
        cases absent

/-! Runs -/

section
variable {visit : Visit} (store : SessionStore)
  (direct : SessionRoute visit.request →
    (matchLocation visit.request.path visit.config).bind Location.redirect = none) (id : Str)
include direct

theorem get_of_login (login : isLogin visit.request) :
    (visit.Issues id →
      (visit.answer store).2.sessions.sessions.get id = some ⟨userData, visit.clock.now⟩) ∧
    (¬visit.Issues id →
      (visit.answer store).2.sessions.sessions.get id = store.sessions.get id) := by
  by_cases matching : credentialsMatch visit.request.body = true
  · rw [sessions_login store direct login matching, SessionStore.set_create]
    constructor
    · intro issues
      rw [← issues.2.2]
      exact HashMap.get_insert_self _ _ _
    · intro noIssue
      have different : id ≠ generateId visit.clock :=
        fun same => noIssue ⟨login, matching, same.symm⟩
      rw [HashMap.get_insert_of_ne _ _ _ _ different, HashMap.get_insert_of_ne _ _ _ _ different]
  · rw [sessions_denied store direct login matching]
    exact ⟨fun issues => absurd issues.2.1 matching, fun _ => rfl⟩

theorem get_of_logout (logout : isLogout visit.request) :
    (visit.LogsOut id → (visit.answer store).2.sessions.sessions.get id = none) ∧
    (¬visit.LogsOut id →
      (visit.answer store).2.sessions.sessions.get id = store.sessions.get id) := by
  rw [sessions_logout store direct logout]
  constructor
  · intro logsOut
    rw [logsOut.2]
    exact HashMap.get_remove_self _ _
  · intro noLogout
    cases carried : visit.request.sessionId with
    | none => rfl
    | some other =>
      have different : id ≠ other := by
        intro same
        rw [← same] at carried
        exact noLogout ⟨logout, carried⟩
      exact HashMap.get_remove_of_ne _ _ _ different

/-- A `/whoami` drops a session that has expired. -/
theorem get_of_whoami (whoami : visit.request.path = "/whoami".toList) :
    (visit.answer store).2.sessions.sessions.get id = store.sessions.get id ∨
      (visit.answer store).2.sessions.sessions.get id = none ∧
        ∃ session, store.sessions.get id = some session ∧
          session.createdAt + hour < visit.clock.now := by
  rw [sessions_whoami store direct whoami]
  rcases sessionUser_cases visit store with
    ⟨other, session, -, found, expired, looked⟩ | ⟨name, looked, -⟩
  · rw [looked]
    by_cases same : id = other
    · subst same
      exact Or.inr ⟨HashMap.get_remove_self _ _, session, found, expired⟩
    · exact Or.inl (HashMap.get_remove_of_ne _ _ _ same)
  · rw [looked]
    exact Or.inl rfl

/-- What a request does to one session. -/
theorem get_answer :
    (visit.Issues id → (visit.answer store).2.sessions.sessions.get id =
      some ⟨userData, visit.clock.now⟩) ∧
    (visit.LogsOut id → (visit.answer store).2.sessions.sessions.get id = none) ∧
    (¬visit.Issues id → ¬visit.LogsOut id →
      (visit.answer store).2.sessions.sessions.get id = store.sessions.get id ∨
        (visit.answer store).2.sessions.sessions.get id = none ∧
          ∃ session, store.sessions.get id = some session ∧
            session.createdAt + hour < visit.clock.now) := by
  by_cases login : isLogin visit.request
  · have noLogout : ¬visit.LogsOut id := by
      intro logsOut
      have same := login.1.symm.trans logsOut.1.1
      exact absurd same (by decide)
    obtain ⟨issued, kept⟩ := get_of_login store direct id login
    exact ⟨issued, fun logsOut => absurd logsOut noLogout, fun noIssue _ => Or.inl (kept noIssue)⟩
  · refine ⟨fun issues => absurd issues.1 login, ?_⟩
    by_cases logout : isLogout visit.request
    · obtain ⟨ended, kept⟩ := get_of_logout store direct id logout
      exact ⟨ended, fun _ noLogout => Or.inl (kept noLogout)⟩
    · refine ⟨fun logsOut => absurd logsOut.1 logout, fun _ _ => ?_⟩
      by_cases whoami : visit.request.path = "/whoami".toList
      · exact get_of_whoami store direct id whoami
      · have free : ¬SessionRoute visit.request := by
          rintro (isLogin | isLogout | isWhoami)
          · exact login isLogin
          · exact logout isLogout
          · exact whoami isWhoami
        rw [answer_other free]
        exact Or.inl rfl

end

/-- The store holds the sessions that were issued and not logged out, but for expired ones. -/
structure Agrees (threads : Threads) : Prop where
  ordered : Ordered threads.handled
  known : ∀ id session, threads.store.sessions.get id = some session →
    session.data.get "username".toList = some "admin".toList ∧
      issued id threads.handled = some session.createdAt
  kept : ∀ id time, issued id threads.handled = some time →
    (∃ session, threads.store.sessions.get id = some session) ∨
      ∃ visit ∈ threads.handled, time + hour < visit.clock.now

theorem agrees_begins : Agrees ⟨SessionStore.new, []⟩ := by
  refine ⟨List.Pairwise.nil, ?_, ?_⟩
  · intro id session found
    rw [SessionStore.new, HashMap.get_empty] at found
    cases found
  · intro id time isIssued
    cases isIssued

theorem agrees_step {before after : Threads} {visit : Visit} (agrees : Agrees before)
    (guard : Guard before visit) (steps : step before visit after) : Agrees after := by
  subst steps
  refine ⟨List.pairwise_cons.mpr ⟨guard.ordered, agrees.ordered⟩, ?_, ?_⟩
  · intro id session found
    obtain ⟨onIssue, onLogout, otherwise⟩ := get_answer before.store guard.direct id
    dsimp only at found ⊢
    rw [issued]
    by_cases issues : visit.Issues id
    · rw [onIssue issues] at found
      cases found
      rw [if_pos issues]
      exact ⟨HashMap.get_insert_self _ _ _, rfl⟩
    · rw [if_neg issues]
      by_cases logsOut : visit.LogsOut id
      · rw [onLogout logsOut] at found
        cases found
      · rw [if_neg logsOut]
        rcases otherwise issues logsOut with same | ⟨gone, -⟩
        · rw [same] at found
          exact agrees.known id session found
        · rw [gone] at found
          cases found
  · intro id time isIssued
    obtain ⟨onIssue, onLogout, otherwise⟩ := get_answer before.store guard.direct id
    dsimp only at isIssued ⊢
    rw [issued] at isIssued
    by_cases issues : visit.Issues id
    · exact Or.inl ⟨_, onIssue issues⟩
    · rw [if_neg issues] at isIssued
      by_cases logsOut : visit.LogsOut id
      · rw [if_pos logsOut] at isIssued
        cases isIssued
      · rw [if_neg logsOut] at isIssued
        rcases otherwise issues logsOut with same | ⟨-, session, found, expired⟩
        · rw [same]
          rcases agrees.kept id time isIssued with held | ⟨late, member, expired⟩
          · exact Or.inl held
          · exact Or.inr ⟨late, List.mem_cons_of_mem _ member, expired⟩
        · right
          have known := (agrees.known id session found).2
          rw [isIssued, Option.some.injEq] at known
          exact ⟨visit, List.mem_cons_self, by omega⟩

theorem agrees_reached {threads : Threads} (reached : Reaches step Guard begins threads) :
    Agrees threads := by
  apply reached.invariant
  · intro state start
    rw [show state = _ from start]
    exact agrees_begins
  · exact fun state visit next agrees guard steps => agrees_step agrees guard steps

def LoggedIn (threads : Threads) (visit : Visit) : Prop :=
  ∃ id, visit.request.sessionId = some id ∧ Alive threads.handled id visit.clock.now

/-- In every run `/whoami` names the user exactly while the session it carries is alive, and
nothing but the session routes changes the store. -/
theorem whoami_exact {threads : Threads} (reached : Reaches step Guard begins threads)
    {visit : Visit} (guard : Guard threads visit)
    (whoami : visit.request.path = "/whoami".toList) :
    (LoggedIn threads visit → (visit.answer threads.store).1 = naming "admin".toList) ∧
    (¬LoggedIn threads visit → (visit.answer threads.store).1.status = .forbidden ∧
      (visit.answer threads.store).1.redirectLocation = none) ∧
    ∀ other : Visit, ¬SessionRoute other.request → ∀ store, (other.answer store).2.sessions = store := by
  obtain ⟨named, refused⟩ := response_whoami threads.store guard.direct whoami
  have agrees := agrees_reached reached
  have alive (id : Str) : Alive threads.handled id visit.clock.now ↔
      ∃ time, issued id threads.handled = some time ∧ visit.clock.now ≤ time + hour :=
    alive_iff agrees.ordered
  refine ⟨?_, ?_, fun other free store => answer_other free store⟩
  · intro loggedIn
    obtain ⟨id, carried, isAlive⟩ := loggedIn
    obtain ⟨time, isIssued, fresh⟩ := (alive id).mp isAlive
    apply named
    rcases sessionUser_cases visit threads.store with
      ⟨other, session, isOther, found, expired, -⟩ | ⟨name, looked, -, found⟩
    · -- the session has not expired
      rw [carried, Option.some.injEq] at isOther
      have known := (agrees.known other session found).2
      rw [← isOther, isIssued, Option.some.injEq] at known
      omega
    · rw [looked]
      rcases agrees.kept id time isIssued with ⟨session, held⟩ | ⟨earlier, member, expired⟩
      · rw [((found id carried).1 session held).2]
        exact (agrees.known id session held).1
      · have ordered := guard.ordered earlier member
        omega
  · intro loggedOut
    apply refused
    rcases sessionUser_cases visit threads.store with
      ⟨other, session, -, -, -, looked⟩ | ⟨name, looked, missing, found⟩
    · rw [looked]
    · rw [looked]
      cases carried : visit.request.sessionId with
      | none => exact missing carried
      | some id =>
        cases held : threads.store.sessions.get id with
        | none => exact (found id carried).2 held
        | some session =>
          have fresh := ((found id carried).1 session held).1
          have known := (agrees.known id session held).2
          exact absurd ⟨id, carried, (alive id).mpr ⟨_, known, fresh⟩⟩ loggedOut

def loginVisit : Visit :=
  ⟨quietPlatform, FileSystem.bare, webConfig, ⟨.post, "/login".toList, "HTTP/1.1".toList,
    HashMap.empty, utf8 "username=admin&password=secret"⟩, ⟨7, 5, 3⟩⟩

def whoamiVisit : Visit :=
  ⟨quietPlatform, FileSystem.bare, webConfig, ⟨.get, "/whoami".toList, "HTTP/1.1".toList,
    HashMap.empty.insert "cookie".toList ("session_id=".toList ++ generateId ⟨7, 5, 3⟩), []⟩,
    ⟨8, 6, 3⟩⟩

def afterLogin : Threads := ⟨(loginVisit.answer SessionStore.new).2.sessions, [loginVisit]⟩

theorem whoami_exact_afterLogin :
    (whoamiVisit.answer afterLogin.store).1 = naming "admin".toList := by
  have guarded : Guard ⟨SessionStore.new, []⟩ loginVisit :=
    ⟨by simp, fun _ => by decide +kernel⟩
  have stepped : step ⟨SessionStore.new, []⟩ loginVisit afterLogin := by
    simp only [step, afterLogin]
  have reached : Reaches step Guard begins afterLogin := .step (.start rfl) guarded stepped
  have guard : Guard afterLogin whoamiVisit :=
    ⟨by simp [afterLogin, loginVisit, whoamiVisit], fun _ => by decide +kernel⟩
  refine (whoami_exact reached guard rfl).1 ⟨generateId ⟨7, 5, 3⟩, by decide +kernel, ?_⟩
  have fresh : whoamiVisit.clock.now ≤ loginVisit.clock.now + hour := by
    simp only [whoamiVisit, loginVisit, hour, nanosPerSec]
    omega
  exact ⟨[], loginVisit, [], rfl, by decide +kernel, fresh, by simp⟩

end LocalServer.SessionRuns
