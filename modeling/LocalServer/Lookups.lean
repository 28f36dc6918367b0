import LocalServer.Effects
import LocalServer.Library.Action

/-! What of the state the handlers look at: the files, and on the session routes the sessions. -/

namespace LocalServer.Lookups
open Library Action Utf8 Text Handler Effects

/-- States that agree have the same files, and still agree when these are changed alike. -/
structure FilesSeen (agree : World → World → Prop) : Prop where
  files : ∀ world other, agree world other → world.files = other.files
  changed : ∀ world other files accesses accesses', agree world other →
    agree ⟨files, world.sessions, accesses⟩ ⟨files, other.sessions, accesses'⟩

section
variable {agree : World → World → Prop} (seen : FilesSeen agree)
include seen

/-- What a call returns and what becomes of the files are functions of the files. -/
theorem FilesSeen.respects_call {α : Type} {action : Action World α}
    {accesses : World → List Access} (result : FileSystem → α) (change : FileSystem → FileSystem)
    (calls : ∀ world, action world =
      (result world.files, ⟨change world.files, world.sessions, accesses world⟩)) :
    Respects agree action := by
  intro world other agrees
  rw [calls, calls, seen.files world other agrees]
  exact ⟨rfl, seen.changed world other _ _ _ agrees⟩

theorem respects_metadata (path : Path) : Respects agree (World.metadata path) :=
  seen.respects_call (·.metadata path) id fun _ => rfl

theorem respects_read (path : Path) : Respects agree (World.read path) :=
  seen.respects_call (·.read path) id fun _ => rfl

theorem respects_readDir (path : Path) : Respects agree (World.readDir path) :=
  seen.respects_call (·.readDir path) id fun _ => rfl

theorem respects_entryMetadata (path : Path) (place : List Name) (name : Name) :
    Respects agree (World.entryMetadata path place name) :=
  seen.respects_call (·.entryMetadata place name) id fun _ => rfl

theorem respects_createDirAll (path : Path) : Respects agree (World.createDirAll path) :=
  seen.respects_call (fun files => (files.createDirAll path).1)
    (fun files => (files.createDirAll path).2) fun _ => rfl

theorem respects_write (path : Path) (contents : Bytes) :
    Respects agree (World.write path contents) :=
  seen.respects_call (fun files => (files.write path contents).1)
    (fun files => (files.write path contents).2) fun _ => rfl

theorem respects_removeFile (path : Path) : Respects agree (World.removeFile path) :=
  seen.respects_call (fun files => (files.removeFile path).1)
    (fun files => (files.removeFile path).2) fun _ => rfl

theorem respects_runScript (platform : Platform) (runner : CgiRunner) (request : Request) :
    Respects agree (World.runScript platform runner request) :=
  seen.respects_call (fun files => (runner.run platform request files).1)
    (fun files => (runner.run platform request files).2) fun _ => rfl

theorem respects_errorResponse (status : StatusCode) (config : ServerConfig) :
    Respects agree (errorResponse status config) := by
  unfold errorResponse
  cases (errorCode status).bind config.errorPages.get with
  | none => exact respects_pure _ _
  | some page =>
    apply (respects_read seen _).bind
    intro result
    cases result with
    | error failed => exact respects_pure _ _
    | ok contents => exact respects_pure _ _

theorem respects_entryRows (urlPath : Str) (path : Path) (place : List Name) (names : List Name) :
    Respects agree (entryRows urlPath path place names) := by
  induction names with
  | nil => exact respects_pure _ _
  | cons name names ih =>
    apply (respects_entryMetadata seen _ _ _).bind
    intro result
    cases result with
    | none => exact ih
    | some found => exact ih.bind fun rows => respects_pure _ _

theorem respects_serveDirectory (urlPath dirPath : Str) (config : ServerConfig) :
    Respects agree (serveDirectory urlPath dirPath config) := by
  unfold serveDirectory
  split_ifs
  · apply (respects_readDir seen _).bind
    intro result
    cases result with
    | error failed => exact respects_errorResponse seen _ _
    | ok listed =>
      obtain ⟨place, names⟩ := listed
      exact (respects_entryRows seen _ _ _ _).bind fun rows => respects_pure _ _
  · exact respects_errorResponse seen _ _

theorem respects_serveFound (path file : Str) (found : Node) (config : ServerConfig) :
    Respects agree (serveFound path file found config) := by
  unfold serveFound
  split_ifs
  · apply (respects_read seen _).bind
    intro result
    cases result with
    | error failed => exact respects_serveDirectory seen _ _ _
    | ok contents => exact respects_pure _ _
  · apply (respects_read seen _).bind
    intro result
    cases result with
    | error failed => exact respects_errorResponse seen _ _
    | ok contents => exact respects_pure _ _

theorem respects_serveFile (path root : Str) (config : ServerConfig) :
    Respects agree (serveFile path root config) := by
  apply (respects_metadata seen _).bind
  intro result
  cases result with
  | error failed =>
    apply (respects_metadata seen _).bind
    intro result
    cases result with
    | error failed => exact respects_errorResponse seen _ _
    | ok found => exact respects_serveFound seen _ _ _ _
  | ok found => exact respects_serveFound seen _ _ _ _

theorem respects_handlePost (request : Request) (root : Str) (config : ServerConfig) :
    Respects agree (handlePost request root config) := by
  unfold handlePost
  split_ifs
  · exact respects_errorResponse seen _ _
  · have created : Respects agree (createParent (filePath (root ++ request.path))) := by
      unfold createParent
      cases (filePath (root ++ request.path)).parent with
      | none => exact respects_pure _ _
      | some above => exact respects_createDirAll seen above
    apply created.bind
    intro result
    cases result with
    | error failed => exact respects_errorResponse seen _ _
    | ok done =>
      apply (respects_write seen _ _).bind
      intro result
      cases result with
      | error failed => exact respects_errorResponse seen _ _
      | ok done => exact respects_pure _ _

theorem respects_handleDelete (request : Request) (root : Str) (config : ServerConfig) :
    Respects agree (handleDelete request root config) := by
  apply (respects_removeFile seen _).bind
  intro result
  cases result with
  | error failed => exact respects_errorResponse seen _ _
  | ok done => exact respects_pure _ _

end

/-! Below the session routes -/

structure Sessionless (taken : Route) : Prop where
  noLogin : taken ≠ .login
  noLogout : taken ≠ .logout
  noWhoami : taken ≠ .whoami

theorem respects_follow {agree : World → World → Prop} (seen : FilesSeen agree) (platform : Platform)
    (clock : Clock) (request : Request) (config : ServerConfig) {taken : Route}
    (sessionless : Sessionless taken) :
    Respects agree (follow platform clock request config taken) := by
  cases taken with
  | redirect target => exact respects_pure _ _
  | login => exact absurd rfl sessionless.noLogin
  | logout => exact absurd rfl sessionless.noLogout
  | whoami => exact absurd rfl sessionless.noWhoami
  | script cgi loc => exact respects_runScript seen _ _ _
  | static loc => exact respects_serveFile seen _ _ _
  | upload loc => exact respects_handlePost seen _ _ _
  | deletion loc => exact respects_handleDelete seen _ _ _
  | refused status => exact respects_errorResponse seen _ _

theorem filesSeen_sameFiles : FilesSeen SameFiles :=
  ⟨fun _ _ same => Eq.symm same, fun _ _ _ _ _ _ => rfl⟩

theorem follow_clock (platform : Platform) (clock clock' : Clock) (request : Request)
    (config : ServerConfig) {taken : Route} (sessionless : Sessionless taken) :
    follow platform clock request config taken = follow platform clock' request config taken := by
  cases taken with
  | login => exact absurd rfl sessionless.noLogin
  | whoami => exact absurd rfl sessionless.noWhoami
  | _ => rfl

theorem sessionless_locationRoute (request : Request) (config : ServerConfig) :
    Sessionless (locationRoute request config) := by
  unfold locationRoute
  cases matchLocation request.path config with
  | none => exact ⟨by simp, by simp, by simp⟩
  | some loc =>
    dsimp only
    split_ifs
    · cases request.method <;> cases findCgi request.path loc <;>
        exact ⟨by simp, by simp, by simp⟩
    · exact ⟨by simp, by simp, by simp⟩

theorem sessionless_of_free {request : Request} {config : ServerConfig} (free : ¬SessionRoute request) :
    Sessionless (route request config) := by
  simp only [SessionRoute, not_or] at free
  unfold route
  cases (matchLocation request.path config).bind Location.redirect with
  | some target => exact ⟨by simp, by simp, by simp⟩
  | none =>
    dsimp only
    rw [if_neg free.1, if_neg free.2.1, if_neg free.2.2]
    exact sessionless_locationRoute _ _

/-- The accesses that are recorded apart, the two states are the same. -/
structure SameState (world other : World) : Prop where
  files : world.files = other.files
  sessions : world.sessions = other.sessions

theorem filesSeen_sameState : FilesSeen SameState :=
  ⟨fun _ _ same => same.files, fun _ _ _ _ _ same => ⟨rfl, same.sessions⟩⟩

theorem respects_handleLogin (clock : Clock) (request : Request) :
    Respects SameState (handleLogin clock request) := by
  intro world other same
  unfold handleLogin
  rw [same.sessions]
  split_ifs
  · exact ⟨rfl, same.files, rfl⟩
  · exact ⟨rfl, same⟩

theorem respects_handleLogout (request : Request) : Respects SameState (handleLogout request) := by
  intro world other same
  unfold handleLogout
  rw [same.sessions]
  exact ⟨rfl, same.files, rfl⟩

theorem respects_handleWhoami (clock : Clock) (request : Request) (config : ServerConfig) :
    Respects SameState (handleWhoami clock request config) := by
  have looksUp : Respects SameState (sessionUser clock request) := by
    intro world other same
    unfold sessionUser
    cases request.sessionId with
    | none => exact ⟨rfl, same⟩
    | some id =>
      rw [same.sessions]
      exact ⟨rfl, same.files, rfl⟩
  apply looksUp.bind
  intro result
  cases result with
  | none => exact respects_errorResponse filesSeen_sameState _ _
  | some name => exact respects_pure _ _

/-- Nothing looks at the accesses. -/
theorem respects_buildResponse (platform : Platform) (clock : Clock) (request : Request)
    (config : ServerConfig) :
    Respects SameState (buildResponse platform clock request config) := by
  rw [buildResponse_eq_follow]
  cases route request config with
  | login => exact respects_handleLogin clock request
  | logout => exact respects_handleLogout request
  | whoami => exact respects_handleWhoami clock request config
  | _ => exact respects_follow filesSeen_sameState _ _ _ _ ⟨by simp, by simp, by simp⟩

end LocalServer.Lookups
