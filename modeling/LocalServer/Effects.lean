import LocalServer.Handler

/-! Which handler answers a request, and what each handler does to the file system. -/

namespace LocalServer.Effects
open Library Action Utf8 Text FileSystem Handler

/-! Routes -/

inductive Route where
  | redirect (target : Str)
  | login
  | logout
  | whoami
  | script (cgi : CGI) (loc : Location)
  | static (loc : Location)
  | upload (loc : Location)
  | deletion (loc : Location)
  | refused (status : StatusCode)
  deriving DecidableEq

def locationRoute (request : Request) (config : ServerConfig) : Route :=
  match matchLocation request.path config with
  | none => .refused .notFound
  | some loc =>
    if isMethodAllowed request.method loc then
      match request.method, findCgi request.path loc with
      | .get, some cgi => .script cgi loc
      | .get, none => .static loc
      | .post, some cgi => .script cgi loc
      | .post, none => .upload loc
      | .delete, _ => .deletion loc
      | .unknown _, _ => .refused .methodNotAllowed
    else .refused .methodNotAllowed

def route (request : Request) (config : ServerConfig) : Route :=
  match (matchLocation request.path config).bind Location.redirect with
  | some target => .redirect target
  | none =>
    if request.path = "/login".toList ∧ request.method = .post then .login
    else if request.path = "/logout".toList ∧ request.method = .post then .logout
    else if request.path = "/whoami".toList then .whoami
    else locationRoute request config

def Route.location? : Route → Option Location
  | .script _ loc => some loc
  | .static loc => some loc
  | .upload loc => some loc
  | .deletion loc => some loc
  | _ => none

def follow (platform : Platform) (clock : Clock) (request : Request) (config : ServerConfig) :
    Route → Action World Response
  | .redirect target => pure (.redirect target (encode (redirectPage target)))
  | .login => handleLogin clock request
  | .logout => handleLogout request
  | .whoami => handleWhoami clock request config
  | .script cgi loc =>
    World.runScript platform (.new cgi.interpreter (scriptPath request.path loc)) request
  | .static loc => serveFile request.path loc.root config
  | .upload loc => handlePost request loc.root config
  | .deletion loc => handleDelete request loc.root config
  | .refused status => errorResponse status config

section
variable (platform : Platform) (clock : Clock) (request : Request) (config : ServerConfig)

theorem handleWithRoute_eq_follow : handleWithRoute platform request config =
    follow platform clock request config (locationRoute request config) := by
  unfold handleWithRoute locationRoute
  cases matchLocation request.path config with
  | none => rfl
  | some loc =>
    dsimp only
    split_ifs
    · cases request.method with
      | get => cases findCgi request.path loc <;> rfl
      | post => cases findCgi request.path loc <;> rfl
      | delete => rfl
      | unknown name => rfl
    · rfl

theorem buildResponse_eq_follow : buildResponse platform clock request config =
    follow platform clock request config (route request config) := by
  unfold buildResponse route
  cases (matchLocation request.path config).bind Location.redirect with
  | some target => rfl
  | none =>
    unfold dispatch
    dsimp only
    split_ifs
    · rfl
    · rfl
    · rfl
    · exact handleWithRoute_eq_follow platform clock request config

end

def SessionRoute (request : Request) : Prop :=
  (request.path = "/login".toList ∧ request.method = .post) ∨
    (request.path = "/logout".toList ∧ request.method = .post) ∨
      request.path = "/whoami".toList

section
variable {request : Request} {config : ServerConfig} {loc : Location}

theorem route_direct (matched : matchLocation request.path config = some loc)
    (direct : loc.redirect = none) (free : ¬SessionRoute request) :
    route request config = locationRoute request config := by
  simp only [SessionRoute, not_or] at free
  rw [route, matched, Option.bind_some, direct]
  dsimp only
  rw [if_neg free.1, if_neg free.2.1, if_neg free.2.2]

/-- A request is served from the location its path is matched with, which must not redirect
and must allow the method. -/
theorem route_location (served : (route request config).location? = some loc) :
    matchLocation request.path config = some loc ∧ loc.redirect = none ∧
      isMethodAllowed request.method loc = true ∧ ¬SessionRoute request := by
  unfold route locationRoute at served
  cases matched : matchLocation request.path config with
  | none =>
    rw [matched] at served
    simp only [Option.bind_none] at served
    split_ifs at served <;> cases served
  | some other =>
    rw [matched, Option.bind_some] at served
    cases redirects : other.redirect with
    | some target =>
      rw [redirects] at served
      cases served
    | none =>
      rw [redirects] at served
      dsimp only at served
      split_ifs at served with login logout whoami allowed
      all_goals try cases served
      have same : other = loc := by
        split at served <;> cases served <;> rfl
      subst same
      refine ⟨rfl, redirects, allowed, ?_⟩
      simp only [SessionRoute, not_or]
      exact ⟨login, logout, whoami⟩

def servedRoute (loc : Location) : Request.Method → Option CGI → Route
  | .get, some cgi => .script cgi loc
  | .get, none => .static loc
  | .post, some cgi => .script cgi loc
  | .post, none => .upload loc
  | .delete, _ => .deletion loc
  | .unknown _, _ => .refused .methodNotAllowed

theorem locationRoute_allowed (matched : matchLocation request.path config = some loc)
    (allowed : isMethodAllowed request.method loc = true) :
    locationRoute request config =
      servedRoute loc request.method (findCgi request.path loc) := by
  rw [locationRoute, matched]
  dsimp only
  rw [if_pos allowed]
  cases request.method <;> cases findCgi request.path loc <;> rfl

theorem route_allowed (matched : matchLocation request.path config = some loc)
    (direct : loc.redirect = none) (free : ¬SessionRoute request)
    (allowed : isMethodAllowed request.method loc = true) :
    route request config = servedRoute loc request.method (findCgi request.path loc) := by
  rw [route_direct matched direct free, locationRoute_allowed matched allowed]

theorem route_served (served : (route request config).location? = some loc) :
    route request config = servedRoute loc request.method (findCgi request.path loc) := by
  obtain ⟨matched, direct, allowed, free⟩ := route_location served
  exact route_allowed matched direct free allowed

theorem route_script {cgi : CGI} (isScript : route request config = .script cgi loc) :
    (request.method = .get ∨ request.method = .post) ∧ findCgi request.path loc = some cgi := by
  have served := route_served (by rw [isScript]; rfl : (route request config).location? = some loc)
  rw [isScript] at served
  unfold servedRoute at served
  split at served <;> cases served
  · next asked found => exact ⟨Or.inl asked, found⟩
  · next asked found => exact ⟨Or.inr asked, found⟩

theorem route_static (isStatic : route request config = .static loc) :
    request.method = .get ∧ findCgi request.path loc = none := by
  have served := route_served (by rw [isStatic]; rfl : (route request config).location? = some loc)
  rw [isStatic] at served
  unfold servedRoute at served
  split at served <;> cases served
  next asked notFound => exact ⟨asked, notFound⟩

theorem route_upload (isUpload : route request config = .upload loc) :
    request.method = .post ∧ findCgi request.path loc = none := by
  have served := route_served (by rw [isUpload]; rfl : (route request config).location? = some loc)
  rw [isUpload] at served
  unfold servedRoute at served
  split at served <;> cases served
  next asked notFound => exact ⟨asked, notFound⟩

theorem route_deletion (isDeletion : route request config = .deletion loc) :
    request.method = .delete := by
  have served := route_served (by rw [isDeletion]; rfl : (route request config).location? = some loc)
  rw [isDeletion] at served
  unfold servedRoute at served
  split at served <;> cases served
  assumption

end

def targetPath (loc : Location) (request : Request) : Path := filePath (loc.root ++ request.path)

structure KeptByReading (relation : World → World → Prop) : Prop where
  metadata : ∀ path, Keeps relation (World.metadata path)
  read : ∀ path, Keeps relation (World.read path)
  readDir : ∀ path, Keeps relation (World.readDir path)
  entryMetadata : ∀ path place name, Keeps relation (World.entryMetadata path place name)

structure KeptByCalls (relation : World → World → Prop) : Prop extends KeptByReading relation where
  createDirAll : ∀ path, Keeps relation (World.createDirAll path)
  write : ∀ path contents, Keeps relation (World.write path contents)
  removeFile : ∀ path, Keeps relation (World.removeFile path)
  runScript : ∀ platform runner request, Keeps relation (World.runScript platform runner request)

section
variable {relation : World → World → Prop} [Std.Refl relation] [IsTrans World relation]

section
variable (kept : KeptByReading relation)
include kept

theorem keeps_errorResponse (status : StatusCode) (config : ServerConfig) :
    Keeps relation (errorResponse status config) := by
  unfold errorResponse
  cases (errorCode status).bind config.errorPages.get with
  | none => exact keeps_pure _ _
  | some page =>
    apply (kept.read _).bind
    intro result
    cases result with
    | error failed => exact keeps_pure _ _
    | ok contents => exact keeps_pure _ _

theorem keeps_entryRows (urlPath : Str) (path : Path) (place : List Name) (names : List Name) :
    Keeps relation (entryRows urlPath path place names) := by
  induction names with
  | nil => exact keeps_pure _ _
  | cons name names ih =>
    apply (kept.entryMetadata _ _ _).bind
    intro result
    cases result with
    | none => exact ih
    | some found => exact ih.bind fun rows => keeps_pure _ _

theorem keeps_serveDirectory (urlPath dirPath : Str) (config : ServerConfig) :
    Keeps relation (serveDirectory urlPath dirPath config) := by
  unfold serveDirectory
  split_ifs
  · apply (kept.readDir _).bind
    intro result
    cases result with
    | error failed => exact keeps_errorResponse kept _ _
    | ok listed =>
      obtain ⟨place, names⟩ := listed
      exact (keeps_entryRows kept _ _ _ _).bind fun rows => keeps_pure _ _
  · exact keeps_errorResponse kept _ _

theorem keeps_serveFound (path file : Str) (found : Node) (config : ServerConfig) :
    Keeps relation (serveFound path file found config) := by
  unfold serveFound
  split_ifs
  · apply (kept.read _).bind
    intro result
    cases result with
    | error failed => exact keeps_serveDirectory kept _ _ _
    | ok contents => exact keeps_pure _ _
  · apply (kept.read _).bind
    intro result
    cases result with
    | error failed => exact keeps_errorResponse kept _ _
    | ok contents => exact keeps_pure _ _

theorem keeps_serveFile (path root : Str) (config : ServerConfig) :
    Keeps relation (serveFile path root config) := by
  apply (kept.metadata _).bind
  intro result
  cases result with
  | error failed =>
    apply (kept.metadata _).bind
    intro result
    cases result with
    | error failed => exact keeps_errorResponse kept _ _
    | ok found => exact keeps_serveFound kept _ _ _ _
  | ok found => exact keeps_serveFound kept _ _ _ _

end

section
variable (kept : KeptByCalls relation)
include kept

theorem keeps_handlePost (request : Request) (root : Str) (config : ServerConfig) :
    Keeps relation (handlePost request root config) := by
  have reading := kept.toKeptByReading
  unfold handlePost
  split_ifs
  · exact keeps_errorResponse reading _ _
  · have created : Keeps relation (createParent (filePath (root ++ request.path))) := by
      unfold createParent
      cases (filePath (root ++ request.path)).parent with
      | none => exact keeps_pure _ _
      | some above => exact kept.createDirAll above
    apply created.bind
    intro result
    cases result with
    | error failed => exact keeps_errorResponse reading _ _
    | ok done =>
      apply (kept.write _ _).bind
      intro result
      cases result with
      | error failed => exact keeps_errorResponse reading _ _
      | ok done => exact keeps_pure _ _

theorem keeps_handleDelete (request : Request) (root : Str) (config : ServerConfig) :
    Keeps relation (handleDelete request root config) := by
  apply (kept.removeFile _).bind
  intro result
  cases result with
  | error failed => exact keeps_errorResponse kept.toKeptByReading _ _
  | ok done => exact keeps_pure _ _

end

end

def SameFiles (before after : World) : Prop := after.files = before.files

instance : Std.Refl SameFiles := ⟨fun _ => rfl⟩

instance : IsTrans World SameFiles := ⟨fun _ _ _ early late => late.trans early⟩

theorem keptByReading_sameFiles : KeptByReading SameFiles :=
  ⟨fun _ _ => rfl, fun _ _ => rfl, fun _ _ => rfl, fun _ _ _ _ => rfl⟩

theorem SameFiles.creates {files : FileSystem} {absolute : Bool} {components : List Name}
    {before after : World} (same : SameFiles before after)
    (creates : CreatesAbove absolute components files before.files) :
    CreatesAbove absolute components files after.files := by
  rw [show after.files = before.files from same]
  exact creates

theorem sameFiles_errorResponse (status : StatusCode) (config : ServerConfig) :
    Keeps SameFiles (errorResponse status config) := keeps_errorResponse keptByReading_sameFiles _ _

theorem sameFiles_serveFile (path root : Str) (config : ServerConfig) :
    Keeps SameFiles (serveFile path root config) := keeps_serveFile keptByReading_sameFiles _ _ _

theorem sameFiles_handleLogin (clock : Clock) (request : Request) :
    Keeps SameFiles (handleLogin clock request) := by
  intro world
  unfold handleLogin
  split_ifs <;> rfl

theorem sameFiles_handleWhoami (clock : Clock) (request : Request) (config : ServerConfig) :
    Keeps SameFiles (handleWhoami clock request config) := by
  refine Keeps.bind ?_ ?_
  · intro world
    unfold sessionUser
    cases request.sessionId <;> rfl
  · intro result
    cases result with
    | none => exact sameFiles_errorResponse _ _
    | some name => exact keeps_pure _ _

/-- Only scripts, uploads and deletions change files. -/
theorem sameFiles_follow (platform : Platform) (clock : Clock) (request : Request)
    (config : ServerConfig) {taken : Route} (noScript : ∀ cgi loc, taken ≠ .script cgi loc)
    (noUpload : ∀ loc, taken ≠ .upload loc) (noDeletion : ∀ loc, taken ≠ .deletion loc) :
    Keeps SameFiles (follow platform clock request config taken) := by
  cases taken with
  | redirect target => exact keeps_pure _ _
  | login => exact sameFiles_handleLogin _ _
  | logout => exact fun world => rfl
  | whoami => exact sameFiles_handleWhoami _ _ _
  | script cgi loc => exact absurd rfl (noScript cgi loc)
  | static loc => exact sameFiles_serveFile _ _ _
  | upload loc => exact absurd rfl (noUpload loc)
  | deletion loc => exact absurd rfl (noDeletion loc)
  | refused status => exact sameFiles_errorResponse _ _

/-! Uploads and deletions -/

theorem errorResponse_status (status : StatusCode) (config : ServerConfig) (world : World) :
    (errorResponse status config world).1.status = status ∧
      (errorResponse status config world).1.redirectLocation = none := by
  unfold errorResponse
  cases (errorCode status).bind config.errorPages.get with
  | none => exact ⟨rfl, rfl⟩
  | some page =>
    dsimp only
    rw [bind_apply]
    cases (World.read (filePath page) world).1 <;> exact ⟨rfl, rfl⟩

theorem errorResponse_fails {status : StatusCode} (fails : status ≠ .ok) (config : ServerConfig)
    (world : World) : ¬(errorResponse status config world).1.Succeeds := by
  intro succeeds
  rw [← (errorResponse_status status config world).1] at fails
  exact fails succeeds.status

/-- The file system once the directories above a path have been created, as far as they can be. -/
def aboveCreated (files : FileSystem) (path : Path) : FileSystem :=
  match path.parent with
  | none => files
  | some parent => (files.createDirAll parent).2

theorem createsAbove_aboveCreated (files : FileSystem) (path : Path) :
    CreatesAbove path.absolute path.normalComponents.dropLast files (aboveCreated files path) := by
  unfold aboveCreated
  cases isParent : path.parent with
  | none => exact CreatesAbove.refl files
  | some parent =>
    unfold Path.parent at isParent
    split_ifs at isParent
    cases isParent
    have creates := createsAbove_createDirAll files
      ⟨path.absolute, path.normalComponents.dropLast, false⟩
    rwa [Path.normalComponents_leading (List.dropLast_prefix _)] at creates

theorem grows_aboveCreated (files : FileSystem) (path : Path) :
    Grows files (aboveCreated files path) := (createsAbove_aboveCreated files path).grows

theorem createParent_files (path : Path) (world : World) :
    (createParent path world).2.files = aboveCreated world.files path := by
  unfold createParent aboveCreated
  cases path.parent <;> rfl

/-- An upload creates directories at most, or stores its body where its target leads to. -/
theorem handlePost_cases (request : Request) (root : Str) (config : ServerConfig) (world : World)
    {target : Path} (isTarget : filePath (root ++ request.path) = target) :
    (¬(handlePost request root config world).1.Succeeds ∧
      CreatesAbove target.absolute target.normalComponents.dropLast world.files
        (handlePost request root config world).2.files) ∨
    ∃ place, (aboveCreated world.files target).openWrite target = .ok place ∧
      ChangedAt place.place (some (.file place.mode request.body))
        (aboveCreated world.files target) (handlePost request root config world).2.files := by
  unfold handlePost
  rw [isTarget]
  split_ifs with empty
  · left
    exact ⟨errorResponse_fails (by decide) _ _,
      (sameFiles_errorResponse _ _ world).creates (CreatesAbove.refl _)⟩
  · have creates := createsAbove_aboveCreated world.files target
    rw [← createParent_files] at creates ⊢
    rw [bind_apply]
    generalize createParent target world = created at creates ⊢
    obtain ⟨failed | ⟨⟨⟩⟩, made⟩ := created
    · left
      exact ⟨errorResponse_fails (by decide) _ _,
        (sameFiles_errorResponse _ _ made).creates creates⟩
    · dsimp only at creates ⊢
      rw [bind_apply]
      rcases write_cases made.files target request.body with
        ⟨e, -, failed⟩ | ⟨place, after, opened, stored, changed⟩
      · left
        simp only [World.write, failed]
        exact ⟨errorResponse_fails (by decide) _ _,
          (sameFiles_errorResponse _ _ _).creates creates⟩
      · right
        simp only [World.write, stored]
        exact ⟨place, opened, changed⟩

/-- A deletion that does not succeed changes nothing. -/
theorem handleDelete_cases (request : Request) (root : Str) (config : ServerConfig) (world : World)
    {target : Path} (isTarget : filePath (root ++ request.path) = target) :
    (¬(handleDelete request root config world).1.Succeeds ∧
      SameFiles world (handleDelete request root config world).2) ∨
    ∃ place mode contents, world.files.resolve target = .ok place ∧ target.trailing = false ∧
      world.files.node place = some (.file mode contents) ∧
      ChangedAt place none world.files (handleDelete request root config world).2.files := by
  unfold handleDelete
  rw [isTarget, bind_apply]
  rcases removeFile_cases world.files target with
    ⟨e, failed⟩ | ⟨place, mode, contents, after, removed, resolved, plain, found, changed⟩
  · left
    simp only [World.removeFile, failed]
    exact ⟨errorResponse_fails (by decide) _ _, sameFiles_errorResponse _ _ _⟩
  · right
    simp only [World.removeFile, removed]
    exact ⟨place, mode, contents, resolved, plain, found, changed⟩

/-- What a request that runs no script can do to the file system. -/
inductive Changes (request : Request) (taken : Route) (before after : FileSystem) : Prop where
  | nothing (same : after = before)
  | directories {loc : Location} (isUpload : taken = .upload loc) (grows : Grows before after)
  | stored {loc : Location} (isUpload : taken = .upload loc)
      (place : (aboveCreated before (targetPath loc request)).Writable)
      (opened : (aboveCreated before (targetPath loc request)).openWrite (targetPath loc request) =
        .ok place)
      (changed : ChangedAt place.place (some (.file place.mode request.body))
        (aboveCreated before (targetPath loc request)) after)
  | removed {loc : Location} (isDeletion : taken = .deletion loc) {place : List Name} {mode : Mode}
      {contents : Bytes} (resolved : before.resolve (targetPath loc request) = .ok place)
      (found : before.node place = some (.file mode contents))
      (changed : ChangedAt place none before after)

theorem changes_buildResponse (platform : Platform) (clock : Clock) {request : Request}
    {config : ServerConfig} (noScript : ∀ cgi loc, route request config ≠ .script cgi loc)
    (world : World) : Changes request (route request config) world.files
      (buildResponse platform clock request config world).2.files := by
  rw [buildResponse_eq_follow]
  by_cases uploads : ∃ loc, route request config = .upload loc
  · obtain ⟨loc, isUpload⟩ := uploads
    rw [isUpload]
    rcases handlePost_cases request loc.root config world rfl with
      ⟨-, creates⟩ | ⟨place, opened, changed⟩
    · exact .directories rfl creates.grows
    · exact .stored rfl place opened changed
  · by_cases deletes : ∃ loc, route request config = .deletion loc
    · obtain ⟨loc, isDeletion⟩ := deletes
      rw [isDeletion]
      rcases handleDelete_cases request loc.root config world rfl with
        ⟨-, same⟩ | ⟨place, mode, contents, resolved, -, found, changed⟩
      · exact .nothing same
      · exact .removed rfl resolved found changed
    · exact .nothing (sameFiles_follow platform clock request config noScript
        (not_exists.mp uploads) (not_exists.mp deletes) world)

theorem serveFile_holds {world : World} {path root : Str} {contents : Bytes}
    (config : ServerConfig) (holds : world.files.Holds (filePath (root ++ path)) contents) :
    (serveFile path root config world).1.Succeeds ∧
      (serveFile path root config world).1.body = contents := by
  obtain ⟨mode, found⟩ := holds.metadata
  unfold serveFile
  rw [bind_apply]
  simp only [World.metadata, found]
  unfold serveFound
  rw [if_neg (by simp [Node.isDirectory]), bind_apply]
  have read : ((world.log .stat (filePath (root ++ path))).files).read (filePath (root ++ path)) =
      .ok contents := holds.read
  simp only [World.read, read]
  exact ⟨⟨rfl, rfl⟩, rfl⟩

theorem trimEndMatches_of_plain {root path : Str} (plain : (filePath (root ++ path)).trailing = false)
    (named : (filePath (root ++ path)).components ≠ []) : trimEndMatches '/' path = path := by
  rw [trimEndMatches, List.rdropWhile_eq_self_iff]
  intro nonempty isSlash
  -- the bytes end with a slash, so the path would be trailing or have no components
  have shape : path = path.dropLast ++ ['/'] := by
    rw [beq_iff_eq] at isSlash
    rw [← isSlash, List.dropLast_append_getLast]
  have last : (encode (root ++ path)).getLast? = some Path.slash := by
    rw [shape, ← List.append_assoc, encode_append]
    exact List.getLast?_concat
  simp only [filePath, Path.ofBytes, last, decide_true, Bool.true_and, decide_eq_false_iff_not,
    not_not] at plain
  exact named plain

/-- Where there is nothing, with or without trailing slashes, nothing is found. -/
theorem serveFile_lacks {world : World} {path root : Str} (config : ServerConfig)
    (lacks : world.files.Lacks (filePath (root ++ path))) :
    (serveFile path root config world).1.status = .notFound ∧
      (serveFile path root config world).1.redirectLocation = none := by
  unfold serveFile
  rw [trimEndMatches_of_plain lacks.plain lacks.components_ne_nil, bind_apply]
  simp only [World.metadata, lacks.metadata]
  rw [bind_apply]
  have again : ((world.log .stat (filePath (root ++ path))).files).metadata
      (filePath (root ++ path)) = .error .notFound := lacks.metadata
  simp only [World.metadata, again]
  exact errorResponse_status _ _ _

end LocalServer.Effects
