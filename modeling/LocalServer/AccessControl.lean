import LocalServer.Confinement
import LocalServer.Effects

/-! Who may run a script or change the file system, and what else may change with it. -/

namespace LocalServer.AccessControl
open Library Action Utf8 Text FileSystem Handler Effects Confinement

structure LongestMatch (path : Str) (config : ServerConfig) (loc : Location) : Prop where
  configured : loc ∈ config.locations
  leads : startsWith path loc.path = true
  longest : ∀ other ∈ config.locations, startsWith path other.path = true →
    (encode other.path).length ≤ (encode loc.path).length

def methodOf : Config.Method → Request.Method
  | .get => .get
  | .post => .post
  | .delete => .delete

/-- An empty list permits every method. -/
def Permits (loc : Location) (method : Request.Method) : Prop :=
  loc.methods = [] ∨ ∃ listed ∈ loc.methods, methodOf listed = method

theorem isMethodAllowed_iff (method : Request.Method) (loc : Location) :
    isMethodAllowed method loc = true ↔ Permits loc method := by
  rw [isMethodAllowed, Bool.or_eq_true, List.isEmpty_iff, List.any_eq_true, Permits]
  apply or_congr Iff.rfl
  apply exists_congr
  intro listed
  cases listed <;> cases method <;> simp [methodOf]

structure Takes (request : Request) (config : ServerConfig) (loc : Location) : Prop where
  matched : matchLocation request.path config = some loc
  longest : LongestMatch request.path config loc
  direct : loc.redirect = none
  permits : Permits loc request.method

def ScriptStarted (after : World) : Prop := ∃ access ∈ after.accesses, access.kind = .execute

structure RemovedAt (target : Path) (before after : FileSystem) : Prop where
  cwd : after.cwd = before.cwd
  changed : ∀ place, after.node place ≠ before.node place →
    before.resolve target = .ok place ∧ (∃ mode contents, before.node place =
      some (.file mode contents)) ∧ after.node place = none

/-- At most the file that a path leads to is stored, and directories above it are created
where there was nothing. -/
structure StoredAt (target : Path) (contents : Bytes) (before after : FileSystem) : Prop where
  cwd : after.cwd = before.cwd
  changed : ∀ place, after.node place ≠ before.node place →
    (after.resolve target = .ok place ∧ (∀ mode, before.node place ≠ some (.directory mode)) ∧
      ∃ mode, after.node place = some (.file mode contents)) ∨
    (before.node place = none ∧ after.node place = some (.directory newDirectory) ∧
      ∃ above, above <+: target.normalComponents.dropLast ∧
        after.resolve ⟨target.absolute, above, false⟩ = .ok place)

structure Controlled (request : Request) (config : ServerConfig) (before after : World)
    (response : Response) : Prop where
  script : ScriptStarted after → (request.method = .get ∨ request.method = .post) ∧
    ∃ loc cgi, Takes request config loc ∧ loc.cgi = some cgi ∧
      endsWith request.path cgi.extension = true
  frame : ¬ScriptStarted after → after.files = before.files ∨
    ¬SessionRoute request ∧ ∃ loc, Takes request config loc ∧
      ((request.method = .delete ∧ RemovedAt (targetPath loc request) before.files after.files) ∨
        (request.method = .post ∧
          StoredAt (targetPath loc request) request.body before.files after.files))
  refused : ∀ loc, matchLocation request.path config = some loc → loc.redirect = none →
    ¬SessionRoute request → ¬Permits loc request.method →
      response.status = .methodNotAllowed ∧ response.redirectLocation = none

section
variable {request : Request} {config : ServerConfig} {loc : Location}

theorem longestMatch (matched : matchLocation request.path config = some loc) :
    LongestMatch request.path config loc :=
  ⟨(matchLocation_leads matched).1, (matchLocation_leads matched).2, matchLocation_longest matched⟩

theorem takes_served (served : (route request config).location? = some loc) :
    Takes request config loc := by
  obtain ⟨matched, direct, allowed, -⟩ := route_location served
  exact ⟨matched, longestMatch matched, direct, (isMethodAllowed_iff _ _).mp allowed⟩

end

def NoScript (access : Access) : Prop := access.kind ≠ .execute

theorem noScript_of {kind : Access.Kind} (path : Path) (other : kind ≠ .execute) :
    NoScript ⟨kind, path⟩ := other

theorem allowsPages_noScript (config : ServerConfig) : AllowsPages NoScript config := by
  intro code page found same
  cases same

theorem noScript_follow (platform : Platform) (clock : Clock) (request : Request)
    (config : ServerConfig) {taken : Route} (noScript : ∀ cgi loc, taken ≠ .script cgi loc) :
    Keeps (Touches NoScript) (follow platform clock request config taken) := by
  have pages := allowsPages_noScript config
  cases taken with
  | redirect target => exact keeps_pure _ _
  | login =>
    intro world
    refine ⟨[], ?_, by simp⟩
    simp only [follow, handleLogin]
    split_ifs <;> simp
  | logout => exact fun world => ⟨[], by simp [follow, handleLogout], by simp⟩
  | whoami => exact touches_handleWhoami pages clock request
  | script cgi loc => exact absurd rfl (noScript cgi loc)
  | static loc =>
    apply touches_serveFile pages
    · exact fun kind other => other
    · exact noScript_of _ (by decide)
    · exact noScript_of _ (by decide)
    · exact fun name valid => noScript_of _ (by decide)
  | upload loc =>
    apply touches_handlePost pages
    · exact noScript_of _ (by decide)
    · exact fun above isParent => noScript_of _ (by decide)
  | deletion loc =>
    apply touches_handleDelete pages
    exact noScript_of _ (by decide)
  | refused status => exact touches_errorResponse pages status

theorem script_of_started (platform : Platform) (clock : Clock) (request : Request)
    (config : ServerConfig) {world : World} (quiet : world.accesses = [])
    (started : ScriptStarted (buildResponse platform clock request config world).2) :
    ∃ cgi loc, route request config = .script cgi loc := by
  by_contra none
  have noScript : ∀ cgi loc, route request config ≠ .script cgi loc :=
    fun cgi loc isScript => none ⟨cgi, loc, isScript⟩
  rw [buildResponse_eq_follow] at started
  obtain ⟨new, logged, kinds⟩ := noScript_follow platform clock request config noScript world
  obtain ⟨access, member, isExecute⟩ := started
  rw [logged, quiet, List.nil_append] at member
  exact kinds access member isExecute

theorem started_of_script (platform : Platform) (clock : Clock) {request : Request}
    {config : ServerConfig} {cgi : CGI} {loc : Location}
    (isScript : route request config = .script cgi loc) (world : World) :
    ScriptStarted (buildResponse platform clock request config world).2 := by
  rw [buildResponse_eq_follow, isScript]
  exact ⟨_, List.mem_append_right _ List.mem_cons_self, rfl⟩

theorem storedAt_of_creates {target : Path} {contents : Bytes} {before after : FileSystem}
    (creates : CreatesAbove target.absolute target.normalComponents.dropLast before after) :
    StoredAt target contents before after := by
  refine ⟨creates.grows.cwd, ?_⟩
  intro place changed
  right
  obtain ⟨free, made⟩ := creates.directory changed
  exact ⟨free, made, creates.led place changed⟩

theorem storedAt_of_write {target : Path} {contents : Bytes} {before between after : FileSystem}
    {opened : between.Writable}
    (creates : CreatesAbove target.absolute target.normalComponents.dropLast before between)
    (isOpen : between.openWrite target = .ok opened)
    (stored : ChangedAt opened.place (some (.file opened.mode contents)) between after) :
    StoredAt target contents before after := by
  have keeps := stored.keepsDirectories opened.fits.free
  refine ⟨stored.cwd.trans creates.grows.cwd, ?_⟩
  intro place changed
  by_cases same : place = opened.place
  · subst same
    left
    refine ⟨keeps.resolve (openWrite_ok isOpen).1, ?_, opened.mode, ?_⟩
    · intro mode isDirectory
      exact opened.fits.free mode (creates.grows.kept _ _ isDirectory)
    · rw [stored.node, if_pos rfl]
  · right
    have unchanged : after.node place = between.node place := by
      rw [stored.node, if_neg same]
    rw [unchanged] at changed ⊢
    obtain ⟨free, made⟩ := creates.directory changed
    obtain ⟨above, leading, resolved⟩ := creates.led place changed
    exact ⟨free, made, above, leading, keeps.resolve resolved⟩

theorem removedAt_of_changedAt {target : Path} {before after : FileSystem} {place : List Name}
    {mode : Mode} {contents : Bytes} (resolved : before.resolve target = .ok place)
    (found : before.node place = some (.file mode contents))
    (gone : ChangedAt place none before after) : RemovedAt target before after := by
  refine ⟨gone.cwd, ?_⟩
  intro other changed
  have same : other = place := by
    by_contra different
    rw [gone.node, if_neg different] at changed
    exact changed rfl
  subst same
  exact ⟨resolved, ⟨mode, contents, found⟩, by rw [gone.node, if_pos rfl]⟩

/-! Control -/

section
variable (platform : Platform) (clock : Clock) (request : Request) (config : ServerConfig)

theorem frame_buildResponse {world : World}
    (noScript : ∀ cgi loc, route request config ≠ .script cgi loc) :
    (buildResponse platform clock request config world).2.files = world.files ∨
    ¬SessionRoute request ∧ ∃ loc, Takes request config loc ∧
      ((request.method = .delete ∧ RemovedAt (targetPath loc request) world.files
          (buildResponse platform clock request config world).2.files) ∨
        (request.method = .post ∧ StoredAt (targetPath loc request) request.body world.files
          (buildResponse platform clock request config world).2.files)) := by
  rw [buildResponse_eq_follow]
  cases taken : route request config with
  | script cgi loc => exact absurd taken (noScript cgi loc)
  | upload loc =>
    right
    have served : (route request config).location? = some loc := by rw [taken]; rfl
    obtain ⟨-, -, -, free⟩ := route_location served
    refine ⟨free, loc, takes_served served, Or.inr ⟨(route_upload taken).1, ?_⟩⟩
    rcases handlePost_cases request loc.root config world rfl with
      ⟨-, creates⟩ | ⟨place, opened, changed⟩
    · exact storedAt_of_creates creates
    · exact storedAt_of_write (createsAbove_aboveCreated _ _) opened changed
  | deletion loc =>
    have served : (route request config).location? = some loc := by rw [taken]; rfl
    obtain ⟨-, -, -, free⟩ := route_location served
    rcases handleDelete_cases request loc.root config world rfl with
      ⟨-, same⟩ | ⟨place, mode, contents, resolved, -, found, changed⟩
    · exact Or.inl same
    · right
      exact ⟨free, loc, takes_served served, Or.inl ⟨route_deletion taken,
        removedAt_of_changedAt resolved found changed⟩⟩
  | redirect target => exact Or.inl rfl
  | login => exact Or.inl (sameFiles_handleLogin clock request world)
  | logout => exact Or.inl rfl
  | whoami => exact Or.inl (sameFiles_handleWhoami clock request config world)
  | static loc => exact Or.inl (sameFiles_serveFile _ _ _ world)
  | refused status => exact Or.inl (sameFiles_errorResponse status config world)

theorem refused_buildResponse {loc : Location} (world : World)
    (matched : matchLocation request.path config = some loc) (direct : loc.redirect = none)
    (free : ¬SessionRoute request) (forbidden : ¬Permits loc request.method) :
    (buildResponse platform clock request config world).1.status = .methodNotAllowed ∧
      (buildResponse platform clock request config world).1.redirectLocation = none := by
  have isRefused : route request config = .refused .methodNotAllowed := by
    rw [← isMethodAllowed_iff] at forbidden
    rw [route_direct matched direct free, locationRoute, matched]
    exact if_neg forbidden
  rw [buildResponse_eq_follow, isRefused]
  exact errorResponse_status _ _ _

end

end LocalServer.AccessControl
