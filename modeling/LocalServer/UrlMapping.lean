import LocalServer.Confinement
import LocalServer.Effects
import LocalServer.Library.Seam

/-! The file that each way of serving a request works on, and when a URL names one file
whatever is asked of it. -/

namespace LocalServer.UrlMapping
open Library Action Utf8 Text Path Handler Effects Confinement

def file? (request : Request) : Route → Option Path
  | .script _ loc => some (filePath (scriptPath request.path loc))
  | .static loc => some (targetPath loc request)
  | .upload loc => some (targetPath loc request)
  | .deletion loc => some (targetPath loc request)
  | _ => none

/-- Whatever is asked of the path, it names the file that a script under it would be. -/
def OneFile (config : ServerConfig) (path : Str) (loc : Location) : Prop :=
  ∀ request : Request, request.path = path → ∀ file,
    file? request (route request config) = some file → SamePath file (filePath (scriptPath path loc))

def ServesFiles (path : Str) (loc : Location) : Prop :=
  loc.redirect = none ∧ path ≠ "/whoami".toList ∧
    (isMethodAllowed .delete loc = true ∨ findCgi path loc = none ∧
      (isMethodAllowed .get loc = true ∨ isMethodAllowed .post loc = true ∧
        path ≠ "/login".toList ∧ path ≠ "/logout".toList))

/-- The location's path adds nothing to the root: it has no name, and none runs across its ends. -/
structure Invisible (path : Str) (loc : Location) : Prop where
  anchored : loc.root = [] → (encode path).head? = some slash
  joins : Joins (encode loc.root) (encode path)
  nameless : ∀ name ∈ split (encode loc.path), name = dot
  parts : Joins (encode loc.path) (encode (path.drop loc.path.length))

def About (file : Option Path) (access : Access) : Prop :=
  access.kind ∈ [.write, .remove, .execute] → file = some access.path

theorem about_other {file : Option Path} {kind : Access.Kind} (path : Path)
    (other : kind ∉ [Access.Kind.write, .remove, .execute]) : About file ⟨kind, path⟩ :=
  fun member => absurd member other

theorem touches_file (platform : Platform) (clock : Clock) (request : Request)
    (config : ServerConfig) (taken : Route) :
    Keeps (Touches (About (file? request taken))) (follow platform clock request config taken) := by
  have pages : AllowsPages (About (file? request taken)) config :=
    fun code page found => about_other _ (by decide)
  cases taken with
  | redirect target => exact keeps_pure _ _
  | login =>
    intro world
    refine ⟨[], ?_, by simp⟩
    simp only [follow, handleLogin]
    split_ifs <;> simp
  | logout => exact fun world => ⟨[], by simp [follow, handleLogout], by simp⟩
  | whoami => exact touches_handleWhoami pages clock request
  | script cgi loc => exact fun world => touches_one (fun _ => rfl) rfl
  | static loc =>
    apply touches_serveFile pages
    · exact fun kind other member => rfl
    · exact about_other _ (by decide)
    · exact about_other _ (by decide)
    · exact fun name valid => about_other _ (by decide)
  | upload loc =>
    apply touches_handlePost pages
    · exact fun member => rfl
    · exact fun above isParent => about_other _ (by decide)
  | deletion loc =>
    apply touches_handleDelete pages
    exact fun member => rfl
  | refused status => exact touches_errorResponse pages status

/-- What is served statically is looked up under the route's file first. -/
theorem static_first (platform : Platform) (clock : Clock) (request : Request)
    (config : ServerConfig) (loc : Location) (world : World) :
    ∃ later, (follow platform clock request config (.static loc) world).2.accesses =
      world.accesses ++ ⟨.stat, targetPath loc request⟩ :: later := by
  have pages : AllowsPages (fun _ => True) config := fun code page found => trivial
  have serves : ∀ found, Keeps (Touches fun _ => True)
      (serveFound request.path (loc.root ++ request.path) found config) :=
    fun found => touches_serveFound pages _ _ _ (fun _ _ => trivial) trivial fun _ _ => trivial
  have first : ∀ {after : World}, Touches (fun _ => True)
      (world.log .stat (targetPath loc request)) after →
      ∃ later, after.accesses = world.accesses ++ ⟨.stat, targetPath loc request⟩ :: later := by
    intro after touched
    obtain ⟨later, logged, -⟩ := touched
    exact ⟨later, by rw [logged, World.log, List.append_assoc]; rfl⟩
  apply first
  unfold follow serveFile
  dsimp only
  rw [bind_apply]
  cases (World.metadata (filePath (loc.root ++ request.path)) world).1 with
  | ok found => exact serves found _
  | error failed =>
    have again : Keeps (Touches fun _ => True)
        (World.metadata (filePath (loc.root ++ trimEndMatches '/' request.path))) :=
      fun world => touches_one trivial rfl
    refine again.bind (fun result => ?_) _
    cases result with
    | ok found => exact serves found
    | error failed => exact touches_errorResponse pages .notFound

theorem split_trimStart (text : Str) : split (encode (trimStartMatches '/' text)) = split (encode text) := by
  induction text with
  | nil => rfl
  | cons c text ih =>
    by_cases isSlash : c = '/'
    · subst isSlash
      have bytes : encode ('/' :: text) = [] ++ slash :: encode text := rfl
      have trimmed : trimStartMatches '/' ('/' :: text) = trimStartMatches '/' text :=
        List.dropWhile_cons_of_pos (by simp)
      rw [trimmed, ih, bytes, split_slash]
      rfl
    · have trimmed : trimStartMatches '/' (c :: text) = c :: text :=
        List.dropWhile_cons_of_neg (by simpa using isSlash)
      rw [trimmed]

section
variable {path : Str} {loc : Location} (leads : startsWith path loc.path = true)
include leads

theorem path_eq : path = loc.path ++ path.drop loc.path.length := by
  obtain ⟨rest, whole⟩ := List.isPrefixOf_iff_prefix.mp leads
  rw [← whole, List.drop_left]

theorem scriptPath_eq : scriptPath path loc =
    loc.root ++ '/' :: trimStartMatches '/' (path.drop loc.path.length) := by
  rw [scriptPath, stripLocationPrefix, stripPrefix, if_pos leads, Option.getD_some,
    List.append_assoc]
  rfl

theorem split_scriptPath : split (encode (scriptPath path loc)) =
    split (encode loc.root) ++ split (encode (path.drop loc.path.length)) := by
  rw [scriptPath_eq leads, encode_append, ← split_trimStart (path.drop loc.path.length)]
  exact split_slash _ _

theorem invisible_of_same
    (same : SamePath (filePath (loc.root ++ path)) (filePath (scriptPath path loc))) :
    Invisible path loc := by
  have whole := same.weight
  have script : weight (encode (scriptPath path loc)) =
      weight (encode loc.root) + weight (encode (path.drop loc.path.length)) := by
    rw [weight, split_scriptPath leads, List.map_append, List.sum_append]
    rfl
  have pathBytes : encode path = encode loc.path ++ encode (path.drop loc.path.length) := by
    rw [← encode_append, ← path_eq leads]
  have outer := weight_append_le (encode loc.root) (encode path)
  have inner := weight_append_le (encode loc.path) (encode (path.drop loc.path.length))
  rw [encode_append, script] at whole
  rw [← pathBytes] at inner
  refine ⟨?_, ?_, ?_, ?_⟩
  · intro empty
    have start := same.start
    rw [scriptPath_eq leads, empty] at start
    exact of_decide_eq_true start
  · apply joins_of_weight
    omega
  · apply weight_eq_zero
    omega
  · apply joins_of_weight
    rw [← pathBytes]
    omega

theorem same_of_invisible (invisible : Invisible path loc) :
    SamePath (filePath (loc.root ++ path)) (filePath (scriptPath path loc)) := by
  have nothing : (split (encode loc.path)).filter (· ≠ dot) = [] := by
    rw [List.filter_eq_nil_iff]
    intro name member
    simpa using invisible.nameless name member
  have parts : split (encode (loc.root ++ path)) = split (encode loc.root) ++
      (split (encode loc.path) ++ split (encode (path.drop loc.path.length))) := by
    rw [encode_append, split_joins invisible.joins, ← split_joins invisible.parts, ← encode_append,
      ← path_eq leads]
  have start : (filePath (loc.root ++ path)).absolute = (filePath (scriptPath path loc)).absolute := by
    by_cases empty : loc.root = []
    · rw [scriptPath_eq leads, empty]
      exact decide_eq_true (invisible.anchored empty)
    · simp only [filePath, ofBytes, scriptPath_eq leads, encode_head empty]
  -- both are the root's components and more; an empty root stands for `/`
  obtain ⟨base, anchored, sameStart, components⟩ : ∃ base : Path,
      (base.absolute = true ∨ base.components ≠ []) ∧
        (filePath (scriptPath path loc)).absolute = base.absolute ∧
          base.components = split (encode loc.root) := by
    by_cases empty : loc.root = []
    · refine ⟨⟨true, [], false⟩, Or.inl rfl, ?_, by rw [empty]; rfl⟩
      rw [scriptPath_eq leads, empty]
      rfl
    · refine ⟨filePath loc.root, root_anchored empty, ?_, rfl⟩
      simp only [filePath, ofBytes, scriptPath_eq leads, encode_head empty]
  refine ⟨start, ?_⟩
  rw [normalComponents_append (start.trans sameStart) (by rw [components]; exact parts) anchored,
    normalComponents_append sameStart (by rw [components]; exact split_scriptPath leads) anchored,
    List.filter_append, nothing, List.nil_append]

end

/-! One file -/

section
variable {path : Str} {config : ServerConfig} {loc : Location}

def asking (method : Request.Method) (path : Str) : Request :=
  ⟨method, path, "HTTP/1.1".toList, HashMap.empty, []⟩

theorem route_asking {method : Request.Method}
    (matched : matchLocation path config = some loc) (direct : loc.redirect = none)
    (allowed : isMethodAllowed method loc = true) (free : ¬SessionRoute (asking method path)) :
    route (asking method path) config = servedRoute loc method (findCgi path loc) := by
  have located : matchLocation (asking method path).path config = some loc := matched
  exact route_allowed located direct free allowed

theorem exists_target (matched : matchLocation path config = some loc)
    (serves : ServesFiles path loc) :
    ∃ request : Request, request.path = path ∧
      file? request (route request config) = some (targetPath loc request) := by
  obtain ⟨direct, notWhoami, deletes | ⟨static, gets | ⟨posts, notLogin, notLogout⟩⟩⟩ := serves
  · have free : ¬SessionRoute (asking .delete path) := by
      rintro (⟨-, wrong⟩ | ⟨-, wrong⟩ | isWhoami)
      · cases wrong
      · cases wrong
      · exact notWhoami isWhoami
    refine ⟨asking .delete path, rfl, ?_⟩
    rw [route_asking matched direct deletes free]
    rfl
  · have free : ¬SessionRoute (asking .get path) := by
      rintro (⟨-, wrong⟩ | ⟨-, wrong⟩ | isWhoami)
      · cases wrong
      · cases wrong
      · exact notWhoami isWhoami
    refine ⟨asking .get path, rfl, ?_⟩
    rw [route_asking matched direct gets free, static]
    rfl
  · have free : ¬SessionRoute (asking .post path) := by
      rintro (⟨isLogin, -⟩ | ⟨isLogout, -⟩ | isWhoami)
      · exact notLogin isLogin
      · exact notLogout isLogout
      · exact notWhoami isWhoami
    refine ⟨asking .post path, rfl, ?_⟩
    rw [route_asking matched direct posts free, static]
    rfl

/-- A file other than a script's is looked for only where the path serves files. -/
theorem serves_of_file {request : Request} {file : Path}
    (matched : matchLocation request.path config = some loc)
    (isFile : file? request (route request config) = some file) :
    file = filePath (scriptPath request.path loc) ∨
      file = targetPath loc request ∧ ServesFiles request.path loc := by
  have located {other : Location} (served : (route request config).location? = some other) :
      other = loc ∧ loc.redirect = none ∧ isMethodAllowed request.method loc = true ∧
        ¬SessionRoute request := by
    obtain ⟨matched', direct, allowed, free⟩ := route_location served
    rw [matched, Option.some.injEq] at matched'
    subst matched'
    exact ⟨rfl, direct, allowed, free⟩
  cases taken : route request config with
  | script cgi other =>
    obtain ⟨rfl, -⟩ := located (by rw [taken]; rfl)
    rw [taken] at isFile
    cases isFile
    exact Or.inl rfl
  | static other =>
    obtain ⟨rfl, direct, allowed, free⟩ := located (by rw [taken]; rfl)
    obtain ⟨asked, static⟩ := route_static taken
    rw [taken] at isFile
    cases isFile
    rw [asked] at allowed
    refine Or.inr ⟨rfl, direct, ?_, Or.inr ⟨static, Or.inl allowed⟩⟩
    exact fun isWhoami => free (Or.inr (Or.inr isWhoami))
  | upload other =>
    obtain ⟨rfl, direct, allowed, free⟩ := located (by rw [taken]; rfl)
    obtain ⟨asked, static⟩ := route_upload taken
    rw [taken] at isFile
    cases isFile
    simp only [SessionRoute, asked, and_true, not_or] at free
    rw [asked] at allowed
    exact Or.inr ⟨rfl, direct, free.2.2, Or.inr ⟨static, Or.inr ⟨allowed, free.1, free.2.1⟩⟩⟩
  | deletion other =>
    obtain ⟨rfl, direct, allowed, free⟩ := located (by rw [taken]; rfl)
    rw [taken] at isFile
    cases isFile
    rw [route_deletion taken] at allowed
    refine Or.inr ⟨rfl, direct, ?_, Or.inl allowed⟩
    exact fun isWhoami => free (Or.inr (Or.inr isWhoami))
  | _ =>
    rw [taken] at isFile
    cases isFile

/-- A path names one file exactly when only scripts run under it or its location's path adds
nothing to the root. -/
theorem oneFile_iff (matched : matchLocation path config = some loc) :
    OneFile config path loc ↔ (ServesFiles path loc → Invisible path loc) := by
  have leads := (matchLocation_leads matched).2
  constructor
  · intro one serves
    obtain ⟨request, rfl, file⟩ := exists_target matched serves
    exact invisible_of_same leads (one request rfl _ file)
  · intro invisible request isPath file isFile
    subst isPath
    rcases serves_of_file matched isFile with rfl | ⟨rfl, serves⟩
    · exact ⟨rfl, rfl⟩
    · exact same_of_invisible leads (invisible serves)

end

def cgiLocation : Location :=
  ⟨"/cgi".toList, "./cgi-bin".toList, none, [], false, none, some ⟨".py".toList, "python3".toList⟩⟩

def cgiConfig : ServerConfig :=
  ⟨"127.0.0.1".toList, 8080, none, 1048576, HashMap.empty, [cgiLocation]⟩

/-- A script is run at one path and deleted at another. -/
theorem cgi_not_oneFile : ¬OneFile cgiConfig "/cgi/echo.py".toList cgiLocation := by
  intro one
  have script := one (asking .get "/cgi/echo.py".toList) rfl
    (filePath "./cgi-bin/echo.py".toList) (by decide +kernel)
  have deleted := one (asking .delete "/cgi/echo.py".toList) rfl
    (filePath "./cgi-bin/cgi/echo.py".toList) (by decide +kernel)
  have same : SamePath (filePath "./cgi-bin/cgi/echo.py".toList) (filePath "./cgi-bin/echo.py".toList) :=
    ⟨deleted.start.trans script.start.symm, deleted.components.trans script.components.symm⟩
  exact absurd same (by decide +kernel)

theorem oneFile_cgi : OneFile cgiConfig "/cgi/echo.py".toList cgiLocation ↔
    (ServesFiles "/cgi/echo.py".toList cgiLocation → Invisible "/cgi/echo.py".toList cgiLocation) :=
  oneFile_iff (by decide +kernel)

end LocalServer.UrlMapping
