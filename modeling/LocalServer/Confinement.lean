import LocalServer.Handler

/-! Which paths a request makes the server touch, and when they stay inside the root of
the location that serves it. -/

namespace LocalServer.Confinement
open Library Action Utf8 Text Path FileSystem Handler

/-- The log only grows, and only by allowed accesses. -/
def Touches (allowed : Access → Prop) (before after : World) : Prop :=
  ∃ new, after.accesses = before.accesses ++ new ∧ ∀ access ∈ new, allowed access

instance (allowed : Access → Prop) : Std.Refl (Touches allowed) :=
  ⟨fun _ => ⟨[], by simp, by simp⟩⟩

instance (allowed : Access → Prop) : IsTrans World (Touches allowed) where
  trans := by
    rintro first second third ⟨early, grown, earlyOk⟩ ⟨late, grown', lateOk⟩
    refine ⟨early ++ late, by rw [grown', grown, List.append_assoc], ?_⟩
    intro access member
    exact (List.mem_append.mp member).elim (earlyOk access) (lateOk access)

theorem touches_one {allowed : Access → Prop} {before after : World} {access : Access}
    (ok : allowed access) (logged : after.accesses = before.accesses ++ [access]) :
    Touches allowed before after := ⟨[access], logged, by simpa using ok⟩

/-! What each function touches -/

section
variable {allowed : Access → Prop} {config : ServerConfig}

def AllowsPages (allowed : Access → Prop) (config : ServerConfig) : Prop :=
  ∀ code page, config.errorPages.get code = some page → allowed ⟨.read, filePath page⟩

theorem touches_errorResponse (pages : AllowsPages allowed config) (status : StatusCode) :
    Keeps (Touches allowed) (errorResponse status config) := by
  unfold errorResponse
  cases configured : (errorCode status).bind config.errorPages.get with
  | none => exact keeps_pure _ _
  | some page =>
    obtain ⟨code, -, found⟩ := Option.bind_eq_some_iff.mp configured
    refine Keeps.bind (fun world => touches_one (pages code page found) rfl) ?_
    intro result
    cases result with
    | error failed => exact keeps_pure _ _
    | ok contents => exact keeps_pure _ _

theorem touches_entryRows (urlPath : Str) (path : Path) (place : List Name) (names : List Name)
    (entries : ∀ name ∈ names, allowed ⟨.stat, ⟨path.absolute, path.components ++ [name], false⟩⟩) :
    Keeps (Touches allowed) (entryRows urlPath path place names) := by
  induction names with
  | nil => exact keeps_pure _ _
  | cons name names ih =>
    have later := ih fun other member => entries other (by simp [member])
    refine Keeps.bind (fun world => touches_one (entries name (by simp)) rfl) ?_
    intro result
    cases result with
    | none => exact later
    | some found => exact later.bind fun rows => keeps_pure _ _

theorem touches_serveDirectory (pages : AllowsPages allowed config) (urlPath dirPath : Str)
    (listed : allowed ⟨.list, filePath dirPath⟩)
    (entries : ∀ name, ValidName name → allowed ⟨.stat,
      ⟨(filePath dirPath).absolute, (filePath dirPath).components ++ [name], false⟩⟩) :
    Keeps (Touches allowed) (serveDirectory urlPath dirPath config) := by
  unfold serveDirectory
  split_ifs
  · refine Keeps.bind_of (fun result => ∀ place names, result = .ok (place, names) →
      ∀ name ∈ names, ValidName name) (fun world => touches_one listed rfl) ?_ ?_
    · -- what a directory lists are names of entries
      intro world place names listed name member
      simp only [World.readDir, readDir] at listed
      split at listed
      · cases listed
      · split at listed
        · cases listed
        · cases listed
        · split_ifs at listed
          cases listed
          exact validName_of_mem_entryNames member
    · intro result valid
      cases result with
      | error failed => exact touches_errorResponse pages _
      | ok listed =>
        obtain ⟨place, names⟩ := listed
        have rows := touches_entryRows urlPath (filePath dirPath) place names fun name member =>
          entries name (valid place names rfl name member)
        exact rows.bind fun rows => keeps_pure _ _
  · exact touches_errorResponse pages _

theorem touches_serveFound (pages : AllowsPages allowed config) (path file : Str) (found : Node)
    (self : ∀ kind, kind ≠ .execute → allowed ⟨kind, filePath file⟩)
    (index : allowed ⟨.read, filePath (trimEndMatches '/' file ++ "/index.html".toList)⟩)
    (entries : ∀ name, ValidName name → allowed ⟨.stat,
      ⟨(filePath file).absolute, (filePath file).components ++ [name], false⟩⟩) :
    Keeps (Touches allowed) (serveFound path file found config) := by
  unfold serveFound
  split_ifs
  · refine Keeps.bind (fun world => touches_one index rfl) ?_
    intro result
    cases result with
    | error failed => exact touches_serveDirectory pages path file (self .list (by decide)) entries
    | ok contents => exact keeps_pure _ _
  · refine Keeps.bind (fun world => touches_one (self .read (by decide)) rfl) ?_
    intro result
    cases result with
    | error failed => exact touches_errorResponse pages _
    | ok contents => exact keeps_pure _ _

theorem touches_serveFile (pages : AllowsPages allowed config) (path root : Str)
    (self : ∀ kind, kind ≠ .execute → allowed ⟨kind, filePath (root ++ path)⟩)
    (trimmed : allowed ⟨.stat, filePath (root ++ trimEndMatches '/' path)⟩)
    (index : allowed ⟨.read, filePath (trimEndMatches '/' (root ++ path) ++ "/index.html".toList)⟩)
    (entries : ∀ name, ValidName name → allowed ⟨.stat,
      ⟨(filePath (root ++ path)).absolute, (filePath (root ++ path)).components ++ [name], false⟩⟩) :
    Keeps (Touches allowed) (serveFile path root config) := by
  have serves : ∀ found, Keeps (Touches allowed) (serveFound path (root ++ path) found config) :=
    fun found => touches_serveFound pages path (root ++ path) found self index entries
  refine Keeps.bind (fun world => touches_one (self .stat (by decide)) rfl) ?_
  intro result
  cases result with
  | error failed =>
    refine Keeps.bind (fun world => touches_one trimmed rfl) ?_
    intro result
    cases result with
    | error failed => exact touches_errorResponse pages _
    | ok found => exact serves found
  | ok found => exact serves found

theorem touches_handlePost (pages : AllowsPages allowed config) (request : Request) (root : Str)
    (self : allowed ⟨.write, filePath (root ++ request.path)⟩)
    (parent : ∀ above, (filePath (root ++ request.path)).parent = some above →
      allowed ⟨.createDirectories, above⟩) :
    Keeps (Touches allowed) (handlePost request root config) := by
  unfold handlePost
  split_ifs
  · exact touches_errorResponse pages _
  · have created : Keeps (Touches allowed) (createParent (filePath (root ++ request.path))) := by
      unfold createParent
      cases isParent : (filePath (root ++ request.path)).parent with
      | none => exact keeps_pure _ _
      | some above => exact fun world => touches_one (parent above isParent) rfl
    apply created.bind
    intro result
    cases result with
    | error failed => exact touches_errorResponse pages _
    | ok done =>
      refine Keeps.bind (fun world => touches_one self rfl) ?_
      intro result
      cases result with
      | error failed => exact touches_errorResponse pages _
      | ok done => exact keeps_pure _ _

theorem touches_handleDelete (pages : AllowsPages allowed config) (request : Request) (root : Str)
    (self : allowed ⟨.remove, filePath (root ++ request.path)⟩) :
    Keeps (Touches allowed) (handleDelete request root config) := by
  refine Keeps.bind (fun world => touches_one self rfl) ?_
  intro result
  cases result with
  | error failed => exact touches_errorResponse pages _
  | ok done => exact keeps_pure _ _

theorem touches_handleWhoami (pages : AllowsPages allowed config) (clock : Clock)
    (request : Request) : Keeps (Touches allowed) (handleWhoami clock request config) := by
  refine Keeps.bind ?_ ?_
  · intro world
    refine ⟨[], ?_, by simp⟩
    unfold sessionUser
    cases request.sessionId <;> simp
  · intro result
    cases result with
    | none => exact touches_errorResponse pages _
    | some name => exact keeps_pure _ _

end

def below (text : Str) : List Name := split (encode text)

structure Joined (root : Str) (added : List Name) (path : Path) : Prop where
  sameStart : path.absolute = (filePath root).absolute
  components : path.components = (filePath root).components ++ added

theorem Joined.inside {root : Str} {added : List Name} {path : Path} (joined : Joined root added path)
    (stays : staysBelow 0 added = true) : Inside (filePath root) path :=
  inside_of_stays joined.sameStart joined.components stays

theorem encode_slash {text : Str} (slashed : text.head? = some '/') :
    (encode text).head? = some slash := by
  cases text with
  | nil => cases slashed
  | cons first text =>
    cases slashed
    rfl

theorem encode_head {root : Str} (rooted : root ≠ []) (text : Str) :
    (encode (root ++ text)).head? = (encode root).head? := by
  obtain ⟨first, rest, rfl⟩ := List.exists_cons_of_ne_nil rooted
  have nonempty : encode (first :: rest) ≠ [] := by
    intro empty
    cases encode_injective (empty.trans (show [] = encode [] from rfl))
  rw [encode_append, List.head?_append_of_ne_nil _ nonempty]

theorem trimEndMatches_split (text : Str) :
    ∃ n, encode text = encode (trimEndMatches '/' text) ++ List.replicate n slash := by
  have slashes : text.rtakeWhile (· == '/') =
      List.replicate (text.rtakeWhile (· == '/')).length '/' := by
    rw [List.eq_replicate_iff]
    exact ⟨rfl, fun c member => by simpa using List.mem_rtakeWhile_imp member⟩
  have encoded : ∀ n, encode (List.replicate n '/') = List.replicate n slash :=
    encode_replicate (by decide)
  have whole : trimEndMatches '/' text ++ text.rtakeWhile (· == '/') = text :=
    List.rdropWhile_append_rtakeWhile
  refine ⟨(text.rtakeWhile (· == '/')).length, ?_⟩
  conv_lhs => rw [← whole, encode_append, slashes, encoded]

theorem below_trimEndMatches (text : Str) : below (trimEndMatches '/' text) = below text := by
  obtain ⟨n, whole⟩ := trimEndMatches_split text
  rw [below, below, whole, split_replicate]

section
variable {root path : Str} (rooted : root ≠ [])
include rooted

theorem joined_append {text : Str} (separated : text = [] ∨ text.head? = some '/') :
    Joined root (below text) (filePath (root ++ text)) := by
  refine ⟨?_, ?_⟩
  · simp only [filePath, ofBytes, encode_head rooted]
  · simp only [filePath, ofBytes, below, encode_append]
    rcases separated with rfl | slashed
    · simp [split, encode]
    · exact split_append (encode_slash slashed)

theorem joined_trimmed (slashed : path.head? = some '/') :
    Joined root (below path) (filePath (root ++ trimEndMatches '/' path)) := by
  rw [← below_trimEndMatches]
  apply joined_append rooted
  obtain ⟨text, rfl⟩ : ∃ text, path = '/' :: text := by
    cases path with
    | nil => cases slashed
    | cons first text => exact ⟨text, by cases slashed; rfl⟩
  rcases List.eq_nil_or_concat (trimEndMatches '/' ('/' :: text)) with empty | ⟨_, _, nonempty⟩
  · exact Or.inl empty
  · right
    have isPrefix : trimEndMatches '/' ('/' :: text) <+: '/' :: text := List.rdropWhile_prefix _ _
    rw [nonempty] at isPrefix ⊢
    obtain ⟨rest, whole⟩ := isPrefix
    rw [List.concat_eq_append] at whole ⊢
    have heads := congrArg List.head? whole
    simpa using heads

theorem joined_index (slashed : path.head? = some '/') :
    Joined root (below path ++ [utf8 "index.html"])
      (filePath (trimEndMatches '/' (root ++ path) ++ "/index.html".toList)) := by
  have joined := joined_append rooted (Or.inr slashed)
  have sameComponents : split (encode (trimEndMatches '/' (root ++ path))) =
      split (encode (root ++ path)) := below_trimEndMatches (root ++ path)
  refine ⟨?_, ?_⟩
  · rw [← joined.sameStart]
    by_cases empty : trimEndMatches '/' (root ++ path) = []
    · -- nothing but slashes
      obtain ⟨n, whole⟩ := trimEndMatches_split (root ++ path)
      rw [empty] at whole ⊢
      cases n with
      | zero =>
        have nothing := encode_injective (whole.trans (show _ = encode [] from rfl))
        exact absurd (List.append_eq_nil_iff.mp nothing).1 rooted
      | succ n =>
        simp only [filePath, ofBytes, whole]
        rfl
    · obtain ⟨rest, whole⟩ : trimEndMatches '/' (root ++ path) <+: root ++ path :=
        List.rdropWhile_prefix _ _
      simp only [filePath, ofBytes, encode_head empty]
      conv_rhs => rw [← whole]
      rw [encode_head empty]
  · rw [← List.append_assoc, ← joined.components]
    have separated : (encode "/index.html".toList).head? = some slash := rfl
    simp only [filePath, ofBytes, encode_append, split_append separated, sameComponents]
    congr 1

theorem joined_script (relative : Str) :
    Joined root (below relative) (filePath (root ++ "/".toList ++ relative)) := by
  have joined : Joined root (below ('/' :: relative)) (filePath (root ++ '/' :: relative)) :=
    joined_append rooted (Or.inr rfl)
  have same : below ('/' :: relative) = below relative := by
    have bytes : encode ('/' :: relative) = [] ++ slash :: encode relative := rfl
    rw [below, bytes, split_slash]
    rfl
  rw [same] at joined
  rw [List.append_assoc]
  exact joined

theorem root_anchored : (filePath root).absolute = true ∨ (filePath root).components ≠ [] := by
  have nonempty : encode root ≠ [] := by
    intro empty
    exact rooted (encode_injective (empty.trans (show [] = encode [] from rfl)))
  obtain ⟨first, rest, shape⟩ := List.exists_cons_of_ne_nil nonempty
  simp only [filePath, ofBytes, shape]
  by_cases isSlash : first = slash
  · exact Or.inl (by simp [isSlash])
  · exact Or.inr (split_ne_nil rest isSlash)

end

/-! Confinement -/

/-- The part of the request's path that ends up behind the root. A script is looked for
under the path without the location's prefix, everything else under the whole path. -/
def clientPart (request : Request) (loc : Location) : Str :=
  if (findCgi request.path loc).isSome ∧ (request.method = .get ∨ request.method = .post) then
    stripLocationPrefix request.path loc.path
  else request.path

/-- The request does not climb out of the root: no `..` takes back more than what the client
put before it, and an upload names something below the root to put into it. -/
structure StaysInside (request : Request) (loc : Location) : Prop where
  descends : staysBelow 0 (below (clientPart request loc)) = true
  names : request.method = .post → findCgi request.path loc = none →
    (below request.path).filter (· ≠ dot) ≠ []

/-- A configured error page is read, or the path lies inside the location's root. -/
def Confined (config : ServerConfig) (loc : Location) (access : Access) : Prop :=
  (∃ code page, config.errorPages.get code = some page ∧ access = ⟨.read, filePath page⟩) ∨
    Inside (filePath loc.root) access.path

section
variable {config : ServerConfig} {loc : Location} {request : Request}

theorem allowsPages_confined : AllowsPages (Confined config loc) config :=
  fun code page found => Or.inl ⟨code, page, found, rfl⟩

variable (rooted : loc.root ≠ []) (slashed : request.path.head? = some '/')
include rooted

section
variable (stays : StaysInside request loc)
include stays

theorem confined_runScript (platform : Platform) {cgi : CGI}
    (found : findCgi request.path loc = some cgi)
    (asked : request.method = .get ∨ request.method = .post) :
    Keeps (Touches (Confined config loc)) (World.runScript platform
      (.new cgi.interpreter (scriptPath request.path loc)) request) := by
  have descends := stays.descends
  rw [clientPart, if_pos ⟨by rw [found]; rfl, asked⟩] at descends
  exact fun world => touches_one (Or.inr ((joined_script rooted _).inside descends)) rfl

include slashed

theorem confined_serveFile (static : findCgi request.path loc = none) :
    Keeps (Touches (Confined config loc)) (serveFile request.path loc.root config) := by
  have descends := stays.descends
  rw [clientPart, if_neg (by simp [static])] at descends
  have joined := joined_append rooted (Or.inr slashed)
  have down : ∀ name, ValidName name → staysBelow 0 (below request.path ++ [name]) = true :=
    fun name valid => staysBelow_concat descends valid.notDotdot
  refine touches_serveFile allowsPages_confined _ _ (fun kind _ => Or.inr (joined.inside descends))
    (Or.inr ((joined_trimmed rooted slashed).inside descends))
    (Or.inr ((joined_index rooted slashed).inside (down _ (by decide +kernel)))) ?_
  intro name valid
  refine Or.inr (inside_of_stays joined.sameStart ?_ (down name valid))
  rw [joined.components, List.append_assoc]

theorem confined_handlePost (isPost : request.method = .post)
    (static : findCgi request.path loc = none) :
    Keeps (Touches (Confined config loc)) (handlePost request loc.root config) := by
  have descends := stays.descends
  rw [clientPart, if_neg (by simp [static])] at descends
  have joined := joined_append rooted (Or.inr slashed)
  apply touches_handlePost allowsPages_confined _ _ (Or.inr (joined.inside descends))
  intro above isParent
  exact Or.inr (inside_parent joined.sameStart joined.components (root_anchored rooted) descends
    (stays.names isPost static) isParent)

theorem confined_handleDelete (isDelete : request.method = .delete) :
    Keeps (Touches (Confined config loc)) (handleDelete request loc.root config) := by
  have descends := stays.descends
  rw [clientPart, if_neg (by simp [isDelete])] at descends
  exact touches_handleDelete allowsPages_confined _ _
    (Or.inr ((joined_append rooted (Or.inr slashed)).inside descends))

end

include slashed

theorem confined_handleWithRoute (platform : Platform)
    (matched : matchLocation request.path config = some loc)
    (served : isMethodAllowed request.method loc = true → StaysInside request loc) :
    Keeps (Touches (Confined config loc)) (handleWithRoute platform request config) := by
  unfold handleWithRoute
  simp only [matched]
  have refuses : ∀ status, Keeps (Touches (Confined config loc)) (errorResponse status config) :=
    touches_errorResponse allowsPages_confined
  split_ifs with allowed
  · have stays := served allowed
    cases method : request.method with
    | get =>
      cases found : findCgi request.path loc with
      | some cgi => exact confined_runScript rooted stays platform found (Or.inl method)
      | none => exact confined_serveFile rooted slashed stays found
    | post =>
      cases found : findCgi request.path loc with
      | some cgi => exact confined_runScript rooted stays platform found (Or.inr method)
      | none => exact confined_handlePost rooted slashed stays method found
    | delete => exact confined_handleDelete rooted slashed stays method
    | unknown name => exact refuses .methodNotAllowed
  · exact refuses .methodNotAllowed

end

end LocalServer.Confinement
