import LocalServer.Confinement
import LocalServer.Library.FileStore
import LocalServer.Library.Refinement
import LocalServer.UploadCycle

/-! Uploads, retrievals and deletions as a store: whatever the order in which they come, and
whatever comes in between, they are answered as by a map from paths to contents. -/

namespace LocalServer.StoreServing
open Library Action Utf8 Text FileSystem Handler Effects UploadCycle Confinement

inductive Wish (κ : Type) where
  | get (key : κ)
  | put (key : κ) (contents : Bytes)
  | delete (key : κ)
  | unrelated

inductive Outcome where
  | found (contents : Bytes)
  | done
  | missing
  | refused
  | anything
  deriving DecidableEq

/-- A map is read, and changed at one key at a time. It never holds what is empty. -/
def perform {κ : Type} [DecidableEq κ] : Wish κ → Action (κ → Option Bytes) Outcome
  | .get key => fun store => ((store key).elim .missing .found, store)
  | .put key contents => fun store =>
    if contents = [] then (.refused, store)
    else (.done, Function.update store key (some contents))
  | .delete key => fun store =>
    match store key with
    | none => (.missing, store)
    | some _ => (.done, Function.update store key none)
  | .unrelated => fun store => (.anything, store)

/-- Paths of one configuration that can be uploaded to, with the places of their files. -/
structure Shelf (κ : Type) (config : ServerConfig) where
  path : κ → Str
  loc : κ → Location
  place : κ → List Name
  uploadable : ∀ key, Uploadable (path key) config (loc key)

def serve (platform : Platform) (visit : Visit) : Action World Response :=
  buildResponse platform visit.clock visit.request visit.config

/-- A request that starts no script and neither uploads nor deletes. -/
structure Harmless (visit : Visit) : Prop where
  noScript : ∀ cgi loc, visit.taken ≠ .script cgi loc
  noUpload : ∀ loc, visit.taken ≠ .upload loc
  noDeletion : ∀ loc, visit.taken ≠ .deletion loc

section
variable {κ : Type} {config : ServerConfig} (shelf : Shelf κ config)

def Shelf.file (key : κ) : Path := fileOf (shelf.loc key) (shelf.path key)

def Shelf.Holds (world : World) (store : κ → Option Bytes) : Prop :=
  world.files.Stores shelf.file shelf.place store

structure Shelf.For (visit : Visit) (key : κ) (method : Request.Method) : Prop where
  config : visit.config = config
  path : visit.request.path = shelf.path key
  method : visit.request.method = method

def Shelf.Means (visit : Visit) : Wish κ → Prop
  | .get key => shelf.For visit key .get
  | .put key contents => shelf.For visit key .post ∧ visit.request.body = contents
  | .delete key => shelf.For visit key .delete
  | .unrelated => Harmless visit

end

def Shows (response : Response) : Outcome → Prop
  | .found contents => response.Succeeds ∧ response.body = contents
  | .done => response.Succeeds
  | .missing => response.status = .notFound ∧ response.redirectLocation = none
  | .refused => response.status = .badRequest ∧ response.redirectLocation = none
  | .anything => True

section
variable {request : Request} {root : Str} (config : ServerConfig) {world : World}

theorem handlePost_empty (empty : request.body = []) :
    handlePost request root config world = errorResponse .badRequest config world := by
  unfold handlePost
  rw [if_pos empty]

theorem handlePost_written {after : FileSystem} (nonempty : request.body ≠ [])
    (above : ∀ parent, (filePath (root ++ request.path)).parent = some parent →
      world.files.isDirectory parent = true)
    (written : world.files.write (filePath (root ++ request.path)) request.body = (.ok (), after)) :
    (handlePost request root config world).1.Succeeds ∧
      (handlePost request root config world).2.files = after := by
  have created : (createParent (filePath (root ++ request.path)) world).1 = .ok () ∧
      (createParent (filePath (root ++ request.path)) world).2.files = world.files := by
    unfold createParent
    cases isParent : (filePath (root ++ request.path)).parent with
    | none => exact ⟨rfl, rfl⟩
    | some parent =>
      have nothing := createDirAll_parent isParent (above parent isParent)
      exact ⟨congrArg Prod.fst nothing, congrArg Prod.snd nothing⟩
  obtain ⟨isCreated, sameFiles⟩ := created
  unfold handlePost
  rw [if_neg nonempty, bind_apply, isCreated]
  dsimp only
  rw [bind_apply]
  simp only [World.write, sameFiles, written]
  exact ⟨⟨rfl, rfl⟩, rfl⟩

theorem handleDelete_removed {after : FileSystem}
    (removed : world.files.removeFile (filePath (root ++ request.path)) = (.ok (), after)) :
    (handleDelete request root config world).1.Succeeds ∧
      (handleDelete request root config world).2.files = after := by
  unfold handleDelete
  rw [bind_apply]
  simp only [World.removeFile, removed]
  exact ⟨⟨rfl, rfl⟩, rfl⟩

theorem handleDelete_missing
    (missing : world.files.removeFile (filePath (root ++ request.path)) =
      (.error .notFound, world.files)) :
    ((handleDelete request root config world).1.status = .notFound ∧
      (handleDelete request root config world).1.redirectLocation = none) ∧
      (handleDelete request root config world).2.files = world.files := by
  unfold handleDelete
  rw [bind_apply]
  simp only [World.removeFile, missing]
  exact ⟨errorResponse_status _ _ _, sameFiles_errorResponse _ _ _⟩

end

/-! One request -/

section
variable {κ : Type} {config : ServerConfig} {shelf : Shelf κ config} {platform : Platform}
  {visit : Visit} {world : World} {store : κ → Option Bytes} (holds : shelf.Holds world store)
include holds

theorem Shelf.Holds.files {after : World} (same : after.files = world.files) :
    shelf.Holds after store := by
  unfold Shelf.Holds at holds ⊢
  rwa [same]

theorem serve_unrelated (harmless : Harmless visit) :
    shelf.Holds (serve platform visit world).2 store := by
  apply holds.files
  unfold serve
  rw [buildResponse_eq_follow]
  exact sameFiles_follow platform visit.clock visit.request visit.config harmless.noScript
    harmless.noUpload harmless.noDeletion world

end

section
variable {κ : Type} [DecidableEq κ] {config : ServerConfig} {shelf : Shelf κ config}
  {platform : Platform} {visit : Visit} {key : κ} {world : World} {store : κ → Option Bytes}
  (holds : shelf.Holds world store)
include holds

theorem serve_get (asked : shelf.For visit key .get) :
    Shows (serve platform visit world).1 (perform (.get key) store).1 ∧
      shelf.Holds (serve platform visit world).2 (perform (.get key) store).2 := by
  have taken := (shelf.uploadable key).route_get asked.path asked.method
  have contained := holds.contained key
  unfold serve
  rw [buildResponse_eq_follow, asked.config, taken]
  constructor
  · simp only [follow, asked.path, perform]
    cases known : store key with
    | none =>
      rw [known] at contained
      exact serveFile_lacks config ((holds.settled key).lacks contained)
    | some contents =>
      rw [known] at contained
      exact serveFile_holds config ((holds.settled key).holds contained)
  · exact holds.files (sameFiles_serveFile _ _ _ _)

theorem serve_put {contents : Bytes} (asked : shelf.For visit key .post)
    (body : visit.request.body = contents) :
    Shows (serve platform visit world).1 (perform (.put key contents) store).1 ∧
      shelf.Holds (serve platform visit world).2 (perform (.put key contents) store).2 := by
  subst body
  have taken := (shelf.uploadable key).route_post asked.path asked.method
  have target : filePath ((shelf.loc key).root ++ visit.request.path) = shelf.file key := by
    rw [asked.path]
    rfl
  unfold serve
  rw [buildResponse_eq_follow, asked.config, taken]
  simp only [follow, perform]
  by_cases empty : visit.request.body = []
  · rw [if_pos empty, handlePost_empty config empty]
    exact ⟨errorResponse_status _ _ _, holds.files (sameFiles_errorResponse _ _ _)⟩
  · rw [if_neg empty]
    obtain ⟨after, written, stores⟩ := holds.write key visit.request.body
    rw [← target] at written
    have above := (holds.settled key).above
    rw [← target] at above
    obtain ⟨succeeds, files⟩ := handlePost_written config empty above written
    refine ⟨succeeds, ?_⟩
    unfold Shelf.Holds
    rwa [files]

theorem serve_delete (asked : shelf.For visit key .delete) :
    Shows (serve platform visit world).1 (perform (.delete key) store).1 ∧
      shelf.Holds (serve platform visit world).2 (perform (.delete key) store).2 := by
  have taken := (shelf.uploadable key).route_delete asked.path asked.method
  have target : filePath ((shelf.loc key).root ++ visit.request.path) = shelf.file key := by
    rw [asked.path]
    rfl
  unfold serve
  rw [buildResponse_eq_follow, asked.config, taken]
  simp only [follow, perform]
  cases known : store key with
  | none =>
    have contained := holds.contained key
    rw [known] at contained
    have missing := (holds.settled key).removeFile_missing contained
    rw [← target] at missing
    obtain ⟨notFound, same⟩ := handleDelete_missing config missing
    exact ⟨notFound, holds.files same⟩
  | some contents =>
    obtain ⟨after, removed, stores⟩ := holds.removeFile known
    rw [← target] at removed
    obtain ⟨succeeds, files⟩ := handleDelete_removed config removed
    refine ⟨succeeds, ?_⟩
    unfold Shelf.Holds
    rwa [files]

end

theorem refines_store (platform : Platform) {κ : Type} [DecidableEq κ] {config : ServerConfig}
    (shelf : Shelf κ config) :
    Refines shelf.Holds shelf.Means Shows (serve platform) perform := by
  intro world store visit wish holds means
  cases wish with
  | get key => exact serve_get holds means
  | put key contents => exact serve_put holds means.1 means.2
  | delete key => exact serve_delete holds means
  | unrelated => exact ⟨trivial, serve_unrelated holds means⟩

/-- Over every sequence of requests to a shelf of paths, with harmless ones in between, the
server answers as a map does: a GET finds what was last posted under its path and not deleted
since, and the files hold what the map holds at the end. -/
theorem served_as_store (platform : Platform) {κ : Type} [DecidableEq κ] {config : ServerConfig}
    (shelf : Shelf κ config) (visits : List Visit) (wishes : List (Wish κ))
    (meant : List.Forall₂ shelf.Means visits wishes) (world : World) (store : κ → Option Bytes)
    (holds : shelf.Holds world store) :
    List.Forall₂ Shows (serveAll (serve platform) visits world).1
        (serveAll perform wishes store).1 ∧
      shelf.Holds (serveAll (serve platform) visits world).2
        (serveAll perform wishes store).2 :=
  (refines_store platform shelf).serveAll meant holds

section
variable {root name : Str} {files : FileSystem}

theorem below_name (valid : Path.ValidName (encode name)) : below ('/' :: name) = [encode name] := by
  have pieces : (encode name).splitOnP (· == Path.slash) = [encode name] := by
    apply List.splitOnP_eq_singleton
    intro byte member
    have different : byte ≠ Path.slash := fun same => valid.noSlash (same ▸ member)
    simpa using different
  have alone : Path.split (encode name) = [encode name] := by
    rw [Path.split, pieces]
    simp [valid.nonempty]
  have slashed := Path.split_slash [] (encode name)
  rw [alone] at slashed
  exact slashed

theorem trailing_name (valid : Path.ValidName (encode name)) :
    (filePath (root ++ '/' :: name)).trailing = false := by
  have last : (encode (root ++ '/' :: name)).getLast? = (encode name).getLast? := by
    have shape : encode (root ++ '/' :: name) = encode (root ++ ['/']) ++ encode name := by
      rw [← encode_append, List.append_assoc]
      rfl
    rw [shape, List.getLast?_append_of_ne_nil _ valid.nonempty]
  have plain : (encode name).getLast? ≠ some Path.slash := by
    intro isSlash
    exact valid.noSlash (List.mem_of_getLast? isSlash)
  unfold filePath Path.ofBytes
  rw [last]
  simp [plain]

theorem settled_name {base : List Name} {mode : Mode} (rooted : root ≠ [])
    (resolved : files.resolve (filePath root) = .ok base)
    (found : files.node base = some (.directory mode)) (permitted : (mode.write && mode.search) = true)
    (valid : Path.ValidName (encode name)) :
    files.Settled (filePath (root ++ '/' :: name)) (base ++ [encode name]) := by
  have joined : Joined root (below ('/' :: name)) (filePath (root ++ '/' :: name)) :=
    joined_append rooted (Or.inr rfl)
  rw [below_name valid] at joined
  exact settled_entry resolved found permitted (root_anchored rooted) valid joined.sameStart
    joined.components (trailing_name valid)

end

def directoryShelf {config : ServerConfig} {loc : Location} (names : Str → Prop) (base : List Name)
    (uploadable : ∀ name, names name → Uploadable ('/' :: name) config loc) :
    Shelf {name // names name} config where
  path := fun name => '/' :: name.val
  loc := fun _ => loc
  place := fun name => base ++ [encode name.val]
  uploadable := fun name => uploadable name.val name.property

theorem holds_directory {config : ServerConfig} {loc : Location} {names : Str → Prop}
    {base : List Name} {mode : Mode}
    (uploadable : ∀ name, names name → Uploadable ('/' :: name) config loc)
    (valid : ∀ name, names name → Path.ValidName (encode name)) (rooted : loc.root ≠ [])
    {world : World} (resolved : world.files.resolve (filePath loc.root) = .ok base)
    (found : world.files.node base = some (.directory mode))
    (permitted : (mode.write && mode.search) = true) {store : {name // names name} → Option Bytes}
    (contained : ∀ name, world.files.Contains (base ++ [encode name.val]) (store name)) :
    (directoryShelf names base uploadable).Holds world store where
  settled name := settled_name rooted resolved found permitted (valid name.val name.property)
  apart := by
    intro first second same
    have names := List.append_cancel_left same
    rw [List.singleton_inj] at names
    exact Subtype.ext (encode_injective names)
  contained := contained

/-! A shelf, and visits to it -/

structure WebName (name : Str) : Prop where
  valid : Path.ValidName (encode name)
  noSession : '/' :: name ∉ sessionRoutes

instance (name : Str) : Decidable (WebName name) :=
  decidable_of_iff (Path.ValidName (encode name) ∧ ∀ route ∈ sessionRoutes, '/' :: name ≠ route)
    ⟨fun both => ⟨both.1, fun member => both.2 _ member rfl⟩,
      fun name => ⟨name.valid, fun _ member same => name.noSession (same ▸ member)⟩⟩

theorem uploadable_webName (name : Str) (named : WebName name) :
    Uploadable ('/' :: name) webConfig webLocation where
  matched := rfl
  direct := rfl
  noScript := rfl
  noSession := named.noSession
  allowed := by
    intro method _
    rfl

def webShelf : Shelf {name // WebName name} webConfig :=
  directoryShelf WebName [utf8 "www"] uploadable_webName

def shelfWorld : World :=
  { emptyWorld with files := (bare.mkdir (filePath "./www".toList)).2 }

theorem holds_shelfWorld : webShelf.Holds shelfWorld fun _ => none := by
  have resolved : shelfWorld.files.resolve (filePath webLocation.root) = .ok [utf8 "www"] := by
    decide +kernel
  have found : shelfWorld.files.node [utf8 "www"] = some (.directory newDirectory) := by
    decide +kernel
  apply holds_directory uploadable_webName (fun name named => named.valid) (by decide) resolved found
    rfl
  intro name
  have made : bare.mkdir (filePath "./www".toList) = (.ok (), shelfWorld.files) :=
    Prod.ext (by decide +kernel) rfl
  rcases mkdir_cases bare (filePath "./www".toList) with
    ⟨e, failed⟩ | ⟨place, after, created, led, -, changed⟩
  · rw [made] at failed
    cases failed
  · rw [made] at created
    cases created
    have isRoot : place ≠ [utf8 "www"] ++ [encode name.val] := by
      have shallow : bare.resolve (filePath "./www".toList) = .ok [utf8 "www"] := by decide +kernel
      rw [shallow] at led
      cases led
      simp
    unfold Contains
    rw [changed.node, if_neg isRoot.symm]
    exact HashMap.get_insert_of_ne _ _ _ _ (by simp)

def notes : {name // WebName name} := ⟨"notes.txt".toList, by decide +kernel⟩

def shelfVisits : List Visit :=
  [webVisit (upload "/notes.txt" "hi"), webVisit (getRequest "/whoami"),
    webVisit (getRequest "/notes.txt"), webVisit (upload "/notes.txt" ""),
    webVisit (deletion "/notes.txt"), webVisit (getRequest "/notes.txt")]

theorem served_as_store_notes :
    List.Forall₂ Shows (serveAll (serve quietPlatform) shelfVisits shelfWorld).1
      [.done, .anything, .found (utf8 "hi"), .refused, .done, .missing] := by
  have meant : List.Forall₂ webShelf.Means shelfVisits
      [.put notes (utf8 "hi"), .unrelated, .get notes, .put notes [], .delete notes,
        .get notes] := by
    have harmless : Harmless (webVisit (getRequest "/whoami")) := by
      have taken : (webVisit (getRequest "/whoami")).taken = .whoami := by decide +kernel
      exact ⟨by simp [taken], by simp [taken], by simp [taken]⟩
    exact .cons ⟨⟨rfl, rfl, rfl⟩, rfl⟩ (.cons harmless (.cons ⟨rfl, rfl, rfl⟩
      (.cons ⟨⟨rfl, rfl, rfl⟩, rfl⟩ (.cons ⟨rfl, rfl, rfl⟩ (.cons ⟨rfl, rfl, rfl⟩ .nil)))))
  exact (served_as_store quietPlatform webShelf shelfVisits _ meant shelfWorld _ holds_shelfWorld).1

end LocalServer.StoreServing
