import LocalServer.Effects
import LocalServer.Library.Transition

/-! Uploading a file, retrieving it and deleting it, with other requests in between. -/

namespace LocalServer.UploadCycle
open Library Action Utf8 Text FileSystem Handler Effects

/-- A request as `build_response` gets it, under some configuration and at some time. -/
structure Visit where
  clock : Clock
  request : Request
  config : ServerConfig

def Visit.taken (visit : Visit) : Route := route visit.request visit.config

def step (platform : Platform) (before : World) (visit : Visit) (after : World) : Prop :=
  after = (buildResponse platform visit.clock visit.request visit.config before).2

/-- Runs no script, and is no upload or deletion whose target leads to where `path` leads.
Where an upload leads is seen once the directories above it have been created. -/
structure Spares (path : Path) (world : World) (visit : Visit) : Prop where
  noScript : ∀ cgi loc, visit.taken ≠ .script cgi loc
  upload : ∀ loc, visit.taken = .upload loc →
    ¬(aboveCreated world.files (targetPath loc visit.request)).SamePlace path
      (targetPath loc visit.request)
  deletion : ∀ loc, visit.taken = .deletion loc →
    ¬world.files.SamePlace path (targetPath loc visit.request)

structure Passive (visit : Visit) : Prop where
  noScript : ∀ cgi loc, visit.taken ≠ .script cgi loc
  noPost : visit.request.method ≠ .post

section
variable {platform : Platform} {path : Path} {before after : World} {visit : Visit}
  (steps : step platform before visit after)
include steps

theorem changes_step (noScript : ∀ cgi loc, visit.taken ≠ .script cgi loc) :
    Changes visit.request visit.taken before.files after.files := by
  rw [step] at steps
  subst steps
  exact changes_buildResponse platform visit.clock noScript before

theorem holds_step {contents : Bytes} (spares : Spares path before visit)
    (holds : before.files.Holds path contents) : after.files.Holds path contents := by
  cases changes_step steps spares.noScript with
  | nothing same => exact same ▸ holds
  | directories isUpload grows => exact holds.grows grows
  | @stored loc isUpload place opened changed =>
    have grown := holds.grows (grows_aboveCreated before.files (targetPath loc visit.request))
    exact grown.changedAt (openWrite_ok opened).1 (spares.upload loc isUpload) place.fits.free changed
  | removed isDeletion resolved found changed =>
    exact holds.changedAt resolved (spares.deletion _ isDeletion) (by simp [found]) changed

theorem lacks_step (passive : Passive visit) (lacks : before.files.Lacks path) :
    after.files.Lacks path := by
  have noUpload : ∀ loc, visit.taken ≠ .upload loc :=
    fun loc isUpload => passive.noPost (route_upload isUpload).1
  cases changes_step steps passive.noScript with
  | nothing same => exact same ▸ lacks
  | directories isUpload grows => exact absurd isUpload (noUpload _)
  | stored isUpload place opened changed => exact absurd isUpload (noUpload _)
  | removed isDeletion resolved found changed => exact lacks.removed (by simp [found]) changed

end

section
variable {platform : Platform} {path : Path} {first world : World}

/-- A file outlives every run of requests that spare it. -/
theorem holds_run {contents : Bytes} (stored : first.files.Holds path contents)
    (reached : Reaches (step platform) (Spares path) (· = first) world) :
    world.files.Holds path contents := by
  have begins : ∀ state, state = first → state.files.Holds path contents := by
    intro state begins
    subst begins
    exact stored
  apply reached.invariant begins
  intro before visit after holds spares steps
  exact holds_step steps spares holds

/-- Where a file was removed nothing comes back as long as nothing is posted. -/
theorem lacks_run (removed : first.files.Lacks path)
    (reached : Reaches (step platform) (fun _ visit => Passive visit) (· = first) world) :
    world.files.Lacks path := by
  have begins : ∀ state, state = first → state.files.Lacks path := by
    intro state begins
    subst begins
    exact removed
  apply reached.invariant begins
  intro before visit after lacks passive steps
  exact lacks_step steps passive lacks

end

/-! Upload, retrieve, delete -/

def sessionRoutes : List Str := ["/login".toList, "/logout".toList, "/whoami".toList]

structure Uploadable (path : Str) (config : ServerConfig) (loc : Location) : Prop where
  matched : matchLocation path config = some loc
  direct : loc.redirect = none
  noScript : findCgi path loc = none
  noSession : path ∉ sessionRoutes
  allowed : ∀ method ∈ [Request.Method.get, .post, .delete], isMethodAllowed method loc = true

section
variable {path : Str} {config : ServerConfig} {loc : Location} {request : Request}
  (uploadable : Uploadable path config loc) (here : request.path = path)
include uploadable here

theorem Uploadable.route_eq : route request config = locationRoute request config := by
  have noSession := uploadable.noSession
  simp only [sessionRoutes, List.mem_cons, List.not_mem_nil, or_false, not_or] at noSession
  unfold route
  rw [here, uploadable.matched, Option.bind_some, uploadable.direct]
  dsimp only
  rw [if_neg fun both => noSession.1 both.1, if_neg fun both => noSession.2.1 both.1,
    if_neg noSession.2.2]

theorem Uploadable.route_get (method : request.method = .get) :
    route request config = .static loc := by
  rw [uploadable.route_eq here, locationRoute, here, uploadable.matched]
  dsimp only
  rw [uploadable.noScript, method, if_pos (uploadable.allowed _ (by simp))]

theorem Uploadable.route_post (method : request.method = .post) :
    route request config = .upload loc := by
  rw [uploadable.route_eq here, locationRoute, here, uploadable.matched]
  dsimp only
  rw [uploadable.noScript, method, if_pos (uploadable.allowed _ (by simp))]

theorem Uploadable.route_delete (method : request.method = .delete) :
    route request config = .deletion loc := by
  rw [uploadable.route_eq here, locationRoute, here, uploadable.matched]
  dsimp only
  rw [uploadable.noScript, method, if_pos (uploadable.allowed _ (by simp))]

end

def fileOf (loc : Location) (path : Str) : Path := filePath (loc.root ++ path)

/-- Once the directories above it are there, the path leads to no file, or to one that this
process may read. -/
def NotHidden (files : FileSystem) (path : Path) : Prop :=
  ∀ mode old, (aboveCreated files path).metadata path = .ok (.file mode old) → mode.read = true

section
variable {platform : Platform} {clock : Clock} {config : ServerConfig} {loc : Location}
  {path : Str} {world : World} {request : Request}
  (uploadable : Uploadable path config loc) (here : request.path = path)
include uploadable here

theorem holds_of_upload (method : request.method = .post)
    (shown : NotHidden world.files (fileOf loc path))
    (succeeds : (buildResponse platform clock request config world).1.Succeeds) :
    (buildResponse platform clock request config world).2.files.Holds (fileOf loc path)
      request.body := by
  rw [buildResponse_eq_follow, uploadable.route_post here method] at succeeds ⊢
  have isTarget : filePath (loc.root ++ request.path) = fileOf loc path := by rw [here, fileOf]
  rcases handlePost_cases request loc.root config world isTarget with
    ⟨fails, -⟩ | ⟨place, opened, changed⟩
  · exact absurd succeeds fails
  · exact holds_of_write opened changed shown

theorem lacks_of_deletion (method : request.method = .delete)
    (succeeds : (buildResponse platform clock request config world).1.Succeeds) :
    (buildResponse platform clock request config world).2.files.Lacks (fileOf loc path) := by
  rw [buildResponse_eq_follow, uploadable.route_delete here method] at succeeds ⊢
  have isTarget : filePath (loc.root ++ request.path) = fileOf loc path := by rw [here, fileOf]
  rcases handleDelete_cases request loc.root config world isTarget with
    ⟨fails, -⟩ | ⟨place, mode, contents, resolved, plain, found, changed⟩
  · exact absurd succeeds fails
  · exact lacks_of_remove resolved plain (by simp [found]) changed

theorem serves_of_holds (method : request.method = .get) {contents : Bytes}
    (holds : world.files.Holds (fileOf loc path) contents) :
    (buildResponse platform clock request config world).1.Succeeds ∧
      (buildResponse platform clock request config world).1.body = contents := by
  rw [buildResponse_eq_follow, uploadable.route_get here method]
  simp only [follow, here]
  exact serveFile_holds config holds

theorem notFound_of_lacks (method : request.method = .get)
    (lacks : world.files.Lacks (fileOf loc path)) :
    (buildResponse platform clock request config world).1.status = .notFound ∧
      (buildResponse platform clock request config world).1.redirectLocation = none := by
  rw [buildResponse_eq_follow, uploadable.route_get here method]
  simp only [follow, here]
  exact serveFile_lacks config lacks

end

/-- What an upload stored is served until something is uploaded or deleted there, and what
was deleted is gone until something is uploaded. -/
theorem upload_retrieve_delete (platform : Platform) {config : ServerConfig} {loc : Location}
    {path : Str} (uploadable : Uploadable path config loc) :
    (∀ before clock post, post.path = path → post.method = .post →
      NotHidden before.files (fileOf loc path) →
      (buildResponse platform clock post config before).1.Succeeds →
      ∀ world, Reaches (step platform) (Spares (fileOf loc path))
        (· = (buildResponse platform clock post config before).2) world →
      ∀ later get, get.path = path → get.method = .get →
        (buildResponse platform later get config world).1.Succeeds ∧
          (buildResponse platform later get config world).1.body = post.body) ∧
    ∀ before clock deletion, deletion.path = path → deletion.method = .delete →
      (buildResponse platform clock deletion config before).1.Succeeds →
      ∀ world, Reaches (step platform) (fun _ visit => Passive visit)
        (· = (buildResponse platform clock deletion config before).2) world →
      ∀ later get, get.path = path → get.method = .get →
        (buildResponse platform later get config world).1.status = .notFound ∧
          (buildResponse platform later get config world).1.redirectLocation = none := by
  constructor
  · intro before clock post here method shown succeeds world reached later get there getMethod
    have stored := holds_of_upload uploadable here method shown succeeds
    exact serves_of_holds uploadable there getMethod (holds_run stored reached)
  · intro before clock deletion here method succeeds world reached later get there getMethod
    have removed := lacks_of_deletion uploadable here method succeeds
    exact notFound_of_lacks uploadable there getMethod (lacks_run removed reached)

def notesPath : Str := "/notes.txt".toList

def epoch : Clock := ⟨0, 0, 0⟩

def upload (path body : String) : Request :=
  ⟨.post, path.toList, "HTTP/1.1".toList, HashMap.empty, utf8 body⟩

def deletion (path : String) : Request :=
  ⟨.delete, path.toList, "HTTP/1.1".toList, HashMap.empty, []⟩

def webVisit (request : Request) : Visit := ⟨epoch, request, webConfig⟩

def webAnswer (request : Request) (world : World) : Response × World :=
  buildResponse quietPlatform epoch request webConfig world

def notesUploaded : World := (webAnswer (upload "/notes.txt" "hi") emptyWorld).2

def otherUploaded : World := (webAnswer (upload "/other.txt" "ho") notesUploaded).2

def notesDeleted : World := (webAnswer (deletion "/notes.txt") otherUploaded).2

theorem uploadable_notes : Uploadable notesPath webConfig webLocation :=
  ⟨by decide +kernel, rfl, by decide +kernel, by decide +kernel, by decide +kernel⟩

theorem spares_other : Spares (fileOf webLocation notesPath) notesUploaded
    (webVisit (upload "/other.txt" "ho")) := by
  have taken : (webVisit (upload "/other.txt" "ho")).taken = .upload webLocation := by
    decide +kernel
  refine ⟨by simp [taken], ?_, by simp [taken]⟩
  intro loc isUpload
  rw [taken] at isUpload
  cases isUpload
  decide +kernel

theorem passive_other : Passive (webVisit (getRequest "/other.txt")) := by
  have taken : (webVisit (getRequest "/other.txt")).taken = .static webLocation := by
    decide +kernel
  exact ⟨by simp [taken], by decide⟩

theorem upload_retrieve_delete_notes :
    ((webAnswer (getRequest "/notes.txt") otherUploaded).1.Succeeds ∧
      (webAnswer (getRequest "/notes.txt") otherUploaded).1.body = utf8 "hi") ∧
    (webAnswer (getRequest "/notes.txt")
        (webAnswer (getRequest "/other.txt") notesDeleted).2).1.status = .notFound ∧
      (webAnswer (getRequest "/notes.txt")
        (webAnswer (getRequest "/other.txt") notesDeleted).2).1.redirectLocation = none := by
  obtain ⟨retrieved, deleted⟩ := upload_retrieve_delete quietPlatform uploadable_notes
  constructor
  · refine retrieved emptyWorld epoch (upload "/notes.txt" "hi") rfl rfl ?_
      ⟨by decide +kernel, by decide +kernel⟩ otherUploaded ?_ epoch (getRequest "/notes.txt") rfl rfl
    · have missing : ((aboveCreated emptyWorld.files (fileOf webLocation notesPath)).metadata
          (fileOf webLocation notesPath)).toOption = none := by decide +kernel
      intro mode old found
      rw [found] at missing
      cases missing
    · exact .step (.start rfl) spares_other rfl
  · refine deleted otherUploaded epoch (deletion "/notes.txt") rfl rfl
      ⟨by decide +kernel, by decide +kernel⟩ _ ?_ epoch (getRequest "/notes.txt") rfl rfl
    have visited : step quietPlatform notesDeleted (webVisit (getRequest "/other.txt"))
        (webAnswer (getRequest "/other.txt") notesDeleted).2 := rfl
    exact .step (.start rfl) passive_other visited

def hiddenPlace : List Name := [utf8 "www", utf8 "notes.txt"]

/-- A file that may be written but not read. -/
def hiddenFiles : FileSystem :=
  (bare.mkdir (filePath "./www".toList)).2.put hiddenPlace (.file ⟨false, true, false⟩ [])
    ⟨⟨[utf8 "www"], utf8 "notes.txt", newDirectory, rfl, by decide +kernel, by decide +kernel⟩,
      fun mode isDirectory => by
        have free : (bare.mkdir (filePath "./www".toList)).2.node hiddenPlace = none := by
          decide +kernel
        rw [free] at isDirectory
        cases isDirectory⟩

def hiddenWorld : World := { emptyWorld with files := hiddenFiles }

/-- The upload into such a file succeeds, and the file is not served. -/
theorem upload_not_served : Uploadable notesPath webConfig webLocation ∧
    ¬∀ before clock post, post.path = notesPath → post.method = .post → post.body ≠ [] →
      (buildResponse quietPlatform clock post webConfig before).1.Succeeds →
      ∀ world, Reaches (step quietPlatform) (Spares (fileOf webLocation notesPath))
        (· = (buildResponse quietPlatform clock post webConfig before).2) world →
      ∀ later get, get.path = notesPath → get.method = .get →
        (buildResponse quietPlatform later get webConfig world).1.Succeeds ∧
          (buildResponse quietPlatform later get webConfig world).1.body = post.body := by
  refine ⟨uploadable_notes, ?_⟩
  intro served
  have answers := served hiddenWorld epoch (upload "/notes.txt" "hi") rfl rfl (by decide)
    ⟨by decide +kernel, by decide +kernel⟩ _ (.start rfl) epoch (getRequest "/notes.txt") rfl rfl
  have status := answers.1.status
  have notFound : (webAnswer (getRequest "/notes.txt")
      (webAnswer (upload "/notes.txt" "hi") hiddenWorld).2).1.status = .notFound := by
    decide +kernel
  exact absurd (notFound.symm.trans status) (by decide)

/-- A refused upload leaves the directories it has created by then, and nothing else. -/
theorem handlePost_files {request : Request} {root : Str} {config : ServerConfig} {world : World}
    (failed : (handlePost request root config world).1.status ≠ .ok) :
    (handlePost request root config world).2.files =
      if request.body = [] then world.files
      else aboveCreated world.files (filePath (root ++ request.path)) := by
  unfold handlePost at failed ⊢
  by_cases empty : request.body = []
  · rw [if_pos empty, if_pos empty]
    exact sameFiles_errorResponse _ _ world
  · rw [if_neg empty, if_neg empty, ← createParent_files]
    rw [if_neg empty, bind_apply] at failed
    rw [bind_apply]
    generalize createParent (filePath (root ++ request.path)) world = created at failed ⊢
    obtain ⟨refused | ⟨⟨⟩⟩, made⟩ := created
    · exact sameFiles_errorResponse _ _ made
    · dsimp only at failed ⊢
      rw [bind_apply] at failed ⊢
      rcases write_cases made.files (filePath (root ++ request.path)) request.body with
        ⟨e, -, notWritten⟩ | ⟨place, after, -, stored, -⟩
      · simp only [World.write, notWritten]
        exact sameFiles_errorResponse _ _ _
      · simp only [World.write, stored] at failed
        exact absurd rfl failed

/-- An upload that is not answered with 200 leaves every file as it was and removes nothing;
new are at most directories above its target that were missing. -/
theorem handlePost_failed (request : Request) (root : Str) (config : ServerConfig) (world : World)
    (failed : (handlePost request root config world).1.status ≠ .ok) :
    (request.body = [] → (handlePost request root config world).2.files = world.files) ∧
    (∀ place mode contents,
      (handlePost request root config world).2.files.node place = some (.file mode contents) ↔
        world.files.node place = some (.file mode contents)) ∧
    CreatesAbove (filePath (root ++ request.path)).absolute
      (filePath (root ++ request.path)).normalComponents.dropLast world.files
      (handlePost request root config world).2.files := by
  have files := handlePost_files failed
  have creates : CreatesAbove (filePath (root ++ request.path)).absolute
      (filePath (root ++ request.path)).normalComponents.dropLast world.files
      (handlePost request root config world).2.files := by
    rw [files]
    split_ifs
    · exact CreatesAbove.refl _
    · exact createsAbove_aboveCreated _ _
  refine ⟨fun empty => by rw [files, if_pos empty], fun place mode contents => ?_, creates⟩
  by_cases changed : (handlePost request root config world).2.files.node place =
      world.files.node place
  · rw [changed]
  · obtain ⟨absent, isNew⟩ := creates.directory changed
    rw [absent, isNew]
    simp

theorem handlePost_failed_trailing :
    (handlePost (upload "/new/" "hi") webLocation.root webConfig emptyWorld).1.status ≠ .ok ∧
      ∀ place mode contents,
        (handlePost (upload "/new/" "hi") webLocation.root webConfig emptyWorld).2.files.node place =
          some (.file mode contents) ↔ emptyWorld.files.node place = some (.file mode contents) := by
  have failed : (handlePost (upload "/new/" "hi") webLocation.root webConfig emptyWorld).1.status ≠
    .ok := by decide +kernel
  exact ⟨failed, (handlePost_failed (upload "/new/" "hi") webLocation.root webConfig emptyWorld
    failed).2.1⟩

/-- An upload to a path with a trailing slash fails, and the directories above it are there. -/
theorem failed_upload_creates :
    ¬∀ (request : Request) (root : Str) (config : ServerConfig) (world : World),
      (handlePost request root config world).1.status ≠ .ok →
      (handlePost request root config world).2.files = world.files := by
  intro unchanged
  have files := unchanged (upload "/new/" "hi") webLocation.root webConfig emptyWorld
    (by decide +kernel)
  have created : (handlePost (upload "/new/" "hi") webLocation.root webConfig emptyWorld).2.files.node
      [utf8 "www"] = some (.directory newDirectory) := by decide +kernel
  have absent : emptyWorld.files.node [utf8 "www"] = none := by decide +kernel
  rw [files, absent] at created
  cases created

end LocalServer.UploadCycle
