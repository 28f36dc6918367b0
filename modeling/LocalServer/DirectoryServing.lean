import LocalServer.Effects
import Mathlib.Data.List.Sort

/-! What a GET of a directory is answered with: its index file, its listing, or a refusal. -/

namespace LocalServer.DirectoryServing
open Library Action Utf8 Text FileSystem Handler Effects

structure DirectoryRequest (files : FileSystem) (config : ServerConfig) (request : Request)
    (loc : Location) : Prop where
  method : request.method = .get
  free : ¬SessionRoute request
  matched : matchLocation request.path config = some loc
  direct : loc.redirect = none
  allowed : isMethodAllowed .get loc = true
  noScript : findCgi request.path loc = none
  directory : ∃ mode, files.metadata (filePath (loc.root ++ request.path)) = .ok (.directory mode)

def Precedes (first second : Name × Node) : Prop :=
  byteOrder first.1 second.1 ∧ first.1 ≠ second.1

structure Listing (files : FileSystem) (place : List Name) (entries : List (Name × Node)) : Prop where
  ordered : entries.Pairwise Precedes
  lists : ∀ name node, (name, node) ∈ entries ↔ files.entryMetadata place name = some node

def listingBody (path : Str) (entries : List (Name × Node)) : Bytes :=
  encode (listingPage path (parentRow path ++
    entries.flatMap fun entry => entryRow path entry.1 entry.2))

def readable (files : FileSystem) (place : List Name) (names : List Name) : List (Name × Node) :=
  names.filterMap fun name => (files.entryMetadata place name).map fun node => (name, node)

instance : Std.Irrefl Precedes := ⟨fun _ precedes => precedes.2 rfl⟩

instance : Std.Antisymm Precedes :=
  ⟨fun _ _ below above => absurd (Std.Antisymm.antisymm _ _ below.1 above.1) below.2⟩

theorem Listing.unique {files : FileSystem} {place : List Name} {first second : List (Name × Node)}
    (listing : Listing files place first) (listing' : Listing files place second) : first = second := by
  apply List.Pairwise.eq_of_mem_iff listing.ordered listing'.ordered
  intro entry
  exact (listing.lists entry.1 entry.2).trans (listing'.lists entry.1 entry.2).symm

theorem mem_entryNames {files : FileSystem} {place : List Name} {name : Name} {node : Node}
    (found : files.node (place ++ [name]) = some node) : name ∈ files.entryNames place := by
  rw [entryNames, Finset.mem_sort, Finset.mem_image]
  have isKey : place ++ [name] ∈ files.nodes.keys :=
    Finmap.mem_keys.mpr (Finmap.mem_iff.mpr ⟨node, found⟩)
  refine ⟨place ++ [name], Finset.mem_filter.mpr ⟨isKey, by simp, by simp⟩, ?_⟩
  simp

theorem listing_readable (files : FileSystem) (place : List Name) :
    Listing files place (readable files place (files.entryNames place)) := by
  constructor
  · apply List.Pairwise.filterMap (R := fun first second => byteOrder first second ∧ first ≠ second)
    · intro first second precedes entry isFirst entry' isSecond
      obtain ⟨node, -, rfl⟩ := Option.map_eq_some_iff.mp isFirst
      obtain ⟨node', -, rfl⟩ := Option.map_eq_some_iff.mp isSecond
      exact precedes
    · exact (Finset.pairwise_sort _ _).and (Finset.sort_nodup _ _)
  · intro name node
    simp only [readable, List.mem_filterMap, Option.map_eq_some_iff]
    constructor
    · rintro ⟨other, -, node', found, same⟩
      cases same
      exact found
    · intro found
      refine ⟨name, ?_, node, found, rfl⟩
      unfold entryMetadata at found
      split at found
      · split_ifs at found
        exact mem_entryNames found
      · cases found

/-- The rows of a listing, from the file system alone. -/
theorem entryRows_fst (urlPath : Str) (path : Path) (place names : List Name) (world : World) :
    (entryRows urlPath path place names world).1 =
      (readable world.files place names).flatMap fun entry => entryRow urlPath entry.1 entry.2 := by
  induction names generalizing world with
  | nil => rfl
  | cons name names ih =>
    rw [entryRows, bind_apply]
    cases found : world.files.entryMetadata place name with
    | none =>
      simp only [World.entryMetadata, found]
      rw [ih]
      simp [readable, found, World.log]
    | some node =>
      simp only [World.entryMetadata, found, bind_apply, pure_apply]
      rw [ih]
      simp [readable, found, World.log]

/-! What is due -/

def indexName (loc : Location) : Str := loc.index.getD "index.html".toList

def fileIn (path : Str) (loc : Location) (name : Str) : Path :=
  filePath (trimEndMatches '/' (loc.root ++ path) ++ "/".toList ++ name)

def contents? (files : FileSystem) (path : Path) : Option Bytes := (files.read path).toOption

def listed (files : FileSystem) (path : Str) (loc : Location) : Option Bytes :=
  if loc.autoindex then
    match files.readDir (filePath (loc.root ++ path)) with
    | .ok (place, names) => some (listingBody path (readable files place names))
    | .error _ => none
  else none

structure Served (files : FileSystem) (path : Str) (loc : Location) (response : Response) : Prop where
  index : ∀ contents, contents? files (fileIn path loc (indexName loc)) = some contents →
    response.Succeeds ∧ response.body = contents
  listing : contents? files (fileIn path loc (indexName loc)) = none → loc.autoindex = true →
    ∀ place names, files.readDir (filePath (loc.root ++ path)) = .ok (place, names) →
      response.Succeeds ∧
        ∃ entries, Listing files place entries ∧ response.body = listingBody path entries
  forbidden : contents? files (fileIn path loc (indexName loc)) = none → loc.autoindex = false →
    response.status = .forbidden

/-- What the code answers: the index file is always `index.html`. -/
structure Answered (files : FileSystem) (path : Str) (loc : Location) (response : Response) : Prop where
  fixed : ∀ contents, contents? files (fileIn path loc "index.html".toList) = some contents →
    response.Succeeds ∧ response.body = contents
  listing : contents? files (fileIn path loc "index.html".toList) = none →
    ∀ page, listed files path loc = some page → response.Succeeds ∧ response.body = page
  refused : contents? files (fileIn path loc "index.html".toList) = none →
    listed files path loc = none →
    response.status = if loc.autoindex then .internalServerError else .forbidden

/-- The file that is set as index and `index.html` are read alike, or the one that can be read holds
the very page that is due for the other, or nothing is due. -/
def Alike (own fixed page : Option Bytes) (autoindex : Bool) : Prop :=
  own = fixed ∨ (fixed = none ∧ own = page) ∨
    (own = none ∧ (fixed = page ∨ (autoindex = true ∧ page = none)))

instance (own fixed page : Option Bytes) (autoindex : Bool) : Decidable (Alike own fixed page autoindex) :=
  inferInstanceAs (Decidable (own = fixed ∨ (fixed = none ∧ own = page) ∨
    (own = none ∧ (fixed = page ∨ (autoindex = true ∧ page = none)))))

theorem listed_eq {files : FileSystem} {path : Str} {loc : Location} (on : loc.autoindex = true)
    {place names : List Name}
    (read : files.readDir (filePath (loc.root ++ path)) = .ok (place, names)) :
    Listing files place (readable files place names) ∧
      listed files path loc = some (listingBody path (readable files place names)) := by
  refine ⟨?_, by rw [listed, if_pos on, read]⟩
  rw [(readDir_eq_ok read).2.2]
  exact listing_readable files place

theorem listed_some {files : FileSystem} {path : Str} {loc : Location} {page : Bytes}
    (isListed : listed files path loc = some page) : loc.autoindex = true ∧
      ∃ place names, files.readDir (filePath (loc.root ++ path)) = .ok (place, names) ∧
        page = listingBody path (readable files place names) := by
  unfold listed at isListed
  split_ifs at isListed with on
  cases read : files.readDir (filePath (loc.root ++ path)) with
  | error failed =>
    rw [read] at isListed
    cases isListed
  | ok result =>
    obtain ⟨place, names⟩ := result
    rw [read] at isListed
    exact ⟨on, place, names, rfl, (Option.some.inj isListed).symm⟩

theorem not_succeeds {response : Response} {autoindex : Bool}
    (refused : response.status = if autoindex then .internalServerError else .forbidden) :
    ¬response.Succeeds := by
  intro succeeds
  rw [succeeds.status] at refused
  cases autoindex <;> cases refused

section
variable {files : FileSystem} {path : Str} {loc : Location} {response : Response}

theorem alike_of_served (answered : Answered files path loc response)
    (served : Served files path loc response) :
    Alike (contents? files (fileIn path loc (indexName loc)))
      (contents? files (fileIn path loc "index.html".toList)) (listed files path loc)
      loc.autoindex := by
  cases own : contents? files (fileIn path loc (indexName loc)) with
  | some contents =>
    obtain ⟨succeeds, body⟩ := served.index contents own
    cases fixed : contents? files (fileIn path loc "index.html".toList) with
    | some other =>
      left
      rw [← body, (answered.fixed other fixed).2]
    | none =>
      right
      left
      refine ⟨rfl, ?_⟩
      cases page : listed files path loc with
      | some page' => rw [← body, (answered.listing fixed page' page).2]
      | none => exact absurd succeeds (not_succeeds (answered.refused fixed page))
  | none =>
    cases fixed : contents? files (fileIn path loc "index.html".toList) with
    | none => exact Or.inl rfl
    | some other =>
      obtain ⟨succeeds, body⟩ := answered.fixed other fixed
      right
      right
      refine ⟨rfl, ?_⟩
      cases page : listed files path loc with
      | some page' =>
        left
        obtain ⟨on, place, names, read, rfl⟩ := listed_some page
        obtain ⟨-, entries, listing, body'⟩ := served.listing own on place names read
        rw [← body, body', listing.unique (listed_eq on read).1]
      | none =>
        right
        cases on : loc.autoindex with
        | true => exact ⟨rfl, rfl⟩
        | false =>
          have status := served.forbidden own on
          rw [succeeds.status] at status
          cases status

theorem served_of_alike (answered : Answered files path loc response)
    (alike : Alike (contents? files (fileIn path loc (indexName loc)))
      (contents? files (fileIn path loc "index.html".toList)) (listed files path loc)
      loc.autoindex) : Served files path loc response := by
  refine ⟨?_, ?_, ?_⟩
  · intro contents own
    rw [own] at alike
    rcases alike with same | ⟨missing, same⟩ | ⟨none, -⟩
    · exact answered.fixed contents same.symm
    · exact answered.listing missing contents same.symm
    · cases none
  · intro own on place names read
    obtain ⟨listing, page⟩ := listed_eq on read
    rw [own, page] at alike
    have isPage : response.Succeeds ∧
        response.body = listingBody path (readable files place names) := by
      rcases alike with same | ⟨-, same⟩ | ⟨-, same | ⟨-, none⟩⟩
      · exact answered.listing same.symm _ page
      · cases same
      · exact answered.fixed _ same
      · cases none
    exact ⟨isPage.1, _, listing, isPage.2⟩
  · intro own off
    have page : listed files path loc = none := by rw [listed, if_neg (by rw [off]; decide)]
    rw [own, page, off] at alike
    have missing : contents? files (fileIn path loc "index.html".toList) = none := by
      rcases alike with same | ⟨missing, -⟩ | ⟨-, same | ⟨on, -⟩⟩
      · exact same.symm
      · exact missing
      · exact same
      · cases on
    rw [answered.refused missing page, off]
    rfl

theorem served_iff (answered : Answered files path loc response) :
    Served files path loc response ↔
      Alike (contents? files (fileIn path loc (indexName loc)))
        (contents? files (fileIn path loc "index.html".toList)) (listed files path loc)
        loc.autoindex :=
  ⟨alike_of_served answered, served_of_alike answered⟩

end

/-! The code -/

theorem contents?_eq_some {files : FileSystem} {path : Path} {contents : Bytes} :
    contents? files path = some contents ↔ files.read path = .ok contents := by
  unfold contents?
  cases files.read path <;> simp [Except.toOption]

theorem answered_serveDirectory {path : Str} {config : ServerConfig} {loc : Location}
    (matched : matchLocation path config = some loc) (world : World)
    (missing : contents? world.files (fileIn path loc "index.html".toList) = none) :
    Answered world.files path loc (serveDirectory path (loc.root ++ path) config world).1 := by
  have noFile : ∀ contents,
      contents? world.files (fileIn path loc "index.html".toList) ≠ some contents := by
    intro contents found
    rw [missing] at found
    cases found
  refine ⟨fun contents found => absurd found (noFile contents), fun _ => ?_, fun _ => ?_⟩
  · intro page isListed
    obtain ⟨on, place, names, read, rfl⟩ := listed_some isListed
    unfold serveDirectory
    rw [matched, Option.map_some, Option.getD_some, if_pos on, bind_apply]
    simp only [World.readDir, read, bind_apply, pure_apply]
    rw [entryRows_fst]
    exact ⟨⟨rfl, rfl⟩, rfl⟩
  · intro unlisted
    unfold serveDirectory
    rw [matched, Option.map_some, Option.getD_some]
    cases on : loc.autoindex with
    | false => exact (errorResponse_status _ _ _).1
    | true =>
      rw [if_pos rfl, if_pos rfl, bind_apply]
      cases read : world.files.readDir (filePath (loc.root ++ path)) with
      | ok result =>
        obtain ⟨place, names⟩ := result
        rw [(listed_eq on read).2] at unlisted
        cases unlisted
      | error failed =>
        simp only [World.readDir, read]
        exact (errorResponse_status _ _ _).1

section
variable {config : ServerConfig} {request : Request} {loc : Location} {world : World}

theorem answered_buildResponse (platform : Platform) (clock : Clock)
    (isDirectory : DirectoryRequest world.files config request loc) :
    Answered world.files request.path loc (buildResponse platform clock request config world).1 := by
  have taken : route request config = .static loc := by
    have allowed : isMethodAllowed request.method loc = true := by
      rw [isDirectory.method, isDirectory.allowed]
    rw [route_allowed isDirectory.matched isDirectory.direct isDirectory.free allowed,
      isDirectory.method, isDirectory.noScript]
    rfl
  obtain ⟨mode, found⟩ := isDirectory.directory
  rw [buildResponse_eq_follow, taken]
  unfold follow serveFile
  dsimp only
  rw [bind_apply]
  simp only [World.metadata, found]
  rw [serveFound, if_pos (by rfl), bind_apply]
  have sameFile : filePath (trimEndMatches '/' (loc.root ++ request.path) ++ "/index.html".toList) =
      fileIn request.path loc "index.html".toList := by
    rw [fileIn, List.append_assoc]
    rfl
  rw [sameFile]
  cases read : world.files.read (fileIn request.path loc "index.html".toList) with
  | error failed =>
    have missing : contents? world.files (fileIn request.path loc "index.html".toList) = none := by
      rw [contents?, read]
      rfl
    have read' : (world.log .stat (filePath (loc.root ++ request.path))).files.read
        (fileIn request.path loc "index.html".toList) = .error failed := read
    simp only [World.read, read']
    exact answered_serveDirectory isDirectory.matched
      ((world.log .stat _).log .read _) missing
  | ok contents =>
    have read' : (world.log .stat (filePath (loc.root ++ request.path))).files.read
        (fileIn request.path loc "index.html".toList) = .ok contents := read
    simp only [World.read, read']
    have isFixed := contents?_eq_some.mpr read
    refine ⟨?_, ?_, ?_⟩
    · intro other found'
      rw [isFixed, Option.some.injEq] at found'
      exact ⟨⟨rfl, rfl⟩, found'⟩
    · intro missing
      rw [isFixed] at missing
      cases missing
    · intro missing
      rw [isFixed] at missing
      cases missing

/-- The index file that a location sets is served where it is read like `index.html`. -/
theorem directory_iff (platform : Platform) (clock : Clock)
    (isDirectory : DirectoryRequest world.files config request loc) :
    Served world.files request.path loc (buildResponse platform clock request config world).1 ↔
      Alike (contents? world.files (fileIn request.path loc (indexName loc)))
        (contents? world.files (fileIn request.path loc "index.html".toList))
        (listed world.files request.path loc) loc.autoindex :=
  served_iff (answered_buildResponse platform clock isDirectory)

end

def homeLocation (index : Option Str) : Location :=
  ⟨"/".toList, ".".toList, index, [], false, none, none⟩

def homeConfig (index : Option Str) : ServerConfig :=
  { webConfig with locations := [homeLocation index] }

def homeWorld (name : String) : World :=
  { emptyWorld with files := (FileSystem.bare.write (filePath name.toList) (utf8 "Welcome")).2 }

theorem homeRequest (name : String) (index : Option Str)
    (directory : (homeWorld name).files.metadata (filePath "./".toList) =
      .ok (.directory ⟨true, true, true⟩)) :
    DirectoryRequest (homeWorld name).files (homeConfig index) (getRequest "/") (homeLocation index) where
  method := rfl
  free := by
    rw [SessionRoute]
    decide
  matched := rfl
  direct := rfl
  allowed := rfl
  noScript := rfl
  directory := ⟨_, directory⟩

theorem directory_iff_default : Served (homeWorld "index.html").files "/".toList (homeLocation none)
    (buildResponse quietPlatform ⟨0, 0, 0⟩ (getRequest "/") (homeConfig none)
      (homeWorld "index.html")).1 :=
  (directory_iff quietPlatform ⟨0, 0, 0⟩ (homeRequest "index.html" none (by decide +kernel))).mpr
    (Or.inl rfl)

/-- A directory with the index file that its location sets is refused. -/
theorem index_ignored :
    ¬∀ (config : ServerConfig) (world : World) (request : Request) (loc : Location),
      DirectoryRequest world.files config request loc →
      Served world.files request.path loc
        (buildResponse quietPlatform ⟨0, 0, 0⟩ request config world).1 := by
  intro serves
  have served := serves (homeConfig (some "home.html".toList)) (homeWorld "home.html")
    (getRequest "/") (homeLocation (some "home.html".toList))
    (homeRequest "home.html" _ (by decide +kernel))
  obtain ⟨succeeds, -⟩ := served.index (utf8 "Welcome") (by decide +kernel)
  have refused : (buildResponse quietPlatform ⟨0, 0, 0⟩ (getRequest "/")
      (homeConfig (some "home.html".toList)) (homeWorld "home.html")).1.status = .forbidden := by
    decide +kernel
  exact absurd (refused.symm.trans succeeds.status) (by decide)

end LocalServer.DirectoryServing
