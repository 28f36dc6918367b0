import LocalServer.Effects

/-! A file asked for with slashes behind its path: it is found without them, and read with them. -/

namespace LocalServer.TrailingSlashes
open Library Action Utf8 Text FileSystem Handler Effects

structure SameAnswer (first second : Response) : Prop where
  status : first.status = second.status
  contentType : first.contentType = second.contentType
  body : first.body = second.body

def slashes (count : Nat) : Str := List.replicate count '/'

section
variable {world : World} {root path : Str} {contents : Bytes} {count : Nat}

theorem filePath_slashes (holds : world.files.Holds (filePath (root ++ path)) contents)
    (some' : count ≠ 0) :
    filePath (root ++ (path ++ slashes count)) =
      { filePath (root ++ path) with trailing := true } := by
  have named : Path.split (encode (root ++ path)) ≠ [] := holds.components_ne_nil
  calc
    filePath (root ++ (path ++ slashes count)) =
        Path.ofBytes (encode (root ++ path) ++ List.replicate count Path.slash) := by
      rw [filePath, ← List.append_assoc, encode_append, slashes, encode_replicate (by decide)]
      rfl
    _ = _ := Path.ofBytes_slashes named some'

/-- The file that was found is not read: it is answered for like a file that is missing. -/
theorem serveFile_slashes (config : ServerConfig)
    (holds : world.files.Holds (filePath (root ++ path)) contents) (some' : count ≠ 0) :
    ∃ asked : World, asked.files = world.files ∧
      serveFile (path ++ slashes count) root config world = errorResponse .notFound config asked := by
  obtain ⟨mode, found⟩ := holds.metadata
  obtain ⟨noMetadata, unread⟩ := holds.trailing
  have trimmed : trimEndMatches '/' (path ++ slashes count) = path := by
    rw [slashes, trimEndMatches_replicate]
    exact trimEndMatches_of_plain holds.plain holds.components_ne_nil
  refine ⟨((world.log .stat (filePath (root ++ (path ++ slashes count)))).log .stat
    (filePath (root ++ path))).log .read (filePath (root ++ (path ++ slashes count))), rfl, ?_⟩
  unfold serveFile
  rw [trimmed, filePath_slashes holds some', bind_apply]
  simp only [World.metadata, noMetadata]
  rw [bind_apply]
  have again : (world.log .stat { filePath (root ++ path) with trailing := true }).files.metadata
      (filePath (root ++ path)) = .ok (.file mode contents) := found
  simp only [World.metadata, again]
  have refused : ((world.log .stat { filePath (root ++ path) with trailing := true }).log .stat
      (filePath (root ++ path))).files.read { filePath (root ++ path) with trailing := true } =
        .error .notADirectory := unread
  unfold serveFound
  rw [if_neg (by simp [Node.isDirectory]), filePath_slashes holds some', bind_apply]
  simp only [World.read, refused]

end

/-- With slashes behind it the path of a readable file is never served like the file itself. -/
theorem slashes_iff {world : World} {root path : Str} {contents : Bytes} (config : ServerConfig)
    (readable : world.files.read (filePath (root ++ path)) = .ok contents) (count : Nat) :
    SameAnswer (serveFile (path ++ slashes count) root config world).1
        (serveFile path root config world).1 ↔ count = 0 := by
  have holds := holds_of_read readable
  constructor
  · intro same
    by_contra some'
    obtain ⟨asked, -, answered⟩ := serveFile_slashes config holds some'
    have refused := (errorResponse_status .notFound config asked).1
    rw [← answered, same.status, (serveFile_holds config holds).1.status] at refused
    cases refused
  · intro none
    rw [none, slashes, List.replicate_zero, List.append_nil]
    exact ⟨rfl, rfl, rfl⟩

def oneFile : World :=
  { emptyWorld with files := (FileSystem.bare.write (filePath "./a.txt".toList) (utf8 "a")).2 }

theorem slashes_iff_oneFile :
    SameAnswer (serveFile ("/a.txt".toList ++ slashes 2) ".".toList webConfig oneFile).1
        (serveFile "/a.txt".toList ".".toList webConfig oneFile).1 ↔ 2 = 0 :=
  @slashes_iff oneFile ".".toList "/a.txt".toList (utf8 "a") webConfig (by decide +kernel) 2

/-- `/a.txt/` is not found where `/a.txt` is. -/
theorem slash_not_found :
    ¬∀ (world : World) (root path : Str) (contents : Bytes) (config : ServerConfig) (count : Nat),
      world.files.read (filePath (root ++ path)) = .ok contents →
      SameAnswer (serveFile (path ++ slashes count) root config world).1
        (serveFile path root config world).1 := by
  intro serves
  have same := serves oneFile ".".toList "/a.txt".toList (utf8 "a") webConfig 1 (by decide +kernel)
  have refused : (serveFile ("/a.txt".toList ++ slashes 1) ".".toList webConfig oneFile).1.status =
      .notFound := by decide +kernel
  have served : (serveFile "/a.txt".toList ".".toList webConfig oneFile).1.status = .ok := by
    decide +kernel
  exact absurd (refused.symm.trans (same.status.trans served)) (by decide)

end LocalServer.TrailingSlashes
