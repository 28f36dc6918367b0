import LocalServer.Confinement
import LocalServer.Effects
import LocalServer.Library.Seam
import LocalServer.RequestText
import LocalServer.Server

/-! The links of a directory listing, and what a request for one of them arrives at. -/

namespace LocalServer.ListingLinks
open Library Machine Utf8 Text Path FileSystem Handler Effects Confinement Request RequestText
  RequestFraming

def displayName (name : Name) (found : Node) : Str :=
  match found with
  | .directory _ => fromUtf8Lossy name ++ "/".toList
  | .file _ _ => fromUtf8Lossy name

def sizeText (found : Node) : Str :=
  match found with
  | .directory _ => "-".toList
  | .file _ contents => Response.decimal contents.length ++ " bytes".toList

def href (urlPath : Str) (name : Name) (found : Node) : Str :=
  trimEndMatches '/' urlPath ++ "/".toList ++ displayName name found

def linkIn (row : Str) : Str := (row.drop "<tr><td><a href='".toList.length).takeWhile (· != '\'')

/-- `GET href HTTP/1.1`, with any headers behind it. -/
def sentBack (href : Str) (headers : List Str) : Bytes :=
  (requestLine "GET".toList href "HTTP/1.1".toList :: headers).flatMap
    (fun line => encode line ++ crlf) ++ crlf

/-- A character that stays in the path of a request. -/
def carried (c : Char) : Bool := !isWhitespace c && c != '?'

def Plain (name : Name) : Prop := ∃ text, name = encode text ∧ ∀ c ∈ text, carried c = true

theorem entryRow_eq (urlPath : Str) (name : Name) (found : Node) :
    entryRow urlPath name found = "<tr><td><a href='".toList ++ href urlPath name found ++
      "'>".toList ++ displayName name found ++ "</a></td><td>".toList ++ sizeText found ++
      "</td></tr>\n".toList := by
  cases found
  · unfold entryRow
    dsimp only [href, displayName, sizeText]
  · unfold entryRow
    dsimp only [href, displayName, sizeText]

theorem takeWhile_quoted (link rest : Str) :
    (link ++ '\'' :: rest).takeWhile (· != '\'') = link ↔ '\'' ∉ link := by
  constructor
  · intro whole quoted
    rw [← whole] at quoted
    simpa using List.mem_takeWhile_imp quoted
  · intro unquoted
    rw [List.takeWhile_append_of_pos]
    · simp
    · intro c member
      rw [bne_iff_ne]
      rintro rfl
      exact unquoted member

theorem linkIn_entryRow (urlPath : Str) (name : Name) (found : Node) :
    linkIn (entryRow urlPath name found) = href urlPath name found ↔
      '\'' ∉ href urlPath name found := by
  have closing : "'>".toList = '\'' :: ">".toList := rfl
  rw [linkIn, entryRow_eq, closing]
  simp only [List.append_assoc, List.drop_left, List.cons_append]
  exact takeWhile_quoted _ _

/-! The path of a request -/

theorem path_of_parsed {tables : CaseTables} {buffer : Bytes} {request : Request}
    (fits : Addressable buffer) (parsed : parse tables buffer = .ok (some request)) :
    ∃ method others, splitWhitespace (fromUtf8Lossy buffer) = method :: request.path :: others := by
  obtain ⟨head, body, ⟨section', rest, block, known, -⟩, rfl⟩ := (parse_eq_some fits).mp parsed
  have text : fromUtf8Lossy buffer =
      fromUtf8Lossy section' ++ '\r' :: fromUtf8Lossy ([10, 13, 10] ++ rest) := by
    rw [block.cut]
    exact @fromUtf8Lossy_append_ascii 13 (by decide) section' ([10, 13, 10] ++ rest)
  unfold parseHead at known
  split at known
  · cases known
  · next firstLine headerLines split =>
    split at known
    · next method path version others words =>
      cases known
      obtain ⟨blank, after, white, shape⟩ := lines_first split (fromUtf8Lossy ([10, 13, 10] ++ rest))
      rw [text, shape, splitWhitespace_append _ _ white, words]
      exact ⟨method, _, rfl⟩
    · cases known

theorem splitQuery_path (request : Request) :
    (Server.splitQuery request).path = request.path.takeWhile (· != '?') := by
  unfold Server.splitQuery splitOnce
  have whole := @List.takeWhile_append_dropWhile _ (· != '?') request.path
  cases rest : request.path.dropWhile (· != '?') with
  | nil =>
    rw [rest, List.append_nil] at whole
    exact whole.symm
  | cons mark after => rfl

theorem splitQuery_method (request : Request) :
    (Server.splitQuery request).method = request.method := by
  unfold Server.splitQuery
  cases splitOnce '?' request.path <;> rfl

theorem takeWhile_carried (s : Str) :
    (s.takeWhile (!isWhitespace ·)).takeWhile (· != '?') = s.takeWhile carried := by
  induction s with
  | nil => rfl
  | cons c s ih =>
    by_cases white : isWhitespace c = true
    · simp [carried, white]
    · by_cases mark : c = '?'
      · have visible : isWhitespace '?' = false := by decide
        simp [carried, mark, visible]
      · simp [carried, white, mark, ← ih]

theorem path_carried {tables : CaseTables} {buffer : Bytes} {request : Request}
    (fits : Addressable buffer) (parsed : parse tables buffer = .ok (some request)) :
    ∀ c ∈ (Server.splitQuery request).path, carried c = true := by
  obtain ⟨method, others, words⟩ := path_of_parsed fits parsed
  have isWord : request.path ∈ splitWhitespace (fromUtf8Lossy buffer) := by
    rw [words]
    simp
  intro c member
  rw [splitQuery_path] at member
  have visible := splitOnP_lacks (List.mem_filter.mp isWord).1 c
    ((List.takeWhile_sublist _).subset member)
  have notMark := List.mem_takeWhile_imp member
  rw [carried, visible, Bool.not_false, Bool.true_and]
  exact notMark

/-- The path that arrives: the link up to the first whitespace or question mark. -/
theorem path_of_sentBack {tables : CaseTables} {link : Str} {headers : List Str} {request : Request}
    (fits : Addressable (sentBack link headers)) (starts : link.takeWhile (!isWhitespace ·) ≠ [])
    (parsed : parse tables (sentBack link headers) = .ok (some request)) :
    (Server.splitQuery request).path = link.takeWhile carried := by
  obtain ⟨method, others, words⟩ := path_of_parsed fits parsed
  have asText : ∀ lines : List Str, lines.flatMap (fun line => encode line ++ crlf) =
      encode (lines.flatMap (· ++ "\r\n".toList)) := by
    intro lines
    induction lines with
    | nil => rfl
    | cons line lines ih =>
      rw [List.flatMap_cons, List.flatMap_cons, ih, encode_append, encode_append]
      rfl
  obtain ⟨rest, text⟩ : ∃ rest, fromUtf8Lossy (sentBack link headers) =
      "GET".toList ++ ' ' :: (link ++ ' ' :: rest) := by
    refine ⟨"HTTP/1.1".toList ++ "\r\n".toList ++ headers.flatMap (· ++ "\r\n".toList) ++
      "\r\n".toList, ?_⟩
    rw [sentBack, asText, show crlf = encode "\r\n".toList by decide +kernel, ← encode_append,
      fromUtf8Lossy_encode, List.flatMap_cons, requestLine]
    simp only [List.append_assoc, List.cons_append]
  have stops : (link ++ ' ' :: rest).takeWhile (!isWhitespace ·) =
      link.takeWhile (!isWhitespace ·) := by
    have blank : isWhitespace ' ' = true := rfl
    rw [List.takeWhile_append]
    split_ifs with whole
    · rw [List.takeWhile_cons_of_neg (by rw [blank]; decide), List.append_nil,
        (List.takeWhile_prefix _).eq_of_length whole]
    · rfl
  obtain ⟨others', first⟩ := @splitWhitespace_takeWhile (link ++ ' ' :: rest) (by rwa [stops])
  rw [text, splitWhitespace_cons _ (by decide) rfl, first, stops] at words
  have path : request.path = link.takeWhile (!isWhitespace ·) :=
    (List.cons.inj (List.cons.inj words).2).1.symm
  rw [splitQuery_path, path, takeWhile_carried]

theorem parse_sentBack {tables : CaseTables} {path : Str} {headers : List Str} (isPath : IsWord path)
    (plain : ∀ line ∈ headers, line ≠ [] ∧ '\r' ∉ line ∧ '\n' ∉ line)
    (unchunked : isChunked tables (headers.foldl (insertHeader tables) HashMap.empty) = false)
    (fits : Addressable (sentBack path headers)) :
    parse tables (sentBack path headers) = .ok (some ⟨methodOf "GET".toList, path,
      "HTTP/1.1".toList, headers.foldl (insertHeader tables) HashMap.empty, []⟩) := by
  have isMethod : IsWord "GET".toList := by decide
  have isVersion : IsWord "HTTP/1.1".toList := by decide
  have lines : ∀ line ∈ requestLine "GET".toList path "HTTP/1.1".toList :: headers,
      line ≠ [] ∧ '\r' ∉ line ∧ '\n' ∉ line := by
    intro line member
    rcases List.mem_cons.mp member with rfl | inHeaders
    · exact requestLine_plain isMethod isPath isVersion
    · exact plain line inHeaders
  have block := headerBlock_lines (List.cons_ne_nil _ _)
    (fun line member => ⟨(lines line member).1, (lines line member).2.1⟩) []
  have head := parseHead_lines tables isMethod isPath isVersion
    fun line member => ⟨(lines line member).1, (lines line member).2.2⟩
  refine (parse_block block fits).trans ?_
  rw [fromUtf8Lossy_encode, head]
  simp only [bodyOf, unchunked]
  rfl

/-! From the path to the entry -/

structure Link (tables : CaseTables) (files : FileSystem) (config : ServerConfig) where
  buffer : Bytes
  asked : Request
  loc : Location
  place : List Name
  names : List Name
  name : Name
  found : Node
  received : Addressable buffer
  parsed : parse tables buffer = .ok (some asked)
  static : route (Server.splitQuery asked) config = .static loc
  listed : files.readDir (targetPath loc (Server.splitQuery asked)) = .ok (place, names)
  entry : name ∈ names
  readable : files.entryMetadata place name = some found
  /-- The link belongs to the same location. -/
  same : matchLocation (href (Server.splitQuery asked).path name found) config = some loc

namespace Link

variable {tables : CaseTables} {files : FileSystem} {config : ServerConfig}
  (link : Link tables files config)

def urlPath : Str := (Server.splitQuery link.asked).path

def href : Str := ListingLinks.href link.urlPath link.name link.found

/-- A request for the link, as `serve_file` looks it up: under the same location, at the entry.
Only the session route and the location's scripts come before that. -/
structure Leads (headers : List Str) (request : Request) : Prop where
  parsed : parse tables (sentBack link.href headers) = .ok (some request)
  matched : matchLocation (Server.splitQuery request).path config = some link.loc
  resolves : files.resolve (targetPath link.loc (Server.splitQuery request)) =
    .ok (link.place ++ [link.name])
  served : (Server.splitQuery request).path ≠ "/whoami".toList →
    findCgi (Server.splitQuery request).path link.loc = none →
    route (Server.splitQuery request) config = .static link.loc

def part : Str := (fromUtf8Lossy link.name).takeWhile carried

theorem validName : ValidName link.name := by
  have entry := link.entry
  rw [(readDir_eq_ok link.listed).2.2] at entry
  exact validName_of_mem_entryNames entry

theorem part_lacks {mark : Char} (ascii : mark.toNat < 128)
    (absent : UInt8.ofNat mark.toNat ∉ link.name) : mark ∉ link.part := fun member =>
  absent (mem_fromUtf8Lossy_ascii ascii ((List.takeWhile_sublist _).subset member))

theorem href_takeWhile : ∃ tail, link.href.takeWhile carried =
      trimEndMatches '/' link.urlPath ++ '/' :: tail ∧
    (tail = link.part ∨ tail = link.part ++ ['/']) := by
  have plain : ∀ c ∈ trimEndMatches '/' link.urlPath, carried c = true := fun c member =>
    path_carried link.received link.parsed c ((List.rdropWhile_prefix _ _).subset member)
  have slash : carried '/' = true := by decide
  refine ⟨(displayName link.name link.found).takeWhile carried, ?_, ?_⟩
  · rw [href, ListingLinks.href, List.append_assoc, List.takeWhile_append_of_pos plain]
    exact congrArg _ (List.takeWhile_cons_of_pos slash)
  · cases link.found with
    | file mode contents => exact Or.inl rfl
    | directory mode =>
      have shown : displayName link.name (.directory mode) = fromUtf8Lossy link.name ++ ['/'] := rfl
      rw [shown, List.takeWhile_append]
      split_ifs with whole
      · right
        rw [part, (List.takeWhile_prefix _).eq_of_length whole, List.takeWhile_cons_of_pos slash]
        rfl
      · exact Or.inl rfl

theorem encode_urlPath : ∃ count, encode (link.loc.root ++ link.urlPath) =
    encode (link.loc.root ++ trimEndMatches '/' link.urlPath) ++ List.replicate count slash := by
  obtain ⟨count, slashes⟩ := trimEndMatches_split link.urlPath
  exact ⟨count, by rw [encode_append, slashes, ← List.append_assoc, ← encode_append]⟩

/-- The path that arrives runs through the listed directory. -/
theorem components_tail {tail : Str} (isTail : tail = link.part ∨ tail = link.part ++ ['/']) :
    (filePath (link.loc.root ++ (trimEndMatches '/' link.urlPath ++ '/' :: tail))).components =
      (targetPath link.loc (Server.splitQuery link.asked)).components ++ split (encode link.part) := by
  obtain ⟨count, directory⟩ := link.encode_urlPath
  have name : split (encode tail) = split (encode link.part) := by
    rcases isTail with rfl | rfl
    · rfl
    · rw [encode_append]
      exact (split_slash (encode link.part) []).trans (List.append_nil _)
  show split (encode (link.loc.root ++ (trimEndMatches '/' link.urlPath ++ '/' :: tail))) =
    split (encode (link.loc.root ++ link.urlPath)) ++ split (encode link.part)
  rw [directory, split_replicate, ← name, ← List.append_assoc, encode_append]
  exact split_slash _ (encode tail)

theorem absolute_tail (tail : Str) :
    (filePath (link.loc.root ++ (trimEndMatches '/' link.urlPath ++ '/' :: tail))).absolute =
      (targetPath link.loc (Server.splitQuery link.asked)).absolute := by
  obtain ⟨count, directory⟩ := link.encode_urlPath
  show decide ((encode (link.loc.root ++ (trimEndMatches '/' link.urlPath ++ '/' :: tail))).head? =
    some slash) = decide ((encode (link.loc.root ++ link.urlPath)).head? = some slash)
  rw [← List.append_assoc, directory]
  by_cases empty : link.loc.root ++ trimEndMatches '/' link.urlPath = []
  · -- the directory is found, so its path starts somewhere
    have noComponents : (targetPath link.loc (Server.splitQuery link.asked)).components = [] := by
      show split (encode (link.loc.root ++ link.urlPath)) = []
      rw [directory, split_replicate, empty]
      rfl
    obtain ⟨resolved, -, -⟩ := readDir_eq_ok link.listed
    have absolute : (targetPath link.loc (Server.splitQuery link.asked)).absolute = true := by
      unfold resolve at resolved
      split_ifs at resolved with nul nowhere
      by_contra relative
      exact nowhere ⟨noComponents, relative⟩
    have slashed : decide ((encode (link.loc.root ++ link.urlPath)).head? = some slash) = true := absolute
    rw [directory] at slashed
    rw [slashed, empty]
    rfl
  · have first := encode_head empty ('/' :: tail)
    have nonempty : encode (link.loc.root ++ trimEndMatches '/' link.urlPath) ≠ [] := by
      intro nothing
      exact empty (encode_injective (nothing.trans (show [] = encode [] from rfl)))
    rw [first, List.head?_append_of_ne_nil _ nonempty]

theorem resolves_iff {tail : Str} (isTail : tail = link.part ∨ tail = link.part ++ ['/']) :
    files.resolve (filePath (link.loc.root ++ (trimEndMatches '/' link.urlPath ++ '/' :: tail))) =
        .ok (link.place ++ [link.name]) ↔ encode link.part = link.name := by
  obtain ⟨resolved, -, -⟩ := readDir_eq_ok link.listed
  have valid := link.validName
  obtain ⟨mode, here, searchable⟩ : ∃ mode, files.node link.place = some (.directory mode) ∧
      mode.search = true := by
    have readable := link.readable
    unfold entryMetadata at readable
    split at readable
    · next mode here =>
      split_ifs at readable with searchable
      exact ⟨mode, here, searchable⟩
    · cases readable
  have noSlash : slash ∉ encode link.part := fun member =>
    @part_lacks _ _ _ link '/' (by decide) valid.noSlash
      (@mem_encode_ascii slash _ (by decide) member)
  have noNul : 0 ∉ encode link.part := fun member =>
    @part_lacks _ _ _ link '\x00' (by decide) valid.noNul
      (@mem_encode_ascii 0 _ (by decide) member)
  have plain : ∀ name ∈ split (encode link.part), 0 ∉ name := by
    by_cases empty : encode link.part = []
    · rw [empty, split_nil]
      simp
    · rw [split_name empty noSlash]
      simpa using noNul
  rw [resolve_append resolved (link.absolute_tail tail) (link.components_tail isTail) plain]
  by_cases empty : encode link.part = []
  · rw [empty, split_nil]
    constructor
    · intro same
      have lengths := congrArg List.length (Except.ok.inj same)
      simp at lengths
    · intro same
      exact absurd same.symm valid.nonempty
  · rw [split_name empty noSlash, walk_one _ here searchable, Except.ok.injEq]
    constructor
    · intro same
      split_ifs at same with isDot isDotdot
      · have lengths := congrArg List.length same
        simp at lengths
      · have lengths := congrArg List.length same
        simp at lengths
      · exact List.singleton_inj.mp (List.append_cancel_left same)
    · intro same
      rw [if_neg (by rw [same]; exact valid.notDot), if_neg (by rw [same]; exact valid.notDotdot), same]

theorem part_eq_iff : encode link.part = link.name ↔ Plain link.name := by
  constructor
  · intro whole
    exact ⟨link.part, whole.symm, fun c member => List.mem_takeWhile_imp member⟩
  · rintro ⟨text, isText, plain⟩
    rw [part, isText, fromUtf8Lossy_encode, List.takeWhile_eq_self_iff.mpr plain]

theorem href_carried (plain : Plain link.name) : ∀ c ∈ link.href, carried c = true := by
  obtain ⟨text, isText, carries⟩ := plain
  have inPath : ∀ c ∈ trimEndMatches '/' link.urlPath, carried c = true := fun c member =>
    path_carried link.received link.parsed c ((List.rdropWhile_prefix _ _).subset member)
  have inName : ∀ c ∈ displayName link.name link.found, carried c = true := by
    unfold displayName
    rw [isText, fromUtf8Lossy_encode]
    cases link.found with
    | file mode contents => exact carries
    | directory mode =>
      intro c member
      rcases List.mem_append.mp member with inText | isSlash
      · exact carries c inText
      · obtain rfl := List.mem_singleton.mp isSlash
        decide
  intro c member
  rw [href, ListingLinks.href, List.append_assoc, List.mem_append, List.mem_append] at member
  rcases member with found | isSlash | found
  · exact inPath c found
  · obtain rfl := List.mem_singleton.mp isSlash
    decide
  · exact inName c found

section
variable {headers : List Str} (fits : Addressable (sentBack link.href headers))
include fits

theorem sent_path {request : Request}
    (parsed : parse tables (sentBack link.href headers) = .ok (some request)) :
    (Server.splitQuery request).path = link.href.takeWhile carried := by
  apply path_of_sentBack fits _ parsed
  intro none
  obtain ⟨tail, shape, -⟩ := link.href_takeWhile
  rw [← takeWhile_carried, none] at shape
  simp at shape

end

end Link

def listLocation : Location := ⟨"/".toList, ".".toList, none, [], true, none, none⟩

def listConfig : ServerConfig := { webConfig with locations := [listLocation] }

def folder (name : String) : FileSystem := (FileSystem.bare.write (filePath name.toList) []).2

def rootRequest : Request :=
  ⟨methodOf "GET".toList, "/".toList, "HTTP/1.1".toList, HashMap.empty, []⟩

def onlyLink (name : String)
    (listed : (folder name).readDir (filePath "./".toList) = .ok ([], [encode name.toList]))
    (readable : (folder name).entryMetadata [] (encode name.toList) = some (.file newFile []))
    (same : matchLocation (href "/".toList (encode name.toList) (.file newFile [])) listConfig =
      some listLocation) :
    Link asciiTables (folder name) listConfig where
  buffer := sentBack "/".toList []
  asked := rootRequest
  loc := listLocation
  place := []
  names := [encode name.toList]
  name := encode name.toList
  found := .file newFile []
  received := by decide +kernel
  parsed := parse_sentBack (by decide) (by simp) (by rfl) (by decide +kernel)
  static := by rfl
  listed := listed
  entry := List.mem_singleton.mpr rfl
  readable := readable
  same := same

def plainLink : Link asciiTables (folder "a.txt") listConfig :=
  onlyLink "a.txt" (by decide +kernel) (by decide +kernel) (by decide +kernel)

def spacedLink : Link asciiTables (folder "a b") listConfig :=
  onlyLink "a b" (by decide +kernel) (by decide +kernel) (by decide +kernel)

end LocalServer.ListingLinks
