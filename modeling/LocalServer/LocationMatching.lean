import LocalServer.Effects
import Mathlib.Data.List.Nodup
import Mathlib.Data.List.Perm.Basic

/-! Which location a path is matched with, and why the order of the blocks does not matter. -/

namespace LocalServer.LocationMatching
open Library Action Utf8 Text Handler Effects

section
variable {α : Type} {key : α → Nat} {list other : List α}

/-- Where keys are distinct the largest of them belongs to one element. -/
theorem maxByKey_eq_some (distinct : (list.map key).Nodup) {a : α} :
    maxByKey key list = some a ↔ a ∈ list ∧ ∀ b ∈ list, key b ≤ key a := by
  constructor
  · intro best
    exact ⟨mem_of_maxByKey best, le_of_maxByKey best⟩
  · intro largest
    obtain ⟨member, bound⟩ := largest
    cases best : maxByKey key list with
    | none =>
      rw [maxByKey_eq_none.mp best] at member
      cases member
    | some b =>
      have below := le_of_maxByKey best a member
      have above := bound b (mem_of_maxByKey best)
      have same : b = a :=
        List.inj_on_of_nodup_map distinct (mem_of_maxByKey best) member (by omega)
      rw [same]

theorem maxByKey_perm (distinct : (list.map key).Nodup) (reordered : list.Perm other) :
    maxByKey key other = maxByKey key list := by
  have distinct' : (other.map key).Nodup := (reordered.map key).nodup_iff.mp distinct
  ext a
  rw [maxByKey_eq_some distinct', maxByKey_eq_some distinct, reordered.mem_iff]
  simp only [reordered.mem_iff]

end

theorem encode_length_eq_zero {text : Str} (empty : (encode text).length = 0) : text = [] :=
  encode_injective (List.eq_nil_of_length_eq_zero empty)

/-- Two prefixes of a path that take the same number of bytes are the same. -/
theorem leads_injective {path first second : Str} (leads : startsWith path first = true)
    (leads' : startsWith path second = true)
    (lengths : (encode first).length = (encode second).length) : first = second := by
  have isPrefix : first <+: path := List.isPrefixOf_iff_prefix.mp leads
  have isPrefix' : second <+: path := List.isPrefixOf_iff_prefix.mp leads'
  rcases List.prefix_or_prefix_of_prefix isPrefix isPrefix' with ⟨rest, rfl⟩ | ⟨rest, rfl⟩
  · rw [encode_append, List.length_append] at lengths
    have nothing : rest = [] := encode_length_eq_zero (by omega)
    rw [nothing, List.append_nil]
  · rw [encode_append, List.length_append] at lengths
    have nothing : rest = [] := encode_length_eq_zero (by omega)
    rw [nothing, List.append_nil]

/-- Distinct locations that lead the same path have paths of distinct lengths. -/
theorem lengths_distinct {locations : List Location} (path : Str)
    (distinct : (locations.map Location.path).Nodup) :
    ((locations.filter fun loc => startsWith path loc.path).map
      fun loc => (encode loc.path).length).Nodup := by
  rw [List.Nodup, List.pairwise_map] at distinct ⊢
  apply List.Pairwise.imp_of_mem _ (distinct.filter _)
  intro first second member member' differ lengths
  apply differ
  exact leads_injective (List.mem_filter.mp member).2 (List.mem_filter.mp member').2 lengths

def withLocations (config : ServerConfig) (locations : List Location) : ServerConfig :=
  { config with locations }

theorem matchLocation_perm {config : ServerConfig} {locations : List Location}
    (distinct : (config.locations.map Location.path).Nodup)
    (reordered : config.locations.Perm locations) (path : Str) :
    matchLocation path (withLocations config locations) = matchLocation path config :=
  maxByKey_perm (lengths_distinct path distinct) (reordered.filter _)

structure Alike (config other : ServerConfig) : Prop where
  pages : other.errorPages = config.errorPages
  chooses : ∀ path, matchLocation path other = matchLocation path config

section
variable {config other : ServerConfig} (alike : Alike config other)
include alike

theorem errorResponse_alike (status : StatusCode) :
    errorResponse status other = errorResponse status config := by
  unfold errorResponse
  rw [alike.pages]

theorem serveDirectory_alike (urlPath dirPath : Str) :
    serveDirectory urlPath dirPath other = serveDirectory urlPath dirPath config := by
  unfold serveDirectory
  simp only [alike.chooses, errorResponse_alike alike]

theorem serveFound_alike (path file : Str) (found : Node) :
    serveFound path file found other = serveFound path file found config := by
  unfold serveFound
  simp only [serveDirectory_alike alike, errorResponse_alike alike]

theorem serveFile_alike (path root : Str) :
    serveFile path root other = serveFile path root config := by
  unfold serveFile
  simp only [serveFound_alike alike, errorResponse_alike alike]

theorem handlePost_alike (request : Request) (root : Str) :
    handlePost request root other = handlePost request root config := by
  unfold handlePost
  simp only [errorResponse_alike alike]

theorem handleDelete_alike (request : Request) (root : Str) :
    handleDelete request root other = handleDelete request root config := by
  unfold handleDelete
  simp only [errorResponse_alike alike]

theorem handleWhoami_alike (clock : Clock) (request : Request) :
    handleWhoami clock request other = handleWhoami clock request config := by
  unfold handleWhoami
  simp only [errorResponse_alike alike]

theorem route_alike (request : Request) : route request other = route request config := by
  unfold route locationRoute
  rw [alike.chooses]

theorem follow_alike (platform : Platform) (clock : Clock) (request : Request) (taken : Route) :
    follow platform clock request other taken = follow platform clock request config taken := by
  cases taken with
  | redirect target => rfl
  | login => rfl
  | logout => rfl
  | whoami => exact handleWhoami_alike alike clock request
  | script cgi loc => rfl
  | static loc => exact serveFile_alike alike _ _
  | upload loc => exact handlePost_alike alike _ _
  | deletion loc => exact handleDelete_alike alike _ _
  | refused status => exact errorResponse_alike alike status

theorem buildResponse_alike (platform : Platform) (clock : Clock) (request : Request) :
    buildResponse platform clock request other = buildResponse platform clock request config := by
  rw [buildResponse_eq_follow, buildResponse_eq_follow, route_alike alike, follow_alike alike]

end

structure Chosen (config : ServerConfig) (path : Str) (loc : Location) : Prop where
  isLocation : loc ∈ config.locations
  leads : startsWith path loc.path = true
  longest : ∀ other ∈ config.locations, startsWith path other.path = true →
    (encode other.path).length ≤ (encode loc.path).length

theorem matchLocation_isSome (path : Str) (config : ServerConfig) :
    (matchLocation path config).isSome = true ↔
      ∃ loc ∈ config.locations, startsWith path loc.path = true := by
  rw [Option.isSome_iff_ne_none, matchLocation, ne_eq, maxByKey_eq_none, List.filter_eq_nil_iff]
  simp

/-- A location is found where one leads the path, it is a longest one, and where paths are
distinct what is answered does not depend on the order of the blocks. -/
theorem matchLocation_exact (config : ServerConfig) :
    (∀ path, ((matchLocation path config).isSome = true ↔
        ∃ loc ∈ config.locations, startsWith path loc.path = true) ∧
      ∀ loc, matchLocation path config = some loc → Chosen config path loc) ∧
    ((config.locations.map Location.path).Nodup →
      ∀ locations, config.locations.Perm locations → ∀ platform clock request,
        buildResponse platform clock request (withLocations config locations) =
          buildResponse platform clock request config) := by
  constructor
  · intro path
    refine ⟨matchLocation_isSome path config, fun loc matched => ?_⟩
    obtain ⟨isLocation, leads⟩ := matchLocation_leads matched
    exact ⟨isLocation, leads, matchLocation_longest matched⟩
  · intro distinct locations reordered platform clock request
    have alike : Alike config (withLocations config locations) :=
      ⟨rfl, matchLocation_perm distinct reordered⟩
    exact buildResponse_alike alike platform clock request

def uploadsLocation : Location :=
  ⟨"/uploads".toList, "./data".toList, none, [], true, none, none⟩

def overlapping : ServerConfig := withLocations webConfig [webLocation, uploadsLocation]

theorem matchLocation_exact_overlapping :
    Chosen overlapping "/uploads/a".toList uploadsLocation ∧
      ∀ platform clock, buildResponse platform clock (getRequest "/uploads/a")
          (withLocations overlapping [uploadsLocation, webLocation]) =
        buildResponse platform clock (getRequest "/uploads/a") overlapping := by
  obtain ⟨found, unordered⟩ := matchLocation_exact overlapping
  constructor
  · exact (found "/uploads/a".toList).2 uploadsLocation (by decide)
  · intro platform clock
    exact unordered (by decide) _ (List.Perm.swap _ _ _) platform clock _

end LocalServer.LocationMatching
