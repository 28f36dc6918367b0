import Mathlib.Data.List.ReduceOption
import LocalServer.ConfigRejection

/-! Configurations written down as text: every field as its directive, the directives of a
block in any order, with any layout. The parser reads them back. -/

namespace LocalServer.ConfigText
open Library Machine Text Numeral Parse ConfigParser ConfigGrammar ConfigRejection Tokenizer

structure PlainLocation (loc : Location) : Prop where
  path : IsPlain loc.path
  root : loc.root = [] ∨ IsPlain loc.root
  index : ∀ name ∈ loc.index, IsPlain name
  redirect : ∀ target ∈ loc.redirect, IsPlain target
  cgi : ∀ cgi ∈ loc.cgi, IsPlain cgi.extension ∧ IsPlain cgi.interpreter

structure PlainServer (server : ServerConfig) : Prop where
  host : IsPlain server.host
  serverName : ∀ name ∈ server.serverName, IsPlain name
  errorPages : ∀ code path, server.errorPages.get code = some path → IsPlain path
  locations : ∀ loc ∈ server.locations, PlainLocation loc

theorem isPlain_toDigits (n : Nat) : IsPlain (Nat.toDigits 10 n) := by
  refine ⟨Nat.toDigits_ne_nil, ?_⟩
  intro c member
  have digit := (isDigits_toDigits n).2 c member
  have range := isDigit_toDigits n member
  have notMark : ∀ mark : Char, mark.isDigit = false → c ≠ mark := by
    intro mark noDigit same
    rw [same, noDigit] at range
    cases range
  simp only [isWordChar, isWhitespace_digit digit, Bool.not_false, Bool.true_and, decide_eq_true_eq,
    List.mem_cons, List.not_mem_nil, or_false, not_or]
  exact ⟨notMark _ (by decide), notMark _ (by decide), notMark _ (by decide)⟩

theorem parseBodySize_toDigits (profile : Profile) (tables : CaseTables) {n : Nat}
    (fits : n < usizeLimit) : parseBodySize profile tables (Nat.toDigits 10 n) = .ok (.ok n) := by
  have letter : 'b' ∉ Nat.toDigits 10 n := by
    intro member
    exact absurd (isDigit_toDigits n member) (by decide)
  have noMb : stripSuffix "mb".toList (Nat.toDigits 10 n) = none :=
    stripSuffix_of_not_mem (by decide) letter
  have noKb : stripSuffix "kb".toList (Nat.toDigits 10 n) = none :=
    stripSuffix_of_not_mem (by decide) letter
  have trimmed : trim (Nat.toDigits 10 n) = Nat.toDigits 10 n :=
    trim_of_no_whitespace fun c member => isWhitespace_digit ((isDigits_toDigits n).2 c member)
  unfold parseBodySize
  simp only [toLowercase_toDigits, noMb, noKb, trimmed, fromStrRadix_toDigits fits]
  rfl

def decimalNumber (n : UInt16) : Number :=
  ⟨Nat.toDigits 10 n.toNat, n.toNat, fromStrRadix_toDigits n.toNat_lt⟩

def decimalSize (profile : Profile) (tables : CaseTables) (n : UInt64) : Size profile tables :=
  ⟨Nat.toDigits 10 n.toNat, n.toNat, parseBodySize_toDigits profile tables n.toNat_lt⟩

def nonempty? {α : Type} [DecidableEq α] (list : List α) : Option (List α) :=
  if list = [] then none else some list

/-- One directive for each field; an empty root and an empty method list are left out. -/
def locationDirectives (loc : Location) : List LocationDirective :=
  List.reduceOption [
    (nonempty? loc.root).map LocationDirective.root,
    loc.index.map LocationDirective.index,
    (nonempty? loc.methods).map LocationDirective.methods,
    some (.autoindex loc.autoindex),
    loc.redirect.map LocationDirective.redirect,
    loc.cgi.map fun cgi => .cgi cgi.extension (some cgi.interpreter)]

structure RendersLocation (block : LocationBlock) (loc : Location) : Prop where
  path : block.path = loc.path
  directives : block.directives.Perm (locationDirectives loc)

section
variable (profile : Profile) (tables : CaseTables)

def serverDirectives (server : ServerConfig) (port : UInt16) (size : UInt64)
    (pages : List (UInt16 × Str)) (blocks : List LocationBlock) :
    List (ServerDirective profile tables) :=
  List.reduceOption [
    some (.host server.host),
    some (.port (decimalNumber port)),
    server.serverName.map ServerDirective.serverName,
    some (.clientMaxBodySize (decimalSize profile tables size))] ++
  pages.map (fun page => .errorPage (decimalNumber page.1) page.2) ++
  blocks.map ServerDirective.location

structure RendersServer (block : ServerBlock profile tables) (server : ServerConfig)
    (port : UInt16) (size : UInt64) (pages : List (UInt16 × Str)) (blocks : List LocationBlock) :
    Prop where
  isPort : port.toNat = server.port
  isSize : size.toNat = server.clientMaxBodySize
  pagesOnce : (pages.map Prod.fst).Nodup
  arePages : HashMap.ofPairs (pages.map fun page => (page.1.toNat, page.2)) = server.errorPages
  locations : List.Forall₂ RendersLocation blocks server.locations
  directives : block.directives.Perm (serverDirectives profile tables server port size pages blocks)
  inOrder : block.directives.filterMap ServerDirective.location? = blocks

/-- The tree has the servers of the configuration, each with its fields in some order. -/
def Renders (tree : ConfigTree profile tables) (config : Config) : Prop :=
  List.Forall₂ (fun block server => ∃ port size pages blocks,
    RendersServer profile tables block server port size pages blocks) tree.servers config.servers

end

/-! Reading them back -/

theorem exists_of_forall₂ {α β : Type} {related : α → β → Prop} {first : List α} {second : List β}
    (each : List.Forall₂ related first second) {a : α} (member : a ∈ first) :
    ∃ b ∈ second, related a b := by
  induction each with
  | nil => cases member
  | cons heads rest ih =>
    rcases List.mem_cons.mp member with rfl | later
    · exact ⟨_, List.mem_cons_self, heads⟩
    · obtain ⟨b, isLater, relates⟩ := ih later
      exact ⟨b, List.mem_cons_of_mem _ isLater, relates⟩

section
variable {α β : Type} {pick : α → Option β} {first second : List α} {chosen : Option β}

/-- With one value at most the order does not matter. -/
theorem filterMap_of_perm (perm : first.Perm second)
    (picked : second.filterMap pick = chosen.toList) : first.filterMap pick = chosen.toList := by
  have list := perm.filterMap pick
  rw [picked] at list
  cases chosen with
  | none => exact List.perm_nil.mp list
  | some value => exact List.perm_singleton.mp list

theorem lastOf_of_perm (perm : first.Perm second) (picked : second.filterMap pick = chosen.toList) :
    lastOf pick first = chosen := by
  rw [lastOf, filterMap_of_perm perm picked]
  cases chosen <;> rfl

end

theorem nonempty?_getD {α : Type} [DecidableEq α] (list : List α) :
    (nonempty? list).getD [] = list := by
  unfold nonempty?
  split_ifs with empty
  · exact empty.symm
  · rfl

theorem locationDirectives_picks (loc : Location) :
    (locationDirectives loc).filterMap LocationDirective.root? = (nonempty? loc.root).toList ∧
    (locationDirectives loc).filterMap LocationDirective.index? = loc.index.toList ∧
    (locationDirectives loc).filterMap LocationDirective.methods? = (nonempty? loc.methods).toList ∧
    (locationDirectives loc).filterMap LocationDirective.autoindex? =
      (some loc.autoindex).toList ∧
    (locationDirectives loc).filterMap LocationDirective.redirect? = loc.redirect.toList ∧
    (locationDirectives loc).filterMap LocationDirective.cgi? = loc.cgi.toList := by
  simp only [locationDirectives, List.reduceOption, List.filterMap_filterMap]
  refine ⟨?_, ?_, ?_, ?_, ?_, ?_⟩
  · cases nonempty? loc.root <;>
      simp [List.filterMap_cons, Option.bind_map, Function.comp_def, LocationDirective.root?]
  · cases loc.index <;>
      simp [List.filterMap_cons, Option.bind_map, Function.comp_def, LocationDirective.index?]
  · cases nonempty? loc.methods <;>
      simp [List.filterMap_cons, Option.bind_map, Function.comp_def, LocationDirective.methods?]
  · simp [Option.bind_map, Function.comp_def, LocationDirective.autoindex?]
  · cases loc.redirect <;>
      simp [List.filterMap_cons, Option.bind_map, Function.comp_def, LocationDirective.redirect?]
  · cases loc.cgi <;>
      simp [List.filterMap_cons, Option.bind_map, Function.comp_def, LocationDirective.cgi?]

theorem meaning_of_rendersLocation {block : LocationBlock} {loc : Location}
    (renders : RendersLocation block loc) : block.meaning = loc := by
  have perm := renders.directives
  obtain ⟨root, index, methods, autoindex, redirect, cgi⟩ := locationDirectives_picks loc
  have allMethods : (nonempty? loc.methods).toList.flatten = loc.methods := by
    calc (nonempty? loc.methods).toList.flatten
        = (nonempty? loc.methods).getD [] := by cases nonempty? loc.methods <;> simp
      _ = loc.methods := nonempty?_getD _
  unfold LocationBlock.meaning
  rw [lastOf_of_perm perm root, lastOf_of_perm perm index, filterMap_of_perm perm methods,
    lastOf_of_perm perm autoindex, lastOf_of_perm perm redirect, lastOf_of_perm perm cgi,
    renders.path, nonempty?_getD, allMethods]
  rfl

section
variable {profile : Profile} {tables : CaseTables}

theorem serverDirectives_picks (server : ServerConfig) (port : UInt16) (size : UInt64)
    (pages : List (UInt16 × Str)) (blocks : List LocationBlock) :
    (serverDirectives profile tables server port size pages blocks).filterMap ServerDirective.host? =
      (some server.host).toList ∧
    (serverDirectives profile tables server port size pages blocks).filterMap ServerDirective.port? =
      (some port.toNat).toList ∧
    (serverDirectives profile tables server port size pages blocks).filterMap
      ServerDirective.serverName? = server.serverName.toList ∧
    (serverDirectives profile tables server port size pages blocks).filterMap ServerDirective.size? =
      (some size.toNat).toList ∧
    (serverDirectives profile tables server port size pages blocks).filterMap
      ServerDirective.errorPage? = pages.map fun page => (page.1.toNat, page.2) := by
  simp only [serverDirectives, List.reduceOption, List.filterMap_append, List.filterMap_filterMap,
    List.filterMap_map]
  refine ⟨?_, ?_, ?_, ?_, ?_⟩
  · simp [Function.comp_def, ServerDirective.host?]
  · cases server.serverName <;>
      simp [List.filterMap_cons, Function.comp_def, ServerDirective.port?, decimalNumber]
  · cases server.serverName <;>
      simp [List.filterMap_cons, Function.comp_def, ServerDirective.serverName?]
  · cases server.serverName <;>
      simp [List.filterMap_cons, Function.comp_def, ServerDirective.size?, decimalSize]
  · simp [Function.comp_def, ServerDirective.errorPage?, decimalNumber]

theorem meanings_of_rendersLocation {blocks : List LocationBlock} {locations : List Location}
    (each : List.Forall₂ RendersLocation blocks locations) :
    blocks.map LocationBlock.meaning = locations := by
  induction each with
  | nil => rfl
  | cons first rest ih => rw [List.map_cons, meaning_of_rendersLocation first, ih]

theorem RendersServer.codesOnce {block : ServerBlock profile tables} {server : ServerConfig}
    {port : UInt16} {size : UInt64} {pages : List (UInt16 × Str)} {blocks : List LocationBlock}
    (renders : RendersServer profile tables block server port size pages blocks) :
    ((pages.map fun page => (page.1.toNat, page.2)).map Prod.fst).Nodup := by
  have once : ((pages.map Prod.fst).map UInt16.toNat).Nodup :=
    renders.pagesOnce.map fun _ _ => UInt16.toNat_inj.mp
  rw [List.map_map] at once ⊢
  exact once

theorem meaning_of_rendersServer {block : ServerBlock profile tables} {server : ServerConfig}
    {port : UInt16} {size : UInt64} {pages : List (UInt16 × Str)} {blocks : List LocationBlock}
    (renders : RendersServer profile tables block server port size pages blocks) :
    block.meaning = server := by
  have perm := renders.directives
  obtain ⟨host, isPort, serverName, isSize, errorPages⟩ :=
    @serverDirectives_picks profile tables server port size pages blocks
  have sameHost : block.host = server.host := by
    have last := block.isHost
    rw [lastOf_of_perm perm host, Option.some.injEq] at last
    exact last.symm
  have samePort : block.port = server.port := by
    have last := block.isPort
    rw [lastOf_of_perm perm isPort, Option.some.injEq] at last
    rw [← renders.isPort, last]
  have samePages : HashMap.ofPairs (block.directives.filterMap ServerDirective.errorPage?) =
      server.errorPages := by
    rw [← renders.arePages, ← errorPages]
    apply HashMap.ofPairs_perm (perm.filterMap _)
    rw [errorPages]
    exact renders.codesOnce
  unfold ServerBlock.meaning
  rw [lastOf_of_perm perm serverName, lastOf_of_perm perm isSize, samePages, renders.inOrder,
    meanings_of_rendersLocation renders.locations, sameHost, samePort, Option.getD_some,
    renders.isSize]

theorem meanings_of_renders {blocks : List (ServerBlock profile tables)}
    {servers : List ServerConfig} (each : List.Forall₂ (fun block server => ∃ port size pages blocks,
      RendersServer profile tables block server port size pages blocks) blocks servers) :
    blocks.map ServerBlock.meaning = servers := by
  induction each with
  | nil => rfl
  | cons first rest ih =>
    obtain ⟨port, size, pages, blocks, rendered⟩ := first
    rw [List.map_cons, meaning_of_rendersServer rendered, ih]

/-! Words -/

theorem plain_values {words : List Str} (plain : ∀ w ∈ words, IsPlain w) {text : Str}
    (member : TokenKind.word text ∈ values words) : IsPlain text := by
  simp only [values, List.mem_append, List.mem_map, TokenKind.word.injEq, exists_eq_right,
    List.mem_singleton, reduceCtorEq, or_false] at member
  exact plain text member

theorem eq_of_nonempty? {α : Type} [DecidableEq α] {list chosen : List α}
    (isChosen : nonempty? list = some chosen) : list = chosen ∧ list ≠ [] := by
  unfold nonempty? at isChosen
  split_ifs at isChosen with empty
  cases isChosen
  exact ⟨rfl, empty⟩

theorem plain_locationDirective {loc : Location} (plain : PlainLocation loc)
    {item : LocationDirective} (member : item ∈ locationDirectives loc) {text : Str}
    (isWord : TokenKind.word text ∈ item.kinds) : IsPlain text := by
  rw [LocationDirective.kinds, List.mem_cons, TokenKind.word.injEq] at isWord
  rcases isWord with rfl | isWord
  · cases item <;> simp only [LocationDirective.name] <;> decide
  apply plain_values ?_ isWord
  simp only [locationDirectives, List.reduceOption, List.mem_filterMap, List.mem_cons,
    List.not_mem_nil, or_false, id, exists_eq_right, eq_comm (a := some item),
    Option.map_eq_some_iff, Option.some.injEq] at member
  rcases member with ⟨root, isRoot, rfl⟩ | ⟨index, isIndex, rfl⟩ | ⟨methods, -, rfl⟩ | rfl |
    ⟨target, isTarget, rfl⟩ | ⟨cgi, isCgi, rfl⟩
  · obtain ⟨rfl, nonempty⟩ := eq_of_nonempty? isRoot
    simpa [LocationDirective.words] using plain.root.resolve_left nonempty
  · simpa [LocationDirective.words] using plain.index index isIndex
  · intro w named
    obtain ⟨method, -, rfl⟩ := List.mem_map.mp named
    cases method <;> decide
  · intro w named
    rw [LocationDirective.words, List.mem_singleton] at named
    rw [named]
    cases loc.autoindex <;> decide
  · simpa [LocationDirective.words] using plain.redirect target isTarget
  · simpa [LocationDirective.words] using plain.cgi cgi isCgi

theorem plain_location {block : LocationBlock} {loc : Location} (renders : RendersLocation block loc)
    (plain : PlainLocation loc) {text : Str} (member : TokenKind.word text ∈ block.kinds) :
    IsPlain text := by
  simp only [LocationBlock.kinds, List.cons_append, List.mem_cons, TokenKind.word.injEq, reduceCtorEq,
    List.mem_append, List.mem_flatMap, List.not_mem_nil, or_false, false_or] at member
  rcases member with rfl | ⟨item, isItem, isWord⟩
  · rw [renders.path]
    exact plain.path
  · exact plain_locationDirective plain (renders.directives.mem_iff.mp isItem) isWord

theorem plain_server {block : ServerBlock profile tables} {server : ServerConfig}
    {port : UInt16} {size : UInt64} {pages : List (UInt16 × Str)} {blocks : List LocationBlock}
    (renders : RendersServer profile tables block server port size pages blocks)
    (plain : PlainServer server) {text : Str} (member : TokenKind.word text ∈ block.kinds) :
    IsPlain text := by
  simp only [ServerBlock.kinds, List.cons_append, List.mem_cons, reduceCtorEq,
    List.mem_append, List.mem_flatMap, List.not_mem_nil, or_false, false_or] at member
  obtain ⟨item, isItem, isWord⟩ := member
  rw [ServerDirective.kinds, List.mem_cons, TokenKind.word.injEq] at isWord
  rcases isWord with rfl | isWord
  · cases item <;> simp only [ServerDirective.name] <;> decide
  have isDirective := renders.directives.mem_iff.mp isItem
  simp only [serverDirectives, List.reduceOption, List.mem_append, List.mem_filterMap, List.mem_cons,
    List.not_mem_nil, or_false, id, exists_eq_right, eq_comm (a := some item),
    Option.map_eq_some_iff, Option.some.injEq, List.mem_map] at isDirective
  rcases isDirective with ((rfl | rfl | ⟨name, isName, rfl⟩ | rfl) | ⟨page, isPage, rfl⟩) |
    ⟨inner, isInner, rfl⟩
  · exact plain_values (by simpa using plain.host) isWord
  · exact plain_values (by simpa [decimalNumber] using isPlain_toDigits port.toNat) isWord
  · exact plain_values (by simpa using plain.serverName name isName) isWord
  · exact plain_values (by simpa [decimalSize] using isPlain_toDigits size.toNat) isWord
  · apply plain_values ?_ isWord
    have kept : server.errorPages.get page.1.toNat = some page.2 := by
      rw [← renders.arePages, HashMap.get_ofPairs renders.codesOnce]
      exact List.mem_map_of_mem isPage
    simpa [decimalNumber, isPlain_toDigits] using plain.errorPages _ _ kept
  · obtain ⟨loc, isLocation, rendered⟩ := exists_of_forall₂ renders.locations isInner
    exact plain_location rendered (plain.locations loc isLocation) isWord

/-- Whatever the layout and the order of the directives, a configuration is read back. -/
theorem parse_rendering (profile : Profile) (tables : UnicodeTables) {config : Config}
    (plain : ∀ server ∈ config.servers, PlainServer server)
    {tree : ConfigTree profile tables.toCaseTables} (renders : Renders profile _ tree config)
    {layout : Layout} (written : layout.kinds = tree.kinds) :
    run (parseConfig profile tables) (tokenize layout.text) = .ok config := by
  rw [run_parseConfig]
  refine ⟨tree, ?_, ?_, ?_⟩
  · intro block isBlock item isItem inner isLocation
    obtain ⟨server, isServer, port, size, pages, blocks, rendered⟩ := exists_of_forall₂ renders isBlock
    have among : inner ∈ blocks := by
      rw [← rendered.inOrder]
      exact List.mem_filterMap.mpr ⟨item, isItem, isLocation⟩
    obtain ⟨loc, isLoc, renderedLoc⟩ := exists_of_forall₂ rendered.locations among
    rw [renderedLoc.path]
    exact ((plain server isServer).locations loc isLoc).path.nonempty
  · rw [← written]
    apply tokenize_layout
    intro text member
    rw [written, ConfigTree.kinds, List.mem_flatMap] at member
    obtain ⟨block, isBlock, isWord⟩ := member
    obtain ⟨server, isServer, port, size, pages, blocks, rendered⟩ := exists_of_forall₂ renders isBlock
    rw [List.mem_cons, TokenKind.word.injEq] at isWord
    rcases isWord with rfl | isWord
    · decide
    · exact plain_server rendered (plain server isServer) isWord
  · rw [ConfigTree.meaning, meanings_of_renders renders]

end

def spaced (kinds : List TokenKind) : Layout where
  before := []
  pieces := kinds.map fun kind => (kind, [' '])
  blankBefore := by simp
  blankAfter := by
    intro piece member
    obtain ⟨kind, -, rfl⟩ := List.mem_map.mp member
    simp only [List.mem_singleton]
    intro c isSpace
    rw [isSpace]
    decide
  separated := by
    induction kinds with
    | nil => exact .nil
    | cons first rest ih =>
      cases rest with
      | nil => exact .singleton _
      | cons second rest => exact .cons_cons (fun _ _ => by simp) ih

theorem kinds_spaced (kinds : List TokenKind) : (spaced kinds).kinds = kinds := by
  rw [Layout.kinds, spaced, List.map_map]
  exact List.map_id _

def siteLocation : Location :=
  ⟨"/".toList, "./www".toList, none, [.get, .post], false, none, some ⟨".py".toList, "python3".toList⟩⟩

def siteConfig : Config :=
  ⟨[⟨"127.0.0.1".toList, 8080, some "site".toList, 4096,
    HashMap.ofPairs [(404, "404.html".toList)], [siteLocation]⟩]⟩

def siteBlock : LocationBlock :=
  ⟨"/".toList, [.cgi ".py".toList (some "python3".toList), .autoindex false,
    .methods [.get, .post], .root "./www".toList]⟩

def siteTree : ConfigTree .release asciiTables where
  servers := [{
    directives := [.location siteBlock, .port (decimalNumber 8080),
      .errorPage (decimalNumber 404) "404.html".toList, .serverName "site".toList,
      .clientMaxBodySize (decimalSize .release asciiTables 4096), .host "127.0.0.1".toList]
    host := "127.0.0.1".toList
    isHost := by decide
    port := 8080
    isPort := by decide }]
  nonempty := by simp

theorem renders_siteTree : Renders .release asciiTables siteTree siteConfig := by
  refine .cons ⟨8080, 4096, [(404, "404.html".toList)], [siteBlock], ?_⟩ .nil
  exact
    { isPort := rfl
      isSize := rfl
      pagesOnce := by decide
      arePages := rfl
      locations := .cons ⟨rfl, by decide⟩ .nil
      directives := by decide +kernel
      inOrder := rfl }

theorem plain_siteConfig : ∀ server ∈ siteConfig.servers, PlainServer server := by
  intro server member
  rw [siteConfig, List.mem_singleton] at member
  subst member
  refine ⟨by decide, by decide, ?_, ?_⟩
  · intro code path found
    rw [HashMap.get_ofPairs (by decide)] at found
    rw [List.mem_singleton, Prod.mk.injEq] at found
    rw [found.2]
    decide
  · intro loc isLocation
    rw [List.mem_singleton] at isLocation
    subst isLocation
    exact ⟨by decide, by decide, by decide, by decide, by decide⟩

theorem parse_siteTree : run (parseConfig .release plainTables)
    (tokenize (spaced siteTree.kinds).text) = .ok siteConfig :=
  parse_rendering .release plainTables plain_siteConfig renders_siteTree (kinds_spaced _)

end LocalServer.ConfigText
