import LocalServer.ConfigFile
import LocalServer.Effects

/-! What an accepted configuration promises the handlers: a host and a port for every server,
and for every location somewhere to serve it from. -/

namespace LocalServer.Servable
open Library Machine Text Parse ConfigParser ConfigGrammar ConfigRejection ConfigText ConfigFile
  Effects Tokenizer

/-- Every server can be bound, every location redirects or has a root, and so nothing is
served from the file system's own root directory. -/
structure ServableConfig (config : Config) : Prop where
  listens : ∀ server ∈ config.servers, IsPlain server.host ∧ server.port < UInt16.size
  located : ∀ server ∈ config.servers, ∀ loc ∈ server.locations,
    loc.redirect.isSome = true ∨ loc.root ≠ []
  served : ∀ server ∈ config.servers, ∀ request loc,
    (route request server).location? = some loc → loc.root ≠ []

/-- Every location block has a `root` or a `redirect` directive. -/
def RootedTree {profile : Profile} {tables : CaseTables} (tree : ConfigTree profile tables) : Prop :=
  ∀ server ∈ tree.servers, ∀ block, .location block ∈ server.directives →
    ∃ item ∈ block.directives, item.name = "root" ∨ item.name = "redirect"

theorem lastOf_of_mem {α β : Type} (pick : α → Option β) {list : List α} {a : α} {b : β}
    (member : a ∈ list) (picked : pick a = some b) : ∃ last, lastOf pick list = some last := by
  have among : b ∈ list.filterMap pick := List.mem_filterMap.mpr ⟨a, member, picked⟩
  exact ⟨_, List.getLast?_eq_some_getLast (List.ne_nil_of_mem among)⟩

theorem located_meaning {block : LocationBlock}
    (plain : ∀ word, TokenKind.word word ∈ block.kinds → IsPlain word) :
    (block.meaning.redirect.isSome = true ∨ block.meaning.root ≠ []) ↔
      ∃ item ∈ block.directives, item.name = "root" ∨ item.name = "redirect" := by
  constructor
  · intro located
    rcases located with redirects | rooted
    · obtain ⟨target, isTarget⟩ := Option.isSome_iff_exists.mp redirects
      obtain ⟨item, isItem, picked⟩ := mem_of_lastOf isTarget
      cases item <;> cases picked
      exact ⟨_, isItem, Or.inr rfl⟩
    · cases last : lastOf LocationDirective.root? block.directives with
      | none =>
        rw [LocationBlock.meaning, last] at rooted
        exact absurd rfl rooted
      | some root =>
        obtain ⟨item, isItem, picked⟩ := mem_of_lastOf last
        cases item <;> cases picked
        exact ⟨_, isItem, Or.inl rfl⟩
  · intro given
    obtain ⟨item, isItem, named⟩ := given
    cases item with
    | root path =>
      right
      obtain ⟨last, isLast⟩ := lastOf_of_mem LocationDirective.root? isItem rfl
      obtain ⟨last', isLast', picked⟩ := mem_of_lastOf isLast
      cases last' <;> cases picked
      have isPlain : IsPlain last := by
        apply plain
        have inItem : TokenKind.word last ∈ (LocationDirective.root last).kinds := by
          simp [LocationDirective.kinds, LocationDirective.words, values]
        have inItems := List.mem_flatMap.mpr ⟨_, isLast', inItem⟩
        simp [LocationBlock.kinds, inItems]
      rw [LocationBlock.meaning, isLast]
      exact isPlain.nonempty
    | redirect target =>
      left
      obtain ⟨last, isLast⟩ := lastOf_of_mem LocationDirective.redirect? isItem rfl
      rw [LocationBlock.meaning, isLast]
      rfl
    | _ => simp [LocationDirective.name] at named

section
variable {profile : Profile} {tables : UnicodeTables} {path text : Str} {config : Config}

theorem plain_of_location {tree : ConfigTree profile tables.toCaseTables}
    (written : (tokenize text).map Token.kind = tree.kinds)
    {server : ServerBlock profile tables.toCaseTables} (isServer : server ∈ tree.servers)
    {block : LocationBlock} (isBlock : .location block ∈ server.directives) (word : Str)
    (member : TokenKind.word word ∈ block.kinds) : IsPlain word := by
  apply plain_word written
  have inItem : TokenKind.word word ∈
      (ServerDirective.location block : ServerDirective profile tables.toCaseTables).kinds :=
    List.mem_cons_of_mem _ member
  have inItems := List.mem_flatMap.mpr ⟨_, isBlock, inItem⟩
  exact List.mem_flatMap.mpr ⟨server, isServer, by simp [ServerBlock.kinds, inItems]⟩

theorem location_of_location? {tables : CaseTables} {item : ServerDirective profile tables}
    {block : LocationBlock} (isLocation : item.location? = some block) : item = .location block := by
  cases item <;> cases isLocation
  rfl

/-- Of the trees whose tokens a text has, each means what the text is accepted as. -/
theorem meaning_of_accepted (accepted : fromFile profile tables path (.ok text) = .ok (.ok config))
    {tree : ConfigTree profile tables.toCaseTables}
    (written : (tokenize text).map Token.kind = tree.kinds) : config = tree.meaning := by
  rw [fromFile_ok] at accepted
  have named : tree.Named := by
    intro server isServer item isItem block isBlock
    rw [location_of_location? isBlock] at isItem
    exact (plain_of_location written isServer isItem block.path
      (by simp [LocationBlock.kinds])).nonempty
  have parsed := (run_parseConfig profile tables (tokenize text) tree.meaning).mpr
    ⟨tree, named, written, rfl⟩
  rw [accepted.1, Except.ok.injEq] at parsed
  exact parsed

/-- An accepted text is servable exactly when all its locations have a root or redirect. -/
theorem servable_iff (accepted : fromFile profile tables path (.ok text) = .ok (.ok config))
    {tree : ConfigTree profile tables.toCaseTables}
    (written : (tokenize text).map Token.kind = tree.kinds) :
    ServableConfig config ↔ RootedTree tree := by
  have located : (∀ server ∈ config.servers, ∀ loc ∈ server.locations,
      loc.redirect.isSome = true ∨ loc.root ≠ []) ↔ RootedTree tree := by
    rw [meaning_of_accepted accepted written]
    constructor
    · intro isLocated server isServer block isBlock
      apply (located_meaning (plain_of_location written isServer isBlock)).mp
      refine isLocated server.meaning (List.mem_map_of_mem isServer) block.meaning ?_
      exact List.mem_map_of_mem (List.mem_filterMap.mpr ⟨_, isBlock, rfl⟩)
    · intro rooted server isServer loc isLoc
      obtain ⟨serverBlock, isBlock, rfl⟩ := List.mem_map.mp isServer
      obtain ⟨block, isLocation, rfl⟩ := List.mem_map.mp isLoc
      obtain ⟨item, isItem, picked⟩ := List.mem_filterMap.mp isLocation
      rw [location_of_location? picked] at isItem
      exact (located_meaning (plain_of_location written isBlock isItem)).mpr
        (rooted serverBlock isBlock block isItem)
  rw [← located]
  constructor
  · exact fun servable => servable.located
  · intro isLocated
    refine ⟨fun server member => ⟨(plain_of_accepted accepted member).host,
      port_lt_of_accepted accepted member⟩, isLocated, ?_⟩
    intro server member request loc served
    obtain ⟨matched, direct, -, -⟩ := route_location served
    rcases isLocated server member loc (Handler.matchLocation_leads matched).1 with redirects | rooted
    · rw [direct] at redirects
      cases redirects
    · exact rooted

end

def openText : Str := "server \x7b host h; port 80; location / \x7b \x7d \x7d".toList

def openLocation : Location := newLocation "/".toList

def openServer : ServerConfig := ⟨"h".toList, 80, none, 1024 * 1024, HashMap.empty, [openLocation]⟩

def openTree : ConfigTree .release asciiTables where
  servers := [{
    directives := [.host "h".toList, .port (decimalNumber 80), .location ⟨"/".toList, []⟩]
    host := "h".toList
    isHost := by decide
    port := 80
    isPort := by decide }]
  nonempty := by simp

theorem open_accepted (path : Str) :
    fromFile .release plainTables path (.ok openText) = .ok (.ok ⟨[openServer]⟩) := by
  rfl

/-- The text is accepted, and its whole file system is served. -/
theorem open_not_servable :
    fromFile .release plainTables "open.conf".toList (.ok openText) = .ok (.ok ⟨[openServer]⟩) ∧
      ¬ServableConfig ⟨[openServer]⟩ ∧
      route (Handler.getRequest "/etc/passwd") openServer = .static openLocation ∧
      openLocation.root ++ "/etc/passwd".toList = "/etc/passwd".toList := by
  refine ⟨open_accepted _, ?_, by decide +kernel, rfl⟩
  intro servable
  rcases servable.located openServer List.mem_cons_self openLocation List.mem_cons_self with
    redirects | rooted
  · cases redirects
  · exact rooted rfl

theorem servable_open : ServableConfig ⟨[openServer]⟩ ↔ RootedTree openTree :=
  servable_iff (open_accepted "open.conf".toList) (by decide +kernel)

end LocalServer.Servable
