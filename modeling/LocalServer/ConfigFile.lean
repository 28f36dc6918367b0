import LocalServer.ConfigText
import LocalServer.Response

/-! `Config::from_file` of `src/config/mod.rs`. The text of the file, or the error that reading
it ended in, is an argument. -/

namespace LocalServer
open Library Machine Text Parse ConfigParser ConfigGrammar ConfigRejection
  ConfigText

def ParseError.display (error : ParseError) : Str :=
  "Config parse error at line ".toList ++ Response.decimal error.line ++ ": ".toList ++ error.message

def ServerConfig.addr (server : ServerConfig) : Str :=
  server.host ++ ":".toList ++ Response.decimal server.port

def ServerConfig.key (server : ServerConfig) : Str :=
  server.host ++ ":".toList ++ Response.decimal server.port ++ ":".toList ++ server.serverName.getD []

namespace ConfigFile

/-- The keys before are in `seen`. -/
def checkDuplicates (seen : List Str) : List ServerConfig → Except Str Unit
  | [] => .ok ()
  | server :: rest =>
    if server.key ∈ seen then
      .error ("Duplicate server '".toList ++ server.key ++
        "' — each host:port:server_name combination must be unique".toList)
    else checkDuplicates (server.key :: seen) rest

section
variable (profile : Profile) (tables : UnicodeTables)

def fromFile (path : Str) (content : Except Str Str) : Checked (Except Str Config) :=
  match content with
  | .error e => .ok (.error
      ("Cannot read config file '".toList ++ path ++ "': ".toList ++ e))
  | .ok content =>
    match run (parseConfig profile tables) (Tokenizer.tokenize content) with
    | .error (.panicked panic) => .error panic
    | .error (.rejected error) => .ok (.error error.display)
    | .ok config =>
      match checkDuplicates [] config.servers with
      | .error e => .ok (.error e)
      | .ok () => .ok (.ok config)

theorem checkDuplicates_ok (seen : List Str) (servers : List ServerConfig) :
    checkDuplicates seen servers = .ok () ↔
      (servers.map ServerConfig.key).Nodup ∧ ∀ server ∈ servers, server.key ∉ seen := by
  induction servers generalizing seen with
  | nil => simp [checkDuplicates]
  | cons server rest ih =>
    rw [checkDuplicates]
    by_cases known : server.key ∈ seen
    · simp [known]
    · rw [if_neg known, ih]
      simp only [List.map_cons, List.nodup_cons, List.mem_map, not_exists, not_and, List.mem_cons,
        not_or, forall_eq_or_imp]
      constructor
      · intro fresh
        exact ⟨⟨fun other isLater => (fresh.2 other isLater).1, fresh.1⟩, known,
          fun other isLater => (fresh.2 other isLater).2⟩
      · intro fresh
        exact ⟨fresh.1.2, fun other isLater => ⟨fresh.1.1 other isLater, fresh.2.2 other isLater⟩⟩

theorem fromFile_ok (path text : Str) (config : Config) :
    fromFile profile tables path (.ok text) = .ok (.ok config) ↔
      run (parseConfig profile tables) (Tokenizer.tokenize text) = .ok config ∧
        (config.servers.map ServerConfig.key).Nodup := by
  unfold fromFile
  dsimp only
  cases run (parseConfig profile tables) (Tokenizer.tokenize text) with
  | error stop => cases stop <;> simp
  | ok parsed =>
    dsimp only
    have unique := checkDuplicates_ok [] parsed.servers
    cases checked : checkDuplicates [] parsed.servers with
    | error e =>
      rw [checked] at unique
      simp only [List.not_mem_nil, not_false_eq_true, implies_true, and_true, reduceCtorEq,
        false_iff] at unique
      simp only [Except.ok.injEq, reduceCtorEq, false_iff, not_and]
      intro same
      rw [← same]
      exact unique
    | ok done =>
      rw [checked] at unique
      simp only [List.not_mem_nil, not_false_eq_true, implies_true, and_true, true_iff] at unique
      simp only [Except.ok.injEq]
      constructor
      · intro same
        rw [← same]
        exact ⟨rfl, unique⟩
      · exact fun both => both.1

end

section
variable {profile : Profile} {tables : UnicodeTables} {path text : Str} {config : Config}

/-- The tokens of a text are those of a tree of plain words. -/
theorem tree_of_accepted (accepted : fromFile profile tables path (.ok text) = .ok (.ok config)) :
    ∃ tree : ConfigTree profile tables.toCaseTables, tree.Named ∧
      (Tokenizer.tokenize text).map Token.kind = tree.kinds ∧ config = tree.meaning := by
  rw [fromFile_ok] at accepted
  exact (run_parseConfig profile tables _ config).mp accepted.1

theorem plain_word {kinds : List TokenKind} (written : (Tokenizer.tokenize text).map Token.kind = kinds)
    {word : Str} (member : .word word ∈ kinds) : Tokenizer.IsPlain word := by
  rw [← written] at member
  obtain ⟨token, isToken, isWord⟩ := List.mem_map.mp member
  exact Tokenizer.tokenize_plain text isToken isWord

end

/-! Accepted configurations are made of plain words -/

theorem mem_of_lastOf {α β : Type} {pick : α → Option β} {list : List α} {b : β}
    (last : lastOf pick list = some b) : ∃ a ∈ list, pick a = some b :=
  List.mem_filterMap.mp (List.mem_of_getLast? last)

theorem plain_meaning_location {block : LocationBlock}
    (plain : ∀ word, TokenKind.word word ∈ block.kinds → Tokenizer.IsPlain word) :
    PlainLocation block.meaning := by
  have words : ∀ item ∈ block.directives, ∀ w ∈ item.words, Tokenizer.IsPlain w := by
    intro item isItem w isWord
    apply plain
    have inItem : TokenKind.word w ∈ item.kinds := by
      simp [LocationDirective.kinds, values, isWord]
    have inItems := List.mem_flatMap.mpr ⟨item, isItem, inItem⟩
    simp [LocationBlock.kinds, inItems]
  constructor
  · apply plain
    simp [LocationBlock.kinds, LocationBlock.meaning]
  · cases last : lastOf LocationDirective.root? block.directives with
    | none =>
      left
      simp [LocationBlock.meaning, last]
    | some root =>
      right
      obtain ⟨item, isItem, picked⟩ := mem_of_lastOf last
      cases item <;> cases picked
      simp only [LocationBlock.meaning, last, Option.getD_some]
      exact words _ isItem root (by simp [LocationDirective.words])
  · intro name isIndex
    obtain ⟨item, isItem, picked⟩ := mem_of_lastOf isIndex
    cases item <;> cases picked
    exact words _ isItem name (by simp [LocationDirective.words])
  · intro target isTarget
    obtain ⟨item, isItem, picked⟩ := mem_of_lastOf isTarget
    cases item <;> cases picked
    exact words _ isItem target (by simp [LocationDirective.words])
  · intro cgi isCgi
    obtain ⟨item, isItem, picked⟩ := mem_of_lastOf isCgi
    cases item with
    | cgi extension interpreter =>
      cases picked
      refine ⟨words _ isItem extension (by simp [LocationDirective.words]), ?_⟩
      cases interpreter with
      | some chosen => exact words _ isItem chosen (by simp [LocationDirective.words])
      | none =>
        dsimp only [Option.getD_none]
        unfold defaultInterpreter
        split_ifs <;> decide
    | _ => cases picked

section
variable {profile : Profile} {tables : CaseTables}

theorem plain_meaning_server {block : ServerBlock profile tables}
    (plain : ∀ word, TokenKind.word word ∈ block.kinds → Tokenizer.IsPlain word) :
    PlainServer block.meaning := by
  have tails : ∀ item ∈ block.directives, ∀ w, TokenKind.word w ∈ item.tail →
      Tokenizer.IsPlain w := by
    intro item isItem w isWord
    apply plain
    have inItem : TokenKind.word w ∈ item.kinds := List.mem_cons_of_mem _ isWord
    have inItems := List.mem_flatMap.mpr ⟨item, isItem, inItem⟩
    simp [ServerBlock.kinds, inItems]
  constructor
  · obtain ⟨item, isItem, picked⟩ := mem_of_lastOf block.isHost
    cases item with
    | host name =>
      rw [ServerDirective.host?, Option.some.injEq] at picked
      rw [ServerBlock.meaning, ← picked]
      exact tails _ isItem name (by simp [ServerDirective.tail, values])
    | _ => cases picked
  · intro name isName
    obtain ⟨item, isItem, picked⟩ := mem_of_lastOf isName
    cases item <;> cases picked
    exact tails _ isItem name (by simp [ServerDirective.tail, values])
  · intro code path found
    obtain ⟨item, isItem, picked⟩ := List.mem_filterMap.mp (HashMap.mem_of_get_ofPairs found)
    cases item <;> cases picked
    exact tails _ isItem path (by simp [ServerDirective.tail, values])
  · intro loc isLocation
    obtain ⟨inner, isInner, rfl⟩ := List.mem_map.mp isLocation
    obtain ⟨item, isItem, picked⟩ := List.mem_filterMap.mp isInner
    cases item <;> cases picked
    exact plain_meaning_location (tails _ isItem)

theorem port_meaning_lt (block : ServerBlock profile tables) : block.meaning.port < UInt16.size := by
  obtain ⟨item, isItem, picked⟩ := mem_of_lastOf block.isPort
  cases item with
  | port number =>
    rw [ServerDirective.port?, Option.some.injEq] at picked
    rw [ServerBlock.meaning, ← picked]
    exact ((Numeral.fromStrRadix_eq_some (by decide) (by decide) _ _).mp number.reads).2.2
  | _ => cases picked

end

section
variable {profile : Profile} {tables : UnicodeTables} {path text : Str} {config : Config}

theorem plain_of_parsed
    (parsed : run (parseConfig profile tables) (Tokenizer.tokenize text) = .ok config)
    {server : ServerConfig} (member : server ∈ config.servers) : PlainServer server := by
  obtain ⟨tree, -, written, rfl⟩ := (run_parseConfig profile tables _ config).mp parsed
  obtain ⟨block, isBlock, rfl⟩ := List.mem_map.mp member
  apply plain_meaning_server
  intro word inBlock
  apply plain_word written
  exact List.mem_flatMap.mpr ⟨block, isBlock, List.mem_cons_of_mem _ inBlock⟩

variable (accepted : fromFile profile tables path (.ok text) = .ok (.ok config))
include accepted

theorem plain_of_accepted {server : ServerConfig} (member : server ∈ config.servers) :
    PlainServer server :=
  plain_of_parsed ((fromFile_ok profile tables path text config).mp accepted).1 member

theorem port_lt_of_accepted {server : ServerConfig} (member : server ∈ config.servers) :
    server.port < UInt16.size := by
  obtain ⟨tree, -, -, rfl⟩ := tree_of_accepted accepted
  obtain ⟨block, isBlock, rfl⟩ := List.mem_map.mp member
  exact port_meaning_lt block

end

end ConfigFile

end LocalServer
