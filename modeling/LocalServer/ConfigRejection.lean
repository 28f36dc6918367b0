import LocalServer.ConfigAcceptance

/-! How the parser stops on tokens it does not accept: with an error, never because a loop
was cut short, and with a panic only where a size overflows. -/

namespace LocalServer.ConfigRejection
open Library Machine Text Parse ConfigParser ConfigGrammar ConfigAcceptance

structure Admits (allowed : List TokenKind → Stop → Prop) : Prop where
  rejects : ∀ kinds error, allowed kinds (.rejected error)
  suffix : SuffixClosed allowed

section
variable (tables : UnicodeTables) {allowed : List TokenKind → Stop → Prop} (admits : Admits allowed)
include admits

theorem fails_rejectHere {α : Type} (message : Str) :
    Fails Token.kind (rejectHere message : ParseResult α) allowed :=
  fails_position_fail fun _ _ => admits.rejects _ _

theorem fails_expectWord : Fails Token.kind (expectWord tables) allowed := by
  intro cursor e failed
  unfold expectWord at failed
  rw [bind_apply] at failed
  cases found : cursor.peek with
  | none =>
    simp only [next, found] at failed
    cases failed
    exact admits.rejects _ _
  | some token =>
    obtain ⟨kind, line⟩ := token
    simp only [next, found] at failed
    cases kind <;> cases failed <;> exact admits.rejects _ _

theorem fails_expect (expected : TokenKind) : Fails Token.kind (expect tables expected) allowed := by
  intro cursor e failed
  unfold expect at failed
  rw [bind_apply] at failed
  cases found : cursor.peek with
  | none =>
    simp only [next, found] at failed
    cases failed
    exact admits.rejects _ _
  | some token =>
    simp only [next, found] at failed
    split_ifs at failed
    cases failed
    exact admits.rejects _ _

theorem fails_expectValue : Fails Token.kind (expectValue tables) allowed :=
  (fails_expectWord tables admits).bind admits.suffix (reads_expectWord tables) fun _ =>
    (fails_expect tables admits _).bind admits.suffix (reads_expect tables _) fun _ => fails_pure _

theorem fails_methodTurn (methods : List Config.Method) :
    Fails Token.kind (methodTurn tables methods) allowed := by
  apply fails_peek_bind
  intro found
  split
  · refine (fails_expectWord tables admits).bind admits.suffix (reads_expectWord tables) fun m => ?_
    refine Fails.bind admits.suffix ?_ (reads_methodNamed m) fun _ => fails_pure _
    unfold methodNamed
    split_ifs
    · exact fails_pure _
    · exact fails_pure _
    · exact fails_pure _
    · exact fails_rejectHere admits _
  · exact fails_pure _

theorem fails_locationDirective (name : Str) (loc : Location) :
    Fails Token.kind (locationDirective tables name loc) allowed := by
  have word := fails_expectWord tables admits
  have semicolon := fails_expect tables admits .semicolon
  have value := fails_expectValue tables admits
  unfold locationDirective
  split_ifs
  · exact value.bind admits.suffix (reads_expectValue tables) fun _ => fails_pure _
  · exact value.bind admits.suffix (reads_expectValue tables) fun _ => fails_pure _
  · refine Fails.bind admits.suffix ?_ (reads_methods tables loc.methods) fun _ =>
      semicolon.bind admits.suffix (reads_expect tables _) fun _ => fails_pure _
    exact fails_loop admits.suffix exhausted (itemTurn_moves (by simp [methodKinds]))
      (reads_methodTurn tables) (fails_methodTurn tables admits) _
  · refine word.bind admits.suffix (reads_expectWord tables) fun val => ?_
    refine Fails.bind admits.suffix ?_ (reads_autoindexValue val) fun _ =>
      semicolon.bind admits.suffix (reads_expect tables _) fun _ => fails_pure _
    unfold autoindexValue
    split_ifs
    · exact fails_pure _
    · exact fails_pure _
    · exact fails_rejectHere admits _
  · exact value.bind admits.suffix (reads_expectValue tables) fun _ => fails_pure _
  · refine word.bind admits.suffix (reads_expectWord tables) fun ext => ?_
    refine Fails.bind admits.suffix ?_ (reads_interpreter tables ext) fun _ =>
      semicolon.bind admits.suffix (reads_expect tables _) fun _ => fails_pure _
    apply fails_peek_bind
    intro found
    split
    · exact word
    · exact fails_pure _
  · exact fails_rejectHere admits _

theorem fails_blockTurn {σ : Type} {parseDirective : Str → σ → ParseResult σ}
    (fails : ∀ name state, Fails Token.kind (parseDirective name state)
      fun kinds e => allowed (.word name :: kinds) e) (block : Str) (state : σ) :
    Fails Token.kind (blockTurn tables parseDirective block state) allowed := by
  apply fails_peek_bind
  intro found
  split
  · exact fails_pure _
  · exact fails_next
  · refine (fails_expectWord tables admits).bind_of (reads_expectWord tables) ?_
    intro name first cursor e failed isWord
    rw [isWord]
    rw [bind_apply] at failed
    cases ran : parseDirective name state cursor with
    | error e' =>
      rw [ran] at failed
      cases failed
      exact fails name state cursor _ ran
    | ok result =>
      rw [ran] at failed
      cases failed
  · exact fails_rejectHere admits _

theorem fails_parseLocation : Fails Token.kind (parseLocation tables) allowed := by
  have named : ∀ item : LocationDirective, ∃ name words, item.kinds = .word name :: words :=
    fun item => ⟨_, _, rfl⟩
  have reads := reads_locationDirective tables
  have nonempty : ∀ item : LocationDirective, item.kinds ≠ [] := by
    intro item
    simp [LocationDirective.kinds]
  refine (fails_expectWord tables admits).bind admits.suffix (reads_expectWord tables) fun path => ?_
  refine (fails_expect tables admits _).bind admits.suffix (reads_expect tables _) fun _ => ?_
  refine Fails.bind admits.suffix ?_ (reads_block tables named reads _ _) fun result => ?_
  · apply fails_loop admits.suffix exhausted (itemTurn_moves nonempty)
      (reads_blockTurn tables named reads _)
    apply fails_blockTurn tables admits
    intro name loc
    exact (fails_locationDirective tables admits name loc).mono fun kinds e =>
      admits.suffix [.word name] kinds e
  · obtain ⟨closed, loc⟩ := result
    dsimp only
    split_ifs
    · exact fails_rejectHere admits _
    · exact fails_rejectHere admits _
    · exact fails_pure _

end

section
variable (tables : UnicodeTables) (profile : Profile)

def Overflows (kinds : List TokenKind) : Prop :=
  ∃ w panic, [.word "client_max_body_size".toList, .word w] <:+: kinds ∧
    parseBodySize profile tables.toCaseTables w = .error panic

def Explained (kinds : List TokenKind) (stop : Stop) : Prop :=
  (∃ error, stop = .rejected error) ∨ Overflows tables profile kinds

theorem admits_explained : Admits (Explained tables profile) := by
  refine ⟨fun _ error => Or.inl ⟨error, rfl⟩, ?_⟩
  intro before rest stop explained
  refine explained.imp_right ?_
  intro overflows
  obtain ⟨w, panic, infix', panics⟩ := overflows
  exact ⟨w, panic, infix'.trans (List.suffix_append before rest).isInfix, panics⟩

theorem fails_serverDirective (name : Str) (fields : Fields) :
    Fails Token.kind (serverDirective profile tables name fields)
      fun kinds e => Explained tables profile (.word name :: kinds) e := by
  have admits := admits_explained tables profile
  have after : ∀ {α : Type} {parser : ParseResult α},
      Fails Token.kind parser (Explained tables profile) →
        Fails Token.kind parser fun kinds e => Explained tables profile (.word name :: kinds) e :=
    fun fails => fails.mono fun kinds e => admits.suffix [.word name] kinds e
  have word := fails_expectWord tables admits
  have semicolon := fails_expect tables admits .semicolon
  have value := fails_expectValue tables admits
  unfold serverDirective
  split_ifs with host port serverName size
  · exact after (value.bind admits.suffix (reads_expectValue tables) fun _ => fails_pure _)
  · refine after (word.bind admits.suffix (reads_expectWord tables) fun raw => ?_)
    split
    · exact fails_rejectHere admits _
    · exact semicolon.bind admits.suffix (reads_expect tables _) fun _ => fails_pure _
  · exact after (value.bind admits.suffix (reads_expectValue tables) fun _ => fails_pure _)
  · subst size
    refine Fails.bind_of ?_ (reads_expectWord tables) fun raw first => ?_
    · exact after word
    · have behind : ∀ {parser : ParseResult Fields}, Fails Token.kind parser (Explained tables profile) →
          Fails Token.kind parser fun rest e => first = [.word raw] →
            Explained tables profile (.word "client_max_body_size".toList :: (first ++ rest)) e :=
        fun fails => fails.mono fun rest e explained _ => admits.suffix (_ :: first) rest e explained
      cases found : parseBodySize profile tables.toCaseTables raw with
      | error panic =>
        intro cursor e failed isWord
        rw [isWord]
        exact Or.inr ⟨raw, panic, List.prefix_append [_, _] _ |>.isInfix, found⟩
      | ok result =>
        cases result with
        | error message => exact behind (fails_rejectHere admits message)
        | ok bytes => exact behind (semicolon.bind admits.suffix (reads_expect tables _) fun _ =>
            fails_pure _)
  · refine after (word.bind admits.suffix (reads_expectWord tables) fun raw => ?_)
    split
    · exact fails_rejectHere admits _
    · exact value.bind admits.suffix (reads_expectValue tables) fun _ => fails_pure _
  · refine after ((fails_parseLocation tables admits).bind admits.suffix
      (reads_parseLocation tables) fun _ => fails_pure _)
  · exact after (fails_rejectHere admits _)

theorem fails_parseServer : Fails Token.kind (parseServer profile tables)
    (Explained tables profile) := by
  have admits := admits_explained tables profile
  have named : ∀ item : ServerDirective profile tables.toCaseTables,
      ∃ name words, item.kinds = .word name :: words := fun item => ⟨_, _, rfl⟩
  have nonempty : ∀ item : ServerDirective profile tables.toCaseTables, item.kinds ≠ [] := by
    intro item
    simp [ServerDirective.kinds]
  have reads := reads_serverDirective tables profile
  refine (fails_expect tables admits _).bind admits.suffix (reads_expect tables _) fun _ => ?_
  refine Fails.bind admits.suffix ?_ (reads_block tables named reads _ _) fun result => ?_
  · apply fails_loop admits.suffix exhausted (itemTurn_moves nonempty)
      (reads_blockTurn tables named reads _)
    exact fails_blockTurn tables admits (fails_serverDirective tables profile) _
  · obtain ⟨closed, fields⟩ := result
    dsimp only
    split_ifs
    · exact fails_rejectHere admits _
    · split
      · exact fails_rejectHere admits _
      · exact fails_rejectHere admits _
      · exact fails_pure _

theorem fails_parseConfig : Fails Token.kind (parseConfig profile tables)
    (Explained tables profile) := by
  have admits := admits_explained tables profile
  have nonempty : ∀ block : ServerBlock profile tables.toCaseTables,
      serverKinds tables profile block ≠ [] := by
    intro block
    simp [serverKinds]
  have reads := reads_configTurn tables profile
  refine Fails.bind admits.suffix ?_ (reads_items exhausted nonempty reads _) fun servers => ?_
  · apply fails_loop admits.suffix exhausted (itemTurn_moves nonempty) reads
    intro servers
    apply fails_peek_bind
    intro found
    split
    · exact fails_pure _
    · refine (fails_expectWord tables admits).bind admits.suffix (reads_expectWord tables) fun _ => ?_
      split_ifs
      · exact (fails_parseServer tables profile).bind admits.suffix
          (reads_parseServer tables profile) fun _ => fails_pure _
      · exact fails_rejectHere admits _
  · cases servers with
    | nil => exact fails_fail fun _ => admits.rejects _ _
    | cons first rest => exact fails_pure _

end

/-! The whole parser -/

theorem run_parseConfig (profile : Profile) (tables : UnicodeTables) (tokens : List Token)
    (config : Config) : run (parseConfig profile tables) tokens = .ok config ↔
      ∃ tree : ConfigTree profile tables.toCaseTables, tree.Named ∧
        tokens.map Token.kind = tree.kinds ∧ config = tree.meaning := by
  rw [run_eq_ok (reads_parseConfig tables profile)]
  constructor
  · intro read
    obtain ⟨_, _, whole, tree, named, rfl, rfl, rfl⟩ := read
    exact ⟨tree, named, by rw [whole, List.append_nil], rfl⟩
  · intro written
    obtain ⟨tree, named, whole, rfl⟩ := written
    exact ⟨tree.kinds, [], by rw [whole, List.append_nil], tree, named, rfl, rfl, rfl⟩

/-- The parser accepts exactly the tokens of trees whose locations have a path, and refuses
all others. -/
theorem parseConfig_exact (profile : Profile) (tables : UnicodeTables) (tokens : List Token) :
    (∀ config, run (parseConfig profile tables) tokens = .ok config ↔
      ∃ tree : ConfigTree profile tables.toCaseTables, tree.Named ∧
        tokens.map Token.kind = tree.kinds ∧ config = tree.meaning) ∧
    ((¬∃ tree : ConfigTree profile tables.toCaseTables, tree.Named ∧
        tokens.map Token.kind = tree.kinds) →
      ¬Overflows tables profile (tokens.map Token.kind) →
        ∃ error, run (parseConfig profile tables) tokens = .error (.rejected error)) := by
  refine ⟨run_parseConfig profile tables tokens, ?_⟩
  intro noTree fits
  cases result : run (parseConfig profile tables) tokens with
  | ok config =>
    obtain ⟨tree, named, whole, -⟩ := (run_parseConfig profile tables tokens config).mp result
    exact absurd ⟨tree, named, whole⟩ noTree
  | error stop =>
    have failed : parseConfig profile tables ⟨tokens, 0⟩ = .error stop := by
      unfold run at result
      cases ran : parseConfig profile tables ⟨tokens, 0⟩ with
      | ok pair =>
        rw [ran] at result
        cases result
      | error other =>
        rw [ran] at result
        cases result
        rfl
    rcases fails_parseConfig tables profile _ _ failed with rejected | overflows
    · obtain ⟨error, rfl⟩ := rejected
      exact ⟨error, rfl⟩
    · exact absurd overflows fits

def plainTables : UnicodeTables := ⟨asciiTables, fun _ => false⟩

def namelessTree : ConfigTree .dev asciiTables where
  servers := [{
    directives := [.host "h".toList, .port ⟨"1".toList, 1, by decide⟩, .location ⟨[], []⟩]
    host := "h".toList
    isHost := by decide
    port := 1
    isPort := by decide }]
  nonempty := by simp

def namelessTokens : List Token := namelessTree.kinds.map fun kind => ⟨kind, 1⟩

/-- The parser checks that a location has a path. -/
theorem nameless_refused : namelessTokens.map Token.kind = namelessTree.kinds ∧
    run (parseConfig .dev plainTables) namelessTokens =
      .error (.rejected ⟨"Location path cannot be empty".toList, 12⟩) :=
  ⟨rfl, rfl⟩

end LocalServer.ConfigRejection
