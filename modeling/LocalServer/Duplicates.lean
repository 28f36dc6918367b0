import LocalServer.VirtualHosts

/-! Which servers `Config::from_file` takes for the same one. Host, port and name are compared
joined by colons, and both a host and a name may hold colons themselves. -/

namespace LocalServer.Duplicates
open Library Machine Text Parse ConfigParser ConfigFile VirtualHosts

def triple (server : ServerConfig) : Str × Nat × Option Str :=
  (server.host, server.port, server.serverName)

/-- The host of the second runs over the port of the first, whose name runs over the port of
the second. -/
def Confusable (first second : ServerConfig) : Prop :=
  ∃ middle, second.host = first.host ++ ':' :: Response.decimal first.port ++ middle ∧
    ':' :: first.serverName.getD [] =
      middle ++ ':' :: (Response.decimal second.port ++ ':' :: second.serverName.getD [])

theorem key_eq_marks (server : ServerConfig) :
    server.key =
      server.host ++ ':' :: (Response.decimal server.port ++ ':' :: server.serverName.getD []) := by
  simp [ServerConfig.key]

theorem getD_inj {name other : Option Str} (given : ∀ text ∈ name, text ≠ [])
    (otherGiven : ∀ text ∈ other, text ≠ []) : name.getD [] = other.getD [] ↔ name = other := by
  constructor
  · intro same
    cases name with
    | none =>
      cases other with
      | none => rfl
      | some text => exact absurd same.symm (otherGiven text rfl)
    | some text =>
      cases other with
      | none => exact absurd same (given text rfl)
      | some otherText => exact congrArg some same
  · intro same
    rw [same]

theorem key_eq_iff {first second : ServerConfig} (given : ∀ text ∈ first.serverName, text ≠ [])
    (otherGiven : ∀ text ∈ second.serverName, text ≠ []) :
    first.key = second.key ↔
      triple first = triple second ∨ Confusable first second ∨ Confusable second first := by
  rw [key_eq_marks, key_eq_marks,
    append_two_marks (colon_not_mem_decimal _) (colon_not_mem_decimal _),
    getD_inj given otherGiven, Response.decimal_injective.eq_iff, triple, triple, Prod.mk.injEq,
    Prod.mk.injEq]
  rfl

theorem triple_ne_of_confusable {first second : ServerConfig} (confused : Confusable first second) :
    triple first ≠ triple second := by
  obtain ⟨middle, longer, -⟩ := confused
  intro same
  have lengths := congrArg List.length longer
  rw [← (Prod.mk.inj same).1] at lengths
  simp only [List.length_append, List.length_cons] at lengths
  omega

section
variable {profile : Profile} {tables : UnicodeTables} {text : Str} {config : Config}

theorem nodup_keys
    (parsed : run (parseConfig profile tables) (Tokenizer.tokenize text) = .ok config) :
    (config.servers.map ServerConfig.key).Nodup ↔
      (config.servers.map triple).Nodup ∧
        ∀ first ∈ config.servers, ∀ second ∈ config.servers, ¬ Confusable first second := by
  have given : ∀ server ∈ config.servers, ∀ name ∈ server.serverName, name ≠ [] := by
    intro server member name isName
    exact ((plain_of_parsed parsed member).serverName name isName).nonempty
  constructor
  · intro keys
    have triples : (config.servers.map triple).Nodup := by
      apply List.Nodup.map_on _ (List.Nodup.of_map _ keys)
      intro first member second otherMember same
      apply List.inj_on_of_nodup_map keys member otherMember
      exact (key_eq_iff (given first member) (given second otherMember)).mpr (Or.inl same)
    refine ⟨triples, ?_⟩
    intro first member second otherMember confused
    have sameKey := (key_eq_iff (given first member) (given second otherMember)).mpr
      (Or.inr (Or.inl confused))
    have same := List.inj_on_of_nodup_map keys member otherMember sameKey
    exact triple_ne_of_confusable confused (congrArg triple same)
  · rintro ⟨triples, clear⟩
    apply List.Nodup.map_on _ (List.Nodup.of_map _ triples)
    intro first member second otherMember sameKey
    rcases (key_eq_iff (given first member) (given second otherMember)).mp sameKey with
      same | confused | confused
    · exact List.inj_on_of_nodup_map triples member otherMember same
    · exact absurd confused (clear first member second otherMember)
    · exact absurd confused (clear second otherMember first member)

/-- Servers that agree are always found out; servers that differ are let through unless one host
and one name run over the ports. -/
theorem duplicates_exact (path : Str)
    (parsed : run (parseConfig profile tables) (Tokenizer.tokenize text) = .ok config) :
    ((fromFile profile tables path (.ok text) = .ok (.ok config) ↔
        (config.servers.map triple).Nodup) ↔
      ¬ (config.servers.map triple).Nodup ∨
        ∀ first ∈ config.servers, ∀ second ∈ config.servers, ¬ Confusable first second) := by
  have accepted : fromFile profile tables path (.ok text) = .ok (.ok config) ↔
      (config.servers.map triple).Nodup ∧
        ∀ first ∈ config.servers, ∀ second ∈ config.servers, ¬ Confusable first second := by
    rw [fromFile_ok, nodup_keys parsed]
    exact and_iff_right parsed
  rw [accepted]
  by_cases triples : (config.servers.map triple).Nodup
  · simp only [triples, true_and, iff_true, not_true_eq_false, false_or]
  · simp only [triples, false_and, not_false_eq_true, true_or]

end

def colonsText : Str :=
  ("server \x7b host ::1; port 443; server_name 80:www; \x7d ".toList ++
    "server \x7b host ::1:443; port 80; server_name www; \x7d".toList)

def colonsServer (host : Str) (port : Nat) (name : Str) : ServerConfig :=
  ⟨host, port, some name, 1024 * 1024, HashMap.empty, []⟩

def colonsConfig : Config :=
  ⟨[colonsServer "::1".toList 443 "80:www".toList, colonsServer "::1:443".toList 80 "www".toList]⟩

set_option maxRecDepth 4000 in
theorem colons_parsed :
    run (parseConfig .release ConfigRejection.plainTables) (Tokenizer.tokenize colonsText) =
      .ok colonsConfig := by
  rfl

theorem colons_exact :
    (fromFile .release ConfigRejection.plainTables "colons.conf".toList (.ok colonsText) =
          .ok (.ok colonsConfig) ↔ (colonsConfig.servers.map triple).Nodup) ↔
      ¬ (colonsConfig.servers.map triple).Nodup ∨
        ∀ first ∈ colonsConfig.servers, ∀ second ∈ colonsConfig.servers, ¬ Confusable first second :=
  duplicates_exact "colons.conf".toList colons_parsed

/-- Two servers that share neither host nor port nor name are refused as duplicates. -/
theorem colons_refused :
    run (parseConfig .release ConfigRejection.plainTables) (Tokenizer.tokenize colonsText) =
        .ok colonsConfig ∧
      (colonsConfig.servers.map triple).Nodup ∧
      fromFile .release ConfigRejection.plainTables "colons.conf".toList (.ok colonsText) ≠
        .ok (.ok colonsConfig) := by
  refine ⟨colons_parsed, by decide +kernel, ?_⟩
  intro accepted
  have keys := ((fromFile_ok _ _ _ _ _).mp accepted).2
  exact absurd keys (by decide +kernel)

end LocalServer.Duplicates
