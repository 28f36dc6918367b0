import LocalServer.ConfigFile
import LocalServer.Server

/-! The grouping of `src/main.rs`: the servers with one address share a listener, which picks
among them by the Host header. -/

namespace LocalServer
open Library Machine Text ConfigFile

def groups (servers : List ServerConfig) : HashMap Str (List ServerConfig) :=
  HashMap.groupBy ServerConfig.addr servers

namespace VirtualHosts

/-- Every request has one server that answers it, whatever the order of the server blocks. -/
structure Unambiguous (config : Config) : Prop where
  /-- A group holds configured servers in their order, each as often as the file does. -/
  ordered : ∀ address group, (groups config.servers).get address = some group →
    group.Nodup ∧ group.Sublist config.servers
  grouped : ∀ server ∈ config.servers, ∃! address, ∃ group,
    (groups config.servers).get address = some group ∧ server ∈ group
  shared : ∀ server ∈ config.servers, ∀ other ∈ config.servers,
    (∃ address group, (groups config.servers).get address = some group ∧ server ∈ group ∧
      other ∈ group) ↔ server.host = other.host ∧ server.port = other.port
  named : ∀ servers : List ServerConfig, servers.Perm config.servers →
    ∀ address, ∀ listener : Server, (groups servers).get address = some listener.configs →
      ∀ request, ∀ server ∈ listener.configs, server.serverName = some (Server.host request) →
        listener.matchConfig request = server
  otherwise : ∀ servers : List ServerConfig, servers.Perm config.servers →
    ∀ address, ∀ listener : Server, (groups servers).get address = some listener.configs →
      ∀ request, (∀ server ∈ listener.configs, server.serverName ≠ some (Server.host request)) →
        servers.find? (fun server => server.addr = address) = some (listener.matchConfig request)

theorem get_groups {servers group : List ServerConfig} {address : Str}
    (found : (groups servers).get address = some group) :
    group = servers.filter fun server => server.addr = address :=
  (HashMap.get_groupBy_eq_some.mp found).1

theorem mem_group {servers group : List ServerConfig} {address : Str}
    (found : (groups servers).get address = some group) (server : ServerConfig) :
    server ∈ group ↔ server ∈ servers ∧ server.addr = address := by
  rw [get_groups found, List.mem_filter, decide_eq_true_eq]

theorem exists_group {servers : List ServerConfig} {server : ServerConfig}
    (member : server ∈ servers) :
    ∃ group, (groups servers).get server.addr = some group ∧ server ∈ group := by
  have among : server ∈ servers.filter fun other => other.addr = server.addr := by
    rw [List.mem_filter, decide_eq_true_eq]
    exact ⟨member, rfl⟩
  exact ⟨_, HashMap.get_groupBy_eq_some.mpr ⟨rfl, List.ne_nil_of_mem among⟩, among⟩

theorem colon_not_mem_decimal (n : Nat) : ':' ∉ Response.decimal n := by
  intro member
  exact absurd (Response.isDigit_decimal n member) (by decide)

/-- The port stands after the last colon, so an address tells host and port. -/
theorem addr_inj (server other : ServerConfig) :
    server.addr = other.addr ↔ server.host = other.host ∧ server.port = other.port := by
  have split : server.addr = other.addr ↔
      server.host ++ ':' :: Response.decimal server.port =
        other.host ++ ':' :: Response.decimal other.port := by
    simp [ServerConfig.addr]
  rw [split, append_mark_inj (colon_not_mem_decimal _) (colon_not_mem_decimal _),
    Response.decimal_injective.eq_iff]

theorem key_eq (server : ServerConfig) :
    server.key = server.addr ++ ":".toList ++ server.serverName.getD [] := rfl

theorem eq_of_name {servers : List ServerConfig} (distinct : (servers.map ServerConfig.key).Nodup)
    {server other : ServerConfig} (member : server ∈ servers) (otherMember : other ∈ servers)
    (sameAddr : server.addr = other.addr) (sameName : server.serverName = other.serverName) :
    server = other := by
  apply List.inj_on_of_nodup_map distinct member otherMember
  rw [key_eq, key_eq, sameAddr, sameName]

section
variable {listener : Server} {request : Request}

theorem matchConfig_named {server : ServerConfig} (member : server ∈ listener.configs)
    (isNamed : server.serverName = some (Server.host request))
    (unique : ∀ other ∈ listener.configs, other.serverName = some (Server.host request) →
      other = server) : listener.matchConfig request = server := by
  unfold Server.matchConfig
  cases found : listener.configs.find? fun config => config.serverName = some (Server.host request) with
  | none =>
    have unnamed := List.find?_eq_none.mp found server member
    exact absurd (decide_eq_true isNamed) unnamed
  | some other =>
    have otherNamed := List.find?_some found
    rw [decide_eq_true_eq] at otherNamed
    exact unique other (List.mem_of_find?_eq_some found) otherNamed

theorem matchConfig_unnamed
    (unnamed : ∀ server ∈ listener.configs, server.serverName ≠ some (Server.host request)) :
    listener.matchConfig request = listener.first := by
  have none : listener.configs.find? (fun config => config.serverName = some (Server.host request)) =
      none := by
    rw [List.find?_eq_none]
    intro server member
    rw [decide_eq_true_eq]
    exact unnamed server member
  rw [Server.matchConfig, none, Option.getD_none]

end

theorem find?_addr {servers : List ServerConfig} {address : Str} {listener : Server}
    (found : (groups servers).get address = some listener.configs) :
    servers.find? (fun server => server.addr = address) = some listener.first := by
  have first : listener.configs.head? = some listener.first :=
    List.head?_eq_some_head listener.nonempty
  rw [← first, get_groups found, List.head?_filter]

def hostsText : Str :=
  "server \x7b host h; port 80; server_name a; \x7d server \x7b host h; port 80; server_name b; \x7d".toList

def hostServer (name : Str) : ServerConfig :=
  ⟨"h".toList, 80, some name, 1024 * 1024, HashMap.empty, []⟩

set_option maxRecDepth 4000 in
theorem hosts_accepted : fromFile .release ConfigRejection.plainTables "hosts.conf".toList
    (.ok hostsText) = .ok (.ok ⟨[hostServer "a".toList, hostServer "b".toList]⟩) := by
  rfl

end VirtualHosts

end LocalServer
