import LocalServer.Library.HashMap
import LocalServer.Library.Text

/-! `src/config/mod.rs`: what the servers are configured with. -/

namespace LocalServer
open Library Text

inductive Config.Method where
  | get
  | post
  | delete
  deriving DecidableEq, Repr

structure CGI where
  extension : Str
  interpreter : Str
  deriving DecidableEq, Repr

structure Location where
  path : Str
  root : Str
  index : Option Str
  methods : List Config.Method
  autoindex : Bool
  redirect : Option Str
  cgi : Option CGI
  deriving DecidableEq, Repr

structure ServerConfig where
  host : Str
  port : Nat
  serverName : Option Str
  clientMaxBodySize : Nat
  errorPages : HashMap Nat Str
  locations : List Location

end LocalServer
