import LocalServer.Handler
import LocalServer.Library.Descriptors
import LocalServer.Library.Transition

/-! `src/server.rs`: the event loop of one listener, with the results of its system calls
as inputs. -/

namespace LocalServer
open Library Machine Utf8 Text

structure Server where
  configs : List ServerConfig
  nonempty : configs ≠ []

namespace Server

def first (server : Server) : ServerConfig := server.configs.head server.nonempty

def host (request : Request) : Str :=
  match request.headers.get "host".toList with
  | none => []
  | some value => (value.splitOnP (· == ':')).headD []

def matchConfig (server : Server) (request : Request) : ServerConfig :=
  (server.configs.find? fun config => config.serverName = some (host request)).getD server.first

/-- The configuration whose size limit the bytes received so far are held to. -/
def limitConfig (server : Server) : Option Request → ServerConfig
  | some request => server.matchConfig request
  | none => server.first

/-- The query string moves from the path to a header of its own. -/
def splitQuery (request : Request) : Request :=
  match splitOnce '?' request.path with
  | some (path, query) =>
    { request with path, headers := request.headers.insert "x-query-string".toList query }
  | none => { request with headers := request.headers.insert "x-query-string".toList [] }

inductive Reply where
  /-- More bytes than the limit: the bytes are kept, and counted again with the next ones. -/
  | tooLarge
  | answered (response : Response) (world : World)

def Reply.response : Reply → Response
  | .tooLarge => .error .contentTooLarge
  | .answered response _ => response

/-- The checks of `handle_read` on a drained buffer. The limit is compared with the whole
request, head included. -/
def respond (platform : Platform) (server : Server) (clock : Clock) (data : Bytes) (world : World) :
    Checked Reply := do
  let parsed ← Request.parse platform.tables data
  if (server.limitConfig parsed).clientMaxBodySize < data.length then pure .tooLarge
  else
    match parsed with
    | none => pure (.answered (.error .badRequest) world)
    | some request =>
      let request := splitQuery request
      let (response, world) :=
        Handler.buildResponse platform clock request (server.matchConfig request) world
      pure (.answered response world)

end Server

def timeoutSecs : Nat := 30

def maxEvents : Nat := 128

structure Event where
  fd : Fd
  writable : Bool
  /-- The connection it is reported for. -/
  connection : Nat
  deriving DecidableEq, Repr

/-- What one `accept` brings: a connection that can be set up or not, or an error.
A list of these ends where `accept` would block. -/
inductive AcceptResult where
  | connected (fd : Fd) (time : Nat) (ready : Bool)
  | failed
  deriving DecidableEq, Repr

inductive Phase where
  | waiting
  | dispatching (events : List Event)
  /-- `run` has returned an error or panicked. -/
  | stopped
  deriving DecidableEq, Repr

/-- The loop's variables, the kernel below it and the world its handlers change. -/
structure Loop where
  phase : Phase
  readBuffers : HashMap Fd Bytes
  writeBuffers : HashMap Fd Bytes
  connectTimes : HashMap Fd Nat
  kernel : Kernel
  world : World

namespace Loop

def issue (call : Call) : Action Loop Unit := fun loop =>
  ((), { loop with kernel := loop.kernel.issue call })

def removeRead (fd : Fd) : Action Loop Unit := fun loop =>
  ((), { loop with readBuffers := loop.readBuffers.remove fd })

def removeWrite (fd : Fd) : Action Loop Unit := fun loop =>
  ((), { loop with writeBuffers := loop.writeBuffers.remove fd })

def removeTime (fd : Fd) : Action Loop Unit := fun loop =>
  ((), { loop with connectTimes := loop.connectTimes.remove fd })

def setWrite (fd : Fd) (data : Bytes) : Action Loop Unit := fun loop =>
  ((), { loop with writeBuffers := loop.writeBuffers.insert fd data })

def extendRead (fd : Fd) (segment : Bytes) : Action Loop Unit := fun loop =>
  match loop.readBuffers.get fd with
  | none => ((), loop)
  | some data => ((), { loop with readBuffers := loop.readBuffers.insert fd (data ++ segment) })

def track (fd : Fd) (time : Nat) : Action Loop Unit := fun loop =>
  ((), { loop with
    readBuffers := loop.readBuffers.insert fd []
    connectTimes := loop.connectTimes.insert fd time })

end Loop

namespace Server
open Loop

/-- `accept_connections`: whether the loop goes on. A connection that cannot be set up is
dropped, which closes it, and ends the loop. -/
def acceptConnections : List AcceptResult → Action Loop Bool
  | [] => pure true
  | .failed :: _ => pure true
  | .connected fd time ready :: rest => do
    issue (.accept fd)
    if ready then
      issue (.register fd)
      track fd time
      acceptConnections rest
    else
      issue (.close fd)
      pure false

/-- The read loop: whether the socket was drained. -/
def drain (fd : Fd) : List ReadResult → Action Loop Bool
  | .received segment :: rest => do
    issue (.read fd (.received segment))
    extendRead fd segment
    drain fd rest
  | .closed :: _ => do
    issue (.read fd .closed)
    issue (.unregister fd)
    removeRead fd
    removeWrite fd
    pure false
  | .failed :: _ => do
    issue (.read fd .failed)
    issue (.unregister fd)
    removeRead fd
    removeWrite fd
    issue (.close fd)
    pure false
  | .wouldBlock :: _ | [] => do
    issue (.read fd .wouldBlock)
    pure true

def queue (fd : Fd) (response : Response) : Action Loop Unit := do
  setWrite fd response.serializeResponse
  issue (.watchWrite fd)

section
variable (platform : Platform) (server : Server) (clock : Clock)

/-- The end of `handle_read`, after the socket was drained; `false` when the parser panics,
which drops the stream and so closes it. -/
def answer (fd : Fd) : Action Loop Bool := fun loop =>
  match loop.readBuffers.get fd with
  | none => (true, (removeRead fd loop).2)
  | some data =>
    match respond platform server clock data loop.world with
    | .error _ => (false, (issue (.close fd) loop).2)
    | .ok .tooLarge => (true, (queue fd (.error .contentTooLarge) loop).2)
    | .ok (.answered response world) =>
      (true, (removeRead fd (queue fd response { loop with world }).2).2)

def handleRead (fd : Fd) (results : List ReadResult) : Action Loop Bool := do
  if ← drain fd results then answer platform server clock fd else pure true

section
variable {platform server clock} {fd : Fd} {loop : Loop}

theorem answer_no_buffer (found : loop.readBuffers.get fd = none) :
    answer platform server clock fd loop = (true, (removeRead fd loop).2) := by
  simp only [answer, found]

variable {data : Bytes} (found : loop.readBuffers.get fd = some data)
include found

theorem answer_panics {panic : Panic}
    (computed : respond platform server clock data loop.world = .error panic) :
    answer platform server clock fd loop = (false, (issue (.close fd) loop).2) := by
  simp only [answer, found, computed]

theorem answer_tooLarge (computed : respond platform server clock data loop.world = .ok .tooLarge) :
    answer platform server clock fd loop =
      (true, (queue fd (.error .contentTooLarge) loop).2) := by
  simp only [answer, found, computed]

theorem answer_answered {response : Response} {world : World}
    (computed : respond platform server clock data loop.world = .ok (.answered response world)) :
    answer platform server clock fd loop =
      (true, (removeRead fd (queue fd response { loop with world }).2).2) := by
  simp only [answer, found, computed]

end

end

/-- After the last byte: shut down, then close. -/
def finishWrite (fd : Fd) : Action Loop Unit := do
  issue (.unregister fd)
  removeWrite fd
  issue (.shutdown fd)
  issue (.close fd)

def abandonWrite (fd : Fd) : Action Loop Unit := do
  issue (.unregister fd)
  removeWrite fd
  issue (.close fd)

def writeLoop (fd : Fd) (data : Bytes) (results : List WriteResult) : Action Loop Unit :=
  if data = [] then finishWrite fd
  else
    match results with
    | .wrote count :: rest => do
      issue (.write fd data (.wrote count))
      if count = 0 then abandonWrite fd
      else
        setWrite fd (data.drop count)
        writeLoop fd (data.drop count) rest
    | .failed :: _ => do
      issue (.write fd data .failed)
      abandonWrite fd
    | .wouldBlock :: _ | [] => issue (.write fd data .wouldBlock)

def handleWrite (fd : Fd) (results : List WriteResult) : Action Loop Unit := fun loop =>
  match loop.writeBuffers.get fd with
  | none => finishWrite fd loop
  | some data => writeLoop fd data results loop

def closeTimedOut : List Fd → Action Loop Unit
  | [] => pure ()
  | fd :: rest => do
    issue (.unregister fd)
    removeRead fd
    removeWrite fd
    removeTime fd
    issue (.close fd)
    closeTimedOut rest

end Server

/-! The loop -/

namespace Loop

def TimedOut (loop : Loop) (now : Nat) (fd : Fd) : Prop :=
  ∃ time, loop.connectTimes.get fd = some time ∧ timeoutSecs < (now - time) / nanosPerSec

/-- What `epoll_wait` can report: the listener, or a registered connection. -/
structure Reported (loop : Loop) (listener : Fd) (event : Event) : Prop where
  registered : event.fd = listener ∨ loop.kernel.owner event.fd = some event.connection ∧
    ∃ interest, loop.kernel.interest.get event.fd = some interest ∧
      (event.writable = true → interest = .writable)

def acceptedFds (results : List AcceptResult) : List Fd :=
  results.filterMap fun result =>
    match result with
    | .connected fd _ _ => some fd
    | .failed => none

/-- `accept` returns descriptors that are not in use here. -/
structure Fresh (loop : Loop) (listener : Fd) (results : List AcceptResult) : Prop where
  distinct : (acceptedFds results).Nodup
  unused : ∀ fd ∈ acceptedFds results, fd ≠ listener ∧ loop.kernel.owner fd = none

inductive Label where
  | wait (now : Nat) (events : List Event) (timedOut : List Fd)
  | waitFailed
  | accept (results : List AcceptResult)
  | write (event : Event) (results : List WriteResult)
  | read (clock : Clock) (event : Event) (results : List ReadResult)
  | again
  /-- Another thread or process changes files or sessions. -/
  | other (world : World)

def leave (loop : Loop) : Loop :=
  { loop with
    phase := .stopped
    readBuffers := HashMap.empty
    writeBuffers := HashMap.empty
    connectTimes := HashMap.empty }

def continueWith (goesOn : Bool) (rest : List Event) (loop : Loop) : Loop :=
  if goesOn then { loop with phase := .dispatching rest } else loop.leave

def dispatched (event : Event) (loop : Loop) : Loop :=
  (issue (.dispatch event.fd event.connection) loop).2

open Server

inductive Step (platform : Platform) (server : Server) (listener : Fd) :
    Loop → Label → Loop → Prop where
  | wait {loop : Loop} {now : Nat} {events : List Event} {timedOut : List Fd}
      (phase : loop.phase = .waiting)
      (reported : ∀ event ∈ events, loop.Reported listener event)
      (distinct : (events.map Event.fd).Nodup) (bounded : events.length ≤ maxEvents)
      (each : timedOut.Nodup) (expired : ∀ fd, fd ∈ timedOut ↔ loop.TimedOut now fd) :
      Step platform server listener loop (.wait now events timedOut)
        { (closeTimedOut timedOut loop).2 with phase := .dispatching events }
  | waitFailed {loop : Loop} (phase : loop.phase = .waiting) :
      Step platform server listener loop .waitFailed loop.leave
  | accept {loop : Loop} {event : Event} {rest : List Event} {results : List AcceptResult}
      (phase : loop.phase = .dispatching (event :: rest)) (isListener : event.fd = listener)
      (fresh : loop.Fresh listener results) :
      Step platform server listener loop (.accept results)
        (continueWith (acceptConnections results loop).1 rest (acceptConnections results loop).2)
  | write {loop : Loop} {event : Event} {rest : List Event} {results : List WriteResult}
      (phase : loop.phase = .dispatching (event :: rest)) (isClient : event.fd ≠ listener)
      (writable : event.writable = true) :
      Step platform server listener loop (.write event results)
        (continueWith true rest
          (removeTime event.fd (handleWrite event.fd results (dispatched event loop)).2).2)
  | read {loop : Loop} {event : Event} {rest : List Event} {results : List ReadResult}
      {clock : Clock} (phase : loop.phase = .dispatching (event :: rest))
      (isClient : event.fd ≠ listener) (readable : event.writable = false) :
      Step platform server listener loop (.read clock event results)
        (continueWith (handleRead platform server clock event.fd results (dispatched event loop)).1
          rest (handleRead platform server clock event.fd results (dispatched event loop)).2)
  | again {loop : Loop} (phase : loop.phase = .dispatching []) :
      Step platform server listener loop .again { loop with phase := .waiting }
  | other {loop : Loop} {world : World} :
      Step platform server listener loop (.other world) { loop with world }

structure Initial (loop : Loop) : Prop where
  phase : loop.phase = .waiting
  readBuffers : loop.readBuffers = HashMap.empty
  writeBuffers : loop.writeBuffers = HashMap.empty
  connectTimes : loop.connectTimes = HashMap.empty
  kernel : loop.kernel = Kernel.new

theorem not_timedOut {loop : Loop} {now : Nat} (early : now ≤ timeoutSecs * nanosPerSec) (fd : Fd) :
    ¬loop.TimedOut now fd := by
  intro expired
  obtain ⟨time, -, late⟩ := expired
  have bound : (now - time) / nanosPerSec ≤ timeoutSecs :=
    Nat.div_le_of_le_mul (by rw [Nat.mul_comm]; omega)
  omega

/-- Nothing times out in the first thirty seconds. -/
theorem step_wait_early {platform : Platform} {server : Server} {listener : Fd} {loop : Loop}
    {now : Nat} {events : List Event} (phase : loop.phase = .waiting)
    (reported : ∀ event ∈ events, loop.Reported listener event)
    (distinct : (events.map Event.fd).Nodup) (bounded : events.length ≤ maxEvents)
    (early : now ≤ timeoutSecs * nanosPerSec) :
    Step platform server listener loop (.wait now events [])
      { loop with phase := .dispatching events } :=
  .wait phase reported distinct bounded List.nodup_nil
    (fun fd => by simp [not_timedOut early fd])

def webServer : Server := ⟨[Handler.webConfig], by simp⟩

def webStart : Loop :=
  ⟨.waiting, HashMap.empty, HashMap.empty, HashMap.empty, Kernel.new, Handler.emptyWorld⟩

theorem initial_webStart : Initial webStart := ⟨rfl, rfl, rfl, rfl, rfl⟩

def Label.Calm : Label → Prop
  | .wait _ _ timedOut => timedOut = []
  | .accept _ | .again => True
  | _ => False

def listenerReady : Event := ⟨3, false, 0⟩

def webListening : Loop := { webStart with phase := .dispatching [listenerReady] }

def webConnected : Loop :=
  { (acceptConnections [.connected 7 0 true] webListening).2 with phase := .waiting }

def requestReady : Event := ⟨7, false, 0⟩

theorem reaches_webConnected (platform : Platform) :
    Reaches (Step platform webServer 3) (fun _ label => label.Calm) Initial webConnected := by
  have waits : Step platform webServer 3 webStart (.wait 0 [listenerReady] []) webListening :=
    step_wait_early rfl (by simpa using ⟨Or.inl rfl⟩) (by decide) (by decide) (Nat.zero_le _)
  have accepts : Step platform webServer 3 webListening (.accept [.connected 7 0 true])
      { webConnected with phase := .dispatching [] } :=
    .accept rfl rfl ⟨by decide, by decide +kernel⟩
  have again : Step platform webServer 3 { webConnected with phase := .dispatching [] } .again
      webConnected := .again rfl
  exact (((Reaches.start initial_webStart).step (by rfl) waits).step (by trivial) accepts).step
    (by trivial) again

end Loop

end LocalServer
