import LocalServer.Exchanges
import LocalServer.Segmentation

/-! When a listener stops. Nothing that a client sends can end the loop, except a chunked body
on which the decoder panics. -/

namespace LocalServer.Survival
open Library Machine Action Utf8 Text Segmentation Request RequestFraming Server Loop Footprint Handling

def setUpFails : List AcceptResult → Bool
  | .connected _ _ ready :: rest => !ready || setUpFails rest
  | .failed :: _ | [] => false

/-- What stops the loop: a failed wait, a connection that cannot be set up, and a drained
connection whose bytes so far have a broken body. -/
def Stops (tables : CaseTables) (loop : Loop) : Label → Prop
  | .waitFailed => True
  | .accept results => setUpFails results = true
  | .read _ event results => ending results = .wouldBlock ∧
      ∃ data, loop.readBuffers.get event.fd = some data ∧
        BrokenBody tables (data ++ receivedBytes results)
  | _ => False

/-- What a connection has sent so far is in memory. -/
def Fits (loop : Loop) : Label → Prop
  | .read _ event results => ∀ data, loop.readBuffers.get event.fd = some data →
      Addressable (data ++ receivedBytes results)
  | _ => True

theorem goesOn_acceptConnections (results : List AcceptResult) (loop : Loop) :
    (acceptConnections results loop).1 = !setUpFails results := by
  induction results generalizing loop with
  | nil => rfl
  | cons result results ih =>
    cases result with
    | failed => rfl
    | connected fd time ready =>
      cases ready with
      | false => rfl
      | true => exact ih (opened fd time loop)

section
variable {platform : Platform} {server : Server} {clock : Clock} {world : World}

theorem respond_panics (data : Bytes) :
    (∃ panic, respond platform server clock data world = .error panic) ↔
      ∃ panic, parse platform.tables data = .error panic := by
  cases parsed : parse platform.tables data with
  | error panic =>
    have fails : respond platform server clock data world = .error panic := by
      rw [respond, parsed]
      rfl
    exact ⟨fun _ => ⟨panic, rfl⟩, fun _ => ⟨panic, fails⟩⟩
  | ok found =>
    have returns : ∃ reply, respond platform server clock data world = .ok reply := by
      cases large : tooLarge platform.tables (limits server) data with
      | true => exact ⟨_, (respond_tooLarge clock data world).mp large⟩
      | false =>
        cases found with
        | none => exact ⟨_, respond_unparsed parsed large⟩
        | some request => exact ⟨_, respond_parsed parsed large⟩
    obtain ⟨reply, computed⟩ := returns
    apply iff_of_false
    · intro panics
      obtain ⟨panic, failed⟩ := panics
      cases computed.symm.trans failed
    · intro panics
      obtain ⟨panic, failed⟩ := panics
      cases failed

/-- A read event ends the loop only by a broken body. -/
theorem goesOn_handleRead {fd : Fd} {results : List ReadResult} {loop : Loop}
    (fits : ∀ data, loop.readBuffers.get fd = some data →
      Addressable (data ++ receivedBytes results)) :
    (handleRead platform server clock fd results loop).1 = false ↔
      ending results = .wouldBlock ∧ ∃ data, loop.readBuffers.get fd = some data ∧
        BrokenBody platform.tables (data ++ receivedBytes results) := by
  have broken : ∀ data, loop.readBuffers.get fd = some data →
      ((∃ panic, respond platform server clock (data ++ receivedBytes results) loop.world =
        .error panic) ↔ BrokenBody platform.tables (data ++ receivedBytes results)) := by
    intro data found
    rw [respond_panics, parse_panics (fits data found)]
  have ends := read_ends platform server clock fd results loop
  generalize handleRead platform server clock fd results loop = both at ends
  cases ends with
  | gone ends => exact iff_of_false nofun fun stops => ends stops.1
  | ignored ends unread =>
    refine iff_of_false nofun ?_
    intro stops
    obtain ⟨-, data, found, -⟩ := stops
    cases unread.symm.trans found
  | refused ends found computed | answered ends found computed =>
    refine iff_of_false nofun ?_
    intro stops
    obtain ⟨-, data, found', breaks⟩ := stops
    cases found.symm.trans found'
    obtain ⟨panic, failed⟩ := (broken _ found).mpr breaks
    cases computed.symm.trans failed
  | panicked ends found computed =>
    exact iff_of_true rfl ⟨ends, _, found, (broken _ found).mp ⟨_, computed⟩⟩

end

section
variable {platform : Platform} {server : Server} {listener : Fd} {before after : Loop}
  {label : Label}

theorem stopped_continueWith {goesOn : Bool} {rest : List Event} {loop : Loop} :
    (continueWith goesOn rest loop).phase = .stopped ↔ goesOn = false := by
  cases goesOn with
  | false => exact iff_of_true rfl rfl
  | true => exact iff_of_false nofun nofun

theorem step_stops (running : before.phase ≠ .stopped) (fits : Fits before label)
    (step : Step platform server listener before label after) :
    after.phase = .stopped ↔ Stops platform.tables before label := by
  cases step with
  | wait => exact iff_of_false nofun id
  | waitFailed => exact iff_of_true rfl trivial
  | @accept event rest results phase isListener fresh =>
    rw [stopped_continueWith, goesOn_acceptConnections, Bool.not_eq_false']
    exact Iff.rfl
  | write => exact iff_of_false nofun id
  | @read event rest results clock phase isClient readable =>
    have fits' : ∀ data, (dispatched event before).readBuffers.get event.fd = some data →
        Addressable (data ++ receivedBytes results) := fits
    rw [stopped_continueWith]
    exact goesOn_handleRead fits'
  | again => exact iff_of_false nofun id
  | other => exact iff_of_false running id

end

/-- In a run in which nothing happens that stops it, the loop keeps running, and it is stopped
by the next step exactly if that step is a failed wait, the accept of a connection that cannot
be set up, or a read event after which the connection's bytes have a broken chunked body. -/
theorem listener_survives (platform : Platform) (server : Server) (listener : Fd) (loop : Loop)
    (reached : Reaches (Step platform server listener)
      (fun loop label => Fits loop label ∧ ¬Stops platform.tables loop label) Initial loop) :
    loop.phase ≠ .stopped ∧ ∀ label after, Fits loop label →
      Step platform server listener loop label after →
      (after.phase = .stopped ↔ Stops platform.tables loop label) := by
  have running : loop.phase ≠ .stopped := by
    apply reached.invariant
    · intro start initial
      rw [initial.phase]
      nofun
    · intro before label after running allowed step stopped
      exact allowed.2 ((step_stops running allowed.1 step).mp stopped)
  exact ⟨running, fun label after fits step => step_stops running fits step⟩

theorem listener_survives_webListening :
    webListening.phase ≠ .stopped ∧ ∀ label after, Fits webListening label →
      Step Handler.quietPlatform webServer 3 webListening label after →
      (after.phase = .stopped ↔ Stops asciiTables webListening label) := by
  have waits : Step Handler.quietPlatform webServer 3 webStart (.wait 0 [listenerReady] [])
      webListening :=
    step_wait_early rfl (by simpa using ⟨Or.inl rfl⟩) (by decide) (by decide) (Nat.zero_le _)
  have harmless : Fits webStart (.wait 0 [listenerReady] []) ∧
      ¬Stops asciiTables webStart (.wait 0 [listenerReady] []) := ⟨trivial, id⟩
  exact listener_survives Handler.quietPlatform webServer 3 webListening
    ((Reaches.start initial_webStart).step harmless waits)

end LocalServer.Survival
