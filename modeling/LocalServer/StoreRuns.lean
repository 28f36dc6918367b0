import LocalServer.Handled
import LocalServer.Relevance
import LocalServer.StoreServing

/-! The event loop as a store. Requests arrive on any number of connections, in pieces, between
writes, timeouts and failures; each is answered by the store that the requests handled before it
have left. -/

namespace LocalServer.StoreRuns
open Library Action Machine Utf8 Text Request Handler Server Loop Footprint Handling Effects
  UploadCycle StoreServing Relevance ErrorPages ResponseFraming Handled

/-- The request that received bytes are, if they are within the limit. -/
def admitted (platform : Platform) (server : Server) (clock : Clock) (data : Bytes) : Option Visit :=
  match parse platform.tables data with
  | .ok (some request) =>
    if (server.matchConfig request).clientMaxBodySize < data.length then none
    else some ⟨clock, splitQuery request, server.matchConfig request⟩
  | _ => none

def handed (platform : Platform) (server : Server) (loop : Loop) : Label → Option Visit
  | .read clock event results =>
    if ending results = .wouldBlock then
      (loop.readBuffers.get event.fd).bind fun before =>
        admitted platform server clock (before ++ receivedBytes results)
    else none
  | _ => none

/-- Other threads and processes leave the shelf as it is, and the request a step hands on, if
it does, means the wish. -/
structure Asks (platform : Platform) (server : Server) {κ : Type} {config : ServerConfig}
    (shelf : Shelf κ config) (loop : Loop) (label : Label) (wish : Option (Wish κ)) : Prop where
  spared : ∀ world, label = .other world → ∀ store, shelf.Holds loop.world store →
    shelf.Holds world store
  means : Option.Rel shelf.Means (handed platform server loop label) wish

/-! What a step does to the files and sessions -/

section
variable {platform : Platform} {server : Server} {clock : Clock} {data : Bytes} {world : World}

theorem respond_admitted {visit : Visit}
    (isAdmitted : admitted platform server clock data = some visit) :
    respond platform server clock data world =
      .ok (.answered (serve platform visit world).1 (serve platform visit world).2) := by
  unfold admitted at isAdmitted
  cases parsed : parse platform.tables data with
  | error panic =>
    rw [parsed] at isAdmitted
    cases isAdmitted
  | ok found =>
    rw [parsed] at isAdmitted
    cases found with
    | none => cases isAdmitted
    | some request =>
      dsimp only at isAdmitted
      split_ifs at isAdmitted with large
      cases isAdmitted
      exact respond_some parsed large

theorem respond_unadmitted {response : Response} {after : World}
    (notAdmitted : admitted platform server clock data = none)
    (computed : respond platform server clock data world = .ok (.answered response after)) :
    after = world := by
  unfold admitted at notAdmitted
  cases parsed : parse platform.tables data with
  | error panic =>
    simp only [respond, parsed, bind, Except.bind] at computed
    cases computed
  | ok found =>
    cases found with
    | none =>
      simp only [respond, parsed, bind, Except.bind] at computed
      split_ifs at computed
      · cases computed
      · cases computed
        rfl
    | some request =>
      rw [parsed] at notAdmitted
      dsimp only at notAdmitted
      split_ifs at notAdmitted with large
      rw [respond_request parsed, if_pos large] at computed
      cases computed

end

section
variable {platform : Platform} {server : Server} {before after : Loop} {goesOn : Bool}
  {clock : Clock} {event : Event} {results : List ReadResult}
  (ends : ReadEnd platform server clock event.fd results before (goesOn, after))
include ends

theorem read_unhanded (unhanded : handed platform server before (.read clock event results) = none) :
    after.world = before.world := by
  cases ends with
  | gone ends reads writes interest world => exact world
  | ignored ends unread reads writes owner interest world => exact world
  | refused ends found computed reads queued world => exact world
  | panicked ends found computed owner world => exact world
  | answered ends found computed reads queued =>
    simp only [handed, if_pos ends, found, Option.bind_some] at unhanded
    exact respond_unadmitted unhanded computed

theorem read_handed {visit : Visit}
    (isHanded : handed platform server before (.read clock event results) = some visit) :
    goesOn = true ∧ after.world = (serve platform visit before.world).2 ∧
      after.writeBuffers.get event.fd =
        some (serve platform visit before.world).1.serializeResponse := by
  unfold handed at isHanded
  dsimp only at isHanded
  split_ifs at isHanded with drained
  obtain ⟨data, buffer, isAdmitted⟩ := Option.bind_eq_some_iff.mp isHanded
  have answered := @respond_admitted _ _ _ _ before.world _ isAdmitted
  cases ends with
  | gone ends reads writes interest world => exact absurd drained ends
  | ignored ends unread reads writes owner interest world =>
    rw [unread] at buffer
    cases buffer
  | refused ends found computed reads queued world =>
    rw [found] at buffer
    cases buffer
    rw [answered] at computed
    cases computed
  | panicked ends found computed owner world =>
    rw [found] at buffer
    cases buffer
    rw [answered] at computed
    cases computed
  | answered ends found computed reads queued =>
    rw [found] at buffer
    cases buffer
    rw [answered, Except.ok.injEq, Reply.answered.injEq] at computed
    obtain ⟨sameResponse, sameWorld⟩ := computed
    exact ⟨rfl, sameWorld.symm, sameResponse ▸ queued.writes⟩

end

section
variable {platform : Platform} {server : Server} {listener : Fd} {κ : Type}
  {config : ServerConfig} {shelf : Shelf κ config} {before after : Loop}

/-- A step of the loop's own that hands no request on changes nothing. -/
theorem world_unhanded {label : Label} (own : ¬Foreign label)
    (unhanded : handed platform server before label = none)
    (steps : Step platform server listener before label after) : after.world = before.world := by
  by_cases isRead : ∃ clock event results, label = .read clock event results
  · obtain ⟨clock, event, results, rfl⟩ := isRead
    cases steps with
    | read phase isClient readable =>
      have ends := read_ends platform server clock event.fd results (dispatched event before)
      generalize handleRead platform server clock event.fd results (dispatched event before) = both
        at ends ⊢
      obtain ⟨goesOn, read⟩ := both
      have same := read_unhanded ends unhanded
      cases goesOn <;> exact same
  · exact world_step own (fun clock event results same => isRead ⟨clock, event, results, same⟩) steps

theorem step_unhanded {label : Label} {store : κ → Option Bytes} (holds : shelf.Holds before.world store)
    (spared : ∀ world, label = .other world → ∀ store, shelf.Holds before.world store →
      shelf.Holds world store)
    (unhanded : handed platform server before label = none)
    (steps : Step platform server listener before label after) : shelf.Holds after.world store := by
  by_cases foreign : Foreign label
  · cases steps with
    | @other world => exact spared world rfl store holds
    | _ => exact absurd foreign id
  · exact holds.files (congrArg World.files (world_unhanded foreign unhanded steps))

/-- A step that hands a request on is a step of the handlers, and queues their answer. -/
theorem step_handed {clock : Clock} {event : Event} {results : List ReadResult} {visit : Visit}
    (isHanded : handed platform server before (.read clock event results) = some visit)
    (steps : Step platform server listener before (.read clock event results) after) :
    after.world = (serve platform visit before.world).2 ∧
      after.writeBuffers.get event.fd =
        some (serve platform visit before.world).1.serializeResponse := by
  cases steps with
  | read phase isClient readable =>
    have ends := read_ends platform server clock event.fd results (dispatched event before)
    generalize handleRead platform server clock event.fd results (dispatched event before) = both
      at ends ⊢
    obtain ⟨goesOn, read⟩ := both
    obtain ⟨rfl, world, queued⟩ := read_handed ends isHanded
    exact ⟨world, queued⟩

variable [DecidableEq κ] {store : κ → Option Bytes}

/-- Wherever a run leads, the files hold what the wishes so far have made of the store. -/
theorem run_holds {first loop : Loop} {wishes : List (Wish κ)} (holds : shelf.Holds first.world store)
    (run : Recorded (Step platform server listener) (Asks platform server shelf) first wishes loop) :
    shelf.Holds loop.world (serveAll perform wishes store).2 := by
  induction run with
  | start => exact holds
  | @step record loop next label output run emitted steps ih =>
    have means := emitted.means
    cases handing : handed platform server loop label with
    | none =>
      rw [handing] at means
      cases means
      rw [Option.toList_none, List.append_nil]
      exact step_unhanded ih emitted.spared handing steps
    | some visit =>
      rw [handing] at means
      cases means with
      | @some _ wish isMeant =>
        cases label with
        | read clock event results =>
          rw [Option.toList_some, serveAll_concat, (step_handed handing steps).1]
          exact (refines_store platform shelf loop.world _ visit wish ih isMeant).2
        | _ => cases handing

end

/-- In every run of the loop, whatever the connections, the pieces in which requests arrive and
the failures in between, and whatever other threads do beside the shelf: the files hold what the
requests handled so far make of a map, and the response queued for the next one is what that map
answers. -/
theorem connections_share_store (platform : Platform) (server : Server) (listener : Fd) {κ : Type}
    [DecidableEq κ] {config : ServerConfig} (shelf : Shelf κ config) (first loop : Loop)
    (store : κ → Option Bytes) (holds : shelf.Holds first.world store) (wishes : List (Wish κ))
    (run : Recorded (Step platform server listener) (Asks platform server shelf) first wishes loop) :
    shelf.Holds loop.world (serveAll perform wishes store).2 ∧
      ∀ clock event results next visit wish,
        Step platform server listener loop (.read clock event results) next →
        handed platform server loop (.read clock event results) = some visit →
        shelf.Means visit wish →
        ∃ response, next.writeBuffers.get event.fd = some response.serializeResponse ∧
          Shows response (perform wish (serveAll perform wishes store).2).1 := by
  have holdsNow := run_holds holds run
  refine ⟨holdsNow, ?_⟩
  intro clock event results next visit wish steps handing isMeant
  have shown := (refines_store platform shelf loop.world _ visit wish holdsNow isMeant).1
  exact ⟨_, (step_handed handing steps).2, shown⟩

def uploadReady : Event := ⟨7, false, 0⟩

def fetchReady : Event := ⟨8, false, 1⟩

def uploadAsk : Bytes := utf8 "POST /notes.txt HTTP/1.1\r\n\r\nhi"

def fetchAsk : Bytes := utf8 "GET /notes.txt HTTP/1.1\r\n\r\n"

def bothReady : Loop :=
  ⟨.dispatching [uploadReady, fetchReady], (HashMap.empty.insert 7 []).insert 8 [], HashMap.empty,
    HashMap.empty, Kernel.new, shelfWorld⟩

def uploaded : Loop :=
  continueWith (handleRead quietPlatform webServer epoch 7 [.received uploadAsk]
      (dispatched uploadReady bothReady)).1 [fetchReady]
    (handleRead quietPlatform webServer epoch 7 [.received uploadAsk]
      (dispatched uploadReady bothReady)).2

theorem handed_ask {loop : Loop} {event : Event} {ask : Bytes} {request : Request}
    (buffer : loop.readBuffers.get event.fd = some [])
    (parsed : parse quietPlatform.tables ask = .ok (some request))
    (small : ask.length ≤ webConfig.clientMaxBodySize) :
    handed quietPlatform webServer loop (.read epoch event [.received ask]) =
      some ⟨epoch, splitQuery request, webConfig⟩ := by
  have config : webServer.matchConfig request = webConfig :=
    List.mem_singleton.mp (matchConfig_mem webServer request)
  have whole : ([] : Bytes) ++ receivedBytes [.received ask] = ask := by
    simp [receivedBytes]
  simp only [handed, ending, if_true, buffer, Option.bind_some, whole, admitted, parsed, config]
  rw [if_neg (by omega)]

theorem for_notes {request : Request} {method : Method} (isMethod : request.method = method)
    (path : request.path = "/notes.txt".toList) :
    webShelf.For ⟨epoch, splitQuery request, webConfig⟩ notes method := by
  refine ⟨rfl, ?_, (method_splitQuery request).trans isMethod⟩
  show (splitQuery request).path = "/notes.txt".toList
  rw [path_splitQuery, path]
  decide

theorem parse_uploadAsk : ∃ request, parse asciiTables uploadAsk = .ok (some request) ∧
    request.method = .post ∧ request.path = "/notes.txt".toList ∧ request.body = utf8 "hi" := by
  apply parse_some
  decide +kernel

theorem parse_fetchAsk : ∃ request, parse asciiTables fetchAsk = .ok (some request) ∧
    request.method = .get ∧ request.path = "/notes.txt".toList := by
  apply parse_some
  decide +kernel

theorem handed_upload {request : Request} (parsed : parse asciiTables uploadAsk = .ok (some request)) :
    handed quietPlatform webServer bothReady (.read epoch uploadReady [.received uploadAsk]) =
      some ⟨epoch, splitQuery request, webConfig⟩ :=
  handed_ask rfl parsed (by decide +kernel)

theorem step_upload : Step quietPlatform webServer 3 bothReady
    (.read epoch uploadReady [.received uploadAsk]) uploaded := .read rfl (by decide) rfl

theorem handed_fetch {request : Request} (parsed : parse asciiTables fetchAsk = .ok (some request)) :
    handed quietPlatform webServer uploaded (.read epoch fetchReady [.received fetchAsk]) =
      some ⟨epoch, splitQuery request, webConfig⟩ :=
  handed_ask (by decide +kernel) parsed (by decide +kernel)

theorem step_fetch : ∃ next,
    Step quietPlatform webServer 3 uploaded (.read epoch fetchReady [.received fetchAsk]) next := by
  have phase : uploaded.phase = .dispatching [fetchReady] := by decide +kernel
  exact ⟨_, @Step.read quietPlatform webServer 3 uploaded fetchReady [] [.received fetchAsk] epoch
    phase (by decide) rfl⟩

theorem recorded_upload :
    Recorded (Step quietPlatform webServer 3) (Asks quietPlatform webServer webShelf) bothReady
      [.put notes (utf8 "hi")] uploaded := by
  obtain ⟨request, parsed, method, path, body⟩ := parse_uploadAsk
  have asks : Asks quietPlatform webServer webShelf bothReady
      (.read epoch uploadReady [.received uploadAsk]) (some (.put notes (utf8 "hi"))) := by
    refine ⟨nofun, ?_⟩
    rw [handed_upload parsed]
    exact .some ⟨for_notes method path, (body_splitQuery request).trans body⟩
  exact Recorded.start.step asks step_upload

theorem connections_share_store_notes : ∃ (next : Loop) (response : Response),
    Step quietPlatform webServer 3 uploaded (.read epoch fetchReady [.received fetchAsk]) next ∧
      next.writeBuffers.get 8 = some response.serializeResponse ∧ response.Succeeds ∧
        response.body = utf8 "hi" := by
  obtain ⟨request, parsed, method, path⟩ := parse_fetchAsk
  obtain ⟨next, steps⟩ := step_fetch
  obtain ⟨-, answered⟩ := connections_share_store quietPlatform webServer 3 webShelf bothReady
    uploaded (fun _ => none) holds_shelfWorld _ recorded_upload
  obtain ⟨response, queued, succeeds, body⟩ :=
    answered epoch fetchReady [.received fetchAsk] _ _ (.get notes) steps (handed_fetch parsed)
      (for_notes method path)
  exact ⟨next, response, steps, queued, succeeds, body⟩

end LocalServer.StoreRuns
