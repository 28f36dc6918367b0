import LocalServer.Lookups
import LocalServer.StoreRuns

/-! What of the past an answer depends on. Uploads, deletions and scripts come into it in their
order; no other request does, whoever sent it, and neither do sessions and times. -/

namespace LocalServer.History
open Library Action Utf8 Text Handler Server Loop Effects Lookups UploadCycle StoreServing
  StoreRuns Handling Handled

def writes (visit : Visit) : Bool :=
  match visit.taken with
  | .script _ _ | .upload _ | .deletion _ => true
  | _ => false

section
variable {visit : Visit}

theorem harmless_of_writes (quiet : writes visit = false) : Harmless visit := by
  unfold writes at quiet
  constructor
  · intro cgi loc isScript
    rw [isScript] at quiet
    cases quiet
  · intro loc isUpload
    rw [isUpload] at quiet
    cases quiet
  · intro loc isDeletion
    rw [isDeletion] at quiet
    cases quiet

theorem sessionless_of_writes (changes : writes visit = true) : Sessionless visit.taken := by
  unfold writes at changes
  constructor <;>
  · intro isSession
    rw [isSession] at changes
    cases changes

variable (platform : Platform)

theorem respects_serve (sessionless : Sessionless visit.taken) :
    Respects SameFiles (serve platform visit) := by
  unfold serve
  rw [buildResponse_eq_follow]
  exact respects_follow filesSeen_sameFiles _ _ _ _ sessionless

theorem serve_clock (sessionless : Sessionless visit.taken) (clock : Clock) :
    serve platform visit = serve platform ⟨clock, visit.request, visit.config⟩ := by
  unfold serve
  rw [buildResponse_eq_follow, buildResponse_eq_follow]
  exact follow_clock _ _ _ _ _ sessionless

theorem sameFiles_serve (harmless : Harmless visit) : Keeps SameFiles (serve platform visit) := by
  unfold serve
  rw [buildResponse_eq_follow]
  exact sameFiles_follow _ _ _ _ harmless.noScript harmless.noUpload harmless.noDeletion

end

/-- What a step adds to the history, if other threads and processes leave files alone. -/
structure Adds (platform : Platform) (server : Server) (loop : Loop) (label : Label)
    (visit : Option Visit) : Prop where
  spared : ∀ world, label = .other world → SameFiles loop.world world
  visit : visit = (handed platform server loop label).filter writes

theorem run_files {platform : Platform} {server : Server} {listener : Fd} {first loop : Loop}
    {past : List Visit}
    (run : Recorded (Step platform server listener) (Adds platform server) first past loop) :
    SameFiles (serveAll (serve platform) past first.world).2 loop.world := by
  induction run with
  | start => rfl
  | @step past loop next label output run adds steps ih =>
    obtain ⟨spared, rfl⟩ := adds
    cases handing : handed platform server loop label with
    | none =>
      have same : SameFiles loop.world next.world := by
        by_cases foreign : Foreign label
        · cases steps with
          | @other world => exact spared world rfl
          | _ => exact absurd foreign id
        · exact congrArg World.files (world_unhanded foreign handing steps)
      rw [Option.filter_none, Option.toList_none, List.append_nil]
      exact IsTrans.trans _ _ _ ih same
    | some visit =>
      cases label with
      | read clock event results =>
        rw [(step_handed handing steps).1]
        cases changes : writes visit with
        | false =>
          rw [Option.filter_some, changes]
          have same := sameFiles_serve platform (harmless_of_writes changes) loop.world
          simpa using IsTrans.trans _ _ _ ih same
        | true =>
          rw [Option.filter_some, changes, if_pos rfl, Option.toList_some, serveAll_concat]
          exact (respects_serve platform (sessionless_of_writes changes) _ _ ih).2
      | _ => cases handing

/-- In every run of the loop the files are what the uploads, deletions and scripts so far have
made of the first ones, and the response queued for a request that is not for a session route is
what it would be answered after only these, at any time. -/
theorem answers_by_writes (platform : Platform) (server : Server) (listener : Fd)
    (first loop : Loop) (past : List Visit)
    (run : Recorded (Step platform server listener) (Adds platform server) first past loop) :
    loop.world.files = (serveAll (serve platform) past first.world).2.files ∧
      ∀ clock event results next visit,
        Step platform server listener loop (.read clock event results) next →
        handed platform server loop (.read clock event results) = some visit →
        ¬SessionRoute visit.request → ∀ clock',
          next.writeBuffers.get event.fd = some
            (serve platform ⟨clock', visit.request, visit.config⟩
              (serveAll (serve platform) past first.world).2).1.serializeResponse := by
  have same := run_files run
  refine ⟨same, ?_⟩
  intro clock event results next visit steps handing free clock'
  have sessionless : Sessionless visit.taken := sessionless_of_free free
  have answer := (respects_serve platform sessionless _ _ same).1
  rw [(step_handed handing steps).2, ← answer, serve_clock platform sessionless clock']

theorem answers_by_writes_notes : ∃ (upload fetch : Visit) (next : Loop),
    writes upload = true ∧
      Step quietPlatform webServer 3 uploaded (.read epoch fetchReady [.received fetchAsk]) next ∧
      next.writeBuffers.get 8 = some
        (serve quietPlatform fetch (serve quietPlatform upload bothReady.world).2).1.serializeResponse := by
  obtain ⟨posted, parsed, method, path, -⟩ := parse_uploadAsk
  obtain ⟨asked, parsed', -, path'⟩ := parse_fetchAsk
  obtain ⟨next, steps⟩ := step_fetch
  have isNotes := for_notes method path
  have changes : writes ⟨epoch, splitQuery posted, webConfig⟩ = true := by
    have taken := (webShelf.uploadable notes).route_post isNotes.path isNotes.method
    rw [writes, Visit.taken, taken]
  have adds : Adds quietPlatform webServer bothReady (.read epoch uploadReady [.received uploadAsk])
      (some ⟨epoch, splitQuery posted, webConfig⟩) := by
    refine ⟨nofun, ?_⟩
    rw [handed_upload parsed, Option.filter_some, changes]
    rfl
  have free : ¬SessionRoute (splitQuery asked) := by
    have same : (splitQuery asked).path = "/notes.txt".toList := by
      rw [Relevance.path_splitQuery, path']
      decide
    rw [SessionRoute, same]
    simp
  obtain ⟨-, answered⟩ := answers_by_writes quietPlatform webServer 3 bothReady uploaded _
    (Recorded.start.step adds step_upload)
  exact ⟨_, _, next, changes, steps,
    answered epoch fetchReady [.received fetchAsk] next _ steps (handed_fetch parsed') free epoch⟩

end LocalServer.History
