import LocalServer.Lookups
import LocalServer.SessionRuns
import LocalServer.StoreRuns
import LocalServer.Threads

/-! The sessions of the whole process. Whatever the loops of its threads do, the one store they
share goes through what the requests handled so far make of it, in the order in which they were
handled. -/

namespace LocalServer.SessionLoops
open Library Action Server Loop Lookups StoreServing StoreRuns Handled Threads

def onStore (platform : Platform) (world : World) (visit : UploadCycle.Visit) : SessionRuns.Visit :=
  ⟨platform, world.files, visit.config, visit.request, visit.clock⟩

section
variable {ι : Type}

/-- The request that a thread hands to the handlers in its turn, if it does. The store is in
the memory of the process: nothing from outside changes it. -/
structure Hands (platform : Platform) (servers : ι → Server) (process : ι → Loop) (turn : ι × Label)
    (visit : Option SessionRuns.Visit) : Prop where
  inMemory : ∀ world, turn.2 = .other world → world.sessions = (process turn.1).world.sessions
  visit : visit = (handed platform (servers turn.1) (process turn.1) turn.2).map
    (onStore platform (process turn.1).world)

def Share (process : ι → Loop) (store : SessionStore) : Prop :=
  ∀ thread, (process thread).world.sessions = store

end

/-- The handlers answer as they do to the request on the store. -/
theorem serve_onStore (platform : Platform) (visit : UploadCycle.Visit) (world : World) :
    (serve platform visit world).1 = ((onStore platform world visit).answer world.sessions).1 ∧
      (serve platform visit world).2.sessions =
        ((onStore platform world visit).answer world.sessions).2.sessions := by
  have same : SameState world ⟨world.files, world.sessions, []⟩ := ⟨rfl, rfl⟩
  obtain ⟨response, after⟩ :=
    respects_buildResponse platform visit.clock visit.request visit.config _ _ same
  exact ⟨response, after.sessions⟩

section
variable {ι : Type} [DecidableEq ι] {platform : Platform} {servers : ι → Server}
  {listeners : ι → Fd} {process next : ι → Loop} {turn : ι × Label} {store : SessionStore}

/-- After a turn all threads have the store of the one that made it. -/
theorem share_turn {store' : SessionStore}
    (step : ProcessStep platform servers listeners process turn next)
    (own : (next turn.1).world.sessions = store') : Share next store' := by
  obtain ⟨thread, label⟩ := turn
  intro other
  by_cases same : other = thread
  · rw [same]
    exact own
  · rw [step.others same]
    exact own

theorem share_unhanded (share : Share process store)
    (step : ProcessStep platform servers listeners process turn next)
    (hands : Hands platform servers process turn none) : Share next store := by
  obtain ⟨thread, label⟩ := turn
  have unhanded : handed platform (servers thread) (process thread) label = none :=
    Option.map_eq_none_iff.mp hands.visit.symm
  apply share_turn step
  rw [← share thread]
  have own := step.own
  by_cases foreign : Foreign label
  · generalize next thread = loop at own ⊢
    cases own with
    | @other world => exact hands.inMemory world rfl
    | _ => exact absurd foreign id
  · exact congrArg World.sessions (world_unhanded foreign unhanded own)

/-- A turn in which a request is handed on is the step of the store that the request makes, and
queues the answer. -/
theorem share_handed {visit : SessionRuns.Visit} (share : Share process store)
    (step : ProcessStep platform servers listeners process turn next)
    (hands : Hands platform servers process turn (some visit)) :
    Share next (visit.answer store).2.sessions ∧
      ∀ clock event results, turn.2 = .read clock event results →
        (next turn.1).writeBuffers.get event.fd =
          some (visit.answer store).1.serializeResponse := by
  obtain ⟨thread, label⟩ := turn
  obtain ⟨request, handing, rfl⟩ := Option.map_eq_some_iff.mp hands.visit.symm
  obtain ⟨answer, after⟩ := serve_onStore platform request (process thread).world
  rw [share thread] at answer after
  cases label with
  | read clock event results =>
    obtain ⟨world, queued⟩ := step_handed handing step.own
    refine ⟨share_turn step (by rw [world, after]), ?_⟩
    intro clock' event' results' same
    cases same
    rw [queued, answer]
  | _ => cases handing

/-- The requests read later and later times, and no location redirects a session route. -/
structure Timely (visits : List SessionRuns.Visit) : Prop where
  ordered : visits.Pairwise fun early late => early.clock.now ≤ late.clock.now
  direct : ∀ visit ∈ visits, Effects.SessionRoute visit.request →
    (Handler.matchLocation visit.request.path visit.config).bind Location.redirect = none

theorem Timely.sooner {early late : List SessionRuns.Visit} (timely : Timely (early ++ late)) :
    Timely early :=
  ⟨(List.pairwise_append.mp timely.ordered).1,
    fun visit member => timely.direct visit (List.mem_append_left _ member)⟩

theorem run_refines {first : ι → Loop} {visits : List SessionRuns.Visit}
    (share : Share first SessionStore.new) (timely : Timely visits)
    (run : Recorded (ProcessStep platform servers listeners) (Hands platform servers) first visits
      process) :
    ∃ store, Share process store ∧
      Reaches SessionRuns.step SessionRuns.Guard SessionRuns.begins ⟨store, visits.reverse⟩ := by
  induction run with
  | start => exact ⟨SessionStore.new, share, .start rfl⟩
  | @step record process next turn visit run hands step ih =>
    cases visit with
    | none =>
      rw [Option.toList_none, List.append_nil] at timely ⊢
      obtain ⟨store, shared, reached⟩ := ih timely
      exact ⟨store, share_unhanded shared step hands, reached⟩
    | some visit =>
      rw [Option.toList_some] at timely ⊢
      obtain ⟨-, -, last⟩ := List.pairwise_append.mp timely.ordered
      obtain ⟨store, shared, reached⟩ := ih timely.sooner
      refine ⟨(visit.answer store).2.sessions, (share_handed shared step hands).1, ?_⟩
      rw [List.reverse_append, List.reverse_singleton, List.singleton_append]
      have guard : SessionRuns.Guard ⟨store, record.reverse⟩ visit := by
        refine ⟨?_, timely.direct visit (List.mem_append_right _ List.mem_cons_self)⟩
        intro other member
        exact last other (List.mem_reverse.mp member) visit List.mem_cons_self
      exact reached.step guard rfl

end

/-- In every interleaving of the threads' loops, all of them have one store, which is what the
requests handed on so far, one at a time, make of the empty one: each of its sessions was issued
by one login among them, at the time it says, and no logout with its id was handed on since. The
next request handed on is answered from this store. -/
theorem threads_refine_sessions {ι : Type} [DecidableEq ι] (platform : Platform)
    (servers : ι → Server) (listeners : ι → Fd) (first process : ι → Loop)
    (share : Share first SessionStore.new) (visits : List SessionRuns.Visit) (timely : Timely visits)
    (run : Recorded (ProcessStep platform servers listeners) (Hands platform servers) first visits
      process) :
    ∃ store, Share process store ∧
      Reaches SessionRuns.step SessionRuns.Guard SessionRuns.begins ⟨store, visits.reverse⟩ ∧
      (∀ id session, store.sessions.get id = some session →
        ∃ early login late, visits = early ++ login :: late ∧ login.Issues id ∧
          login.clock.now = session.createdAt ∧ ∀ visit ∈ late, ¬visit.LogsOut id) ∧
      ∀ turn next visit, ProcessStep platform servers listeners process turn next →
        Hands platform servers process turn (some visit) →
        Share next (visit.answer store).2.sessions ∧
          ∀ clock event results, turn.2 = .read clock event results →
            (next turn.1).writeBuffers.get event.fd =
              some (visit.answer store).1.serializeResponse := by
  obtain ⟨store, shared, reached⟩ := run_refines share timely run
  refine ⟨store, shared, reached, ?_, fun turn next visit step hands => share_handed shared step hands⟩
  intro id session found
  obtain ⟨late, login, early, whole, issues, atTime, kept⟩ :=
    SessionRuns.issued_mem ((SessionRuns.agrees_reached reached).known id session found).2
  have reversed := congrArg List.reverse whole
  rw [List.reverse_reverse, List.reverse_append, List.reverse_cons, List.append_assoc] at reversed
  exact ⟨early.reverse, login, late.reverse, reversed, issues, atTime,
    fun visit member => kept visit (List.mem_reverse.mp member)⟩

/-! Two threads, on one of which a user logs in -/

def loginReady : Event := ⟨7, false, 0⟩

def loginAsk : Utf8.Bytes :=
  Utf8.utf8 "POST /login HTTP/1.1\r\n\r\nusername=admin&password=secret"

def loginWaits : Loop :=
  ⟨.dispatching [loginReady], HashMap.empty.insert 7 [], HashMap.empty, HashMap.empty, Kernel.new,
    Handler.emptyWorld⟩

theorem parse_loginAsk : ∃ request, Request.parse Text.asciiTables loginAsk = .ok (some request) ∧
    request.path = "/login".toList ∧ request.method = .post ∧
      request.body = Utf8.utf8 "username=admin&password=secret" := by
  apply Relevance.parse_some
  decide +kernel

theorem hands_login {loop : Loop} (buffer : loop.readBuffers.get loginReady.fd = some []) :
    ∃ visit, Hands Handler.quietPlatform Thread.server (fun _ : Thread twoSites => loop)
        (webThread, .read UploadCycle.epoch loginReady [.received loginAsk]) (some visit) ∧
      Timely [visit] ∧ SessionRuns.isLogin visit.request ∧
      Handler.credentialsMatch visit.request.body = true ∧ visit.clock = UploadCycle.epoch := by
  obtain ⟨request, parsed, path, method, body⟩ := parse_loginAsk
  have handing : handed Handler.quietPlatform webThread.server loop
      (.read UploadCycle.epoch loginReady [.received loginAsk]) =
        some ⟨UploadCycle.epoch, splitQuery request, Handler.webConfig⟩ :=
    handed_ask buffer parsed (by decide +kernel)
  have samePath : (splitQuery request).path = "/login".toList := by
    rw [Relevance.path_splitQuery, path]
    decide
  refine ⟨onStore Handler.quietPlatform loop.world
    ⟨UploadCycle.epoch, splitQuery request, Handler.webConfig⟩, ⟨?_, ?_⟩, ⟨?_, ?_⟩, ?_, ?_, rfl⟩
  · intro world other
    cases other
  · exact (congrArg (Option.map (onStore Handler.quietPlatform loop.world)) handing).symm
  · exact List.pairwise_singleton _ _
  · intro visit member _
    rw [List.mem_singleton.mp member]
    show (Handler.matchLocation (splitQuery request).path Handler.webConfig).bind
      Location.redirect = none
    rw [samePath]
    decide +kernel
  · exact ⟨samePath, (Relevance.method_splitQuery request).trans method⟩
  · show Handler.credentialsMatch (splitQuery request).body = true
    rw [Relevance.body_splitQuery, body]
    decide +kernel

theorem threads_refine_sessions_login : ∃ (visit : SessionRuns.Visit) (next : Thread twoSites → Loop)
    (store : SessionStore), Share next store ∧
      Reaches SessionRuns.step SessionRuns.Guard SessionRuns.begins ⟨store, [visit]⟩ := by
  obtain ⟨visit, hands, timely, -⟩ := @hands_login loginWaits rfl
  have steps : Step Handler.quietPlatform webThread.server (twoListeners webThread) loginWaits
      (.read UploadCycle.epoch loginReady [.received loginAsk]) _ :=
    .read rfl (by decide) rfl
  obtain ⟨store, shared, reached, -⟩ := threads_refine_sessions Handler.quietPlatform Thread.server
    twoListeners (fun _ => loginWaits) _ (fun _ => rfl) _ timely
    (Recorded.start.step hands (Interleaved.step steps))
  exact ⟨_, _, store, shared, reached⟩

end LocalServer.SessionLoops
