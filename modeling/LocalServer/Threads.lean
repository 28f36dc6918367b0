import LocalServer.Ownership
import LocalServer.Handling
import LocalServer.VirtualHosts
import LocalServer.Library.Interleaving

/-! `src/main.rs`: one thread for each address, all of them in one process. The threads share the
process's descriptors, its files and its sessions. As long as the calls of each are sound, it
serves its connections as if it were alone. -/

namespace LocalServer.Threads
open Library Action Utf8 Text Server Loop Footprint Handling Ownership

/-- A thread that `main` starts: an address, and the servers that share it. -/
structure Thread (config : Config) where
  address : Str
  server : Server
  grouped : (groups config.servers).get address = some server.configs

theorem thread_ext {config : Config} {first second : Thread config}
    (same : first.address = second.address) : first = second := by
  obtain ⟨address, server, grouped⟩ := first
  obtain ⟨address', server', grouped'⟩ := second
  cases same
  have configs : server.configs = server'.configs := Option.some.inj (grouped.symm.trans grouped')
  obtain ⟨configs', nonempty⟩ := server
  cases configs
  rfl

instance (config : Config) : DecidableEq (Thread config) := fun first second =>
  if same : first.address = second.address then isTrue (thread_ext same)
  else isFalse fun equal => same (congrArg Thread.address equal)

def newCalls (before after : Loop) : List Entry :=
  after.kernel.log.take (after.kernel.log.length - before.kernel.log.length)

/-- A thread loses the connection whose descriptor another thread closes. -/
def noticeCall (entry : Entry) (kernel : Kernel) : Kernel :=
  match entry.call with
  | .close fd =>
    match kernel.owner fd with
    | none => kernel
    | some _ => kernel.release fd
  | _ => kernel

def notice (before after other : Loop) : Loop :=
  { other with
    kernel := (newCalls before after).foldr noticeCall other.kernel
    world := after.world }

section
variable {ι : Type} [DecidableEq ι]

/-- The threads take turns in any order. A turn is one step: the calls that it makes on files are not
interrupted by those of another thread. -/
abbrev ProcessStep (platform : Platform) (servers : ι → Server) (listeners : ι → Fd) :
    (ι → Loop) → ι × Label → (ι → Loop) → Prop :=
  Interleaved (fun thread => Step platform (servers thread) (listeners thread)) notice

def acceptedBy : Label → List Fd
  | .accept results => acceptedFds results
  | _ => []

/-- Descriptors are given out that the whole process does not use, and the thread's own step is
one in which its calls are sound. -/
structure Orderly (listeners : ι → Fd) (promise : Loop → Label → Prop) (process : ι → Loop)
    (turn : ι × Label) : Prop where
  fresh : ∀ fd ∈ acceptedBy turn.2, ∀ thread, fd ≠ listeners thread ∧
    (process thread).kernel.owner fd = none
  undisturbed : Undisturbed (process turn.1) turn.2
  promised : promise (process turn.1) turn.2

structure Started (process : ι → Loop) : Prop where
  each : ∀ thread, Initial (process thread)
  world : ∀ thread other, (process thread).world = (process other).world

end

/-! What a step of a loop touches -/

/-- These descriptors apart, connections are named and calls are made only on descriptors that
were open before. -/
structure Touches (fds : List Fd) (before after : Loop) : Prop where
  opened : ∀ fd, after.kernel.owner fd ≠ none → before.kernel.owner fd ≠ none ∨ fd ∈ fds
  log : ∃ calls, after.kernel.log = calls ++ before.kernel.log ∧
    ∀ entry ∈ calls, entry.owner ≠ none →
      before.kernel.owner entry.call.fd ≠ none ∨ entry.call.fd ∈ fds

section
variable {fds : List Fd} {before after : Loop}

instance (fds : List Fd) : Std.Refl (Touches fds) :=
  ⟨fun _ => ⟨fun _ => Or.inl, [], rfl, fun _ member => by cases member⟩⟩

instance (fds : List Fd) : IsTrans Loop (Touches fds) where
  trans before middle after early late := by
    obtain ⟨first, grown, allowed⟩ := early.log
    obtain ⟨second, grown', allowed'⟩ := late.log
    have backwards : ∀ fd, middle.kernel.owner fd ≠ none ∨ fd ∈ fds →
        before.kernel.owner fd ≠ none ∨ fd ∈ fds :=
      fun fd still => still.elim (early.opened fd) Or.inr
    refine ⟨fun fd named => backwards fd (late.opened fd named), second ++ first, ?_, ?_⟩
    · rw [grown', grown, List.append_assoc]
    · intro entry member named
      rcases List.mem_append.mp member with new | old
      · exact backwards _ (allowed' entry new named)
      · exact allowed entry old named

theorem touches_of_kernel (same : after.kernel = before.kernel) : Touches fds before after := by
  refine ⟨?_, [], ?_, fun _ member => by cases member⟩ <;> rw [same]
  · exact fun _ => Or.inl
  · rfl

theorem touches_issue {call : Call} (notAccept : ∀ g, call ≠ .accept g) :
    Keeps (Touches fds) (issue call) := by
  intro loop
  refine ⟨?_, [⟨call, loop.kernel.owner call.fd⟩], rfl, ?_⟩
  · intro fd named
    obtain ⟨connection, named⟩ := Option.ne_none_iff_exists'.mp named
    left
    rw [owner_of_issue notAccept named]
    nofun
  · intro entry member named
    rw [List.mem_singleton] at member
    subst member
    exact Or.inl named

theorem touches_operations (fd : Fd) : Operations fd (Touches fds) where
  issue := fun _ _ notAccept => touches_issue notAccept
  removeRead := fun _ => touches_of_kernel rfl
  removeWrite := fun _ => touches_of_kernel rfl
  setWrite := fun _ _ => touches_of_kernel rfl
  extendRead := by
    intro segment loop
    apply touches_of_kernel
    unfold extendRead
    split <;> rfl
  world := fun _ _ => touches_of_kernel rfl

theorem touches_closeOne (fd : Fd) (loop : Loop) : Touches fds loop (closeOne fd loop) := by
  have unregisters : Keeps (Touches fds) (issue (.unregister fd)) := touches_issue nofun
  have closes : Keeps (Touches fds) (issue (.close fd)) := touches_issue nofun
  have released : Touches fds (issue (.unregister fd) loop).2
      (removeTime fd (removeWrite fd (removeRead fd (issue (.unregister fd) loop).2).2).2).2 :=
    touches_of_kernel rfl
  exact IsTrans.trans _ _ _ (IsTrans.trans _ _ _ (unregisters loop) released) (closes _)

theorem touches_accept {fd : Fd} (member : fd ∈ fds) (loop : Loop) :
    Touches fds loop (issue (.accept fd) loop).2 := by
  refine ⟨?_, [⟨.accept fd, loop.kernel.owner fd⟩], rfl, ?_⟩
  · intro other named
    by_cases same : other = fd
    · exact Or.inr (same ▸ member)
    · have kept : (issue (.accept fd) loop).2.kernel.owner other = loop.kernel.owner other :=
        (loop.kernel.owner_accept fd other).trans (if_neg same)
      exact Or.inl (by rwa [kept] at named)
  · intro entry isEntry _
    rw [List.mem_singleton] at isEntry
    subst isEntry
    exact Or.inr member

theorem touches_acceptConnections (results : List AcceptResult)
    (members : ∀ fd ∈ acceptedFds results, fd ∈ fds) :
    Keeps (Touches fds) (acceptConnections results) := by
  induction results with
  | nil => exact keeps_pure _ _
  | cons result results ih =>
    cases result with
    | failed => exact keeps_pure _ _
    | connected fd time ready =>
      have accepts : Keeps (Touches fds) (issue (.accept fd)) :=
        touches_accept (members fd List.mem_cons_self)
      have registers : Keeps (Touches fds) (issue (.register fd)) := touches_issue nofun
      have closes : Keeps (Touches fds) (issue (.close fd)) := touches_issue nofun
      have tracks : Keeps (Touches fds) (track fd time) := fun _ => touches_of_kernel rfl
      have rest := ih fun other member => members other (List.mem_cons_of_mem _ member)
      cases ready with
      | false => exact accepts.bind fun _ => closes.bind fun _ => keeps_pure _ _
      | true => exact accepts.bind fun _ => registers.bind fun _ => tracks.bind fun _ => rest

theorem touches_continueWith {goesOn : Bool} {rest : List Event} (touches : Touches fds before after) :
    Touches fds before (continueWith goesOn rest after) := by
  have same : Touches fds after (continueWith goesOn rest after) := by
    cases goesOn <;> exact touches_of_kernel rfl
  exact IsTrans.trans _ _ _ touches same

theorem step_touches {platform : Platform} {server : Server} {listener : Fd} {label : Label}
    (step : Step platform server listener before label after) :
    Touches (acceptedBy label) before after := by
  have dispatches : ∀ event : Event,
      Keeps (Touches []) (issue (.dispatch event.fd event.connection)) :=
    fun event => touches_issue nofun
  cases step with
  | @wait now events timedOut phase reported distinct bounded each expired =>
    have closes : Touches [] before (closeTimedOut timedOut before).2 :=
      keeps_closeTimedOut touches_closeOne timedOut before
    exact ⟨closes.opened, closes.log⟩
  | waitFailed phase => exact touches_of_kernel rfl
  | @accept event rest results phase isListener fresh =>
    exact touches_continueWith (touches_acceptConnections results (fun _ => id) before)
  | @write event rest results phase isClient writable =>
    have writes : Touches [] (dispatched event before)
        (handleWrite event.fd results (dispatched event before)).2 :=
      (touches_operations event.fd).handleWrite results _
    have forgets : Touches [] before
        (removeTime event.fd (handleWrite event.fd results (dispatched event before)).2).2 := by
      have both := IsTrans.trans _ _ _ (dispatches event before) writes
      exact ⟨both.opened, both.log⟩
    exact touches_continueWith forgets
  | @read event rest results clock phase isClient readable =>
    have reads : Touches [] (dispatched event before)
        (handleRead platform server clock event.fd results (dispatched event before)).2 :=
      (touches_operations event.fd).handleRead platform server clock results _
    exact touches_continueWith (IsTrans.trans _ _ _ (dispatches event before) reads)
  | again phase => exact touches_of_kernel rfl
  | other => exact touches_of_kernel rfl

end

section
variable {before after other : Loop}

theorem newCalls_of_log {calls : List Entry} (grown : after.kernel.log = calls ++ before.kernel.log) :
    newCalls before after = calls := by
  unfold newCalls
  rw [grown, List.length_append, Nat.add_sub_cancel, List.take_left]

/-- A thread loses nothing by calls on descriptors that it does not use. -/
theorem foldr_noticeCall (calls : List Entry) (kernel : Kernel)
    (elsewhere : ∀ entry ∈ calls, ∀ fd, entry.call = .close fd → kernel.owner fd = none) :
    calls.foldr noticeCall kernel = kernel := by
  induction calls with
  | nil => rfl
  | cons entry calls ih =>
    rw [List.foldr_cons, ih fun later member => elsewhere later (List.mem_cons_of_mem _ member)]
    have here := elsewhere entry List.mem_cons_self
    unfold noticeCall
    cases call : entry.call with
    | close fd =>
      dsimp only
      rw [here fd call]
    | _ => rfl

def Uses (entry : Entry) : Prop :=
  match entry.call with
  | .read _ _ | .write _ _ _ | .shutdown _ | .close _ => True
  | _ => False

theorem owner_of_uses {entry : Entry} (sound : entry.Sound) (uses : Uses entry) :
    entry.owner ≠ none := by
  obtain ⟨call, owner⟩ := entry
  cases call with
  | read | write | shutdown | close => exact sound
  | accept | register | watchWrite | unregister | dispatch => cases uses

variable {platform : Platform} {server : Server} {listener : Fd} {label : Label}

/-- The descriptors that a step with sound calls uses are the thread's own. -/
theorem uses_own (sound : SoundLog after) (step : Step platform server listener before label after)
    (entry : Entry) (member : entry ∈ newCalls before after) (uses : Uses entry) :
    before.kernel.owner entry.call.fd ≠ none ∨ entry.call.fd ∈ acceptedBy label := by
  obtain ⟨calls, grown, allowed⟩ := (step_touches step).log
  rw [newCalls_of_log grown] at member
  have logged : entry ∈ after.kernel.log := by
    rw [grown]
    exact List.mem_append_left _ member
  exact allowed entry member (owner_of_uses (sound entry logged) uses)

/-- All that another thread notices of the step is what it does to files and sessions. -/
theorem notice_eq (sound : SoundLog after) (step : Step platform server listener before label after)
    (disjoint : ∀ fd, before.kernel.owner fd ≠ none → other.kernel.owner fd = none)
    (fresh : ∀ fd ∈ acceptedBy label, other.kernel.owner fd = none) :
    notice before after other = { other with world := after.world } := by
  have kernel : (newCalls before after).foldr noticeCall other.kernel = other.kernel := by
    apply foldr_noticeCall
    intro entry member fd isClose
    have uses : Uses entry := by
      unfold Uses
      rw [isClose]
      trivial
    have own := uses_own sound step entry member uses
    rw [isClose] at own
    exact own.elim (disjoint fd) (fresh fd)
  rw [notice, kernel]

end

/-! The threads together -/

section
variable {ι : Type} [DecidableEq ι] {platform : Platform} {servers : ι → Server}
  {listeners : ι → Fd} {promise : Loop → Label → Prop} {process next : ι → Loop}

/-- What holds of the threads between their steps. -/
structure Together (listeners : ι → Fd) (process : ι → Loop) : Prop where
  owned : ∀ thread, Owned (listeners thread) (process thread)
  disjoint : ∀ thread other, thread ≠ other → ∀ fd,
    (process thread).kernel.owner fd ≠ none → (process other).kernel.owner fd = none
  world : ∀ thread other, (process thread).world = (process other).world

theorem owned_initial {listener : Fd} {loop : Loop} (initial : Initial loop) :
    Owned listener loop := by
  refine ⟨?_, ?_, ?_⟩
  · intro entry member
    rw [initial.kernel] at member
    cases member
  · intro fd time found
    rw [initial.connectTimes, HashMap.get_empty] at found
    cases found
  · intro events dispatching
    rw [initial.phase] at dispatching
    cases dispatching

omit [DecidableEq ι] in
theorem together_started (started : Started process) : Together listeners process := by
  refine ⟨fun thread => owned_initial (started.each thread), ?_, started.world⟩
  intro thread other _ fd _
  rw [(started.each other).kernel]
  exact HashMap.get_empty fd

omit [DecidableEq ι] in
/-- In an orderly step the other threads see their files and sessions change, and no more. -/
theorem noticed_world (together : Together listeners process) {thread other : ι} {label : Label}
    {loop : Loop} (orderly : Orderly listeners promise process (thread, label))
    (step : Step platform (servers thread) (listeners thread) (process thread) label loop)
    (different : other ≠ thread) :
    notice (process thread) loop (process other) =
      { process other with world := loop.world } := by
  have owned := step_owned (together.owned thread) orderly.undisturbed step
  exact notice_eq owned.sound step (together.disjoint thread other different.symm)
    fun fd member => (orderly.fresh fd member other).2

theorem together_step {turn : ι × Label} (together : Together listeners process)
    (orderly : Orderly listeners promise process turn)
    (step : ProcessStep platform servers listeners process turn next) :
    Together listeners next := by
  obtain ⟨thread, label⟩ := turn
  have noticed : ∀ other, other ≠ thread →
      next other = { process other with world := (next thread).world } := by
    intro other different
    rw [step.others different]
    exact noticed_world together orderly step.own different
  have owner : ∀ other, other ≠ thread →
      (next other).kernel.owner = (process other).kernel.owner := by
    intro other different
    rw [noticed other different]
  have opened := (step_touches step.own).opened
  refine ⟨?_, ?_, ?_⟩
  · intro other
    by_cases same : other = thread
    · subst same
      exact step_owned (together.owned other) orderly.undisturbed step.own
    · have changes : Step platform (servers other) (listeners other) (process other)
          (.other (next thread).world) (next other) := by
        rw [noticed other same]
        exact .other
      have undisturbed : Undisturbed (process other) (.other (next thread).world) := trivial
      exact step_owned (together.owned other) undisturbed changes
  · intro first second different fd named
    by_cases isFirst : first = thread
    · subst isFirst
      rw [owner second different.symm]
      rcases opened fd named with before | new
      · exact together.disjoint first second different fd before
      · exact (orderly.fresh fd new second).2
    · rw [owner first isFirst] at named
      by_cases isSecond : second = thread
      · subst isSecond
        by_contra taken
        rcases opened fd taken with before | new
        · exact named (together.disjoint second first different.symm fd before)
        · exact named (orderly.fresh fd new first).2
      · rw [owner second isSecond]
        exact together.disjoint first second different fd named
  · have world : ∀ other, (next other).world = (next thread).world := by
      intro other
      by_cases same : other = thread
      · rw [same]
      · rw [noticed other same]
    intro first second
    rw [world first, world second]

/-- Each thread runs its loop as if it were alone, and they are never open on one descriptor. -/
theorem run_together (promised : ∀ loop world, promise loop (.other world))
    (reached : Reaches (ProcessStep platform servers listeners) (Orderly listeners promise) Started
      process) :
    Together listeners process ∧ ∀ thread,
      Reaches (Step platform (servers thread) (listeners thread))
        (fun loop label => Undisturbed loop label ∧ promise loop label) Initial
        (process thread) := by
  apply reached.component
  · exact fun states started => ⟨together_started started, started.each⟩
  · exact fun states turn next together orderly step => together_step together orderly step
  · exact fun states thread label orderly => ⟨orderly.undisturbed, orderly.promised⟩
  · intro states thread label loop together orderly step other different
    refine ⟨.other loop.world, ⟨trivial, promised _ _⟩, ?_⟩
    rw [noticed_world together orderly step different]
    exact .other

end

theorem unique_thread (config : Config) (server : ServerConfig) (member : server ∈ config.servers) :
    ∃! thread : Thread config, server ∈ thread.server.configs := by
  obtain ⟨group, found, among⟩ := VirtualHosts.exists_group member
  refine ⟨⟨server.addr, ⟨group, List.ne_nil_of_mem among⟩, found⟩, among, ?_⟩
  intro other inOther
  exact thread_ext ((VirtualHosts.mem_group other.grouped server).mp inOther).2.symm

/-- Every configured server is served by one thread. As long as each thread's own calls are
sound, the threads run as if each were alone, under whatever else is promised to each of them,
and none uses a descriptor on which another has a connection. -/
theorem threads_alone (platform : Platform) (config : Config) (listeners : Thread config → Fd)
    (promise : Loop → Label → Prop) (promised : ∀ loop world, promise loop (.other world))
    (process : Thread config → Loop)
    (reached : Reaches (ProcessStep platform Thread.server listeners) (Orderly listeners promise)
      Started process) :
    (∀ server ∈ config.servers, ∃! thread : Thread config, server ∈ thread.server.configs) ∧
      (∀ thread, Reaches (Step platform thread.server (listeners thread))
        (fun loop label => Undisturbed loop label ∧ promise loop label) Initial
        (process thread)) ∧
      ∀ thread label next, Orderly listeners promise process (thread, label) →
        ProcessStep platform Thread.server listeners process (thread, label) next →
        ∀ entry ∈ newCalls (process thread) (next thread), Uses entry → ∀ other, other ≠ thread →
          (process other).kernel.owner entry.call.fd = none := by
  obtain ⟨together, alone⟩ := run_together promised reached
  refine ⟨unique_thread config, alone, ?_⟩
  intro thread label next orderly step entry member uses other different
  have owned := step_owned (together.owned thread) orderly.undisturbed step.own
  rcases uses_own owned.sound step.own entry member uses with before | new
  · exact together.disjoint thread other different.symm _ before
  · exact (orderly.fresh _ new other).2

def twoSites : Config := ⟨[Handler.webConfig, { Handler.webConfig with port := 8081 }]⟩

theorem grouped_webThread :
    (groups twoSites.servers).get Handler.webConfig.addr = some webServer.configs := by
  refine HashMap.get_groupBy_eq_some.mpr ⟨?_, webServer.nonempty⟩
  have elsewhere : { Handler.webConfig with port := 8081 }.addr ≠ Handler.webConfig.addr := by decide
  simp [twoSites, webServer, elsewhere]

def webThread : Thread twoSites := ⟨Handler.webConfig.addr, webServer, grouped_webThread⟩

def twoListeners (thread : Thread twoSites) : Fd := if thread = webThread then 3 else 4

def twoListening : Thread twoSites → Loop :=
  Function.update (fun _ => notice webStart webListening webStart) webThread webListening

theorem reaches_twoListening :
    Reaches (ProcessStep Handler.quietPlatform Thread.server twoListeners)
      (Orderly twoListeners fun _ _ => True) Started twoListening := by
  have started : Started fun _ : Thread twoSites => webStart :=
    ⟨fun _ => initial_webStart, fun _ _ => rfl⟩
  have listener : twoListeners webThread = 3 := if_pos rfl
  have waits : Step Handler.quietPlatform webThread.server (twoListeners webThread) webStart
      (.wait 0 [listenerReady] []) webListening := by
    rw [listener]
    exact step_wait_early rfl (by simpa using ⟨Or.inl rfl⟩) (by decide) (by decide) (Nat.zero_le _)
  have orderly : Orderly twoListeners (fun _ _ => True) (fun _ => webStart)
      (webThread, .wait 0 [listenerReady] []) :=
    ⟨nofun, nofun, trivial⟩
  exact (Reaches.start started).step orderly (Interleaved.step waits)

theorem threads_alone_twoListening :
    (∀ server ∈ twoSites.servers, ∃! thread : Thread twoSites, server ∈ thread.server.configs) ∧
      ∀ thread, Reaches (Step Handler.quietPlatform thread.server (twoListeners thread))
        (fun loop label => Undisturbed loop label ∧ True) Initial (twoListening thread) := by
  obtain ⟨served, alone, -⟩ := threads_alone Handler.quietPlatform twoSites twoListeners
    (fun _ _ => True) (fun _ _ => trivial) twoListening reaches_twoListening
  exact ⟨served, alone⟩

end LocalServer.Threads
