import LocalServer.Server

/-! What a socket is sent of a response, over all the write events it takes. -/

namespace LocalServer.WriteIntegrity
open Library Action Utf8 Loop Server

variable {fd : Fd} {queued : Bytes}

def took (fd : Fd) : Call → Bytes
  | .write other data (.wrote count) => if other = fd then data.take count else []
  | _ => []

def sent (fd : Fd) : List Entry → Bytes
  | [] => []
  | entry :: older => sent fd older ++ took fd entry.call

/-- Each write offers all the bytes not taken yet, and only them. -/
def Offers (fd : Fd) (queued : Bytes) : List Entry → Prop
  | [] => True
  | entry :: older => Offers fd queued older ∧
      ∀ data result, entry.call = .write fd data result → sent fd older ++ data = queued

def Plain (fd : Fd) : Call → Prop
  | .write other _ _ => other ≠ fd
  | _ => True

def Elsewhere (fd : Fd) : Call → Prop
  | .write other _ _ | .shutdown other | .close other => other ≠ fd
  | _ => True

theorem Elsewhere.plain {call : Call} (elsewhere : Elsewhere fd call) : Plain fd call := by
  cases call with
  | write other data result => exact elsewhere
  | _ => trivial

theorem took_plain {call : Call} (plain : Plain fd call) : took fd call = [] := by
  cases call with
  | write other data result =>
    cases result with
    | wrote count => exact if_neg plain
    | _ => rfl
  | _ => rfl

theorem plain_append (queued : Bytes) (calls : List Entry) {more : List Entry}
    (plain : ∀ entry ∈ more, Plain fd entry.call) :
    sent fd (more ++ calls) = sent fd calls ∧
      (Offers fd queued calls → Offers fd queued (more ++ calls)) := by
  induction more with
  | nil => exact ⟨rfl, id⟩
  | cons entry more ih =>
    have here := plain entry (by simp)
    obtain ⟨taken, offers⟩ := ih fun later member => plain later (by simp [member])
    constructor
    · rw [List.cons_append, sent, taken, took_plain here, List.append_nil]
    · intro before
      refine ⟨offers before, fun data result isWrite => ?_⟩
      rw [isWrite] at here
      exact absurd rfl here

/-- The calls have neither shut the connection down nor closed it. -/
def Open (fd : Fd) (calls : List Entry) : Prop :=
  ∀ entry ∈ calls, entry.call ≠ .shutdown fd ∧ entry.call ≠ .close fd

theorem Open.append {calls more : List Entry} (opened : Open fd calls)
    (elsewhere : ∀ entry ∈ more, Elsewhere fd entry.call) : Open fd (more ++ calls) := by
  intro entry member
  rcases List.mem_append.mp member with new | old
  · have here := elsewhere entry new
    constructor
    · intro isShutdown
      rw [isShutdown] at here
      exact here rfl
    · intro isClose
      rw [isClose] at here
      exact here rfl
  · exact opened entry old

/-! Where the writing stands -/

/-- The response is waiting with what is left of it, was sent to its last byte, or was given
up after a write that took nothing or failed. -/
inductive Progress (fd : Fd) (queued : Bytes) (loop : Loop) (calls : List Entry) : Prop where
  | waiting {left : Bytes} (held : loop.writeBuffers.get fd = some left)
      (whole : sent fd calls ++ left = queued) (opened : Open fd calls)
  | complete (released : loop.writeBuffers.get fd = none) (whole : sent fd calls = queued)
      (shut : ∃ entry ∈ calls, entry.call = .shutdown fd)
      (closed : ∃ entry ∈ calls, entry.call = .close fd)
  | abandoned {left : Bytes} (released : loop.writeBuffers.get fd = none)
      (whole : sent fd calls ++ left = queued) (remains : left ≠ [])
      (stopped : ∃ entry ∈ calls, entry.call = .write fd left (.wrote 0) ∨
        entry.call = .write fd left .failed)
      (direct : ∀ entry ∈ calls, entry.call ≠ .shutdown fd)
      (closed : ∃ entry ∈ calls, entry.call = .close fd)

/-- The calls made since the log was `base`, and where the writing stands after them. -/
structure Written (fd : Fd) (queued : Bytes) (base : List Entry) (loop : Loop)
    (calls : List Entry) : Prop where
  log : loop.kernel.log = calls ++ base
  offers : Offers fd queued calls
  progress : Progress fd queued loop calls

structure Waiting (fd : Fd) (queued : Bytes) (base : List Entry) (loop : Loop)
    (calls : List Entry) (left : Bytes) : Prop where
  log : loop.kernel.log = calls ++ base
  offers : Offers fd queued calls
  held : loop.writeBuffers.get fd = some left
  whole : sent fd calls ++ left = queued
  opened : Open fd calls

section
variable {base calls : List Entry} {loop : Loop} {left : Bytes}
  (waiting : Waiting fd queued base loop calls left)
include waiting

theorem Waiting.written : Written fd queued base loop calls :=
  ⟨waiting.log, waiting.offers, .waiting waiting.held waiting.whole waiting.opened⟩

theorem Waiting.offers_write (result : WriteResult) (owner : Option Nat) :
    Offers fd queued (⟨.write fd left result, owner⟩ :: calls) := by
  refine ⟨waiting.offers, ?_⟩
  intro data other isWrite
  cases isWrite
  exact waiting.whole

theorem Waiting.open_write (result : WriteResult) (owner : Option Nat) :
    Open fd (⟨.write fd left result, owner⟩ :: calls) := by
  intro entry member
  rcases List.mem_cons.mp member with rfl | earlier
  · exact ⟨nofun, nofun⟩
  · exact waiting.opened entry earlier

theorem written_finishWrite (done : left = []) :
    ∃ more, Written fd queued base (finishWrite fd loop).2 more := by
  obtain ⟨first, second, third, log⟩ : ∃ first second third,
      (finishWrite fd loop).2.kernel.log =
        [⟨.close fd, first⟩, ⟨.shutdown fd, second⟩, ⟨.unregister fd, third⟩] ++ loop.kernel.log :=
    ⟨_, _, _, rfl⟩
  have released : (finishWrite fd loop).2.writeBuffers.get fd = none := HashMap.get_remove_self _ _
  have whole := waiting.whole
  rw [done, List.append_nil] at whole
  have plain : ∀ entry ∈ ([⟨.close fd, first⟩, ⟨.shutdown fd, second⟩, ⟨.unregister fd, third⟩] :
      List Entry), Plain fd entry.call := by simp [Plain]
  obtain ⟨taken, offers⟩ := plain_append queued calls plain
  refine ⟨_, by rw [log, waiting.log, ← List.append_assoc], offers waiting.offers,
    .complete released (taken.trans whole) ⟨⟨.shutdown fd, second⟩, by simp, rfl⟩
      ⟨⟨.close fd, first⟩, by simp, rfl⟩⟩

/-- A write that takes nothing or fails closes the connection with the rest unsent. -/
theorem written_abandonWrite (remains : left ≠ []) {result : WriteResult}
    (stops : result = .wrote 0 ∨ result = .failed) :
    ∃ more, Written fd queued base
      (abandonWrite fd (issue (.write fd left result) loop).2).2 more := by
  obtain ⟨first, second, third, log⟩ : ∃ first second third,
      (abandonWrite fd (issue (.write fd left result) loop).2).2.kernel.log =
        [⟨.close fd, first⟩, ⟨.unregister fd, second⟩] ++
          (⟨.write fd left result, third⟩ :: loop.kernel.log) := ⟨_, _, _, rfl⟩
  have released : (abandonWrite fd (issue (.write fd left result) loop).2).2.writeBuffers.get fd =
      none := HashMap.get_remove_self _ _
  have nothing : took fd (.write fd left result) = [] := by
    rcases stops with rfl | rfl
    · exact if_pos rfl
    · rfl
  have plain : ∀ entry ∈ ([⟨.close fd, first⟩, ⟨.unregister fd, second⟩] : List Entry),
      Plain fd entry.call := by simp [Plain]
  obtain ⟨taken, offers⟩ := plain_append queued (⟨.write fd left result, third⟩ :: calls) plain
  have whole : sent fd ([⟨.close fd, first⟩, ⟨.unregister fd, second⟩] ++
      (⟨.write fd left result, third⟩ :: calls)) ++ left = queued := by
    rw [taken, sent, nothing, List.append_nil]
    exact waiting.whole
  refine ⟨_, by rw [log, waiting.log, ← List.cons_append, ← List.append_assoc],
    offers (waiting.offers_write result third), .abandoned released whole remains
      ⟨⟨.write fd left result, third⟩, by simp, ?_⟩ ?_ ⟨⟨.close fd, first⟩, by simp, rfl⟩⟩
  · rcases stops with rfl | rfl
    · exact Or.inl rfl
    · exact Or.inr rfl
  · intro entry member
    have cases' : entry = ⟨.close fd, first⟩ ∨ entry = ⟨.unregister fd, second⟩ ∨
        entry ∈ (⟨.write fd left result, third⟩ :: calls) := by simpa using member
    rcases cases' with rfl | rfl | earlier
    · exact nofun
    · exact nofun
    · exact (waiting.open_write result third entry earlier).1

theorem Waiting.blocked : Waiting fd queued base (issue (.write fd left .wouldBlock) loop).2
    (⟨.write fd left .wouldBlock, loop.kernel.owner fd⟩ :: calls) left where
  log := by
    rw [List.cons_append, ← waiting.log]
    rfl
  offers := waiting.offers_write _ _
  held := waiting.held
  whole := by
    have nothing : took fd (.write fd left .wouldBlock) = [] := rfl
    rw [sent, nothing, List.append_nil]
    exact waiting.whole
  opened := waiting.open_write _ _

theorem Waiting.advance (count : Nat) :
    Waiting fd queued base
      (setWrite fd (left.drop count) (issue (.write fd left (.wrote count)) loop).2).2
      (⟨.write fd left (.wrote count), loop.kernel.owner fd⟩ :: calls) (left.drop count) where
  log := by
    rw [List.cons_append, ← waiting.log]
    rfl
  offers := waiting.offers_write _ _
  held := HashMap.get_insert_self _ _ _
  whole := by
    calc
      sent fd (⟨.write fd left (.wrote count), loop.kernel.owner fd⟩ :: calls) ++ left.drop count =
          sent fd calls ++ (left.take count ++ left.drop count) := by
        rw [sent, took, if_pos rfl, List.append_assoc]
      _ = queued := by rw [List.take_append_drop, waiting.whole]
  opened := waiting.open_write _ _

end

/-- The write loop keeps track of the response, whatever the writes bring. -/
theorem written_writeLoop {base : List Entry} (results : List WriteResult) {loop : Loop}
    {calls : List Entry} {left : Bytes} (waiting : Waiting fd queued base loop calls left) :
    ∃ more, Written fd queued base (writeLoop fd left results loop).2 more := by
  induction results generalizing loop calls left with
  | nil =>
    unfold writeLoop
    by_cases done : left = []
    · rw [if_pos done]
      exact written_finishWrite waiting done
    · rw [if_neg done]
      exact ⟨_, waiting.blocked.written⟩
  | cons result results ih =>
    unfold writeLoop
    by_cases done : left = []
    · rw [if_pos done]
      exact written_finishWrite waiting done
    · rw [if_neg done]
      cases result with
      | wrote count =>
        dsimp only
        rw [bind_apply]
        by_cases none : count = 0
        · rw [if_pos none]
          exact written_abandonWrite waiting done (Or.inl (by rw [none]))
        · rw [if_neg none, bind_apply]
          exact ih (waiting.advance count)
      | failed => exact written_abandonWrite waiting done (Or.inr rfl)
      | wouldBlock => exact ⟨_, waiting.blocked.written⟩

/-- A write event on the descriptor, or anything that leaves its response and its connection
alone. -/
inductive Step (fd : Fd) : Loop → List WriteResult → Loop → Prop where
  | write {loop : Loop} {left : Bytes} {results : List WriteResult}
      (held : loop.writeBuffers.get fd = some left) :
      Step fd loop results (handleWrite fd results loop).2
  | elsewhere {loop after : Loop} {more : List Entry}
      (kept : after.writeBuffers.get fd = loop.writeBuffers.get fd)
      (log : after.kernel.log = more ++ loop.kernel.log)
      (others : ∀ entry ∈ more, Elsewhere fd entry.call) : Step fd loop [] after

theorem written_elsewhere {base calls more : List Entry} {loop after : Loop}
    (written : Written fd queued base loop calls)
    (kept : after.writeBuffers.get fd = loop.writeBuffers.get fd)
    (log : after.kernel.log = more ++ loop.kernel.log)
    (others : ∀ entry ∈ more, Elsewhere fd entry.call) :
    Written fd queued base after (more ++ calls) := by
  obtain ⟨taken, offers⟩ := plain_append queued calls
    fun entry member => (others entry member).plain
  refine ⟨by rw [log, written.log, List.append_assoc], offers written.offers, ?_⟩
  cases written.progress with
  | waiting held whole opened =>
    exact .waiting (kept.trans held) (by rw [taken, whole]) (opened.append others)
  | complete released whole shut closed =>
    obtain ⟨entry, member, isShutdown⟩ := shut
    obtain ⟨last, member', isClose⟩ := closed
    exact .complete (kept.trans released) (taken.trans whole)
      ⟨entry, List.mem_append_right _ member, isShutdown⟩
      ⟨last, List.mem_append_right _ member', isClose⟩
  | abandoned released whole remains stopped direct closed =>
    obtain ⟨entry, member, isWrite⟩ := stopped
    obtain ⟨last, member', isClose⟩ := closed
    refine .abandoned (kept.trans released) (by rw [taken, whole]) remains
      ⟨entry, List.mem_append_right _ member, isWrite⟩ ?_
      ⟨last, List.mem_append_right _ member', isClose⟩
    intro other isCall isShutdown
    rcases List.mem_append.mp isCall with new | old
    · have here := others other new
      rw [isShutdown] at here
      exact here rfl
    · exact direct other old isShutdown

/-- Whatever the writes on a descriptor bring, in however many events: what the socket took
followed by what is left is the response as it was queued; each write offered all of the rest;
and the connection is shut down only after the last byte, kept while bytes are left, or closed
after a write that took nothing or failed. -/
theorem writes_exact (fd : Fd) (queued : Bytes) (start : Loop)
    (waits : start.writeBuffers.get fd = some queued) (loop : Loop)
    (reached : Reaches (Step fd) (fun _ _ => True) (· = start) loop) :
    ∃ calls, loop.kernel.log = calls ++ start.kernel.log ∧ Offers fd queued calls ∧
      Progress fd queued loop calls := by
  have tracked : ∃ calls, Written fd queued start.kernel.log loop calls := by
    apply Reaches.invariant _ _ reached
    · intro state begins
      subst begins
      have waiting : Waiting fd queued state.kernel.log state [] queued :=
        ⟨rfl, trivial, waits, rfl, by simp [Open]⟩
      exact ⟨[], waiting.written⟩
    · intro state results next known _ steps
      obtain ⟨calls, written⟩ := known
      cases steps with
      | write held =>
        cases written.progress with
        | @waiting left held' whole opened =>
          have same : handleWrite fd results state = writeLoop fd left results state := by
            simp only [handleWrite, held']
          rw [same]
          exact written_writeLoop results ⟨written.log, written.offers, held', whole, opened⟩
        | complete released => cases released.symm.trans held
        | abandoned released => cases released.symm.trans held
      | elsewhere kept log others => exact ⟨_, written_elsewhere written kept log others⟩
  obtain ⟨calls, written⟩ := tracked
  exact ⟨calls, written.log, written.offers, written.progress⟩

/-- A write event of the loop, on this descriptor or on another, is made of such steps. -/
theorem reaches_write_event {platform : Platform} {server : Server} {listener : Fd}
    {loop after : Loop} {event : Event} {results : List WriteResult} {left : Bytes}
    (isEvent : event.fd = fd) (held : loop.writeBuffers.get fd = some left)
    (steps : Loop.Step platform server listener loop (.write event results) after) :
    Reaches (Step fd) (fun _ _ => True) (· = loop) after := by
  subst isEvent
  cases steps with
  | write phase isClient writable =>
    have taken : Step event.fd loop [] (dispatched event loop) :=
      @Step.elsewhere _ _ _ [⟨.dispatch event.fd event.connection, loop.kernel.owner event.fd⟩]
        rfl rfl (by simp [Elsewhere])
    have handled : Step event.fd (dispatched event loop) results
      (handleWrite event.fd results (dispatched event loop)).2 := .write held
    have begun : Reaches (Step event.fd) (fun _ _ => True) (· = loop) (dispatched event loop) :=
      .step (.start rfl) trivial taken
    exact (begun.step trivial handled).step trivial (@Step.elsewhere _ _ _ [] rfl rfl (by simp))

def pageQueued : Loop := (queue 7 (.error .notFound) webConnected).2

theorem writes_exact_page :
    ∃ calls, (handleWrite 7 [.wrote 5, .wouldBlock] pageQueued).2.kernel.log =
        calls ++ pageQueued.kernel.log ∧
      Offers 7 (Response.error .notFound).serializeResponse calls ∧
      Progress 7 (Response.error .notFound).serializeResponse
        (handleWrite 7 [.wrote 5, .wouldBlock] pageQueued).2 calls := by
  have held : pageQueued.writeBuffers.get 7 =
    some (Response.error .notFound).serializeResponse := HashMap.get_insert_self _ _ _
  have handled : Step 7 pageQueued [.wrote 5, .wouldBlock]
    (handleWrite 7 [.wrote 5, .wouldBlock] pageQueued).2 := .write held
  exact writes_exact 7 _ pageQueued held _ (.step (.start rfl) trivial handled)

end LocalServer.WriteIntegrity
