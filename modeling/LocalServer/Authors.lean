import LocalServer.AccessControl
import LocalServer.StoreRuns
import LocalServer.Threads

/-! Who changed a file last. A turn makes its calls on files without being interrupted, and the
storage does not run out. Then whatever the threads do, what is at a place has been there from the
start, or one accepted request left it there, or it came from outside. -/

namespace LocalServer.Authors
open Library Utf8 Text FileSystem Handler Server Loop Effects AccessControl UploadCycle StoreServing
  StoreRuns Handled Threads

inductive Wrote (visit : Visit) (before after : FileSystem) (place : List Name) : Prop where
  | file {loc : Location} (takes : Takes visit.request visit.config loc)
      (isPost : visit.request.method = .post)
      (leads : after.resolve (targetPath loc visit.request) = .ok place)
      (whole : ∃ mode, after.node place = some (.file mode visit.request.body))
  | directory {loc : Location} (takes : Takes visit.request visit.config loc)
      (isPost : visit.request.method = .post) (free : before.node place = none)
      (made : after.node place = some (.directory newDirectory))
      (leads : ∃ above, above <+: (targetPath loc visit.request).normalComponents.dropLast ∧
        after.resolve ⟨(targetPath loc visit.request).absolute, above, false⟩ = .ok place)
  | removed {loc : Location} (takes : Takes visit.request visit.config loc)
      (isDelete : visit.request.method = .delete)
      (led : before.resolve (targetPath loc visit.request) = .ok place)
      (found : ∃ mode contents, before.node place = some (.file mode contents))
      (gone : after.node place = none)
  | script {cgi : CGI} {loc : Location} (takes : Takes visit.request visit.config loc)
      (configured : loc.cgi = some cgi) (ends : endsWith visit.request.path cgi.extension = true)

theorem wrote_serve {platform : Platform} {visit : Visit} {world : World} {place : List Name}
    (changed : (serve platform visit world).2.files.node place ≠ world.files.node place) :
    Wrote visit world.files (serve platform visit world).2.files place := by
  by_cases script : ∃ cgi loc, route visit.request visit.config = .script cgi loc
  · obtain ⟨cgi, loc, isScript⟩ := script
    have found := (route_script isScript).2
    rw [findCgi, Option.filter_eq_some_iff] at found
    exact .script (takes_served (by rw [isScript]; rfl)) found.1 found.2
  · have noScript : ∀ cgi loc, route visit.request visit.config ≠ .script cgi loc :=
      fun cgi loc isScript => script ⟨cgi, loc, isScript⟩
    rcases frame_buildResponse platform visit.clock visit.request visit.config noScript with
      same | ⟨-, loc, takes, ⟨isDelete, removed⟩ | ⟨isPost, stored⟩⟩
    · exact absurd (congrArg (fun files : FileSystem => files.node place) same) changed
    · obtain ⟨led, found, gone⟩ := removed.changed place changed
      exact .removed takes isDelete led found gone
    · rcases stored.changed place changed with ⟨leads, -, whole⟩ | ⟨free, made, leads⟩
      · exact .file takes isPost leads whole
      · exact .directory takes isPost free made leads

section
variable {ι : Type} [DecidableEq ι] {platform : Platform} {servers : ι → Server}
  {listeners : ι → Fd} {first process next : ι → Loop} {turn : ι × Label}

def OneWorld (process : ι → Loop) : Prop :=
  ∀ thread other, (process thread).world = (process other).world

theorem oneWorld_step (step : ProcessStep platform servers listeners process turn next) :
    OneWorld next := by
  obtain ⟨thread, label⟩ := turn
  have seen : ∀ other, (next other).world = (next thread).world := by
    intro other
    by_cases same : other = thread
    · rw [same]
    · rw [step.others same]
      rfl
  intro one other
  rw [seen one, seen other]

theorem oneWorld_reached {guard : (ι → Loop) → ι × Label → Prop} (together : OneWorld first)
    (reached : Reaches (ProcessStep platform servers listeners) guard (· = first) process) :
    OneWorld process := by
  apply reached.invariant
  · intro process same
    rw [same]
    exact together
  · exact fun process turn next _ _ step => oneWorld_step step

/-- The request that a turn hands on, if it does, has done what the turn did. -/
theorem wrote_step {viewer : ι} {place : List Name} (together : OneWorld process)
    (step : ProcessStep platform servers listeners process turn next)
    (changed : (next viewer).world.files.node place ≠ (process viewer).world.files.node place) :
    Foreign turn.2 ∨ ∃ visit, handed platform (servers turn.1) (process turn.1) turn.2 = some visit ∧
      Wrote visit (process viewer).world.files (next viewer).world.files place := by
  obtain ⟨thread, label⟩ := turn
  rw [oneWorld_step step viewer thread, together viewer thread] at changed ⊢
  by_cases foreign : Foreign label
  · exact Or.inl foreign
  · right
    have own := step.own
    cases handing : handed platform (servers thread) (process thread) label with
    | none =>
      rw [world_unhanded foreign handing own] at changed
      exact absurd rfl changed
    | some visit =>
      cases label with
      | read clock event results =>
        rw [(step_handed handing own).1] at changed ⊢
        exact ⟨visit, rfl, wrote_serve changed⟩
      | _ => cases handing

end

def siteUploaded : Thread twoSites → Loop :=
  Function.update (fun _ => notice bothReady uploaded bothReady) webThread uploaded

end LocalServer.Authors
