import LocalServer.Library.Transition
import LocalServer.Session
import Mathlib.Data.Nat.ModEq
import Mathlib.Tactic.NormNum.GCD

/-! Which session ids repeat: only the wall clock below the second enters an id. -/

namespace LocalServer.SessionIds
open Library Text

structure InProcess (pid : Nat) (clock : Clock) : Prop where
  nanos : clock.nanos < nanosPerSec
  pid : clock.pid = pid

inductive Operation where
  | create
  | get (id : Str)
  | set (id key value : Str)
  | getValue (id key : Str)
  | destroy (id : Str)

def Operation.apply (store : SessionStore) (clock : Clock) : Operation → SessionStore
  | .create => (store.create clock).2
  | .get id => (store.getMut clock id).2
  | .set id key value => (store.set clock id key value).2
  | .getValue id key => (store.getValue clock id key).2
  | .destroy id => store.destroy id

def Operation.readings (clock : Clock) : Operation → List Clock
  | .create => [clock]
  | _ => []

structure State where
  store : SessionStore
  created : List Clock

def begins (state : State) : Prop := state = ⟨SessionStore.new, []⟩

def step (before : State) (label : Operation × Clock) (after : State) : Prop :=
  after = ⟨label.1.apply before.store label.2, label.1.readings label.2 ++ before.created⟩

/-- A new session gets an id of its own: no other session changes with it, or with its end. -/
structure Fresh (store : SessionStore) (clock : Clock) : Prop where
  new : store.sessions.get (store.create clock).1 = none
  kept : ∀ id session, store.sessions.get id = some session →
    (store.create clock).2.sessions.get id = some session
  apart : ∀ id session, store.sessions.get id = some session →
    ((store.create clock).2.destroy (store.create clock).1).sessions.get id = some session

def rawId (clock : Clock) : Nat :=
  (clock.nanos * 0x9e3779b97f4a7c15 + clock.pid) * 0x6c62272e07bb0142

theorem generateId_eq (clock : Clock) :
    generateId clock = Numeral.hexadecimal 16 (rawId clock % UInt64.size) := by
  unfold generateId
  rw [BitVec.ofNat_mul_ofNat, BitVec.ofNat_add_ofNat, BitVec.ofNat_mul_ofNat]
  dsimp only
  rw [BitVec.toNat_ofNat]
  rfl

/-- The last multiplier is twice an odd number: only the highest bit of what it is given is lost. -/
theorem mixed_iff (first second : Nat) :
    Nat.ModEq UInt64.size (first * 0x6c62272e07bb0142) (second * 0x6c62272e07bb0142) ↔
      Nat.ModEq 0x8000000000000000 first second := by
  have half : UInt64.size / Nat.gcd UInt64.size 0x6c62272e07bb0142 = 0x8000000000000000 := by
    norm_num [UInt64.size]
  constructor
  · intro same
    rw [← half]
    exact same.cancel_right_div_gcd (by norm_num [UInt64.size])
  · intro same
    have scaled := same.mul_right' 0x6c62272e07bb0142
    exact scaled.of_dvd (by norm_num [UInt64.size])

/-- The bit that is lost is above the thirty bits that the readings of a second need. -/
theorem nanos_eq {pid : Nat} {first second : Clock} (inProcess : InProcess pid first)
    (inProcess' : InProcess pid second)
    (same : Nat.ModEq UInt64.size (rawId first) (rawId second)) : first.nanos = second.nanos := by
  have odd : Nat.gcd 0x8000000000000000 0x9e3779b97f4a7c15 = 1 := by norm_num
  have sums := (mixed_iff _ _).mp same
  rw [inProcess.pid, inProcess'.pid] at sums
  have readings := (Nat.ModEq.add_right_cancel' pid sums).cancel_right_of_coprime odd
  have small := inProcess.nanos
  have small' := inProcess'.nanos
  unfold nanosPerSec at small small'
  exact readings.eq_of_lt_of_lt (by omega) (by omega)

theorem generateId_eq_iff {pid : Nat} {first second : Clock} (inProcess : InProcess pid first)
    (inProcess' : InProcess pid second) :
    generateId first = generateId second ↔ first.nanos = second.nanos := by
  rw [generateId_eq, generateId_eq, (Numeral.hexadecimal_injective 16).eq_iff]
  constructor
  · exact nanos_eq inProcess inProcess'
  · intro same
    rw [rawId, rawId, same, inProcess.pid, inProcess'.pid]

theorem length_generateId (clock : Clock) : (generateId clock).length = 16 := by
  have fits : rawId clock % UInt64.size < 16 ^ 16 := Nat.mod_lt _ (by decide)
  have short := (Nat.length_toDigits_le_iff (by decide) (by decide)).mpr fits
  rw [generateId_eq, Numeral.hexadecimal, List.length_leftpad]
  omega

/-- Sixteen digits that tell at which reading of the process they were made, although one step
on the way to them is not injective. -/
structure TellsReading (pid : Nat) : Prop where
  digits : ∀ clock, InProcess pid clock →
    Numeral.IsDigits 16 (generateId clock) ∧ (generateId clock).length = 16
  distinct : ∀ first second, InProcess pid first → InProcess pid second →
    generateId first = generateId second → first.nanos = second.nanos
  loses : ¬Function.Injective fun raw : BitVec 64 => raw * 0x6c62272e07bb0142#64

theorem generateId_tells (pid : Nat) : TellsReading pid where
  digits clock _ := ⟨isDigits_generateId clock, length_generateId clock⟩
  distinct first second inProcess inProcess' := (generateId_eq_iff inProcess inProcess').mp
  loses := by
    intro injective
    have merged : 0x8000000000000000#64 * 0x6c62272e07bb0142#64 = 0#64 * 0x6c62272e07bb0142#64 := by
      decide
    exact absurd (injective merged) (by decide)

/-! Reachable stores -/

/-- Every session in the store was created at a reading of this process that gave its id. -/
structure Traced (pid : Nat) (state : State) : Prop where
  created : ∀ clock ∈ state.created, InProcess pid clock
  known : ∀ id session, state.store.sessions.get id = some session →
    ∃ clock ∈ state.created, generateId clock = id

/-- What an operation other than `create` leaves was there before. -/
theorem mem_of_apply {store : SessionStore} {clock : Clock} {operation : Operation} {id : Str}
    (old : operation ≠ .create)
    (found : ((operation.apply store clock).sessions.get id).isSome = true) :
    (store.sessions.get id).isSome = true := by
  have removed : ∀ other, ((store.sessions.remove other).get id).isSome = true →
      (store.sessions.get id).isSome = true := by
    intro other kept
    rw [HashMap.get_remove] at kept
    split_ifs at kept
    · cases kept
    · exact kept
  cases operation with
  | create => exact absurd rfl old
  | destroy other => exact removed other found
  | get other =>
    rcases store.getMut_cases clock other with ⟨-, looked⟩ | ⟨session, -, -, looked⟩ |
      ⟨session, -, -, looked⟩
    · rwa [Operation.apply, looked] at found
    · rw [Operation.apply, looked] at found
      exact removed other found
    · rwa [Operation.apply, looked] at found
  | getValue other key =>
    rw [Operation.apply, SessionStore.getValue] at found
    rcases store.getMut_cases clock other with ⟨-, looked⟩ | ⟨session, -, -, looked⟩ |
      ⟨session, -, -, looked⟩
    · rwa [looked] at found
    · rw [looked] at found
      exact removed other found
    · rwa [looked] at found
  | set other key value =>
    rw [Operation.apply, SessionStore.set] at found
    rcases store.getMut_cases clock other with ⟨-, looked⟩ | ⟨session, -, -, looked⟩ |
      ⟨session, present, -, looked⟩
    · rwa [looked] at found
    · rw [looked] at found
      exact removed other found
    · rw [looked] at found
      dsimp only at found
      by_cases same : id = other
      · rw [same, present]
        rfl
      · rwa [HashMap.get_insert_of_ne _ _ _ _ same] at found

theorem traced_step {pid : Nat} {before after : State} {label : Operation × Clock}
    (traced : Traced pid before) (reading : InProcess pid label.2) (steps : step before label after) :
    Traced pid after := by
  obtain ⟨operation, clock⟩ := label
  subst steps
  by_cases creates : operation = .create
  · subst creates
    constructor
    · intro other member
      rcases List.mem_cons.mp member with rfl | earlier
      · exact reading
      · exact traced.created other earlier
    · intro id session found
      by_cases same : id = generateId clock
      · exact ⟨clock, List.mem_cons_self, same.symm⟩
      · have old : before.store.sessions.get id = some session := by
          rw [← found]
          exact (HashMap.get_insert_of_ne _ _ _ _ same).symm
        obtain ⟨other, earlier, isId⟩ := traced.known id session old
        exact ⟨other, List.mem_cons_of_mem _ earlier, isId⟩
  · have sameLog : operation.readings clock ++ before.created = before.created := by
      cases operation with
      | create => exact absurd rfl creates
      | _ => rfl
    dsimp only
    rw [sameLog]
    refine ⟨traced.created, ?_⟩
    intro id session found
    obtain ⟨old, isOld⟩ := Option.isSome_iff_exists.mp
      (mem_of_apply creates (Option.isSome_of_eq_some found))
    exact traced.known id old isOld

theorem traced_reached {pid : Nat} {state : State}
    (reached : Reaches step (fun _ label => InProcess pid label.2) begins state) :
    Traced pid state := by
  apply reached.invariant
  · intro start isStart
    rw [show start = _ from isStart]
    refine ⟨by simp, ?_⟩
    intro id session found
    rw [SessionStore.new, HashMap.get_empty] at found
    cases found
  · exact fun before label after traced reading steps => traced_step traced reading steps

theorem fresh_iff_absent (store : SessionStore) (clock : Clock) :
    Fresh store clock ↔ store.sessions.get (generateId clock) = none := by
  constructor
  · exact fun fresh => fresh.new
  · intro absent
    have different : ∀ {id session}, store.sessions.get id = some session →
        id ≠ generateId clock := by
      intro id session found same
      rw [same, absent] at found
      cases found
    refine ⟨absent, ?_, ?_⟩
    · intro id session found
      rw [← found]
      exact HashMap.get_insert_of_ne _ _ _ _ (different found)
    · intro id session found
      rw [← found]
      calc
        _ = (store.create clock).2.sessions.get id :=
          HashMap.get_remove_of_ne _ _ _ (different found)
        _ = store.sessions.get id := HashMap.get_insert_of_ne _ _ _ _ (different found)

/-- In every reachable store an id is fresh exactly when no session is left that was created at
the same reading below the second. -/
theorem create_fresh_iff {pid : Nat} {state : State}
    (reached : Reaches step (fun _ label => InProcess pid label.2) begins state) {clock : Clock}
    (reading : InProcess pid clock) :
    Fresh state.store clock ↔ ∀ earlier ∈ state.created, earlier.nanos = clock.nanos →
      state.store.sessions.get (generateId earlier) = none := by
  have traced := traced_reached reached
  rw [fresh_iff_absent]
  constructor
  · intro absent earlier member same
    rwa [(generateId_eq_iff (traced.created earlier member) reading).mpr same]
  · intro gone
    cases found : state.store.sessions.get (generateId clock) with
    | none => rfl
    | some session =>
      obtain ⟨earlier, member, isId⟩ := traced.known _ _ found
      have same := (generateId_eq_iff (traced.created earlier member) reading).mp isId
      have absent := gone earlier member same
      rw [isId, found] at absent
      cases absent

def firstReading : Clock := ⟨0, 5, 3⟩

def secondReading : Clock := ⟨nanosPerSec, 5, 3⟩

def afterFirst : State := ⟨(SessionStore.new.create firstReading).2, [firstReading]⟩

theorem afterFirst_reached :
    Reaches step (fun _ label => InProcess 3 label.2) begins afterFirst :=
  .step (.start rfl) (show InProcess 3 (Operation.create, firstReading).2 from
    ⟨by decide +kernel, rfl⟩) rfl

/-- The second login is given the first one's id. -/
theorem create_repeats : ¬∀ (pid : Nat) (state : State),
    Reaches step (fun _ label => InProcess pid label.2) begins state →
      ∀ clock, InProcess pid clock → Fresh state.store clock := by
  intro fresh
  have new := (fresh 3 afterFirst afterFirst_reached secondReading ⟨by decide +kernel, rfl⟩).new
  rw [show (afterFirst.store.create secondReading).1 = generateId firstReading from rfl] at new
  have held : afterFirst.store.sessions.get (generateId firstReading) =
      some ⟨HashMap.empty, 0⟩ := HashMap.get_insert_self _ _ _
  rw [held] at new
  cases new

theorem create_fresh_iff_second : Fresh afterFirst.store secondReading ↔
    ∀ earlier ∈ afterFirst.created, earlier.nanos = secondReading.nanos →
      afterFirst.store.sessions.get (generateId earlier) = none :=
  create_fresh_iff afterFirst_reached ⟨by decide +kernel, rfl⟩

end LocalServer.SessionIds
