import LocalServer.Session

/-! Every sequence of calls on the session store, and what its answers say about the calls before
them. Sessions are removed when they are found expired, and nothing tells when they were. -/

namespace LocalServer.SessionTraces
open Library Text

inductive Op where
  | create
  | set (id key value : Str)
  | get (id : Str)
  | getMut (id : Str)
  | getValue (id key : Str)
  | destroy (id : Str)
  | cleanup
  deriving DecidableEq

structure Call where
  op : Op
  clock : Clock

inductive Answer where
  | created (id : Str)
  | flag (done : Bool)
  | session (found : Option Session)
  | value (found : Option Str)
  | nothing

def perform (store : SessionStore) (call : Call) : Answer × SessionStore :=
  match call.op with
  | .create => (store.create call.clock).map .created id
  | .set target key value => (store.set call.clock target key value).map .flag id
  | .get target => (store.getMut call.clock target).map .session id
  | .getMut target => (store.getMut call.clock target).map .session id
  | .getValue target key => (store.getValue call.clock target key).map .value id
  | .destroy target => (.nothing, store.destroy target)
  | .cleanup => (.nothing, store.cleanup call.clock)

structure Event where
  call : Call
  answer : Answer

structure Run where
  store : SessionStore
  events : List Event

def record (run : Run) (call : Call) : Run :=
  ⟨(perform run.store call).2, ⟨call, (perform run.store call).1⟩ :: run.events⟩

def runOf (calls : List Call) : Run := calls.foldl record ⟨SessionStore.new, []⟩

def Ordered (calls : List Call) : Prop :=
  calls.Pairwise fun earlier later => earlier.clock.now ≤ later.clock.now

def Call.concerns (id : Str) (call : Call) : Bool :=
  match call.op with
  | .create => generateId call.clock = id
  | .set other _ _ => other = id
  | .get other => other = id
  | .getMut other => other = id
  | .getValue other _ => other = id
  | .destroy other => other = id
  | .cleanup => false

/-- The last creation that returned `id`, at `time`, and what was done since. -/
def Created (events : List Event) (id : Str) (since : List Event) (time : Nat) : Prop :=
  ∃ creation earlier, events = since ++ creation :: earlier ∧ creation.answer = .created id ∧
    creation.call.clock.now = time ∧ ∀ event ∈ since, event.answer ≠ .created id

def Sets (id key value : Str) (event : Event) : Prop :=
  event.call.op = .set id key value ∧ event.answer = .flag true

/-- The value was set, with success, after all other values of its key. -/
def LastSet (since : List Event) (id key value : Str) : Prop :=
  ∃ later last earlier, since = later ++ last :: earlier ∧ Sets id key value last ∧
    ∀ event ∈ later, ∀ other, ¬ Sets id key other event

def Live (events : List Event) (id : Str) (now : Nat) : Prop :=
  ∃ since time, Created events id since time ∧ (∀ event ∈ since, event.call.op ≠ .destroy id) ∧
    now ≤ time + hour

def Holds (events : List Event) (id key value : Str) (now : Nat) : Prop :=
  ∃ since time, Created events id since time ∧ (∀ event ∈ since, event.call.op ≠ .destroy id) ∧
    now ≤ time + hour ∧ LastSet since id key value

/-! The session a run leaves behind -/

def put (key value : Str) (session : Session) : Session :=
  { session with data := session.data.insert key value }

def Answer.isCreated (id : Str) : Answer → Bool
  | .created other => other = id
  | _ => false

def Answer.isTrue : Answer → Bool
  | .flag done => done
  | _ => false

def absorb (id : Str) (event : Event) (session : Option Session) : Option Session :=
  if event.answer.isCreated id then some ⟨HashMap.empty, event.call.clock.now⟩
  else
    match event.call.op with
    | .destroy other => if other = id then none else session
    | .set other key value =>
      if other = id ∧ event.answer.isTrue = true then session.map (put key value) else session
    | _ => session

def replay (id : Str) (events : List Event) : Option Session := events.foldr (absorb id) none

def fresh (now : Nat) (session : Session) : Bool := now ≤ session.createdAt + hour

def live (now : Nat) (store : SessionStore) (id : Str) : Option Session :=
  (store.sessions.get id).filter (fresh now)

section
variable {now later : Nat} {store : SessionStore} {id : Str} {clock : Clock}

theorem fresh_iff {session : Session} : fresh now session = true ↔ now ≤ session.createdAt + hour :=
  decide_eq_true_iff

theorem fresh_not_expired (session : Session) : fresh clock.now session = !session.isExpired clock := by
  rw [Bool.eq_iff_iff, fresh_iff, Bool.not_eq_true', Bool.eq_false_iff, ne_eq, Session.isExpired_iff]
  omega

/-- What is no longer found is not found later. -/
theorem filter_fresh (ordered : now ≤ later) (session : Option Session) :
    (session.filter (fresh now)).filter (fresh later) = session.filter (fresh later) := by
  rw [Option.filter_filter]
  congr 1
  funext session
  rw [Bool.eq_iff_iff, Bool.and_eq_true, fresh_iff, fresh_iff]
  omega

/-- A call on one session is answered from what it finds. -/
theorem getMut_live : (store.getMut clock id).1 = live clock.now store id := by
  unfold live
  rcases store.getMut_cases clock id with ⟨none, ran⟩ | ⟨session, found, expired, ran⟩ |
    ⟨session, found, alive, ran⟩
  · rw [ran, none]
    rfl
  · rw [ran, found, Option.filter_some, fresh_not_expired, expired]
    rfl
  · rw [ran, found, Option.filter_some, fresh_not_expired, alive]
    rfl

theorem live_getMut (other : Str) (ordered : clock.now ≤ now) :
    live now (store.getMut clock other).2 id = live now store id := by
  rcases store.getMut_cases clock other with ⟨none, ran⟩ | ⟨session, found, expired, ran⟩ |
    ⟨session, found, alive, ran⟩
  · rw [ran]
  · rw [ran]
    unfold live
    rw [HashMap.get_remove]
    split_ifs with same
    · rw [same, found, Option.filter_some, if_neg]
      · rfl
      · rw [fresh_iff]
        rw [Session.isExpired_iff] at expired
        omega
    · rfl
  · rw [ran]

theorem live_cleanup (ordered : clock.now ≤ now) :
    live now (store.cleanup clock) id = live now store id := by
  unfold live SessionStore.cleanup
  rw [HashMap.get_retain, ← filter_fresh ordered (store.sessions.get id)]
  congr 2
  funext session
  exact (fresh_not_expired session).symm

theorem set_live (key value : Str) :
    (store.set clock id key value).1 = (live clock.now store id).isSome := by
  have found := @getMut_live store id clock
  unfold SessionStore.set
  cases ran : store.getMut clock id with
  | mk session after =>
    rw [ran] at found
    rw [← found]
    cases session <;> rfl

theorem live_set (target key value : Str) (ordered : clock.now ≤ now) :
    live now (store.set clock target key value).2 id =
      if target = id then ((live clock.now store id).map (put key value)).filter (fresh now)
      else live now store id := by
  have found := @getMut_live store target clock
  have kept := @live_getMut now store id clock target ordered
  unfold SessionStore.set
  cases ran : store.getMut clock target with
  | mk session after =>
    rw [ran] at found kept
    cases session with
    | none =>
      dsimp only at found kept ⊢
      rw [kept]
      split_ifs with same
      · subst same
        rw [← found, live, ← filter_fresh ordered, ← live, ← found]
        rfl
      · rfl
    | some session =>
      dsimp only at found kept ⊢
      rw [live, HashMap.get_insert]
      by_cases same : target = id
      · rw [if_pos same.symm, if_pos same, ← same, ← found]
        rfl
      · rw [if_neg fun equal => same equal.symm, if_neg same, ← kept]
        rfl

theorem live_create :
    live now (store.create clock).2 id =
      if generateId clock = id then
        (some ⟨HashMap.empty, clock.now⟩ : Option Session).filter (fresh now)
      else live now store id := by
  unfold live SessionStore.create
  dsimp only
  rw [HashMap.get_insert]
  by_cases same : generateId clock = id
  · rw [if_pos same.symm, if_pos same]
  · rw [if_neg fun equal => same equal.symm, if_neg same]

theorem live_destroy (target : Str) :
    live now (store.destroy target) id = if target = id then none else live now store id := by
  unfold live SessionStore.destroy
  dsimp only
  rw [HashMap.get_remove]
  by_cases same : target = id
  · rw [if_pos same.symm, if_pos same]
    rfl
  · rw [if_neg fun equal => same equal.symm, if_neg same]

theorem getValue_live (key : Str) :
    store.getValue clock id key =
      ((live clock.now store id).bind fun session => session.data.get key,
        (store.getMut clock id).2) := by
  rw [← getMut_live]
  unfold SessionStore.getValue
  cases store.getMut clock id with
  | mk session after => cases session <;> rfl

theorem absorb_create {other : Str} {session : Option Session} :
    absorb id ⟨⟨.create, clock⟩, .created other⟩ session =
      if other = id then some ⟨HashMap.empty, clock.now⟩ else session := by
  unfold absorb
  simp only [Answer.isCreated, decide_eq_true_eq]

theorem absorb_set {target key value : Str} {done : Bool} {session : Option Session} :
    absorb id ⟨⟨.set target key value, clock⟩, .flag done⟩ session =
      if target = id ∧ done = true then session.map (put key value) else session := rfl

/-- One call: the store and what the events say keep together. -/
theorem live_perform {session : Option Session} {start : Nat}
    (agrees : ∀ time, start ≤ time → live time store id = session.filter (fresh time)) (call : Call)
    (began : start ≤ call.clock.now) (time : Nat) (ordered : call.clock.now ≤ time) :
    live time (perform store call).2 id =
      (absorb id ⟨call, (perform store call).1⟩ session).filter (fresh time) := by
  have before := agrees time (began.trans ordered)
  obtain ⟨op, clock⟩ := call
  cases op with
  | create =>
    refine live_create.trans ?_
    rw [before]
    change _ = (absorb id ⟨⟨.create, clock⟩, .created (generateId clock)⟩ session).filter (fresh time)
    rw [absorb_create]
    split_ifs <;> rfl
  | set target key value =>
    refine (live_set target key value ordered).trans ?_
    rw [before]
    have done : (perform store ⟨.set target key value, clock⟩).1 =
      .flag (live clock.now store target).isSome := congrArg Answer.flag (set_live key value)
    rw [done, absorb_set]
    by_cases same : target = id
    · rw [if_pos same, same, agrees clock.now began]
      cases found : session.filter (fresh clock.now) with
      | none =>
        have gone : session.filter (fresh time) = none := by
          rw [← filter_fresh (show clock.now ≤ time from ordered), found]
          rfl
        rw [if_neg fun both => Bool.false_ne_true both.2, gone]
        rfl
      | some alive =>
        rw [(Option.filter_eq_some_iff.mp found).1, if_pos ⟨rfl, rfl⟩]
    · rw [if_neg same, if_neg fun both => same both.1]
  | get target => exact (live_getMut target ordered).trans before
  | getMut target => exact (live_getMut target ordered).trans before
  | getValue target key =>
    have kept : live time (perform store ⟨.getValue target key, clock⟩).2 id = live time store id := by
      unfold perform
      dsimp only
      rw [getValue_live]
      exact live_getMut target ordered
    exact kept.trans before
  | destroy target =>
    refine (live_destroy target).trans ?_
    rw [before]
    change _ = (if target = id then none else session).filter (fresh time)
    split_ifs <;> rfl
  | cleanup => exact (live_cleanup ordered).trans before

end

theorem runOf_concat (calls : List Call) (last : Call) :
    runOf (calls ++ [last]) = record (runOf calls) last := by
  rw [runOf, List.foldl_append]
  rfl

/-- After every ordered run a session is found exactly as long as it is remembered and fresh. -/
theorem live_runOf (id : Str) {calls : List Call} (ordered : Ordered calls) {now : Nat}
    (past : ∀ call ∈ calls, call.clock.now ≤ now) :
    live now (runOf calls).store id = (replay id (runOf calls).events).filter (fresh now) := by
  induction calls using List.reverseRecOn generalizing now with
  | nil => rfl
  | append_singleton calls last ih =>
    obtain ⟨earlier, -, latest⟩ := List.pairwise_append.mp ordered
    have began : ∀ call ∈ calls, call.clock.now ≤ last.clock.now := by
      intro call member
      exact latest call member last List.mem_cons_self
    rw [runOf_concat]
    exact live_perform (fun time later => ih earlier fun call member =>
      (began call member).trans later) last le_rfl now (past last (by simp))

def reply (call : Call) (session : Option Session) : Answer :=
  match call.op with
  | .create => .created (generateId call.clock)
  | .set _ _ _ => .flag session.isSome
  | .get _ => .session session
  | .getMut _ => .session session
  | .getValue _ key => .value (session.bind fun session => session.data.get key)
  | .destroy _ => .nothing
  | .cleanup => .nothing

section
variable {store : SessionStore} {id : Str} {call : Call}

theorem answer_perform (concerned : call.concerns id = true) :
    (perform store call).1 = reply call (live call.clock.now store id) := by
  obtain ⟨op, clock⟩ := call
  cases op with
  | create => rfl
  | set target key value =>
    cases of_decide_eq_true concerned
    exact congrArg Answer.flag (set_live key value)
  | get target =>
    cases of_decide_eq_true concerned
    exact congrArg Answer.session getMut_live
  | getMut target =>
    cases of_decide_eq_true concerned
    exact congrArg Answer.session getMut_live
  | getValue target key =>
    cases of_decide_eq_true concerned
    exact congrArg Answer.value (congrArg Prod.fst (getValue_live key))
  | destroy target => rfl
  | cleanup => rfl

theorem absorb_other (elsewhere : call.concerns id = false) (session : Option Session) :
    absorb id ⟨call, (perform store call).1⟩ session = session := by
  obtain ⟨op, clock⟩ := call
  cases op with
  | create => exact absorb_create.trans (if_neg (of_decide_eq_false elsewhere))
  | set target key value =>
    exact absorb_set.trans (if_neg fun both => of_decide_eq_false elsewhere both.1)
  | destroy target => exact if_neg (of_decide_eq_false elsewhere)
  | _ => rfl

end

/-- The calls on one session are answered as if there were no others. -/
theorem runOf_filter (id : Str) {calls : List Call} (ordered : Ordered calls) :
    (runOf calls).events.filter (fun event => event.call.concerns id) =
        (runOf (calls.filter (Call.concerns id))).events ∧
      replay id (runOf calls).events = replay id (runOf (calls.filter (Call.concerns id))).events := by
  induction calls using List.reverseRecOn with
  | nil => exact ⟨rfl, rfl⟩
  | append_singleton calls last ih =>
    obtain ⟨earlier, -, latest⟩ := List.pairwise_append.mp ordered
    have began : ∀ call ∈ calls, call.clock.now ≤ last.clock.now := by
      intro call member
      exact latest call member last List.mem_cons_self
    obtain ⟨sameEvents, sameReplay⟩ := ih earlier
    rw [runOf_concat, List.filter_append]
    by_cases concerned : last.concerns id = true
    · have alone : Ordered (calls.filter (Call.concerns id)) := earlier.filter _
      have answered : (perform (runOf calls).store last).1 =
          (perform (runOf (calls.filter (Call.concerns id))).store last).1 := by
        rw [answer_perform concerned, answer_perform concerned, live_runOf id earlier began,
          live_runOf id alone fun call member => began call (List.mem_of_mem_filter member), sameReplay]
      rw [List.filter_singleton, concerned, cond_true, runOf_concat]
      refine ⟨?_, ?_⟩
      · simp only [record, List.filter_cons, concerned, if_true, sameEvents, answered]
      · change absorb id _ (replay id _) = absorb id _ (replay id _)
        rw [answered, sameReplay]
    · rw [Bool.not_eq_true] at concerned
      rw [List.filter_singleton, concerned, cond_false, List.append_nil]
      refine ⟨?_, ?_⟩
      · simp only [record, List.filter_cons, concerned, Bool.false_eq_true, if_false, sameEvents]
      · exact (absorb_other concerned _).trans sameReplay

/-! What is remembered, read off the calls -/

section
variable {id : Str} {event : Event} {events since : List Event} {time : Nat}

theorem isCreated_iff : event.answer.isCreated id = true ↔ event.answer = .created id := by
  cases answer : event.answer <;> simp [Answer.isCreated]

theorem isTrue_iff : event.answer.isTrue = true ↔ event.answer = .flag true := by
  cases answer : event.answer <;> simp [Answer.isTrue]

theorem created_of_answer (created : event.answer = .created id) :
    Created (event :: events) id since time ↔ since = [] ∧ event.call.clock.now = time := by
  constructor
  · rintro ⟨creation, earlier, split, isCreated, sameTime, later⟩
    cases since with
    | nil =>
      cases split
      exact ⟨rfl, sameTime⟩
    | cons first since =>
      cases split
      exact absurd created (later event List.mem_cons_self)
  · rintro ⟨rfl, sameTime⟩
    exact ⟨event, events, rfl, created, sameTime, by simp⟩

theorem created_of_other (other : event.answer ≠ .created id) :
    Created (event :: events) id since time ↔
      ∃ before, since = event :: before ∧ Created events id before time := by
  constructor
  · rintro ⟨creation, earlier, split, isCreated, sameTime, later⟩
    cases since with
    | nil =>
      cases split
      exact absurd isCreated other
    | cons first since =>
      cases split
      exact ⟨since, rfl, creation, earlier, rfl, isCreated, sameTime, fun event member =>
        later event (List.mem_cons_of_mem _ member)⟩
  · rintro ⟨before, rfl, creation, earlier, rfl, isCreated, sameTime, later⟩
    exact ⟨creation, earlier, rfl, isCreated, sameTime, List.forall_mem_cons.mpr ⟨other, later⟩⟩

theorem lastSet_cons {key value : Str} :
    LastSet (event :: since) id key value ↔
      Sets id key value event ∨ (∀ other, ¬ Sets id key other event) ∧ LastSet since id key value := by
  constructor
  · rintro ⟨later, last, earlier, split, sets, none⟩
    cases later with
    | nil =>
      cases split
      exact Or.inl sets
    | cons first later =>
      cases split
      obtain ⟨notHere, notLater⟩ := List.forall_mem_cons.mp none
      exact Or.inr ⟨notHere, later, last, earlier, rfl, sets, notLater⟩
  · rintro (sets | ⟨notHere, later, last, earlier, rfl, sets, none⟩)
    · exact ⟨[], event, since, rfl, sets, by simp⟩
    · exact ⟨event :: later, last, earlier, rfl, sets, List.forall_mem_cons.mpr ⟨notHere, none⟩⟩

/-- What an event that creates nothing does: destroy, set, or nothing at all. -/
theorem absorb_cases (other : event.answer ≠ .created id) :
    (event.call.op = .destroy id ∧ ∀ session, absorb id event session = none) ∨
      event.call.op ≠ .destroy id ∧
        ((∃ key value, Sets id key value event ∧
            ∀ session, absorb id event session = session.map (put key value)) ∨
          (∀ key value, ¬ Sets id key value event) ∧ ∀ session, absorb id event session = session) := by
  have notCreated : ¬ event.answer.isCreated id = true := fun created => other (isCreated_iff.mp created)
  unfold absorb
  simp only [if_neg notCreated]
  cases op : event.call.op with
  | destroy target =>
    by_cases same : target = id
    · exact Or.inl ⟨by rw [same], fun session => if_pos same⟩
    · refine Or.inr ⟨by simpa using same, Or.inr ⟨?_, fun session => if_neg same⟩⟩
      rintro key value ⟨isSet, -⟩
      cases op.symm.trans isSet
  | set target key value =>
    right
    refine ⟨by simp, ?_⟩
    by_cases both : target = id ∧ event.answer.isTrue = true
    · left
      exact ⟨key, value, ⟨by rw [op, both.1], isTrue_iff.mp both.2⟩, fun session => if_pos both⟩
    · right
      refine ⟨?_, fun session => if_neg both⟩
      rintro otherKey otherValue ⟨isSet, done⟩
      cases op.symm.trans isSet
      exact both ⟨rfl, isTrue_iff.mpr done⟩
  | _ =>
    refine Or.inr ⟨by simp, Or.inr ⟨?_, fun session => rfl⟩⟩
    rintro key value ⟨isSet, -⟩
    cases op.symm.trans isSet

/-- The session was created, not destroyed since, and holds what was set last. -/
structure Remembered (events : List Event) (id : Str) (session : Session) (since : List Event) : Prop where
  created : Created events id since session.createdAt
  kept : ∀ event ∈ since, event.call.op ≠ .destroy id
  holds : ∀ key value, session.data.get key = some value ↔ LastSet since id key value

section
variable {session : Session}

theorem Remembered.set {key value : Str} (remembered : Remembered events id session since)
    (other : event.answer ≠ .created id) (notDestroy : event.call.op ≠ .destroy id)
    (sets : Sets id key value event) :
    Remembered (event :: events) id (put key value session) (event :: since) where
  created := (created_of_other other).mpr ⟨since, rfl, remembered.created⟩
  kept := List.forall_mem_cons.mpr ⟨notDestroy, remembered.kept⟩
  holds := by
    intro otherKey otherValue
    have setsOther (name text : Str) : Sets id name text event ↔ key = name ∧ value = text := by
      rw [Sets, sets.1, Op.set.injEq]
      simp only [true_and, sets.2, and_true]
    rw [put, HashMap.get_insert, lastSet_cons, setsOther]
    by_cases same : otherKey = key
    · rw [if_pos same, Option.some.injEq]
      constructor
      · exact fun equal => Or.inl ⟨same.symm, equal⟩
      · rintro (both | ⟨noSet, -⟩)
        · exact both.2
        · exact absurd ((setsOther otherKey value).mpr ⟨same.symm, rfl⟩) (noSet value)
    · rw [if_neg same, remembered.holds]
      constructor
      · intro last
        exact Or.inr ⟨fun text isSet => same ((setsOther otherKey text).mp isSet).1.symm, last⟩
      · rintro (both | ⟨-, last⟩)
        · exact absurd both.1.symm same
        · exact last

theorem Remembered.quiet (remembered : Remembered events id session since)
    (other : event.answer ≠ .created id) (notDestroy : event.call.op ≠ .destroy id)
    (noSet : ∀ key value, ¬ Sets id key value event) :
    Remembered (event :: events) id session (event :: since) where
  created := (created_of_other other).mpr ⟨since, rfl, remembered.created⟩
  kept := List.forall_mem_cons.mpr ⟨notDestroy, remembered.kept⟩
  holds := by
    intro key value
    rw [lastSet_cons, remembered.holds]
    constructor
    · exact fun last => Or.inr ⟨noSet key, last⟩
    · rintro (sets | ⟨-, last⟩)
      · exact absurd sets (noSet key value)
      · exact last

theorem remembered_created (created : event.answer = .created id) :
    Remembered (event :: events) id ⟨HashMap.empty, event.call.clock.now⟩ [] where
  created := (created_of_answer created).mpr ⟨rfl, rfl⟩
  kept := by simp
  holds := by
    intro key value
    rw [HashMap.get_empty]
    constructor
    · intro found
      cases found
    · rintro ⟨later, last, earlier, split, -⟩
      cases later <;> cases split

end

/-- What is remembered of a session is what the calls since its creation say, and nothing is
remembered of a session that was not created or was destroyed. -/
theorem replay_cases (id : Str) (events : List Event) :
    (∃ session since, replay id events = some session ∧ Remembered events id session since) ∨
      replay id events = none ∧ ∀ since time, Created events id since time →
        ∃ event ∈ since, event.call.op = .destroy id := by
  induction events with
  | nil =>
    right
    refine ⟨rfl, ?_⟩
    rintro since time ⟨creation, earlier, split, -⟩
    cases since <;> cases split
  | cons event events ih =>
    change (∃ session since, absorb id event (replay id events) = some session ∧ _) ∨
      absorb id event (replay id events) = none ∧ _
    by_cases created : event.answer = .created id
    · left
      exact ⟨_, [], if_pos (isCreated_iff.mpr created), remembered_created created⟩
    · rcases absorb_cases created with ⟨destroys, absorbed⟩ | ⟨notDestroy, effect⟩
      · right
        refine ⟨absorbed _, ?_⟩
        intro since time isCreated
        obtain ⟨before, rfl, -⟩ := (created_of_other created).mp isCreated
        exact ⟨event, List.mem_cons_self, destroys⟩
      · rcases ih with ⟨session, since, replayed, remembered⟩ | ⟨forgotten, destroyed⟩
        · left
          rcases effect with ⟨key, value, sets, absorbed⟩ | ⟨noSet, absorbed⟩
          · refine ⟨put key value session, event :: since, ?_,
              remembered.set created notDestroy sets⟩
            rw [absorbed, replayed]
            rfl
          · refine ⟨session, event :: since, ?_, remembered.quiet created notDestroy noSet⟩
            rw [absorbed, replayed]
        · right
          refine ⟨?_, ?_⟩
          · rcases effect with ⟨key, value, -, absorbed⟩ | ⟨-, absorbed⟩ <;>
              rw [absorbed, forgotten]
            rfl
          · intro since time isCreated
            obtain ⟨before, rfl, earlier⟩ := (created_of_other created).mp isCreated
            obtain ⟨other, member, destroys⟩ := destroyed before time earlier
            exact ⟨other, List.mem_cons_of_mem _ member, destroys⟩

/-- There is one last creation. -/
theorem Created.unique {otherSince : List Event} {otherTime : Nat}
    (created : Created events id since time) (other : Created events id otherSince otherTime) :
    since = otherSince ∧ time = otherTime := by
  induction events generalizing since otherSince with
  | nil =>
    obtain ⟨creation, earlier, split, -⟩ := created
    cases since <;> cases split
  | cons event events ih =>
    by_cases here : event.answer = .created id
    · obtain ⟨rfl, rfl⟩ := (created_of_answer here).mp created
      obtain ⟨rfl, rfl⟩ := (created_of_answer here).mp other
      exact ⟨rfl, rfl⟩
    · obtain ⟨before, rfl, earlier⟩ := (created_of_other here).mp created
      obtain ⟨otherBefore, rfl, otherEarlier⟩ := (created_of_other here).mp other
      obtain ⟨rfl, rfl⟩ := ih earlier otherEarlier
      exact ⟨rfl, rfl⟩

theorem live_iff (events : List Event) (id : Str) (now : Nat) :
    ((replay id events).filter (fresh now)).isSome = true ↔ Live events id now := by
  rcases replay_cases id events with ⟨session, since, replayed, remembered⟩ | ⟨forgotten, destroyed⟩
  · rw [replayed, Option.isSome_filter, Option.any_some, fresh_iff]
    constructor
    · exact fun inTime => ⟨since, _, remembered.created, remembered.kept, inTime⟩
    · rintro ⟨otherSince, time, created, -, inTime⟩
      rwa [(remembered.created.unique created).2]
  · rw [forgotten]
    constructor
    · intro found
      cases found
    · rintro ⟨since, time, created, kept, -⟩
      obtain ⟨event, member, destroys⟩ := destroyed since time created
      exact absurd destroys (kept event member)

theorem holds_iff (events : List Event) (id key value : Str) (now : Nat) :
    (((replay id events).filter (fresh now)).bind fun session => session.data.get key) = some value ↔
      Holds events id key value now := by
  rcases replay_cases id events with ⟨session, since, replayed, remembered⟩ | ⟨forgotten, destroyed⟩
  · rw [replayed, Option.filter_some]
    constructor
    · intro found
      split_ifs at found with inTime
      · exact ⟨since, _, remembered.created, remembered.kept, fresh_iff.mp inTime,
          (remembered.holds key value).mp found⟩
      · cases found
    · rintro ⟨otherSince, time, created, -, inTime, last⟩
      obtain ⟨rfl, rfl⟩ := remembered.created.unique created
      rw [if_pos (fresh_iff.mpr inTime)]
      exact (remembered.holds key value).mpr last
  · rw [forgotten]
    constructor
    · intro found
      cases found
    · rintro ⟨since, time, created, kept, -⟩
      obtain ⟨event, member, destroys⟩ := destroyed since time created
      exact absurd destroys (kept event member)

end

structure Exact (calls : List Call) (clock : Clock) : Prop where
  getValue : ∀ id key value, ((runOf calls).store.getValue clock id key).1 = some value ↔
    Holds (runOf calls).events id key value clock.now
  set : ∀ id key value, ((runOf calls).store.set clock id key value).1 = true ↔
    Live (runOf calls).events id clock.now
  alone : ∀ id others, Ordered others →
    others.filter (Call.concerns id) = calls.filter (Call.concerns id) →
      (runOf others).events.filter (fun event => event.call.concerns id) =
        (runOf calls).events.filter fun event => event.call.concerns id

/-- After every ordered run a value is found if and only if it was set last in a session that was
created at most an hour ago and not destroyed since, a value is set if and only if there is such a
session, and calls that are not about a session change no answer about it. -/
theorem trace_semantics (calls : List Call) (clock : Clock) (ordered : Ordered calls)
    (past : ∀ call ∈ calls, call.clock.now ≤ clock.now) : Exact calls clock where
  getValue id key value := by
    rw [getValue_live, live_runOf id ordered past]
    exact holds_iff _ id key value clock.now
  set id key value := by
    rw [set_live, live_runOf id ordered past]
    exact live_iff _ id clock.now
  alone id others otherOrdered same := by
    rw [(runOf_filter id otherOrdered).1, (runOf_filter id ordered).1, same]

def visitCalls : List Call :=
  let id := generateId ⟨0, 7, 1⟩
  [⟨.create, ⟨0, 7, 1⟩⟩, ⟨.get id, ⟨1, 0, 1⟩⟩, ⟨.set id "user".toList "a".toList, ⟨2, 0, 1⟩⟩, ⟨.cleanup, ⟨3, 0, 1⟩⟩,
    ⟨.destroy id, ⟨hour, 0, 1⟩⟩]

theorem trace_semantics_visit : Exact visitCalls ⟨hour + 1, 0, 1⟩ :=
  trace_semantics visitCalls ⟨hour + 1, 0, 1⟩ (by simp [Ordered, visitCalls, hour, nanosPerSec])
    (by simp [visitCalls, hour, nanosPerSec])

end LocalServer.SessionTraces
