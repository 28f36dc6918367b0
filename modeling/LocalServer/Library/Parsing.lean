import Mathlib.Data.List.Basic

/-! Recursive descent over a list of tokens. A parser moves a cursor or stops with an error;
what it reads is stated up to where the tokens stand. -/

namespace LocalServer.Library

/-- A position in a list of tokens. It may lie past the end. -/
structure Cursor (τ : Type) where
  tokens : List τ
  pos : Nat

namespace Cursor

variable {τ κ : Type} (kind : τ → κ) (cursor : Cursor τ)

def peek : Option τ := cursor.tokens[cursor.pos]?

def skip (count : Nat) : Cursor τ := ⟨cursor.tokens, cursor.pos + count⟩

def kinds : List κ := (cursor.tokens.drop cursor.pos).map kind

@[simp] theorem skip_zero : cursor.skip 0 = cursor := rfl

@[simp] theorem skip_skip (first second : Nat) :
    (cursor.skip first).skip second = cursor.skip (first + second) := by
  simp only [skip, Nat.add_assoc]

theorem kinds_skip (count : Nat) : (cursor.skip count).kinds kind = (cursor.kinds kind).drop count := by
  simp only [kinds, skip, List.map_drop, List.drop_drop]

theorem kinds_skip_append {consumed rest : List κ} (whole : cursor.kinds kind = consumed ++ rest) :
    (cursor.skip consumed.length).kinds kind = rest := by
  rw [kinds_skip, whole, List.drop_left]

theorem head?_kinds : (cursor.kinds kind).head? = cursor.peek.map kind := by
  simp only [kinds, peek, List.head?_map, List.head?_drop]

theorem length_kinds : (cursor.kinds kind).length = cursor.tokens.length - cursor.pos := by
  simp only [kinds, List.length_map, List.length_drop]

theorem kinds_of_peek {token : τ} (found : cursor.peek = some token) :
    ∃ rest, cursor.kinds kind = kind token :: rest := by
  have head := cursor.head?_kinds kind
  rw [found] at head
  cases unread : cursor.kinds kind with
  | nil =>
    rw [unread] at head
    cases head
  | cons first rest =>
    rw [unread] at head
    cases head
    exact ⟨rest, rfl⟩

end Cursor

def Parse (ε τ α : Type) := Cursor τ → Except ε (α × Cursor τ)

inductive Turn (σ β : Type) where
  | again (state : σ)
  | done (result : β)

namespace Parse

variable {ε τ κ α β σ : Type}

instance : Monad (Parse ε τ) where
  pure a := fun cursor => .ok (a, cursor)
  bind first next := fun cursor =>
    match first cursor with
    | .error e => .error e
    | .ok (a, cursor) => next a cursor

def fail (e : ε) : Parse ε τ α := fun _ => .error e

def next : Parse ε τ (Option τ) := fun cursor => .ok (cursor.peek, cursor.skip 1)

def peek (kind : τ → κ) : Parse ε τ (Option κ) := fun cursor => .ok (cursor.peek.map kind, cursor)

def position : Parse ε τ Nat := fun cursor => .ok (cursor.pos, cursor)

def iterate (exhausted : ε) (body : σ → Parse ε τ (Turn σ β)) : Nat → σ → Parse ε τ β
  | 0, _ => fail exhausted
  | fuel + 1, state => do
    match ← body state with
    | .again state => iterate exhausted body fuel state
    | .done result => pure result

/-- A loop with at most one turn for each token that is left, and a last one. -/
def loop (exhausted : ε) (body : σ → Parse ε τ (Turn σ β)) (state : σ) : Parse ε τ β := fun cursor =>
  iterate exhausted body (cursor.tokens.length - cursor.pos + 1) state cursor

@[simp] theorem pure_apply (a : α) (cursor : Cursor τ) :
    (pure a : Parse ε τ α) cursor = .ok (a, cursor) := rfl

@[simp] theorem fail_apply (e : ε) (cursor : Cursor τ) :
    (fail e : Parse ε τ α) cursor = .error e := rfl

theorem bind_apply (first : Parse ε τ α) (rest : α → Parse ε τ β) (cursor : Cursor τ) :
    (first >>= rest) cursor =
      match first cursor with
      | .error e => .error e
      | .ok (a, cursor) => rest a cursor := rfl

theorem bind_ok {first : Parse ε τ α} {rest : α → Parse ε τ β} {cursor last : Cursor τ} {b : β} :
    (first >>= rest) cursor = .ok (b, last) ↔
      ∃ a middle, first cursor = .ok (a, middle) ∧ rest a middle = .ok (b, last) := by
  rw [bind_apply]
  cases first cursor with
  | error e => simp
  | ok result =>
    obtain ⟨a, middle⟩ := result
    simp

/-! What a parser reads -/

/-- From here the parser returns a value exactly on the kinds of tokens that are accepted for
this value in front of the rest, and moves past these. -/
def ReadsAt (kind : τ → κ) (parser : Parse ε τ α) (accepts : List κ → α → List κ → Prop)
    (cursor : Cursor τ) : Prop :=
  ∀ a last, parser cursor = .ok (a, last) ↔
    ∃ consumed rest, cursor.kinds kind = consumed ++ rest ∧ last = cursor.skip consumed.length ∧
      accepts consumed a rest

def Reads (kind : τ → κ) (parser : Parse ε τ α) (accepts : List κ → α → List κ → Prop) : Prop :=
  ∀ cursor, ReadsAt kind parser accepts cursor

section
variable {kind : τ → κ} {parser : Parse ε τ α} {accepts : List κ → α → List κ → Prop}

theorem ReadsAt.mono {cursor : Cursor τ} (reads : ReadsAt kind parser accepts cursor)
    {accepts' : List κ → α → List κ → Prop}
    (same : ∀ consumed a rest, cursor.kinds kind = consumed ++ rest →
      (accepts consumed a rest ↔ accepts' consumed a rest)) :
    ReadsAt kind parser accepts' cursor := by
  intro a last
  rw [reads a last]
  constructor
  · intro read
    obtain ⟨consumed, rest, whole, moved, accepted⟩ := read
    exact ⟨consumed, rest, whole, moved, (same _ _ _ whole).mp accepted⟩
  · intro read
    obtain ⟨consumed, rest, whole, moved, accepted⟩ := read
    exact ⟨consumed, rest, whole, moved, (same _ _ _ whole).mpr accepted⟩

theorem Reads.mono (reads : Reads kind parser accepts) {accepts' : List κ → α → List κ → Prop}
    (same : ∀ consumed a rest, accepts consumed a rest ↔ accepts' consumed a rest) :
    Reads kind parser accepts' :=
  fun cursor => (reads cursor).mono fun consumed a rest _ => same consumed a rest

theorem reads_pure (a : α) :
    Reads kind (pure a : Parse ε τ α) fun consumed b _ => consumed = [] ∧ b = a := by
  intro cursor b last
  rw [pure_apply, Except.ok.injEq, Prod.mk.injEq]
  constructor
  · intro same
    obtain ⟨rfl, rfl⟩ := same
    exact ⟨[], _, rfl, rfl, rfl, rfl⟩
  · intro read
    obtain ⟨consumed, rest, -, rfl, rfl, rfl⟩ := read
    exact ⟨rfl, rfl⟩

theorem reads_fail (e : ε) : Reads kind (fail e : Parse ε τ α) fun _ _ _ => False := by
  intro cursor a last
  simp

/-- What follows a peek is only run in front of what was seen. -/
theorem readsAt_peek_bind {next : Option κ → Parse ε τ α} {cursor : Cursor τ}
    (later : ReadsAt kind (next (cursor.kinds kind).head?) accepts cursor) :
    ReadsAt kind (peek kind >>= next) accepts cursor := by
  rw [cursor.head?_kinds kind] at later
  exact later

theorem readsAt_next {cursor : Cursor τ} {seen : κ} (found : (cursor.kinds kind).head? = some seen)
    (a : α) : ReadsAt kind (next >>= fun _ => pure a : Parse ε τ α)
      (fun consumed b _ => consumed = [seen] ∧ b = a) cursor := by
  intro b last
  obtain ⟨rest, whole⟩ := List.head?_eq_some_iff.mp found
  constructor
  · intro run
    cases run
    exact ⟨[seen], rest, whole, rfl, rfl, rfl⟩
  · intro read
    obtain ⟨_, rest', -, rfl, rfl, rfl⟩ := read
    rfl

/-- First one language, then the other. -/
theorem Reads.bind (reads : Reads kind parser accepts) {next : α → Parse ε τ β}
    {accepts' : α → List κ → β → List κ → Prop} (later : ∀ a, Reads kind (next a) (accepts' a)) :
    Reads kind (parser >>= next) fun consumed b rest =>
      ∃ a first second, consumed = first ++ second ∧ accepts first a (second ++ rest) ∧
        accepts' a second b rest := by
  intro cursor b last
  rw [bind_ok]
  constructor
  · intro run
    obtain ⟨a, middle, ran, ended⟩ := run
    obtain ⟨first, behind, whole, rfl, accepted⟩ := (reads _ _ _).mp ran
    obtain ⟨second, rest, split, rfl, accepted'⟩ := (later _ _ _ _).mp ended
    rw [cursor.kinds_skip_append kind whole] at split
    subst split
    exact ⟨first ++ second, rest, by rw [whole, List.append_assoc],
      by rw [Cursor.skip_skip, List.length_append], a, first, second, rfl, accepted, accepted'⟩
  · intro read
    obtain ⟨_, rest, whole, rfl, a, first, second, rfl, accepted, accepted'⟩ := read
    rw [List.append_assoc] at whole
    refine ⟨a, cursor.skip first.length, (reads _ _ _).mpr ⟨first, _, whole, rfl, accepted⟩, ?_⟩
    exact (later _ _ _ _).mpr ⟨second, rest, cursor.kinds_skip_append kind whole,
      by rw [Cursor.skip_skip, List.length_append], accepted'⟩

theorem reads_position_fail (error : Nat → ε) :
    Reads kind (position >>= fun pos => fail (error pos) : Parse ε τ α) fun _ _ _ => False := by
  intro cursor a last
  rw [bind_ok]
  simp

end

def run (parser : Parse ε τ α) (tokens : List τ) : Except ε α := (parser ⟨tokens, 0⟩).map Prod.fst

theorem run_eq_ok {kind : τ → κ} {parser : Parse ε τ α} {accepts : List κ → α → List κ → Prop}
    (reads : Reads kind parser accepts) (tokens : List τ) (a : α) :
    run parser tokens = .ok a ↔
      ∃ consumed rest, tokens.map kind = consumed ++ rest ∧ accepts consumed a rest := by
  unfold run
  constructor
  · intro ran
    cases result : parser ⟨tokens, 0⟩ with
    | error e =>
      rw [result] at ran
      cases ran
    | ok pair =>
      rw [result] at ran
      cases ran
      obtain ⟨consumed, rest, whole, -, accepted⟩ := (reads _ _ _).mp result
      exact ⟨consumed, rest, whole, accepted⟩
  · intro read
    obtain ⟨consumed, rest, whole, accepted⟩ := read
    rw [(reads ⟨tokens, 0⟩ a _).mpr ⟨consumed, rest, whole, rfl, accepted⟩]
    rfl

/-! Loops -/

inductive Runs (turn : σ → List κ → Turn σ β → List κ → Prop) : σ → List κ → β → List κ → Prop where
  | done {state : σ} {consumed : List κ} {result : β} {rest : List κ}
      (ends : turn state consumed (.done result) rest) : Runs turn state consumed result rest
  | again {state next : σ} {first second : List κ} {result : β} {rest : List κ}
      (turns : turn state first (.again next) (second ++ rest))
      (runs : Runs turn next second result rest) : Runs turn state (first ++ second) result rest

section
variable {kind : τ → κ} {body : σ → Parse ε τ (Turn σ β)}
  {turn : σ → List κ → Turn σ β → List κ → Prop} (exhausted : ε)

theorem iterate_succ (fuel : Nat) (state : σ) :
    iterate exhausted body (fuel + 1) state = body state >>= fun turned =>
      match turned with
      | .again next => iterate exhausted body fuel next
      | .done result => pure result := rfl

theorem runs_of_iterate (reads : ∀ state, Reads kind (body state) (turn state)) (fuel : Nat)
    {state : σ} {cursor last : Cursor τ} {result : β}
    (ran : iterate exhausted body fuel state cursor = .ok (result, last)) :
    ∃ consumed rest, cursor.kinds kind = consumed ++ rest ∧ last = cursor.skip consumed.length ∧
      Runs turn state consumed result rest := by
  induction fuel generalizing state cursor with
  | zero => cases ran
  | succ fuel ih =>
    rw [iterate_succ, bind_ok] at ran
    obtain ⟨turned, middle, first, later⟩ := ran
    obtain ⟨consumed, rest, whole, rfl, accepted⟩ := (reads _ _ _ _).mp first
    cases turned with
    | done final =>
      cases later
      exact ⟨consumed, rest, whole, rfl, .done accepted⟩
    | again next =>
      obtain ⟨second, rest', split, rfl, runs⟩ := ih later
      rw [cursor.kinds_skip_append kind whole] at split
      subst split
      exact ⟨consumed ++ second, rest', by rw [whole, List.append_assoc],
        by rw [Cursor.skip_skip, List.length_append], .again accepted runs⟩

variable (moves : ∀ {state consumed next rest}, turn state consumed (.again next) rest → consumed ≠ [])
include moves

theorem iterate_of_runs (reads : ∀ state, Reads kind (body state) (turn state)) {state : σ}
    {consumed : List κ} {result : β} {rest : List κ} (runs : Runs turn state consumed result rest)
    (fuel : Nat) (enough : consumed.length < fuel) {cursor : Cursor τ}
    (whole : cursor.kinds kind = consumed ++ rest) :
    iterate exhausted body fuel state cursor = .ok (result, cursor.skip consumed.length) := by
  induction runs generalizing fuel cursor with
  | @done state consumed result rest ends =>
    obtain ⟨fuel, rfl⟩ : ∃ less, fuel = less + 1 := ⟨fuel - 1, by omega⟩
    rw [iterate_succ, bind_ok]
    exact ⟨_, _, (reads _ _ _ _).mpr ⟨consumed, rest, whole, rfl, ends⟩, rfl⟩
  | @again state next first second result rest turns runs ih =>
    obtain ⟨fuel, rfl⟩ : ∃ less, fuel = less + 1 := ⟨fuel - 1, by omega⟩
    have positive := List.length_pos_of_ne_nil (moves turns)
    rw [List.length_append] at enough
    rw [List.append_assoc] at whole
    rw [iterate_succ, bind_ok]
    refine ⟨.again next, _, (reads _ _ _ _).mpr ⟨first, _, whole, rfl, turns⟩, ?_⟩
    dsimp only
    rw [ih fuel (by omega) (cursor.kinds_skip_append kind whole), Cursor.skip_skip,
      List.length_append]

/-- A loop whose turns go forward reads their languages one after the other. -/
theorem reads_loop (reads : ∀ state, Reads kind (body state) (turn state)) (state : σ) :
    Reads kind (loop exhausted body state) (Runs turn state) := by
  intro cursor result last
  unfold loop
  constructor
  · exact runs_of_iterate exhausted reads _
  · intro read
    obtain ⟨consumed, rest, whole, rfl, runs⟩ := read
    apply iterate_of_runs exhausted moves reads runs _ _ whole
    rw [← cursor.length_kinds kind, whole, List.length_append]
    omega

end

def itemTurn {ι : Type} (valid : ι → Prop) (write : ι → List κ) (apply : σ → ι → σ)
    (ends : σ → List κ → β → List κ → Prop) (state : σ) (consumed : List κ) : Turn σ β → List κ → Prop
  | .again next, _ => ∃ item, valid item ∧ consumed = write item ∧ next = apply state item
  | .done result, rest => ends state consumed result rest

section
variable {ι : Type} {valid : ι → Prop} {write : ι → List κ} {apply : σ → ι → σ}
  {ends : σ → List κ → β → List κ → Prop}

theorem runs_itemTurn (state : σ) (consumed : List κ) (result : β) (rest : List κ) :
    Runs (itemTurn valid write apply ends) state consumed result rest ↔
      ∃ (items : List ι) (last : List κ), (∀ item ∈ items, valid item) ∧
        consumed = items.flatMap write ++ last ∧ ends (items.foldl apply state) last result rest := by
  constructor
  · intro runs
    induction runs with
    | done ended => exact ⟨[], _, by simp, rfl, ended⟩
    | again turns runs ih =>
      obtain ⟨item, isValid, rfl, rfl⟩ := turns
      obtain ⟨items, last, allValid, rfl, ended⟩ := ih
      exact ⟨item :: items, last, List.forall_mem_cons.mpr ⟨isValid, allValid⟩,
        by rw [List.flatMap_cons, List.append_assoc], ended⟩
  · intro written
    obtain ⟨items, last, allValid, rfl, ended⟩ := written
    induction items generalizing state with
    | nil => exact .done ended
    | cons item items ih =>
      obtain ⟨isValid, laterValid⟩ := List.forall_mem_cons.mp allValid
      rw [List.flatMap_cons, List.append_assoc]
      exact .again ⟨item, isValid, rfl, rfl⟩ (ih _ laterValid ended)

theorem itemTurn_moves (nonempty : ∀ item, write item ≠ []) {state next : σ} {consumed rest : List κ}
    (turns : itemTurn valid write apply ends state consumed (.again next) rest) : consumed ≠ [] := by
  obtain ⟨item, -, rfl, -⟩ := turns
  exact nonempty item

/-- A loop over items reads a list of them. -/
theorem reads_items {kind : τ → κ} {body : σ → Parse ε τ (Turn σ β)} (exhausted : ε)
    (nonempty : ∀ item, write item ≠ [])
    (reads : ∀ state, Reads kind (body state) (itemTurn valid write apply ends state)) (state : σ) :
    Reads kind (loop exhausted body state) fun consumed result rest =>
      ∃ (items : List ι) (last : List κ), (∀ item ∈ items, valid item) ∧
        consumed = items.flatMap write ++ last ∧ ends (items.foldl apply state) last result rest :=
  (reads_loop exhausted (itemTurn_moves nonempty) reads state).mono (runs_itemTurn state)

end

def Fails (kind : τ → κ) (parser : Parse ε τ α) (allowed : List κ → ε → Prop) : Prop :=
  ∀ cursor e, parser cursor = .error e → allowed (cursor.kinds kind) e

section
variable {kind : τ → κ} {allowed : List κ → ε → Prop}

theorem fails_pure (a : α) : Fails kind (pure a : Parse ε τ α) allowed := by
  intro cursor e failed
  cases failed

theorem fails_peek_bind {next : Option κ → Parse ε τ α}
    (later : ∀ found, Fails kind (next found) allowed) : Fails kind (peek kind >>= next) allowed := by
  intro cursor e failed
  exact later _ cursor e failed

theorem fails_next {a : α} : Fails kind (next >>= fun _ => pure a : Parse ε τ α) allowed := by
  intro cursor e failed
  cases failed

theorem fails_fail {e : ε} (always : ∀ kinds, allowed kinds e) :
    Fails kind (fail e : Parse ε τ α) allowed := by
  intro cursor e' failed
  cases failed
  exact always _

theorem fails_position_fail {error : Nat → ε} (always : ∀ kinds pos, allowed kinds (error pos)) :
    Fails kind (position >>= fun pos => fail (error pos) : Parse ε τ α) allowed := by
  intro cursor e failed
  cases failed
  exact always _ _

/-- Sequencing: what follows fails in front of what is left behind the first part. -/
theorem Fails.bind_of {parser : Parse ε τ α} {accepts : List κ → α → List κ → Prop}
    {next : α → Parse ε τ β} (fails : Fails kind parser allowed) (reads : Reads kind parser accepts)
    (later : ∀ a first, Fails kind (next a) fun rest e =>
      accepts first a rest → allowed (first ++ rest) e) : Fails kind (parser >>= next) allowed := by
  intro cursor e failed
  rw [bind_apply] at failed
  cases ran : parser cursor with
  | error e' =>
    rw [ran] at failed
    cases failed
    exact fails _ _ ran
  | ok result =>
    obtain ⟨a, middle⟩ := result
    rw [ran] at failed
    obtain ⟨consumed, rest, whole, rfl, accepted⟩ := (reads _ _ _).mp ran
    have behind := later a consumed _ _ failed
    rw [cursor.kinds_skip_append kind whole] at behind
    rw [whole]
    exact behind accepted

theorem Fails.mono {parser : Parse ε τ α} {weaker : List κ → ε → Prop}
    (fails : Fails kind parser allowed) (weakens : ∀ kinds e, allowed kinds e → weaker kinds e) :
    Fails kind parser weaker := fun cursor e failed => weakens _ _ (fails cursor e failed)

def SuffixClosed (allowed : List κ → ε → Prop) : Prop :=
  ∀ before rest e, allowed rest e → allowed (before ++ rest) e

variable (suffix : SuffixClosed allowed)
include suffix

theorem Fails.bind {parser : Parse ε τ α} {accepts : List κ → α → List κ → Prop}
    {next : α → Parse ε τ β} (fails : Fails kind parser allowed) (reads : Reads kind parser accepts)
    (later : ∀ a, Fails kind (next a) allowed) : Fails kind (parser >>= next) allowed :=
  fails.bind_of reads fun a _ => (later a).mono fun _ _ behind _ => suffix _ _ _ behind

/-- A loop whose turns go forward is not cut short by its bound. -/
theorem fails_loop {body : σ → Parse ε τ (Turn σ β)}
    {turn : σ → List κ → Turn σ β → List κ → Prop} (exhausted : ε)
    (moves : ∀ {state consumed next rest}, turn state consumed (.again next) rest → consumed ≠ [])
    (reads : ∀ state, Reads kind (body state) (turn state))
    (fails : ∀ state, Fails kind (body state) allowed) (state : σ) :
    Fails kind (loop exhausted body state) allowed := by
  suffices general : ∀ (fuel : Nat) (state : σ) (cursor : Cursor τ) (e : ε),
      (cursor.kinds kind).length < fuel → iterate exhausted body fuel state cursor = .error e →
        allowed (cursor.kinds kind) e by
    intro cursor e failed
    refine general _ state cursor e ?_ failed
    rw [cursor.length_kinds kind]
    omega
  intro fuel
  induction fuel with
  | zero =>
    intro state cursor e enough
    omega
  | succ fuel ih =>
    intro state cursor e enough failed
    rw [iterate_succ, bind_apply] at failed
    cases ran : body state cursor with
    | error e' =>
      rw [ran] at failed
      cases failed
      exact fails state _ _ ran
    | ok result =>
      obtain ⟨turned, middle⟩ := result
      rw [ran] at failed
      obtain ⟨consumed, rest, whole, rfl, accepted⟩ := (reads _ _ _ _).mp ran
      cases turned with
      | done final => cases failed
      | again next =>
        have positive := List.length_pos_of_ne_nil (moves accepted)
        have left := cursor.kinds_skip_append kind whole
        have behind := ih next _ _ (by rw [left]; rw [whole, List.length_append] at enough; omega) failed
        rw [left] at behind
        rw [whole]
        exact suffix _ _ _ behind

end

def Ends (after : α → Cursor τ → Prop) (stops : ε → Prop) : Except ε (α × Cursor τ) → Prop
  | .ok (a, last) => after a last
  | .error e => stops e

/-- From where `before` holds, the parser ends where `after` holds, or stops as `stops` allows. -/
structure Triple (before : Cursor τ → Prop) (parser : Parse ε τ α) (after : α → Cursor τ → Prop)
    (stops : ε → Prop) : Prop where
  ends : ∀ cursor, before cursor → Ends after stops (parser cursor)

def afterTurn (invariant : σ → Cursor τ → Prop) (after : β → Cursor τ → Prop) :
    Turn σ β → Cursor τ → Prop
  | .again state => invariant state
  | .done result => after result

section
variable {before : Cursor τ → Prop} {after : α → Cursor τ → Prop} {stops : ε → Prop}

theorem triple_pure {a : α} (holds : ∀ cursor, before cursor → after a cursor) :
    Triple before (pure a : Parse ε τ α) after stops := ⟨holds⟩

theorem Triple.of_imp {parser : Parse ε τ α} (triple : Triple before parser after stops)
    {stronger : Cursor τ → Prop} (implies : ∀ cursor, stronger cursor → before cursor) :
    Triple stronger parser after stops :=
  ⟨fun cursor start => triple.ends cursor (implies cursor start)⟩

theorem Triple.imp {parser : Parse ε τ α} (triple : Triple before parser after stops)
    {weaker : α → Cursor τ → Prop} (implies : ∀ a cursor, after a cursor → weaker a cursor) :
    Triple before parser weaker stops := by
  constructor
  intro cursor start
  have ended := triple.ends cursor start
  cases ran : parser cursor with
  | error e =>
    rw [ran] at ended
    exact ended
  | ok result =>
    rw [ran] at ended
    exact implies _ _ ended

theorem Triple.or {parser : Parse ε τ α} (triple : Triple before parser after stops)
    {other : Cursor τ → Prop} (otherTriple : Triple other parser after stops) :
    Triple (fun cursor => before cursor ∨ other cursor) parser after stops :=
  ⟨fun cursor start => start.elim (triple.ends cursor) (otherTriple.ends cursor)⟩

theorem Triple.bind {parser : Parse ε τ α} (first : Triple before parser after stops)
    {next : α → Parse ε τ β} {last : β → Cursor τ → Prop}
    (second : ∀ a, Triple (after a) (next a) last stops) :
    Triple before (parser >>= next) last stops := by
  constructor
  intro cursor start
  have ended := first.ends cursor start
  rw [bind_apply]
  cases ran : parser cursor with
  | error e =>
    rw [ran] at ended
    exact ended
  | ok result =>
    rw [ran] at ended
    exact (second result.1).ends result.2 ended

theorem triple_peek_bind {kind : τ → κ} {next : Option κ → Parse ε τ α}
    (later : ∀ found, Triple (fun cursor => before cursor ∧ cursor.peek.map kind = found) (next found)
      after stops) : Triple before (peek kind >>= next) after stops :=
  ⟨fun cursor start => (later (cursor.peek.map kind)).ends cursor ⟨start, rfl⟩⟩

/-- A loop whose turns go forward keeps its invariant and is not cut short by its bound. -/
theorem triple_loop {kind : τ → κ} {body : σ → Parse ε τ (Turn σ β)}
    {turn : σ → List κ → Turn σ β → List κ → Prop} (exhausted : ε)
    (moves : ∀ {state consumed next rest}, turn state consumed (.again next) rest → consumed ≠ [])
    (reads : ∀ state, Reads kind (body state) (turn state)) {invariant : σ → Cursor τ → Prop}
    {after : β → Cursor τ → Prop}
    (turns : ∀ state, Triple (invariant state) (body state) (afterTurn invariant after) stops)
    (state : σ) : Triple (invariant state) (loop exhausted body state) after stops := by
  suffices general : ∀ (fuel : Nat) (state : σ) (cursor : Cursor τ),
      (cursor.kinds kind).length < fuel → invariant state cursor →
        Ends after stops (iterate exhausted body fuel state cursor) by
    constructor
    intro cursor start
    apply general _ state cursor _ start
    rw [cursor.length_kinds kind]
    omega
  intro fuel
  induction fuel with
  | zero =>
    intro state cursor enough
    omega
  | succ fuel ih =>
    intro state cursor enough start
    have turned := (turns state).ends cursor start
    rw [iterate_succ, bind_apply]
    cases ran : body state cursor with
    | error e =>
      rw [ran] at turned
      exact turned
    | ok result =>
      obtain ⟨turn, middle⟩ := result
      rw [ran] at turned
      cases turn with
      | done final => exact turned
      | again next =>
        obtain ⟨consumed, rest, whole, rfl, accepted⟩ := (reads _ _ _ _).mp ran
        have positive := List.length_pos_of_ne_nil (moves accepted)
        apply ih next _ _ turned
        rw [cursor.kinds_skip_append kind whole]
        rw [whole, List.length_append] at enough
        omega

end

end Parse

end LocalServer.Library
