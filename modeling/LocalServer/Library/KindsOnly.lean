import LocalServer.Library.Parsing

/-! Parsers that only look at the kinds of tokens: whatever else the tokens carry shows up in
errors at most. -/

namespace LocalServer.Library.Parse

variable {ε τ κ α β σ : Type}

structure SameKinds (kind : τ → κ) (first second : Cursor τ) : Prop where
  pos : first.pos = second.pos
  tokens : first.tokens.map kind = second.tokens.map kind

/-- Both parses return the same value, or stop with errors that correspond. -/
inductive SameEnd (kind : τ → κ) (errors : ε → ε → Prop) :
    Except ε (α × Cursor τ) → Except ε (α × Cursor τ) → Prop where
  | returned {a : α} {first second : Cursor τ} (same : SameKinds kind first second) :
      SameEnd kind errors (.ok (a, first)) (.ok (a, second))
  | stopped {e e' : ε} (corresponds : errors e e') : SameEnd kind errors (.error e) (.error e')

structure KindsOnly (kind : τ → κ) (errors : ε → ε → Prop) (parser : Parse ε τ α) : Prop where
  ends : ∀ first second, SameKinds kind first second →
    SameEnd kind errors (parser first) (parser second)

section
variable {kind : τ → κ} {errors : ε → ε → Prop} {first second : Cursor τ}

theorem SameKinds.skip (same : SameKinds kind first second) (count : Nat) :
    SameKinds kind (first.skip count) (second.skip count) :=
  ⟨congrArg (· + count) same.pos, same.tokens⟩

theorem SameKinds.peek (same : SameKinds kind first second) :
    first.peek.map kind = second.peek.map kind := by
  unfold Cursor.peek
  rw [← List.getElem?_map, ← List.getElem?_map, same.tokens, same.pos]

theorem SameKinds.length (same : SameKinds kind first second) :
    first.tokens.length = second.tokens.length := by
  have lengths := congrArg List.length same.tokens
  rwa [List.length_map, List.length_map] at lengths

theorem kindsOnly_pure (a : α) : KindsOnly kind errors (pure a : Parse ε τ α) :=
  ⟨fun _ _ same => .returned same⟩

theorem kindsOnly_fail {e : ε} (corresponds : errors e e) :
    KindsOnly kind errors (fail e : Parse ε τ α) :=
  ⟨fun _ _ _ => .stopped corresponds⟩

theorem kindsOnly_peek : KindsOnly kind errors (peek kind : Parse ε τ (Option κ)) := by
  constructor
  intro first second same
  unfold Parse.peek
  rw [same.peek]
  exact .returned same

theorem kindsOnly_position : KindsOnly kind errors (position : Parse ε τ Nat) := by
  constructor
  intro first second same
  unfold position
  rw [same.pos]
  exact .returned same

theorem KindsOnly.bind {parser : Parse ε τ α} {next : α → Parse ε τ β}
    (earlier : KindsOnly kind errors parser) (later : ∀ a, KindsOnly kind errors (next a)) :
    KindsOnly kind errors (parser >>= next) := by
  constructor
  intro first second same
  have ended := earlier.ends first second same
  rw [bind_apply, bind_apply]
  generalize parser first = one at ended
  generalize parser second = other at ended
  cases ended with
  | returned same => exact (later _).ends _ _ same
  | stopped corresponds => exact .stopped corresponds

/-- A token that is read may be looked at as a whole where the results still correspond. -/
theorem kindsOnly_next_bind {next : Option τ → Parse ε τ α}
    (here : ∀ token token' first second, kind token = kind token' → SameKinds kind first second →
      SameEnd kind errors (next (some token) first) (next (some token') second))
    (absent : KindsOnly kind errors (next none)) :
    KindsOnly kind errors (Parse.next >>= next) := by
  constructor
  intro first second same
  have peeked := same.peek
  have behind := same.skip 1
  rw [bind_apply, bind_apply]
  unfold Parse.next
  dsimp only
  cases found : first.peek with
  | none =>
    rw [found, Option.map_none, eq_comm, Option.map_eq_none_iff] at peeked
    rw [peeked]
    exact absent.ends _ _ behind
  | some token =>
    rw [found, Option.map_some, eq_comm, Option.map_eq_some_iff] at peeked
    obtain ⟨token', found', sameKind⟩ := peeked
    rw [found']
    exact here token token' _ _ sameKind.symm behind

theorem kindsOnly_iterate {exhausted : ε} {body : σ → Parse ε τ (Turn σ β)}
    (corresponds : errors exhausted exhausted) (turns : ∀ state, KindsOnly kind errors (body state))
    (fuel : Nat) (state : σ) : KindsOnly kind errors (iterate exhausted body fuel state) := by
  induction fuel generalizing state with
  | zero => exact kindsOnly_fail corresponds
  | succ fuel ih =>
    rw [iterate_succ]
    apply (turns state).bind
    intro turn
    cases turn with
    | again next => exact ih next
    | done result => exact kindsOnly_pure result

theorem kindsOnly_loop {exhausted : ε} {body : σ → Parse ε τ (Turn σ β)}
    (corresponds : errors exhausted exhausted) (turns : ∀ state, KindsOnly kind errors (body state))
    (state : σ) : KindsOnly kind errors (loop exhausted body state) := by
  constructor
  intro first second same
  unfold loop
  rw [same.length, same.pos]
  exact (kindsOnly_iterate corresponds turns _ state).ends first second same

end

theorem KindsOnly.run {kind : τ → κ} {errors : ε → ε → Prop} {parser : Parse ε τ α}
    (blind : KindsOnly kind errors parser) {tokens other : List τ}
    (same : tokens.map kind = other.map kind) :
    (∃ a, run parser tokens = .ok a ∧ run parser other = .ok a) ∨
      ∃ e e', run parser tokens = .error e ∧ run parser other = .error e' ∧ errors e e' := by
  have ended := blind.ends ⟨tokens, 0⟩ ⟨other, 0⟩ ⟨rfl, same⟩
  unfold Parse.run
  generalize parser ⟨tokens, 0⟩ = one at ended ⊢
  generalize parser ⟨other, 0⟩ = second at ended ⊢
  cases ended with
  | returned same => exact Or.inl ⟨_, rfl, rfl⟩
  | stopped corresponds => exact Or.inr ⟨_, _, rfl, rfl, corresponds⟩

end LocalServer.Library.Parse
