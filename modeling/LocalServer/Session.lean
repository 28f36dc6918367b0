import LocalServer.Library.HashMap
import LocalServer.Library.Numeral
import Mathlib.Data.BitVec

/-! `src/utils/session.rs`: the session store. The clock is read by the caller. -/

namespace LocalServer
open Library Text

structure Clock where
  /-- The monotonic clock, in nanoseconds. -/
  now : Nat
  /-- `subsec_nanos` of the wall clock. -/
  nanos : Nat
  /-- `std::process::id` -/
  pid : Nat
  deriving DecidableEq, Repr

def nanosPerSec : Nat := 1000000000

structure Session where
  data : HashMap Str Str
  createdAt : Nat

def Session.isExpired (clock : Clock) (session : Session) : Bool :=
  3600 * nanosPerSec < clock.now - session.createdAt

def hour : Nat := 3600 * nanosPerSec

theorem Session.isExpired_iff (session : Session) (clock : Clock) :
    session.isExpired clock = true ↔ session.createdAt + hour < clock.now := by
  rw [Session.isExpired, decide_eq_true_eq, hour]
  omega

structure SessionStore where
  sessions : HashMap Str Session

/-- `{:016x}` of the mixed clock and process id. -/
def generateId (clock : Clock) : Str :=
  let raw := (BitVec.ofNat 64 clock.nanos * 0x9e3779b97f4a7c15#64 + BitVec.ofNat 64 clock.pid) *
    0x6c62272e07bb0142#64
  Numeral.hexadecimal 16 raw.toNat

theorem isDigits_generateId (clock : Clock) : Numeral.IsDigits 16 (generateId clock) := by
  unfold generateId
  exact Numeral.isDigits_hexadecimal 16 _

namespace SessionStore

def new : SessionStore := ⟨HashMap.empty⟩

def create (store : SessionStore) (clock : Clock) : Str × SessionStore :=
  let id := generateId clock
  (id, ⟨store.sessions.insert id ⟨HashMap.empty, clock.now⟩⟩)

/-- `get` and `get_mut`: a session found expired is removed. -/
def getMut (store : SessionStore) (clock : Clock) (id : Str) : Option Session × SessionStore :=
  match store.sessions.get id with
  | none => (none, store)
  | some session =>
    if session.isExpired clock then (none, ⟨store.sessions.remove id⟩) else (some session, store)

def set (store : SessionStore) (clock : Clock) (id key value : Str) : Bool × SessionStore :=
  match store.getMut clock id with
  | (none, store) => (false, store)
  | (some session, store) =>
    (true, ⟨store.sessions.insert id { session with data := session.data.insert key value }⟩)

def getValue (store : SessionStore) (clock : Clock) (id key : Str) : Option Str × SessionStore :=
  match store.getMut clock id with
  | (none, store) => (none, store)
  | (some session, store) => (session.data.get key, store)

def destroy (store : SessionStore) (id : Str) : SessionStore := ⟨store.sessions.remove id⟩

def cleanup (store : SessionStore) (clock : Clock) : SessionStore :=
  ⟨store.sessions.retain fun _ session => !session.isExpired clock⟩

/-! What the operations do -/

theorem getMut_cases (store : SessionStore) (clock : Clock) (id : Str) :
    (store.sessions.get id = none ∧ store.getMut clock id = (none, store)) ∨
    (∃ session, store.sessions.get id = some session ∧ session.isExpired clock = true ∧
      store.getMut clock id = (none, ⟨store.sessions.remove id⟩)) ∨
    ∃ session, store.sessions.get id = some session ∧ session.isExpired clock = false ∧
      store.getMut clock id = (some session, store) := by
  unfold SessionStore.getMut
  cases store.sessions.get id with
  | none => exact Or.inl ⟨rfl, rfl⟩
  | some session =>
    right
    cases expired : session.isExpired clock with
    | true =>
      left
      exact ⟨session, rfl, expired, by dsimp only; rw [if_pos expired]⟩
    | false =>
      right
      exact ⟨session, rfl, expired, by dsimp only; rw [if_neg (by simp [expired])]⟩

theorem set_create (store : SessionStore) (clock : Clock) (key value : Str) :
    ((store.create clock).2.set clock (store.create clock).1 key value).2 =
      ⟨(store.sessions.insert (generateId clock) ⟨HashMap.empty, clock.now⟩).insert
        (generateId clock) ⟨HashMap.empty.insert key value, clock.now⟩⟩ := by
  have fresh : (⟨HashMap.empty, clock.now⟩ : Session).isExpired clock = false := by
    rw [Bool.eq_false_iff, ne_eq, Session.isExpired_iff]
    dsimp only
    omega
  simp only [SessionStore.create, SessionStore.set, SessionStore.getMut, HashMap.get_insert_self,
    fresh, Bool.false_eq_true, if_false]

end SessionStore

end LocalServer
