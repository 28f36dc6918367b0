import Mathlib.Data.List.Infix
import Mathlib.Logic.Relation

/-! One message and one reply over a stream, and readers of a stream that know by themselves where
a message ends. The reply is fixed by what was received when it is given; after that it is sent
piece by piece, and nothing else is. -/

namespace LocalServer.Library
open Relation

inductive Exchange (α : Type*) where
  | unopened
  | listening (received : List α)
  /-- The reply to what was received: a part is sent, the rest waits. -/
  | answering (received sent left : List α)
  /-- What is left is never sent. -/
  | ended (received sent left : List α)

namespace Exchange
variable {α : Type*}

/-- What one party can do, when these are the replies to what it receives. -/
inductive Step (replies : List α → List α → Prop) : Exchange α → Exchange α → Prop where
  | accept : Step replies .unopened (.listening [])
  | receive {received : List α} (more : List α) :
    Step replies (.listening received) (.listening (received ++ more))
  | answer {received reply : List α} (isReply : replies received reply) :
    Step replies (.listening received) (.answering received [] reply)
  | send {received sent left : List α} (piece : List α) :
    Step replies (.answering received sent (piece ++ left))
      (.answering received (sent ++ piece) left)
  | hangUp {received : List α} : Step replies (.listening received) (.ended received [] [])
  | close {received sent left : List α} :
    Step replies (.answering received sent left) (.ended received sent left)

def received : Exchange α → List α
  | .unopened => []
  | .listening received => received
  | .answering received _ _ => received
  | .ended received _ _ => received

def sent : Exchange α → List α
  | .unopened => []
  | .listening _ => []
  | .answering _ sent _ => sent
  | .ended _ sent _ => sent

def left : Exchange α → List α
  | .unopened => []
  | .listening _ => []
  | .answering _ _ left => left
  | .ended _ _ left => left

/-- What was sent, and what is still to be sent or never will be. -/
def reply (exchange : Exchange α) : List α := exchange.sent ++ exchange.left

variable {replies : List α → List α → Prop} {before after : Exchange α}

/-- All that is ever sent belongs to one reply to what was received. -/
def Sound (replies : List α → List α → Prop) (exchange : Exchange α) : Prop :=
  exchange.reply = [] ∨ replies exchange.received exchange.reply

theorem Step.sound (step : Step replies before after) (sound : Sound replies before) :
    Sound replies after := by
  cases step with
  | accept => exact Or.inl rfl
  | receive more => exact Or.inl rfl
  | answer isReply => exact Or.inr isReply
  | send piece =>
    unfold Sound reply at sound ⊢
    rw [Exchange.sent, Exchange.left] at sound ⊢
    rwa [List.append_assoc]
  | hangUp => exact Or.inl rfl
  | close => exact sound

structure Extends (before after : Exchange α) : Prop where
  sent : before.sent <+: after.sent
  reply : before.reply = [] ∨ after.reply = before.reply

theorem Step.extends (step : Step replies before after) : Extends before after := by
  cases step with
  | accept => exact ⟨List.nil_prefix, Or.inl rfl⟩
  | receive more => exact ⟨List.nil_prefix, Or.inl rfl⟩
  | answer isReply => exact ⟨List.nil_prefix, Or.inl rfl⟩
  | send piece => exact ⟨List.prefix_append _ _, Or.inr (List.append_assoc _ _ _)⟩
  | hangUp => exact ⟨List.nil_prefix, Or.inl rfl⟩
  | close => exact ⟨List.prefix_refl _, Or.inr rfl⟩

theorem Extends.trans {middle : Exchange α} (early : Extends before middle)
    (late : Extends middle after) : Extends before after := by
  refine ⟨early.sent.trans late.sent, ?_⟩
  rcases early.reply with none | same
  · exact Or.inl none
  · rcases late.reply with none | same'
    · exact Or.inl (same.symm.trans none)
    · exact Or.inr (same'.trans same)

abbrev Run (replies : List α → List α → Prop) : Exchange α → Exchange α → Prop :=
  ReflTransGen (Step replies)

theorem Run.sound (run : Run replies before after) (sound : Sound replies before) :
    Sound replies after := by
  induction run with
  | refl => exact sound
  | tail _ step ih => exact step.sound ih

theorem Run.extends (run : Run replies before after) : Extends before after := by
  induction run with
  | refl => exact ⟨List.prefix_refl _, Or.inr rfl⟩
  | tail _ step ih => exact ih.trans step.extends

theorem Step.mono {more : List α → List α → Prop}
    (grows : ∀ received reply, replies received reply → more received reply)
    (step : Step replies before after) : Step more before after := by
  cases step with
  | accept => exact .accept
  | receive bytes => exact .receive bytes
  | answer isReply => exact .answer (grows _ _ isReply)
  | send piece => exact .send piece
  | hangUp => exact .hangUp
  | close => exact .close

theorem Run.mono {more : List α → List α → Prop}
    (grows : ∀ received reply, replies received reply → more received reply)
    (run : Run replies before after) : Run more before after := by
  induction run with
  | refl => exact .refl
  | tail _ step ih => exact ih.tail (step.mono grows)

theorem run_receive (received more : List α) :
    Run replies (.listening received) (.listening (received ++ more)) := .single (.receive more)

theorem run_send {received sent left rest : List α} (piece : List α)
    (split : left = piece ++ rest) :
    Run replies (.answering received sent left) (.answering received (sent ++ piece) rest) := by
  subst split
  exact .single (.send piece)

end Exchange

section
variable {α β : Type*}

/-- What comes later does not change the message that was read; it is left over. -/
def SelfDelimiting (read : List α → Option (β × List α)) : Prop :=
  ∀ data message rest later, read data = some (message, rest) →
    read (data ++ later) = some (message, rest ++ later)

namespace SelfDelimiting
variable {read : List α → Option (β × List α)} {whole data : List α} {message : β}

/-- Of a part of a message nothing is read before the part is the whole. -/
theorem read_part (delimits : SelfDelimiting read) (reads : read whole = some (message, []))
    (part : data <+: whole) {message' : β} {rest : List α} (early : read data = some (message', rest)) :
    data = whole ∧ message' = message ∧ rest = [] := by
  obtain ⟨later, rfl⟩ := part
  have both : some (message, []) = some (message', rest ++ later) :=
    reads.symm.trans (delimits data message' rest later early)
  rw [Option.some.injEq, Prod.mk.injEq] at both
  obtain ⟨same, nothing⟩ := both
  obtain ⟨none, none'⟩ := List.append_eq_nil_iff.mp nothing.symm
  exact ⟨by rw [none', List.append_nil], same.symm, none⟩

end SelfDelimiting

end

end LocalServer.Library
