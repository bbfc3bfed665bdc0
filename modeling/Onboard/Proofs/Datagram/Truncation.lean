import Mathlib.Data.List.Forall2
import Onboard.Proofs.Datagram.Delivery
import Onboard.Proofs.Json.Truncation
import Onboard.Wire.Status

/-! Datagrams that are cut by the buffer of their receiver. The beginning of a message is that message or none, so a
listener with a buffer of any size may lose a message but hands on no other in its place. -/

namespace Onboard

namespace Wire

variable {α : Type} [Wire α]

/-- No number alone is the text of a message. -/
def RefusesNumbers (α : Type) [Wire α] : Prop :=
  ∀ literal, (ofJson? (.number literal) : Option α) = none

/-- A cut that takes more than blanks from the end of a message leaves none. -/
theorem read?_take (refuses : RefusesNumbers α) (read : (read? text : Option α) = some v) (n : Nat) :
    (read? (text.take n) : Option α) = if (text.drop n).all Json.isBlank then some v else none := by
  split
  · next blank =>
    rw [← read, read?, read?, ← Json.parse?_append_blank (text.take n) blank, List.take_append_drop]
  · next cut =>
    cases parsed : Json.parse? (text.take n) with
    | none => rw [read?, parsed, Option.bind_none]
    | some j =>
      by_cases closed : Json.IsClosed j
      · have whole := Json.parse?_append parsed closed (text.drop n)
        rw [List.take_append_drop, if_neg cut] at whole
        rw [read?, whole] at read
        cases read
      · obtain ⟨literal, number⟩ := not_forall.mp closed
        rw [read?, parsed, not_not.mp number]
        exact refuses _

end Wire

/-- A message that a buffer of this size shows of a receipt; where all its bytes hold a message, it is that one. -/
def Receipt.Holds {α : Type} [Wire α] (bufferSize : Nat) (receipt : Receipt) (message : α) : Prop :=
  ∃ bytes, receipt = .datagram bytes ∧ Wire.read? (bytes.take bufferSize) = some message ∧
    ∀ v, Wire.read? bytes = some v → message = v

/-- What cuts do to messages of a type. One alone leaves the message only where it takes nothing but blanks; of what
was received, in order, a listener hands on some, and each as it was before it was cut. -/
structure SurvivesCuts (α : Type) [Wire α] : Prop where
  cut : ∀ (text : Bytes) (v : α) (n : Nat), Wire.read? text = some v →
    (Wire.read? (text.take n) : Option α) = if (text.drop n).all Json.isBlank then some v else none
  handed : ∀ (bufferSize : Nat) (audits : Bool) (actions : List ListenerAction),
    let opened : Listener α := .opened bufferSize audits
    ∃ receipts, receipts.Sublist (acceptedReceipts (opened.history actions)) ∧
      List.Forall₂ (Receipt.Holds (max bufferSize 1)) receipts (opened.run actions).messages

namespace Listener

variable {α : Type} [Wire α]

theorem holds_of_delivery? (refuses : Wire.RefusesNumbers α) (delivered : delivery? size receipt = some d) :
    receipt.Holds size (d.1 : α) := by
  cases receipt with
  | datagram bytes =>
    obtain ⟨message, read, same⟩ := Option.map_eq_some_iff.mp delivered
    cases same
    refine ⟨bytes, rfl, read, fun v whole => ?_⟩
    rw [Wire.read?_take refuses whole] at read
    exact (Option.some.inj (Option.ite_none_right_eq_some.mp read).2).symm
  | silence | failure => cases delivered

theorem holds_deliveries (refuses : Wire.RefusesNumbers α) (size : Nat) (events : List ListenerEvent) :
    ∃ receipts, receipts.Sublist (acceptedReceipts events) ∧
      List.Forall₂ (Receipt.Holds size) receipts ((deliveries size events : List (α × Bytes)).map Prod.fst) := by
  unfold deliveries
  induction acceptedReceipts events with
  | nil => exact ⟨[], .slnil, .nil⟩
  | cons receipt rest ih =>
    obtain ⟨receipts, some, held⟩ := ih
    cases delivered : (delivery? size receipt : Option (α × Bytes)) with
    | none =>
      rw [List.filterMap_cons_none delivered]
      exact ⟨receipts, some.cons receipt, held⟩
    | some d =>
      rw [List.filterMap_cons_some delivered]
      exact ⟨receipt :: receipts, some.cons_cons receipt, .cons (holds_of_delivery? refuses delivered) held⟩

end Listener

theorem survivesCuts {α : Type} [Wire α] (refuses : Wire.RefusesNumbers α) : SurvivesCuts α where
  cut _ _ n read := Wire.read?_take refuses read n
  handed bufferSize audits actions := by
    -- Of the messages read, the last may still be about to be handed on.
    have follows := Listener.Follows.run (α := α) bufferSize audits actions
    obtain ⟨receipts, received, held⟩ :=
      Listener.holds_deliveries refuses (max bufferSize 1)
        ((Listener.opened bufferSize audits : Listener α).history actions)
    rw [← follows.messages] at held
    exact ⟨_, (List.take_sublist _ receipts).trans received, List.forall₂_take_append _ _ _ held⟩

/-- A message of a type that is sent through datagrams is never altered by a cut. -/
theorem messages_survive_cuts : SurvivesCuts PrimitiveSet ∧ SurvivesCuts RobotStatus ∧ SurvivesCuts CrashReport := by
  have sets : Wire.RefusesNumbers PrimitiveSet := fun _ => rfl
  have statuses : Wire.RefusesNumbers RobotStatus := fun _ => rfl
  have crashes : Wire.RefusesNumbers CrashReport := fun _ => rfl
  exact ⟨survivesCuts sets, survivesCuts statuses, survivesCuts crashes⟩

end Onboard
