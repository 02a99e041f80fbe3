import NetClass.Library.Machine
import Mathlib.Data.List.Basic

/-!
Contract: a reliable first-in first-out channel that carries a fixed message.

Owns: the channel, in which nothing is lost, duplicated or reordered by
construction, the system in which a sender hands over the message piece by piece
and a receiver takes what is there piece by piece, and what the receiver can have
at any time.

Does **not** own: how the two sides decide on the size of a piece.
-/

set_option autoImplicit false

universe u

/-- What has been sent, and how much of it has been received. -/
structure Channel (Item : Type u) where
  sent : List Item
  received : List Item
  inFlight : List Item
  conserved : received ++ inFlight = sent

namespace Channel

variable {Item : Type u}

def empty : Channel Item := ⟨[], [], [], rfl⟩

def send (channel : Channel Item) (items : List Item) : Channel Item where
  sent := channel.sent ++ items
  received := channel.received
  inFlight := channel.inFlight ++ items
  conserved := by rw [← List.append_assoc, channel.conserved]

/-- Take the first `count` items in flight. -/
def receive (channel : Channel Item) (count : Nat) : Channel Item where
  sent := channel.sent
  received := channel.received ++ channel.inFlight.take count
  inFlight := channel.inFlight.drop count
  conserved := by rw [List.append_assoc, List.take_append_drop, channel.conserved]

/-- A channel into which nothing was sent is empty. -/
theorem eq_empty_of_sent {channel : Channel Item} (nothing : channel.sent = []) :
    channel = empty := by
  obtain ⟨sent, received, inFlight, conserved⟩ := channel
  obtain rfl : sent = [] := nothing
  obtain ⟨rfl, rfl⟩ := List.append_eq_nil_iff.mp conserved
  rfl

/-- What can happen to a channel that carries `message`. -/
inductive Carries (message : List Item) : Channel Item → Channel Item → Prop where
  | send (channel : Channel Item) (items : List Item)
      (next : channel.sent ++ items <+: message) : Carries message channel (channel.send items)
  | receive (channel : Channel Item) (count : Nat) (there : count ≤ channel.inFlight.length) :
      Carries message channel (channel.receive count)

def carrier (message : List Item) : Machine (Channel Item) where
  initial := fun channel => channel = empty
  step := Carries message

variable {message : List Item} {channel : Channel Item}

theorem sent_isPrefix (reachable : (carrier message).Reachable channel) :
    channel.sent <+: message := by
  apply reachable.invariant (fun channel => channel.sent <+: message)
  · rintro _ rfl
    exact List.nil_prefix
  · intro channel next _ holds step
    cases step with
    | send items fits => exact fits
    | receive count there => exact holds

/-- What was received followed by what is in flight is the part of the message that
was sent. -/
theorem delivered (reachable : (carrier message).Reachable channel) :
    channel.received ++ channel.inFlight = message.take channel.sent.length := by
  rw [channel.conserved]
  exact List.prefix_iff_eq_take.mp (sent_isPrefix reachable)

/-- A receiver that has as many items as the message has the message. -/
theorem received_all (reachable : (carrier message).Reachable channel)
    (all : channel.received.length = message.length) : channel.received = message := by
  have first : channel.received <+: channel.sent := ⟨channel.inFlight, channel.conserved⟩
  exact (first.trans (sent_isPrefix reachable)).eq_of_length all

theorem received_length_le (channel : Channel Item) :
    channel.received.length ≤ channel.sent.length := by
  rw [← channel.conserved, List.length_append]
  exact Nat.le_add_right _ _

end Channel
