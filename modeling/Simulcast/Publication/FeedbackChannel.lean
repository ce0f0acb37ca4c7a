import Simulcast.Rtcp.Message

/-!
# Feedback toward a publisher

Requests for key frames go back to a publisher through a channel of limited
capacity. What does not fit is dropped.
-/

namespace Simulcast

/-- Batches of messages on their way to a publisher, the oldest in front. -/
structure FeedbackChannel where
  capacity : Nat
  batches : List (List Octets) := []
  deriving DecidableEq, Repr

namespace FeedbackChannel

/-- Whether there is room for a batch. -/
def accepts (c : FeedbackChannel) : Bool := c.batches.length < c.capacity

/-- Adds a batch, or drops it if there is no room. -/
def offer (c : FeedbackChannel) (batch : List Octets) : FeedbackChannel :=
  if c.accepts then { c with batches := c.batches ++ [batch] } else c

/-- Takes out all batches. -/
def takeAll (c : FeedbackChannel) : FeedbackChannel × List (List Octets) :=
  ({ c with batches := [] }, c.batches)

end FeedbackChannel
end Simulcast
