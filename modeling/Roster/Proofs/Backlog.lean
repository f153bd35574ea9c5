import Roster.Notify.Channel
import Roster.Proofs.RoundTrip
/-! # What waits for a subscriber

Behind the place of a subscriber lie the payloads that it awaits, of which the channel holds the
newest. Taken one after the other, they come to what is delivered to it at once. -/
namespace Roster
namespace Channel

/-- The payloads behind the place of a subscriber. -/
structure Awaits (c : Channel) (s : Subscriber) (texts : List String) : Prop where
  sent : c.sent = s.next + texts.length
  ring : c.ring.take texts.length = texts.reverse.take c.capacity

section

variable {c : Channel} {s : Subscriber} {texts : List String}

theorem awaits_nil (h : s.next = c.sent) : c.Awaits s [] := ⟨h.symm, by simp⟩

theorem Awaits.push (h : c.Awaits s texts) (text : String) :
    (c.push text).Awaits s (texts ++ [text]) := by
  constructor
  · simp only [Channel.push, h.sent, List.length_append, List.length_singleton, Nat.add_assoc]
  · have hring := h.ring
    simp only [Channel.push, List.length_append, List.length_singleton, List.reverse_append,
      List.reverse_singleton, List.singleton_append]
    cases hcapacity : c.capacity with
    | zero => simp
    | succ n =>
      rw [hcapacity] at hring
      rw [List.take_take, Nat.add_min_add_right, List.take_succ_cons, List.take_succ_cons,
        Nat.min_comm, ← List.take_take, hring, List.take_take, Nat.min_eq_left (Nat.le_succ n)]

/-- A subscriber that has gone some way awaits the rest. -/
theorem Awaits.drop (h : c.Awaits s texts) {n : Nat} (hn : n ≤ texts.length) :
    c.Awaits { s with next := s.next + n } (texts.drop n) := by
  constructor
  · have hsent := h.sent
    rw [List.length_drop]
    dsimp only
    omega
  · have hring := congrArg (List.take (texts.length - n)) h.ring
    rw [List.take_take, Nat.min_eq_left (Nat.sub_le _ _)] at hring
    rw [List.length_drop, hring, List.reverse_drop, List.take_take, List.take_take, Nat.min_comm]

theorem Awaits.backlog_eq (h : c.Awaits s texts) :
    c.backlog s = texts.drop (texts.length - c.capacity) := by
  have hbehind : c.sent - s.next = texts.length := by
    rw [h.sent]
    omega
  rw [backlog, hbehind, h.ring, List.reverse_take, List.reverse_reverse, List.length_reverse]

theorem Awaits.lost_eq (h : c.Awaits s texts) : c.lost s = texts.length - c.capacity := by
  have hsent := h.sent
  rw [lost, h.backlog_eq, List.length_drop]
  omega

end

/-- What a subscriber is given at a time: a payload, or the number of those that are lost to it. -/
inductive Receipt
  | lagged (skipped : Nat)
  | payload (text : String)
  deriving DecidableEq, Repr

/-- What a subscriber is given next, and its place behind it. -/
def next? (c : Channel) (s : Subscriber) : Option (Receipt × Subscriber) :=
  if c.lost s = 0 then
    (c.backlog s).head?.map fun text => (.payload text, { s with next := s.next + 1 })
  else some (.lagged (c.lost s), { s with next := s.next + c.lost s })

/-- A subscriber is given these things, one after the other, until nothing is left. -/
inductive CatchesUp (c : Channel) : Subscriber → List Receipt → Prop
  | done {s : Subscriber} (h : c.next? s = none) : CatchesUp c s []
  | next {s t : Subscriber} {r : Receipt} {rest : List Receipt} (h : c.next? s = some (r, t))
      (hrest : CatchesUp c t rest) : CatchesUp c s (r :: rest)

/-- What is given of some payloads where no more than `capacity` are held. -/
def receipts (capacity : Nat) (texts : List String) : List Receipt :=
  let lost := texts.length - capacity
  (if lost = 0 then [] else [.lagged lost]) ++ (texts.drop lost).map .payload

section

variable {c : Channel} {s : Subscriber} {texts : List String}

private theorem Awaits.catchesUp_of_le (h : c.Awaits s texts) (hle : texts.length ≤ c.capacity) :
    c.CatchesUp s (texts.map .payload) := by
  induction texts generalizing s with
  | nil =>
    apply CatchesUp.done
    simp [next?, h.lost_eq, h.backlog_eq]
  | cons text texts ih =>
    have hnone : (text :: texts).length - c.capacity = 0 := Nat.sub_eq_zero_of_le hle
    have hnext : c.next? s = some (.payload text, { s with next := s.next + 1 }) := by
      rw [next?, h.lost_eq, h.backlog_eq, hnone, if_pos rfl]
      rfl
    have hrest : c.Awaits { s with next := s.next + 1 } texts := h.drop (Nat.succ_pos _)
    exact .next hnext (ih hrest (Nat.le_of_succ_le hle))

/-- A subscriber first learns how many payloads it has lost, if any, and is then given the others
in their order. -/
theorem Awaits.catchesUp (h : c.Awaits s texts) : c.CatchesUp s (receipts c.capacity texts) := by
  unfold receipts
  by_cases hlost : texts.length - c.capacity = 0
  · simp only [hlost, if_true, List.drop_zero, List.nil_append]
    exact h.catchesUp_of_le (Nat.le_of_sub_eq_zero hlost)
  · simp only [hlost, if_false, List.singleton_append]
    have hnext : c.next? s = some (.lagged (texts.length - c.capacity),
        { s with next := s.next + (texts.length - c.capacity) }) := by
      rw [next?, h.lost_eq, if_neg hlost]
    apply CatchesUp.next hnext
    apply (h.drop (Nat.sub_le _ _)).catchesUp_of_le
    rw [List.length_drop]
    omega

end

end Channel

namespace Delivery

/-- A subscriber hands on what it is given. -/
def receive (channel : String) (d : Delivery) : Channel.Receipt → Delivery
  | .lagged skipped => { d with events := d.events ++ Channel.lagged channel skipped }
  | .payload text => d.payload channel text

theorem foldl_receive_payload (channel : String) (d : Delivery) (texts : List String) :
    (texts.map Channel.Receipt.payload).foldl (receive channel) d = d.payloads channel texts := by
  rw [List.foldl_map]
  rfl

theorem payloads_encode (d : Delivery) (channel : String) (es : List Envelope) :
    d.payloads channel (es.map Envelope.encode) = { d with envelopes := d.envelopes ++ es } := by
  induction es generalizing d with
  | nil => simp [payloads]
  | cons e es ih =>
    have hfirst : d.payload channel e.encode = { d with envelopes := d.envelopes ++ [e] } := by
      rw [payload, e.decode_encode]
    rw [List.map_cons, payloads, List.foldl_cons, hfirst]
    refine (ih _).trans ?_
    rw [List.append_assoc, List.singleton_append]

end Delivery

namespace Channel

theorem deliver_eq_receive {c : Channel} {s : Subscriber} {texts : List String}
    (h : c.Awaits s texts) (hs : s.active = true) :
    c.deliver s =
      (receipts c.capacity texts).foldl (Delivery.receive c.name) { subscriber := s.name } := by
  rw [deliver, if_pos hs, h.lost_eq, h.backlog_eq, receipts, List.foldl_append,
    Delivery.foldl_receive_payload]
  by_cases hlost : texts.length - c.capacity = 0
  · simp [hlost, lagged]
  · simp [hlost, Delivery.receive]

theorem foldl_receive_encode (capacity : Nat) (channel : String) (d : Delivery)
    (es : List Envelope) :
    (receipts capacity (es.map Envelope.encode)).foldl (Delivery.receive channel) d =
      { d with
        envelopes := d.envelopes ++ es.drop (es.length - capacity)
        events := d.events ++ lagged channel (es.length - capacity) } := by
  have hdrop : (es.map Envelope.encode).drop (es.length - capacity) =
      (es.drop (es.length - capacity)).map Envelope.encode := List.map_drop.symm
  rw [receipts, List.length_map, List.foldl_append, Delivery.foldl_receive_payload, hdrop,
    Delivery.payloads_encode]
  by_cases hlost : es.length - capacity = 0
  · simp [hlost, lagged]
  · simp [hlost, Delivery.receive]

end Channel

end Roster
