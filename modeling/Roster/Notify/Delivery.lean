import Roster.Report
import Roster.Wire
/-! # Delivery of a published payload to a subscriber -/
namespace Roster

/-- What a subscriber receives: envelopes, and events about those it does not. -/
structure Delivery where
  subscriber : String
  envelopes : List Envelope := []
  events : List Event := []
  deriving DecidableEq, Repr

namespace Delivery

/-- A payload that is no envelope is dropped with a warning. -/
def payload (d : Delivery) (channel text : String) : Delivery :=
  match Envelope.decode text with
  | .ok e => { d with envelopes := d.envelopes ++ [e] }
  | .error f =>
    let event : Event :=
      { level := .warn, message := "dropping undecodable envelope",
        fields := [("channel", channel), ("error", f.message text.toList)] }
    { d with events := d.events ++ [event] }

def payloads (d : Delivery) (channel : String) (texts : List String) : Delivery :=
  texts.foldl (fun d t => d.payload channel t) d

end Delivery

end Roster
