import ClusterObjects.Json.Printer
import ClusterObjects.Text.Blank
import ClusterObjects.Watch.Event

/-! # Event stream frames

An event is sent as one frame: a line with its type, then, if payloads are on,
a line with its object as compact JSON, then an empty line. Neither line can
hold a line break of its own, so the empty lines separate the frames.
-/

namespace ClusterObjects

namespace Frame

/-- The headers of an event stream. -/
def headers : List (String × String) := [
  ("Content-Type", "text/event-stream"),
  ("Cache-Control", "no-cache"),
  ("Connection", "keep-alive"),
  ("Transfer-Encoding", "chunked")]

/-- Whether frames carry payloads, from the configured text: they do so only if it says
yes. -/
def wantsPayload (configured : Option String) : Bool :=
  match configured with
  | some text => ["1", "true", "TRUE", "yes"].contains (String.ofList (Text.trim text.toList))
  | none => false

def dataLine (text : List Char) : List Char := "data: ".toList ++ text ++ ['\n']

def encode (payload : Bool) (event : Event) : List Char :=
  dataLine event.type.text.toList ++
    (if payload then dataLine event.object.document.compact else []) ++ ['\n']

end Frame

end ClusterObjects
