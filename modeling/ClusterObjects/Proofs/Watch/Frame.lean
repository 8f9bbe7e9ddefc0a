import ClusterObjects.Proofs.Json.Printer
import ClusterObjects.Watch.Frame

/-! # Reading an event stream

The reader of an event stream cuts it into lines, at line feeds and at carriage returns
alike, and the lines into frames at the blank ones. What it gets are the lines that the
events were written as: no line of a frame can hold a line break of its own, and none is
blank.
-/

namespace ClusterObjects

open Text

/-- The lines of a text. A line ends in a line feed, in a carriage return or in both of them one
after the other; what is left after the last one is a line of its own. -/
def Text.lines : List Char → List (List Char)
  | [] => []
  | '\r' :: '\n' :: rest => [] :: lines rest
  | c :: rest =>
    if c = '\n' ∨ c = '\r' then [] :: lines rest
    else
      match lines rest with
      | [] => [[c]]
      | line :: more => (c :: line) :: more

/-- A plain line that ends in a line feed is the first line. -/
theorem Text.lines_append {line : List Char} (h : Plain line) (rest : List Char) :
    lines (line ++ '\n' :: rest) = line :: lines rest := by
  induction line with
  | nil => simp [lines]
  | cons c line ih =>
    obtain ⟨hc, hline⟩ := plain_cons.mp h
    have hfeed : c ≠ '\n' := by
      rintro rfl
      contradiction
    have hreturn : c ≠ '\r' := by
      rintro rfl
      contradiction
    rw [List.cons_append, lines, ih hline, if_neg (not_or.mpr ⟨hfeed, hreturn⟩)]
    rintro _ rfl
    contradiction

example : Text.lines "a\r\nb\r\n\rc".toList = ["a".toList, "b".toList, [], "c".toList] := by
  decide

namespace Frame

/-- Lines cut into frames. A frame ends in a blank line; what is left after the last one is a
frame of its own. -/
def cut : List (List Char) → List (List (List Char))
  | [] => []
  | line :: rest =>
    if line.isEmpty then [] :: cut rest
    else
      match cut rest with
      | [] => [[line]]
      | frame :: more => (line :: frame) :: more

/-- The frames of an event stream, each with its lines. -/
def frames (text : List Char) : List (List (List Char)) := cut (lines text)

/-- Lines that are not blank, up to a blank one, are the first frame. -/
theorem cut_append {frame : List (List Char)} (h : ∀ line ∈ frame, line ≠ [])
    (rest : List (List Char)) : cut (frame ++ [] :: rest) = frame :: cut rest := by
  induction frame with
  | nil => rfl
  | cons line frame ih =>
    obtain ⟨hline, hframe⟩ := List.forall_mem_cons.mp h
    rw [List.cons_append, cut, ih hframe, if_neg (by simpa using hline)]

/-- The lines that an event is written as: its type, and its object if payloads are on. -/
def linesOf (payload : Bool) (event : Event) : List (List Char) :=
  ("data: ".toList ++ event.type.text.toList) ::
    if payload then ["data: ".toList ++ event.object.document.compact] else []

theorem plain_type (type : EventType) : Plain type.text.toList := by
  cases type <;> decide

theorem plain_of_mem_linesOf {payload : Bool} {event : Event} {line : List Char}
    (h : line ∈ linesOf payload event) : Plain line ∧ line ≠ [] := by
  have hdata : Plain "data: ".toList := by decide
  rcases List.mem_cons.mp h with rfl | h
  · exact ⟨plain_append.mpr ⟨hdata, plain_type event.type⟩, by simp⟩
  · split at h
    · obtain rfl := List.mem_singleton.mp h
      exact ⟨plain_append.mpr ⟨hdata, Json.plain_compact _⟩, by simp⟩
    · contradiction

/-- A frame is written line by line, with a blank line at its end. -/
theorem encode_eq (payload : Bool) (event : Event) :
    encode payload event = (linesOf payload event).flatMap (· ++ ['\n']) ++ ['\n'] := by
  unfold encode linesOf dataLine
  split
  · rw [List.flatMap_cons, List.flatMap_singleton]
  · rw [List.flatMap_singleton, List.append_nil]

theorem lines_flatMap {texts : List (List Char)} (h : ∀ line ∈ texts, Plain line)
    (rest : List Char) : lines (texts.flatMap (· ++ ['\n']) ++ rest) = texts ++ lines rest := by
  induction texts with
  | nil => rfl
  | cons line texts ih =>
    obtain ⟨hline, htexts⟩ := List.forall_mem_cons.mp h
    rw [List.flatMap_cons, List.append_assoc, List.append_assoc, List.singleton_append,
      lines_append hline, ih htexts]
    rfl

/-- The first frame of a stream is that of its first event. -/
theorem frames_encode_append (payload : Bool) (event : Event) (rest : List Char) :
    frames (encode payload event ++ rest) = linesOf payload event :: frames rest := by
  have hblank : lines ('\n' :: rest) = [] :: lines rest := lines_append plain_nil rest
  rw [frames, encode_eq, List.append_assoc, List.singleton_append,
    lines_flatMap fun line hline => (plain_of_mem_linesOf hline).1, hblank,
    cut_append fun line hline => (plain_of_mem_linesOf hline).2]
  rfl

/-- An event stream, cut at its blank lines, gives one frame for each event, in order: a line with
the type of the event and, if payloads are on, one more line with the compact text of the object,
whatever the names, keys and strings of the objects hold. -/
theorem frames_flatMap_encode (payload : Bool) (events : List Event) :
    frames (events.flatMap (encode payload)) = events.map fun event =>
      ("data: ".toList ++ event.type.text.toList) ::
        if payload then ["data: ".toList ++ event.object.document.compact] else [] := by
  induction events with
  | nil => rfl
  | cons event events ih =>
    rw [List.flatMap_cons, frames_encode_append, ih]
    rfl

end Frame

end ClusterObjects
