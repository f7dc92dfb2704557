import FaAuthM8.Events.Hub
import FaAuthM8.Lib.EventStream

/-!
# Frames on the wire

How the hub writes its frames, and what a client of event streams makes of them. A payload is serialized by the
SDK, as JSON on one line; the types of the events are constants, and the epoch is a number.
-/

namespace FaAuthM8

def EVENT_SESSION_REVOKED : String := "session-revoked"

def EVENT_USER_DELETED : String := "user-deleted"

def HEARTBEAT_FRAME : String := ": ping\n\n"

def GAP_FRAME : String := "event: gap\ndata: {}\n\n"

def BufferedEvent.format (event : BufferedEvent) : String :=
  "id: " ++ event.eventId ++ "\nevent: " ++ event.eventType ++ "\ndata: " ++ event.data ++ "\n\n"

/-- What `stream` yields for a frame. -/
def Frame.text : Frame → String
  | .heartbeat => HEARTBEAT_FRAME
  | .gap => GAP_FRAME
  | .event sent => sent.format

def BufferedEvent.message (event : BufferedEvent) : EventStream.Message where
  type := event.eventType.toList
  data := event.data.toList
  lastEventId := event.eventId.toList

/-- The signal that events may be missing; it names no event of its own. -/
def gapMessage (lastEventId : List Char) : EventStream.Message where
  type := "gap".toList
  data := "{}".toList
  lastEventId := lastEventId

/-- The messages that frames carry, for a client that has `lastEventId`. -/
def messagesFrom (lastEventId : List Char) : List Frame → List EventStream.Message
  | [] => []
  | .heartbeat :: rest => messagesFrom lastEventId rest
  | .gap :: rest => gapMessage lastEventId :: messagesFrom lastEventId rest
  | .event event :: rest => event.message :: messagesFrom event.eventId.toList rest

/-- The id of the last event among the frames. -/
def lastIdFrom (lastEventId : List Char) : List Frame → List Char
  | [] => lastEventId
  | .event event :: rest => lastIdFrom event.eventId.toList rest
  | _ :: rest => lastIdFrom lastEventId rest

/-- An event that can be written on three lines. -/
structure BufferedEvent.OnLines (event : BufferedEvent) : Prop where
  eventType_ne : event.eventType ≠ ""
  eventType : EventStream.OneLine event.eventType.toList
  data : EventStream.OneLine event.data.toList
  eventId_ne : event.eventId ≠ ""
  eventId : EventStream.OneLine event.eventId.toList
  null : Char.ofNat 0 ∉ event.eventId.toList

def Frame.OnLines : Frame → Prop
  | .event sent => sent.OnLines
  | _ => True

theorem messagesFrom_append (lastEventId : List Char) (first second : List Frame) :
    messagesFrom lastEventId (first ++ second) =
      messagesFrom lastEventId first ++ messagesFrom (lastIdFrom lastEventId first) second := by
  induction first generalizing lastEventId with
  | nil => rfl
  | cons frame rest ih =>
      cases frame with
      | heartbeat => exact ih lastEventId
      | gap => exact congrArg (gapMessage lastEventId :: ·) (ih lastEventId)
      | event event => exact congrArg (event.message :: ·) (ih event.eventId.toList)

theorem lastIdFrom_append (lastEventId : List Char) (first second : List Frame) :
    lastIdFrom lastEventId (first ++ second) = lastIdFrom (lastIdFrom lastEventId first) second := by
  induction first generalizing lastEventId with
  | nil => rfl
  | cons frame rest ih =>
      cases frame with
      | heartbeat => exact ih lastEventId
      | gap => exact ih lastEventId
      | event event => exact ih event.eventId.toList

/-! ### A frame as lines -/

namespace Frame

def lines : Frame → List EventStream.Line
  | .heartbeat => [.comment " ping".toList]
  | .gap => [.field "event".toList "gap".toList, .field "data".toList "{}".toList]
  | .event sent => [.field "id".toList sent.eventId.toList, .field "event".toList sent.eventType.toList,
      .field "data".toList sent.data.toList]

theorem text_eq_block (frame : Frame) : frame.text.toList = EventStream.block frame.lines := by
  cases frame with
  | heartbeat => rfl
  | gap => rfl
  | event sent =>
      simp [text, BufferedEvent.format, lines, EventStream.block, EventStream.Line.render,
        EventStream.Line.text]

theorem text_ne_nil (frame : Frame) : frame.text.toList ≠ [] := by
  rw [text_eq_block, EventStream.block]
  simp

theorem OnLines.wellFormed {frame : Frame} (hlines : frame.OnLines) :
    ∀ line ∈ frame.lines, line.WellFormed := by
  have hconstant {name value : List Char} (hname : name ≠ []) (hcolon : ':' ∉ name)
      (hreturn : '\r' ∉ name) (hfeed : '\n' ∉ name) (hvalue : EventStream.OneLine value) :
      (EventStream.Line.field name value).WellFormed :=
    .field hname hcolon ⟨hreturn, hfeed⟩ hvalue
  intro line hline
  cases frame with
  | heartbeat =>
      obtain rfl := List.mem_singleton.1 hline
      exact .comment ⟨by decide, by decide⟩
  | gap =>
      simp only [lines, List.mem_cons, List.not_mem_nil, or_false] at hline
      rcases hline with rfl | rfl
      · exact hconstant (by decide) (by decide) (by decide) (by decide) ⟨by decide, by decide⟩
      · exact hconstant (by decide) (by decide) (by decide) (by decide) ⟨by decide, by decide⟩
  | event sent =>
      simp only [lines, List.mem_cons, List.not_mem_nil, or_false] at hline
      rcases hline with rfl | rfl | rfl
      · exact hconstant (by decide) (by decide) (by decide) (by decide) hlines.eventId
      · exact hconstant (by decide) (by decide) (by decide) (by decide) hlines.eventType
      · exact hconstant (by decide) (by decide) (by decide) (by decide) hlines.data

end Frame

/-! ### Reading a frame -/

section

variable {r : EventStream.Reader} {frame : Frame}

/-- What reading a frame does to a client between two messages. -/
structure ReadsFrame (frame : Frame) (r r' : EventStream.Reader) : Prop where
  atMessage : r'.AtMessage
  messages : r'.messages = r.messages ++ messagesFrom r.lastEventId [frame]
  lastEventId : r'.lastEventId = lastIdFrom r.lastEventId [frame]

theorem feed_frame (hat : r.AtMessage) (hlines : frame.OnLines) :
    ReadsFrame frame r (r.feed frame.text.toList) := by
  have hatAfter := hat.feed_block hlines.wellFormed
  have hfeed := EventStream.Reader.feed_block hat.toAtLine hlines.wellFormed
  rw [← Frame.text_eq_block] at hatAfter hfeed
  cases frame with
  | heartbeat =>
      have hdispatch : r.dispatch = { r with lastEventId := r.id, type := [] } := by
        rw [EventStream.Reader.dispatch, if_pos hat.data]
      refine ⟨hatAfter, ?_, ?_⟩
      · rw [hfeed]
        show r.dispatch.messages = r.messages ++ []
        rw [hdispatch, List.append_nil]
      · rw [hfeed]
        show r.dispatch.lastEventId = r.lastEventId
        rw [hdispatch]
        exact hat.id
  | gap =>
      refine ⟨hatAfter, ?_, ?_⟩
      · rw [hfeed]
        simp [Frame.lines, EventStream.Reader.apply, EventStream.Reader.setField,
          EventStream.Reader.dispatch, hat.data, hat.id, messagesFrom, gapMessage]
      · rw [hfeed]
        simp [Frame.lines, EventStream.Reader.apply, EventStream.Reader.setField,
          EventStream.Reader.dispatch, hat.data, hat.id, lastIdFrom]
  | event event =>
      have htype : event.eventType ≠ "" := hlines.eventType_ne
      have hnull := hlines.null
      refine ⟨hatAfter, ?_, ?_⟩
      · rw [hfeed]
        simp [Frame.lines, EventStream.Reader.apply, EventStream.Reader.setField,
          EventStream.Reader.dispatch, hat.data, messagesFrom, BufferedEvent.message, htype, hnull]
      · rw [hfeed]
        simp [Frame.lines, EventStream.Reader.apply, EventStream.Reader.setField,
          EventStream.Reader.dispatch, hat.data, lastIdFrom, hnull]

/-- A frame that is cut off leaves no trace. -/
theorem feed_part_of_frame (hat : r.AtMessage) (hlines : frame.OnLines) {part rest : List Char}
    (hpart : frame.text.toList = part ++ rest) (hrest : rest ≠ []) :
    (r.feed part).lastEventId = r.lastEventId ∧ (r.feed part).messages = r.messages :=
  EventStream.Reader.feed_part_of_block hat.toAtLine hlines.wellFormed
    (frame.text_eq_block.symm.trans hpart) hrest

end

end FaAuthM8
