import FaAuthM8.Lib.Parsing
import Mathlib.Logic.Function.Basic

/-!
# The event hub

Every published event gets the next number, goes into a ring buffer and into the bounded queue of each
subscriber; a subscriber whose queue is full overflows and gets no more. A consumer that names the last event
it received is sent the buffered events after it, or told that there is a gap. An event is published when it
fans out, which the loop does in the order of the calls.
-/

namespace FaAuthM8

structure BufferedEvent where
  seq : Nat
  eventId : String
  eventType : String
  data : String
deriving DecidableEq, Repr

/-- An element of a subscriber's queue; `close` is the sentinel of a shutdown. -/
inductive QueueItem
  | event (event : BufferedEvent)
  | close
deriving DecidableEq, Repr

structure Subscriber where
  queue : List QueueItem := []
  overflow : Bool := false
deriving DecidableEq, Repr

/-- What a consumer can be sent. -/
inductive Frame
  | heartbeat
  | gap
  | event (event : BufferedEvent)
deriving DecidableEq, Repr

structure EventHub where
  bufferSize : Nat
  maxQueue : Nat
  epoch : String
  epoch_ne : epoch ≠ "" := by decide
  seq : Nat := 0
  buffer : List BufferedEvent := []
  /-- The subscription of each consumer. -/
  subscribers : Nat → Option Subscriber := fun _ => none

namespace Subscriber

/-- `put_nowait`, or nothing when the queue is full; a queue of size zero is unbounded. -/
def putNowait (maxQueue : Nat) (item : QueueItem) (sub : Subscriber) : Option Subscriber :=
  if maxQueue ≠ 0 ∧ maxQueue ≤ sub.queue.length then none
  else some { sub with queue := sub.queue ++ [item] }

def enqueue (maxQueue : Nat) (event : BufferedEvent) (sub : Subscriber) : Subscriber :=
  if sub.overflow then sub
  else (sub.putNowait maxQueue (.event event)).getD { sub with overflow := true }

def close (maxQueue : Nat) (sub : Subscriber) : Subscriber :=
  (sub.putNowait maxQueue .close).getD sub

end Subscriber

/-- `append` to a `deque` of bounded length. -/
def appendBounded {α : Type} (size : Nat) (buffer : List α) (x : α) : List α :=
  (buffer ++ [x]).drop ((buffer ++ [x]).length - size)

def eventId (epoch : String) (seq : Nat) : String :=
  epoch ++ "-" ++ toString seq

def parseEventId (eventId : String) : Option (String × Int) :=
  match Parsing.rpartition '-' eventId.toList with
  | none => none
  | some (epoch, seq) =>
      if epoch.isEmpty then none
      else (Parsing.int seq).map fun seq => (String.ofList epoch, seq)

theorem parseEventId_eventId {epoch : String} (hne : epoch ≠ "") (seq : Nat) :
    parseEventId (eventId epoch seq) = some (epoch, (seq : Int)) := by
  have htext : (eventId epoch seq).toList = epoch.toList ++ '-' :: Nat.toDigits 10 seq := by
    simp [eventId, Nat.repr_eq_ofList_toDigits]
  have hdash : '-' ∉ Nat.toDigits 10 seq := by
    intro hmem
    have hdigit := Nat.isDigit_of_mem_toDigits (by decide) (by decide) hmem
    cases hdigit
  have hepoch : epoch.toList.isEmpty = false := by
    simpa using hne
  rw [parseEventId, htext, Parsing.rpartition_append '-' _ hdash]
  simp [hepoch, Parsing.int_toDigits]

namespace EventHub

/-- The event `_fanout` makes of what is published. -/
def nextEvent (hub : EventHub) (eventType data : String) : BufferedEvent where
  seq := hub.seq + 1
  eventId := eventId hub.epoch (hub.seq + 1)
  eventType := eventType
  data := data

def fanout (hub : EventHub) (eventType data : String) : EventHub :=
  let event := hub.nextEvent eventType data
  { hub with
    seq := hub.seq + 1
    buffer := appendBounded hub.bufferSize hub.buffer event
    subscribers := fun p => (hub.subscribers p).map (·.enqueue hub.maxQueue event) }

def close (hub : EventHub) : EventHub :=
  { hub with subscribers := fun p => (hub.subscribers p).map (·.close hub.maxQueue) }

/-- `_resume`: the events to replay, and whether the place of the consumer could be found. -/
def resume (hub : EventHub) (lastEventId : Option String) : List BufferedEvent × Bool :=
  match lastEventId with
  | none => ([], true)
  | some lastEventId =>
      match parseEventId lastEventId with
      | none => ([], false)
      | some (epoch, lastSeq) =>
          if epoch ≠ hub.epoch then ([], false)
          else
            match hub.buffer with
            | [] => ([], (hub.seq : Int) ≤ lastSeq)
            | first :: _ =>
                if lastSeq + 1 < (first.seq : Int) then ([], false)
                else (hub.buffer.filter fun event => lastSeq < (event.seq : Int), true)

def setSubscriber (hub : EventHub) (p : Nat) (sub : Option Subscriber) : EventHub :=
  { hub with subscribers := Function.update hub.subscribers p sub }

end EventHub

end FaAuthM8
