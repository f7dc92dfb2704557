import FaAuthM8.Events.Hub
import FaAuthM8.Lib.Interleaving

/-!
# Consumers of the event stream

Each process is a consumer with at most one connection at a time; between its steps events are published and
others connect. A connection runs the generator of `stream`, whose frames are in flight until the consumer
receives them; a disconnection loses what is in flight. What was published is recorded, newest first, and no
step reads it.
-/

namespace FaAuthM8

structure StreamWorld where
  hub : EventHub
  published : List BufferedEvent := []

/-- The point the generator has reached: the replay, the top of the loop, waiting for an item, or its end. -/
inductive StreamPhase
  | replay (gap : Bool) (events : List BufferedEvent)
  | top
  | waiting
  | ended
deriving DecidableEq, Repr

structure Connection where
  phase : StreamPhase
  inFlight : List Frame := []
deriving DecidableEq, Repr

/-- A consumer: the identifier of the last event frame it received, its connection, what it has received in
order, and how many events had been published when it first connected. -/
structure Consumer where
  lastEventId : Option String := none
  connection : Option Connection := none
  received : List Frame := []
  since : Option Nat := none
deriving DecidableEq, Repr

inductive StreamAction
  | publish (eventType data : String)
  | close
  | connect
  | proceed
  | heartbeat
  | receive
  | disconnect
deriving DecidableEq, Repr

namespace StreamWorld

def publish (w : StreamWorld) (eventType data : String) : StreamWorld where
  hub := w.hub.fanout eventType data
  published := w.hub.nextEvent eventType data :: w.published

def setSubscriber (w : StreamWorld) (p : Nat) (sub : Option Subscriber) : StreamWorld :=
  { w with hub := w.hub.setSubscriber p sub }

end StreamWorld

namespace Connection

def send (connection : Connection) (frame : Frame) (phase : StreamPhase) : Connection where
  phase := phase
  inFlight := connection.inFlight ++ [frame]

end Connection

namespace Consumer

def receive (consumer : Consumer) (frame : Frame) : Consumer :=
  { consumer with
    received := consumer.received ++ [frame]
    lastEventId :=
      match frame with
      | .event event => some event.eventId
      | _ => consumer.lastEventId }

end Consumer

/-- One step of the generator of `stream`; nothing while it waits on an empty queue. -/
def generatorStep (p : Nat) (w : StreamWorld) (connection : Connection) : Option (StreamWorld × Connection) :=
  match connection.phase with
  | .replay true events => some (w, connection.send .gap (.replay false events))
  | .replay false (event :: rest) => some (w, connection.send (.event event) (.replay false rest))
  | .replay false [] => some (w, { connection with phase := .top })
  | .top =>
      match w.hub.subscribers p with
      | none => none
      | some sub =>
          if sub.overflow then some (w.setSubscriber p none, { connection with phase := .ended })
          else some (w, { connection with phase := .waiting })
  | .waiting =>
      match w.hub.subscribers p with
      | none => none
      | some sub =>
          match sub.queue with
          | [] => none
          | .close :: _ => some (w.setSubscriber p none, { connection with phase := .ended })
          | .event event :: rest =>
              some (w.setSubscriber p (some { sub with queue := rest }), connection.send (.event event) .top)
  | .ended => none

def streamStep (p : Nat) (w : StreamWorld) (consumer : Consumer) :
    StreamAction → Option (StreamWorld × Consumer)
  | .publish eventType data => some (w.publish eventType data, consumer)
  | .close => some ({ w with hub := w.hub.close }, consumer)
  | .connect =>
      match consumer.connection with
      | some _ => none
      | none =>
          let (replay, resumable) := w.hub.resume consumer.lastEventId
          some (w.setSubscriber p (some {}), { consumer with
            connection := some { phase := .replay (!resumable) replay }
            since := consumer.since.or (some w.hub.seq) })
  | .proceed => do
      let connection ← consumer.connection
      let (w', connection') ← generatorStep p w connection
      some (w', { consumer with connection := some connection' })
  | .heartbeat => do
      let connection ← consumer.connection
      if connection.phase = .waiting then
        some (w, { consumer with connection := some (connection.send .heartbeat .top) })
      else
        none
  | .receive => do
      let connection ← consumer.connection
      match connection.inFlight with
      | [] => none
      | frame :: rest =>
          some (w, { consumer.receive frame with
            connection := some { connection with inFlight := rest } })
  | .disconnect =>
      match consumer.connection with
      | none => none
      | some _ => some (w.setSubscriber p none, { consumer with connection := none })

def stream : Interleaving.System StreamWorld Consumer StreamAction where
  step := streamStep

inductive StreamStep (p : Nat) (w : StreamWorld) (consumer : Consumer) :
    StreamAction → StreamWorld → Consumer → Prop
  | publish {eventType data : String} :
      StreamStep p w consumer (.publish eventType data) (w.publish eventType data) consumer
  | close : StreamStep p w consumer .close { w with hub := w.hub.close } consumer
  | connect {replay : List BufferedEvent} {resumable : Bool} (hnone : consumer.connection = none)
      (hresume : w.hub.resume consumer.lastEventId = (replay, resumable)) :
      StreamStep p w consumer .connect (w.setSubscriber p (some {})) { consumer with
        connection := some { phase := .replay (!resumable) replay }
        since := consumer.since.or (some w.hub.seq) }
  | proceed {w' : StreamWorld} {connection connection' : Connection}
      (hconnection : consumer.connection = some connection)
      (hgenerator : generatorStep p w connection = some (w', connection')) :
      StreamStep p w consumer .proceed w' { consumer with connection := some connection' }
  | heartbeat {connection : Connection} (hconnection : consumer.connection = some connection)
      (hwaiting : connection.phase = .waiting) :
      StreamStep p w consumer .heartbeat w
        { consumer with connection := some (connection.send .heartbeat .top) }
  | receive {connection : Connection} {frame : Frame} {rest : List Frame}
      (hconnection : consumer.connection = some connection)
      (hinFlight : connection.inFlight = frame :: rest) :
      StreamStep p w consumer .receive w { consumer.receive frame with
        connection := some { connection with inFlight := rest } }
  | disconnect {connection : Connection} (hconnection : consumer.connection = some connection) :
      StreamStep p w consumer .disconnect (w.setSubscriber p none) { consumer with connection := none }

theorem streamStep_sound {p : Nat} {w w' : StreamWorld} {consumer consumer' : Consumer} {a : StreamAction}
    (hstep : streamStep p w consumer a = some (w', consumer')) : StreamStep p w consumer a w' consumer' := by
  cases a with
  | publish eventType data =>
      cases hstep
      exact .publish
  | close =>
      cases hstep
      exact .close
  | connect =>
      simp only [streamStep] at hstep
      split at hstep
      · cases hstep
      · next hnone =>
          cases hstep
          exact .connect hnone rfl
  | proceed =>
      obtain ⟨connection, hconnection, hstep⟩ := Option.bind_eq_some_iff.1 hstep
      obtain ⟨⟨w₁, connection'⟩, hgenerator, heq⟩ := Option.bind_eq_some_iff.1 hstep
      cases heq
      exact .proceed hconnection hgenerator
  | heartbeat =>
      obtain ⟨connection, hconnection, hstep⟩ := Option.bind_eq_some_iff.1 hstep
      split at hstep
      · next hwaiting =>
          cases hstep
          exact .heartbeat hconnection hwaiting
      · cases hstep
  | receive =>
      obtain ⟨connection, hconnection, hstep⟩ := Option.bind_eq_some_iff.1 hstep
      split at hstep
      · cases hstep
      · next frame rest hinFlight =>
          cases hstep
          exact .receive hconnection hinFlight
  | disconnect =>
      simp only [streamStep] at hstep
      split at hstep
      · cases hstep
      · next connection hconnection =>
          cases hstep
          exact .disconnect hconnection

end FaAuthM8
