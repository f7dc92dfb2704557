import FaAuthM8.Events.Wire
import FaAuthM8.System.Stream

/-!
# Consumers on the wire

The same consumers one level down: what is in flight is the text of the frames, the client reads it one
character at a time, and a disconnection cuts it off anywhere. The client names the id of the last message
when it connects again.
-/

namespace FaAuthM8

structure WireConnection where
  phase : StreamPhase
  inFlight : List Char := []
deriving DecidableEq, Repr

structure WireConsumer where
  connection : Option WireConnection := none
  reader : EventStream.Reader := {}
deriving DecidableEq, Repr

namespace WireConsumer

/-- The header a client sends, once it has an id. -/
def lastEventId (consumer : WireConsumer) : Option String :=
  if consumer.reader.lastEventId = [] then none else some (String.ofList consumer.reader.lastEventId)

end WireConsumer

def wireText (frames : List Frame) : List Char := frames.flatMap fun frame => frame.text.toList

def wireStep (p : Nat) (w : StreamWorld) (consumer : WireConsumer) :
    StreamAction → Option (StreamWorld × WireConsumer)
  | .publish eventType data => some (w.publish eventType data, consumer)
  | .close => some ({ w with hub := w.hub.close }, consumer)
  | .connect =>
      match consumer.connection with
      | some _ => none
      | none =>
          let (replay, resumable) := w.hub.resume consumer.lastEventId
          some (w.setSubscriber p (some {}),
            { connection := some { phase := .replay (!resumable) replay }, reader := consumer.reader.reconnect })
  | .proceed => do
      let connection ← consumer.connection
      let (w', sent) ← generatorStep p w { phase := connection.phase }
      some (w', { consumer with
        connection := some { phase := sent.phase, inFlight := connection.inFlight ++ wireText sent.inFlight } })
  | .heartbeat => do
      let connection ← consumer.connection
      if connection.phase = .waiting then
        some (w, { consumer with
          connection := some { phase := .top, inFlight := connection.inFlight ++ HEARTBEAT_FRAME.toList } })
      else
        none
  | .receive => do
      let connection ← consumer.connection
      match connection.inFlight with
      | [] => none
      | c :: rest =>
          some (w, { connection := some { connection with inFlight := rest }, reader := consumer.reader.step c })
  | .disconnect =>
      match consumer.connection with
      | none => none
      | some _ => some (w.setSubscriber p none, { consumer with connection := none })

def wire : Interleaving.System StreamWorld WireConsumer StreamAction where
  step := wireStep

inductive WireStep (p : Nat) (w : StreamWorld) (consumer : WireConsumer) :
    StreamAction → StreamWorld → WireConsumer → Prop
  | publish {eventType data : String} :
      WireStep p w consumer (.publish eventType data) (w.publish eventType data) consumer
  | close : WireStep p w consumer .close { w with hub := w.hub.close } consumer
  | connect {replay : List BufferedEvent} {resumable : Bool} (hnone : consumer.connection = none)
      (hresume : w.hub.resume consumer.lastEventId = (replay, resumable)) :
      WireStep p w consumer .connect (w.setSubscriber p (some {}))
        { connection := some { phase := .replay (!resumable) replay }, reader := consumer.reader.reconnect }
  | proceed {w' : StreamWorld} {connection : WireConnection} {sent : Connection}
      (hconnection : consumer.connection = some connection)
      (hgenerator : generatorStep p w { phase := connection.phase } = some (w', sent)) :
      WireStep p w consumer .proceed w' { consumer with
        connection := some { phase := sent.phase, inFlight := connection.inFlight ++ wireText sent.inFlight } }
  | heartbeat {connection : WireConnection} (hconnection : consumer.connection = some connection)
      (hwaiting : connection.phase = .waiting) :
      WireStep p w consumer .heartbeat w { consumer with
        connection := some { phase := .top, inFlight := connection.inFlight ++ HEARTBEAT_FRAME.toList } }
  | receive {connection : WireConnection} {c : Char} {rest : List Char}
      (hconnection : consumer.connection = some connection) (hinFlight : connection.inFlight = c :: rest) :
      WireStep p w consumer .receive w
        { connection := some { connection with inFlight := rest }, reader := consumer.reader.step c }
  | disconnect {connection : WireConnection} (hconnection : consumer.connection = some connection) :
      WireStep p w consumer .disconnect (w.setSubscriber p none) { consumer with connection := none }

theorem wireStep_sound {p : Nat} {w w' : StreamWorld} {consumer consumer' : WireConsumer} {a : StreamAction}
    (hstep : wireStep p w consumer a = some (w', consumer')) : WireStep p w consumer a w' consumer' := by
  cases a with
  | publish eventType data =>
      cases hstep
      exact .publish
  | close =>
      cases hstep
      exact .close
  | connect =>
      simp only [wireStep] at hstep
      split at hstep
      · cases hstep
      · next hnone =>
          cases hstep
          exact .connect hnone rfl
  | proceed =>
      obtain ⟨connection, hconnection, hstep⟩ := Option.bind_eq_some_iff.1 hstep
      obtain ⟨⟨w₁, sent⟩, hgenerator, heq⟩ := Option.bind_eq_some_iff.1 hstep
      cases heq
      exact .proceed hconnection hgenerator
  | heartbeat =>
      obtain ⟨connection, hconnection, hstep⟩ := Option.bind_eq_some_iff.1 hstep
      split at hstep
      · next hwaiting =>
          cases hstep
          exact .heartbeat hconnection hwaiting
      · cases hstep
  | receive =>
      obtain ⟨connection, hconnection, hstep⟩ := Option.bind_eq_some_iff.1 hstep
      split at hstep
      · cases hstep
      · next c rest hinFlight =>
          cases hstep
          exact .receive hconnection hinFlight
  | disconnect =>
      simp only [wireStep] at hstep
      split at hstep
      · cases hstep
      · next connection hconnection =>
          cases hstep
          exact .disconnect hconnection

@[simp] theorem wireText_nil : wireText [] = [] := rfl

@[simp] theorem wireText_cons (frame : Frame) (rest : List Frame) :
    wireText (frame :: rest) = frame.text.toList ++ wireText rest := rfl

theorem wireText_append (first second : List Frame) :
    wireText (first ++ second) = wireText first ++ wireText second :=
  List.flatMap_append

/-- The generator does not look at what is in flight, and adds to it at its end. -/
theorem generatorStep_inFlight {p : Nat} {w w' : StreamWorld} {phase : StreamPhase} {sent : Connection}
    (hgenerator : generatorStep p w { phase } = some (w', sent)) (inFlight : List Frame) :
    generatorStep p w { phase, inFlight } =
      some (w', { phase := sent.phase, inFlight := inFlight ++ sent.inFlight }) := by
  cases phase with
  | replay gap events =>
      cases gap with
      | true =>
          cases hgenerator
          rfl
      | false =>
          cases events with
          | nil =>
              cases hgenerator
              simp [generatorStep]
          | cons event rest =>
              cases hgenerator
              rfl
  | top =>
      simp only [generatorStep] at hgenerator ⊢
      cases hsub : w.hub.subscribers p with
      | none =>
          rw [hsub] at hgenerator
          cases hgenerator
      | some sub =>
          rw [hsub] at hgenerator
          cases hoverflow : sub.overflow with
          | true =>
              simp only [hoverflow, if_true] at hgenerator ⊢
              cases hgenerator
              simp
          | false =>
              simp only [hoverflow, if_false, Bool.false_eq_true] at hgenerator ⊢
              cases hgenerator
              simp
  | waiting =>
      simp only [generatorStep] at hgenerator ⊢
      cases hsub : w.hub.subscribers p with
      | none =>
          rw [hsub] at hgenerator
          cases hgenerator
      | some sub =>
          obtain ⟨queue, overflow⟩ := sub
          cases queue with
          | nil =>
              rw [hsub] at hgenerator
              cases hgenerator
          | cons item rest =>
              rw [hsub] at hgenerator
              cases item with
              | close =>
                  cases hgenerator
                  simp
              | event event =>
                  cases hgenerator
                  rfl
  | ended => cases hgenerator

end FaAuthM8
