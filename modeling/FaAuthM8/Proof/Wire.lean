import FaAuthM8.Lib.Simulation
import FaAuthM8.Proof.Stream
import FaAuthM8.System.Wire

/-!
# The stream as its text

A consumer that reads the text of the stream character by character receives what the frame-level consumer
receives, wherever its connections are cut. Between two characters the client has read some whole frames and
part of the next one, and a part leaves no trace. So every run on the wire is a run of the frame-level stream
in which a frame is received when its last character is.
-/

namespace FaAuthM8

open EventStream

/-- What the hub publishes: one of its two events, with data that the SDK serialized. -/
def PublishedBy {Payload : Type} (serialize : Payload → String) (a : StreamAction) : Prop :=
  ∀ eventType data, a = .publish eventType data →
    (eventType = EVENT_SESSION_REVOKED ∨ eventType = EVENT_USER_DELETED) ∧
      ∃ payload, data = serialize payload

/-- The client on the wire has what the frame-level consumer has. -/
structure ReadsAs (reading : WireConsumer) (consumer : Consumer) : Prop where
  messages : reading.reader.messages = messagesFrom [] consumer.received
  lastEventId : reading.lastEventId = consumer.lastEventId
  phase : reading.connection.map (·.phase) = consumer.connection.map (·.phase)
  drained : ∀ connection ∈ reading.connection, connection.inFlight = [] →
    ∀ connection' ∈ consumer.connection, connection'.inFlight = []

/-- Everything the hub holds can be written on lines. -/
structure HubOnLines (w : StreamWorld) : Prop where
  epoch_line : OneLine w.hub.epoch.toList
  epoch_null : Char.ofNat 0 ∉ w.hub.epoch.toList
  buffer : ∀ event ∈ w.hub.buffer, event.OnLines
  queues : ∀ p sub, w.hub.subscribers p = some sub → ∀ event, .event event ∈ sub.queue → event.OnLines

/-- A client that has read all the frames received, and part of the first one in flight. -/
structure MidFrame (received inFlight : List Frame) (reader : Reader) (text : List Char) : Prop where
  onLines : ∀ frame ∈ inFlight, frame.OnLines
  reads : ∃ (before : Reader) (part : List Char), before.AtMessage ∧ before.messages = messagesFrom [] received ∧
    before.lastEventId = lastIdFrom [] received ∧ reader = before.feed part ∧
    part ++ text = wireText inFlight ∧
    ∀ frame rest, inFlight = frame :: rest → part.length < frame.text.toList.length

/-- The two views of a connection. -/
inductive SameConnection (received : List Frame) (reader : Reader) :
    Option WireConnection → Option Connection → Prop
  | none : SameConnection received reader none none
  | some {phase : StreamPhase} {text : List Char} {inFlight : List Frame}
      (hphase : ∀ frame ∈ phase.frames, frame.OnLines)
      (hmid : MidFrame received inFlight reader text) :
      SameConnection received reader (some ⟨phase, text⟩) (some ⟨phase, inFlight⟩)

/-- The two views of a consumer. -/
structure Mirrors (reading : WireConsumer) (consumer : Consumer) : Prop where
  messages : reading.reader.messages = messagesFrom [] consumer.received
  lastEventId : reading.reader.lastEventId = lastIdFrom [] consumer.received
  named : consumer.lastEventId = reading.lastEventId
  connection : SameConnection consumer.received reading.reader reading.connection consumer.connection

section

variable {w w' : StreamWorld} {p : Nat} {received inFlight : List Frame} {reader : Reader} {text : List Char}
  {reading reading' : WireConsumer} {consumer : Consumer}

/-! ### The hub -/

theorem oneLine_toString (n : Nat) :
    OneLine (toString n).toList ∧ Char.ofNat 0 ∉ (toString n).toList ∧ (toString n).toList ≠ [] := by
  have htext : (toString n).toList = Nat.toDigits 10 n := by
    simp [Nat.repr_eq_ofList_toDigits]
  have hdigit : ∀ c ∈ Nat.toDigits 10 n, c.isDigit = true := fun c hc =>
    Nat.isDigit_of_mem_toDigits (by decide) (by decide) hc
  rw [htext]
  refine ⟨⟨fun hmem => ?_, fun hmem => ?_⟩, fun hmem => ?_, ?_⟩
  · exact absurd (hdigit _ hmem) (by decide)
  · exact absurd (hdigit _ hmem) (by decide)
  · exact absurd (hdigit _ hmem) (by decide)
  · exact Nat.toDigits_ne_nil

theorem HubOnLines.nextEvent (hlines : HubOnLines w) {eventType data : String}
    (htype : eventType = EVENT_SESSION_REVOKED ∨ eventType = EVENT_USER_DELETED)
    (hdata : OneLine data.toList) : (w.hub.nextEvent eventType data).OnLines := by
  have hid : (w.hub.nextEvent eventType data).eventId.toList =
      w.hub.epoch.toList ++ '-' :: (toString (w.hub.seq + 1)).toList := by
    simp [EventHub.nextEvent, eventId]
  obtain ⟨hseq, hnull, -⟩ := oneLine_toString (w.hub.seq + 1)
  have hdash : OneLine ('-' :: (toString (w.hub.seq + 1)).toList) := by
    have hsep : OneLine ['-'] := ⟨by decide, by decide⟩
    exact hsep.append hseq
  refine ⟨?_, ?_, hdata, fun hempty => ?_, ?_, ?_⟩
  · show eventType ≠ ""
    rcases htype with rfl | rfl
    · decide
    · decide
  · show OneLine eventType.toList
    rcases htype with rfl | rfl
    · exact ⟨by decide, by decide⟩
    · exact ⟨by decide, by decide⟩
  · rw [hempty] at hid
    simp at hid
  · rw [hid]
    exact hlines.epoch_line.append hdash
  · rw [hid, List.mem_append, List.mem_cons, not_or, not_or]
    exact ⟨hlines.epoch_null, by decide, hnull⟩

theorem mem_appendBounded {α : Type} {size : Nat} {buffer : List α} {x y : α}
    (hmem : y ∈ appendBounded size buffer x) : y ∈ buffer ∨ y = x := by
  have hall := List.mem_of_mem_drop hmem
  simpa using hall

theorem HubOnLines.publish (hlines : HubOnLines w) {eventType data : String}
    (htype : eventType = EVENT_SESSION_REVOKED ∨ eventType = EVENT_USER_DELETED)
    (hdata : OneLine data.toList) : HubOnLines (w.publish eventType data) where
  epoch_line := hlines.epoch_line
  epoch_null := hlines.epoch_null
  buffer event hevent := by
    rcases mem_appendBounded hevent with hold | rfl
    · exact hlines.buffer event hold
    · exact hlines.nextEvent htype hdata
  queues q sub hsub event hevent := by
    obtain ⟨before, hbefore, rfl⟩ := Option.map_eq_some_iff.1 hsub
    rw [Subscriber.enqueue] at hevent
    split at hevent
    · exact hlines.queues q before hbefore event hevent
    · rw [Subscriber.putNowait] at hevent
      split at hevent
      · exact hlines.queues q before hbefore event hevent
      · rcases List.mem_append.1 hevent with hold | hnew
        · exact hlines.queues q before hbefore event hold
        · cases List.mem_singleton.1 hnew
          exact hlines.nextEvent htype hdata

theorem HubOnLines.close (hlines : HubOnLines w) : HubOnLines { w with hub := w.hub.close } where
  epoch_line := hlines.epoch_line
  epoch_null := hlines.epoch_null
  buffer := hlines.buffer
  queues q sub hsub event hevent := by
    obtain ⟨before, hbefore, rfl⟩ := Option.map_eq_some_iff.1 hsub
    rw [Subscriber.close, Subscriber.putNowait] at hevent
    split at hevent
    · exact hlines.queues q before hbefore event hevent
    · rcases List.mem_append.1 hevent with hold | hnew
      · exact hlines.queues q before hbefore event hold
      · cases List.mem_singleton.1 hnew

theorem HubOnLines.setSubscriber (hlines : HubOnLines w) {sub : Option Subscriber}
    (hqueue : ∀ sub' ∈ sub, ∀ event, .event event ∈ sub'.queue → event.OnLines) :
    HubOnLines (w.setSubscriber p sub) where
  epoch_line := hlines.epoch_line
  epoch_null := hlines.epoch_null
  buffer := hlines.buffer
  queues q sub' hsub := by
    by_cases hq : q = p
    · subst hq
      have hself : (w.setSubscriber q sub).hub.subscribers q = sub := Function.update_self ..
      rw [hself] at hsub
      exact hqueue sub' hsub
    · rw [setSubscriber_of_ne hq] at hsub
      exact hlines.queues q sub' hsub

theorem HubOnLines.resume (hlines : HubOnLines w) (lastEventId : Option String) :
    ∀ event ∈ (w.hub.resume lastEventId).1, event.OnLines := by
  intro event hevent
  simp only [EventHub.resume] at hevent
  split at hevent
  · cases hevent
  · split at hevent
    · cases hevent
    · split at hevent
      · cases hevent
      · split at hevent
        · cases hevent
        · next first rest hbuffer =>
            split at hevent
            · cases hevent
            · exact hlines.buffer event (List.mem_filter.1 hevent).1

theorem HubOnLines.generator (hlines : HubOnLines w) {phase : StreamPhase} {sent : Connection}
    (hphase : ∀ frame ∈ phase.frames, frame.OnLines)
    (hgenerator : generatorStep p w { phase } = some (w', sent)) :
    HubOnLines w' ∧ (∀ frame ∈ sent.phase.frames, frame.OnLines) ∧ ∀ frame ∈ sent.inFlight, frame.OnLines := by
  have hnothing : ∀ frame ∈ ([] : List Frame), frame.OnLines := by simp
  cases phase with
  | replay gap events =>
      cases gap with
      | true =>
          cases hgenerator
          refine ⟨hlines, fun frame hframe => hphase frame (List.mem_cons_of_mem _ hframe), ?_⟩
          intro frame hframe
          rw [List.mem_singleton.1 hframe]
          exact trivial
      | false =>
          cases events with
          | nil =>
              cases hgenerator
              exact ⟨hlines, hnothing, hnothing⟩
          | cons event rest =>
              cases hgenerator
              refine ⟨hlines, fun frame hframe => hphase frame (List.mem_cons_of_mem _ hframe), ?_⟩
              intro frame hframe
              rw [List.mem_singleton.1 hframe]
              exact hphase _ List.mem_cons_self
  | top =>
      simp only [generatorStep] at hgenerator
      split at hgenerator
      · cases hgenerator
      · split at hgenerator
        · cases hgenerator
          exact ⟨hlines.setSubscriber (by simp), hnothing, hnothing⟩
        · cases hgenerator
          exact ⟨hlines, hnothing, hnothing⟩
  | waiting =>
      simp only [generatorStep] at hgenerator
      split at hgenerator
      · cases hgenerator
      · next sub hsub =>
          split at hgenerator
          · cases hgenerator
          · cases hgenerator
            exact ⟨hlines.setSubscriber (by simp), hnothing, hnothing⟩
          · next event rest hqueue =>
              cases hgenerator
              have hqueued := hlines.queues p sub hsub
              rw [hqueue] at hqueued
              refine ⟨hlines.setSubscriber ?_, hnothing, ?_⟩
              · intro sub' hsub' event' hevent
                cases hsub'
                exact hqueued event' (List.mem_cons_of_mem _ hevent)
              · intro frame hframe
                rw [List.mem_singleton.1 hframe]
                exact hqueued event List.mem_cons_self
  | ended => cases hgenerator

/-! ### A client in the middle of a frame -/

theorem MidFrame.send (hmid : MidFrame received inFlight reader text) {frames : List Frame}
    (hframes : ∀ frame ∈ frames, frame.OnLines) :
    MidFrame received (inFlight ++ frames) reader (text ++ wireText frames) := by
  obtain ⟨before, part, hat, hmessages, hid, hreader, htext, hpart⟩ := hmid.reads
  refine ⟨fun frame hframe => ?_, before, part, hat, hmessages, hid, hreader, ?_, ?_⟩
  · exact (List.mem_append.1 hframe).elim (hmid.onLines frame) (hframes frame)
  · rw [← List.append_assoc, htext, wireText_append]
  · intro frame rest hcons
    cases inFlight with
    | nil =>
        -- nothing was in flight, so no part of a frame has been read
        obtain ⟨rfl, -⟩ := List.append_eq_nil_iff.1 htext
        exact List.length_pos_iff.2 frame.text_ne_nil
    | cons first others => exact hpart frame others (congrArg (· :: others) (List.cons.inj hcons).1)

theorem MidFrame.known (hmid : MidFrame received inFlight reader text) :
    reader.messages = messagesFrom [] received ∧ reader.lastEventId = lastIdFrom [] received := by
  obtain ⟨before, part, hat, hmessages, hid, rfl, htext, hpart⟩ := hmid.reads
  cases inFlight with
  | nil =>
      obtain ⟨rfl, -⟩ := List.append_eq_nil_iff.1 htext
      exact ⟨hmessages, hid⟩
  | cons frame rest =>
      have hshort := hpart frame rest rfl
      have hsplit : frame.text.toList = part ++ frame.text.toList.drop part.length := by
        have htake : part = frame.text.toList.take part.length := by
          have hpartOf : part <+: frame.text.toList ++ wireText rest := ⟨text, htext⟩
          have hbegin : part <+: frame.text.toList :=
            List.prefix_of_prefix_length_le hpartOf (List.prefix_append _ _) hshort.le
          exact List.prefix_iff_eq_take.1 hbegin
        conv_lhs => rw [← List.take_append_drop part.length frame.text.toList, ← htake]
      have hrest : frame.text.toList.drop part.length ≠ [] := by
        rw [ne_eq, List.drop_eq_nil_iff]
        omega
      obtain ⟨hid', hmessages'⟩ := feed_part_of_frame hat (hmid.onLines frame List.mem_cons_self) hsplit hrest
      exact ⟨hmessages'.trans hmessages, hid'.trans hid⟩

/-- A character is part of a frame, or its last. -/
theorem MidFrame.receive {c : Char} (hmid : MidFrame received inFlight reader (c :: text)) :
    MidFrame received inFlight (reader.step c) text ∨
      ∃ frame rest, inFlight = frame :: rest ∧ MidFrame (received ++ [frame]) rest (reader.step c) text := by
  obtain ⟨before, part, hat, hmessages, hid, rfl, htext, hpart⟩ := hmid.reads
  cases inFlight with
  | nil => simp at htext
  | cons frame rest =>
      have hshort := hpart frame rest rfl
      have htext' : (part ++ [c]) ++ text = frame.text.toList ++ wireText rest := by
        rw [List.append_assoc]
        exact htext
      have hstep : (before.feed part).step c = before.feed (part ++ [c]) := (before.feed_concat part c).symm
      by_cases hlast : (part ++ [c]).length < frame.text.toList.length
      · refine .inl ⟨hmid.onLines, before, part ++ [c], hat, hmessages, hid, hstep, htext', ?_⟩
        intro frame' rest' hcons
        rw [← (List.cons.inj hcons).1]
        exact hlast
      · have hlength : (part ++ [c]).length = frame.text.toList.length := by
          rw [List.length_append, List.length_singleton] at hlast ⊢
          omega
        obtain ⟨hframe, hrest⟩ := List.append_inj htext' hlength
        have hread := feed_frame hat (hmid.onLines frame List.mem_cons_self)
        rw [← hframe] at hread
        refine .inr ⟨frame, rest, rfl, fun frame' hmem => hmid.onLines frame' (List.mem_cons_of_mem _ hmem), ?_⟩
        refine ⟨_, [], hread.atMessage, ?_, ?_, hstep, hrest, ?_⟩
        · rw [hread.messages, hmessages, hid, messagesFrom_append]
        · rw [hread.lastEventId, hid, lastIdFrom_append]
        · intro frame' rest' _
          exact List.length_pos_iff.2 frame'.text_ne_nil

/-! ### The simulation -/

theorem WireConsumer.lastEventId_eq (reading : WireConsumer) {id : List Char}
    (hid : reading.reader.lastEventId = id) :
    reading.lastEventId = if id = [] then none else some (String.ofList id) := by
  rw [WireConsumer.lastEventId, hid]

theorem receive_named {frame : Frame} (hlines : frame.OnLines)
    (hbefore : consumer.lastEventId =
      if lastIdFrom [] consumer.received = [] then none
      else some (String.ofList (lastIdFrom [] consumer.received))) :
    (consumer.receive frame).lastEventId =
      if lastIdFrom [] (consumer.received ++ [frame]) = [] then none
      else some (String.ofList (lastIdFrom [] (consumer.received ++ [frame]))) := by
  rw [lastIdFrom_append]
  cases frame with
  | heartbeat => exact hbefore
  | gap => exact hbefore
  | event event =>
      have hne : event.eventId.toList ≠ [] := by
        simpa using hlines.eventId_ne
      simp [Consumer.receive, lastIdFrom, hne]

theorem wire_simulated {Payload : Type} {serialize : Payload → String}
    (hserialize : ∀ payload, OneLine (serialize payload).toList) :
    Interleaving.StepSimulated wire stream HubOnLines Mirrors (fun a => decide (a ≠ .receive))
      (PublishedBy serialize) := by
  intro p w reading consumer a w' reading' hlines hmirrors hpublished hstep
  obtain ⟨hmessages, hid, hnamed, hconnection⟩ := hmirrors
  obtain ⟨connection, reader⟩ := reading
  cases wireStep_sound hstep with
  | @publish eventType data =>
      obtain ⟨htype, payload, rfl⟩ := hpublished eventType data rfl
      exact ⟨hlines.publish htype (hserialize payload), .inl ⟨consumer, rfl, hmessages, hid, hnamed, hconnection⟩⟩
  | close => exact ⟨hlines.close, .inl ⟨consumer, rfl, hmessages, hid, hnamed, hconnection⟩⟩
  | @connect replay resumable hnone hresume =>
      obtain rfl : connection = none := hnone
      obtain ⟨named, connection', received, since⟩ := consumer
      cases hconnection with
      | none =>
          have hreplay := hlines.resume (WireConsumer.lastEventId ⟨none, reader⟩)
          rw [hresume] at hreplay
          have hconnect : streamStep p w ⟨named, none, received, since⟩ .connect =
              some (w.setSubscriber p (some {}), ⟨named, some { phase := .replay (!resumable) replay }, received,
                since.or (some w.hub.seq)⟩) := by
            rw [show named = WireConsumer.lastEventId ⟨none, reader⟩ from hnamed]
            simp only [streamStep, hresume]
          refine ⟨hlines.setSubscriber ?_, .inl ⟨_, hconnect, ?_⟩⟩
          · intro sub hsub event hevent
            cases hsub
            cases hevent
          · refine ⟨hmessages, hid, hnamed, .some ?_ ⟨by simp, ?_⟩⟩
            · intro frame hframe
              rw [StreamPhase.frames, List.mem_append, List.mem_map] at hframe
              rcases hframe with hgap | ⟨event, hevent, rfl⟩
              · split at hgap
                · rw [List.mem_singleton.1 hgap]
                  exact trivial
                · cases hgap
              · exact hreplay event hevent
            · refine ⟨reader.reconnect, [], reader.reconnect_atMessage, hmessages, hid, rfl, rfl, ?_⟩
              intro frame rest hcons
              cases hcons
  | @proceed _ connection₁ sent hsome hgenerator =>
      obtain rfl : connection = some connection₁ := hsome
      obtain ⟨named, connection', received, since⟩ := consumer
      cases hconnection with
      | @some phase text inFlight hphase hmid =>
          obtain ⟨hlines', hphase', hsent⟩ := hlines.generator hphase hgenerator
          have hproceed : streamStep p w ⟨named, some ⟨phase, inFlight⟩, received, since⟩ .proceed =
              some (w', ⟨named, some ⟨sent.phase, inFlight ++ sent.inFlight⟩, received, since⟩) := by
            simp only [streamStep, Option.bind_eq_bind, Option.bind_some,
              generatorStep_inFlight hgenerator inFlight]
          exact ⟨hlines', .inl ⟨_, hproceed, hmessages, hid, hnamed, .some hphase' (hmid.send hsent)⟩⟩
  | @heartbeat connection₁ hsome hwaiting =>
      obtain rfl : connection = some connection₁ := hsome
      obtain ⟨named, connection', received, since⟩ := consumer
      cases hconnection with
      | @some phase text inFlight hphase hmid =>
          obtain rfl : phase = .waiting := hwaiting
          have hheartbeat : ∀ frame ∈ [Frame.heartbeat], frame.OnLines := by
            simp [Frame.OnLines]
          have hbeat := hmid.send hheartbeat
          have hstep' : streamStep p w ⟨named, some ⟨.waiting, inFlight⟩, received, since⟩ .heartbeat =
              some (w, ⟨named, some ⟨.top, inFlight ++ [.heartbeat]⟩, received, since⟩) := rfl
          refine ⟨hlines, .inl ⟨_, hstep', hmessages, hid, hnamed, .some (by simp [StreamPhase.frames]) ?_⟩⟩
          simpa [Frame.text] using hbeat
  | @receive connection₁ c rest hsome htext =>
      obtain rfl : connection = some connection₁ := hsome
      obtain ⟨named, connection', received, since⟩ := consumer
      cases hconnection with
      | @some phase text inFlight hphase hmid =>
          obtain rfl : text = c :: rest := htext
          rcases hmid.receive with hpart | ⟨frame, others, rfl, hwhole⟩
          · obtain ⟨hmessages', hid'⟩ := hpart.known
            refine ⟨hlines, .inr ⟨by decide, rfl, hmessages', hid', ?_, .some hphase hpart⟩⟩
            rw [WireConsumer.lastEventId_eq _ hid']
            exact hnamed.trans (WireConsumer.lastEventId_eq _ hid)
          · obtain ⟨hmessages', hid'⟩ := hwhole.known
            refine ⟨hlines, .inl ⟨_, rfl, hmessages', hid', ?_, .some hphase hwhole⟩⟩
            rw [WireConsumer.lastEventId_eq _ hid']
            exact receive_named (hmid.onLines frame List.mem_cons_self)
              (hnamed.trans (WireConsumer.lastEventId_eq _ hid))
  | @disconnect connection₁ hsome =>
      obtain rfl : connection = some connection₁ := hsome
      obtain ⟨named, connection', received, since⟩ := consumer
      cases hconnection with
      | some hphase hmid =>
          exact ⟨hlines.setSubscriber (by simp), .inl ⟨_, rfl, hmessages, hid, hnamed, .none⟩⟩

theorem Mirrors.readsAs (hmirrors : Mirrors reading consumer) : ReadsAs reading consumer := by
  obtain ⟨hmessages, -, hnamed, hconnection⟩ := hmirrors
  obtain ⟨named, connection', received, since⟩ := consumer
  obtain ⟨connection, reader⟩ := reading
  cases hconnection with
  | none => exact ⟨hmessages, hnamed.symm, rfl, by simp⟩
  | @some phase text inFlight hphase hmid =>
      refine ⟨hmessages, hnamed.symm, rfl, ?_⟩
      rintro _ ⟨⟩ (rfl : text = []) _ ⟨⟩
      obtain ⟨before, part, -, -, -, -, htext, hpart⟩ := hmid.reads
      cases inFlight with
      | nil => rfl
      | cons frame rest =>
          have hshort := hpart frame rest rfl
          have hlength := congrArg List.length htext
          rw [List.append_nil, wireText_cons, List.length_append] at hlength
          omega

/-- Whatever is read of the text, and wherever it is cut off, is what the frame-level stream delivers. -/
theorem wire_refines_stream {Payload : Type} {serialize : Payload → String}
    (hserialize : ∀ payload, OneLine (serialize payload).toList) {w : StreamWorld} {boot : Nat}
    (hepoch : w.hub.epoch = toString boot) (hstarts : StreamStarts ⟨w, fun _ => {}⟩)
    {schedule : List (Nat × StreamAction)} (hpublished : ∀ move ∈ schedule, PublishedBy serialize move.2)
    {c : Interleaving.Config StreamWorld WireConsumer}
    (hrun : wire.run ⟨w, fun _ => {}⟩ schedule = some c) :
    ∃ kept d, Interleaving.LeavesOut (fun a => decide (a ≠ .receive)) kept schedule ∧
      stream.run ⟨w, fun _ => {}⟩ kept = some d ∧ d.shared = c.shared ∧
      ∀ p, ReadsAs (c.locals p) (d.locals p) := by
  obtain ⟨hline, hnull, -⟩ := oneLine_toString boot
  have hlines : HubOnLines w := by
    refine ⟨hepoch ▸ hline, hepoch ▸ hnull, ?_, ?_⟩
    · rw [show w.hub.buffer = [] from hstarts.buffer]
      simp
    · intro p sub hsub
      cases (hstarts.subscribers p).symm.trans hsub
  have hsim : Interleaving.Simulated HubOnLines Mirrors ⟨w, fun _ => {}⟩ ⟨w, fun _ => {}⟩ :=
    ⟨rfl, hlines, fun p => ⟨rfl, rfl, rfl, .none⟩⟩
  obtain ⟨kept, d, hleaves, hrun', hsim'⟩ := hsim.run (wire_simulated hserialize) hpublished hrun
  exact ⟨kept, d, hleaves, hrun', hsim'.shared, fun p => (hsim'.locals p).readsAs⟩

end

/-- A payload as the SDK writes it. -/
def signedPayload : Unit → String := fun _ =>
  "\x7b\"payload\": \x7b\"user_id\": \"7\"\x7d, \"sig\": \"0f\"\x7d"

def bootedHub : StreamWorld where
  hub := { freshHub.shared.hub with maxQueue := 8 }

/-- A connection is cut off inside the second frame, and the next one resumes after the first. -/
def cutOffInSecond : List (Nat × StreamAction) :=
  [(0, .connect), (0, .proceed), (0, .proceed), (1, .publish EVENT_SESSION_REVOKED (signedPayload ())),
    (1, .publish EVENT_USER_DELETED (signedPayload ())), (0, .proceed), (0, .proceed), (0, .proceed)] ++
  List.replicate 92 (0, .receive) ++ [(0, .disconnect), (0, .connect), (0, .proceed)] ++
  List.replicate 79 (0, .receive)

theorem wire_refines_stream_cutOffInSecond :
    ∃ c kept d, wire.run ⟨bootedHub, fun _ => {}⟩ cutOffInSecond = some c ∧
      (c.locals 0).reader.messages.map (·.type) = [EVENT_SESSION_REVOKED.toList, EVENT_USER_DELETED.toList] ∧
      Interleaving.LeavesOut (fun a => decide (a ≠ .receive)) kept cutOffInSecond ∧
      stream.run ⟨bootedHub, fun _ => {}⟩ kept = some d ∧ d.shared = c.shared ∧
      ∀ p, ReadsAs (c.locals p) (d.locals p) := by
  have hserialize : ∀ payload, OneLine (signedPayload payload).toList := by
    intro payload
    show OneLine (signedPayload ()).toList
    exact ⟨by decide +kernel, by decide +kernel⟩
  have hepoch : bootedHub.hub.epoch = toString 17 := by decide
  have hstarts : StreamStarts ⟨bootedHub, fun _ => {}⟩ := ⟨rfl, rfl, fun _ => rfl, rfl, fun _ => rfl⟩
  have hpublished : ∀ move ∈ cutOffInSecond, PublishedBy signedPayload move.2 := by
    intro move hmove eventType data hpublish
    obtain ⟨p, a⟩ := move
    obtain rfl : a = .publish eventType data := hpublish
    simp only [cutOffInSecond, List.mem_append, List.mem_cons, List.mem_replicate, Prod.mk.injEq,
      reduceCtorEq, and_false, false_or, or_false, List.not_mem_nil, StreamAction.publish.injEq] at hmove
    rcases hmove with ⟨-, rfl, rfl⟩ | ⟨-, rfl, rfl⟩
    · exact ⟨.inl rfl, (), rfl⟩
    · exact ⟨.inr rfl, (), rfl⟩
  have hruns : (wire.run ⟨bootedHub, fun _ => {}⟩ cutOffInSecond).map
      (fun c => (c.locals 0).reader.messages.map (·.type)) =
        some [EVENT_SESSION_REVOKED.toList, EVENT_USER_DELETED.toList] := by
    decide +kernel
  obtain ⟨c, hrun, htypes⟩ := Option.map_eq_some_iff.1 hruns
  obtain ⟨kept, d, hrefines⟩ := wire_refines_stream hserialize hepoch hstarts hpublished hrun
  exact ⟨c, kept, d, hrun, htypes, hrefines⟩

end FaAuthM8
