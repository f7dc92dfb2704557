import FaAuthM8.Proof.Stream

/-!
# Resuming the event stream

The ring buffer holds the last events published, so the events after a place can be replayed exactly as long
as the first of them is still in it. A connection that resumes sends those events and then what is published
while it lasts: what it has sent is always a beginning of that sequence, and while it has not been dropped
the rest of the sequence is what it has yet to send.
-/

namespace FaAuthM8

/-! ### The ring buffer -/

/-- The buffer holds the last events published, as many as it has room for. -/
def RingInv (w : StreamWorld) : Prop :=
  w.hub.buffer = (w.published.take w.hub.bufferSize).reverse

theorem appendBounded_reverse_take {α : Type} (size : Nat) (published : List α) (x : α) :
    appendBounded size (published.take size).reverse x = ((x :: published).take size).reverse := by
  have hpushed : (published.take size).reverse ++ [x] = (x :: published.take size).reverse :=
    List.reverse_cons.symm
  have htaken : (x :: published.take size).take size = (x :: published).take size := by
    cases size with
    | zero => rfl
    | succ size => simp [List.take_take]
  rw [appendBounded, hpushed, List.length_reverse, ← List.reverse_take, htaken]

theorem RingInv.publish {w : StreamWorld} (hring : RingInv w) (eventType data : String) :
    RingInv (w.publish eventType data) := by
  show appendBounded w.hub.bufferSize w.hub.buffer (w.hub.nextEvent eventType data) = _
  rw [hring]
  exact appendBounded_reverse_take _ _ _

theorem generatorStep_hub {p : Nat} {w w' : StreamWorld} {connection connection' : Connection}
    (hstep : generatorStep p w connection = some (w', connection')) :
    w' = w ∨ ∃ sub, w' = w.setSubscriber p sub := by
  obtain ⟨phase, inFlight⟩ := connection
  rw [generatorStep.eq_def] at hstep
  dsimp only at hstep
  split at hstep
  · exact .inl (Prod.mk.inj (Option.some.inj hstep)).1.symm
  · exact .inl (Prod.mk.inj (Option.some.inj hstep)).1.symm
  · exact .inl (Prod.mk.inj (Option.some.inj hstep)).1.symm
  · split at hstep
    · cases hstep
    · split at hstep
      · exact .inr ⟨none, (Prod.mk.inj (Option.some.inj hstep)).1.symm⟩
      · exact .inl (Prod.mk.inj (Option.some.inj hstep)).1.symm
  · split at hstep
    · cases hstep
    · split at hstep
      · cases hstep
      · exact .inr ⟨none, (Prod.mk.inj (Option.some.inj hstep)).1.symm⟩
      · exact .inr ⟨_, (Prod.mk.inj (Option.some.inj hstep)).1.symm⟩
  · cases hstep

theorem StreamStep.ring {p : Nat} {w w' : StreamWorld} {consumer consumer' : Consumer} {a : StreamAction}
    (hstep : StreamStep p w consumer a w' consumer') (hring : RingInv w) : RingInv w' := by
  cases hstep with
  | publish => exact hring.publish _ _
  | close => exact hring
  | connect => exact hring
  | proceed _ hgenerator =>
      obtain rfl | ⟨sub, rfl⟩ := generatorStep_hub hgenerator
      · exact hring
      · exact hring
  | heartbeat => exact hring
  | receive => exact hring
  | disconnect => exact hring

/-! ### What can be replayed -/

namespace Place

/-- The events after a place among consecutive ones are what is left when those up to it are dropped. -/
theorem Consecutive.filter_eq_drop {n last : Nat} {events : List BufferedEvent}
    (hconsecutive : Consecutive n events) (hlow : n ≤ last) :
    (events.filter fun event => last < event.seq) = events.drop (last - n) := by
  induction events generalizing n with
  | nil => simp
  | cons event rest ih =>
      obtain ⟨hseq, hrest⟩ := hconsecutive
      by_cases hreached : last < event.seq
      · obtain rfl : last = n := by omega
        have hall : ∀ later ∈ event :: rest, decide (last < later.seq) = true := by
          intro later hlater
          have hconsecutive : Consecutive last (event :: rest) := ⟨hseq, hrest⟩
          exact decide_eq_true (hconsecutive.lt later hlater)
        rw [List.filter_eq_self.2 hall, Nat.sub_self, List.drop_zero]
      · rw [List.filter_cons_of_neg (by simpa using hreached), ih hrest (by omega)]
        rw [show last - n = last - (n + 1) + 1 by omega, List.drop_succ_cons]

theorem Consecutive.exists_seq {n k : Nat} {events : List BufferedEvent}
    (hconsecutive : Consecutive n events) (hk : k < events.length) :
    ∃ event ∈ events, event.seq = n + k + 1 := by
  induction events generalizing n k with
  | nil => exact absurd hk (Nat.not_lt_zero k)
  | cons first rest ih =>
      obtain ⟨hseq, hrest⟩ := hconsecutive
      cases k with
      | zero => exact ⟨first, List.mem_cons_self, hseq⟩
      | succ k =>
          obtain ⟨event, hevent, heq⟩ := ih hrest (Nat.lt_of_succ_lt_succ hk)
          exact ⟨event, List.mem_cons_of_mem _ hevent, by omega⟩

end Place

theorem Numbered.consecutive {epoch : String} {published : List BufferedEvent}
    (hnumbered : Numbered epoch published) : Place.Consecutive 0 published.reverse := by
  induction published with
  | nil => trivial
  | cons event older ih =>
      obtain ⟨hseq, -, holder⟩ := hnumbered
      rw [List.reverse_cons, Place.consecutive_append, List.length_reverse, hseq]
      exact ⟨ih holder, by omega⟩

/-- The published events after number `k`, in order. -/
def StreamWorld.missedAfter (w : StreamWorld) (k : Nat) : List BufferedEvent :=
  w.published.reverse.filter fun event => k < event.seq

section

variable {w : StreamWorld} {k : Nat}

theorem HubInv.missedAfter (hinv : HubInv w) (k : Nat) : w.missedAfter k = w.published.reverse.drop k := by
  rw [StreamWorld.missedAfter, hinv.numbered.consecutive.filter_eq_drop (Nat.zero_le k)]
  rfl

/-- What was missed after a place is retained exactly if the buffer starts at the place or before it. -/
theorem HubInv.retained_iff (hinv : HubInv w) (hring : RingInv w) (hk : k ≤ w.hub.seq) :
    (∀ event ∈ w.missedAfter k, event ∈ w.hub.buffer) ↔ w.published.length - w.hub.bufferSize ≤ k := by
  have hbuffer : w.hub.buffer = w.published.reverse.drop (w.published.length - w.hub.bufferSize) := by
    rw [hring, List.reverse_take]
  have hconsecutive := hinv.numbered.consecutive
  rw [hinv.missedAfter, hbuffer]
  rw [hinv.seq] at hk
  constructor
  · intro hretained
    by_contra hlater
    have hstart := hconsecutive.drop (k := k) (by rw [List.length_reverse]; exact hk)
    have hsome : 0 < (w.published.reverse.drop k).length := by
      rw [List.length_drop, List.length_reverse]
      omega
    obtain ⟨event, hevent, hseq⟩ := hstart.exists_seq hsome
    have hbuffered := hconsecutive.drop (k := w.published.length - w.hub.bufferSize)
      (by rw [List.length_reverse]; omega)
    have hlt := hbuffered.lt event (hretained event hevent)
    omega
  · intro hearlier event hevent
    obtain ⟨later, hlater⟩ := Nat.exists_eq_add_of_le hearlier
    rw [hlater, ← List.drop_drop] at hevent
    exact List.mem_of_mem_drop hevent

/-- A place is resumed exactly if all the events after it are retained, and then these are replayed. -/
theorem HubInv.resume_exact (hinv : HubInv w) (hring : RingInv w) (hsize : 1 ≤ w.hub.bufferSize)
    {id : String} (hparse : parseEventId id = some (w.hub.epoch, (k : Int))) (hk : k ≤ w.hub.seq) :
    ((w.hub.resume (some id)).2 = true ↔ ∀ event ∈ w.missedAfter k, event ∈ w.hub.buffer) ∧
      ((w.hub.resume (some id)).2 = true → (w.hub.resume (some id)).1 = w.missedAfter k) := by
  rw [hinv.retained_iff hring hk]
  have hbuffer : w.hub.buffer = w.published.reverse.drop (w.published.length - w.hub.bufferSize) := by
    rw [hring, List.reverse_take]
  have hconsecutive := hinv.numbered.consecutive.drop (k := w.published.length - w.hub.bufferSize)
    (by rw [List.length_reverse]; omega)
  rw [← hbuffer, Nat.zero_add] at hconsecutive
  have hseq := hinv.seq
  simp only [EventHub.resume, hparse, ne_eq, not_true_eq_false, if_false]
  split
  · next hempty =>
      have hnone : w.published.length = 0 := by
        have hlength := congrArg List.length (hbuffer.symm.trans hempty)
        rw [List.length_drop, List.length_reverse, List.length_nil] at hlength
        omega
      have hmissed : w.missedAfter k = [] := by
        rw [hinv.missedAfter, List.length_eq_zero_iff.1 hnone, List.reverse_nil, List.drop_nil]
      rw [hmissed]
      refine ⟨iff_of_true (decide_eq_true ?_) (by omega), fun _ => rfl⟩
      omega
  · next first rest hfirst =>
      have hnumber : first.seq = w.published.length - w.hub.bufferSize + 1 := by
        rw [hfirst] at hconsecutive
        exact hconsecutive.1
      split
      · next hlost =>
          refine ⟨iff_of_false Bool.false_ne_true ?_, fun htrue => absurd htrue Bool.false_ne_true⟩
          omega
      · next hkept =>
          have hstart : w.published.length - w.hub.bufferSize ≤ k := by omega
          refine ⟨iff_of_true rfl hstart, fun _ => ?_⟩
          have hfilter := hconsecutive.filter_eq_drop hstart
          simp only [Int.ofNat_lt]
          rw [hfilter, hinv.missedAfter, hbuffer, List.drop_drop]
          congr 1
          omega

end

/-! ### What a connection sends -/

def eventsOf (frames : List Frame) : List BufferedEvent :=
  frames.filterMap fun
    | .event event => some event
    | _ => none

@[simp] theorem eventsOf_append (first second : List Frame) :
    eventsOf (first ++ second) = eventsOf first ++ eventsOf second :=
  List.filterMap_append

@[simp] theorem eventsOf_map_event (events : List BufferedEvent) :
    eventsOf (events.map .event) = events := by
  induction events with
  | nil => rfl
  | cons event rest ih => exact congrArg (event :: ·) ih

theorem eventsOf_begins {first second : List Frame} (hbegins : first <+: second) :
    eventsOf first <+: eventsOf second :=
  hbegins.filterMap _

/-- Since it connected the consumer has received `new`, and `live` has been published. What it has received
and what its connection may still deliver is a beginning of the replay followed by these, and all of it
while the connection is live; no gap is announced. -/
structure Resumed (p : Nat) (replay base : List BufferedEvent) (old : List Frame)
    (live : List BufferedEvent) (new : List Frame) (w : StreamWorld) (consumer : Consumer) : Prop where
  connected : consumer.connection ≠ none
  published : w.published = live.reverse ++ base
  received : consumer.received = old ++ new
  begins : eventsOf (new ++ consumer.pending (w.hub.subscribers p)) <+: replay ++ live
  whole : Live (w.hub.subscribers p) →
    eventsOf (new ++ consumer.pending (w.hub.subscribers p)) = replay ++ live
  gapless : .gap ∉ new ++ consumer.pending (w.hub.subscribers p)

section

variable {p : Nat} {w w' : StreamWorld} {consumer consumer' : Consumer}
  {replay base live : List BufferedEvent} {old new : List Frame}

theorem Resumed.pass (hresumed : Resumed p replay base old live new w consumer)
    (hpasses : Passes p w w' (consumer.pending (w.hub.subscribers p))
      (consumer'.pending (w'.hub.subscribers p)))
    (hreceived : consumer'.received = consumer.received) (hconnected : consumer'.connection ≠ none) :
    Resumed p replay base old live new w' consumer' where
  connected := hconnected
  published := hpasses.same.published.trans hresumed.published
  received := hreceived.trans hresumed.received
  begins := by
    have hshorter := eventsOf_begins ((List.prefix_append_right_inj new).2 hpasses.shorter)
    exact hshorter.trans hresumed.begins
  whole hlive := by
    obtain ⟨hlive, hpending⟩ := hpasses.live hlive
    rw [hpending]
    exact hresumed.whole hlive
  gapless hgap := by
    have hshorter := (List.prefix_append_right_inj new).2 hpasses.shorter
    exact hresumed.gapless (hshorter.mem hgap)

theorem Resumed.publish (hresumed : Resumed p replay base old live new w consumer)
    (eventType data : String) :
    Resumed p replay base old (live ++ [w.hub.nextEvent eventType data]) new (w.publish eventType data)
      consumer := by
  have hsub : (w.publish eventType data).hub.subscribers p
      = (w.hub.subscribers p).map (·.enqueue w.hub.maxQueue (w.hub.nextEvent eventType data)) := rfl
  have hpublished : (w.publish eventType data).published
      = (live ++ [w.hub.nextEvent eventType data]).reverse ++ base := by
    rw [List.reverse_append, List.reverse_singleton, List.append_assoc, ← hresumed.published]
    rfl
  have hlonger : replay ++ live <+: replay ++ (live ++ [w.hub.nextEvent eventType data]) :=
    (List.prefix_append_right_inj replay).2 (List.prefix_append _ _)
  rcases pending_enqueue (fun hnone => absurd hnone hresumed.connected) w.hub.maxQueue
    (w.hub.nextEvent eventType data) with ⟨hoverflow, hpending⟩ | ⟨hlive, hpending⟩
  · refine ⟨hresumed.connected, hpublished, hresumed.received, ?_, fun hlive => absurd hlive hoverflow, ?_⟩
    · rw [hsub, hpending]
      exact hresumed.begins.trans hlonger
    · rw [hsub, hpending]
      exact hresumed.gapless
  · have hall : eventsOf (new ++ consumer.pending ((w.publish eventType data).hub.subscribers p))
        = replay ++ (live ++ [w.hub.nextEvent eventType data]) := by
      rw [hsub, hpending, ← List.append_assoc, eventsOf_append, hresumed.whole hlive, List.append_assoc]
      rfl
    refine ⟨hresumed.connected, hpublished, hresumed.received, hall ▸ List.prefix_refl _, fun _ => hall, ?_⟩
    rw [hsub, hpending, ← List.append_assoc, List.mem_append]
    rintro (hold | hnew)
    · exact hresumed.gapless hold
    · cases List.mem_singleton.1 hnew

theorem Resumed.heartbeat {connection : Connection}
    (hresumed : Resumed p replay base old live new w consumer)
    (hconnection : consumer.connection = some connection) (hwaiting : connection.phase = .waiting) :
    Resumed p replay base old live new w
      { consumer with connection := some (connection.send .heartbeat .top) } := by
  obtain ⟨phase, inFlight⟩ := connection
  obtain rfl : phase = .waiting := hwaiting
  have hpending : consumer.pending (w.hub.subscribers p) = inFlight ++ queuedFrames (w.hub.subscribers p) := by
    rw [Consumer.pending, hconnection]
    rfl
  have hpending' : Consumer.pending
      { consumer with connection := some (Connection.send ⟨.waiting, inFlight⟩ .heartbeat .top) }
      (w.hub.subscribers p) = inFlight ++ [.heartbeat] ++ queuedFrames (w.hub.subscribers p) :=
    rfl
  have hevents : eventsOf (inFlight ++ [.heartbeat] ++ queuedFrames (w.hub.subscribers p))
      = eventsOf (inFlight ++ queuedFrames (w.hub.subscribers p)) := by
    simp [eventsOf]
  obtain ⟨-, hpublished, hreceived, hbegins, hwhole, hgapless⟩ := hresumed
  rw [hpending] at hbegins hwhole hgapless
  refine ⟨by simp, hpublished, hreceived, ?_, fun hlive => ?_, ?_⟩
  · rw [hpending', eventsOf_append, hevents, ← eventsOf_append]
    exact hbegins
  · rw [hpending', eventsOf_append, hevents, ← eventsOf_append]
    exact hwhole hlive
  · rw [hpending']
    simpa using hgapless

theorem Resumed.receive {connection : Connection} {frame : Frame} {rest : List Frame}
    (hresumed : Resumed p replay base old live new w consumer)
    (hconnection : consumer.connection = some connection) (hinFlight : connection.inFlight = frame :: rest) :
    Resumed p replay base old live (new ++ [frame]) w { consumer.receive frame with
      connection := some { connection with inFlight := rest } } := by
  have hmoved : new ++ [frame] ++ Connection.pending { connection with inFlight := rest }
      (w.hub.subscribers p) = new ++ consumer.pending (w.hub.subscribers p) := by
    simp [Consumer.pending, hconnection, Connection.pending, hinFlight]
  refine ⟨by simp, hresumed.published, ?_, ?_, fun hlive => ?_, ?_⟩
  · show consumer.received ++ [frame] = old ++ (new ++ [frame])
    rw [hresumed.received, List.append_assoc]
  · show eventsOf (new ++ [frame] ++ Connection.pending _ _) <+: _
    rw [hmoved]
    exact hresumed.begins
  · show eventsOf (new ++ [frame] ++ Connection.pending _ _) = _
    rw [hmoved]
    exact hresumed.whole hlive
  · show _ ∉ new ++ [frame] ++ Connection.pending _ _
    rw [hmoved]
    exact hresumed.gapless

theorem StreamStep.stays {a : StreamAction} (hstep : StreamStep p w consumer a w' consumer')
    (hkept : a ≠ .disconnect) (hresumed : Resumed p replay base old live new w consumer) :
    ∃ live' new', Resumed p replay base old live' new' w' consumer' := by
  cases hstep with
  | publish => exact ⟨_, _, hresumed.publish _ _⟩
  | close => exact ⟨_, _, hresumed.pass (Passes.close p w consumer) rfl hresumed.connected⟩
  | connect hnone => exact absurd hnone hresumed.connected
  | proceed hconnection hgenerator =>
      refine ⟨_, _, hresumed.pass ?_ rfl nofun⟩
      rw [Consumer.pending, hconnection]
      exact (generatorStep_passes hgenerator).1
  | heartbeat hconnection hwaiting => exact ⟨_, _, hresumed.heartbeat hconnection hwaiting⟩
  | receive hconnection hinFlight => exact ⟨_, _, hresumed.receive hconnection hinFlight⟩
  | disconnect => exact absurd rfl hkept

theorem HubStep.stays {q : Nat} (hne : q ≠ p) (hstep : HubStep p w w')
    (hresumed : Resumed q replay base old live new w consumer) :
    ∃ live', Resumed q replay base old live' new w' consumer := by
  cases hstep with
  | publish eventType data => exact ⟨_, hresumed.publish eventType data⟩
  | close => exact ⟨_, hresumed.pass (Passes.close q w consumer) rfl hresumed.connected⟩
  | subscription hsame hothers =>
      refine ⟨_, hresumed.pass ?_ rfl hresumed.connected⟩
      rw [hothers q hne]
      exact ⟨hsame, List.prefix_refl _, fun hlive => ⟨hothers q hne ▸ hlive, rfl⟩⟩

theorem StreamStep.resumed {id : String} (hid : consumer.lastEventId = some id)
    (hresumable : (w.hub.resume (some id)).2 = true)
    (hstep : StreamStep p w consumer .connect w' consumer') :
    Resumed p (w.hub.resume (some id)).1 w.published consumer.received [] [] w' consumer' := by
  cases hstep with
  | connect hnone hresume =>
      rw [hid] at hresume
      rw [hresume] at hresumable ⊢
      obtain rfl : _ = true := hresumable
      have hpending (events : List BufferedEvent) : Connection.pending
          { phase := .replay (!true) events } (some {}) = events.map .event := by
        simp [Connection.pending, StreamPhase.frames, queuedFrames]
      refine ⟨by simp, rfl, (List.append_nil _).symm, ?_, fun _ => ?_, ?_⟩
      · show eventsOf ([] ++ Connection.pending _ _) <+: _
        rw [setSubscriber_self, hpending, List.nil_append, eventsOf_map_event]
        exact List.prefix_append _ _
      · show eventsOf ([] ++ Connection.pending _ _) = _
        rw [setSubscriber_self, hpending, List.nil_append, eventsOf_map_event, List.append_nil]
      · show _ ∉ [] ++ Connection.pending _ _
        rw [setSubscriber_self, hpending]
        simp

end

/-! ### Runs -/

/-- Nothing has been published and nobody is connected; a consumer may present any identifier. -/
structure HubStarts (c : Interleaving.Config StreamWorld Consumer) : Prop where
  seq : c.shared.hub.seq = 0
  buffer : c.shared.hub.buffer = []
  published : c.shared.published = []

theorem HubStarts.inv {c : Interleaving.Config StreamWorld Consumer} (hstarts : HubStarts c) :
    HubInv c.shared ∧ RingInv c.shared := by
  refine ⟨⟨?_, ?_, ⟨0, ?_, ?_⟩, ?_⟩, ?_⟩
  · rw [hstarts.seq, hstarts.published]
    rfl
  · rw [hstarts.published]
    trivial
  · rw [hstarts.buffer]
    trivial
  · rw [hstarts.buffer, hstarts.seq]
    rfl
  · rw [hstarts.buffer]
    simp
  · rw [RingInv, hstarts.buffer, hstarts.published, List.take_nil, List.reverse_nil]

theorem hub_run {c₀ c : Interleaving.Config StreamWorld Consumer} {schedule : List (Nat × StreamAction)}
    (hinv : HubInv c₀.shared ∧ RingInv c₀.shared) (hrun : stream.run c₀ schedule = some c) :
    HubInv c.shared ∧ RingInv c.shared := by
  have hstep : ∀ c move c', HubInv c.shared ∧ RingInv c.shared → stream.next c move = some c' →
      HubInv c'.shared ∧ RingInv c'.shared := by
    rintro c ⟨q, a⟩ c' ⟨hinv, hring⟩ hnext
    obtain ⟨w', consumer', hstep, rfl⟩ := Interleaving.System.next_eq_some.1 hnext
    have hsound := streamStep_sound hstep
    exact ⟨hsound.hub.inv hinv, hsound.ring hring⟩
  exact Interleaving.System.run_keeps hstep hinv hrun

theorem resumed_run {p : Nat} {replay base : List BufferedEvent} {old : List Frame}
    {c c' : Interleaving.Config StreamWorld Consumer} {schedule : List (Nat × StreamAction)}
    (hkept : (p, StreamAction.disconnect) ∉ schedule) (hrun : stream.run c schedule = some c')
    (hresumed : ∃ live new, Resumed p replay base old live new c.shared (c.locals p)) :
    ∃ live new, Resumed p replay base old live new c'.shared (c'.locals p) := by
  induction schedule generalizing c with
  | nil =>
      obtain rfl := Option.some.inj hrun
      exact hresumed
  | cons move rest ih =>
      obtain ⟨q, a⟩ := move
      obtain ⟨c₁, hnext, hrest⟩ := Interleaving.System.run_cons.1 hrun
      obtain ⟨w', consumer', hstep, rfl⟩ := Interleaving.System.next_eq_some.1 hnext
      have hsound := streamStep_sound hstep
      obtain ⟨live, new, hresumed⟩ := hresumed
      refine ih (fun hmem => hkept (List.mem_cons_of_mem _ hmem)) hrest ?_
      by_cases hp : q = p
      · subst hp
        have ha : a ≠ .disconnect := by
          intro ha
          exact hkept (ha ▸ List.mem_cons_self)
        show ∃ live new, Resumed q replay base old live new w' (Function.update c.locals q consumer' q)
        rw [Function.update_self]
        exact hsound.stays ha hresumed
      · obtain ⟨live', hresumed'⟩ := hsound.hub.stays (Ne.symm hp) hresumed
        refine ⟨live', new, ?_⟩
        show Resumed p replay base old live' new w' (Function.update c.locals q consumer' p)
        rw [Function.update_of_ne (Ne.symm hp)]
        exact hresumed'

/-- In every history a consumer that names a place in it can resume exactly if all the events after that
place are retained, and the replay is these. However publications and its own reads then fall, the events
its connection has sent are a beginning of the replay followed by what has been published since, which are
numbered one by one from the place; until it is dropped, what is still to be sent completes them. -/
theorem stream_resumes_exactly {c₀ c : Interleaving.Config StreamWorld Consumer}
    {before : List (Nat × StreamAction)} (hstarts : HubStarts c₀)
    (hrun : stream.run c₀ before = some c) (hsize : 1 ≤ c.shared.hub.bufferSize) (p : Nat) {id : String}
    {k : Nat} (hid : (c.locals p).lastEventId = some id)
    (hparse : parseEventId id = some (c.shared.hub.epoch, (k : Int))) (hk : k ≤ c.shared.hub.seq) :
    ((c.shared.hub.resume (some id)).2 = true ↔
        ∀ event ∈ c.shared.missedAfter k, event ∈ c.shared.hub.buffer) ∧
      ((c.shared.hub.resume (some id)).2 = true →
        (c.shared.hub.resume (some id)).1 = c.shared.missedAfter k ∧
        ∀ after c', stream.run c ((p, .connect) :: after) = some c' →
          (p, StreamAction.disconnect) ∉ after →
          ∃ live new connection, c'.shared.published = live.reverse ++ c.shared.published ∧
            (c'.locals p).connection = some connection ∧
            (c'.locals p).received = (c.locals p).received ++ new ∧
            .gap ∉ new ++ connection.inFlight ∧
            eventsOf (new ++ connection.inFlight) <+: c.shared.missedAfter k ++ live ∧
            Place.Consecutive k (c.shared.missedAfter k ++ live) ∧
            (Live (c'.shared.hub.subscribers p) →
              eventsOf (new ++ connection.pending (c'.shared.hub.subscribers p))
                = c.shared.missedAfter k ++ live)) := by
  obtain ⟨hinv, hring⟩ := hub_run hstarts.inv hrun
  obtain ⟨hretained, hreplay⟩ := hinv.resume_exact hring hsize hparse hk
  refine ⟨hretained, fun hresumable => ⟨hreplay hresumable, fun after c' hafter hkept => ?_⟩⟩
  obtain ⟨c₁, hnext, hrest⟩ := Interleaving.System.run_cons.1 hafter
  obtain ⟨w', consumer', hstep, rfl⟩ := Interleaving.System.next_eq_some.1 hnext
  have hsound : StreamStep p c.shared (c.locals p) .connect w' consumer' := streamStep_sound hstep
  have hresumed := hsound.resumed hid hresumable
  rw [hreplay hresumable] at hresumed
  have hstart : ∃ live new, Resumed p (c.shared.missedAfter k) c.shared.published (c.locals p).received live
      new w' (Function.update c.locals p consumer' p) := by
    rw [Function.update_self]
    exact ⟨_, _, hresumed⟩
  obtain ⟨live, new, hresumed⟩ := resumed_run hkept hrest hstart
  obtain ⟨connection, hconnection⟩ := Option.ne_none_iff_exists'.1 hresumed.connected
  have hpending : (c'.locals p).pending (c'.shared.hub.subscribers p)
      = connection.pending (c'.shared.hub.subscribers p) := by
    rw [Consumer.pending, hconnection]
    rfl
  have hsent : new ++ connection.inFlight <+: new ++ connection.pending (c'.shared.hub.subscribers p) :=
    (List.prefix_append_right_inj new).2 (List.prefix_append _ _)
  obtain ⟨-, hpublished, hreceived, hbegins, hwhole, hgapless⟩ := hresumed
  rw [hpending] at hbegins hwhole hgapless
  refine ⟨live, new, connection, hpublished, hconnection, hreceived, fun hgap => hgapless (hsent.mem hgap),
    (eventsOf_begins hsent).trans hbegins, ?_, hwhole⟩
  have hall := (hub_run ⟨hinv, hring⟩ hafter).1.numbered.consecutive
  rw [hpublished, List.reverse_append, List.reverse_reverse] at hall
  have hlength : k ≤ c.shared.published.reverse.length := by
    rw [List.length_reverse, ← hinv.seq]
    exact hk
  have hdropped := hall.drop (k := k) (by rw [List.length_append]; omega)
  rw [Nat.zero_add, List.drop_append_of_le_length hlength, ← hinv.missedAfter] at hdropped
  exact hdropped

/-- A hub that retains two events, and a consumer that has received its first. -/
def resumingHub : Interleaving.Config StreamWorld Consumer where
  shared := { hub := { freshHub.shared.hub with bufferSize := 2, maxQueue := 4 } }
  locals _ := { lastEventId := some "17-1" }

theorem resumingHub_starts : HubStarts resumingHub where
  seq := rfl
  buffer := rfl
  published := rfl

def threePublished : List (Nat × StreamAction) :=
  [(1, .publish "user-deleted" "a"), (1, .publish "user-deleted" "b"), (1, .publish "user-deleted" "c")]

/-- Another event is published while the replay is being sent. -/
def publishedDuringReplay : List (Nat × StreamAction) :=
  [(0, .proceed), (1, .publish "user-deleted" "d"), (0, .proceed), (0, .receive), (0, .proceed), (0, .proceed),
    (0, .proceed), (0, .receive)]

theorem stream_resumes_exactly_twoRetained :
    ∃ c c', stream.run resumingHub threePublished = some c ∧
      stream.run c ((0, .connect) :: publishedDuringReplay) = some c' ∧
      (c'.locals 0).received = [.event (publishedEvent 2 "b"), .event (publishedEvent 3 "c")] ∧
      ∃ live new connection, c'.shared.published = live.reverse ++ c.shared.published ∧
        (c'.locals 0).connection = some connection ∧
        (c'.locals 0).received = (c.locals 0).received ++ new ∧
        eventsOf (new ++ connection.inFlight) <+: c.shared.missedAfter 1 ++ live := by
  have hreads : (stream.run resumingHub (threePublished ++ (0, .connect) :: publishedDuringReplay)).map
      (fun c' => (c'.locals 0).received)
        = some [.event (publishedEvent 2 "b"), .event (publishedEvent 3 "c")] := by
    decide +kernel
  have hplace : (stream.run resumingHub threePublished).map (fun c => ((c.locals 0).lastEventId,
      c.shared.hub.bufferSize, c.shared.hub.epoch, c.shared.hub.seq))
        = some (some "17-1", 2, "17", 3) := by
    decide +kernel
  have hresumes : (stream.run resumingHub threePublished).map (fun c =>
      (c.shared.hub.resume (some "17-1")).2) = some true := by
    decide +kernel
  obtain ⟨c', hboth, hreceived⟩ := Option.map_eq_some_iff.1 hreads
  obtain ⟨c, hrun, hafter⟩ := Interleaving.System.run_append.1 hboth
  rw [hrun, Option.map_some, Option.some.injEq] at hplace hresumes
  simp only [Prod.mk.injEq] at hplace
  obtain ⟨hid, hsize, hepoch, hseq⟩ := hplace
  have hparse : parseEventId "17-1" = some (c.shared.hub.epoch, ((1 : Nat) : Int)) := by
    rw [hepoch]
    decide +kernel
  obtain ⟨-, hexact⟩ := stream_resumes_exactly resumingHub_starts hrun (by omega) 0 hid hparse (by omega)
  obtain ⟨live, new, connection, hpublished, hconnection, hnew, -, hbegins, -⟩ :=
    (hexact hresumes).2 publishedDuringReplay c' hafter (by decide)
  exact ⟨c, c', hrun, hafter, hreceived, live, new, connection, hpublished, hconnection, hnew, hbegins⟩

end FaAuthM8
