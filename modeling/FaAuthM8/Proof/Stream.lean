import FaAuthM8.System.Stream

/-!
# What a consumer of the event stream misses

Everything a connection will still send continues what its consumer has received: each event follows the one
before it, or a gap frame stands between them. A consumer without an identifier starts a new stream, so this
fails only when it reconnects before it has received an event although one was published.
-/

namespace FaAuthM8

/-! ### Places in the stream -/

/-- The last event a consumer knows, and whether it has been told of a gap since. -/
structure Place where
  last : Nat
  gapped : Bool := false

namespace Place

def next (place : Place) : Frame → Place
  | .heartbeat => place
  | .gap => { place with gapped := true }
  | .event event => { last := event.seq }

/-- The frame continues the stream at the place. -/
def Admits (place : Place) : Frame → Prop
  | .event event => place.last < event.seq ∧ (place.gapped = false → event.seq = place.last + 1)
  | _ => True

def after (place : Place) (frames : List Frame) : Place := frames.foldl next place

def Follows : Place → List Frame → Prop
  | _, [] => True
  | place, frame :: rest => place.Admits frame ∧ Follows (place.next frame) rest

variable {place : Place} {frames frames' : List Frame}

@[simp] theorem after_append : place.after (frames ++ frames') = (place.after frames).after frames' :=
  List.foldl_append

@[simp] theorem follows_append :
    place.Follows (frames ++ frames') ↔ place.Follows frames ∧ (place.after frames).Follows frames' := by
  induction frames generalizing place with
  | nil => simp [Follows, after]
  | cons frame rest ih =>
      rw [List.cons_append, Follows, Follows, ih, and_assoc]
      rfl

theorem follows_singleton {frame : Frame} : place.Follows [frame] ↔ place.Admits frame := by
  simp [Follows]

/-- The events after a number, each the successor of the one before. -/
def Consecutive : Nat → List BufferedEvent → Prop
  | _, [] => True
  | n, event :: rest => event.seq = n + 1 ∧ Consecutive (n + 1) rest

theorem Consecutive.follows {n : Nat} {events : List BufferedEvent} (hconsecutive : Consecutive n events)
    {gapped : Bool} : Place.Follows ⟨n, gapped⟩ (events.map .event) := by
  induction events generalizing n gapped with
  | nil => trivial
  | cons event rest ih =>
      obtain ⟨hseq, hrest⟩ := hconsecutive
      refine ⟨⟨by simp only; omega, fun _ => hseq⟩, ?_⟩
      show Place.Follows ⟨event.seq, false⟩ _
      rw [hseq]
      exact ih hrest

theorem Consecutive.after {n : Nat} {events : List BufferedEvent} (hconsecutive : Consecutive n events)
    {gapped : Bool} : (Place.after ⟨n, gapped⟩ (events.map .event)).last = n + events.length := by
  induction events generalizing n gapped with
  | nil => rfl
  | cons event rest ih =>
      obtain ⟨hseq, hrest⟩ := hconsecutive
      show (Place.after ⟨event.seq, false⟩ (rest.map .event)).last = _
      rw [hseq, ih hrest, List.length_cons]
      omega

end Place

/-! ### What has been received -/

/-- A gap frame was received after the last event before the number, and nothing later precedes it. -/
def GapCovers (received : List Frame) (seq : Nat) : Prop :=
  ∃ before after, received = before ++ .gap :: after ∧ ∀ event, .event event ∈ after → seq ≤ event.seq

/-- Whenever an event has been received, each event published since the first connection and before it had
been received exactly once and in order, or a gap frame was received in its place. -/
def NeverMisses (published : List BufferedEvent) (since : Nat) (received : List Frame) : Prop :=
  ∀ older event newer, received = older ++ .event event :: newer →
    event ∈ published ∧ (∀ earlier, .event earlier ∈ older → earlier.seq < event.seq) ∧
      ∀ missed ∈ published, since < missed.seq → missed.seq < event.seq →
        .event missed ∈ older ∨ GapCovers older missed.seq

section

variable {place : Place} {received : List Frame} {seq : Nat}

theorem GapCovers.append (hcovers : GapCovers received seq) {frame : Frame}
    (hframe : ∀ event, frame = .event event → seq ≤ event.seq) : GapCovers (received ++ [frame]) seq := by
  obtain ⟨before, after, hreceived, hafter⟩ := hcovers
  refine ⟨before, after ++ [frame], by simp [hreceived], fun event hevent => ?_⟩
  rcases List.mem_append.1 hevent with hold | hnew
  · exact hafter event hold
  · exact hframe event (List.mem_singleton.1 hnew).symm

/-- Every number up to the place reached was received or stands in a gap, and every later one does while a gap
is open. -/
theorem Place.Follows.covers (hfollows : place.Follows received) (hseq : place.last < seq)
    (hreached : (place.after received).last < seq → (place.after received).gapped = true)
    (hclosed : place.gapped = false) :
    (∃ event, .event event ∈ received ∧ event.seq = seq) ∨ GapCovers received seq := by
  induction received using List.reverseRecOn with
  | nil =>
      have hgap : place.gapped = true := hreached hseq
      rw [hclosed] at hgap
      cases hgap
  | append_singleton older frame ih =>
      rw [Place.follows_append, Place.follows_singleton] at hfollows
      obtain ⟨holder, hadmits⟩ := hfollows
      rw [Place.after_append] at hreached
      cases frame with
      | heartbeat =>
          rcases ih holder hreached with ⟨event, hevent, heq⟩ | hcovers
          · exact .inl ⟨event, List.mem_append_left _ hevent, heq⟩
          · exact .inr (hcovers.append (by simp))
      | gap =>
          by_cases hbefore : (place.after older).last < seq
          · exact .inr ⟨older, [], rfl, by simp⟩
          · rcases ih holder fun hlt => absurd hlt hbefore with ⟨event, hevent, heq⟩ | hcovers
            · exact .inl ⟨event, List.mem_append_left _ hevent, heq⟩
            · exact .inr (hcovers.append (by simp))
      | event event =>
          have hle : seq ≤ event.seq := by
            by_contra hlt
            have hgap : false = true := hreached (Nat.lt_of_not_le hlt)
            cases hgap
          by_cases heq : event.seq = seq
          · exact .inl ⟨event, by simp, heq⟩
          · have hopen : (place.after older).last < seq → (place.after older).gapped = true := by
              intro hlt
              by_contra hclosed
              have hnext := hadmits.2 (by simpa using hclosed)
              omega
            rcases ih holder hopen with ⟨event', hevent', heq'⟩ | hcovers
            · exact .inl ⟨event', List.mem_append_left _ hevent', heq'⟩
            · exact .inr (hcovers.append (by rintro _ ⟨rfl⟩; exact hle))

theorem Place.after_le {bound : Nat} (hplace : place.last ≤ bound)
    (hall : ∀ event, .event event ∈ received → event.seq ≤ bound) : (place.after received).last ≤ bound := by
  induction received generalizing place with
  | nil => exact hplace
  | cons frame rest ih =>
      have hrest : ∀ event, .event event ∈ rest → event.seq ≤ bound :=
        fun event hevent => hall event (List.mem_cons_of_mem _ hevent)
      refine ih ?_ hrest
      cases frame with
      | heartbeat => exact hplace
      | gap => exact hplace
      | event event => exact hall event List.mem_cons_self

theorem Place.Follows.lt_after (hfollows : place.Follows received) {event : BufferedEvent}
    (hevent : .event event ∈ received) : event.seq ≤ (place.after received).last := by
  induction received using List.reverseRecOn with
  | nil => cases hevent
  | append_singleton older frame ih =>
      rw [Place.follows_append, Place.follows_singleton] at hfollows
      obtain ⟨holder, hadmits⟩ := hfollows
      rw [Place.after_append]
      rcases List.mem_append.1 hevent with hold | hnew
      · have hle := ih holder hold
        cases frame with
        | heartbeat => exact hle
        | gap => exact hle
        | event event' => exact Nat.le_trans hle (Nat.le_of_lt hadmits.1)
      · obtain rfl := List.mem_singleton.1 hnew
        exact Nat.le_refl _

end

/-! ### The hub -/

namespace Place

theorem consecutive_append {n : Nat} {events : List BufferedEvent} {event : BufferedEvent} :
    Consecutive n (events ++ [event]) ↔ Consecutive n events ∧ event.seq = n + events.length + 1 := by
  induction events generalizing n with
  | nil => simp [Consecutive]
  | cons first rest ih =>
      rw [List.cons_append, Consecutive, Consecutive, ih, List.length_cons, and_assoc]
      refine and_congr_right fun _ => and_congr_right fun _ => ?_
      omega

theorem Consecutive.drop {n : Nat} {events : List BufferedEvent} (hconsecutive : Consecutive n events)
    {k : Nat} (hk : k ≤ events.length) : Consecutive (n + k) (events.drop k) := by
  induction k generalizing n events with
  | zero => exact hconsecutive
  | succ k ih =>
      cases events with
      | nil => exact absurd hk (by simp)
      | cons event rest =>
          have hrest := ih hconsecutive.2 (Nat.le_of_succ_le_succ hk)
          rw [show n + (k + 1) = n + 1 + k by omega]
          exact hrest

theorem Consecutive.lt {n : Nat} {events : List BufferedEvent} (hconsecutive : Consecutive n events) :
    ∀ event ∈ events, n < event.seq := by
  induction events generalizing n with
  | nil => simp
  | cons first rest ih =>
      intro event hevent
      obtain ⟨hseq, hrest⟩ := hconsecutive
      rcases List.mem_cons.1 hevent with heq | hmem
      · rw [heq]
        omega
      · have := ih hrest event hmem
        omega

theorem Consecutive.filter {n last : Nat} {events : List BufferedEvent}
    (hconsecutive : Consecutive n events) (hlow : n ≤ last) (hhigh : last ≤ n + events.length) :
    Consecutive last (events.filter fun event => last < event.seq) ∧
      last + (events.filter fun event => last < event.seq).length = n + events.length := by
  induction events generalizing n with
  | nil =>
      have heq : last = n := Nat.le_antisymm hhigh hlow
      exact ⟨trivial, heq⟩
  | cons event rest ih =>
      obtain ⟨hseq, hrest⟩ := hconsecutive
      by_cases hreached : last < event.seq
      · obtain rfl : last = n := by omega
        have hall : Consecutive last (event :: rest) := ⟨hseq, hrest⟩
        have hall : ∀ later ∈ event :: rest, decide (last < later.seq) = true :=
          fun later hlater => decide_eq_true (hall.lt later hlater)
        rw [List.filter_eq_self.2 hall]
        exact ⟨⟨hseq, hrest⟩, rfl⟩
      · rw [List.filter_cons_of_neg (by simpa using hreached)]
        rw [List.length_cons] at hhigh ⊢
        obtain ⟨hafter, hlength⟩ := ih hrest (by omega) (by omega)
        exact ⟨hafter, by omega⟩

end Place

/-- The published events, newest first, are numbered from one. -/
def Numbered (epoch : String) : List BufferedEvent → Prop
  | [] => True
  | event :: older =>
      event.seq = older.length + 1 ∧ event.eventId = eventId epoch event.seq ∧ Numbered epoch older

section

variable {epoch : String} {published : List BufferedEvent} {event event' : BufferedEvent}

theorem Numbered.seq_le (hnumbered : Numbered epoch published) (hevent : event ∈ published) :
    event.seq ≤ published.length := by
  induction published with
  | nil => cases hevent
  | cons newest older ih =>
      obtain ⟨hseq, -, holder⟩ := hnumbered
      rw [List.length_cons]
      rcases List.mem_cons.1 hevent with heq | hmem
      · rw [heq, hseq]
      · exact Nat.le_succ_of_le (ih holder hmem)

theorem Numbered.eventId (hnumbered : Numbered epoch published) (hevent : event ∈ published) :
    event.eventId = FaAuthM8.eventId epoch event.seq := by
  induction published with
  | nil => cases hevent
  | cons newest older ih =>
      rcases List.mem_cons.1 hevent with heq | hmem
      · exact heq ▸ hnumbered.2.1
      · exact ih hnumbered.2.2 hmem

theorem Numbered.unique (hnumbered : Numbered epoch published) (hevent : event ∈ published)
    (hevent' : event' ∈ published) (heq : event.seq = event'.seq) : event = event' := by
  induction published with
  | nil => cases hevent
  | cons newest older ih =>
      obtain ⟨hseq, -, holder⟩ := hnumbered
      rcases List.mem_cons.1 hevent with hfirst | hmem
      · rcases List.mem_cons.1 hevent' with hfirst' | hmem'
        · rw [hfirst, hfirst']
        · have hle := holder.seq_le hmem'
          rw [← heq, hfirst, hseq] at hle
          omega
      · rcases List.mem_cons.1 hevent' with hfirst' | hmem'
        · have hle := holder.seq_le hmem
          rw [heq, hfirst', hseq] at hle
          omega
        · exact ih holder hmem hmem'

end

structure HubInv (w : StreamWorld) : Prop where
  seq : w.hub.seq = w.published.length
  numbered : Numbered w.hub.epoch w.published
  buffer : ∃ start, Place.Consecutive start w.hub.buffer ∧ start + w.hub.buffer.length = w.hub.seq
  buffered : ∀ event ∈ w.hub.buffer, event ∈ w.published

theorem HubInv.publish {w : StreamWorld} (hinv : HubInv w) (eventType data : String) :
    HubInv (w.publish eventType data) where
  seq := by
    show w.hub.seq + 1 = w.published.length + 1
    rw [hinv.seq]
  numbered := ⟨congrArg (· + 1) hinv.seq, rfl, hinv.numbered⟩
  buffer := by
    obtain ⟨start, hconsecutive, hlength⟩ := hinv.buffer
    have happended : Place.Consecutive start (w.hub.buffer ++ [w.hub.nextEvent eventType data]) := by
      refine Place.consecutive_append.2 ⟨hconsecutive, ?_⟩
      show w.hub.seq + 1 = _
      omega
    have hlength' : (w.hub.buffer ++ [w.hub.nextEvent eventType data]).length = w.hub.buffer.length + 1 := by
      rw [List.length_append, List.length_singleton]
    refine ⟨_, happended.drop (Nat.sub_le _ w.hub.bufferSize), ?_⟩
    show _ + (List.drop _ (w.hub.buffer ++ [w.hub.nextEvent eventType data])).length = w.hub.seq + 1
    rw [List.length_drop]
    omega
  buffered event hevent := by
    have hmem : event ∈ w.hub.buffer ++ [w.hub.nextEvent eventType data] := List.mem_of_mem_drop hevent
    rcases List.mem_append.1 hmem with hold | hnew
    · exact List.mem_cons_of_mem _ (hinv.buffered event hold)
    · exact List.mem_singleton.1 hnew ▸ List.mem_cons_self

/-- A known place is resumed with the events after it, or declared lost. -/
theorem HubInv.resume {w : StreamWorld} (hinv : HubInv w) {last : Nat} (hlast : last ≤ w.hub.seq)
    {replay : List BufferedEvent} {resumable : Bool}
    (hresume : w.hub.resume (some (eventId w.hub.epoch last)) = (replay, resumable)) :
    (resumable = true → Place.Consecutive last replay ∧ last + replay.length = w.hub.seq) ∧
      (resumable = false → replay = []) ∧ ∀ event ∈ replay, event ∈ w.published := by
  obtain ⟨start, hconsecutive, hlength⟩ := hinv.buffer
  simp only [EventHub.resume, parseEventId_eventId w.hub.epoch_ne, ne_eq, not_true_eq_false, if_false]
    at hresume
  split at hresume
  · cases hresume
    refine ⟨fun hreached => ⟨trivial, ?_⟩, fun _ => rfl, by simp⟩
    have hle : w.hub.seq ≤ last := by simpa using hreached
    exact Nat.le_antisymm hlast hle
  · next first rest hbuffer =>
      split at hresume
      · cases hresume
        exact ⟨nofun, fun _ => rfl, by simp⟩
      · next hkept =>
          cases hresume
          refine ⟨fun _ => ?_, nofun, fun event hevent => ?_⟩
          · have hfirst : first.seq = start + 1 := by
              rw [hbuffer] at hconsecutive
              exact hconsecutive.1
            have hlow : start ≤ last := by omega
            have hhigh : last ≤ start + w.hub.buffer.length := by omega
            simpa [hlength] using hconsecutive.filter hlow hhigh
          · exact hinv.buffered event (List.mem_of_mem_filter hevent)

/-- Only subscriptions have changed. -/
structure SameEvents (w w' : StreamWorld) : Prop where
  seq : w'.hub.seq = w.hub.seq
  epoch : w'.hub.epoch = w.hub.epoch
  buffer : w'.hub.buffer = w.hub.buffer
  published : w'.published = w.published

theorem HubInv.of_same {w w' : StreamWorld} (hsame : SameEvents w w') (hinv : HubInv w) : HubInv w' where
  seq := by rw [hsame.seq, hsame.published, hinv.seq]
  numbered := by
    rw [hsame.epoch, hsame.published]
    exact hinv.numbered
  buffer := by
    rw [hsame.buffer, hsame.seq]
    exact hinv.buffer
  buffered := by
    rw [hsame.buffer, hsame.published]
    exact hinv.buffered

theorem sameEvents_setSubscriber (w : StreamWorld) (p : Nat) (sub : Option Subscriber) :
    SameEvents w (w.setSubscriber p sub) :=
  ⟨rfl, rfl, rfl, rfl⟩

@[simp] theorem setSubscriber_self (w : StreamWorld) (p : Nat) (sub : Option Subscriber) :
    (w.setSubscriber p sub).hub.subscribers p = sub :=
  Function.update_self ..

theorem setSubscriber_of_ne {p q : Nat} (hne : q ≠ p) (w : StreamWorld) (sub : Option Subscriber) :
    (w.setSubscriber p sub).hub.subscribers q = w.hub.subscribers q :=
  Function.update_of_ne hne ..

/-! ### A consumer -/

def QueueItem.frame : QueueItem → Option Frame
  | .event e => some (.event e)
  | .close => none

def StreamPhase.frames : StreamPhase → List Frame
  | .replay gap events => (if gap then [.gap] else []) ++ events.map .event
  | .top | .waiting | .ended => []

def queuedFrames (sub : Option Subscriber) : List Frame :=
  (sub.map fun sub => sub.queue.filterMap QueueItem.frame).getD []

/-- The frames a connection may still deliver. -/
def Connection.pending (connection : Connection) (sub : Option Subscriber) : List Frame :=
  connection.inFlight ++ (connection.phase.frames ++ queuedFrames sub)

def Consumer.pending (consumer : Consumer) (sub : Option Subscriber) : List Frame :=
  (consumer.connection.map (·.pending sub)).getD []

/-- The subscription has missed nothing yet. -/
def Live : Option Subscriber → Prop
  | none => False
  | some sub => sub.overflow = false

/-- What a connection may still deliver continues what its consumer has received, and a live one reaches the
last event. -/
structure KeepsPlace (p : Nat) (w : StreamWorld) (consumer : Consumer) (since : Nat) : Prop where
  unconnected : consumer.connection = none → w.hub.subscribers p = none
  bounded : since ≤ w.hub.seq
  known : ∀ event, .event event ∈ consumer.received ++ consumer.pending (w.hub.subscribers p) →
    event ∈ w.published
  follows : Place.Follows { last := since } (consumer.received ++ consumer.pending (w.hub.subscribers p))
  remembers : consumer.lastEventId = none ∧ (Place.after { last := since } consumer.received).last = since ∨
    consumer.lastEventId = some (eventId w.hub.epoch (Place.after { last := since } consumer.received).last)
  live : Live (w.hub.subscribers p) →
    let place := Place.after { last := since } (consumer.received ++ consumer.pending (w.hub.subscribers p))
    place.gapped = false → place.last = w.hub.seq

/-- A consumer that has not connected knows nothing. -/
inductive KeepsUp (p : Nat) (w : StreamWorld) (consumer : Consumer) : Prop
  | new (hnew : consumer = {}) (hsub : w.hub.subscribers p = none)
  | connected {since : Nat} (hsince : consumer.since = some since)
      (hkeeps : KeepsPlace p w consumer since)

section

variable {p : Nat} {w w' : StreamWorld} {consumer consumer' : Consumer} {since : Nat} {sub : Option Subscriber}

/-- What is pending stays as it is, or loses its end together with the subscription. -/
structure Passes (p : Nat) (w w' : StreamWorld) (frames frames' : List Frame) : Prop where
  same : SameEvents w w'
  shorter : frames' <+: frames
  live : Live (w'.hub.subscribers p) → Live (w.hub.subscribers p) ∧ frames' = frames

theorem Passes.of_eq {frames frames' : List Frame} (heq : frames' = frames) : Passes p w w frames frames' :=
  ⟨⟨rfl, rfl, rfl, rfl⟩, heq ▸ List.prefix_refl _, fun hlive => ⟨hlive, heq⟩⟩

theorem Passes.unsubscribe {frames frames' : List Frame} (hshorter : frames' <+: frames) :
    Passes p w (w.setSubscriber p none) frames frames' := by
  refine ⟨sameEvents_setSubscriber w p none, hshorter, fun hlive => ?_⟩
  rw [setSubscriber_self] at hlive
  cases hlive

theorem KeepsPlace.pass (hkeeps : KeepsPlace p w consumer since)
    (hpasses : Passes p w w' (consumer.pending (w.hub.subscribers p))
      (consumer'.pending (w'.hub.subscribers p)))
    (hlast : consumer'.lastEventId = consumer.lastEventId) (hreceived : consumer'.received = consumer.received)
    (hunconnected : consumer'.connection = none → w'.hub.subscribers p = none) :
    KeepsPlace p w' consumer' since where
  unconnected := hunconnected
  bounded := hpasses.same.seq ▸ hkeeps.bounded
  known event hevent := by
    rw [hpasses.same.published]
    refine hkeeps.known event ?_
    rw [hreceived] at hevent
    rcases List.mem_append.1 hevent with hold | hpending
    · exact List.mem_append_left _ hold
    · exact List.mem_append_right _ (hpasses.shorter.mem hpending)
  follows := by
    obtain ⟨rest, hrest⟩ := hpasses.shorter
    have hfollows := hkeeps.follows
    rw [← hrest, ← List.append_assoc, Place.follows_append] at hfollows
    rw [hreceived]
    exact hfollows.1
  remembers := by
    rw [hlast, hreceived, hpasses.same.epoch]
    exact hkeeps.remembers
  live hlive := by
    obtain ⟨hlive, hpending⟩ := hpasses.live hlive
    rw [hpending, hreceived, hpasses.same.seq]
    exact hkeeps.live hlive

theorem KeepsUp.of_same (hkeeps : KeepsUp p w consumer) (hsame : SameEvents w w')
    (hsub : w'.hub.subscribers p = w.hub.subscribers p) : KeepsUp p w' consumer := by
  cases hkeeps with
  | new hnew hnone => exact .new hnew (hsub.trans hnone)
  | connected hsince hkeeps =>
      refine .connected hsince (hkeeps.pass ?_ rfl rfl fun hnone => hsub.trans (hkeeps.unconnected hnone))
      rw [hsub]
      exact ⟨hsame, List.prefix_refl _, fun hlive => ⟨hsub ▸ hlive, rfl⟩⟩

/-! ### What each action does to a consumer -/

theorem queuedFrames_enqueue (sub : Subscriber) (maxQueue : Nat) (event : BufferedEvent) :
    (sub.enqueue maxQueue event).overflow = true ∧
        queuedFrames (some (sub.enqueue maxQueue event)) = queuedFrames (some sub) ∨
      sub.overflow = false ∧
        queuedFrames (some (sub.enqueue maxQueue event)) = queuedFrames (some sub) ++ [.event event] := by
  unfold Subscriber.enqueue Subscriber.putNowait
  split
  · next hoverflow => exact .inl ⟨hoverflow, rfl⟩
  · next hlive =>
      split
      · exact .inl ⟨rfl, rfl⟩
      · refine .inr ⟨by simpa using hlive, ?_⟩
        simp [queuedFrames, QueueItem.frame]

theorem queuedFrames_close (sub : Subscriber) (maxQueue : Nat) :
    queuedFrames (some (sub.close maxQueue)) = queuedFrames (some sub) ∧
      (sub.close maxQueue).overflow = sub.overflow := by
  unfold Subscriber.close Subscriber.putNowait
  split
  · exact ⟨rfl, rfl⟩
  · simp [queuedFrames, QueueItem.frame]

theorem pending_enqueue (hunconnected : consumer.connection = none → sub = none) (maxQueue : Nat)
    (event : BufferedEvent) :
    ¬ Live (sub.map (·.enqueue maxQueue event)) ∧
        consumer.pending (sub.map (·.enqueue maxQueue event)) = consumer.pending sub ∨
      Live sub ∧ consumer.pending (sub.map (·.enqueue maxQueue event))
        = consumer.pending sub ++ [.event event] := by
  cases sub with
  | none => exact .inl ⟨by simp [Live], rfl⟩
  | some sub =>
      cases hconnection : consumer.connection with
      | none => cases hunconnected hconnection
      | some connection =>
          simp only [Consumer.pending, hconnection, Option.map_some, Option.getD_some, Connection.pending]
          rcases queuedFrames_enqueue sub maxQueue event with ⟨hoverflow, hqueued⟩ | ⟨hlive, hqueued⟩
          · exact .inl ⟨by simp [Live, hoverflow], by rw [hqueued]⟩
          · exact .inr ⟨hlive, by rw [hqueued]; simp⟩

theorem KeepsPlace.last_le (hinv : HubInv w) (hkeeps : KeepsPlace p w consumer since) :
    (Place.after { last := since }
      (consumer.received ++ consumer.pending (w.hub.subscribers p))).last ≤ w.hub.seq := by
  have hall : ∀ event, .event event ∈ consumer.received ++ consumer.pending (w.hub.subscribers p) →
      event.seq ≤ w.hub.seq := fun event hevent =>
    hinv.seq ▸ hinv.numbered.seq_le (hkeeps.known event hevent)
  exact Place.after_le hkeeps.bounded hall

theorem KeepsPlace.publish (hinv : HubInv w) (hkeeps : KeepsPlace p w consumer since)
    (eventType data : String) : KeepsPlace p (w.publish eventType data) consumer since := by
  have hsub : (w.publish eventType data).hub.subscribers p
      = (w.hub.subscribers p).map (·.enqueue w.hub.maxQueue (w.hub.nextEvent eventType data)) := rfl
  have hbounded : since ≤ w.hub.seq + 1 := Nat.le_succ_of_le hkeeps.bounded
  have hunconnected : consumer.connection = none →
      (w.publish eventType data).hub.subscribers p = none := by
    intro hnone
    rw [hsub, hkeeps.unconnected hnone]
    rfl
  rcases pending_enqueue hkeeps.unconnected w.hub.maxQueue (w.hub.nextEvent eventType data) with
    ⟨hoverflow, hpending⟩ | ⟨hlive, hpending⟩
  · refine ⟨hunconnected, hbounded, ?_, ?_, hkeeps.remembers, fun hlive => absurd hlive hoverflow⟩
    · rw [hsub, hpending]
      exact fun event hevent => List.mem_cons_of_mem _ (hkeeps.known event hevent)
    · rw [hsub, hpending]
      exact hkeeps.follows
  · refine ⟨hunconnected, hbounded, ?_, ?_, hkeeps.remembers, fun _ => ?_⟩
    · rw [hsub, hpending, ← List.append_assoc]
      intro event hevent
      rcases List.mem_append.1 hevent with hold | hnew
      · exact List.mem_cons_of_mem _ (hkeeps.known event hold)
      · cases List.mem_singleton.1 hnew
        exact List.mem_cons_self
    · rw [hsub, hpending, ← List.append_assoc, Place.follows_append, Place.follows_singleton]
      refine ⟨hkeeps.follows, Nat.lt_succ_of_le (hkeeps.last_le hinv), fun hclosed => ?_⟩
      show w.hub.seq + 1 = _
      rw [hkeeps.live hlive hclosed]
    · rw [hsub, hpending, ← List.append_assoc, Place.after_append]
      exact fun _ => rfl

theorem Passes.close (p : Nat) (w : StreamWorld) (consumer : Consumer) :
    Passes p w { w with hub := w.hub.close } (consumer.pending (w.hub.subscribers p))
      (consumer.pending (w.hub.close.subscribers p)) := by
  have hsub : w.hub.close.subscribers p = (w.hub.subscribers p).map (·.close w.hub.maxQueue) := rfl
  have hqueued : queuedFrames (w.hub.close.subscribers p) = queuedFrames (w.hub.subscribers p) ∧
      (Live (w.hub.close.subscribers p) → Live (w.hub.subscribers p)) := by
    rw [hsub]
    cases w.hub.subscribers p with
    | none => exact ⟨rfl, id⟩
    | some sub =>
        obtain ⟨hqueued, hoverflow⟩ := queuedFrames_close sub w.hub.maxQueue
        exact ⟨hqueued, fun hlive => hoverflow.symm.trans hlive⟩
  have hpending : consumer.pending (w.hub.close.subscribers p) = consumer.pending (w.hub.subscribers p) := by
    unfold Consumer.pending Connection.pending
    rw [hqueued.1]
  refine ⟨⟨rfl, rfl, rfl, rfl⟩, ?_, fun hlive => ⟨hqueued.2 hlive, hpending⟩⟩
  exact hpending ▸ List.prefix_refl _

theorem KeepsPlace.close (hkeeps : KeepsPlace p w consumer since) :
    KeepsPlace p { w with hub := w.hub.close } consumer since := by
  refine hkeeps.pass (.close p w consumer) rfl rfl fun hnone => ?_
  show (w.hub.subscribers p).map _ = none
  rw [hkeeps.unconnected hnone]
  rfl

theorem KeepsUp.publish (hinv : HubInv w) (hkeeps : KeepsUp p w consumer) (eventType data : String) :
    KeepsUp p (w.publish eventType data) consumer := by
  cases hkeeps with
  | new hnew hnone =>
      refine .new hnew ?_
      show (w.hub.subscribers p).map _ = none
      rw [hnone]
      rfl
  | connected hsince hkeeps => exact .connected hsince (hkeeps.publish hinv eventType data)

theorem KeepsUp.close (hkeeps : KeepsUp p w consumer) : KeepsUp p { w with hub := w.hub.close } consumer := by
  cases hkeeps with
  | new hnew hnone =>
      refine .new hnew ?_
      show (w.hub.subscribers p).map _ = none
      rw [hnone]
      rfl
  | connected hsince hkeeps => exact .connected hsince hkeeps.close

/-- A consumer that presents an identifier continues at its place, or is told of a gap. -/
theorem KeepsPlace.reconnect (hinv : HubInv w) (hkeeps : KeepsPlace p w consumer since)
    (hknown : consumer.lastEventId ≠ none ∨ w.hub.seq = since) {replay : List BufferedEvent}
    {resumable : Bool} (hresume : w.hub.resume consumer.lastEventId = (replay, resumable)) :
    KeepsPlace p (w.setSubscriber p (some {}))
      { consumer with connection := some { phase := .replay (!resumable) replay } } since := by
  have hpending : Consumer.pending
      { consumer with connection := some { phase := .replay (!resumable) replay } } (some {})
        = (if resumable then [] else [.gap]) ++ replay.map .event := by
    cases resumable <;> simp [Consumer.pending, Connection.pending, StreamPhase.frames, queuedFrames]
  have hreceived : ∀ event, .event event ∈ consumer.received → event ∈ w.published :=
    fun event hevent => hkeeps.known event (List.mem_append_left _ hevent)
  have hfollows := (Place.follows_append.1 hkeeps.follows).1
  have hreached : (Place.after { last := since } consumer.received).last ≤ w.hub.seq :=
    Place.after_le hkeeps.bounded fun event hevent => hinv.seq ▸ hinv.numbered.seq_le (hreceived event hevent)
  have hcontinues : (∀ event ∈ replay, event ∈ w.published) ∧
      (Place.after { last := since } consumer.received).Follows
        ((if resumable then [] else [.gap]) ++ replay.map .event) ∧
      (((Place.after { last := since } consumer.received).after
        ((if resumable then [] else [.gap]) ++ replay.map .event)).gapped = false →
      ((Place.after { last := since } consumer.received).after
        ((if resumable then [] else [.gap]) ++ replay.map .event)).last = w.hub.seq) := by
    rcases hkeeps.remembers with ⟨hnew, hlast⟩ | hid
    · rw [hnew] at hresume hknown
      cases hresume
      have hseq : w.hub.seq = since := hknown.resolve_left (· rfl)
      exact ⟨by simp, trivial, fun _ => hlast.trans hseq.symm⟩
    · rw [hid] at hresume
      obtain ⟨hresumed, hlost, hreplay⟩ := hinv.resume hreached hresume
      refine ⟨hreplay, ?_⟩
      cases resumable with
      | true =>
          obtain ⟨hconsecutive, hlength⟩ := hresumed rfl
          exact ⟨hconsecutive.follows, fun _ => hconsecutive.after.trans hlength⟩
      | false =>
          rw [hlost rfl]
          exact ⟨⟨trivial, trivial⟩, fun hclosed => by cases hclosed⟩
  obtain ⟨hreplay, hcontinues, hlive⟩ := hcontinues
  refine ⟨nofun, hkeeps.bounded, ?_, ?_, hkeeps.remembers, fun _ => ?_⟩
  · rw [setSubscriber_self, hpending]
    intro event hevent
    rcases List.mem_append.1 hevent with hold | hnew
    · exact hreceived event hold
    · refine hreplay event ?_
      cases resumable <;> simpa using hnew
  · rw [setSubscriber_self, hpending, Place.follows_append]
    exact ⟨hfollows, hcontinues⟩
  · rw [setSubscriber_self, hpending, Place.after_append]
    exact hlive

theorem KeepsPlace.first (w : StreamWorld) (p : Nat) :
    KeepsPlace p (w.setSubscriber p (some {}))
      { connection := some { phase := .replay false [] }, since := some w.hub.seq } w.hub.seq := by
  refine ⟨nofun, Nat.le_refl _, ?_, ?_, .inl ⟨rfl, rfl⟩, fun _ => ?_⟩
  · rw [setSubscriber_self]
    intro event hevent
    cases hevent
  · rw [setSubscriber_self]
    trivial
  · rw [setSubscriber_self]
    exact fun _ => rfl

/-- One step of the generator passes the pending frames on, or ends the connection. -/
theorem generatorStep_passes {connection connection' : Connection}
    (hstep : generatorStep p w connection = some (w', connection')) :
    Passes p w w' (connection.pending (w.hub.subscribers p))
        (connection'.pending (w'.hub.subscribers p)) ∧
      ∀ q, q ≠ p → w'.hub.subscribers q = w.hub.subscribers q := by
  obtain ⟨phase, inFlight⟩ := connection
  have hends : Connection.pending ⟨.ended, inFlight⟩ ((w.setSubscriber p none).hub.subscribers p)
      <+: Connection.pending ⟨phase, inFlight⟩ (w.hub.subscribers p) := by
    simp [Connection.pending, StreamPhase.frames, queuedFrames]
  cases phase with
  | replay gap events =>
      cases gap with
      | true =>
          cases hstep
          exact ⟨.of_eq (by simp [Connection.send, Connection.pending, StreamPhase.frames]), fun _ _ => rfl⟩
      | false =>
          cases events with
          | nil =>
              cases hstep
              exact ⟨.of_eq (by simp [Connection.pending, StreamPhase.frames]), fun _ _ => rfl⟩
          | cons event rest =>
              cases hstep
              exact ⟨.of_eq (by simp [Connection.send, Connection.pending, StreamPhase.frames]), fun _ _ => rfl⟩
  | top =>
      simp only [generatorStep] at hstep
      split at hstep
      · cases hstep
      · split at hstep
        · cases hstep
          exact ⟨.unsubscribe hends, fun q hne => setSubscriber_of_ne hne w none⟩
        · cases hstep
          exact ⟨.of_eq rfl, fun _ _ => rfl⟩
  | waiting =>
      simp only [generatorStep] at hstep
      split at hstep
      · cases hstep
      · next sub hsub =>
          split at hstep
          · cases hstep
          · cases hstep
            exact ⟨.unsubscribe hends, fun q hne => setSubscriber_of_ne hne w none⟩
          · next event rest hqueue =>
              cases hstep
              have hpending : Connection.pending (Connection.send ⟨.waiting, inFlight⟩ (.event event) .top)
                  (some { sub with queue := rest })
                    = Connection.pending ⟨.waiting, inFlight⟩ (w.hub.subscribers p) := by
                simp [hsub, Connection.send, Connection.pending, StreamPhase.frames, queuedFrames, hqueue,
                  QueueItem.frame]
              refine ⟨⟨sameEvents_setSubscriber w p _, ?_, fun hlive => ?_⟩,
                fun q hne => setSubscriber_of_ne hne w _⟩
              · rw [setSubscriber_self]
                exact hpending ▸ List.prefix_refl _
              · rw [setSubscriber_self] at hlive ⊢
                refine ⟨?_, hpending⟩
                rw [hsub]
                exact hlive
  | ended => cases hstep

theorem KeepsPlace.heartbeat {connection : Connection} (hkeeps : KeepsPlace p w consumer since)
    (hconnection : consumer.connection = some connection) (hwaiting : connection.phase = .waiting) :
    KeepsPlace p w { consumer with connection := some (connection.send .heartbeat .top) } since := by
  obtain ⟨phase, inFlight⟩ := connection
  obtain rfl : phase = .waiting := hwaiting
  have hpending : consumer.pending (w.hub.subscribers p) = inFlight ++ queuedFrames (w.hub.subscribers p) := by
    rw [Consumer.pending, hconnection]
    rfl
  have hpending' : Consumer.pending
      { consumer with connection := some (Connection.send ⟨.waiting, inFlight⟩ .heartbeat .top) }
      (w.hub.subscribers p) = inFlight ++ [.heartbeat] ++ queuedFrames (w.hub.subscribers p) :=
    rfl
  have hfollows := hkeeps.follows
  have hlive := hkeeps.live
  rw [hpending] at hfollows hlive
  refine ⟨nofun, hkeeps.bounded, fun event hevent => hkeeps.known event ?_, ?_, hkeeps.remembers, ?_⟩
  · rw [hpending'] at hevent
    rw [hpending]
    simpa using hevent
  · rw [hpending']
    simp only [Place.follows_append, Place.after_append] at hfollows ⊢
    exact ⟨hfollows.1, ⟨hfollows.2.1, trivial, trivial⟩, hfollows.2.2⟩
  · rw [hpending']
    simp only [Place.after_append] at hlive ⊢
    exact hlive

theorem KeepsPlace.receive {connection : Connection} {frame : Frame} {rest : List Frame} (hinv : HubInv w)
    (hkeeps : KeepsPlace p w consumer since) (hconnection : consumer.connection = some connection)
    (hinFlight : connection.inFlight = frame :: rest) :
    KeepsPlace p w { consumer.receive frame with
      connection := some { connection with inFlight := rest } } since := by
  have hmoved : (consumer.received ++ [frame]) ++ Connection.pending { connection with inFlight := rest }
      (w.hub.subscribers p) = consumer.received ++ consumer.pending (w.hub.subscribers p) := by
    simp [Consumer.pending, hconnection, Connection.pending, hinFlight]
  refine ⟨nofun, hkeeps.bounded, ?_, ?_, ?_, ?_⟩
  · show ∀ event, .event event ∈ consumer.received ++ [frame] ++ Connection.pending _ _ → _
    rw [hmoved]
    exact hkeeps.known
  · show Place.Follows _ (consumer.received ++ [frame] ++ Connection.pending _ _)
    rw [hmoved]
    exact hkeeps.follows
  · show _ ∧ (Place.after _ (consumer.received ++ [frame])).last = since ∨
      _ = some (eventId w.hub.epoch (Place.after _ (consumer.received ++ [frame])).last)
    rw [Place.after_append]
    cases frame with
    | heartbeat => exact hkeeps.remembers
    | gap => exact hkeeps.remembers
    | event event =>
        have hpublished : event ∈ w.published := by
          refine hkeeps.known event ?_
          rw [← hmoved]
          simp
        exact .inr (congrArg some (hinv.numbered.eventId hpublished))
  · show Live _ → (Place.after _ (consumer.received ++ [frame] ++ Connection.pending _ _)).gapped = false →
      (Place.after _ (consumer.received ++ [frame] ++ Connection.pending _ _)).last = _
    rw [hmoved]
    exact hkeeps.live

theorem KeepsUp.of_connection {connection : Connection} (hkeeps : KeepsUp p w consumer)
    (hconnection : consumer.connection = some connection) :
    ∃ since, consumer.since = some since ∧ KeepsPlace p w consumer since := by
  cases hkeeps with
  | new hnew =>
      rw [hnew] at hconnection
      cases hconnection
  | connected hsince hkeeps => exact ⟨_, hsince, hkeeps⟩

/-! ### Steps -/

/-- The consumer presents an identifier when it connects, or no event has been published since its first
connection. -/
def ResumesKnown (w : StreamWorld) (consumer : Consumer) (a : StreamAction) : Prop :=
  a = .connect → consumer.lastEventId ≠ none ∨ ∀ since ∈ consumer.since, w.hub.seq = since

/-- What a step does to the hub: it publishes, shuts down, or changes the subscription of the one consumer. -/
inductive HubStep (p : Nat) (w : StreamWorld) : StreamWorld → Prop
  | publish (eventType data : String) : HubStep p w (w.publish eventType data)
  | close : HubStep p w { w with hub := w.hub.close }
  | subscription {w' : StreamWorld} (hsame : SameEvents w w')
      (hothers : ∀ q, q ≠ p → w'.hub.subscribers q = w.hub.subscribers q) : HubStep p w w'

theorem HubStep.inv (hinv : HubInv w) (hstep : HubStep p w w') : HubInv w' := by
  cases hstep with
  | publish eventType data => exact hinv.publish eventType data
  | close =>
      have hsame : SameEvents w { w with hub := w.hub.close } := ⟨rfl, rfl, rfl, rfl⟩
      exact hinv.of_same hsame
  | subscription hsame => exact hinv.of_same hsame

theorem HubStep.other {q : Nat} (hne : q ≠ p) (hinv : HubInv w) (hkeeps : KeepsUp q w consumer)
    (hstep : HubStep p w w') : KeepsUp q w' consumer := by
  cases hstep with
  | publish eventType data => exact hkeeps.publish hinv eventType data
  | close => exact hkeeps.close
  | subscription hsame hothers => exact hkeeps.of_same hsame (hothers q hne)

theorem StreamStep.hub {a : StreamAction} (hstep : StreamStep p w consumer a w' consumer') :
    HubStep p w w' := by
  have hsets (sub : Option Subscriber) : HubStep p w (w.setSubscriber p sub) :=
    .subscription (sameEvents_setSubscriber w p sub) fun q hne => setSubscriber_of_ne hne w sub
  have hstays : HubStep p w w := .subscription ⟨rfl, rfl, rfl, rfl⟩ fun _ _ => rfl
  cases hstep with
  | publish => exact .publish _ _
  | close => exact .close
  | connect => exact hsets _
  | proceed _ hgenerator =>
      obtain ⟨hpasses, hothers⟩ := generatorStep_passes hgenerator
      exact .subscription hpasses.same hothers
  | heartbeat => exact hstays
  | receive => exact hstays
  | disconnect => exact hsets _

theorem StreamStep.keepsUp {a : StreamAction} (hstep : StreamStep p w consumer a w' consumer')
    (hinv : HubInv w) (hkeeps : KeepsUp p w consumer) (hknown : ResumesKnown w consumer a) :
    KeepsUp p w' consumer' := by
  cases hstep with
  | publish => exact hkeeps.publish hinv _ _
  | close => exact hkeeps.close
  | connect hnone hresume =>
      cases hkeeps with
      | new hnew =>
          subst hnew
          cases hresume
          exact .connected rfl (.first w p)
      | @connected since hsince hkeeps =>
          have hknown := (hknown rfl).imp_right fun hseq => hseq since hsince
          have hstays : consumer.since.or (some w.hub.seq) = consumer.since := by
            rw [hsince]
            rfl
          rw [hstays]
          exact .connected hsince (hkeeps.reconnect hinv hknown hresume)
  | proceed hconnection hgenerator =>
      obtain ⟨since, hsince, hkeeps⟩ := hkeeps.of_connection hconnection
      refine .connected hsince (hkeeps.pass ?_ rfl rfl nofun)
      rw [Consumer.pending, hconnection]
      exact (generatorStep_passes hgenerator).1
  | heartbeat hconnection hwaiting =>
      obtain ⟨since, hsince, hkeeps⟩ := hkeeps.of_connection hconnection
      exact .connected hsince (hkeeps.heartbeat hconnection hwaiting)
  | receive hconnection hinFlight =>
      obtain ⟨since, hsince, hkeeps⟩ := hkeeps.of_connection hconnection
      exact .connected hsince (hkeeps.receive hinv hconnection hinFlight)
  | disconnect hconnection =>
      obtain ⟨since, hsince, hkeeps⟩ := hkeeps.of_connection hconnection
      refine .connected hsince (hkeeps.pass (.unsubscribe List.nil_prefix) rfl rfl fun _ => ?_)
      exact setSubscriber_self w p none

end

/-! ### Runs -/

/-- Nothing has been published, and nobody has connected. -/
structure StreamStarts (c : Interleaving.Config StreamWorld Consumer) : Prop where
  seq : c.shared.hub.seq = 0
  buffer : c.shared.hub.buffer = []
  subscribers : ∀ p, c.shared.hub.subscribers p = none
  published : c.shared.published = []
  consumers : ∀ p, c.locals p = {}

theorem StreamStarts.hubInv {c : Interleaving.Config StreamWorld Consumer} (hstarts : StreamStarts c) :
    HubInv c.shared where
  seq := by rw [hstarts.seq, hstarts.published]; rfl
  numbered := by rw [hstarts.published]; trivial
  buffer := ⟨0, by rw [hstarts.buffer]; trivial, by rw [hstarts.buffer, hstarts.seq]; rfl⟩
  buffered := by simp [hstarts.buffer]

theorem stream_run {c₀ c : Interleaving.Config StreamWorld Consumer}
    {schedule : List (Nat × StreamAction)} (hstarts : StreamStarts c₀) (p : Nat)
    (hknown : stream.Along (fun c move _ => move.1 = p → ResumesKnown c.shared (c.locals p) move.2) c₀
      schedule)
    (hrun : stream.run c₀ schedule = some c) : HubInv c.shared ∧ KeepsUp p c.shared (c.locals p) := by
  have hstep : ∀ c move c', HubInv c.shared ∧ KeepsUp p c.shared (c.locals p) → stream.next c move = some c' →
      (move.1 = p → ResumesKnown c.shared (c.locals p) move.2) →
      HubInv c'.shared ∧ KeepsUp p c'.shared (c'.locals p) := by
    rintro c ⟨q, a⟩ c' ⟨hinv, hkeeps⟩ hnext hknown
    obtain ⟨w', consumer', hstep, rfl⟩ := Interleaving.System.next_eq_some.1 hnext
    have hsound := streamStep_sound hstep
    refine ⟨hsound.hub.inv hinv, ?_⟩
    by_cases hp : q = p
    · subst hp
      show KeepsUp q w' (Function.update c.locals q consumer' q)
      rw [Function.update_self]
      exact hsound.keepsUp hinv hkeeps (hknown rfl)
    · show KeepsUp p w' (Function.update c.locals q consumer' p)
      rw [Function.update_of_ne (Ne.symm hp)]
      exact hsound.hub.other (Ne.symm hp) hinv hkeeps
  have hstart : KeepsUp p c₀.shared (c₀.locals p) := .new (hstarts.consumers p) (hstarts.subscribers p)
  exact Interleaving.System.run_invariant hstep ⟨hstarts.hubInv, hstart⟩ hknown hrun

theorem KeepsPlace.neverMisses {p : Nat} {w : StreamWorld} {consumer : Consumer} {since : Nat}
    (hinv : HubInv w) (hkeeps : KeepsPlace p w consumer since) :
    NeverMisses w.published since consumer.received := by
  intro older event newer hreceived
  have hknown : ∀ e, .event e ∈ consumer.received → e ∈ w.published :=
    fun e he => hkeeps.known e (List.mem_append_left _ he)
  have hfollows := (Place.follows_append.1 hkeeps.follows).1
  rw [hreceived] at hknown hfollows
  rw [← List.singleton_append, Place.follows_append, Place.follows_append, Place.follows_singleton] at hfollows
  obtain ⟨holder, hadmits, -⟩ := hfollows
  refine ⟨hknown event (by simp), fun earlier hearlier => ?_, fun missed hmissed hlow hhigh => ?_⟩
  · exact Nat.lt_of_le_of_lt (holder.lt_after hearlier) hadmits.1
  · have hopen : (Place.after { last := since } older).last < missed.seq →
        (Place.after { last := since } older).gapped = true := by
      intro hlt
      by_contra hclosed
      have hnext := hadmits.2 (by simpa using hclosed)
      omega
    rcases holder.covers hlow hopen rfl with ⟨e, he, hseq⟩ | hcovers
    · have heq := hinv.numbered.unique (hknown e (List.mem_append_left _ he)) hmissed hseq
      exact .inl (heq ▸ he)
    · exact .inr hcovers

/-- A consumer never misses an event silently, in a run in which it reconnects with an identifier, or else
before anything was published since its first connection. -/
theorem stream_never_misses {c₀ c : Interleaving.Config StreamWorld Consumer}
    {schedule : List (Nat × StreamAction)} (hstarts : StreamStarts c₀) (p : Nat)
    (hknown : stream.Along (fun c move _ => move.1 = p → ResumesKnown c.shared (c.locals p) move.2) c₀
      schedule)
    (hrun : stream.run c₀ schedule = some c) :
    ∀ since ∈ (c.locals p).since, NeverMisses c.shared.published since (c.locals p).received := by
  obtain ⟨hinv, hkeeps⟩ := stream_run hstarts p hknown hrun
  intro since hsince
  cases hkeeps with
  | new hnew =>
      rw [hnew] at hsince
      cases hsince
  | connected hsince' hkeeps =>
      cases hsince'.symm.trans hsince
      exact hkeeps.neverMisses hinv

/-- A hub that has just started, with queues of one event. -/
def freshHub : Interleaving.Config StreamWorld Consumer where
  shared := { hub := { bufferSize := 256, maxQueue := 1, epoch := "17" } }
  locals _ := {}

theorem freshHub_starts : StreamStarts freshHub where
  seq := rfl
  buffer := rfl
  subscribers _ := rfl
  published := rfl
  consumers _ := rfl

/-- A consumer receives one event, overflows on the next ones and reconnects with an identifier. -/
def overflowAfterFirst : List (Nat × StreamAction) :=
  [(0, .connect), (0, .proceed), (0, .proceed), (1, .publish "user-deleted" "a"), (0, .proceed),
    (0, .receive), (1, .publish "user-deleted" "b"), (1, .publish "user-deleted" "c"), (0, .proceed),
    (0, .disconnect), (0, .connect), (0, .proceed), (0, .receive), (0, .proceed), (0, .receive)]

def publishedEvent (seq : Nat) (data : String) : BufferedEvent where
  seq := seq
  eventId := eventId "17" seq
  eventType := "user-deleted"
  data := data

instance (w : StreamWorld) (consumer : Consumer) (a : StreamAction) :
    Decidable (ResumesKnown w consumer a) :=
  inferInstanceAs (Decidable (a = .connect →
    consumer.lastEventId ≠ none ∨ ∀ since ∈ consumer.since, w.hub.seq = since))

theorem stream_never_misses_overflowAfterFirst :
    ∃ c, stream.run freshHub overflowAfterFirst = some c ∧
      (c.locals 0).received = [.event (publishedEvent 1 "a"), .event (publishedEvent 2 "b"),
        .event (publishedEvent 3 "c")] ∧
      ∀ since ∈ (c.locals 0).since, NeverMisses c.shared.published since (c.locals 0).received := by
  have hruns : (stream.run freshHub overflowAfterFirst).map (fun c => (c.locals 0).received)
      = some [.event (publishedEvent 1 "a"), .event (publishedEvent 2 "b"),
        .event (publishedEvent 3 "c")] := by
    decide +kernel
  have hknown : stream.Along (fun c move _ => move.1 = 0 → ResumesKnown c.shared (c.locals 0) move.2)
      freshHub overflowAfterFirst := by
    decide +kernel
  obtain ⟨c, hrun, hreceived⟩ := Option.map_eq_some_iff.1 hruns
  exact ⟨c, hrun, hreceived, stream_never_misses freshHub_starts 0 hknown hrun⟩

/-- A consumer overflows before it has received an event, and reconnects without an identifier. -/
def overflowBeforeFirst : List (Nat × StreamAction) :=
  [(0, .connect), (0, .proceed), (0, .proceed), (0, .heartbeat), (1, .publish "user-deleted" "a"),
    (1, .publish "user-deleted" "b"), (0, .receive), (0, .proceed), (0, .disconnect), (0, .connect),
    (0, .proceed), (0, .proceed), (1, .publish "user-deleted" "c"), (0, .proceed), (0, .receive)]

/-- It receives the third event, and neither the first two nor a gap frame. -/
theorem stream_misses_silently :
    ∃ c, stream.run freshHub overflowBeforeFirst = some c ∧ (c.locals 0).since = some 0 ∧
      (c.locals 0).received = [.heartbeat, .event (publishedEvent 3 "c")] ∧
      c.shared.published = [publishedEvent 3 "c", publishedEvent 2 "b", publishedEvent 1 "a"] ∧
      ¬ NeverMisses c.shared.published 0 (c.locals 0).received := by
  have hruns : (stream.run freshHub overflowBeforeFirst).map (fun c =>
      ((c.locals 0).since, (c.locals 0).received, c.shared.published))
      = some (some 0, [.heartbeat, .event (publishedEvent 3 "c")],
        [publishedEvent 3 "c", publishedEvent 2 "b", publishedEvent 1 "a"]) := by
    decide +kernel
  obtain ⟨c, hrun, hresult⟩ := Option.map_eq_some_iff.1 hruns
  obtain ⟨hsince, hrest⟩ := Prod.mk.inj hresult
  obtain ⟨hreceived, hpublished⟩ := Prod.mk.inj hrest
  refine ⟨c, hrun, hsince, hreceived, hpublished, fun hnever => ?_⟩
  rw [hreceived, hpublished] at hnever
  obtain ⟨-, -, hall⟩ := hnever [.heartbeat] (publishedEvent 3 "c") [] rfl
  rcases hall (publishedEvent 1 "a") (by simp) (by decide) (by decide) with hreceived | ⟨before, after, hgap, -⟩
  · simp at hreceived
  · have hmem : Frame.gap ∈ [Frame.heartbeat] := by
      rw [hgap]
      simp
    simp at hmem

end FaAuthM8
