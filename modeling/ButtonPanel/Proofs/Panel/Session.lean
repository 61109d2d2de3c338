/-
  ButtonPanel.Proofs.Panel.Session — a panel at work with the consumer of its queue. Calls of the
  panel come in any order with polls, drains and waits. A wait polls again and again, and calls
  of the panel may come between two of its polls.

  A session records what its consumer took, which gestures gave back a button, and every offer
  that the panel made to the queue: the event, and how many events were unread when it came. The
  offers of a call are seen by doing it over a queue that notes them (`Panel.offers`).

  `stream_accounted`: after every session on a panel that was built,
  - the gestures that succeeded are those whose key addressed a button among those placed by then;
  - what was offered is what the settings make of these gestures, in their order;
  - what was taken, followed by what is unread, is what was offered while the queue was not full,
    and whatever comes later is added behind it;
  - all of it is of the one family that the mode of the settings stands for.

  `Accounted` is the invariant. Each call of the panel keeps it (`Accounted.call`), each way of
  taking events does (`Accounted.take`, `Accounted.wait`), so every session does (`Accounted.run`).
-/

import ButtonPanel.Proofs.Log
import ButtonPanel.Proofs.Panel.Build
import ButtonPanel.Proofs.Panel.Gestures
import ButtonPanel.Proofs.Queue.Order

namespace ButtonPanel

/-! ## Calls of a panel -/

inductive PanelCall
  | add (w : Widget)
  | gesture (g : Gesture)
  | isHeld (key : String)
  | resolve (key : String)
  deriving DecidableEq, Repr

inductive PanelAnswer
  | placed
  | struck (id : ButtonId)
  | held (b : Bool)
  | found (w : Widget)
  deriving DecidableEq, Repr

/-- The answer of a panel to a call, and the panel after it. A call that fails leaves it as it is. -/
def Panel.call {σ : Type} [Sink σ] (p : Panel σ) : PanelCall → Except PanelError PanelAnswer × Panel σ
  | .add w =>
    match p.add w with
    | .ok q => (.ok .placed, q)
    | .error e => (.error e, p)
  | .gesture g =>
    match g.apply p with
    | .ok (id, q) => (.ok (.struck id), q)
    | .error e => (.error e, p)
  | .isHeld key => ((p.isHeld key).map .held, p)
  | .resolve key => ((p.resolve key).map .found, p)

namespace PanelCall

def struck (c : PanelCall) (answer : Except PanelError PanelAnswer) : List (Verb × ButtonId) :=
  match c, answer with
  | .gesture g, .ok (.struck id) => [(g.verb, id)]
  | _, _ => []

def place (ws : List Widget) : PanelCall → List Widget
  | .add w => if w.conflict? ws = none then ws ++ [w] else ws
  | _ => ws

/-- What a call strikes on a panel with certain buttons. -/
def strikes (ws : List Widget) : PanelCall → List (Verb × ButtonId)
  | .gesture g => ((addressed? ws g.key).map fun w => (g.verb, w.id)).toList
  | _ => []

end PanelCall

/-- What calls strike, one after the other, beginning with certain buttons on the panel. -/
def strikesOf (ws : List Widget) : List PanelCall → List (Verb × ButtonId)
  | [] => []
  | c :: cs => c.strikes ws ++ strikesOf (c.place ws) cs

theorem strikesOf_concat (ws : List Widget) (cs : List PanelCall) (c : PanelCall) :
    strikesOf ws (cs ++ [c]) = strikesOf ws cs ++ c.strikes (cs.foldl PanelCall.place ws) := by
  induction cs generalizing ws with
  | nil => simp [strikesOf]
  | cons d cs ih => simp only [List.cons_append, strikesOf, ih, List.foldl_cons, List.append_assoc]

/-- A call strikes nothing, or it is a gesture on a button. -/
theorem PanelCall.strikes_cases (ws : List Widget) (c : PanelCall) :
    c.strikes ws = [] ∨
      ∃ g w, c = .gesture g ∧ addressed? ws g.key = some w ∧ c.strikes ws = [(g.verb, w.id)] := by
  cases c with
  | gesture g =>
    cases h : addressed? ws g.key with
    | none => left; simp [strikes, h]
    | some w => right; exact ⟨g, w, rfl, h, by simp [strikes, h]⟩
  | _ => exact Or.inl rfl

namespace Panel

variable {σ : Type} [Sink σ] {p : Panel σ}

theorem call_gesture {g : Gesture} {w : Widget} (h : addressed? p.widgets g.key = some w) :
    p.call (.gesture g) = (.ok (.struck w.id), p.after w.id g.verb) := by
  simp only [call, Gesture.apply_eq h]

/-- A call that strikes nothing can at most place a button. -/
theorem call_of_strikes_nil {c : PanelCall} (h : c.strikes p.widgets = []) :
    (p.call c).2 = { p with widgets := c.place p.widgets } ∧ c.struck (p.call c).1 = [] := by
  cases c with
  | add w =>
    simp only [call, add, PanelCall.place]
    cases hw : w.conflict? p.widgets with
    | none => exact ⟨rfl, rfl⟩
    | some e => exact ⟨rfl, rfl⟩
  | gesture g =>
    have hnone : addressed? p.widgets g.key = none := by simpa [PanelCall.strikes] using h
    simp only [call, Gesture.apply_of_none hnone]
    exact ⟨rfl, rfl⟩
  | isHeld key => exact ⟨rfl, rfl⟩
  | resolve key => exact ⟨rfl, rfl⟩

end Panel

/-! ## Offers -/

/-- An event that is offered to a queue, and the number of events that are unread when it comes. -/
structure Offer where
  event : Event
  unread : Nat
  deriving DecidableEq, Repr

structure NotedQueue where
  queue : Queue
  offers : List Offer := []
  deriving DecidableEq, Repr

def NotedQueue.send (n : NotedQueue) (e : Event) : Reply × NotedQueue :=
  let answer := n.queue.send e
  (answer.1, { queue := answer.2, offers := n.offers ++ [⟨e, n.queue.unread.length⟩] })

instance : Sink NotedQueue := ⟨NotedQueue.send⟩

/-- The panel over a queue that notes what it is offered from now on. -/
def Panel.noted (p : Panel Queue) : Panel NotedQueue := p.withSink { queue := p.emitter.sink }

def Panel.offers (p : Panel Queue) (c : PanelCall) : List Offer := (p.noted.call c).2.emitter.sink.offers

/-- The offers of which the event is put into a queue with room for `depth` events. -/
def kept (depth : Nat) (os : List Offer) : List Event := (os.filter (·.unread ≠ depth)).map (·.event)

theorem kept_append (depth : Nat) (os os' : List Offer) : kept depth (os ++ os') = kept depth os ++ kept depth os' := by
  simp only [kept, List.filter_append, List.map_append]

namespace Queue

def offersOf (q : Queue) : List Event → List Offer
  | [] => []
  | e :: es => ⟨e, q.unread.length⟩ :: (q.send e).2.offersOf es

theorem map_event_offersOf (q : Queue) (es : List Event) : (q.offersOf es).map (·.event) = es := by
  induction es generalizing q with
  | nil => rfl
  | cons e es ih => rw [offersOf, List.map_cons, ih]

theorem unread_le_of_mem_offersOf {q : Queue} (h : q.unread.length ≤ q.capacity) {es : List Event} {o : Offer}
    (ho : o ∈ q.offersOf es) : o.unread ≤ q.capacity := by
  induction es generalizing q with
  | nil => cases ho
  | cons e es ih =>
    rcases List.mem_cons.mp ho with rfl | ho
    · exact h
    · have hlater := ih (by rw [capacity_send]; exact length_send h e) ho
      rwa [capacity_send] at hlater

/-- Sending events in a row puts those into the queue that find it not full. -/
theorem unread_sendAll_offersOf {q : Queue} (h : q.unread.length ≤ q.capacity) (es : List Event) :
    (q.sendAll es).unread = q.unread ++ kept q.capacity (q.offersOf es) := by
  induction es generalizing q with
  | nil => simp [offersOf, kept]
  | cons e es ih =>
    have hlater := ih (q := (q.send e).2) (by rw [capacity_send]; exact length_send h e)
    rw [capacity_send] at hlater
    rw [sendAll_cons, hlater, offersOf]
    by_cases hroom : q.unread.length < q.capacity
    · have hne : q.unread.length ≠ q.capacity := Nat.ne_of_lt hroom
      rw [send_of_room hroom]
      simp [kept, hne]
    · have hfull : q.unread.length = q.capacity := by omega
      rw [send_of_full (Nat.le_of_eq hfull.symm)]
      simp [kept, hfull]

end Queue

theorem NotedQueue.tell (m : Emitter NotedQueue) (es : List Event) :
    (m.tell es).sink =
      { queue := m.sink.queue.sendAll es, offers := m.sink.offers ++ m.sink.queue.offersOf es } := by
  obtain ⟨settings, queue, offers⟩ := m
  show es.foldl (fun s e => (Sink.send s e).2) (⟨queue, offers⟩ : NotedQueue) = _
  induction es generalizing queue offers with
  | nil => simp [Queue.offersOf]
  | cons e es ih =>
    have hsend : (Sink.send (⟨queue, offers⟩ : NotedQueue) e).2 =
      ⟨(queue.send e).2, offers ++ [⟨e, queue.unread.length⟩]⟩ := rfl
    rw [List.foldl_cons, hsend, ih, Queue.sendAll_cons, Queue.offersOf, List.append_assoc]
    rfl

/-! ## Sessions -/

structure Session where
  panel : Panel Queue
  /-- What the consumer took. -/
  taken : List Event := []
  offers : List Offer := []
  /-- The gestures that succeeded, with the buttons that were given back. -/
  struck : List (Verb × ButtonId) := []

/-- What is done at either end. A wait lists the calls of the panel between one of its polls and
    the next; those that it does not wait for any more come after it. -/
inductive SessionCall
  | panel (c : PanelCall)
  | take (t : Take)
  | wait (meanwhile : List (List PanelCall))
  deriving DecidableEq, Repr

def SessionCall.calls : SessionCall → List PanelCall
  | panel c => [c]
  | take _ => []
  | wait meanwhile => meanwhile.flatten

namespace Session

def queue (s : Session) : Queue := s.panel.emitter.sink

/-- What was taken, followed by what is unread. -/
def stream (s : Session) : List Event := s.taken ++ s.queue.unread

def call (s : Session) (c : PanelCall) : Session :=
  let answer := s.panel.call c
  { s with
    panel := answer.2
    offers := s.offers ++ s.panel.offers c
    struck := s.struck ++ c.struck answer.1 }

def callAll (s : Session) (cs : List PanelCall) : Session := cs.foldl call s

def take (s : Session) : Take → Session
  | .poll => { s with panel := s.panel.poll.2, taken := s.taken ++ s.panel.poll.1.toList }
  | .drain => { s with panel := s.panel.drain.2, taken := s.taken ++ s.panel.drain.1 }

def wait (s : Session) : List (List PanelCall) → Session
  | [] => s.take .poll
  | cs :: later => if s.queue.isEmpty then (s.callAll cs).wait later else (s.take .poll).callAll (cs :: later).flatten

def step (s : Session) : SessionCall → Session
  | .panel c => s.call c
  | .take t => s.take t
  | .wait meanwhile => s.wait meanwhile

def run (s : Session) (cs : List SessionCall) : Session := cs.foldl step s

/-- The session of a panel that has been built of a configuration, after calls of the panel. -/
structure Accounted (c : PanelConfig) (calls : List PanelCall) (s : Session) : Prop where
  settings : s.panel.emitter.settings = c.listener
  capacity : s.queue.capacity = c.queueDepth.toNat
  fits : s.queue.unread.length ≤ c.queueDepth.toNat
  widgets : s.panel.widgets = calls.foldl PanelCall.place c.buttons
  struck : s.struck = strikesOf c.buttons calls
  offered : s.offers.map (·.event) = s.struck.flatMap fun x => c.listener.news x.2 x.1
  bounded : ∀ o ∈ s.offers, o.unread ≤ c.queueDepth.toNat
  inOrder : s.stream = kept c.queueDepth.toNat s.offers

variable {c : PanelConfig} {calls : List PanelCall} {s : Session}

theorem Accounted.start (c : PanelConfig) : Accounted c [] { panel := c.panel } where
  settings := rfl
  capacity := rfl
  fits := Nat.zero_le _
  widgets := rfl
  struck := rfl
  offered := rfl
  bounded o ho := by cases ho
  inOrder := rfl

/-- A gesture on a button tells the queue its news and is recorded. -/
theorem call_gesture {g : Gesture} {w : Widget} (h : addressed? s.panel.widgets g.key = some w) :
    s.call (.gesture g) =
      { s with
        panel := s.panel.after w.id g.verb
        offers := s.offers ++ s.queue.offersOf (s.panel.emitter.settings.news w.id g.verb)
        struck := s.struck ++ [(g.verb, w.id)] } := by
  have hnoted : s.panel.offers (.gesture g) = s.queue.offersOf (s.panel.emitter.settings.news w.id g.verb) := by
    rw [Panel.offers, Panel.call_gesture (p := s.panel.noted) h, Panel.after, NotedQueue.tell]
    rfl
  rw [call, Panel.call_gesture h, hnoted]
  rfl

/-- A call that strikes nothing offers nothing either. -/
theorem call_of_strikes_nil {d : PanelCall} (h : d.strikes s.panel.widgets = []) :
    s.call d = { s with panel := { s.panel with widgets := d.place s.panel.widgets } } := by
  obtain ⟨hpanel, hstruck⟩ := Panel.call_of_strikes_nil (p := s.panel) h
  have hnoted : s.panel.offers d = [] := by
    rw [Panel.offers, (Panel.call_of_strikes_nil (p := s.panel.noted) h).1]
    rfl
  simp only [call, hpanel, hstruck, hnoted, List.append_nil]

/-! ## Every session is accounted for -/

theorem Accounted.call (h : Accounted c calls s) (d : PanelCall) : Accounted c (calls ++ [d]) (s.call d) := by
  have hwidgets : (calls ++ [d]).foldl PanelCall.place c.buttons = d.place s.panel.widgets := by
    rw [List.foldl_append, ← h.widgets]
    rfl
  have hstrikes : strikesOf c.buttons (calls ++ [d]) = s.struck ++ d.strikes s.panel.widgets := by
    rw [strikesOf_concat, ← h.struck, ← h.widgets]
  rcases PanelCall.strikes_cases s.panel.widgets d with hnone | ⟨g, w, rfl, hw, hone⟩
  · rw [call_of_strikes_nil hnone]
    rw [hnone, List.append_nil] at hstrikes
    exact ⟨h.settings, h.capacity, h.fits, hwidgets.symm, hstrikes.symm, h.offered, h.bounded, h.inOrder⟩
  · rw [call_gesture hw]
    let news := c.listener.news w.id g.verb
    have hfits : s.queue.unread.length ≤ s.queue.capacity := h.capacity ▸ h.fits
    have hunread : (s.queue.sendAll news).unread =
        s.queue.unread ++ kept c.queueDepth.toNat (s.queue.offersOf news) := by
      rw [Queue.unread_sendAll_offersOf hfits, h.capacity]
    rw [h.settings]
    have hqueue : (s.panel.after w.id g.verb).emitter.sink = s.queue.sendAll news := by
      rw [Panel.after, h.settings]
      rfl
    refine ⟨h.settings, ?_, ?_, hwidgets.symm, ?_, ?_, ?_, ?_⟩
    · show (s.panel.after w.id g.verb).emitter.sink.capacity = _
      rw [hqueue, Queue.capacity_sendAll, h.capacity]
    · show (s.panel.after w.id g.verb).emitter.sink.unread.length ≤ _
      rw [hqueue, Queue.unread_sendAll hfits, h.capacity]
      exact List.length_take_le _ _
    · rw [hstrikes, hone]
    · rw [List.map_append, h.offered, Queue.map_event_offersOf, List.flatMap_append, List.flatMap_singleton]
    · intro o ho
      rcases List.mem_append.mp ho with ho | ho
      · exact h.bounded o ho
      · exact h.capacity ▸ Queue.unread_le_of_mem_offersOf hfits ho
    · show s.taken ++ (s.panel.after w.id g.verb).emitter.sink.unread = _
      rw [hqueue, hunread, kept_append, ← h.inOrder, stream, List.append_assoc]

theorem Accounted.callAll (h : Accounted c calls s) (ds : List PanelCall) :
    Accounted c (calls ++ ds) (s.callAll ds) := by
  induction ds generalizing calls s with
  | nil => rwa [List.append_nil]
  | cons d ds ih =>
    have hlater := ih (h.call d)
    rwa [List.append_assoc] at hlater

theorem Accounted.take (h : Accounted c calls s) (t : Take) : Accounted c calls (s.take t) := by
  have hstream : (s.take t).stream = s.stream := by
    cases t with
    | poll => exact Delivery.delivered_take ⟨s.queue, s.taken⟩ .poll
    | drain => exact Delivery.delivered_take ⟨s.queue, s.taken⟩ .drain
  cases t with
  | poll =>
    have htail : s.queue.unread.tail.length ≤ s.queue.unread.length := by simp
    exact ⟨h.settings, h.capacity, Nat.le_trans htail h.fits, h.widgets, h.struck, h.offered, h.bounded,
      hstream.trans h.inOrder⟩
  | drain =>
    exact ⟨h.settings, h.capacity, Nat.zero_le _, h.widgets, h.struck, h.offered, h.bounded, hstream.trans h.inOrder⟩

theorem Accounted.wait (h : Accounted c calls s) (meanwhile : List (List PanelCall)) :
    Accounted c (calls ++ meanwhile.flatten) (s.wait meanwhile) := by
  induction meanwhile generalizing calls s with
  | nil =>
    rw [List.flatten_nil, List.append_nil]
    exact h.take .poll
  | cons ds later ih =>
    rw [Session.wait]
    split
    · have hlater := ih (h.callAll ds)
      rwa [List.append_assoc] at hlater
    · exact (h.take .poll).callAll (ds :: later).flatten

theorem Accounted.step (h : Accounted c calls s) (d : SessionCall) : Accounted c (calls ++ d.calls) (s.step d) := by
  cases d with
  | panel d => exact h.call d
  | take t =>
    rw [SessionCall.calls, List.append_nil]
    exact h.take t
  | wait meanwhile => exact h.wait meanwhile

theorem Accounted.run (h : Accounted c calls s) (ds : List SessionCall) :
    Accounted c (calls ++ ds.flatMap SessionCall.calls) (s.run ds) := by
  induction ds generalizing calls s with
  | nil => rwa [List.flatMap_nil, List.append_nil]
  | cons d ds ih =>
    have hlater := ih (h.step d)
    rwa [List.append_assoc] at hlater

/-! ## Offers are only ever added -/

theorem offers_callAll (s : Session) (ds : List PanelCall) : s.offers <+: (s.callAll ds).offers := by
  induction ds generalizing s with
  | nil => exact List.prefix_refl _
  | cons d ds ih => exact (List.prefix_append s.offers (s.panel.offers d)).trans (ih (s.call d))

theorem offers_take (s : Session) (t : Take) : (s.take t).offers = s.offers := by cases t <;> rfl

theorem offers_wait (s : Session) (meanwhile : List (List PanelCall)) : s.offers <+: (s.wait meanwhile).offers := by
  induction meanwhile generalizing s with
  | nil => exact List.prefix_refl _
  | cons ds later ih =>
    rw [wait]
    split
    · exact (s.offers_callAll ds).trans (ih _)
    · rw [← s.offers_take .poll]
      exact (s.take .poll).offers_callAll _

theorem offers_run (s : Session) (ds : List SessionCall) : s.offers <+: (s.run ds).offers := by
  induction ds generalizing s with
  | nil => exact List.prefix_refl _
  | cons d ds ih =>
    have hstep : s.offers <+: (s.step d).offers := by
      cases d with
      | panel d => exact List.prefix_append _ _
      | take t => exact s.offers_take t ▸ List.prefix_refl _
      | wait meanwhile => exact s.offers_wait meanwhile
    exact hstep.trans (ih (s.step d))

end Session

/-- Whether an event is of the one family that the mode stands for. In button mode it is the press
    of one of certain buttons. -/
def Settings.Family (s : Settings) (ids : List ButtonId) (e : Event) : Prop :=
  match s.mode with
  | .button => ∃ id ∈ ids, e = .buttonPressed id
  | .command => e = .command s.command
  | .home => e = .generic "WADAPPS" s.homeValue

theorem Settings.family_of_mem_news {s : Settings} {ids : List ButtonId} {id : ButtonId} (hid : id ∈ ids) {v : Verb}
    {e : Event} (h : e ∈ s.news id v) : s.Family ids e := by
  have htold : e ∈ s.pressNews id ∨ e ∈ s.releaseNews id := by
    cases v with
    | press => exact Or.inl h
    | release => exact Or.inr h
    | click => exact List.mem_append.mp h
  rcases s with ⟨_ | _ | _, command, homeValue⟩
  · rcases htold with h | h <;> exact ⟨id, hid, List.mem_singleton.mp h⟩
  · rcases htold with h | h
    · exact List.mem_singleton.mp h
    · cases h
  · rcases htold with h | h
    · exact List.mem_singleton.mp h
    · cases h

namespace Session

theorem stream_accounted {c : PanelConfig} {p : Panel Queue} (hb : c.build = .ok p) (cs : List SessionCall) :
    let s := ({ panel := p } : Session).run cs
    let depth := c.queueDepth.toNat
    s.struck = strikesOf c.buttons (cs.flatMap SessionCall.calls) ∧
    s.offers.map (·.event) = (s.struck.flatMap fun x => c.listener.news x.2 x.1) ∧
    (∀ o ∈ s.offers, o.unread ≤ depth) ∧
    s.taken ++ s.panel.emitter.sink.unread = (s.offers.filter (·.unread ≠ depth)).map (·.event) ∧
    (∀ more, ∃ later, (s.run more).offers = s.offers ++ later ∧
      (s.run more).stream = s.stream ++ (later.filter (·.unread ≠ depth)).map (·.event)) ∧
    ∀ e ∈ s.stream, c.listener.Family (s.struck.map (·.2)) e := by
  obtain rfl := PanelConfig.eq_panel_of_build hb
  intro s depth
  have h : Accounted c ([] ++ cs.flatMap SessionCall.calls) s := (Accounted.start c).run cs
  refine ⟨h.struck, h.offered, h.bounded, h.inOrder, fun more => ?_, fun e he => ?_⟩
  · obtain ⟨later, hlater⟩ := s.offers_run more
    refine ⟨later, hlater.symm, ?_⟩
    rw [(h.run more).inOrder, ← hlater, kept_append, ← h.inOrder]
    rfl
  · rw [h.inOrder] at he
    obtain ⟨o, ho, rfl⟩ := List.mem_map.mp he
    have hoffered : o.event ∈ s.offers.map (·.event) := List.mem_map_of_mem (List.mem_filter.mp ho).1
    rw [h.offered] at hoffered
    obtain ⟨x, hx, hnews⟩ := List.mem_flatMap.mp hoffered
    exact Settings.family_of_mem_news (List.mem_map_of_mem hx) hnews

/-- There is room for one event, so the second one of the click is dropped. A wait polls twice in
    vain, before and after a gesture on no button, and then takes the press of a button that was
    placed meanwhile; the release comes after it. -/
theorem stream_accounted_with_room_for_one :
    let c : PanelConfig := { listener := { mode := .button }, queueDepth := 1 }
    let cs : List SessionCall :=
      [.panel (.gesture ⟨.click, "USER"⟩), .take .poll, .panel (.add ⟨.ofNat 5, "BACK"⟩),
        .wait [[.gesture ⟨.press, "MENU"⟩], [.gesture ⟨.press, "BACK"⟩], [.gesture ⟨.release, "5"⟩]]]
    let s := ({ panel := c.panel } : Session).run cs
    c.build = .ok c.panel ∧
      s.struck = [(.click, .ofNat 0), (.press, .ofNat 5), (.release, .ofNat 5)] ∧
      s.taken = [.buttonPressed (.ofNat 0), .buttonPressed (.ofNat 5)] ∧
      s.offers = [⟨.buttonPressed (.ofNat 0), 0⟩, ⟨.buttonPressed (.ofNat 0), 1⟩, ⟨.buttonPressed (.ofNat 5), 0⟩,
        ⟨.buttonPressed (.ofNat 5), 0⟩] ∧
      s.taken ++ s.panel.emitter.sink.unread =
        [.buttonPressed (.ofNat 0), .buttonPressed (.ofNat 5), .buttonPressed (.ofNat 5)] := by
  intro c cs s
  have hb : c.build = .ok c.panel := PanelConfig.build_of_valid (by decide) (by decide)
  obtain ⟨hstruck, -, -, hstream, -, -⟩ := stream_accounted hb cs
  have hoffers : s.offers = [⟨.buttonPressed (.ofNat 0), 0⟩, ⟨.buttonPressed (.ofNat 0), 1⟩,
      ⟨.buttonPressed (.ofNat 5), 0⟩, ⟨.buttonPressed (.ofNat 5), 0⟩] := by decide +kernel
  have hkept : (s.offers.filter (·.unread ≠ c.queueDepth.toNat)).map (·.event) =
      [.buttonPressed (.ofNat 0), .buttonPressed (.ofNat 5), .buttonPressed (.ofNat 5)] := by
    rw [hoffers]
    decide +kernel
  have hstrikes : strikesOf c.buttons (cs.flatMap SessionCall.calls) =
      [(.click, .ofNat 0), (.press, .ofNat 5), (.release, .ofNat 5)] := by decide +kernel
  have htaken : s.taken = [.buttonPressed (.ofNat 0), .buttonPressed (.ofNat 5)] := by decide +kernel
  -- two spellings of the session are compared here, which must not run it
  with_reducible exact ⟨hb, hstruck.trans hstrikes, htaken, hoffers, hstream.trans hkept⟩

end Session

end ButtonPanel
