/-
  ButtonPanel.Proofs.Emitter.Agreement — a front panel and a board with the same settings, struck
  alike over sinks alike. They differ in one event: what the board tells as a release the panel tells
  as another press (`Event.asPress`, `map_boardEvent?`).

  A recorder and a queue do not look at the events that they are offered: how they answer follows from
  how many they hold, and from what was done to them (`Alike`). So the two sides stay in step: whatever
  was offered and answered on the board was offered and answered on the panel, with releases as
  presses (`Mirrors`). Each turn keeps this (`Mirrors.turn`), so every run does (`Mirrors.turns`).

  `panel_mirrors_board`: settings that were built field by field have in each field what was set
  last, and a panel and a board that are built from them agree in all runs of strokes over two equal
  recorders that are cleared and told to reject at the same times, and over two equal queues whose
  consumers take events at the same times. The journals that show it change nothing.
-/

import ButtonPanel.Proofs.Emitter.Strokes

namespace ButtonPanel

/-! ## Building settings -/

namespace Setting

def mode? : Setting → Option Mode
  | mode m => some m
  | _ => none

def command? : Setting → Option Command
  | command c => some c
  | _ => none

def homeValue? : Setting → Option Int32
  | homeValue v => some v
  | _ => none

end Setting

namespace Settings

def setAll (s : Settings) (xs : List Setting) : Settings := xs.foldl set s

/-- A field has the value it was set to last, or the one it had. -/
theorem field_setAll {β : Type} {field : Settings → β} {pick : Setting → Option β}
    (h : ∀ s x, field (s.set x) = (pick x).getD (field s)) (s : Settings) (xs : List Setting) :
    field (s.setAll xs) = (xs.filterMap pick).getLast?.getD (field s) := by
  induction xs generalizing s with
  | nil => rfl
  | cons x xs ih =>
    show field ((s.set x).setAll xs) = _
    rw [ih, h]
    cases hx : pick x with
    | none =>
      rw [List.filterMap_cons_none hx]
      rfl
    | some v =>
      rw [List.filterMap_cons_some hx, List.getLast?_cons]
      rfl

end Settings

/-! ## One stroke -/

/-- What a stroke is for a button of the board. -/
def Stroke.phase : Stroke → Phase
  | press => .press
  | release => .release

/-- The event with a release told as another press. -/
def Event.asPress : Event → Event
  | buttonReleased id => buttonPressed id
  | e => e

theorem map_boardEvent? (s : Settings) (id : ButtonId) (stroke : Stroke) :
    (s.boardEvent? id stroke.phase).map Event.asPress = s.panelEvent? id stroke := by
  obtain ⟨mode, command, homeValue⟩ := s
  cases mode <;> cases stroke <;> rfl

def Emitter.report {σ : Type} [Sink σ] (m : Emitter σ) (id : ButtonId) (stroke : Stroke) : Emitter σ :=
  (m.advance id stroke.phase).2

theorem Journal.unjournaled_report {σ : Type} [Sink σ] (m : Emitter (Journal σ)) (id : ButtonId) (stroke : Stroke) :
    (m.report id stroke).unjournaled = m.unjournaled.report id stroke := unjournaled_offer m _

/-! ## Sinks that do not look at events -/

/-- States of a sink that answer alike, whatever each of them is offered, and that stay so. -/
structure Alike {σ α : Type} [Sink σ] (R : σ → σ → Prop) (act : σ → α → σ) : Prop where
  send : ∀ {s t}, R s t → ∀ e f, (Sink.send s e).1 = (Sink.send t f).1 ∧ R (Sink.send s e).2 (Sink.send t f).2
  act : ∀ {s t}, R s t → ∀ a, R (act s a) (act t a)

namespace Recorder

inductive Act
  | reject (on : Bool)
  | clear
  deriving DecidableEq, Repr

def act (r : Recorder) : Act → Recorder
  | .reject on => r.setRejecting on
  | .clear => r.clear

structure Level (r t : Recorder) : Prop where
  capacity : r.capacity = t.capacity
  held : r.events.length = t.events.length
  rejecting : r.rejecting = t.rejecting
  attempts : r.attempts = t.attempts

theorem Level.refl (r : Recorder) : r.Level r := ⟨rfl, rfl, rfl, rfl⟩

theorem alike_level : Alike Level act where
  send {r t} h e f := by
    obtain ⟨hcapacity, hheld, hrejecting, hattempts⟩ := h
    simp only [Sink.send, send, hcapacity, hheld, hrejecting, hattempts]
    split
    · exact ⟨rfl, rfl, hheld, rfl, rfl⟩
    · split
      · exact ⟨rfl, rfl, by simp [hheld], rfl, rfl⟩
      · exact ⟨rfl, rfl, hheld, rfl, rfl⟩
  act {r t} h a := by
    cases a with
    | reject on => exact ⟨h.capacity, h.held, rfl, h.attempts⟩
    | clear => exact ⟨h.capacity, rfl, h.rejecting, rfl⟩

end Recorder

namespace Delivery

structure Level (d e : Delivery) : Prop where
  capacity : d.queue.capacity = e.queue.capacity
  unread : d.queue.unread.length = e.queue.unread.length

theorem Level.refl (d : Delivery) : d.Level d := ⟨rfl, rfl⟩

theorem alike_level : Alike Level take where
  send {d e} h x y := by
    obtain ⟨hcapacity, hunread⟩ := h
    simp only [Sink.send, send, Queue.send, hcapacity, hunread]
    split
    · exact ⟨rfl, hcapacity, hunread⟩
    · exact ⟨rfl, rfl, by simp [hunread]⟩
  act {d e} h t := by
    cases t with
    | poll => exact ⟨h.capacity, by simp [take, Queue.poll, h.unread]⟩
    | drain => exact ⟨h.capacity, rfl⟩

end Delivery

/-! ## Both sides in step -/

structure Mirrors {σ : Type} (R : σ → σ → Prop) (s : Settings) (board panel : Emitter (Journal σ)) : Prop where
  settings : board.settings = s ∧ panel.settings = s
  sinks : R board.sink.sink panel.sink.sink
  entries : panel.sink.entries = board.sink.entries.map fun x => (x.1.asPress, x.2)

namespace Mirrors

variable {σ α : Type} {R : σ → σ → Prop} {s : Settings} {board panel : Emitter (Journal σ)}

theorem replies (h : Mirrors R s board panel) : board.sink.entries.map (·.2) = panel.sink.entries.map (·.2) := by
  rw [h.entries, List.map_map]
  rfl

theorem offered (h : Mirrors R s board panel) : board.sink.offered.map Event.asPress = panel.sink.offered := by
  simp only [Journal.offered, h.entries, List.map_map]
  rfl

theorem accepted (h : Mirrors R s board panel) : board.sink.accepted.map Event.asPress = panel.sink.accepted := by
  simp only [Journal.accepted, h.entries, List.filter_map, List.map_map]
  rfl

theorem start (s : Settings) {sink : σ} (h : R sink sink) :
    Mirrors R s { settings := s, sink := { sink } } { settings := s, sink := { sink } } where
  settings := ⟨rfl, rfl⟩
  sinks := h
  entries := rfl

variable [Sink σ] {act : σ → α → σ}

theorem offer (hR : Alike R act) (h : Mirrors R s board panel) (e? : Option Event) :
    Mirrors R s (board.offer e?).2 (panel.offer (e?.map Event.asPress)).2 := by
  cases e? with
  | none => exact h
  | some e =>
    obtain ⟨hanswer, hnext⟩ := hR.send h.sinks e e.asPress
    refine ⟨h.settings, hnext, ?_⟩
    show panel.sink.entries ++ [(e.asPress, _)] = (board.sink.entries ++ [(e, _)]).map _
    rw [List.map_append, ← h.entries, ← hanswer]
    rfl

theorem turn (hR : Alike R act) (h : Mirrors R s board panel) (t : StrokeTurn α) :
    Mirrors R s (board.turn Emitter.report (Journal.act act) t) (panel.turn Emitter.strike (Journal.act act) t) := by
  cases t with
  | stroke id stroke =>
    show Mirrors R s (board.offer (board.settings.boardEvent? id stroke.phase)).2
      (panel.offer (panel.settings.panelEvent? id stroke)).2
    rw [h.settings.1, h.settings.2, ← map_boardEvent?]
    exact h.offer hR _
  | outside a => exact ⟨h.settings, hR.act h.sinks a, h.entries⟩

theorem turns (hR : Alike R act) (h : Mirrors R s board panel) (ts : List (StrokeTurn α)) :
    Mirrors R s (board.turns Emitter.report (Journal.act act) ts) (panel.turns Emitter.strike (Journal.act act) ts) := by
  induction ts generalizing board panel with
  | nil => exact h
  | cons t ts ih => exact ih (h.turn hR t)

end Mirrors

/-- The two sides have the same settings, were offered equally many events and got the same answers,
    and what was accepted differs at most in that a release on the board is a press on the panel. -/
structure Agrees {σ : Type} (s : Settings) (board panel : Emitter (Journal σ)) : Prop where
  settings : board.settings = s ∧ panel.settings = s
  attempts : board.sink.offered.length = panel.sink.offered.length
  replies : board.sink.entries.map (·.2) = panel.sink.entries.map (·.2)
  accepted : board.sink.accepted.map Event.asPress = panel.sink.accepted

theorem Mirrors.agrees {σ : Type} {R : σ → σ → Prop} {s : Settings} {board panel : Emitter (Journal σ)}
    (h : Mirrors R s board panel) : Agrees s board panel where
  settings := h.settings
  attempts := by rw [← h.offered, List.length_map]
  replies := h.replies
  accepted := h.accepted

theorem panel_mirrors_board (s : Settings) (xs : List Setting) :
    let t := s.setAll xs
    (t.mode = (xs.filterMap Setting.mode?).getLast?.getD s.mode ∧
      t.command = (xs.filterMap Setting.command?).getLast?.getD s.command ∧
      t.homeValue = (xs.filterMap Setting.homeValue?).getLast?.getD s.homeValue) ∧
    (∀ (sink : Recorder) (ts : List (StrokeTurn Recorder.Act)),
      let bare : Emitter Recorder := { settings := t, sink }
      let m : Emitter (Journal Recorder) := { settings := t, sink := { sink } }
      let board := m.turns Emitter.report (Journal.act Recorder.act) ts
      let panel := m.turns Emitter.strike (Journal.act Recorder.act) ts
      Agrees t board panel ∧ board.sink.sink.attempts = panel.sink.sink.attempts ∧
        board.unjournaled = bare.turns Emitter.report Recorder.act ts ∧
        panel.unjournaled = bare.turns Emitter.strike Recorder.act ts) ∧
    ∀ (queue : Queue) (ts : List (StrokeTurn Take)),
      let bare : Emitter Delivery := { settings := t, sink := { queue } }
      let m : Emitter (Journal Delivery) := { settings := t, sink := { sink := { queue } } }
      let board := m.turns Emitter.report (Journal.act Delivery.take) ts
      let panel := m.turns Emitter.strike (Journal.act Delivery.take) ts
      Agrees t board panel ∧
        board.unjournaled = bare.turns Emitter.report Delivery.take ts ∧
        panel.unjournaled = bare.turns Emitter.strike Delivery.take ts := by
  intro t
  refine ⟨⟨?_, ?_, ?_⟩, fun sink ts => ?_, fun queue ts => ?_⟩
  · exact Settings.field_setAll (fun s x => by cases x <;> rfl) s xs
  · exact Settings.field_setAll (fun s x => by cases x <;> rfl) s xs
  · exact Settings.field_setAll (fun s x => by cases x <;> rfl) s xs
  · have h := (Mirrors.start t (Recorder.Level.refl sink)).turns Recorder.alike_level ts
    exact ⟨h.agrees, h.sinks.attempts, Journal.unjournaled_turns Journal.unjournaled_report _ _ ts,
      Journal.unjournaled_turns Journal.unjournaled_strike _ _ ts⟩
  · have h := (Mirrors.start t (Delivery.Level.refl { queue })).turns Delivery.alike_level ts
    exact ⟨h.agrees, Journal.unjournaled_turns Journal.unjournaled_report _ _ ts,
      Journal.unjournaled_turns Journal.unjournaled_strike _ _ ts⟩

example :
    let m : Emitter (Journal Recorder) := { settings := { mode := .button }, sink := { sink := { capacity := 2 } } }
    let ts : List (StrokeTurn Recorder.Act) :=
      [.stroke ⟨4⟩ .press, .outside (.reject true), .stroke ⟨4⟩ .release, .outside (.reject false), .stroke ⟨4⟩ .release]
    (m.turns Emitter.report (Journal.act Recorder.act) ts).sink.accepted = [.buttonPressed ⟨4⟩, .buttonReleased ⟨4⟩] ∧
      (m.turns Emitter.strike (Journal.act Recorder.act) ts).sink.accepted =
        [.buttonPressed ⟨4⟩, .buttonPressed ⟨4⟩] := by decide

end ButtonPanel
