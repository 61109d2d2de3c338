/-
  ButtonPanel.Proofs.Panel.Watch — what can be seen of a session at its two ends. A call of the
  panel shows its answer, and the buttons on the panel and those held down after it (`Sight`). The
  consumer sees the events that a poll or a drain gives it, and how much is unread.

  What a call does is one equation (`Panel.call_eq`): its answer, the buttons and those held down
  are functions of the buttons and those held down before, and the emitter is told the news of
  what was struck. So the settings and the sink do not enter what the panel shows.

  `calls_ignore_downstream`: over two panels with the same buttons, of which the same are held
  down, two sessions with the same calls of the panel show the same of it, whatever their
  settings and queues are and whatever their consumers do in between. What they show is what the
  calls alone would show (`sights_watch`).
-/

import ButtonPanel.Proofs.Panel.Session

namespace ButtonPanel

/-! ## What a call does -/

namespace PanelCall

/-- The answer of a panel with certain buttons, some of them held down. -/
def answer (ws : List Widget) (held : ButtonSet 256) : PanelCall → Except PanelError PanelAnswer
  | .add w => match w.conflict? ws with
    | some e => .error e
    | none => .ok .placed
  | .gesture g => match addressed? ws g.key with
    | some w => .ok (.struck w.id)
    | none => .error (.unknownButton g.key)
  | .isHeld key => match addressed? ws key with
    | some w => .ok (.held (held.contains w.id))
    | none => .error (.unknownButton key)
  | .resolve key => match addressed? ws key with
    | some w => .ok (.found w)
    | none => .error (.unknownButton key)

def hold (ws : List Widget) (held : ButtonSet 256) : PanelCall → ButtonSet 256
  | .gesture g => match addressed? ws g.key with
    | some w => held.put w.id (g.verb = .press)
    | none => held
  | _ => held

def news (ws : List Widget) (s : Settings) (c : PanelCall) : List Event :=
  (c.strikes ws).flatMap fun x => s.news x.2 x.1

end PanelCall

namespace Panel

variable {σ : Type} [Sink σ]

theorem call_eq (p : Panel σ) (c : PanelCall) :
    p.call c = (c.answer p.widgets p.held,
      { widgets := c.place p.widgets
        held := c.hold p.widgets p.held
        emitter := p.emitter.tell (c.news p.widgets p.emitter.settings) }) := by
  cases c with
  | add w =>
    simp only [call, add, PanelCall.answer, PanelCall.place]
    cases w.conflict? p.widgets <;> rfl
  | gesture g =>
    cases h : addressed? p.widgets g.key with
    | none =>
      simp only [call, Gesture.apply_of_none h, PanelCall.answer, PanelCall.hold, PanelCall.news, PanelCall.strikes, h]
      rfl
    | some w =>
      rw [call_gesture h]
      simp only [PanelCall.answer, PanelCall.hold, PanelCall.news, PanelCall.strikes, h, Option.map_some,
        Option.toList_some, List.flatMap_singleton]
      rfl
  | isHeld key =>
    simp only [call, isHeld, resolve_eq, PanelCall.answer]
    cases addressed? p.widgets key <;> rfl
  | resolve key =>
    simp only [call, resolve_eq, PanelCall.answer]
    cases addressed? p.widgets key <;> rfl

end Panel

/-! ## What is seen -/

structure Sight where
  answer : Except PanelError PanelAnswer
  /-- The buttons on the panel after the call. -/
  widgets : List Widget
  /-- The buttons that are held down after the call. -/
  held : ButtonSet 256
  deriving DecidableEq

namespace Panel

variable {σ τ : Type} [Sink σ] [Sink τ]

def sight (p : Panel σ) (c : PanelCall) : Sight :=
  let after := p.call c
  ⟨after.1, after.2.widgets, after.2.held⟩

/-- What calls show, one after the other. -/
def sights (p : Panel σ) : List PanelCall → List Sight
  | [] => []
  | c :: cs => p.sight c :: (p.call c).2.sights cs

theorem sight_eq (p : Panel σ) (c : PanelCall) :
    p.sight c = ⟨c.answer p.widgets p.held, c.place p.widgets, c.hold p.widgets p.held⟩ := by
  rw [sight, call_eq]

/-- What a panel shows does not depend on its settings, nor on its sink. -/
theorem sights_congr {p : Panel σ} {q : Panel τ} (hwidgets : p.widgets = q.widgets) (hheld : p.held = q.held)
    (cs : List PanelCall) : p.sights cs = q.sights cs := by
  induction cs generalizing p q with
  | nil => rfl
  | cons c cs ih =>
    have hsight : p.sight c = q.sight c := by rw [sight_eq, sight_eq, hwidgets, hheld]
    have hlater : (p.call c).2.sights cs = (q.call c).2.sights cs := by
      refine ih ?_ ?_
      · rw [call_eq, call_eq, hwidgets]
      · rw [call_eq, call_eq, hwidgets, hheld]
    rw [sights, sights, hsight, hlater]

theorem sights_append (p : Panel σ) (cs ds : List PanelCall) :
    p.sights (cs ++ ds) = p.sights cs ++ (cs.foldl (fun p c => (p.call c).2) p).sights ds := by
  induction cs generalizing p with
  | nil => rfl
  | cons c cs ih =>
    rw [List.cons_append, sights, sights, ih, List.foldl_cons, List.cons_append]

end Panel

/-- A move in a session: a call at either end, or a question to the consumer of how much is
    unread, which changes nothing. -/
inductive Move
  | act (c : SessionCall)
  | size
  | isEmpty
  deriving DecidableEq, Repr

inductive Seen
  | panel (s : Sight)
  | polled (e? : Option Event)
  | drained (es : List Event)
  | size (n : Nat)
  | isEmpty (b : Bool)
  deriving DecidableEq

def Seen.sight? : Seen → Option Sight
  | panel s => some s
  | _ => none

def Move.calls : Move → List PanelCall
  | act c => c.calls
  | size | isEmpty => []

namespace Session

def seeCalls (s : Session) (cs : List PanelCall) : List Seen := (s.panel.sights cs).map .panel

/-- What is seen while the consumer waits: its polls that find nothing do not show. -/
def seeWait (s : Session) : List (List PanelCall) → List Seen
  | [] => [.polled s.queue.poll.1]
  | cs :: later =>
    if s.queue.isEmpty then s.seeCalls cs ++ (s.callAll cs).seeWait later
    else .polled s.queue.poll.1 :: (s.take .poll).seeCalls (cs :: later).flatten

def see (s : Session) : Move → List Seen
  | .act (.panel c) => s.seeCalls [c]
  | .act (.take .poll) => [.polled s.queue.poll.1]
  | .act (.take .drain) => [.drained s.queue.drain.1]
  | .act (.wait meanwhile) => s.seeWait meanwhile
  | .size => [.size s.queue.size]
  | .isEmpty => [.isEmpty s.queue.isEmpty]

def move (s : Session) : Move → Session
  | .act c => s.step c
  | .size | .isEmpty => s

def moves (s : Session) (ms : List Move) : Session := ms.foldl move s

def watch (s : Session) : List Move → List Seen
  | [] => []
  | m :: ms => s.see m ++ (s.move m).watch ms

/-! ## What is seen at the panel -/

theorem panel_callAll (s : Session) (cs : List PanelCall) :
    (s.callAll cs).panel = cs.foldl (fun p c => (p.call c).2) s.panel := by
  induction cs generalizing s with
  | nil => rfl
  | cons c cs ih => exact ih (s.call c)

theorem filterMap_seeCalls (s : Session) (cs : List PanelCall) :
    (s.seeCalls cs).filterMap Seen.sight? = s.panel.sights cs := by
  have hall : ∀ x : Sight, (Seen.sight? ∘ Seen.panel) x = some x := fun x => rfl
  rw [seeCalls, List.filterMap_map, List.filterMap_congr fun x _ => hall x, List.filterMap_some]

/-- Calls show the same after the consumer has taken events. -/
theorem sights_take (s : Session) (t : Take) (cs : List PanelCall) :
    (s.take t).panel.sights cs = s.panel.sights cs := by
  have hwidgets : (s.take t).panel.widgets = s.panel.widgets := by cases t <;> rfl
  have hheld : (s.take t).panel.held = s.panel.held := by cases t <;> rfl
  exact Panel.sights_congr hwidgets hheld cs

theorem sights_wait (s : Session) (meanwhile : List (List PanelCall)) (cs : List PanelCall) :
    (s.seeWait meanwhile).filterMap Seen.sight? ++ (s.wait meanwhile).panel.sights cs =
      s.panel.sights (meanwhile.flatten ++ cs) := by
  induction meanwhile generalizing s with
  | nil => exact s.sights_take .poll cs
  | cons ds later ih =>
    rw [seeWait, wait]
    by_cases he : s.queue.isEmpty = true
    · rw [if_pos he, if_pos he, List.filterMap_append, filterMap_seeCalls, List.append_assoc, ih, panel_callAll,
        ← Panel.sights_append, List.flatten_cons, List.append_assoc]
    · rw [if_neg he, if_neg he, List.filterMap_cons_none rfl, filterMap_seeCalls, panel_callAll,
        ← Panel.sights_append, sights_take]

theorem sights_move (s : Session) (m : Move) (cs : List PanelCall) :
    (s.see m).filterMap Seen.sight? ++ (s.move m).panel.sights cs = s.panel.sights (m.calls ++ cs) := by
  cases m with
  | act c =>
    cases c with
    | panel c =>
      show (s.seeCalls [c]).filterMap Seen.sight? ++ (s.panel.call c).2.sights cs = _
      rw [filterMap_seeCalls]
      rfl
    | take t =>
      have hsilent : (s.see (.act (.take t))).filterMap Seen.sight? = [] := by cases t <;> rfl
      rw [hsilent]
      exact s.sights_take t cs
    | wait meanwhile => exact s.sights_wait meanwhile cs
  | size => rfl
  | isEmpty => rfl

/-- What is seen of the panel is what its calls alone show. -/
theorem sights_watch (s : Session) (ms : List Move) :
    (s.watch ms).filterMap Seen.sight? = s.panel.sights (ms.flatMap Move.calls) := by
  induction ms generalizing s with
  | nil => rfl
  | cons m ms ih => rw [watch, List.filterMap_append, ih, sights_move, List.flatMap_cons]

theorem calls_ignore_downstream {p q : Panel Queue} (hwidgets : p.widgets = q.widgets) (hheld : p.held = q.held)
    {ms ns : List Move} (hcalls : ms.flatMap Move.calls = ns.flatMap Move.calls) :
    let s : Session := { panel := p }
    let t : Session := { panel := q }
    (s.watch ms).filterMap Seen.sight? = (t.watch ns).filterMap Seen.sight? ∧
      (s.watch ms).filterMap Seen.sight? = p.sights (ms.flatMap Move.calls) := by
  intro s t
  have hs : (s.watch ms).filterMap Seen.sight? = p.sights (ms.flatMap Move.calls) := s.sights_watch ms
  have ht : (t.watch ns).filterMap Seen.sight? = q.sights (ns.flatMap Move.calls) := t.sights_watch ns
  refine ⟨?_, hs⟩
  rw [hs, ht, hcalls]
  exact Panel.sights_congr hwidgets hheld _

/-- Two panels with one button are built for different modes and depths. One queue is never read
    and is full after the first press. The consumer of the other takes all there is, waiting
    while the button is clicked and another one is placed. Their panels show the same. -/
theorem calls_ignore_downstream_full_and_empty :
    let c : PanelConfig := { listener := { mode := .button }, queueDepth := 1 }
    let d : PanelConfig := { listener := { mode := .home }, queueDepth := 4 }
    let click : PanelCall := .gesture ⟨.click, "USER"⟩
    let place : PanelCall := .add ⟨.ofNat 5, "BACK"⟩
    let press : PanelCall := .gesture ⟨.press, "BACK"⟩
    let ms : List Move := [.act (.panel click), .act (.panel place), .size, .act (.panel press),
      .act (.panel (.isHeld "5"))]
    let ns : List Move := [.act (.wait [[click], [place]]), .isEmpty, .act (.panel press), .act (.take .drain),
      .act (.panel (.isHeld "5"))]
    let s : Session := { panel := c.panel }
    let t : Session := { panel := d.panel }
    c.build = .ok c.panel ∧ d.build = .ok d.panel ∧ c.panel.widgets = d.panel.widgets ∧
      ms.flatMap Move.calls = ns.flatMap Move.calls ∧
      (s.moves ms).queue.unread = [.buttonPressed (.ofNat 0)] ∧ (t.moves ns).queue.unread = [] ∧
      (s.watch ms).filterMap Seen.sight? = (t.watch ns).filterMap Seen.sight? ∧
      (((t.watch ns).filterMap Seen.sight?).map (·.answer)).getLast? = some (.ok (.held true)) := by
  intro c d click place press ms ns s t
  have hc : c.build = .ok c.panel := PanelConfig.build_of_valid (by decide) (by decide)
  have hd : d.build = .ok d.panel := PanelConfig.build_of_valid (by decide) (by decide)
  have hcalls : ms.flatMap Move.calls = ns.flatMap Move.calls := rfl
  obtain ⟨hsame, -⟩ := calls_ignore_downstream (p := c.panel) (q := d.panel) rfl rfl hcalls
  have hfull : (s.moves ms).queue.unread = [.buttonPressed (.ofNat 0)] := by decide +kernel
  have hempty : (t.moves ns).queue.unread = [] := by decide +kernel
  have hheld : (((t.watch ns).filterMap Seen.sight?).map (·.answer)).getLast? = some (.ok (.held true)) := by
    decide +kernel
  exact ⟨hc, hd, rfl, hcalls, hfull, hempty, hsame, hheld⟩

end Session

end ButtonPanel
