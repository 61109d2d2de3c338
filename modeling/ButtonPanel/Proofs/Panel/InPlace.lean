/-
  ButtonPanel.Proofs.Panel.InPlace — the calls of a panel as changes of one panel that stays where
  it is. What such a call has changed stays changed, also if the call goes on to fail: a click that
  could not release its button would leave it pressed.

  `on_inPlace`: in place a call gives the answer of `Panel.call` and leaves the panel that
  `Panel.call` gives with it.
-/

import ButtonPanel.Proofs.Panel.Session

namespace ButtonPanel

namespace Panel

/-- A call of a panel in place, which may fail on the way. -/
abbrev InPlace (σ α : Type) := ExceptT PanelError (StateM (Panel σ)) α

namespace InPlace

variable {σ α β : Type}

def on (m : InPlace σ α) (p : Panel σ) : Except PanelError α × Panel σ := (m.run.run p).run

def ask (question : Panel σ → Except PanelError α) : InPlace σ α := do
  match question (← get) with
  | .ok a => return a
  | .error e => throw e

def add (w : Widget) : InPlace σ Unit := do
  match w.conflict? (← get).widgets with
  | some e => throw e
  | none => modify fun p => { p with widgets := p.widgets ++ [w] }

variable [Sink σ]

/-- A stroke on the button that a key addresses: it is held down or let go, and then the emitter hears of it. -/
def strike (key : String) (stroke : Stroke) : InPlace σ ButtonId := do
  let w ← ask (·.resolve key)
  modify fun p => { p with held := p.held.put w.id (stroke = .press) }
  modify fun p => { p with emitter := p.emitter.strike w.id stroke }
  return w.id

def press (key : String) : InPlace σ ButtonId := strike key .press

def release (key : String) : InPlace σ ButtonId := strike key .release

/-- A press and then a release, each of what the key addresses at that time. -/
def click (key : String) : InPlace σ ButtonId := do
  let _ ← press key
  release key

def gesture (g : Gesture) : InPlace σ ButtonId :=
  match g.verb with
  | .press => press g.key
  | .release => release g.key
  | .click => click g.key

end InPlace

end Panel

def PanelCall.inPlace {σ : Type} [Sink σ] : PanelCall → Panel.InPlace σ PanelAnswer
  | .add w => do
    Panel.InPlace.add w
    return .placed
  | .gesture g => return .struck (← Panel.InPlace.gesture g)
  | .isHeld key => return .held (← Panel.InPlace.ask (·.isHeld key))
  | .resolve key => return .found (← Panel.InPlace.ask (·.resolve key))

namespace Panel.InPlace

variable {σ α β : Type}

/-! ## What a call leaves -/

/-- A call that fails ends there, with the panel as it is then. -/
theorem on_bind (m : InPlace σ α) (f : α → InPlace σ β) (p : Panel σ) :
    (m >>= f).on p = match m.on p with
      | (.ok a, q) => (f a).on q
      | (.error e, q) => (.error e, q) := by
  simp only [on, ExceptT.run_bind, StateT.run_bind, Id.run_bind]
  rcases (m.run.run p).run with ⟨e | a, q⟩ <;> rfl

/-- A sequence succeeds exactly if each part does, the second on the panel that the first left. -/
theorem on_bind_ok_iff {m : InPlace σ α} {f : α → InPlace σ β} {p r : Panel σ} {b : β} :
    (m >>= f).on p = (.ok b, r) ↔ ∃ a q, m.on p = (.ok a, q) ∧ (f a).on q = (.ok b, r) := by
  rw [on_bind]
  rcases m.on p with ⟨e | a, q⟩ <;> simp

theorem on_ask (question : Panel σ → Except PanelError α) (p : Panel σ) : (ask question).on p = (question p, p) := by
  simp only [ask, on_bind]
  show (match question p with | .ok a => (pure a : InPlace σ α) | .error e => throw e).on p = _
  cases question p <;> rfl

theorem on_add (w : Widget) (p : Panel σ) :
    (add w).on p = match p.add w with
      | .ok q => (.ok (), q)
      | .error e => (.error e, p) := by
  unfold Panel.add
  show (match w.conflict? p.widgets with
    | some e => throw e
    | none => modify fun p => { p with widgets := p.widgets ++ [w] } : InPlace σ Unit).on p = _
  cases w.conflict? p.widgets <;> rfl

variable [Sink σ]

theorem on_strike (key : String) (stroke : Stroke) (p : Panel σ) :
    (strike key stroke).on p = match addressed? p.widgets key with
      | some w => (.ok w.id, p.strike w.id stroke)
      | none => (.error (.unknownButton key), p) := by
  rw [strike, on_bind, on_ask, resolve_eq]
  cases addressed? p.widgets key <;> rfl

theorem on_gesture (g : Gesture) (p : Panel σ) :
    (gesture g).on p = match addressed? p.widgets g.key with
      | some w => (.ok w.id, p.after w.id g.verb)
      | none => (.error (.unknownButton g.key), p) := by
  obtain ⟨verb, key⟩ := g
  cases verb with
  | press =>
    refine (on_strike key .press p).trans ?_
    simp only [strike_press]
  | release =>
    refine (on_strike key .release p).trans ?_
    simp only [strike_release]
  | click =>
    show (click key).on p = _
    rw [click, on_bind, press, on_strike]
    cases h : addressed? p.widgets key with
    | none => rfl
    | some w =>
      -- the press leaves the buttons as they are, so the key addresses the same one again
      have hsame : addressed? (p.strike w.id .press).widgets key = some w := h
      show (release key).on (p.strike w.id .press) = _
      rw [release, on_strike, hsame]
      simp only [strike_release, strike_press, after_press_release]

/-- In place a call does what the panel does to which it is given. -/
theorem on_inPlace (c : PanelCall) (p : Panel σ) : c.inPlace.on p = p.call c := by
  cases c with
  | add w =>
    rw [PanelCall.inPlace, on_bind, on_add, Panel.call]
    cases p.add w <;> rfl
  | gesture g =>
    rw [PanelCall.inPlace, on_bind, on_gesture]
    cases h : addressed? p.widgets g.key with
    | none =>
      rw [Panel.call, Gesture.apply_of_none h]
    | some w =>
      rw [Panel.call_gesture h]
      rfl
  | isHeld key =>
    rw [PanelCall.inPlace, on_bind, on_ask, Panel.call]
    cases p.isHeld key <;> rfl
  | resolve key =>
    rw [PanelCall.inPlace, on_bind, on_ask, Panel.call]
    cases p.resolve key <;> rfl

end Panel.InPlace

end ButtonPanel
