/-
  ButtonPanel.Proofs.Panel.Gestures — what a gesture does to a panel. A key addresses the button
  with that label or else the one with that number (`addressed?`). A gesture on a button that
  is not there fails (`apply_of_none`); any other tells the sink what the settings make of it
  (`Settings.news`), whatever the sink answers, and changes of the panel only whether that
  button is held down (`apply_eq`, `Panel.after`).
-/

import Mathlib.Data.List.Find
import ButtonPanel.Gesture

namespace ButtonPanel

/-- The button that a key addresses: the one so labelled, or else the one so numbered. -/
def addressed? (ws : List Widget) (key : String) : Option Widget :=
  match ws.find? (·.label = key) with
  | some w => some w
  | none => ws.find? (·.id.numeral = key)

theorem addressed?_eq_none_iff {ws : List Widget} {key : String} :
    addressed? ws key = none ↔ ∀ w ∈ ws, w.label ≠ key ∧ w.id.numeral ≠ key := by
  unfold addressed?
  cases hl : ws.find? (·.label = key) with
  | some v =>
    have hv : v.label = key := by simpa using List.find?_some hl
    exact iff_of_false (by simp) fun h => (h v (List.mem_of_find?_eq_some hl)).1 hv
  | none =>
    have hlabel : ∀ w ∈ ws, w.label ≠ key := fun w hw => by simpa using List.find?_eq_none.mp hl w hw
    have hnumber : ws.find? (·.id.numeral = key) = none ↔ ∀ w ∈ ws, w.id.numeral ≠ key := by
      simp [List.find?_eq_none]
    exact hnumber.trans ⟨fun h w hw => ⟨hlabel w hw, h w hw⟩, fun h w hw => (h w hw).2⟩

namespace Settings

def pressNews (s : Settings) (id : ButtonId) : List Event :=
  match s.mode with
  | .button => [.buttonPressed id]
  | .command => [.command s.command]
  | .home => [.generic "WADAPPS" s.homeValue]

/-- What the front panel tells of a release: the same as of a press in button mode, or nothing. -/
def releaseNews (s : Settings) (id : ButtonId) : List Event :=
  if s.mode = .button then [.buttonPressed id] else []

def news (s : Settings) (id : ButtonId) : Verb → List Event
  | .press => s.pressNews id
  | .release => s.releaseNews id
  | .click => s.pressNews id ++ s.releaseNews id

theorem pressNews_eq (s : Settings) (id : ButtonId) : (s.panelEvent? id .press).toList = s.pressNews id := by
  rcases s with ⟨_ | _ | _, command, homeValue⟩ <;> rfl

theorem releaseNews_eq (s : Settings) (id : ButtonId) : (s.panelEvent? id .release).toList = s.releaseNews id := by
  rcases s with ⟨_ | _ | _, command, homeValue⟩ <;> rfl

theorem length_pressNews (s : Settings) (id : ButtonId) : (s.pressNews id).length = 1 := by
  rcases s with ⟨_ | _ | _, command, homeValue⟩ <;> rfl

theorem length_releaseNews (s : Settings) (id : ButtonId) :
    (s.releaseNews id).length = if s.mode = .button then 1 else 0 := by
  rw [releaseNews]
  split <;> rfl

/-- Only a click in button mode has more than one thing to tell, and it has two. -/
theorem length_news (s : Settings) (id : ButtonId) (v : Verb) :
    (s.news id v).length ≤ 2 ∧ ((s.news id v).length ≤ 1 ↔ ¬ (s.mode = .button ∧ v = .click)) := by
  have hp := s.length_pressNews id
  have hr := s.length_releaseNews id
  cases v <;> by_cases hm : s.mode = .button <;> simp [news, hp, hr, hm]

end Settings

namespace Emitter

variable {σ : Type} [Sink σ]

theorem strike_eq_tell (m : Emitter σ) (id : ButtonId) (stroke : Stroke) :
    m.strike id stroke = m.tell (m.settings.panelEvent? id stroke).toList := by
  unfold strike
  cases m.settings.panelEvent? id stroke <;> rfl

end Emitter

namespace Panel

variable {σ : Type}

theorem resolve_eq (p : Panel σ) (key : String) :
    p.resolve key = match addressed? p.widgets key with
      | some w => .ok w
      | none => .error (.unknownButton key) := by
  have hlabel : p.widgets.find? (fun w => w.label == key) = p.widgets.find? (·.label = key) := rfl
  unfold resolve addressed?
  rw [hlabel]
  cases hl : p.widgets.find? (·.label = key) with
  | some w => rfl
  | none =>
    -- no label is the key, so only a number can match it
    have hnumber : p.widgets.find? (·.matches key) = p.widgets.find? (·.id.numeral = key) := by
      refine List.find?_congr fun w hw => ?_
      have hne : (w.label == key) = false := beq_eq_false_iff_ne.mpr (by simpa using List.find?_eq_none.mp hl w hw)
      rw [Widget.matches, hne, Bool.false_or]
      rfl
    rw [hnumber]
    rfl

theorem resolve_eq_error_iff {p : Panel σ} {key : String} {e : PanelError} :
    p.resolve key = .error e ↔ e = .unknownButton key ∧ addressed? p.widgets key = none := by
  rw [resolve_eq]
  cases addressed? p.widgets key <;> simp [eq_comm]

variable [Sink σ]

theorem strikeAt_of_none {p : Panel σ} {key : String} (h : addressed? p.widgets key = none) (stroke : Stroke) :
    p.strikeAt key stroke = .error (.unknownButton key) := by
  rw [strikeAt, resolve_eq, h]
  rfl

theorem strikeAt_of_some {p : Panel σ} {key : String} {w : Widget} (h : addressed? p.widgets key = some w)
    (stroke : Stroke) : p.strikeAt key stroke = .ok (w.id, p.strike w.id stroke) := by
  rw [strikeAt, resolve_eq, h]
  rfl

/-- The panel after a gesture on a button: a press leaves it held down, a release or a click does not. -/
def after (p : Panel σ) (id : ButtonId) (v : Verb) : Panel σ :=
  { p with held := p.held.put id (v = .press), emitter := p.emitter.tell (p.emitter.settings.news id v) }

theorem strike_press (p : Panel σ) (id : ButtonId) : p.strike id .press = p.after id .press := by
  rw [after, Settings.news, ← Settings.pressNews_eq, ← Emitter.strike_eq_tell]
  rfl

theorem strike_release (p : Panel σ) (id : ButtonId) : p.strike id .release = p.after id .release := by
  rw [after, Settings.news, ← Settings.releaseNews_eq, ← Emitter.strike_eq_tell]
  rfl

theorem after_press_release (p : Panel σ) (id : ButtonId) : (p.after id .press).after id .release = p.after id .click := by
  have hheld : (p.held.put id true).put id false = p.held.put id false := ButtonSet.put_put p.held id true false
  have hemitter : (p.emitter.tell (p.emitter.settings.pressNews id)).tell (p.emitter.settings.releaseNews id) =
      p.emitter.tell (p.emitter.settings.news id .click) := by
    rw [Settings.news, Emitter.tell_append]
  show ({ p with held := (p.held.put id true).put id false, emitter := Emitter.tell _ _ } : Panel σ) = _
  rw [hheld]
  exact congrArg (fun m => { p with held := p.held.put id false, emitter := m }) hemitter

/-- Only the button of a gesture changes whether it is held down. -/
theorem contains_held_after (p : Panel σ) (id x : ButtonId) (v : Verb) :
    (p.after id v).held.contains x = if x = id then decide (v = .press) else p.held.contains x := by
  have hlt := id.toNat_lt
  rw [after, ButtonSet.contains_put]
  simp only [hlt, and_true]

end Panel

namespace Gesture

variable {σ : Type} [Sink σ] {p : Panel σ} {g : Gesture}

theorem apply_of_none (h : addressed? p.widgets g.key = none) : g.apply p = .error (.unknownButton g.key) := by
  obtain ⟨verb, key⟩ := g
  cases verb with
  | press => exact Panel.strikeAt_of_none h .press
  | release => exact Panel.strikeAt_of_none h .release
  | click =>
    show (p.strikeAt key .press).bind _ = _
    rw [Panel.strikeAt_of_none h]
    rfl

theorem apply_eq {w : Widget} (h : addressed? p.widgets g.key = some w) :
    g.apply p = .ok (w.id, p.after w.id g.verb) := by
  obtain ⟨verb, key⟩ := g
  cases verb with
  | press =>
    rw [← Panel.strike_press]
    exact Panel.strikeAt_of_some h .press
  | release =>
    rw [← Panel.strike_release]
    exact Panel.strikeAt_of_some h .release
  | click =>
    -- the press leaves the buttons as they are, so the key addresses the same one again
    have hpress : p.press key = .ok (w.id, p.strike w.id .press) := Panel.strikeAt_of_some h .press
    have hrelease : (p.strike w.id .press).release key = .ok (w.id, (p.strike w.id .press).strike w.id .release) :=
      Panel.strikeAt_of_some (p := p.strike w.id .press) h .release
    show (p.press key).bind _ = _
    rw [hpress, ← Panel.after_press_release, ← Panel.strike_press, ← Panel.strike_release]
    exact hrelease

theorem apply_of_some {w : Widget} (h : addressed? p.widgets g.key = some w) :
    ∃ held, g.apply p =
      .ok (w.id, { p with held, emitter := p.emitter.tell (p.emitter.settings.news w.id g.verb) }) :=
  ⟨_, apply_eq h⟩

end Gesture

end ButtonPanel
