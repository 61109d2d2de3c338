/-
  ButtonPanel.Proofs.Panel.Chronicle — a panel and what succeeded on it. Calls of the panel come in
  any order, those that fail among them, with acts of the outside on its sink between them. The
  chronicle notes the buttons that were placed and the gestures that gave back a button, each with
  that button, whichever key addressed it.

  `panel_as_recorded`: after every run from an empty panel the chronicle tells what the panel is.
  Its buttons are those that were placed, in that order, and they have different numbers and
  different labels, none of them empty. A button is held down exactly if the last gesture on it
  was a press (`lastVerb?`), and what is held down is on the panel.

  `Upright` is the invariant. What one call does is said by what it adds to the chronicle
  (`place_eq`, `struck_answer`, `contains_hold`), so each call keeps it (`Upright.call`), and every
  run does (`Upright.turns`).
-/

import ButtonPanel.Proofs.Panel.Reorder
import ButtonPanel.Sink.Recorder

namespace ButtonPanel

/-- The last thing that was done to a button, if anything was. -/
def lastVerb? (id : ButtonId) (struck : List (Verb × ButtonId)) : Option Verb :=
  (struck.reverse.find? (·.2 = id)).map (·.1)

theorem lastVerb?_append (id : ButtonId) (xs ys : List (Verb × ButtonId)) :
    lastVerb? id (xs ++ ys) = (lastVerb? id ys).or (lastVerb? id xs) := by
  rw [lastVerb?, List.reverse_append, List.find?_append, Option.map_or]
  rfl

theorem lastVerb?_singleton (id : ButtonId) (v : Verb) (x : ButtonId) :
    lastVerb? id [(v, x)] = if x = id then some v else none := by
  by_cases h : x = id <;> simp [lastVerb?, h]

/-- A button that something was done to is among those noted. -/
theorem mem_of_lastVerb? {id : ButtonId} {v : Verb} {struck : List (Verb × ButtonId)} (h : lastVerb? id struck = some v) :
    (v, id) ∈ struck := by
  obtain ⟨x, hx, rfl⟩ := Option.map_eq_some_iff.mp h
  have hid : x.2 = id := by simpa using List.find?_some hx
  rw [← hid]
  exact List.mem_reverse.mp (List.mem_of_find?_eq_some hx)

/-! ## What one call adds -/

namespace PanelCall

def placed (c : PanelCall) (answer : Except PanelError PanelAnswer) : List Widget :=
  match c, answer with
  | .add w, .ok .placed => [w]
  | _, _ => []

variable (ws : List Widget) (held : ButtonSet 256) (c : PanelCall)

theorem place_eq : c.place ws = ws ++ c.placed (c.answer ws held) := by
  cases c with
  | add w =>
    simp only [place, answer]
    cases hw : w.conflict? ws with
    | none => rfl
    | some e =>
      rw [if_neg (Option.some_ne_none e)]
      exact (List.append_nil ws).symm
  | gesture g => exact (List.append_nil ws).symm
  | isHeld key => exact (List.append_nil ws).symm
  | resolve key => exact (List.append_nil ws).symm

theorem struck_answer : c.struck (c.answer ws held) = c.strikes ws := by
  cases c with
  | gesture g =>
    simp only [answer, strikes]
    cases addressed? ws g.key <;> rfl
  | add w => rfl
  | isHeld key => rfl
  | resolve key => rfl

theorem answer_struck_iff (g : Gesture) (id : ButtonId) :
    (PanelCall.gesture g).answer ws held = .ok (.struck id) ↔ ∃ w, addressed? ws g.key = some w ∧ w.id = id := by
  simp only [answer]
  cases addressed? ws g.key <;> simp

/-- After a call a button is as the call left it, or as it was before if the call did nothing to it. -/
theorem contains_hold (id : ButtonId) :
    (c.hold ws held).contains id =
      match lastVerb? id (c.strikes ws) with
      | some v => decide (v = .press)
      | none => held.contains id := by
  rcases c.strikes_cases ws with hnone | ⟨g, w, rfl, hw, hone⟩
  · have hsame : c.hold ws held = held := by
      cases c with
      | gesture g =>
        have hmiss : addressed? ws g.key = none := by simpa [strikes] using hnone
        simp only [hold, hmiss]
      | _ => rfl
    rw [hnone, hsame]
    rfl
  · have hlt := w.id.toNat_lt
    rw [hone, lastVerb?_singleton]
    simp only [hold, hw, ButtonSet.contains_put, hlt, and_true]
    by_cases hid : id = w.id
    · rw [if_pos hid, if_pos hid.symm]
    · rw [if_neg hid, if_neg (Ne.symm hid)]

end PanelCall

/-! ## Chronicles -/

inductive PanelTurn (α : Type)
  | call (c : PanelCall)
  | outside (a : α)

structure Chronicle (σ : Type) where
  panel : Panel σ
  /-- The buttons that were placed. -/
  placed : List Widget := []
  /-- The gestures that succeeded, with the buttons that were given back. -/
  struck : List (Verb × ButtonId) := []

namespace Chronicle

variable {σ α : Type} [Sink σ]

def call (r : Chronicle σ) (c : PanelCall) : Chronicle σ :=
  let answer := r.panel.call c
  { panel := answer.2
    placed := r.placed ++ c.placed answer.1
    struck := r.struck ++ c.struck answer.1 }

def turn (act : σ → α → σ) (r : Chronicle σ) : PanelTurn α → Chronicle σ
  | .call c => r.call c
  | .outside a => { r with panel := r.panel.withSink (act r.panel.emitter.sink a) }

def turns (act : σ → α → σ) (r : Chronicle σ) (ts : List (PanelTurn α)) : Chronicle σ := ts.foldl (turn act) r

def fresh (m : Emitter σ) : Chronicle σ := { panel := { emitter := m } }

structure Upright (r : Chronicle σ) : Prop where
  placeable : Placeable r.panel.widgets
  placed : r.panel.widgets = r.placed
  known : ∀ x ∈ r.struck, ∃ w ∈ r.panel.widgets, w.id = x.2
  held : ∀ id, r.panel.held.contains id = decide (lastVerb? id r.struck = some .press)

variable {r : Chronicle σ}

omit [Sink σ] in
theorem upright_fresh (m : Emitter σ) : (fresh m).Upright where
  placeable := placeable_nil
  placed := rfl
  known x hx := by cases hx
  held id := ButtonSet.contains_empty id

/-- A call leaves the panel that its equation says, and adds to the chronicle what it placed and struck. -/
theorem call_eq (r : Chronicle σ) (c : PanelCall) :
    r.call c =
      { panel :=
          { widgets := c.place r.panel.widgets
            held := c.hold r.panel.widgets r.panel.held
            emitter := r.panel.emitter.tell (c.news r.panel.widgets r.panel.emitter.settings) }
        placed := r.placed ++ c.placed (c.answer r.panel.widgets r.panel.held)
        struck := r.struck ++ c.strikes r.panel.widgets } := by
  rw [call, r.panel.call_eq, PanelCall.struck_answer]

theorem Upright.call (h : r.Upright) (c : PanelCall) : (r.call c).Upright := by
  have hplace := c.place_eq r.panel.widgets r.panel.held
  have hplaced : c.place r.panel.widgets = r.placed ++ c.placed (c.answer r.panel.widgets r.panel.held) := by
    rw [hplace, ← h.placed]
  rw [call_eq]
  refine ⟨c.placeable_place h.placeable, hplaced, fun x hx => ?_, fun id => ?_⟩
  · show ∃ w ∈ c.place r.panel.widgets, w.id = x.2
    rw [hplace]
    rcases List.mem_append.mp hx with hx | hx
    · obtain ⟨w, hw, hid⟩ := h.known x hx
      exact ⟨w, List.mem_append_left _ hw, hid⟩
    · rcases c.strikes_cases r.panel.widgets with hnone | ⟨g, w, -, hw, hone⟩
      · rw [hnone] at hx
        cases hx
      · rw [hone] at hx
        obtain rfl := List.mem_singleton.mp hx
        exact ⟨w, List.mem_append_left _ ((addressed?_eq_some_iff h.placeable).mp hw).1, rfl⟩
  · rw [PanelCall.contains_hold, lastVerb?_append]
    cases lastVerb? id (c.strikes r.panel.widgets) with
    | none => exact h.held id
    | some v => simp

theorem Upright.turn (h : r.Upright) (act : σ → α → σ) (t : PanelTurn α) : (r.turn act t).Upright := by
  cases t with
  | call c => exact h.call c
  | outside a => exact ⟨h.placeable, h.placed, h.known, h.held⟩

theorem Upright.turns (h : r.Upright) (act : σ → α → σ) (ts : List (PanelTurn α)) : (r.turns act ts).Upright := by
  induction ts generalizing r with
  | nil => exact h
  | cons t ts ih => exact ih (h.turn act t)

theorem panel_as_recorded (act : σ → α → σ) (m : Emitter σ) (ts : List (PanelTurn α)) :
    let r := (fresh m).turns act ts
    let p := r.panel
    (p.widgets.map (·.id)).Nodup ∧ (p.widgets.map (·.label)).Nodup ∧ (∀ w ∈ p.widgets, w.label ≠ "") ∧
    p.widgets = r.placed ∧
    (∀ id, p.held.contains id = true → ∃ w ∈ p.widgets, w.id = id) ∧
    (∀ id, p.held.contains id = true ↔ lastVerb? id r.struck = some .press) ∧
    (∀ key, p.isHeld key = (p.resolve key).map fun w => decide (lastVerb? w.id r.struck = some .press)) ∧
    ∀ g id, (p.call (.gesture g)).1 = .ok (.struck id) ↔
      ∃ w ∈ p.widgets, w.id = id ∧
        (w.label = g.key ∨ (w.id.numeral = g.key ∧ ∀ x ∈ p.widgets, x.label ≠ g.key)) := by
  intro r p
  have h : r.Upright := (upright_fresh m).turns act ts
  have hlast : ∀ id, p.held.contains id = true ↔ lastVerb? id r.struck = some .press := by
    intro id
    rw [h.held id, decide_eq_true_iff]
  refine ⟨h.placeable.ids, h.placeable.labels, h.placeable.labelled, h.placed, fun id hid => ?_, hlast, fun key => ?_,
    fun g id => ?_⟩
  · exact h.known _ (mem_of_lastVerb? ((hlast id).mp hid))
  · simp only [Panel.isHeld, h.held, p]
  · rw [p.call_eq]
    refine (PanelCall.answer_struck_iff p.widgets p.held g id).trans ⟨?_, ?_⟩
    · rintro ⟨w, hw, hid⟩
      obtain ⟨hmem, hkey⟩ := (addressed?_eq_some_iff h.placeable).mp hw
      exact ⟨w, hmem, hid, hkey⟩
    · rintro ⟨w, hmem, hid, hkey⟩
      exact ⟨w, (addressed?_eq_some_iff h.placeable).mpr ⟨hmem, hkey⟩, hid⟩

/-- A button is pressed by its number and released by a key that has become the label of another
    button since, so it stays down; a third one is pressed once more and then clicked. -/
theorem panel_as_recorded_where_a_key_changes_hands :
    let gesture v key : PanelTurn (Recorder → Recorder) := .call (.gesture ⟨v, key⟩)
    let add id label : PanelTurn (Recorder → Recorder) := .call (.add ⟨.ofNat id, label⟩)
    let ts := [add 2 "TWO", add 2 "AGAIN", gesture .press "2", add 1 "2", .outside (Recorder.setRejecting · true),
      gesture .release "2", gesture .release "3", add 3 "", add 3 "THREE", gesture .press "THREE", gesture .press "3",
      gesture .click "THREE"]
    let r := (fresh ⟨{ mode := .button }, { capacity := 1 }⟩ : Chronicle Recorder).turns (fun sink f => f sink) ts
    r.placed = [⟨.ofNat 2, "TWO"⟩, ⟨.ofNat 1, "2"⟩, ⟨.ofNat 3, "THREE"⟩] ∧ r.panel.widgets = r.placed ∧
      r.struck = [(.press, .ofNat 2), (.release, .ofNat 1), (.press, .ofNat 3), (.press, .ofNat 3), (.click, .ofNat 3)] ∧
      r.panel.held.contains (.ofNat 2) = true ∧ (∃ w ∈ r.panel.widgets, w.id = .ofNat 2) ∧
      r.panel.held.contains (.ofNat 3) = false ∧ r.panel.isHeld "TWO" = .ok true ∧ r.panel.isHeld "2" = .ok false := by
  intro gesture add ts r
  obtain ⟨-, -, -, hwidgets, hknown, hlast, hheld, -⟩ :=
    panel_as_recorded (fun sink f => f sink) ⟨{ mode := .button }, ({ capacity := 1 } : Recorder)⟩ ts
  have hplaced : r.placed = [⟨.ofNat 2, "TWO"⟩, ⟨.ofNat 1, "2"⟩, ⟨.ofNat 3, "THREE"⟩] := by decide +kernel
  have hstruck : r.struck =
      [(.press, .ofNat 2), (.release, .ofNat 1), (.press, .ofNat 3), (.press, .ofNat 3), (.click, .ofNat 3)] := by
    decide +kernel
  have htwo : r.panel.held.contains (.ofNat 2) = true := (hlast _).mpr (by rw [hstruck]; rfl)
  have hthree : r.panel.held.contains (.ofNat 3) = false := by
    rw [Bool.eq_false_iff, Ne, hlast, hstruck]
    decide
  have hkeys : r.panel.resolve "TWO" = .ok ⟨.ofNat 2, "TWO"⟩ ∧ r.panel.resolve "2" = .ok ⟨.ofNat 1, "2"⟩ := by
    rw [Panel.resolve, Panel.resolve, hwidgets, hplaced]
    decide
  refine ⟨hplaced, hwidgets, hstruck, htwo, hknown _ htwo, hthree, ?_, ?_⟩
  · rw [hheld, hkeys.1, hstruck]
    rfl
  · rw [hheld, hkeys.2, hstruck]
    rfl

end Chronicle

end ButtonPanel
