/-
  ButtonPanel.Proofs.Panel.Labels — addressing a button by writing its label after a verb and a
  colon. A text of that form is a gesture with the label as its key, cut free of the blanks
  around it, and no gesture if nothing is left (`parse_verb`).

  So a label without blanks at its ends addresses its button, colons, `#` and digits in it or
  not. Any other label may be on a panel as well, but its button is not addressed by it, unless
  what is left of it happens to be the number of that button and no other label
  (`label_addresses_iff`). `label_with_blanks_misses` shows the two ways to miss: what is left
  is the label of another button, or it is nothing.
-/

import ButtonPanel.Proofs.Panel.Placement
import ButtonPanel.Proofs.Text.Gesture

namespace ButtonPanel

namespace Gesture

variable {σ : Type} [Sink σ] {p : Panel σ}

/-- Where numbers tell buttons apart, a gesture that gives back a button has addressed it. -/
theorem apply_gives_iff (hp : Placeable p.widgets) {w : Widget} (hw : w ∈ p.widgets) (g : Gesture) :
    (∃ q, g.apply p = .ok (w.id, q)) ↔ addressed? p.widgets g.key = some w := by
  constructor
  · rintro ⟨q, happly⟩
    cases haddressed : addressed? p.widgets g.key with
    | none =>
      rw [apply_of_none haddressed] at happly
      cases happly
    | some u =>
      rw [apply_eq haddressed] at happly
      obtain ⟨hu, -⟩ := (addressed?_eq_some_iff hp).mp haddressed
      have hid : u.id = w.id := (Prod.mk.inj (Except.ok.inj happly)).1
      rw [List.inj_on_of_nodup_map hp.ids hu hw hid]
  · intro haddressed
    exact ⟨_, apply_eq haddressed⟩

end Gesture

theorem ButtonId.numeral_ne_empty (id : ButtonId) : id.numeral ≠ "" := (decimal_repr id.toNat).nonempty

/-- What becomes of a button whose label is written after a verb, on a panel onto which buttons
    were placed. -/
theorem label_addresses_iff {σ : Type} [Sink σ] {m : Emitter σ} {ws : List Widget} {p : Panel σ}
    (hp : ({ emitter := m } : Panel σ).addAll ws = .ok p) {w : Widget} (hw : w ∈ p.widgets) (v : Verb) :
    let text := v.name ++ ":" ++ w.label
    let key := String.ofList (Blank.trim w.label.toList)
    (Blank.Trimmed w.label.toList →
      Gesture.parse text = .ok ⟨v, w.label⟩ ∧ Gesture.apply ⟨v, w.label⟩ p = .ok (w.id, p.after w.id v)) ∧
    (∀ id, (p.after w.id v).held.contains id = if id = w.id then decide (v = .press) else p.held.contains id) ∧
    ((∃ g q, Gesture.parse text = .ok g ∧ g.apply p = .ok (w.id, q)) ↔
      Blank.Trimmed w.label.toList ∨ (w.id.numeral = key ∧ ∀ x ∈ p.widgets, x.label ≠ key)) := by
  intro text key
  obtain ⟨hws, hplaceable⟩ := placeable_of_addAll rfl hp
  rw [← hws] at hplaceable
  have hne : w.label ≠ "" := hplaceable.labelled w hw
  have hkey : key = w.label ↔ Blank.Trimmed w.label.toList := by
    rw [← Blank.trim_eq_self_iff, ← String.toList_inj, String.toList_ofList]
  have hempty : Blank.trim w.label.toList = [] ↔ key = "" := by
    rw [← String.toList_inj, String.toList_ofList, String.toList_empty]
  have hparse : ∀ g, Gesture.parse text = .ok g ↔ key ≠ "" ∧ g = ⟨v, key⟩ := by
    intro g
    rw [Gesture.parse_verb]
    by_cases hk : key = ""
    · simp [hempty.mpr hk, hk]
    · rw [if_neg (mt hempty.mp hk)]
      simp only [Except.ok.injEq, ne_eq, hk, not_false_eq_true, true_and]
      exact eq_comm
  have hgives : (∃ g q, Gesture.parse text = .ok g ∧ g.apply p = .ok (w.id, q)) ↔
      key ≠ "" ∧ addressed? p.widgets key = some w := by
    rw [← Gesture.apply_gives_iff hplaceable hw ⟨v, key⟩]
    constructor
    · rintro ⟨g, q, hg, happly⟩
      obtain ⟨hk, rfl⟩ := (hparse g).mp hg
      exact ⟨hk, q, happly⟩
    · rintro ⟨hk, q, happly⟩
      exact ⟨_, q, (hparse _).mpr ⟨hk, rfl⟩, happly⟩
  refine ⟨fun htrimmed => ?_, fun id => p.contains_held_after w.id id v, ?_⟩
  · have hlabel := hkey.mpr htrimmed
    have haddressed : addressed? p.widgets w.label = some w :=
      (addressed?_eq_some_iff hplaceable).mpr ⟨hw, Or.inl rfl⟩
    exact ⟨(hparse _).mpr ⟨hlabel ▸ hne, by rw [hlabel]⟩, Gesture.apply_eq (g := ⟨v, w.label⟩) haddressed⟩
  · rw [hgives, addressed?_eq_some_iff hplaceable, ← hkey]
    constructor
    · rintro ⟨-, -, hlabel | hnumber⟩
      · exact Or.inl hlabel.symm
      · exact Or.inr hnumber
    · rintro (hlabel | hnumber)
      · exact ⟨hlabel ▸ hne, hw, Or.inl hlabel.symm⟩
      · exact ⟨hnumber.1 ▸ w.id.numeral_ne_empty, hw, Or.inr hnumber⟩

/-- A label with a colon, a `#` and inner blanks addresses its button, and one that is its number
    after a blank does so by that number. -/
theorem label_addresses_iff_with_colon_and_by_number :
    let ws : List Widget := [⟨.ofNat 3, "x: #1"⟩, ⟨.ofNat 9, " 9"⟩]
    let empty : Panel Queue := { emitter := { settings := {}, sink := { capacity := 1 } } }
    let p : Panel Queue := { empty with widgets := ws }
    empty.addAll ws = .ok p ∧ ⟨.ofNat 3, "x: #1"⟩ ∈ p.widgets ∧
      Gesture.parse "press:x: #1" = .ok ⟨.press, "x: #1"⟩ ∧
      Gesture.apply ⟨.press, "x: #1"⟩ p = .ok (.ofNat 3, p.after (.ofNat 3) .press) ∧
      (p.after (.ofNat 3) .press).held.contains (.ofNat 3) = true ∧
      ∃ g q, Gesture.parse "click: 9" = .ok g ∧ g.apply p = .ok (.ofNat 9, q) := by
  intro ws empty p
  have hp : empty.addAll ws = .ok p := by
    rw [Panel.addAll_eq]
    rfl
  have hfirst : (⟨.ofNat 3, "x: #1"⟩ : Widget) ∈ p.widgets := by decide
  have hsecond : (⟨.ofNat 9, " 9"⟩ : Widget) ∈ p.widgets := by decide
  obtain ⟨hclean, hheld, -⟩ := label_addresses_iff hp hfirst .press
  obtain ⟨-, -, hmiss⟩ := label_addresses_iff hp hsecond .click
  obtain ⟨hparse, happly⟩ := hclean (by decide)
  exact ⟨hp, hfirst, hparse, happly, (hheld _).trans (by decide), hmiss.mpr (Or.inr (by decide))⟩

/-- Of three buttons that stand on one panel, the label of the second one addresses the first,
    and that of the third addresses none. -/
theorem label_with_blanks_misses :
    let c : PanelConfig := { buttons := [⟨.ofNat 0, "A"⟩, ⟨.ofNat 1, " A"⟩, ⟨.ofNat 2, " "⟩] }
    c.validate = .ok () ∧ c.build = .ok c.panel ∧
      Gesture.parse ("press:" ++ " A") = .ok ⟨.press, "A"⟩ ∧
      Gesture.apply ⟨.press, "A"⟩ c.panel = .ok (.ofNat 0, c.panel.after (.ofNat 0) .press) ∧
      (c.panel.after (.ofNat 0) .press).held.contains (.ofNat 1) = false ∧
      Gesture.parse ("press:" ++ " ") = .error ⟨"press: "⟩ := by
  intro c
  have hv : c.validate = .ok () := by decide
  have haddressed : addressed? c.panel.widgets "A" = some ⟨.ofNat 0, "A"⟩ := by decide
  exact ⟨hv, PanelConfig.build_of_valid hv (by decide), by decide, Gesture.apply_eq (g := ⟨.press, "A"⟩) haddressed,
    by decide, by decide⟩

end ButtonPanel
