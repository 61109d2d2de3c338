/-
  ButtonPanel.Proofs.Panel.Placement — which buttons can stand on one panel: those with pairwise
  different numbers and pairwise different labels, none of them empty (`Placeable`). Placing
  them one after the other finds no conflict exactly then (`firstConflict?_eq_none_iff`), so a
  panel onto which buttons were placed holds placeable ones (`placeable_of_addAll`).

  On such a panel a key addresses at most one button: the one so labelled, or the one so
  numbered if nothing is so labelled (`addressed?_eq_some_iff`). The order in which the buttons
  stand there does not matter for that.
-/

import Mathlib.Data.List.Nodup
import ButtonPanel.Proofs.Panel.Build
import ButtonPanel.Proofs.Panel.Gestures
import ButtonPanel.Proofs.Text.Decimal

namespace ButtonPanel

structure Placeable (ws : List Widget) : Prop where
  labelled : ∀ w ∈ ws, w.label ≠ ""
  ids : (ws.map (·.id)).Nodup
  labels : (ws.map (·.label)).Nodup

theorem placeable_nil : Placeable [] := ⟨nofun, List.nodup_nil, List.nodup_nil⟩

theorem Widget.conflict?_eq_none_iff {w : Widget} {others : List Widget} :
    w.conflict? others = none ↔
      w.label ≠ "" ∧ w.id ∉ others.map (·.id) ∧ w.label ∉ others.map (·.label) := by
  have hid : others.any (·.id = w.id) = true ↔ w.id ∈ others.map (·.id) := by simp
  have hlabel : others.any (·.label = w.label) = true ↔ w.label ∈ others.map (·.label) := by simp
  unfold conflict?
  rw [← hid, ← hlabel]
  by_cases h₁ : w.label = ""
  · simp [h₁]
  · by_cases h₂ : others.any (·.id = w.id) = true
    · simp [h₁, h₂]
    · by_cases h₃ : others.any (·.label = w.label) = true
      · simp [h₁, h₂, h₃]
      · simp [h₁, h₂, h₃]

/-- A button can join others exactly if it does not conflict with them. -/
theorem placeable_concat {ws : List Widget} {w : Widget} :
    Placeable (ws ++ [w]) ↔ Placeable ws ∧ w.conflict? ws = none := by
  have hlast : ∀ {α : Type} (f : Widget → α), ((ws ++ [w]).map f).Nodup ↔ (ws.map f).Nodup ∧ f w ∉ ws.map f := by
    intro α f
    rw [List.map_append, List.map_singleton, ← List.concat_eq_append, List.nodup_concat, and_comm]
  rw [Widget.conflict?_eq_none_iff]
  constructor
  · intro h
    obtain ⟨hids, hid⟩ := (hlast (·.id)).mp h.ids
    obtain ⟨hlabels, hlabel⟩ := (hlast (·.label)).mp h.labels
    exact ⟨⟨fun x hx => h.labelled x (List.mem_append_left _ hx), hids, hlabels⟩,
      h.labelled w (List.mem_append_right _ List.mem_cons_self), hid, hlabel⟩
  · rintro ⟨h, hne, hid, hlabel⟩
    refine ⟨fun x hx => ?_, (hlast (·.id)).mpr ⟨h.ids, hid⟩, (hlast (·.label)).mpr ⟨h.labels, hlabel⟩⟩
    rcases List.mem_append.mp hx with hx | hx
    · exact h.labelled x hx
    · rw [List.mem_singleton.mp hx]
      exact hne

theorem Placeable.left {ws us : List Widget} (h : Placeable (ws ++ us)) : Placeable ws where
  labelled w hw := h.labelled w (List.mem_append_left us hw)
  ids := (List.nodup_append.mp (List.map_append ▸ h.ids)).1
  labels := (List.nodup_append.mp (List.map_append ▸ h.labels)).1

theorem firstConflict?_eq_none_iff {placed : List Widget} (h : Placeable placed) (ws : List Widget) :
    firstConflict? placed ws = none ↔ Placeable (placed ++ ws) := by
  induction ws generalizing placed with
  | nil => simpa [firstConflict?] using h
  | cons w ws ih =>
    have hsplit : placed ++ w :: ws = (placed ++ [w]) ++ ws := by simp
    rw [firstConflict?, hsplit]
    cases hw : w.conflict? placed with
    | none => exact ih (placeable_concat.mpr ⟨h, hw⟩)
    | some e =>
      have hnever : ¬ Placeable ((placed ++ [w]) ++ ws) := by
        intro hall
        obtain ⟨-, hnone⟩ := placeable_concat.mp hall.left
        exact Option.some_ne_none e (hw.symm.trans hnone)
      exact iff_of_false (Option.some_ne_none e) hnever

/-- Onto an empty panel just the placeable buttons can be placed. -/
theorem placeable_of_addAll {σ : Type} {p q : Panel σ} (hp : p.widgets = []) {ws : List Widget}
    (h : p.addAll ws = .ok q) : q.widgets = ws ∧ Placeable ws := by
  rw [Panel.addAll_eq, hp] at h
  cases hc : firstConflict? [] ws with
  | some e => simp [hc] at h
  | none =>
    simp only [hc, List.nil_append, Except.ok.injEq] at h
    exact ⟨h ▸ rfl, (firstConflict?_eq_none_iff placeable_nil ws).mp hc⟩

/-! ## Keys -/

theorem ButtonId.numeral_injective : Function.Injective ButtonId.numeral := by
  intro a b h
  have ha : Nat.ofDigitChars 10 a.numeral.toList 0 = a.toNat := (decimal_repr a.toNat).value
  have hb : Nat.ofDigitChars 10 b.numeral.toList 0 = b.toNat := (decimal_repr b.toNat).value
  rw [← ButtonId.toNat_inj, ← ha, h, hb]

/-- Where a property tells elements apart, searching for its value finds the one that has it. -/
theorem find?_eq_some_of_nodup {α β : Type} [DecidableEq β] {f : α → β} {xs : List α} (h : (xs.map f).Nodup) {x : α}
    {b : β} : xs.find? (f · = b) = some x ↔ x ∈ xs ∧ f x = b := by
  constructor
  · intro hx
    exact ⟨List.mem_of_find?_eq_some hx, by simpa using List.find?_some hx⟩
  · rintro ⟨hx, rfl⟩
    obtain ⟨y, hy⟩ : ∃ y, xs.find? (f · = f x) = some y := by
      rw [← Option.isSome_iff_exists, List.find?_isSome]
      exact ⟨x, hx, decide_eq_true rfl⟩
    have hsame : f y = f x := by simpa using List.find?_some hy
    rw [hy, List.inj_on_of_nodup_map h (List.mem_of_find?_eq_some hy) hx hsame]

theorem addressed?_eq_some_iff {ws : List Widget} (h : Placeable ws) {key : String} {w : Widget} :
    addressed? ws key = some w ↔
      w ∈ ws ∧ (w.label = key ∨ (w.id.numeral = key ∧ ∀ x ∈ ws, x.label ≠ key)) := by
  have hnumerals : (ws.map (·.id.numeral)).Nodup := by
    have hmap : ws.map (·.id.numeral) = (ws.map (·.id)).map ButtonId.numeral := by rw [List.map_map]; rfl
    rw [hmap]
    exact h.ids.map ButtonId.numeral_injective
  unfold addressed?
  cases hl : ws.find? (·.label = key) with
  | some v =>
    obtain ⟨hv, hkey⟩ := (find?_eq_some_of_nodup h.labels).mp hl
    simp only [Option.some.injEq]
    constructor
    · rintro rfl
      exact ⟨hv, Or.inl hkey⟩
    · rintro ⟨hw, hlabel | ⟨-, hnone⟩⟩
      · have hsame := (find?_eq_some_of_nodup h.labels).mpr ⟨hw, hlabel⟩
        exact Option.some.inj (hl.symm.trans hsame)
      · exact absurd hkey (hnone v hv)
  | none =>
    have hnone : ∀ x ∈ ws, x.label ≠ key := by simpa using List.find?_eq_none.mp hl
    show ws.find? (·.id.numeral = key) = some w ↔ _
    rw [find?_eq_some_of_nodup hnumerals]
    constructor
    · rintro ⟨hw, hnumber⟩
      exact ⟨hw, Or.inr ⟨hnumber, hnone⟩⟩
    · rintro ⟨hw, hlabel | ⟨hnumber, -⟩⟩
      · exact absurd hlabel (hnone w hw)
      · exact ⟨hw, hnumber⟩

end ButtonPanel
