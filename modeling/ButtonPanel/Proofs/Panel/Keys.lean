/-
  ButtonPanel.Proofs.Panel.Keys — which button a key addresses. A key is a label, or else a number
  in decimal (`Resolves`, `resolve_iff`).

  `keys_unambiguous`: on every panel that was reached from an empty one a key addresses the one
  button so labelled, or else the one so numbered, or it is unknown. A button that is added takes
  its label from whatever was addressed by it; every other key that was known still addresses the
  same button, and no key is forgotten.
-/

import ButtonPanel.Proofs.Panel.Chronicle

namespace ButtonPanel

inductive Resolves (ws : List Widget) (key : String) : Except PanelError Widget → Prop
  | label {w : Widget} (hw : w ∈ ws) (hkey : w.label = key) : Resolves ws key (.ok w)
  | number {w : Widget} (hw : w ∈ ws) (hkey : Decimal w.id.toNat key) (hlabel : ∀ x ∈ ws, x.label ≠ key) :
    Resolves ws key (.ok w)
  | unknown (hlabel : ∀ x ∈ ws, x.label ≠ key) (hnumber : ∀ x ∈ ws, ¬ Decimal x.id.toNat key) :
    Resolves ws key (.error (.unknownButton key))

namespace Panel

variable {σ : Type} {p q : Panel σ}

theorem resolve_iff (h : Placeable p.widgets) {key : String} {r : Except PanelError Widget} :
    p.resolve key = r ↔ Resolves p.widgets key r := by
  have hsome : ∀ {w}, addressed? p.widgets key = some w ↔
      w ∈ p.widgets ∧ (w.label = key ∨ (Decimal w.id.toNat key ∧ ∀ x ∈ p.widgets, x.label ≠ key)) := by
    intro w
    rw [addressed?_eq_some_iff h, ButtonId.numeral, repr_eq_iff]
  rw [resolve_eq]
  constructor
  · rintro rfl
    cases ha : addressed? p.widgets key with
    | some w =>
      obtain ⟨hw, hkey | ⟨hkey, hlabel⟩⟩ := hsome.mp ha
      · exact .label hw hkey
      · exact .number hw hkey hlabel
    | none =>
      have hnever : ∀ x, addressed? p.widgets key ≠ some x := by simp [ha]
      have hlabel : ∀ x ∈ p.widgets, x.label ≠ key := fun x hx hkey => hnever x (hsome.mpr ⟨hx, Or.inl hkey⟩)
      exact .unknown hlabel fun x hx hkey => hnever x (hsome.mpr ⟨hx, Or.inr ⟨hkey, hlabel⟩⟩)
  · intro hr
    cases hr with
    | label hw hkey => rw [hsome.mpr ⟨hw, Or.inl hkey⟩]
    | number hw hkey hlabel => rw [hsome.mpr ⟨hw, Or.inr ⟨hkey, hlabel⟩⟩]
    | unknown hlabel hnumber =>
      cases ha : addressed? p.widgets key with
      | none => rfl
      | some w =>
        obtain ⟨hw, hkey | ⟨hkey, -⟩⟩ := hsome.mp ha
        · exact absurd hkey (hlabel w hw)
        · exact absurd hkey (hnumber w hw)

theorem widgets_add {w : Widget} (hadd : p.add w = .ok q) : q.widgets = p.widgets ++ [w] ∧ w.conflict? p.widgets = none := by
  unfold add at hadd
  cases hw : w.conflict? p.widgets with
  | some e => simp [hw] at hadd
  | none =>
    simp only [hw, Except.ok.injEq] at hadd
    exact ⟨hadd ▸ rfl, rfl⟩

/-- A new button takes its label as a key. Every other key that was known addresses what it did. -/
theorem resolve_add (h : Placeable p.widgets) {w : Widget} (hadd : p.add w = .ok q) {key : String} {v : Widget}
    (hkey : p.resolve key = .ok v) : q.resolve key = .ok (if key = w.label then w else v) := by
  obtain ⟨hwidgets, hconflict⟩ := widgets_add hadd
  have hq : Placeable q.widgets := hwidgets ▸ placeable_concat.mpr ⟨h, hconflict⟩
  rw [resolve_iff hq, hwidgets]
  by_cases hw : key = w.label
  · rw [if_pos hw]
    exact .label (List.mem_append_right _ List.mem_cons_self) hw.symm
  · rw [if_neg hw]
    cases (resolve_iff h).mp hkey with
    | label hv hlabel => exact .label (List.mem_append_left _ hv) hlabel
    | number hv hnumber hlabel =>
      refine .number (List.mem_append_left _ hv) hnumber fun x hx => ?_
      rcases List.mem_append.mp hx with hx | hx
      · exact hlabel x hx
      · rw [List.mem_singleton.mp hx]
        exact Ne.symm hw

end Panel

theorem Panel.keys_unambiguous {σ α : Type} [Sink σ] (act : σ → α → σ) (m : Emitter σ) (ts : List (PanelTurn α)) :
    let p := ((Chronicle.fresh m).turns act ts).panel
    (∀ w ∈ p.widgets, ∀ x ∈ p.widgets, w.label = x.label ∨ w.id = x.id → w = x) ∧
    (∀ key r, p.resolve key = r ↔ Resolves p.widgets key r) ∧
    (∀ w ∈ p.widgets, p.resolve w.label = .ok w) ∧
    (∀ w ∈ p.widgets, Decimal w.id.toNat w.id.numeral ∧
      ((∀ x ∈ p.widgets, x.label = w.id.numeral → x = w) → p.resolve w.id.numeral = .ok w)) ∧
    ∀ w q, p.add w = .ok q → ∀ key v, p.resolve key = .ok v →
      (key ≠ w.label → q.resolve key = .ok v) ∧ ∃ u, q.resolve key = .ok u := by
  intro p
  have h : Placeable p.widgets := ((Chronicle.upright_fresh m).turns act ts).placeable
  refine ⟨?_, fun key r => resolve_iff h, fun w hw => (resolve_iff h).mpr (.label hw rfl), fun w hw => ?_, ?_⟩
  · rintro w hw x hx (hlabel | hid)
    · exact List.inj_on_of_nodup_map h.labels hw hx hlabel
    · exact List.inj_on_of_nodup_map h.ids hw hx hid
  · refine ⟨decimal_repr _, fun honly => (resolve_iff h).mpr ?_⟩
    by_cases hlabel : w.label = w.id.numeral
    · exact .label hw hlabel
    · exact .number hw (decimal_repr _) fun x hx hx' => hlabel (honly x hx hx' ▸ hx')
  · intro w q hadd key v hkey
    have hq := resolve_add h hadd hkey
    refine ⟨fun hne => ?_, _, hq⟩
    rwa [if_neg hne] at hq

/-- One button is labelled with the number of another. A third one takes the number of the first
    for its label, after which that key has gone over to it. -/
theorem Panel.keys_unambiguous_where_labels_are_numbers :
    let add id label : PanelTurn Unit := .call (.add ⟨.ofNat id, label⟩)
    let ts := [add 1 "2", add 2 "TWO", add 7 "2", add 7 ""]
    let p := ((Chronicle.fresh ⟨{}, { capacity := 1 }⟩ : Chronicle Recorder).turns (fun sink _ => sink) ts).panel
    let q := { p with widgets := p.widgets ++ [⟨.ofNat 3, "1"⟩] }
    p.widgets = [⟨.ofNat 1, "2"⟩, ⟨.ofNat 2, "TWO"⟩] ∧
      p.resolve "2" = .ok ⟨.ofNat 1, "2"⟩ ∧ p.resolve "1" = .ok ⟨.ofNat 1, "2"⟩ ∧
      p.resolve "01" = .error (.unknownButton "01") ∧
      p.add ⟨.ofNat 3, "1"⟩ = .ok q ∧ q.resolve "2" = .ok ⟨.ofNat 1, "2"⟩ ∧ ∃ u, q.resolve "1" = .ok u := by
  intro add ts p q
  obtain ⟨-, hresolves, hlabel, hnumber, hadded⟩ :=
    Panel.keys_unambiguous (fun sink (_ : Unit) => sink) ⟨{}, ({ capacity := 1 } : Recorder)⟩ ts
  have hwidgets : p.widgets = [⟨.ofNat 1, "2"⟩, ⟨.ofNat 2, "TWO"⟩] := by decide +kernel
  have hfirst : (⟨.ofNat 1, "2"⟩ : Widget) ∈ p.widgets := by rw [hwidgets]; decide
  have honly : ∀ x ∈ p.widgets, x.label = "1" → x = ⟨.ofNat 1, "2"⟩ := by rw [hwidgets]; decide
  have hpadded : p.resolve "01" = .error (.unknownButton "01") := by
    refine (hresolves _ _).mpr (.unknown (by rw [hwidgets]; decide) fun x _ h => ?_)
    exact absurd (h.leading rfl) (by decide)
  have hadd : p.add ⟨.ofNat 3, "1"⟩ = .ok q := by
    have hnone : (⟨.ofNat 3, "1"⟩ : Widget).conflict? p.widgets = none := by rw [hwidgets]; decide
    rw [Panel.add, hnone]
  have htwo : p.resolve "2" = .ok ⟨.ofNat 1, "2"⟩ := hlabel _ hfirst
  have hone : p.resolve "1" = .ok ⟨.ofNat 1, "2"⟩ := (hnumber _ hfirst).2 honly
  exact ⟨hwidgets, htwo, hone, hpadded, hadd, (hadded _ _ hadd _ _ htwo).1 (by decide), (hadded _ _ hadd _ _ hone).2⟩

end ButtonPanel
