/-
  ButtonPanel.Proofs.Panel.Verdict — what is said of a configuration. A button that stands behind
  others breaks a rule if its label is empty, or else if one of them has its number, or else if
  one of them has its label (`Widget.Violates`). The buttons can be placed exactly if none of them
  breaks a rule (`placeable_iff`); otherwise the first one that does decides the error
  (`firstConflict?_eq_some_iff`).

  `verdicts_agree`: as long as the queue can be allocated, checking a configuration and building
  its panel come to the same end, which is said here without either of them. The settings of the
  listener have no part in it.
-/

import ButtonPanel.Proofs.Panel.Placement

namespace ButtonPanel

inductive Widget.Violates (w : Widget) (before : List Widget) : PanelError → Prop
  | emptyLabel (hlabel : w.label = "") : w.Violates before .emptyLabel
  | duplicateId (hlabel : w.label ≠ "") (hid : ∃ v ∈ before, v.id = w.id) : w.Violates before (.duplicateId w.id)
  | duplicateLabel (hlabel : w.label ≠ "") (hid : ∀ v ∈ before, v.id ≠ w.id) (hdup : ∃ v ∈ before, v.label = w.label) :
    w.Violates before (.duplicateLabel w.label)

/-- The first button of a list that breaks a rule, and what is wrong with it. -/
def FirstViolation (ws : List Widget) (e : PanelError) : Prop :=
  ∃ before w after, ws = before ++ w :: after ∧ w.Violates before e ∧
    ∀ earlier v between, before = earlier ++ v :: between → ∀ e', ¬ v.Violates earlier e'

namespace Widget

variable {w : Widget} {before : List Widget}

theorem conflict?_eq_some_iff {e : PanelError} : w.conflict? before = some e ↔ w.Violates before e := by
  have hid : before.any (·.id = w.id) = true ↔ ∃ v ∈ before, v.id = w.id := by simp
  have hdup : before.any (·.label = w.label) = true ↔ ∃ v ∈ before, v.label = w.label := by simp
  constructor
  · intro h
    unfold conflict? at h
    split at h
    · next hlabel =>
      cases h
      exact .emptyLabel hlabel
    · next hlabel =>
      split at h
      · next h₁ =>
        cases h
        exact .duplicateId hlabel (hid.mp h₁)
      · next h₁ =>
        split at h
        · next h₂ =>
          cases h
          exact .duplicateLabel hlabel (fun v hv he => h₁ (hid.mpr ⟨v, hv, he⟩)) (hdup.mp h₂)
        · cases h
  · intro h
    cases h with
    | emptyLabel hlabel => exact if_pos hlabel
    | duplicateId hlabel h₁ => rw [conflict?, if_neg hlabel, if_pos (hid.mpr h₁)]
    | duplicateLabel hlabel h₁ h₂ =>
      have hnone : ¬ before.any (·.id = w.id) = true := by
        intro h
        obtain ⟨v, hv, he⟩ := hid.mp h
        exact h₁ v hv he
      rw [conflict?, if_neg hlabel, if_neg hnone, if_pos (hdup.mpr h₂)]

theorem conflict?_eq_none_iff_forall : w.conflict? before = none ↔ ∀ e, ¬ w.Violates before e := by
  simp only [← conflict?_eq_some_iff, Option.eq_none_iff_forall_not_mem, Option.mem_def]

end Widget

/-- Buttons can be placed in a row exactly if none of them breaks a rule. -/
theorem placeable_iff {ws : List Widget} :
    Placeable ws ↔ ∀ before w after, ws = before ++ w :: after → ∀ e, ¬ w.Violates before e := by
  constructor
  · rintro h before w after rfl
    have hsplit : before ++ w :: after = (before ++ [w]) ++ after := by simp
    rw [hsplit] at h
    exact Widget.conflict?_eq_none_iff_forall.mp (placeable_concat.mp h.left).2
  · intro h
    induction ws using List.reverseRecOn with
    | nil => exact placeable_nil
    | append_singleton ws w ih =>
      refine placeable_concat.mpr ⟨ih fun before v after hws => ?_, ?_⟩
      · exact h before v (after ++ [w]) (by simp [hws])
      · exact Widget.conflict?_eq_none_iff_forall.mpr (h ws w [] rfl)

/-- The first conflict in a list is that of a button behind others that can all be placed. -/
theorem firstConflict?_split {placed ws : List Widget} {e : PanelError} :
    firstConflict? placed ws = some e ↔
      ∃ before w after, ws = before ++ w :: after ∧ firstConflict? placed before = none ∧
        w.conflict? (placed ++ before) = some e := by
  induction ws generalizing placed with
  | nil => simp [firstConflict?]
  | cons v ws ih =>
    cases hv : v.conflict? placed with
    | some e₁ =>
      have hfirst : firstConflict? placed (v :: ws) = some e₁ := by rw [firstConflict?, hv]
      rw [hfirst]
      constructor
      · intro he
        exact ⟨[], v, ws, rfl, rfl, by rw [List.append_nil, hv, he]⟩
      · rintro ⟨_ | ⟨u, before⟩, w, after, hws, hbefore, hw⟩
        · rw [List.nil_append] at hws
          obtain ⟨rfl, -⟩ := List.cons.inj hws
          rwa [List.append_nil, hv] at hw
        · obtain ⟨rfl, -⟩ := List.cons.inj hws
          simp [firstConflict?, hv] at hbefore
    | none =>
      have hfirst : ∀ us, firstConflict? placed (v :: us) = firstConflict? (placed ++ [v]) us := by
        intro us
        rw [firstConflict?, hv]
      rw [hfirst, ih]
      constructor
      · rintro ⟨before, w, after, rfl, hbefore, hw⟩
        exact ⟨v :: before, w, after, rfl, by rw [hfirst, hbefore], by simpa using hw⟩
      · rintro ⟨_ | ⟨u, before⟩, w, after, hws, hbefore, hw⟩
        · rw [List.nil_append] at hws
          obtain ⟨rfl, -⟩ := List.cons.inj hws
          rw [List.append_nil, hv] at hw
          cases hw
        · obtain ⟨rfl, rfl⟩ := List.cons.inj hws
          rw [hfirst] at hbefore
          exact ⟨before, w, after, rfl, hbefore, by simpa using hw⟩

theorem firstConflict?_eq_some_iff {ws : List Widget} {e : PanelError} :
    firstConflict? [] ws = some e ↔ FirstViolation ws e := by
  simp only [firstConflict?_split, FirstViolation, firstConflict?_eq_none_iff placeable_nil, List.nil_append,
    placeable_iff, Widget.conflict?_eq_some_iff]
  constructor
  · rintro ⟨before, w, after, hws, hbefore, hw⟩
    exact ⟨before, w, after, hws, hw, hbefore⟩
  · rintro ⟨before, w, after, hws, hw, hbefore⟩
    exact ⟨before, w, after, hws, hbefore, hw⟩

def Panel.withSettings {σ : Type} (p : Panel σ) (settings : Settings) : Panel σ :=
  { p with emitter := { p.emitter with settings } }

namespace PanelConfig

variable {c : PanelConfig}

theorem validate_of_zero (hd : c.queueDepth = 0) : c.validate = .error .zeroQueueDepth := if_pos hd

/-- With room in the queue only the buttons can be wrong. -/
theorem validate_of_ne_zero (hd : c.queueDepth ≠ 0) :
    (c.validate = .ok () ↔ Placeable c.buttons) ∧
      ∀ e, c.validate = .error e ↔ ∃ why, e = .buttons why ∧ FirstViolation c.buttons why := by
  have hplaceable : firstConflict? [] c.buttons = none ↔ Placeable c.buttons :=
    firstConflict?_eq_none_iff placeable_nil c.buttons
  refine ⟨?_, fun e => ?_⟩
  · rw [validate_eq_ok_iff, hplaceable]
    exact and_iff_right hd
  · simp only [← firstConflict?_eq_some_iff]
    unfold validate
    rw [if_neg hd]
    cases firstConflict? [] c.buttons with
    | none => simp
    | some why => simp [eq_comm]

/-- Building ends as checking does. -/
theorem build_eq_validate (hq : Queue.Allocatable c.queueDepth.toNat) :
    c.build = (c.validate.mapError .invalid).map fun () => c.panel := by
  by_cases hd : c.queueDepth = 0
  · rw [validate_of_zero hd, build, if_pos hd]
    rfl
  · cases hc : firstConflict? [] c.buttons with
    | none =>
      have hv : c.validate = .ok () := validate_eq_ok_iff.mpr ⟨hd, hc⟩
      rw [hv, build_of_valid hv hq]
      rfl
    | some e =>
      have hroom : Queue.ofCapacity? c.queueDepth.toNat = some { capacity := c.queueDepth.toNat } := if_pos hq
      simp only [validate, build, if_neg hd, hroom, Panel.addAll_eq, hc]
      rfl

/-- Other settings for the listener change the settings of the panel and nothing else. -/
theorem build_listener (c : PanelConfig) (s : Settings) :
    ({ c with listener := s } : PanelConfig).build = c.build.map (·.withSettings s) := by
  unfold build
  by_cases hd : c.queueDepth = 0
  · rw [if_pos hd, if_pos hd]
    rfl
  · rw [if_neg hd, if_neg hd]
    cases Queue.ofCapacity? c.queueDepth.toNat with
    | none => rfl
    | some queue =>
      simp only [Panel.addAll_eq]
      cases firstConflict? [] c.buttons <;> rfl

theorem verdicts_agree (c : PanelConfig) (hq : Queue.Allocatable c.queueDepth.toNat) :
    c.build = (c.validate.mapError .invalid).map (fun () => c.panel) ∧
    (c.queueDepth = 0 → c.validate = .error .zeroQueueDepth) ∧
    (c.queueDepth ≠ 0 →
      (c.validate = .ok () ↔
        (∀ w ∈ c.buttons, w.label ≠ "") ∧ (c.buttons.map (·.id)).Nodup ∧ (c.buttons.map (·.label)).Nodup) ∧
      ∀ e, c.validate = .error e ↔ ∃ why, e = .buttons why ∧ FirstViolation c.buttons why) ∧
    (∀ s : Settings, ({ c with listener := s } : PanelConfig).validate = c.validate ∧
      ({ c with listener := s } : PanelConfig).build = c.build.map (·.withSettings s)) ∧
    (∀ m, (c.withMode m).validate = c.validate ∧
      (c.withMode m).build = c.build.map (·.withSettings (c.listener.set (.mode m)))) ∧
    ∀ p, c.build = .ok p → p.widgets = c.buttons ∧ (∀ id, p.held.contains id = false) ∧
      p.emitter.sink = { capacity := c.queueDepth.toNat, unread := [] } := by
  refine ⟨build_eq_validate hq, validate_of_zero, fun hd => ?_, fun s => ⟨rfl, c.build_listener s⟩,
    fun m => ⟨rfl, c.build_listener _⟩, fun p hp => ?_⟩
  · obtain ⟨hok, herror⟩ := validate_of_ne_zero hd
    exact ⟨hok.trans ⟨fun h => ⟨h.labelled, h.ids, h.labels⟩, fun ⟨h₁, h₂, h₃⟩ => ⟨h₁, h₂, h₃⟩⟩, herror⟩
  · obtain rfl := eq_panel_of_build hp
    exact ⟨rfl, fun id => ButtonSet.contains_empty id, rfl⟩

/-- The second button breaks two rules, of which the number counts. That the third one has no
    label comes too late. A queue without room is reported before either. -/
theorem verdicts_agree_on_a_button_that_breaks_two_rules :
    let c : PanelConfig := { buttons := [⟨.ofNat 1, "A"⟩, ⟨.ofNat 1, "A"⟩, ⟨.ofNat 2, ""⟩], queueDepth := 1 }
    let d : PanelConfig := { c with queueDepth := 0 }
    Queue.Allocatable c.queueDepth.toNat ∧ FirstViolation c.buttons (.duplicateId (.ofNat 1)) ∧
      c.build = .error (.invalid (.buttons (.duplicateId (.ofNat 1)))) ∧
      (c.withMode .command).build = c.build ∧
      d.validate = .error .zeroQueueDepth ∧ d.build = .error (.invalid .zeroQueueDepth) := by
  intro c d
  have hq : Queue.Allocatable c.queueDepth.toNat := by decide
  have hv : c.validate = .error (.buttons (.duplicateId (.ofNat 1))) := by decide
  obtain ⟨hbuild, -, hrules, -, hmode, -⟩ := verdicts_agree c hq
  obtain ⟨hbuild₀, hzero, -⟩ := verdicts_agree d (by decide)
  have hc : c.build = .error (.invalid (.buttons (.duplicateId (.ofNat 1)))) := by
    rw [hbuild, hv]
    rfl
  have hfirst : FirstViolation c.buttons (.duplicateId (.ofNat 1)) := by
    obtain ⟨why, hwhy, hfirst⟩ := ((hrules (by decide)).2 _).mp hv
    cases hwhy
    exact hfirst
  refine ⟨hq, hfirst, hc, ?_, hzero rfl, ?_⟩
  · rw [(hmode .command).2, hc]
    rfl
  · rw [hbuild₀, hzero rfl]
    rfl

end PanelConfig

end ButtonPanel
