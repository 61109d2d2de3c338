/-
  ButtonPanel.Proofs.Panel.Build — from a configuration to its panel. Placing buttons one after
  the other succeeds exactly when none of them conflicts with those before it (`addAll_eq`), so
  a valid configuration whose queue can be allocated gives a panel (`build_of_valid`): its own
  buttons in their order, none of them held, and an empty queue. Whatever reads well from a
  document or a file is valid (`validate_of_parse`, `validate_of_load`).

  Being valid does not say that the queue can be allocated. So a document can be accepted though
  no panel can be built from it (`accepted_but_too_deep_to_build`), and the depth of its queue is
  the only thing that can be wrong with it then (`build_of_accepted`).
-/

import ButtonPanel.Panel.Load
import ButtonPanel.Panel.Receiver
import ButtonPanel.Proofs.Panel.Document

namespace ButtonPanel

theorem Panel.addAll_eq {σ : Type} (p : Panel σ) (ws : List Widget) :
    p.addAll ws = match firstConflict? p.widgets ws with
      | some e => .error e
      | none => .ok { p with widgets := p.widgets ++ ws } := by
  induction ws generalizing p with
  | nil => simp [addAll, firstConflict?]
  | cons w ws ih =>
    rw [addAll, add, firstConflict?]
    cases w.conflict? p.widgets with
    | some e => rfl
    | none =>
      show Panel.addAll { p with widgets := p.widgets ++ [w] } ws = _
      rw [ih]
      simp only [List.append_assoc, List.singleton_append]

namespace PanelConfig

theorem validate_eq_ok_iff {c : PanelConfig} :
    c.validate = .ok () ↔ c.queueDepth ≠ 0 ∧ firstConflict? [] c.buttons = none := by
  unfold validate
  by_cases hd : c.queueDepth = 0
  · simp [hd]
  · cases firstConflict? [] c.buttons <;> simp [hd]

def panel (c : PanelConfig) : Panel Queue :=
  { widgets := c.buttons, emitter := { settings := c.listener, sink := { capacity := c.queueDepth.toNat } } }

theorem build_of_valid {c : PanelConfig} (hv : c.validate = .ok ()) (hq : Queue.Allocatable c.queueDepth.toNat) :
    c.build = .ok c.panel := by
  obtain ⟨hd, hnone⟩ := validate_eq_ok_iff.mp hv
  have hroom : Queue.ofCapacity? c.queueDepth.toNat = some { capacity := c.queueDepth.toNat } := if_pos hq
  simp only [build, if_neg hd, hroom, Panel.addAll_eq, hnone, List.nil_append]
  rfl

/-- Of a valid configuration nothing but the room for its queue can still be missing. -/
theorem build_eq_of_valid {c : PanelConfig} (hv : c.validate = .ok ()) :
    c.build = if Queue.Allocatable c.queueDepth.toNat then .ok c.panel else .error .capacityOverflow := by
  by_cases hq : Queue.Allocatable c.queueDepth.toNat
  · rw [if_pos hq, build_of_valid hv hq]
  · obtain ⟨hd, -⟩ := validate_eq_ok_iff.mp hv
    have hroom : Queue.ofCapacity? c.queueDepth.toNat = none := if_neg hq
    rw [if_neg hq, build, if_neg hd, hroom]

theorem valid_of_build {c : PanelConfig} {p : Panel Queue} (h : c.build = .ok p) : c.validate = .ok () := by
  rw [validate_eq_ok_iff]
  by_cases hd : c.queueDepth = 0
  · rw [build, if_pos hd] at h
    cases h
  · refine ⟨hd, ?_⟩
    rw [build, if_neg hd] at h
    cases hroom : Queue.ofCapacity? c.queueDepth.toNat with
    | none =>
      rw [hroom] at h
      cases h
    | some q =>
      cases hc : firstConflict? [] c.buttons with
      | none => rfl
      | some e => simp [hroom, Panel.addAll_eq, hc] at h

/-- A panel that was built is the one that its configuration describes. -/
theorem eq_panel_of_build {c : PanelConfig} {p : Panel Queue} (h : c.build = .ok p) : p = c.panel := by
  have hbuild := build_eq_of_valid (valid_of_build h)
  rw [h] at hbuild
  by_cases hq : Queue.Allocatable c.queueDepth.toNat
  · rw [if_pos hq] at hbuild
    exact Except.ok.inj hbuild
  · rw [if_neg hq] at hbuild
    cases hbuild

theorem validate_default : validate {} = .ok () := validate_eq_ok_iff.mpr (by decide)

theorem validate_of_parse {text : String} {c : PanelConfig} (h : parse text = .ok c) : c.validate = .ok () := by
  unfold parse at h
  split at h
  · cases h
  · split at h
    · cases h
    · next hv =>
      cases h
      exact hv

theorem validate_of_load {files : Files} {path : String} {c : PanelConfig} (h : load files path = .ok c) :
    c.validate = .ok () := by
  unfold load at h
  split at h
  · cases h
  · exact validate_of_parse h

/-- The configurations that documents are accepted for are the valid ones, and from such a one a
    panel is built or else its queue cannot be allocated. -/
theorem build_of_accepted (c : PanelConfig) :
    ((∃ text, parse text = .ok c) ↔ c.validate = .ok ()) ∧
    ∀ text, parse text = .ok c →
      c.build = if Queue.Allocatable c.queueDepth.toNat then .ok c.panel else .error .capacityOverflow := by
  refine ⟨⟨?_, fun hv => ?_⟩, fun text h => build_eq_of_valid (validate_of_parse h)⟩
  · rintro ⟨text, h⟩
    exact validate_of_parse h
  · refine ⟨Document.panelConfig.encode c, ?_⟩
    simp only [parse, Document.lawful_panelConfig.decode_encode c, hv]

/-- A queue of an ordinary depth can be built, and one beyond the limit cannot. -/
theorem build_of_accepted_beyond_the_limit :
    let ordinary : PanelConfig := { queueDepth := 64 }
    let tooDeep : PanelConfig := { queueDepth := 384307168202282326 }
    parse "\x7b\"queue_depth\":64\x7d" = .ok ordinary ∧ ordinary.build = .ok ordinary.panel ∧
      parse "\x7b\"queue_depth\":384307168202282326\x7d" = .ok tooDeep ∧ tooDeep.build = .error .capacityOverflow := by
  intro ordinary tooDeep
  have hordinary : parse "\x7b\"queue_depth\":64\x7d" = .ok ordinary := by decide +kernel
  have htooDeep : parse "\x7b\"queue_depth\":384307168202282326\x7d" = .ok tooDeep := by decide +kernel
  refine ⟨hordinary, ?_, htooDeep, ?_⟩
  · exact ((build_of_accepted ordinary).2 _ hordinary).trans (if_pos (by decide))
  · exact ((build_of_accepted tooDeep).2 _ htooDeep).trans (if_neg (by decide))

/-- A document that is accepted though no panel can be built from it. -/
theorem accepted_but_too_deep_to_build :
    let c : PanelConfig := { queueDepth := 9223372036854775808 }
    parse "\x7b\"queue_depth\":9223372036854775808\x7d" = .ok c ∧ c.validate = .ok () ∧
      c.build = .error .capacityOverflow := by
  intro c
  have hv : c.validate = .ok () := by decide
  exact ⟨by decide +kernel, hv, (build_eq_of_valid hv).trans (if_neg (by decide))⟩

end PanelConfig

end ButtonPanel
