/-
  ButtonPanel.Proofs.Panel.Reorder — the order in which buttons stand on a panel does not matter.
  Whether buttons can be placed, and whether another one conflicts with them, is said without
  regard to their order (`Placeable.perm`, `conflict?_perm`), and on buttons that can be placed a
  key addresses the same one in any order (`addressed?_perm`), also where a label is the number
  of another button.

  So a call of a panel with its buttons in another order gives the same answer and leaves the
  same panel, again but for the order (`call_reorder`), and the same goes for every move of a
  session (`Reordered.move`).

  `placement_order_immaterial`: of two configurations that differ in the order of their buttons
  one is valid exactly if the other is, and if so their panels cannot be told apart, whatever is
  done at their two ends.
-/

import ButtonPanel.Proofs.Panel.Placement
import ButtonPanel.Proofs.Panel.Watch

namespace ButtonPanel

/-! ## Buttons in another order -/

section Order

variable {ws us : List Widget}

theorem Placeable.perm (h : Placeable ws) (hp : ws.Perm us) : Placeable us where
  labelled w hw := h.labelled w (hp.mem_iff.mpr hw)
  ids := (hp.map (·.id)).nodup_iff.mp h.ids
  labels := (hp.map (·.label)).nodup_iff.mp h.labels

theorem placeable_perm_iff (hp : ws.Perm us) : Placeable ws ↔ Placeable us :=
  ⟨fun h => h.perm hp, fun h => h.perm hp.symm⟩

theorem Widget.conflict?_perm (w : Widget) (hp : ws.Perm us) : w.conflict? ws = w.conflict? us := by
  rw [conflict?, conflict?, hp.any_eq, hp.any_eq]

theorem addressed?_perm (h : Placeable ws) (hp : ws.Perm us) (key : String) : addressed? ws key = addressed? us key := by
  refine Option.ext fun w => ?_
  rw [addressed?_eq_some_iff h, addressed?_eq_some_iff (h.perm hp)]
  simp only [hp.mem_iff]

namespace PanelCall

variable (c : PanelCall)

theorem place_perm (hp : ws.Perm us) : (c.place ws).Perm (c.place us) := by
  cases c with
  | add w =>
    simp only [place, w.conflict?_perm hp]
    by_cases hw : w.conflict? us = none
    · rw [if_pos hw, if_pos hw]
      exact hp.append_right [w]
    · rw [if_neg hw, if_neg hw]
      exact hp
  | _ => exact hp

theorem placeable_place (h : Placeable ws) : Placeable (c.place ws) := by
  cases c with
  | add w =>
    rw [place]
    by_cases hw : w.conflict? ws = none
    · rw [if_pos hw]
      exact placeable_concat.mpr ⟨h, hw⟩
    · rw [if_neg hw]
      exact h
  | _ => exact h

theorem answer_perm (h : Placeable ws) (hp : ws.Perm us) (held : ButtonSet 256) : c.answer ws held = c.answer us held := by
  cases c with
  | add w => simp only [answer, w.conflict?_perm hp]
  | _ => simp only [answer, addressed?_perm h hp]

theorem hold_perm (h : Placeable ws) (hp : ws.Perm us) (held : ButtonSet 256) : c.hold ws held = c.hold us held := by
  cases c with
  | gesture g => simp only [hold, addressed?_perm h hp]
  | _ => rfl

theorem news_perm (h : Placeable ws) (hp : ws.Perm us) (s : Settings) : c.news ws s = c.news us s := by
  cases c with
  | gesture g => simp only [news, strikes, addressed?_perm h hp]
  | _ => rfl

end PanelCall

end Order

/-! ## Panels -/

structure Panel.Reordered {σ : Type} (p q : Panel σ) : Prop where
  placeable : Placeable p.widgets
  widgets : p.widgets.Perm q.widgets
  held : p.held = q.held
  emitter : p.emitter = q.emitter

namespace Panel.Reordered

variable {σ : Type} [Sink σ] {p q : Panel σ}

/-- A call gives the same answer on both, and they still differ in the order at most. -/
theorem call_reorder (h : p.Reordered q) (c : PanelCall) :
    (p.call c).1 = (q.call c).1 ∧ (p.call c).2.Reordered (q.call c).2 := by
  rw [call_eq, call_eq, ← h.held, ← h.emitter]
  refine ⟨c.answer_perm h.placeable h.widgets p.held, c.placeable_place h.placeable, c.place_perm h.widgets,
    c.hold_perm h.placeable h.widgets p.held, ?_⟩
  rw [c.news_perm h.placeable h.widgets]

omit [Sink σ] in
/-- What happens to the sinks happens to both alike. -/
theorem withSink {τ : Type} (h : p.Reordered q) (f : σ → τ) :
    (p.withSink (f p.emitter.sink)).Reordered (q.withSink (f q.emitter.sink)) := by
  refine ⟨h.placeable, h.widgets, h.held, ?_⟩
  rw [Panel.withSink, Panel.withSink, h.emitter]

theorem offers {p q : Panel Queue} (h : p.Reordered q) (c : PanelCall) : p.offers c = q.offers c := by
  have hnoted : p.noted.Reordered q.noted := h.withSink fun queue => (⟨queue, []⟩ : NotedQueue)
  rw [Panel.offers, Panel.offers, (hnoted.call_reorder c).2.emitter]

end Panel.Reordered

/-- Two things seen that differ in the order of the buttons on the panel at most. -/
inductive Seen.Agrees : Seen → Seen → Prop
  | panel (answer : Except PanelError PanelAnswer) (held : ButtonSet 256) {ws us : List Widget} (h : ws.Perm us) :
    Agrees (.panel ⟨answer, ws, held⟩) (.panel ⟨answer, us, held⟩)
  | same (x : Seen) : Agrees x x

/-! ## Sessions -/

namespace Session

structure Reordered (s t : Session) : Prop where
  panel : s.panel.Reordered t.panel
  taken : s.taken = t.taken
  offers : s.offers = t.offers
  struck : s.struck = t.struck

namespace Reordered

variable {s t : Session}

theorem queue (h : Reordered s t) : s.queue = t.queue := congrArg (·.sink) h.panel.emitter

theorem call (h : Reordered s t) (c : PanelCall) : Reordered (s.call c) (t.call c) := by
  obtain ⟨hanswer, hpanel⟩ := h.panel.call_reorder c
  refine ⟨hpanel, h.taken, ?_, ?_⟩
  · show s.offers ++ s.panel.offers c = t.offers ++ t.panel.offers c
    rw [h.offers, h.panel.offers]
  · show s.struck ++ c.struck (s.panel.call c).1 = t.struck ++ c.struck (t.panel.call c).1
    rw [h.struck, hanswer]

theorem callAll (h : Reordered s t) (cs : List PanelCall) : Reordered (s.callAll cs) (t.callAll cs) := by
  induction cs generalizing s t with
  | nil => exact h
  | cons c cs ih => exact ih (h.call c)

theorem take (h : Reordered s t) (k : Take) : Reordered (s.take k) (t.take k) := by
  cases k with
  | poll =>
    have htaken : s.taken ++ s.queue.poll.1.toList = t.taken ++ t.queue.poll.1.toList := by rw [h.taken, h.queue]
    exact ⟨h.panel.withSink (·.poll.2), htaken, h.offers, h.struck⟩
  | drain =>
    have htaken : s.taken ++ s.queue.drain.1 = t.taken ++ t.queue.drain.1 := by rw [h.taken, h.queue]
    exact ⟨h.panel.withSink (·.drain.2), htaken, h.offers, h.struck⟩

theorem wait (h : Reordered s t) (meanwhile : List (List PanelCall)) :
    Reordered (s.wait meanwhile) (t.wait meanwhile) := by
  induction meanwhile generalizing s t with
  | nil => exact h.take .poll
  | cons cs later ih =>
    rw [Session.wait, Session.wait, h.queue]
    by_cases he : t.queue.isEmpty = true
    · rw [if_pos he, if_pos he]
      exact ih (h.callAll cs)
    · rw [if_neg he, if_neg he]
      exact (h.take .poll).callAll _

theorem move (h : Reordered s t) (m : Move) : Reordered (s.move m) (t.move m) := by
  cases m with
  | act c =>
    cases c with
    | panel c => exact h.call c
    | take k => exact h.take k
    | wait meanwhile => exact h.wait meanwhile
  | size => exact h
  | isEmpty => exact h

theorem moves (h : Reordered s t) (ms : List Move) : Reordered (s.moves ms) (t.moves ms) := by
  induction ms generalizing s t with
  | nil => exact h
  | cons m ms ih => exact ih (h.move m)

theorem seeCalls (h : Reordered s t) (cs : List PanelCall) :
    List.Forall₂ Seen.Agrees (s.seeCalls cs) (t.seeCalls cs) := by
  induction cs generalizing s t with
  | nil => exact .nil
  | cons c cs ih =>
    obtain ⟨hanswer, hpanel⟩ := h.panel.call_reorder c
    have hfirst : Seen.Agrees (.panel (s.panel.sight c)) (.panel (t.panel.sight c)) := by
      rw [Panel.sight, Panel.sight, ← hanswer, ← hpanel.held]
      exact .panel _ _ hpanel.widgets
    exact .cons hfirst (ih (h.call c))

theorem seeWait (h : Reordered s t) (meanwhile : List (List PanelCall)) :
    List.Forall₂ Seen.Agrees (s.seeWait meanwhile) (t.seeWait meanwhile) := by
  induction meanwhile generalizing s t with
  | nil =>
    rw [Session.seeWait, Session.seeWait, h.queue]
    exact .cons (.same _) .nil
  | cons cs later ih =>
    rw [Session.seeWait, Session.seeWait, h.queue]
    by_cases he : t.queue.isEmpty = true
    · rw [if_pos he, if_pos he]
      exact List.rel_append (h.seeCalls cs) (ih (h.callAll cs))
    · rw [if_neg he, if_neg he]
      exact .cons (.same _) ((h.take .poll).seeCalls _)

theorem see (h : Reordered s t) (m : Move) : List.Forall₂ Seen.Agrees (s.see m) (t.see m) := by
  have hone : ∀ f : Queue → Seen, List.Forall₂ Seen.Agrees [f s.queue] [f t.queue] := by
    intro f
    rw [h.queue]
    exact .cons (.same _) .nil
  cases m with
  | act c =>
    cases c with
    | panel c => exact h.seeCalls [c]
    | take k =>
      cases k with
      | poll => exact hone fun q => .polled q.poll.1
      | drain => exact hone fun q => .drained q.drain.1
    | wait meanwhile => exact h.seeWait meanwhile
  | size => exact hone fun q => .size q.size
  | isEmpty => exact hone fun q => .isEmpty q.isEmpty

theorem watch (h : Reordered s t) (ms : List Move) : List.Forall₂ Seen.Agrees (s.watch ms) (t.watch ms) := by
  induction ms generalizing s t with
  | nil => exact .nil
  | cons m ms ih => exact List.rel_append (h.see m) (ih (h.move m))

end Reordered

theorem placement_order_immaterial {c : PanelConfig} {bs : List Widget} (h : c.buttons.Perm bs) :
    let d := { c with buttons := bs }
    (c.validate = .ok () ↔ d.validate = .ok ()) ∧
    (c.validate = .ok () → Queue.Allocatable c.queueDepth.toNat →
      ∃ p q, c.build = .ok p ∧ d.build = .ok q ∧ ∀ ms : List Move,
        let s : Session := { panel := p }
        let t : Session := { panel := q }
        List.Forall₂ Seen.Agrees (s.watch ms) (t.watch ms) ∧
        (s.moves ms).panel.held = (t.moves ms).panel.held ∧
        (s.moves ms).taken = (t.moves ms).taken ∧
        (s.moves ms).queue = (t.moves ms).queue ∧
        (s.moves ms).offers = (t.moves ms).offers) := by
  intro d
  have hplaceable : ∀ ws, firstConflict? [] ws = none ↔ Placeable ws := firstConflict?_eq_none_iff placeable_nil
  have hvalid : c.validate = .ok () ↔ d.validate = .ok () := by
    rw [PanelConfig.validate_eq_ok_iff, PanelConfig.validate_eq_ok_iff, hplaceable, hplaceable,
      placeable_perm_iff h]
  refine ⟨hvalid, fun hv hroom => ?_⟩
  refine ⟨c.panel, d.panel, PanelConfig.build_of_valid hv hroom, PanelConfig.build_of_valid (hvalid.mp hv) hroom, ?_⟩
  intro ms s t
  have hc : Placeable c.buttons := (hplaceable _).mp (PanelConfig.validate_eq_ok_iff.mp hv).2
  have hstart : Reordered s t := ⟨⟨hc, h, rfl, rfl⟩, rfl, rfl, rfl⟩
  have hend := hstart.moves ms
  exact ⟨hstart.watch ms, hend.panel.held, hend.taken, hend.queue, hend.offers⟩

/-- The label of the first button is the number of the second one. In either order the key `2`
    addresses the first one by its label, and another button labelled `2` is turned away. -/
theorem placement_order_immaterial_where_a_label_is_a_number :
    let c : PanelConfig := { buttons := [⟨.ofNat 1, "2"⟩, ⟨.ofNat 2, "TWO"⟩], listener := { mode := .button } }
    let d : PanelConfig := { c with buttons := [⟨.ofNat 2, "TWO"⟩, ⟨.ofNat 1, "2"⟩] }
    let ms : List Move := [.act (.panel (.gesture ⟨.press, "2"⟩)), .act (.panel (.add ⟨.ofNat 3, "2"⟩)),
      .act (.wait [[.gesture ⟨.click, "TWO"⟩]]), .act (.panel (.isHeld "1")), .act (.take .drain), .size]
    let s : Session := { panel := c.panel }
    let t : Session := { panel := d.panel }
    c.buttons.Perm d.buttons ∧ c.validate = .ok () ∧ d.validate = .ok () ∧
      Queue.Allocatable c.queueDepth.toNat ∧ c.build = .ok c.panel ∧ d.build = .ok d.panel ∧
      List.Forall₂ Seen.Agrees (s.watch ms) (t.watch ms) ∧
      (t.moves ms).taken = [.buttonPressed (.ofNat 1), .buttonPressed (.ofNat 2), .buttonPressed (.ofNat 2)] ∧
      (t.moves ms).panel.held.toList = [.ofNat 1] := by
  intro c d ms s t
  have hperm : c.buttons.Perm d.buttons := List.Perm.swap _ _ _
  have hv : c.validate = .ok () := by decide
  have hroom : Queue.Allocatable c.queueDepth.toNat := by decide
  obtain ⟨hvalid, hrun⟩ := placement_order_immaterial hperm
  obtain ⟨p, q, hp, hq, hsame⟩ := hrun hv hroom
  obtain rfl := PanelConfig.eq_panel_of_build hp
  obtain rfl := PanelConfig.eq_panel_of_build hq
  obtain ⟨hseen, hheld, htaken, -, -⟩ := hsame ms
  refine ⟨hperm, hv, hvalid.mp hv, hroom, hp, hq, hseen, htaken.symm.trans ?_, ?_⟩
  · decide +kernel
  · rw [← hheld]
    decide +kernel

end Session

end ButtonPanel
