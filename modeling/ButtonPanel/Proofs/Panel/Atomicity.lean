/-
  ButtonPanel.Proofs.Panel.Atomicity — a call of a panel is done in full or not at all.

  `all_or_nothing`: on every panel, over any sink in any state,
  - in place a call does what the panel does to which it is given;
  - a gesture that fails leaves the panel and the sink as they were, and so does a button that is
    not placed;
  - a gesture fails exactly if its key addresses no button, which a press does not change: what was
    pressed can be released by the same key;
  - so a click is a press and then a release, and it cannot stop between them;
  - what fails in a run may be left out of it.
-/

import ButtonPanel.Proofs.Panel.Chronicle
import ButtonPanel.Proofs.Panel.InPlace

namespace ButtonPanel.Panel

variable {σ α : Type} [Sink σ]

namespace InPlace

/-! ## Calls that fail -/

variable {p q : Panel σ} {e : PanelError}

theorem gesture_error_iff (g : Gesture) (p : Panel σ) :
    ((gesture g).on p).1 = .error e ↔ p.resolve g.key = .error e := by
  rw [on_gesture, resolve_eq]
  cases addressed? p.widgets g.key <;> simp

theorem unchanged_of_gesture_error {g : Gesture} (h : (gesture g).on p = (.error e, q)) : q = p := by
  rw [on_gesture] at h
  cases hw : addressed? p.widgets g.key with
  | none =>
    simp only [hw, Prod.mk.injEq] at h
    exact h.2.symm
  | some w => simp [hw] at h

omit [Sink σ] in
theorem unchanged_of_add_error {w : Widget} (h : (add w).on p = (.error e, q)) : q = p := by
  rw [on_add] at h
  cases hadd : p.add w with
  | ok q' => simp [hadd] at h
  | error e' =>
    simp only [hadd, Prod.mk.injEq] at h
    exact h.2.symm

/-! ## The two halves of a click -/

variable {key : String} {id : ButtonId} {r : Panel σ}

/-- What was pressed can be released: its key addresses the same button still. -/
theorem release_of_press (h : (press key).on p = (.ok id, q)) : ∃ r, (release key).on q = (.ok id, r) := by
  rw [press, on_strike] at h
  cases hw : addressed? p.widgets key with
  | none => simp [hw] at h
  | some w =>
    simp only [hw, Prod.mk.injEq, Except.ok.injEq] at h
    obtain ⟨rfl, rfl⟩ := h
    have hsame : addressed? (p.strike w.id .press).widgets key = some w := hw
    exact ⟨(p.strike w.id .press).strike w.id .release, by rw [release, on_strike, hsame]⟩

theorem click_ok_iff :
    (click key).on p = (.ok id, r) ↔ ∃ q, (press key).on p = (.ok id, q) ∧ (release key).on q = (.ok id, r) := by
  rw [click, on_bind_ok_iff]
  constructor
  · rintro ⟨x, q, hpress, hrelease⟩
    -- the release gives the id that the press gave, so both are the id of the click
    obtain ⟨r', hsame⟩ := release_of_press hpress
    obtain ⟨rfl, -⟩ : id = x ∧ r = r' := by simpa [hrelease] using hsame
    exact ⟨q, hpress, hrelease⟩
  · rintro ⟨q, hpress, hrelease⟩
    exact ⟨id, q, hpress, hrelease⟩

end InPlace

/-! ## Runs in place -/

/-- What a turn leaves of a panel, whether or not its call fails. -/
def turnInPlace (act : σ → α → σ) (p : Panel σ) : PanelTurn α → Panel σ
  | .call c => (c.inPlace.on p).2
  | .outside a => p.withSink (act p.emitter.sink a)

def turnsInPlace (act : σ → α → σ) (p : Panel σ) (ts : List (PanelTurn α)) : Panel σ := ts.foldl (turnInPlace act) p

def fails (p : Panel σ) : PanelTurn α → Bool
  | .call c => !(c.inPlace.on p).1.isOk
  | .outside _ => false

/-- The turns of a run without the calls that fail in it. -/
def withoutFailures (act : σ → α → σ) (p : Panel σ) : List (PanelTurn α) → List (PanelTurn α)
  | [] => []
  | t :: ts =>
    let later := (p.turnInPlace act t).withoutFailures act ts
    if p.fails t then later else t :: later

theorem call_of_error {p : Panel σ} {c : PanelCall} {e : PanelError} (h : (p.call c).1 = .error e) :
    (p.call c).2 = p := by
  cases c with
  | add w =>
    simp only [call] at h ⊢
    cases hadd : p.add w with
    | ok q => simp [hadd] at h
    | error e' => rfl
  | gesture g =>
    simp only [call] at h ⊢
    cases happly : g.apply p with
    | ok x => simp [happly] at h
    | error e' => rfl
  | isHeld key => rfl
  | resolve key => rfl

/-- A turn that fails leaves the panel as it was. -/
theorem turnInPlace_of_fails (act : σ → α → σ) {p : Panel σ} {t : PanelTurn α} (h : p.fails t = true) :
    p.turnInPlace act t = p := by
  cases t with
  | outside a => cases h
  | call c =>
    simp only [fails, InPlace.on_inPlace] at h
    simp only [turnInPlace, InPlace.on_inPlace]
    cases hc : (p.call c).1 with
    | error e => exact call_of_error hc
    | ok answer => simp [hc, Except.isOk, Except.toBool] at h

/-- The calls that fail in a run may be left out of it. -/
theorem turnsInPlace_withoutFailures (act : σ → α → σ) (p : Panel σ) (ts : List (PanelTurn α)) :
    p.turnsInPlace act (p.withoutFailures act ts) = p.turnsInPlace act ts := by
  induction ts generalizing p with
  | nil => rfl
  | cons t ts ih =>
    have hlater : (p.turnInPlace act t).turnsInPlace act ((p.turnInPlace act t).withoutFailures act ts) =
        p.turnsInPlace act (t :: ts) := ih (p.turnInPlace act t)
    cases hf : p.fails t with
    | true =>
      have hsame := turnInPlace_of_fails act hf
      rw [withoutFailures, if_pos hf, ← hlater, hsame]
    | false =>
      rw [withoutFailures, if_neg (Bool.eq_false_iff.mp hf)]
      exact hlater

theorem all_or_nothing (act : σ → α → σ) (p : Panel σ) :
    (∀ c : PanelCall, c.inPlace.on p = p.call c) ∧
    (∀ (g : Gesture) e q, (InPlace.gesture g).on p = (.error e, q) → q = p) ∧
    (∀ (w : Widget) e q, (InPlace.add w).on p = (.error e, q) → q = p) ∧
    (∀ (g : Gesture) e, ((InPlace.gesture g).on p).1 = .error e ↔ p.resolve g.key = .error e) ∧
    (∀ (g : Gesture) e, ((InPlace.gesture g).on p).1 = .error e ↔
      e = .unknownButton g.key ∧ ∀ w ∈ p.widgets, w.label ≠ g.key ∧ w.id.numeral ≠ g.key) ∧
    (∀ key id q, (InPlace.press key).on p = (.ok id, q) → ∃ r, (InPlace.release key).on q = (.ok id, r)) ∧
    (∀ key id r, (InPlace.click key).on p = (.ok id, r) ↔
      ∃ q, (InPlace.press key).on p = (.ok id, q) ∧ (InPlace.release key).on q = (.ok id, r)) ∧
    ∀ ts, p.turnsInPlace act (p.withoutFailures act ts) = p.turnsInPlace act ts :=
  ⟨fun c => InPlace.on_inPlace c p,
    fun _ _ _ h => InPlace.unchanged_of_gesture_error h, fun _ _ _ h => InPlace.unchanged_of_add_error h,
    fun g _ => InPlace.gesture_error_iff g p,
    fun g _ => by rw [InPlace.gesture_error_iff, resolve_eq_error_iff, addressed?_eq_none_iff],
    fun _ _ _ h => InPlace.release_of_press h, fun _ _ _ => InPlace.click_ok_iff, turnsInPlace_withoutFailures act p⟩

/-- The queue has room for one event, and the press of the click takes it. Calls that fail, before
    and after it, leave the button up and the queue with that event. -/
theorem all_or_nothing_with_room_for_half_a_click :
    let p : Panel Queue :=
      { widgets := [⟨.ofNat 7, "BACK"⟩], emitter := { settings := { mode := .button }, sink := { capacity := 1 } } }
    let after : Panel Queue :=
      { p with emitter := { p.emitter with sink := { capacity := 1, unread := [.buttonPressed (.ofNat 7)] } } }
    let gesture v key : PanelTurn (Queue → Queue) := .call (.gesture ⟨v, key⟩)
    let add id label : PanelTurn (Queue → Queue) := .call (.add ⟨.ofNat id, label⟩)
    ((InPlace.gesture ⟨.click, "07"⟩).on p).1 = .error (.unknownButton "07") ∧
      ((InPlace.gesture ⟨.click, "07"⟩).on p).2 = p ∧ ((InPlace.add ⟨.ofNat 8, "BACK"⟩).on p).2 = p ∧
      (InPlace.click "7").on p = (.ok (.ofNat 7), after) ∧
      p.turnsInPlace (fun sink f => f sink)
        [gesture .release "07", gesture .click "7", add 7 "USER", gesture .press "USER"] = after := by
  intro p after gesture add
  obtain ⟨-, hgesture, hadd, -, hfails, hrelease, hclick, hrun⟩ := all_or_nothing (fun sink (f : Queue → Queue) => f sink) p
  have hunknown : ((InPlace.gesture ⟨.click, "07"⟩).on p).1 = .error (.unknownButton "07") :=
    (hfails _ _).mpr ⟨rfl, by decide⟩
  have htwice : ((InPlace.add ⟨.ofNat 8, "BACK"⟩).on p).1 = .error (.duplicateLabel "BACK") := rfl
  have hkey : addressed? p.widgets "7" = some ⟨.ofNat 7, "BACK"⟩ := by decide
  have hpressed : (InPlace.press "7").on p = (.ok (.ofNat 7), p.strike (.ofNat 7) .press) := by
    rw [InPlace.press, InPlace.on_strike, hkey]
  have hafter : p.after (.ofNat 7) .click = after := by
    have hheld : p.held.put (.ofNat 7) false = p.held := ButtonSet.put_contains p.held (.ofNat 7)
    have hnews : p.emitter.tell (p.emitter.settings.news (.ofNat 7) .click) = after.emitter := by decide
    rw [Panel.after, hnews]
    exact congrArg (fun held => { after with held }) hheld
  have hclicked : ((InPlace.click "7").on p).2 = after := by
    have hon := InPlace.on_gesture ⟨.click, "7"⟩ p
    rw [hkey] at hon
    exact (congrArg Prod.snd hon).trans hafter
  obtain ⟨r, hr⟩ := hrelease "7" (.ofNat 7) _ hpressed
  have hhalves : (InPlace.click "7").on p = (.ok (.ofNat 7), r) := (hclick "7" (.ofNat 7) r).mpr ⟨_, hpressed, hr⟩
  have hleft : p.withoutFailures (fun sink f => f sink)
      [gesture .release "07", gesture .click "7", add 7 "USER", gesture .press "USER"] = [gesture .click "7"] := rfl
  refine ⟨hunknown, hgesture _ _ _ (Prod.ext hunknown rfl), hadd _ _ _ (Prod.ext htwice rfl), ?_, ?_⟩
  · rw [← hclicked, hhalves]
  · rw [← hrun, hleft]
    exact hclicked

end ButtonPanel.Panel
