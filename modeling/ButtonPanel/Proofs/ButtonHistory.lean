/-
  ButtonPanel.Proofs.ButtonHistory — the buttons that are down, as a function of what the
  application was told. The events of one button, read as phases, are orderly; the button
  is down exactly when the last of them left it open; no event names a button out of range
  (`ButtonHistory`). `ButtonHistory.plan`: in button mode every report keeps this, once its
  event is taken. Events of other kinds do not matter to it (`ButtonHistory.append_other`).
-/

import ButtonPanel.Board.Buttons
import ButtonPanel.Proofs.Cycle

namespace ButtonPanel

def Event.button? : Event → Option (ButtonId × Phase)
  | buttonPressed id => some (id, .press)
  | buttonRepeated id => some (id, .hold)
  | buttonReleased id => some (id, .release)
  | _ => none

def Event.phaseOf? (id : ButtonId) (e : Event) : Option Phase :=
  e.button?.bind fun (i, p) => if i = id then some p else none

def buttonPhases (id : ButtonId) (es : List Event) : List Phase := es.filterMap (·.phaseOf? id)

@[simp] theorem buttonPhases_append (id : ButtonId) (es fs : List Event) :
    buttonPhases id (es ++ fs) = buttonPhases id es ++ buttonPhases id fs := List.filterMap_append

/-- The buttons `down` agree with the events `es` that the application was told. -/
structure ButtonHistory {n : Nat} (down : ButtonSet n) (es : List Event) : Prop where
  orderly : ∀ id, Phase.Orderly (buttonPhases id es)
  down_eq : ∀ id, down.contains id = Phase.isOpen (buttonPhases id es)
  inRange : ∀ e ∈ es, ∀ id p, e.button? = some (id, p) → id.toNat < n

variable {n : Nat} {down : ButtonSet n} {es : List Event}

theorem buttonHistory_empty : ButtonHistory (.empty : ButtonSet n) [] where
  orderly _ := Phase.orderly_nil
  down_eq id := ButtonSet.contains_empty id
  inRange _ h := by cases h

theorem ButtonHistory.append_other (h : ButtonHistory down es) {fs : List Event} (hf : ∀ e ∈ fs, e.button? = none) :
    ButtonHistory down (es ++ fs) := by
  have hp : ∀ id, buttonPhases id (es ++ fs) = buttonPhases id es := fun id => by
    have : buttonPhases id fs = [] := List.filterMap_eq_nil_iff.mpr fun e he => by simp [Event.phaseOf?, hf e he]
    rw [buttonPhases_append, this, List.append_nil]
  refine ⟨fun id => hp id ▸ h.orderly id, fun id => hp id ▸ h.down_eq id, fun e he id p hb => ?_⟩
  rcases List.mem_append.mp he with he | he
  · exact h.inRange e he id p hb
  · rw [hf e he] at hb; cases hb

/-- In button mode the event of a phase says that phase. -/
theorem button?_boardEvent? {s : Settings} (hs : s.mode = .button) (id : ButtonId) (p : Phase) :
    ∃ e, s.boardEvent? id p = some e ∧ e.button? = some (id, p) := by
  cases p <;> simp [Settings.boardEvent?, hs, Event.button?]

/-- What a report tells of a button, once its event is taken, is the phase it amounts to. -/
theorem buttonPhases_bind {s : Settings} (hs : s.mode = .button) (id j : ButtonId) (p? : Option Phase) :
    buttonPhases j (p?.bind (s.boardEvent? id)).toList = if j = id then p?.toList else [] := by
  cases p? with
  | none => simp [buttonPhases]
  | some p =>
    obtain ⟨e, he, hb⟩ := button?_boardEvent? hs id p
    by_cases hj : j = id
    · simp [he, buttonPhases, Event.phaseOf?, hb, hj]
    · simp [he, buttonPhases, Event.phaseOf?, hb, hj, Ne.symm hj]

/-- What a report amounts to fits what was told before, and leaves the button as reported. -/
theorem orderly_append_phase? {ps : List Phase} (h : Phase.Orderly ps) (r : ButtonReport) :
    Phase.Orderly (ps ++ (r.phase? (Phase.isOpen ps)).toList) ∧
      Phase.isOpen (ps ++ (r.phase? (Phase.isOpen ps)).toList) = r.isDown := by
  cases hp : r.phase? (Phase.isOpen ps) with
  | none => simpa [ButtonReport.isDown_of_phase?_none hp] using h
  | some p =>
    obtain ⟨hfits, hdown⟩ := ButtonReport.phase?_fits hp
    exact ⟨Phase.orderly_concat.mpr ⟨h, hfits⟩, (Phase.isOpen_concat ps p).trans hdown.symm⟩

theorem ButtonHistory.plan {s : Settings} (hs : s.mode = .button) (h : ButtonHistory down es) (id : ButtonId)
    (r : ButtonReport) : ButtonHistory (down.plan s id r).2 (es ++ (down.plan s id r).1.toList) := by
  by_cases hn : id.toNat < n
  · rw [ButtonSet.plan_of_lt s r hn, h.down_eq id]
    have hphases : ∀ j, buttonPhases j (es ++ ((r.phase? (Phase.isOpen (buttonPhases id es))).bind
        (s.boardEvent? id)).toList) = buttonPhases j es ++
          if j = id then (r.phase? (Phase.isOpen (buttonPhases id es))).toList else [] := fun j => by
      rw [buttonPhases_append, buttonPhases_bind hs]
    obtain ⟨horderly, hopen⟩ := orderly_append_phase? (h.orderly id) r
    refine ⟨fun j => ?_, fun j => ?_, fun e he j p hb => ?_⟩
    · rw [hphases]
      by_cases hj : j = id
      · subst hj; simpa using horderly
      · simpa [hj] using h.orderly j
    · rw [hphases, ButtonSet.contains_put]
      by_cases hj : j = id
      · subst hj; simpa [hn] using hopen.symm
      · simpa [hj] using h.down_eq j
    · rcases List.mem_append.mp he with he | he
      · exact h.inRange e he j p hb
      · obtain ⟨q, -, hq⟩ := Option.bind_eq_some_iff.mp (Option.mem_toList.mp he)
        obtain ⟨f, hf, hbf⟩ := button?_boardEvent? hs id q
        rw [hf] at hq
        cases hq
        rw [hb] at hbf
        cases hbf
        exact hn
  · rw [ButtonSet.plan_of_le s r (Nat.not_lt.mp hn)]
    simpa using h

end ButtonPanel
