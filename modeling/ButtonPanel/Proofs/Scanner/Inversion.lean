/-
  ButtonPanel.Proofs.Scanner.Inversion — pins that are wired the other way round. Where the level of
  a pin is inverted and with it the polarity of its binding, a sample finds the button as before
  (`isHeld_invert`), so a scanner takes in what it would have taken in: whatever is inverted, a run
  of a scanner differs only in the polarities that it has noted (`calls_invert`).
-/

import ButtonPanel.Proofs.Scanner.Run

namespace ButtonPanel

def Polarity.opposite : Polarity → Polarity
  | activeHigh => activeLow
  | activeLow => activeHigh

variable {π ε α : Type} (inverted : π → Bool)

def Binding.invert (b : Binding π) : Binding π :=
  if inverted b.pin then { b with polarity := b.polarity.opposite } else b

/-- What pins read when some of them are inverted. -/
def invertLevels (read : π → Except ε Bool) (pin : π) : Except ε Bool :=
  (read pin).map fun high => if inverted pin then !high else high

def ScanCall.invert : ScanCall π ε α → ScanCall π ε α
  | .add b => .add (b.invert inverted)
  | .edge read slot => .edge (invertLevels inverted read) slot
  | .scan read => .scan (invertLevels inverted read)
  | .outside a => .outside a

@[simp] theorem Binding.pin_invert (b : Binding π) : (b.invert inverted).pin = b.pin := by
  unfold invert
  split <;> rfl

@[simp] theorem Binding.id_invert (b : Binding π) : (b.invert inverted).id = b.id := by
  unfold invert
  split <;> rfl

theorem Binding.isHeld_invert (read : π → Except ε Bool) (b : Binding π) :
    (b.invert inverted).isHeld (invertLevels inverted read) = b.isHeld read := by
  unfold isHeld invertLevels
  rw [pin_invert]
  cases read b.pin with
  | error fault => rfl
  | ok high =>
    rcases b with ⟨pin, id, _ | _⟩ <;> cases high <;> cases hp : inverted pin <;>
      simp [invert, hp, Except.map, Polarity.isDown, Polarity.opposite]

namespace Scanner

variable {n : Nat} {σ : Type}

def invert (s : Scanner n π σ) : Scanner n π σ := { s with bindings := s.bindings.map (·.invert inverted) }

variable [Sink σ]

theorem sample_invert (read : π → Except ε Bool) (s : Scanner n π σ) (b : Binding π) :
    (s.invert inverted).sample (invertLevels inverted read) (b.invert inverted) =
      ((s.sample read b).1, (s.sample read b).2.invert inverted) := by
  cases hb : read b.pin with
  | error fault =>
    have hb' : invertLevels inverted read (b.invert inverted).pin = .error fault := by
      rw [Binding.pin_invert, invertLevels, hb]
      rfl
    rw [sample_error hb, sample_error hb']
  | ok high =>
    have hb' : ∃ high', invertLevels inverted read (b.invert inverted).pin = .ok high' := by
      rw [Binding.pin_invert, invertLevels, hb]
      exact ⟨_, rfl⟩
    obtain ⟨high', hb'⟩ := hb'
    rw [sample_ok hb, sample_ok hb', Binding.isHeld_invert, Binding.id_invert]
    rfl

theorem sampleAll_invert (read : π → Except ε Bool) (s : Scanner n π σ) (bs : List (Binding π)) :
    (s.invert inverted).sampleAll (invertLevels inverted read) (bs.map (·.invert inverted)) =
      ((s.sampleAll read bs).1, (s.sampleAll read bs).2.invert inverted) := by
  induction bs generalizing s with
  | nil => rfl
  | cons b bs ih =>
    rw [List.map_cons, sampleAll, sampleAll, sample_invert]
    rcases s.sample read b with ⟨e | isDown, t⟩
    · rfl
    · exact ih t

omit [Sink σ] in
theorem add_invert (s : Scanner n π σ) (b : Binding π) :
    ((s.invert inverted).add (b.invert inverted) : Except (ScanError ε) _) =
      (s.add b).map fun added => (added.1, added.2.invert inverted) := by
  have hany : (s.invert inverted).bindings.any (·.id = b.id) = s.bindings.any (·.id = b.id) := by
    rw [invert, List.any_map]
    simp only [Function.comp_def, Binding.id_invert]
  have hlength : (s.invert inverted).bindings.length = s.bindings.length := List.length_map ..
  unfold add
  rw [Binding.id_invert, hany, hlength]
  by_cases hid : n ≤ b.id.toNat
  · rw [if_pos hid, if_pos hid]
    rfl
  rw [if_neg hid, if_neg hid]
  by_cases hdup : s.bindings.any (·.id = b.id) = true
  · rw [if_pos hdup, if_pos hdup]
    rfl
  rw [if_neg hdup, if_neg hdup]
  by_cases hfull : n ≤ s.bindings.length
  · rw [if_pos hfull, if_pos hfull]
    rfl
  rw [if_neg hfull, if_neg hfull]
  simp [Except.map, invert]

theorem call_invert (act : σ → α → σ) (s : Scanner n π σ) (c : ScanCall π ε α) :
    (s.invert inverted).call act (c.invert inverted) = (s.call act c).invert inverted := by
  cases c with
  | add b =>
    simp only [ScanCall.invert, call, add_invert]
    rcases (s.add b : Except (ScanError ε) _) with e | ⟨slot, t⟩ <;> rfl
  | edge read slot =>
    have hslot : (s.invert inverted).bindings[slot]? = s.bindings[slot]?.map (·.invert inverted) := List.getElem?_map
    simp only [ScanCall.invert, call, edge, hslot]
    cases s.bindings[slot]? with
    | none => rfl
    | some b => exact congrArg Prod.snd (sample_invert inverted read s b)
  | scan read => exact congrArg Prod.snd (sampleAll_invert inverted read s s.bindings)
  | outside a => rfl

theorem calls_invert (act : σ → α → σ) (s : Scanner n π σ) (cs : List (ScanCall π ε α)) :
    (s.invert inverted).calls act (cs.map (·.invert inverted)) = (s.calls act cs).invert inverted := by
  induction cs generalizing s with
  | nil => rfl
  | cons c cs ih =>
    show ((s.invert inverted).call act (c.invert inverted)).calls act _ = _
    rw [call_invert]
    exact ih (s.call act c)

end Scanner

end ButtonPanel
