/-
  ButtonPanel.Proofs.Scanner.Slots — the slots of a scanner. A slot is the place of a binding, and
  bindings are only ever added behind the others, so a slot stands for one binding from the
  moment it was given out (`bindings_calls`).

  Registered bindings are on different buttons below `n`, so there are at most `n` of them, and
  fewer as long as any button below `n` is not bound (`Registered.length_lt`). That is why there
  is always room for a button that can be bound at all: an addition fails because the button is
  out of range or because it is bound, and never because all slots are in use
  (`Registered.add_eq`).

  `slots_stand` says all of this of every run of a scanner, over any sink.
-/

import Mathlib.Data.List.Nodup
import Mathlib.Data.List.Perm.Subperm
import ButtonPanel.Proofs.Scanner.Run
import ButtonPanel.Sink.Recorder

namespace ButtonPanel

/-- Numbers below `n` that are all different are at most `n`. -/
theorem length_le_of_nodup_of_lt {n : Nat} {ks : List Nat} (hdistinct : ks.Nodup) (hlt : ∀ k ∈ ks, k < n) :
    ks.length ≤ n := by
  have hsub : ks ⊆ List.range n := fun k hk => List.mem_range.mpr (hlt k hk)
  have hle := (hdistinct.subperm hsub).length_le
  rwa [List.length_range] at hle

namespace Scanner

variable {n : Nat} {π σ ε α : Type}

/-! ## Room -/

section Room

variable {bs : List (Binding π)} {down : ButtonSet n}

theorem Registered.numbers_nodup (h : Registered bs down) : (bs.map (·.id.toNat)).Nodup := by
  have hmap : bs.map (·.id.toNat) = (bs.map (·.id)).map ButtonId.toNat := by rw [List.map_map]; rfl
  rw [hmap]
  exact List.Nodup.map (fun _ _ => ButtonId.toNat_inj.mp) h.distinct

theorem Registered.length_le (h : Registered bs down) : bs.length ≤ n := by
  have hle := length_le_of_nodup_of_lt h.numbers_nodup (n := n) fun k hk => by
    obtain ⟨b, hb, rfl⟩ := List.mem_map.mp hk
    exact h.inRange b hb
  rwa [List.length_map] at hle

/-- As long as a button below `n` is not bound there is a slot for it: with it the bindings would
    still be on different buttons below `n`. -/
theorem Registered.length_lt (h : Registered bs down) {id : ButtonId} (hid : id.toNat < n)
    (hnew : ∀ c ∈ bs, c.id ≠ id) : bs.length < n := by
  have hnotin : id.toNat ∉ bs.map (·.id.toNat) := by
    intro hmem
    obtain ⟨c, hc, he⟩ := List.mem_map.mp hmem
    exact hnew c hc (ButtonId.toNat_inj.mp he)
  have hle := length_le_of_nodup_of_lt (List.nodup_cons.mpr ⟨hnotin, h.numbers_nodup⟩) (n := n) fun k hk => by
    rcases List.mem_cons.mp hk with rfl | hk
    · exact hid
    · obtain ⟨b, hb, rfl⟩ := List.mem_map.mp hk
      exact h.inRange b hb
  rw [List.length_cons, List.length_map] at hle
  omega

end Room

theorem Registered.add_eq {s : Scanner n π σ} (h : Registered s.bindings s.down) (b : Binding π) :
    (s.add b : Except (ScanError ε) (Nat × Scanner n π σ)) =
      if n ≤ b.id.toNat then .error (.idOutOfRange b.id)
      else if b.id ∈ s.bindings.map (·.id) then .error (.duplicateId b.id)
      else .ok (s.size, { s with bindings := s.bindings ++ [b] }) := by
  have hbound : s.bindings.any (·.id = b.id) = true ↔ b.id ∈ s.bindings.map (·.id) := by simp
  unfold add
  by_cases hid : n ≤ b.id.toNat
  · rw [if_pos hid, if_pos hid]
  rw [if_neg hid, if_neg hid]
  by_cases hdup : b.id ∈ s.bindings.map (·.id)
  · rw [if_pos (hbound.mpr hdup), if_pos hdup]
  rw [if_neg (mt hbound.mp hdup), if_neg hdup]
  have hroom := h.length_lt (Nat.lt_of_not_le hid) fun c hc he => hdup (List.mem_map.mpr ⟨c, hc, he⟩)
  rw [if_neg (Nat.not_le.mpr hroom)]
  rfl

/-! ## Slots -/

variable [Sink σ]

theorem bindings_call (act : σ → α → σ) (s : Scanner n π σ) (c : ScanCall π ε α) :
    s.bindings <+: (s.call act c).bindings := by
  cases c with
  | add b =>
    rcases add_cases (ε := ε) s b with ⟨e, hadd⟩ | ⟨-, -, -, hadd⟩
    · simp only [call, hadd, List.prefix_refl]
    · simp only [call, hadd, List.prefix_append]
  | edge read slot => simp only [call, bindings_edge, List.prefix_refl]
  | scan read => simp only [call, scan, bindings_sampleAll, List.prefix_refl]
  | outside a => exact List.prefix_refl _

theorem bindings_calls (act : σ → α → σ) (s : Scanner n π σ) (cs : List (ScanCall π ε α)) :
    s.bindings <+: (s.calls act cs).bindings := by
  induction cs generalizing s with
  | nil => exact List.prefix_refl _
  | cons c cs ih => exact (s.bindings_call act c).trans (ih (s.call act c))

/-- A slot is unknown exactly if it is not below the number of bindings. -/
theorem edge_unknown_iff (read : π → Except ε Bool) (s : Scanner n π σ) (slot : Nat) :
    (s.edge read slot).1 = .error (.unknownSlot slot) ↔ s.size ≤ slot := by
  unfold edge size
  cases hs : s.bindings[slot]? with
  | none => simpa using List.getElem?_eq_none_iff.mp hs
  | some b =>
    have hlt := (List.getElem?_eq_some_iff.mp hs).1
    have hknown : (s.sample read b).1 ≠ .error (.unknownSlot slot) := by
      cases hb : read b.pin with
      | error fault => simp [sample_error hb]
      | ok high => simp [sample_ok hb]
    exact iff_of_false hknown (by omega)

/-- A slot that was given out for a binding samples that binding for the rest of the run. -/
theorem edge_of_added {s t : Scanner n π σ} {b : Binding π} {slot : Nat}
    (hadd : (s.add b : Except (ScanError ε) (Nat × Scanner n π σ)) = .ok (slot, t)) (act : σ → α → σ)
    (more : List (ScanCall π ε α)) :
    (t.calls act more).bindings[slot]? = some b ∧
      ∀ read : π → Except ε Bool, (t.calls act more).edge read slot = (t.calls act more).sample read b := by
  have hslot : (t.calls act more).bindings[slot]? = some b := by
    rcases add_cases (ε := ε) s b with ⟨e, hfail⟩ | ⟨-, -, -, hok⟩
    · rw [hfail] at hadd
      cases hadd
    · rw [hok] at hadd
      cases hadd
      obtain ⟨later, hlater⟩ := bindings_calls act { s with bindings := s.bindings ++ [b] } more
      rw [← hlater]
      simp
  exact ⟨hslot, fun read => by simp only [edge, hslot]⟩

theorem slots_stand (act : σ → α → σ) (m : Emitter σ) (cs : List (ScanCall π ε α)) :
    let s := (fresh m : Scanner n π σ).calls act cs
    s.size ≤ n ∧
    (∀ (read : π → Except ε Bool) slot, (s.edge read slot).1 = .error (.unknownSlot slot) ↔ s.size ≤ slot) ∧
    (s.bindings.map (·.id)).Nodup ∧
    (∀ b ∈ s.bindings, b.id.toNat < n) ∧
    (∀ (b : Binding π) slot t, (s.add b : Except (ScanError ε) _) = .ok (slot, t) →
      ∀ more : List (ScanCall π ε α), (t.calls act more).bindings[slot]? = some b ∧
        ∀ read : π → Except ε Bool, (t.calls act more).edge read slot = (t.calls act more).sample read b) ∧
    (∀ b : Binding π, (s.add b : Except (ScanError ε) _) =
      if n ≤ b.id.toNat then .error (.idOutOfRange b.id)
      else if b.id ∈ s.bindings.map (·.id) then .error (.duplicateId b.id)
      else .ok (s.size, { s with bindings := s.bindings ++ [b] })) ∧
    (∀ (b : Binding π) (e : ScanError ε), s.add b = .error e →
      e ≠ .full ∧ s.call act (.add b : ScanCall π ε α) = s) ∧
    ∀ id, s.down.contains id = true → ∃ b ∈ s.bindings, b.id = id := by
  intro s
  obtain ⟨-, h⟩ : s.emitter.settings = m.settings ∧ Registered s.bindings s.down := registered_run act m cs
  refine ⟨h.length_le, fun read slot => edge_unknown_iff read s slot, h.distinct, h.inRange,
    fun b slot t hadd more => edge_of_added hadd act more, h.add_eq, ?_, ?_⟩
  · intro b e hfail
    refine ⟨?_, by simp only [call, hfail]⟩
    rintro rfl
    rw [h.add_eq] at hfail
    split at hfail
    · cases hfail
    · split at hfail <;> cases hfail
  · intro id hdown
    by_cases hid : ∃ b ∈ s.bindings, b.id = id
    · exact hid
    · push Not at hid
      rw [h.released id hid] at hdown
      cases hdown

/-- One of two buttons is bound, between an addition out of range and a duplicate, and an event of
    it is lost. The other one gets slot 1, which stands for it from then on. Both slots are in
    use now, and what a further addition runs into is still the range. -/
theorem slots_stand_for_two_buttons :
    let read (pin : Nat) : Except Unit Bool := if pin = 8 then .error () else .ok true
    let first : Binding Nat := ⟨7, ⟨1⟩, .activeHigh⟩
    let second : Binding Nat := ⟨8, ⟨0⟩, .activeLow⟩
    let cs : List (ScanCall Nat Unit (Recorder → Recorder)) :=
      [.add ⟨3, ⟨2⟩, .activeHigh⟩, .add first, .outside (Recorder.setRejecting · true), .scan read,
        .add ⟨4, ⟨1⟩, .activeLow⟩, .edge read 1]
    let act (sink : Recorder) (f : Recorder → Recorder) := f sink
    let s := (fresh ⟨{ mode := .button }, { capacity := 4 }⟩ : Scanner 2 Nat Recorder).calls act cs
    let t := { s with bindings := [first, second] }
    (s.add second : Except (ScanError Unit) _) = .ok (1, t) ∧
      (∀ more : List (ScanCall Nat Unit _), (t.calls act more).bindings[1]? = some second) ∧
      (s.add ⟨4, ⟨1⟩, .activeLow⟩ : Except (ScanError Unit) _) = .error (.duplicateId ⟨1⟩) ∧
      s.call act (.add ⟨4, ⟨1⟩, .activeLow⟩ : ScanCall Nat Unit _) = s ∧
      t.size = 2 ∧ (t.add ⟨5, ⟨2⟩, .activeHigh⟩ : Except (ScanError Unit) _) = .error (.idOutOfRange ⟨2⟩) := by
  intro read first second cs act s t
  obtain ⟨-, -, -, -, hslot, -, hfail, -⟩ := slots_stand (n := 2) act ⟨{ mode := .button }, { capacity := 4 }⟩ cs
  have hadd : (s.add second : Except (ScanError Unit) _) = .ok (1, t) := rfl
  have hdup : (s.add ⟨4, ⟨1⟩, .activeLow⟩ : Except (ScanError Unit) _) = .error (.duplicateId ⟨1⟩) := rfl
  exact ⟨hadd, fun more => (hslot second 1 t hadd more).1, hdup, (hfail _ _ hdup).2, rfl, rfl⟩

end Scanner

end ButtonPanel
