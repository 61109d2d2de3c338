/-
  ButtonPanel.Proofs.Scanner.Faults — pins that cannot be read. A sample of such a pin fails and
  changes nothing; a sample that can be read gives the level as the polarity has it, whether or
  not its event was taken.

  `scan_stops_at_fault`: after every run of a scanner, a scan is the sampling of its slots one by
  one, up to the first that cannot be read (`edges`). What it offers is what those before that
  slot have to tell, in their order (`Binding.news`); the others keep their buttons as they were.

  The bindings are on different buttons, so what one of them tells does not depend on the samples
  before it, nor on whether their events were taken (`heedAll_tells`).
-/

import Mathlib.Data.List.Basic
import ButtonPanel.Proofs.Scanner.Run
import ButtonPanel.Sink.Recorder

namespace ButtonPanel

def Binding.news {n : Nat} {π ε : Type} (read : π → Except ε Bool) (s : Settings) (down : ButtonSet n) (b : Binding π) :
    List Event :=
  (((ButtonReport.ofLevel (b.isHeld read)).phase? (down.contains b.id)).bind (s.boardEvent? b.id)).toList

namespace Scanner

variable {n : Nat} {π σ ε α : Type} [Sink σ] {read : π → Except ε Bool} {bs : List (Binding π)}

/-- Samples slots one by one, whatever comes of it. -/
def edges (read : π → Except ε Bool) (s : Scanner n π σ) (slots : List Nat) : Scanner n π σ :=
  slots.foldl (fun s slot => (s.edge read slot).2) s

/-! ## One sample -/

theorem edge_of_size_le {s : Scanner n π σ} {slot : Nat} (h : s.size ≤ slot) :
    s.edge read slot = (.error (.unknownSlot slot), s) := by
  have hnone : s.bindings[slot]? = none := List.getElem?_eq_none h
  simp only [edge, hnone]

theorem edge_of_fault {s : Scanner n π σ} {slot : Nat} {b : Binding π} {fault : ε} (hb : s.bindings[slot]? = some b)
    (hf : read b.pin = .error fault) : s.edge read slot = (.error (.pin fault), s) := by
  simp only [edge, hb, sample_error hf]

theorem edge_of_level {s : Scanner n π σ} {slot : Nat} {b : Binding π} {high : Bool} (hb : s.bindings[slot]? = some b)
    (hl : read b.pin = .ok high) :
    s.edge read slot = (.ok (b.polarity.isDown high), s.heed b.id (b.isHeld read)) := by
  have hheld : b.isHeld read = b.polarity.isDown high := by simp only [Binding.isHeld, hl]
  simp only [edge, hb, sample_ok hl, hheld]

/-- A sample that fails changes nothing, and the slot is unknown or its pin cannot be read. -/
theorem edge_error {s : Scanner n π σ} {slot : Nat} {e : ScanError ε} (h : (s.edge read slot).1 = .error e) :
    (s.edge read slot).2 = s ∧
      ((s.size ≤ slot ∧ e = .unknownSlot slot) ∨
        ∃ b fault, s.bindings[slot]? = some b ∧ read b.pin = .error fault ∧ e = .pin fault) := by
  cases hb : s.bindings[slot]? with
  | none =>
    have hsize : s.size ≤ slot := List.getElem?_eq_none_iff.mp hb
    rw [edge_of_size_le hsize] at h ⊢
    exact ⟨rfl, Or.inl ⟨hsize, (Except.error.inj h).symm⟩⟩
  | some b =>
    cases hread : read b.pin with
    | error fault =>
      rw [edge_of_fault hb hread] at h ⊢
      exact ⟨rfl, Or.inr ⟨b, fault, rfl, hread, (Except.error.inj h).symm⟩⟩
    | ok high =>
      rw [edge_of_level hb hread] at h
      cases h

/-! ## Samples in a row -/

/-- The first slots, sampled one by one, are heeded in order if they can be read. -/
theorem edges_range (s : Scanner n π σ) {k : Nat} (hk : k ≤ s.size)
    (h : ∀ b ∈ s.bindings.take k, ∃ high, read b.pin = .ok high) :
    s.edges read (List.range k) = s.heedAll read (s.bindings.take k) := by
  induction k with
  | zero => rfl
  | succ k ih =>
    have hlt : k < s.bindings.length := hk
    have htake : s.bindings.take (k + 1) = s.bindings.take k ++ [s.bindings[k]] := List.take_succ_eq_append_getElem hlt
    rw [htake] at h ⊢
    obtain ⟨high, hlevel⟩ := h s.bindings[k] (List.mem_append_right _ List.mem_cons_self)
    have hslot : (s.heedAll read (s.bindings.take k)).bindings[k]? = some s.bindings[k] := by
      rw [bindings_heedAll]
      exact List.getElem?_eq_getElem hlt
    have hfront := ih (Nat.le_of_succ_le hk) fun b hb => h b (List.mem_append_left _ hb)
    rw [edges] at hfront ⊢
    rw [List.range_succ, List.foldl_append, hfront, heedAll_append]
    show ((s.heedAll read (s.bindings.take k)).edge read k).2 = _
    rw [edge_of_level hslot hlevel]
    rfl

/-- Sampling bindings stops at the first that cannot be read. -/
theorem sampleAll_fault {b : Binding π} {fault : ε} (hf : read b.pin = .error fault) (rest : List (Binding π))
    (h : ∀ c ∈ bs, ∃ high, read c.pin = .ok high) (s : Scanner n π σ) :
    s.sampleAll read (bs ++ b :: rest) = (.error (.pin fault), s.heedAll read bs) := by
  induction bs generalizing s with
  | nil => simp only [List.nil_append, sampleAll, sample_error hf, heedAll_nil]
  | cons c bs ih =>
    obtain ⟨high, hc⟩ := h c List.mem_cons_self
    simp only [List.cons_append, sampleAll, sample_ok hc, heedAll_cons]
    exact ih (fun d hd => h d (List.mem_cons_of_mem c hd)) _

/-! ## What is offered -/

theorem emitter_heed (s : Scanner n π σ) (b : Binding π) (hb : b.id.toNat < n) :
    (s.heed b.id (b.isHeld read)).emitter = s.emitter.tell (b.news read s.emitter.settings s.down) := by
  rw [heed, Emitter.settle_emitter, ButtonSet.plan_of_lt _ _ hb]
  rfl

/-- Samples of different buttons tell what each of them would tell alone. -/
theorem heedAll_tells (hdistinct : (bs.map (·.id)).Nodup) (hrange : ∀ b ∈ bs, b.id.toNat < n) (s : Scanner n π σ) :
    (s.heedAll read bs).emitter = s.emitter.tell (bs.flatMap (·.news read s.emitter.settings s.down)) := by
  induction bs generalizing s with
  | nil => rfl
  | cons b bs ih =>
    obtain ⟨hb, hdistinct⟩ := List.nodup_cons.mp hdistinct
    have hlater : bs.flatMap (·.news read s.emitter.settings (s.heed b.id (b.isHeld read)).down) =
        bs.flatMap (·.news read s.emitter.settings s.down) := by
      refine List.flatMap_congr fun c hc => ?_
      have hne : c.id ≠ b.id := fun he => hb (List.mem_map.mpr ⟨c, hc, he⟩)
      rw [Binding.news, Binding.news, s.contains_heed_of_ne hne]
    rw [heedAll_cons, ih hdistinct (fun c hc => hrange c (List.mem_cons_of_mem b hc)), settings_heed,
      s.emitter_heed b (hrange b List.mem_cons_self), hlater, List.flatMap_cons, Emitter.tell_append]

/-! ## Scans -/

theorem scan_stops_at_fault (act : σ → α → σ) (m : Emitter σ) (cs : List (ScanCall π ε α)) (read : π → Except ε Bool) :
    let s := (fresh m : Scanner n π σ).calls act cs
    (∀ k b fault, s.bindings[k]? = some b → read b.pin = .error fault →
      (∀ c ∈ s.bindings.take k, ∃ high, read c.pin = .ok high) →
        s.scan read = (.error (.pin fault), s.edges read (List.range k)) ∧
        (s.scan read).2.emitter = s.emitter.tell ((s.bindings.take k).flatMap (·.news read m.settings s.down)) ∧
        ∀ c ∈ s.bindings.drop k, (s.scan read).2.down.contains c.id = s.down.contains c.id) ∧
    ((∀ b ∈ s.bindings, ∃ high, read b.pin = .ok high) →
      s.scan read = (.ok (), s.edges read (List.range s.size))) ∧
    (∀ slot e, (s.edge read slot).1 = .error e → (s.edge read slot).2 = s ∧
      ((s.size ≤ slot ∧ e = .unknownSlot slot) ∨
        ∃ b fault, s.bindings[slot]? = some b ∧ read b.pin = .error fault ∧ e = .pin fault)) ∧
    (∀ slot, s.size ≤ slot → (s.edge read slot).1 = .error (.unknownSlot slot)) ∧
    (∀ slot b fault, s.bindings[slot]? = some b → read b.pin = .error fault →
      (s.edge read slot).1 = .error (.pin fault)) ∧
    ∀ slot b high, s.bindings[slot]? = some b → read b.pin = .ok high →
      (s.edge read slot).1 = .ok (b.polarity.isDown high) := by
  intro s
  obtain ⟨hsettings, hreg⟩ : s.emitter.settings = m.settings ∧ Registered s.bindings s.down := registered_run act m cs
  refine ⟨fun k b fault hb hf hfront => ?_, fun hread => ?_, fun slot e => edge_error, fun slot hsize => ?_,
    fun slot b fault hb hf => ?_, fun slot b high hb hl => ?_⟩
  · obtain ⟨hk, rfl⟩ := List.getElem?_eq_some_iff.mp hb
    have hsplit : s.bindings = s.bindings.take k ++ s.bindings[k] :: s.bindings.drop (k + 1) := by
      rw [← List.drop_eq_getElem_cons hk, List.take_append_drop]
    have hscan : s.scan read = (.error (.pin fault), s.heedAll read (s.bindings.take k)) := by
      have h := sampleAll_fault hf (s.bindings.drop (k + 1)) hfront s
      rwa [← hsplit] at h
    have hdistinct : ((s.bindings.take k ++ s.bindings.drop k).map (·.id)).Nodup := by
      rw [List.take_append_drop]
      exact hreg.distinct
    rw [List.map_append, List.nodup_append] at hdistinct
    rw [hscan]
    refine ⟨?_, ?_, fun c hc => s.contains_heedAll_of_ne fun d hd => ?_⟩
    · rw [s.edges_range (Nat.le_of_lt hk) hfront]
    · rw [heedAll_tells hdistinct.1 (fun c hc => hreg.inRange c (List.mem_of_mem_take hc)), hsettings]
    · exact hdistinct.2.2 _ (List.mem_map_of_mem hd) _ (List.mem_map_of_mem hc)
  · have hall : s.bindings.take s.size = s.bindings := List.take_length
    have hedges := s.edges_range (Nat.le_refl _) (hall.symm ▸ hread)
    rw [hedges, hall]
    exact sampleAll_ok hread s
  · rw [edge_of_size_le hsize]
  · rw [edge_of_fault hb hf]
  · rw [edge_of_level hb hl]

/-- The second of three pins cannot be read. The press before it is refused, which its sample does
    not show; the button behind it is not sampled. Once the pin can be read all three are. -/
theorem scan_stops_at_fault_after_a_refusal :
    let cut (pin : Nat) : Except Unit Bool := if pin = 5 then .error () else .ok true
    let high (_ : Nat) : Except Unit Bool := .ok true
    let first : Binding Nat := ⟨4, ⟨0⟩, .activeHigh⟩
    let broken : Binding Nat := ⟨5, ⟨2⟩, .activeHigh⟩
    let last : Binding Nat := ⟨6, ⟨1⟩, .activeLow⟩
    let cs : List (ScanCall Nat Unit (Recorder → Recorder)) :=
      [.add first, .add broken, .add last, .edge high 1, .outside (Recorder.setRejecting · true)]
    let act (sink : Recorder) (f : Recorder → Recorder) := f sink
    let s := (fresh ⟨{ mode := .button }, { capacity := 8 }⟩ : Scanner 3 Nat Recorder).calls act cs
    s.bindings[1]? = some broken ∧ (∀ c ∈ s.bindings.take 1, ∃ high, cut c.pin = .ok high) ∧
      s.scan cut = (.error (.pin ()), s.edges cut (List.range 1)) ∧
      (s.scan cut).2.emitter = s.emitter.tell [.buttonPressed ⟨0⟩] ∧ (s.scan cut).2.down.toList = [⟨2⟩] ∧
      (s.edge cut 0).1 = .ok true ∧ (s.edge cut 1).1 = .error (.pin ()) ∧ (s.edge cut 1).2 = s ∧
      (s.edge cut 3).1 = .error (.unknownSlot 3) ∧ s.scan high = (.ok (), s.edges high (List.range 3)) := by
  intro cut high first broken last cs act s
  have hbindings : s.bindings = [first, broken, last] := by decide
  have hfirst : s.bindings[0]? = some first := by rw [hbindings]; rfl
  have hbroken : s.bindings[1]? = some broken := by rw [hbindings]; rfl
  have hsize : s.size = 3 := by rw [size, hbindings]; rfl
  have hfront : ∀ c ∈ s.bindings.take 1, ∃ high, cut c.pin = .ok high := by
    rw [hbindings]
    intro c hc
    obtain rfl := List.mem_singleton.mp hc
    exact ⟨true, rfl⟩
  have hdown : (s.scan cut).2.down.toList = [⟨2⟩] := by decide
  have hnews : (s.bindings.take 1).flatMap (·.news cut { mode := .button } s.down) = [.buttonPressed ⟨0⟩] := by decide
  obtain ⟨hcut, -, herror, hunknown, hfault, hlevel⟩ :=
    scan_stops_at_fault (n := 3) act ⟨{ mode := .button }, { capacity := 8 }⟩ cs cut
  obtain ⟨-, hwhole, -⟩ := scan_stops_at_fault (n := 3) act ⟨{ mode := .button }, { capacity := 8 }⟩ cs high
  obtain ⟨hscan, htold, -⟩ := hcut 1 broken () hbroken rfl hfront
  have hpin : (s.edge cut 1).1 = .error (.pin ()) := hfault 1 broken () hbroken rfl
  have htap : (s.edge cut 0).1 = .ok true := hlevel 0 first true hfirst rfl
  have hall : s.scan high = (.ok (), s.edges high (List.range s.size)) := hwhole fun b _ => ⟨true, rfl⟩
  rw [hsize] at hall
  have htaken : s.emitter.tell _ = s.emitter.tell [.buttonPressed ⟨0⟩] := congrArg s.emitter.tell hnews
  have hlost : (s.edge cut 3).1 = .error (.unknownSlot 3) := hunknown 3 (Nat.le_of_eq hsize)
  -- two spellings of the scanner are compared here, which must not run it
  with_reducible exact ⟨hbroken, hfront, hscan, htold.trans htaken, hdown, htap, hpin, (herror 1 _ hpin).1, hlost, hall⟩

end Scanner

end ButtonPanel
