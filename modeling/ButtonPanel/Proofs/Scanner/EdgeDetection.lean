/-
  ButtonPanel.Proofs.Scanner.EdgeDetection — a scanner by the samples that it took. A sample finds the
  button of a slot up or down, or the pin cannot be read (`Sample`). What it tells is decided by what
  it finds and by what the last sample of the slot found that could be read, the button being up
  before the first (`lastLevel`, `Settings.edgeNews`).

  `edges_detected`: over a sink that accepts everything, after every run of a scanner,
  - what was offered is what the samples tell, one after the other, and nothing else;
  - a bound button is down exactly if the last sample that could be read found it down, and no other
    button is;
  - the settings do not matter to that, so the three modes know the same buttons to be down;
  - nor does it matter whether a pin is active high or active low, if its levels go with it.

  `Detects` is the invariant. Each sample keeps it, whether it can be read (`Detects.level`) or not
  (`Detects.fault`), so each call does (`Detects.call`), and every run (`Detects.calls`).
-/

import Mathlib.Data.List.Basic
import ButtonPanel.Proofs.Board.Loss
import ButtonPanel.Proofs.Scanner.Inversion

namespace ButtonPanel

/-! ## Samples -/

structure Sample where
  slot : Nat
  id : ButtonId
  /-- Whether the button is down, by the polarity of its binding, if the pin could be read. -/
  isDown? : Option Bool
  deriving DecidableEq, Repr

/-- Whether the last sample of a slot that could be read found its button down. -/
def lastLevel (slot : Nat) (samples : List Sample) : Bool :=
  ((samples.filter (·.slot = slot)).filterMap (·.isDown?)).getLast?.getD false

def Settings.edgeNews (s : Settings) (id : ButtonId) (before now : Bool) : List Event :=
  match s.mode, before, now with
  | .button, false, true => [.buttonPressed id]
  | .button, true, true => [.buttonRepeated id]
  | .button, true, false => [.buttonReleased id]
  | .command, _, true => [.command s.command]
  | .home, false, true => [.generic "WADAPPS" s.homeValue]
  | _, _, _ => []

def Sample.news (s : Settings) (before : List Sample) (x : Sample) : List Event :=
  match x.isDown? with
  | some isDown => s.edgeNews x.id (lastLevel x.slot before) isDown
  | none => []

/-- What samples tell one after the other, after those before them. -/
def sampleNews (s : Settings) (before : List Sample) : List Sample → List Event
  | [] => []
  | x :: xs => x.news s before ++ sampleNews s (before ++ [x]) xs

theorem lastLevel_concat (slot : Nat) (xs : List Sample) (x : Sample) :
    lastLevel slot (xs ++ [x]) =
      if x.slot = slot then x.isDown?.getD (lastLevel slot xs) else lastLevel slot xs := by
  by_cases hs : x.slot = slot
  · cases hx : x.isDown? <;> simp [lastLevel, hs, hx]
  · simp [lastLevel, hs]

/-- A slot that was not sampled is that of a button that is up. -/
theorem lastLevel_of_not_mem {slot : Nat} {xs : List Sample} (h : ∀ x ∈ xs, x.slot ≠ slot) :
    lastLevel slot xs = false := by
  have hnone : xs.filter (·.slot = slot) = [] := List.filter_eq_nil_iff.mpr fun x hx => by simpa using h x hx
  rw [lastLevel, hnone]
  rfl

theorem sampleNews_concat (s : Settings) (before xs : List Sample) (x : Sample) :
    sampleNews s before (xs ++ [x]) = sampleNews s before xs ++ x.news s (before ++ xs) := by
  induction xs generalizing before with
  | nil => simp [sampleNews]
  | cons y ys ih => simp only [List.cons_append, sampleNews, ih, List.append_assoc, List.nil_append]

theorem edgeNews_eq (s : Settings) (id : ButtonId) (before now : Bool) :
    (((ButtonReport.ofLevel now).phase? before).bind (s.boardEvent? id)).toList = s.edgeNews id before now := by
  rcases s with ⟨_ | _ | _, command, homeValue⟩ <;> cases before <;> cases now <;> rfl

section Taken

variable {π ε α : Type}

def Binding.sampled (read : π → Except ε Bool) (slot : Nat) (b : Binding π) : Sample :=
  ⟨slot, b.id, match read b.pin with
    | .ok high => some (b.polarity.isDown high)
    | .error _ => none⟩

/-- The samples of bindings in consecutive slots, up to the first whose pin cannot be read. -/
def samplesFrom (read : π → Except ε Bool) (slot : Nat) : List (Binding π) → List Sample
  | [] => []
  | b :: bs =>
    match read b.pin with
    | .ok _ => b.sampled read slot :: samplesFrom read (slot + 1) bs
    | .error _ => [b.sampled read slot]

def ScanCall.samples (bs : List (Binding π)) : ScanCall π ε α → List Sample
  | .edge read slot => (bs[slot]?.map (·.sampled read slot)).toList
  | .scan read => samplesFrom read 0 bs
  | .add _ | .outside _ => []

theorem Binding.sampled_ok {read : π → Except ε Bool} {b : Binding π} {high : Bool} (h : read b.pin = .ok high)
    (slot : Nat) : b.sampled read slot = ⟨slot, b.id, some (b.isHeld read)⟩ := by
  simp only [sampled, isHeld, h]

theorem Binding.sampled_error {read : π → Except ε Bool} {b : Binding π} {fault : ε} (h : read b.pin = .error fault)
    (slot : Nat) : b.sampled read slot = ⟨slot, b.id, none⟩ := by
  simp only [sampled, h]

end Taken

/-- An emitter whose sink accepts everything takes every plan. -/
theorem Emitter.settle_of_accepts {σ τ : Type} [Sink σ] (haccepts : ∀ (sink : σ) e, (Sink.send sink e).1 = .accepted)
    (m : Emitter (Journal σ)) (state : τ) (plan : Option Event × τ) :
    (m.settle state plan).1 = plan.2 ∧
      (m.settle state plan).2.sink.entries = m.sink.entries ++ plan.1.toList.map fun e => (e, .accepted) := by
  rcases m.settle_cases state plan with ⟨hp, h⟩ | ⟨e, hp, -, h⟩ | ⟨e, why, -, hr, -⟩
  · rw [h, hp]
    simp
  · rw [h, hp]
    simp [Sink.send, Journal.send, haccepts]
  · cases (haccepts m.sink.sink e).symm.trans hr

namespace Scanner

variable {n : Nat} {π σ ε α : Type} [Sink σ]

def samples (act : σ → α → σ) (s : Scanner n π σ) : List (ScanCall π ε α) → List Sample
  | [] => []
  | c :: cs => c.samples s.bindings ++ (s.call act c).samples act cs

/-! ## What the samples say -/

structure Detects (settings : Settings) (s : Scanner n π (Journal σ)) (xs : List Sample) : Prop where
  kept : s.emitter.settings = settings
  registered : Registered s.bindings s.down
  bound : ∀ x ∈ xs, x.slot < s.bindings.length
  known : ∀ slot b, s.bindings[slot]? = some b → s.down.contains b.id = lastLevel slot xs
  told : s.emitter.sink.entries = (sampleNews settings [] xs).map fun e => (e, .accepted)

omit [Sink σ] in
theorem detects_fresh (settings : Settings) (sink : σ) :
    Detects settings (fresh ⟨settings, { sink }⟩ : Scanner n π (Journal σ)) [] where
  kept := rfl
  registered := registered_nil
  bound x hx := by cases hx
  known slot b hb := by cases hb
  told := rfl

/-- Over a sink that accepts everything a button is as it was found, and the edge is told. -/
theorem heed_of_accepts (haccepts : ∀ (sink : σ) e, (Sink.send sink e).1 = .accepted) (s : Scanner n π (Journal σ))
    {id : ButtonId} (hid : id.toNat < n) (isDown : Bool) :
    (s.heed id isDown).down = s.down.put id isDown ∧
      (s.heed id isDown).emitter.sink.entries = s.emitter.sink.entries ++
        (s.emitter.settings.edgeNews id (s.down.contains id) isDown).map fun e => (e, .accepted) := by
  obtain ⟨hdown, hentries⟩ := s.emitter.settle_of_accepts haccepts s.down
    (s.down.plan s.emitter.settings id (.ofLevel isDown))
  rw [heed, hdown, hentries, ButtonSet.plan_of_lt _ _ hid, edgeNews_eq, isDown_ofLevel]
  exact ⟨rfl, rfl⟩

omit [Sink σ] in
/-- Different slots are those of different buttons. -/
theorem Registered.slot_eq {bs : List (Binding π)} {down : ButtonSet n} (h : Registered bs down) {i j : Nat}
    {b c : Binding π} (hb : bs[i]? = some b) (hc : bs[j]? = some c) (hid : b.id = c.id) : i = j := by
  have hi : i < (bs.map (·.id)).length := by
    rw [List.length_map]
    exact (List.getElem?_eq_some_iff.mp hb).1
  refine (List.getElem?_inj hi h.distinct).mp ?_
  rw [List.getElem?_map, List.getElem?_map, hb, hc, Option.map_some, Option.map_some, hid]

variable {settings : Settings} {s : Scanner n π (Journal σ)} {xs : List Sample} {read : π → Except ε Bool}
  {slot : Nat} {b : Binding π}

omit [Sink σ] in
/-- A sample adds a slot that is bound. -/
theorem Detects.bound_concat (h : Detects settings s xs) (hb : s.bindings[slot]? = some b) :
    ∀ x ∈ xs ++ [b.sampled read slot], x.slot < s.bindings.length := by
  intro x hx
  rcases List.mem_append.mp hx with hx | hx
  · exact h.bound x hx
  · obtain rfl := List.mem_singleton.mp hx
    exact (List.getElem?_eq_some_iff.mp hb).1

theorem Detects.level (haccepts : ∀ (sink : σ) e, (Sink.send sink e).1 = .accepted) (h : Detects settings s xs)
    (hb : s.bindings[slot]? = some b) {high : Bool} (hl : read b.pin = .ok high) :
    Detects settings (s.heed b.id (b.isHeld read)) (xs ++ [b.sampled read slot]) := by
  have hmem : b ∈ s.bindings := List.mem_of_getElem? hb
  obtain ⟨hdown, hentries⟩ := s.heed_of_accepts haccepts (h.registered.inRange b hmem) (b.isHeld read)
  have hregistered : Registered s.bindings (s.heed b.id (b.isHeld read)).down :=
    (upholds_registered s.emitter.settings Journal.disturb).settle s.bindings s.down s.emitter.sink b hmem _ h.registered
  refine ⟨(settings_heed ..).trans h.kept, hregistered, h.bound_concat hb, fun slot' c hc => ?_, ?_⟩
  · rw [lastLevel_concat, Binding.sampled_ok hl, hdown, ButtonSet.contains_put]
    by_cases hslot : slot = slot'
    · subst hslot
      cases hb.symm.trans hc
      simp [h.registered.inRange b hmem]
    · have hid : c.id ≠ b.id := fun hid => hslot (h.registered.slot_eq hb hc hid.symm)
      simp [hslot, hid, h.known slot' c hc]
  · rw [hentries, h.told, h.kept, sampleNews_concat, List.map_append, List.nil_append, Binding.sampled_ok hl,
      Sample.news, h.known slot b hb]

omit [Sink σ] in
/-- A sample that could not be read says nothing. -/
theorem Detects.fault (h : Detects settings s xs) (hb : s.bindings[slot]? = some b) {fault : ε}
    (hf : read b.pin = .error fault) : Detects settings s (xs ++ [b.sampled read slot]) := by
  refine ⟨h.kept, h.registered, h.bound_concat hb, fun slot' c hc => ?_, ?_⟩
  · rw [h.known slot' c hc, lastLevel_concat, Binding.sampled_error hf]
    simp
  · rw [h.told, sampleNews_concat, Binding.sampled_error hf, Sample.news, List.append_nil]

/-- A new binding is in a slot that was not sampled yet, and its button is up. -/
theorem Detects.add (h : Detects settings s xs) (hid : b.id.toNat < n) (hnew : ∀ c ∈ s.bindings, c.id ≠ b.id) :
    Detects settings { s with bindings := s.bindings ++ [b] } xs := by
  have hregistered : Registered (s.bindings ++ [b]) s.down :=
    (upholds_registered settings Journal.disturb).add s.bindings s.down s.emitter.sink b hid hnew h.registered
  refine ⟨h.kept, hregistered, fun x hx => ?_, fun slot c hc => ?_, h.told⟩
  · have hlt := h.bound x hx
    simp only [List.length_append, List.length_singleton]
    omega
  · have hc : (s.bindings ++ [b])[slot]? = some c := hc
    by_cases hslot : slot < s.bindings.length
    · rw [List.getElem?_append_left hslot] at hc
      exact h.known slot c hc
    · have hlast : slot = s.bindings.length := by
        have hlt := (List.getElem?_eq_some_iff.mp hc).1
        simp only [List.length_append, List.length_singleton] at hlt
        omega
      subst hlast
      rw [List.getElem?_concat_length] at hc
      cases hc
      rw [lastLevel_of_not_mem fun x hx => Nat.ne_of_lt (h.bound x hx)]
      exact h.registered.released b.id hnew

/-- Bindings that are sampled in order from a slot on, up to the first that cannot be read. -/
theorem Detects.sampleAll (haccepts : ∀ (sink : σ) e, (Sink.send sink e).1 = .accepted) {bs : List (Binding π)}
    (h : Detects settings s xs) (hbs : s.bindings.drop slot = bs) :
    Detects settings (s.sampleAll read bs).2 (xs ++ samplesFrom read slot bs) := by
  induction bs generalizing s xs slot with
  | nil =>
    rw [samplesFrom, List.append_nil]
    exact h
  | cons b bs ih =>
    have hb : s.bindings[slot]? = some b := by
      rw [← List.head?_drop, hbs]
      rfl
    cases hread : read b.pin with
    | error fault =>
      simp only [Scanner.sampleAll, samplesFrom, sample_error hread, hread]
      exact h.fault hb hread
    | ok high =>
      have hrest : (s.heed b.id (b.isHeld read)).bindings.drop (slot + 1) = bs := by
        rw [bindings_heed, ← List.tail_drop, hbs]
        rfl
      have hlater := ih (h.level haccepts hb hread) hrest
      simp only [Scanner.sampleAll, samplesFrom, sample_ok hread, hread]
      rwa [List.append_assoc] at hlater

theorem Detects.call (haccepts : ∀ (sink : σ) e, (Sink.send sink e).1 = .accepted) (h : Detects settings s xs)
    (c : ScanCall π ε (σ → σ)) : Detects settings (s.call Journal.disturb c) (xs ++ c.samples s.bindings) := by
  cases c with
  | add b =>
    rw [ScanCall.samples, List.append_nil]
    rcases add_cases (ε := ε) s b with ⟨e, hadd⟩ | ⟨hid, hnew, -, hadd⟩
    · simp only [Scanner.call, hadd]
      exact h
    · simp only [Scanner.call, hadd]
      exact h.add hid hnew
  | edge read slot =>
    simp only [Scanner.call, edge, ScanCall.samples]
    cases hb : s.bindings[slot]? with
    | none =>
      rw [Option.map_none, Option.toList_none, List.append_nil]
      exact h
    | some b =>
      cases hread : read b.pin with
      | error fault =>
        simp only [sample_error hread]
        exact h.fault hb hread
      | ok high =>
        simp only [sample_ok hread]
        exact h.level haccepts hb hread
  | scan read => exact h.sampleAll haccepts rfl
  | outside f =>
    rw [ScanCall.samples, List.append_nil]
    exact ⟨h.kept, h.registered, h.bound, h.known, h.told⟩

theorem Detects.calls (haccepts : ∀ (sink : σ) e, (Sink.send sink e).1 = .accepted) (h : Detects settings s xs)
    (cs : List (ScanCall π ε (σ → σ))) :
    Detects settings (s.calls Journal.disturb cs) (xs ++ s.samples Journal.disturb cs) := by
  induction cs generalizing s xs with
  | nil =>
    rw [samples, List.append_nil]
    exact h
  | cons c cs ih =>
    have hlater := ih (h.call haccepts c)
    rwa [List.append_assoc] at hlater

/-! ## What the samples depend on -/

theorem bindings_call_congr {act : σ → α → σ} {s t : Scanner n π σ} (h : s.bindings = t.bindings)
    (c : ScanCall π ε α) : (s.call act c).bindings = (t.call act c).bindings := by
  cases c with
  | add b =>
    simp only [Scanner.call, Scanner.add, h]
    by_cases hid : n ≤ b.id.toNat
    · rw [if_pos hid, if_pos hid]
      exact h
    rw [if_neg hid, if_neg hid]
    by_cases hdup : t.bindings.any (·.id = b.id) = true
    · rw [if_pos hdup, if_pos hdup]
      exact h
    rw [if_neg hdup, if_neg hdup]
    by_cases hfull : n ≤ t.bindings.length
    · rw [if_pos hfull, if_pos hfull]
      exact h
    rw [if_neg hfull, if_neg hfull]
  | edge read slot => rw [Scanner.call, Scanner.call, bindings_edge, bindings_edge, h]
  | scan read => rw [Scanner.call, Scanner.call, scan, scan, bindings_sampleAll, bindings_sampleAll, h]
  | outside a => exact h

theorem bindings_calls_congr {act : σ → α → σ} {s t : Scanner n π σ} (h : s.bindings = t.bindings)
    (cs : List (ScanCall π ε α)) : (s.calls act cs).bindings = (t.calls act cs).bindings := by
  induction cs generalizing s t with
  | nil => exact h
  | cons c cs ih => exact ih (bindings_call_congr h c)

/-- The samples of a run depend on the bindings alone. -/
theorem samples_congr {act : σ → α → σ} {s t : Scanner n π σ} (h : s.bindings = t.bindings) (cs : List (ScanCall π ε α)) :
    s.samples act cs = t.samples act cs := by
  induction cs generalizing s t with
  | nil => rfl
  | cons c cs ih => rw [samples, samples, h, ih (bindings_call_congr h c)]

theorem edges_detected (haccepts : ∀ (sink : σ) e, (Sink.send sink e).1 = .accepted) (settings : Settings) (sink : σ)
    (cs : List (ScanCall π ε (σ → σ))) :
    let start (settings : Settings) : Scanner n π (Journal σ) := fresh ⟨settings, { sink }⟩
    let s := (start settings).calls Journal.disturb cs
    let xs := (start settings).samples Journal.disturb cs
    s.emitter.sink.entries = (sampleNews settings [] xs).map (fun e => (e, .accepted)) ∧
    (∀ (read : π → Except ε Bool) slot b, s.bindings[slot]? = some b →
      (s.edge read slot).2.emitter.sink.entries =
        s.emitter.sink.entries ++ ((b.sampled read slot).news settings xs).map fun e => (e, .accepted)) ∧
    (∀ slot b, s.bindings[slot]? = some b → s.down.contains b.id = lastLevel slot xs) ∧
    (∀ id, (∀ b ∈ s.bindings, b.id ≠ id) → s.down.contains id = false) ∧
    (∀ other, let t := (start other).calls Journal.disturb cs
      t.bindings = s.bindings ∧ ∀ id, t.down.contains id = s.down.contains id) ∧
    ∀ inverted : π → Bool, let t := (start settings).calls Journal.disturb (cs.map (·.invert inverted))
      t.emitter = s.emitter ∧ t.down = s.down := by
  intro start s xs
  have h : Detects settings s xs := (detects_fresh settings sink).calls haccepts cs
  refine ⟨h.told, fun read slot b hb => ?_, h.known, h.registered.released, ?_, ?_⟩
  · have hafter := h.call haccepts (.edge read slot)
    have hsample : (ScanCall.edge read slot : ScanCall π ε (σ → σ)).samples s.bindings = [b.sampled read slot] := by
      rw [ScanCall.samples, hb]
      rfl
    rw [hsample] at hafter
    rw [h.told, ← List.map_append]
    refine hafter.told.trans ?_
    rw [sampleNews_concat, List.nil_append]
  · intro other t
    have hsamples : (start other).samples Journal.disturb cs = xs :=
      samples_congr (s := start other) (t := start settings) rfl cs
    have ht : Detects other t xs := hsamples ▸ (detects_fresh other sink).calls haccepts cs
    have hbindings : t.bindings = s.bindings :=
      bindings_calls_congr (s := start other) (t := start settings) rfl cs
    refine ⟨hbindings, fun id => ?_⟩
    by_cases hid : ∃ b ∈ s.bindings, b.id = id
    · obtain ⟨b, hb, rfl⟩ := hid
      obtain ⟨slot, hslot⟩ := List.mem_iff_getElem?.mp hb
      rw [h.known slot b hslot, ht.known slot b (hbindings ▸ hslot)]
    · push Not at hid
      rw [h.registered.released id hid, ht.registered.released id (hbindings ▸ hid)]
  · intro inverted t
    have ht : t = s.invert inverted := calls_invert inverted Journal.disturb (start settings) cs
    rw [ht]
    exact ⟨rfl, rfl⟩

/-- Two buttons, one of them active low, are scanned. The second scan is cut short at the pin of the
    other one; the sample that failed does not count, so what comes next is its press. -/
theorem edges_detected_around_a_fault :
    let high (_ : Nat) : Except Unit Bool := .ok true
    let cut (pin : Nat) : Except Unit Bool := if pin = 7 then .error () else .ok true
    let low (_ : Nat) : Except Unit Bool := .ok false
    let cs : List (ScanCall Nat Unit (Willing → Willing)) :=
      [.add ⟨4, ⟨0⟩, .activeHigh⟩, .add ⟨7, ⟨2⟩, .activeLow⟩, .scan high, .scan cut, .edge low 1, .scan low]
    let start (s : Settings) : Scanner 3 Nat (Journal Willing) := fresh ⟨s, { sink := {} }⟩
    let s := (start { mode := .button }).calls Journal.disturb cs
    let xs := (start { mode := .button }).samples Journal.disturb cs
    let told : List Event :=
      [.buttonPressed ⟨0⟩, .buttonRepeated ⟨0⟩, .buttonPressed ⟨2⟩, .buttonReleased ⟨0⟩, .buttonRepeated ⟨2⟩]
    (∀ (sink : Willing) e, (Sink.send sink e).1 = .accepted) ∧
      xs = [⟨0, ⟨0⟩, some true⟩, ⟨1, ⟨2⟩, some false⟩, ⟨0, ⟨0⟩, some true⟩, ⟨1, ⟨2⟩, none⟩, ⟨1, ⟨2⟩, some true⟩,
        ⟨0, ⟨0⟩, some false⟩, ⟨1, ⟨2⟩, some true⟩] ∧
      s.emitter.sink.entries = told.map (fun e => (e, .accepted)) ∧
      s.down.contains ⟨2⟩ = true ∧
      ((start { mode := .home }).calls Journal.disturb cs).down.contains ⟨2⟩ = s.down.contains ⟨2⟩ ∧
      ((start { mode := .button }).calls Journal.disturb (cs.map (·.invert (· = 4)))).emitter = s.emitter := by
  intro high cut low cs start s xs told
  have haccepts : ∀ (sink : Willing) e, (Sink.send sink e).1 = .accepted := fun _ _ => rfl
  obtain ⟨htold, -, hknown, -, hmodes, hinverted⟩ :=
    edges_detected (n := 3) haccepts { mode := .button } {} cs
  have hsamples : xs = [⟨0, ⟨0⟩, some true⟩, ⟨1, ⟨2⟩, some false⟩, ⟨0, ⟨0⟩, some true⟩, ⟨1, ⟨2⟩, none⟩,
      ⟨1, ⟨2⟩, some true⟩, ⟨0, ⟨0⟩, some false⟩, ⟨1, ⟨2⟩, some true⟩] := by decide
  have hnews : sampleNews { mode := .button } [] xs = told := by
    rw [hsamples]
    decide
  have hbindings : s.bindings[1]? = some ⟨7, ⟨2⟩, .activeLow⟩ := by decide
  have hlast : lastLevel 1 xs = true := by
    rw [hsamples]
    decide
  have hdown : s.down.contains ⟨2⟩ = true := (hknown 1 _ hbindings).trans hlast
  have hentries : (sampleNews { mode := .button } [] xs).map (fun e => (e, Reply.accepted)) =
      told.map (fun e => (e, .accepted)) := congrArg _ hnews
  have hhome := (hmodes { mode := .home }).2 ⟨2⟩
  have hwired := (hinverted (· = 4)).1
  -- two spellings of the scanner are compared here, which must not run it
  with_reducible exact ⟨haccepts, hsamples, htold.trans hentries, hdown, hhome, hwired⟩

end Scanner

end ButtonPanel
