/-
  ButtonPanel.Proofs.Scanner.Resync — a scan brings the software back in step with the pins.

  `scan_resyncs`: after any run of a scanner over any sink, a scan in which every pin can be
  read and no event is refused leaves down exactly the bound buttons that their pins hold
  down; in button mode this is also what the application was told. Another scan with the
  same levels changes nothing but the sink, and offers what held buttons repeat, in slot
  order (`Settings.heldNews`).
-/

import ButtonPanel.Proofs.ButtonHistory
import ButtonPanel.Proofs.Scanner.Run
import ButtonPanel.Sink.Recorder

namespace ButtonPanel

/-- What buttons that stay down tell. -/
def Settings.heldNews (s : Settings) (held : List ButtonId) : List Event :=
  match s.mode with
  | .button => held.map .buttonRepeated
  | .command => held.map fun _ => .command s.command
  | .home => []

theorem heldNews_cons (s : Settings) (id : ButtonId) (held : List ButtonId) :
    s.heldNews (id :: held) = (s.boardEvent? id .hold).toList ++ s.heldNews held := by
  rcases s with ⟨_ | _ | _, command, homeValue⟩ <;> rfl

@[simp] theorem heldNews_nil (s : Settings) : s.heldNews [] = [] := by
  rcases s with ⟨_ | _ | _, command, homeValue⟩ <;> rfl

/-- The bound buttons that their pins hold down, in slot order. -/
def heldButtons {π ε : Type} (read : π → Except ε Bool) (bs : List (Binding π)) : List ButtonId :=
  (bs.filter (·.isHeld read)).map (·.id)

theorem mem_heldButtons {π ε : Type} {read : π → Except ε Bool} {bs : List (Binding π)} {id : ButtonId} :
    id ∈ heldButtons read bs ↔ ∃ b ∈ bs, b.isHeld read = true ∧ b.id = id := by
  simp [heldButtons, and_assoc]

/-- The bound buttons are as their pins say, and no other button is down. -/
structure InStep {n : Nat} {π ε : Type} (read : π → Except ε Bool) (bs : List (Binding π)) (down : ButtonSet n) : Prop where
  bound : ∀ b ∈ bs, down.contains b.id = b.isHeld read
  others : ∀ id, (∀ b ∈ bs, b.id ≠ id) → down.contains id = false

theorem InStep.contains_iff {n : Nat} {π ε : Type} {read : π → Except ε Bool} {bs : List (Binding π)}
    {down : ButtonSet n} (h : InStep read bs down) (id : ButtonId) :
    down.contains id = true ↔ id ∈ heldButtons read bs := by
  rw [mem_heldButtons]
  constructor
  · intro hdown
    by_cases hid : ∀ b ∈ bs, b.id ≠ id
    · rw [h.others id hid] at hdown
      cases hdown
    · push Not at hid
      obtain ⟨b, hb, rfl⟩ := hid
      exact ⟨b, hb, h.bound b hb ▸ hdown, rfl⟩
  · rintro ⟨b, hb, hheld, rfl⟩
    exact (h.bound b hb).trans hheld

namespace Scanner

variable {n : Nat} {π σ ε α : Type} [Sink σ] {read : π → Except ε Bool} {bs : List (Binding π)}

/-! ## Scans without a loss -/

theorem entries_heed (s : Scanner n π (Journal σ)) (id : ButtonId) (d : Bool) :
    s.emitter.sink.entries <+: (s.heed id d).emitter.sink.entries := Journal.entries_settle _ _ _

theorem entries_heedAll (s : Scanner n π (Journal σ)) (read : π → Except ε Bool) (bs : List (Binding π)) :
    s.emitter.sink.entries <+: (s.heedAll read bs).emitter.sink.entries := by
  induction bs generalizing s with
  | nil => exact List.prefix_refl _
  | cons b bs ih => exact (entries_heed s b.id (b.isHeld read)).trans (ih _)

/-- A level that is heeded without a loss puts its button as it says. -/
theorem down_heed {s : Scanner n π (Journal σ)} {id : ButtonId} {d : Bool} (hid : id.toNat < n)
    (hsent : (s.heed id d).emitter.sink.refused = s.emitter.sink.refused) : (s.heed id d).down = s.down.put id d := by
  have hplan : (s.down.plan s.emitter.settings id (.ofLevel d)).2 = s.down.put id d := by
    rw [ButtonSet.plan_of_lt _ _ hid, isDown_ofLevel]
  rcases (Journal.settle s.emitter s.down (s.down.plan s.emitter.settings id (.ofLevel d))).2 with
    ⟨hdown, -, -⟩ | ⟨-, -, e, -, hrefused⟩
  · exact hdown.trans hplan
  · have hlost : s.emitter.sink.refused ++ [e] = s.emitter.sink.refused := hrefused.symm.trans hsent
    simp at hlost

/-- Levels of different buttons that are heeded without a loss put each of them as its pin
    says: no later one undoes an earlier one. -/
theorem contains_heedAll (hdistinct : (bs.map (·.id)).Nodup) (hrange : ∀ b ∈ bs, b.id.toNat < n)
    (s : Scanner n π (Journal σ)) (hsent : (s.heedAll read bs).emitter.sink.refused = s.emitter.sink.refused) :
    ∀ b ∈ bs, (s.heedAll read bs).down.contains b.id = b.isHeld read := by
  induction bs generalizing s with
  | nil => exact fun b hb => (by cases hb)
  | cons b bs ih =>
    obtain ⟨hb, hdistinct⟩ := List.nodup_cons.mp hdistinct
    have hlt := hrange b List.mem_cons_self
    obtain ⟨hfirst, hrest⟩ := Journal.refused_between (entries_heed s b.id (b.isHeld read)) (entries_heedAll _ read bs) hsent
    intro c hc
    rw [heedAll_cons]
    rcases List.mem_cons.mp hc with rfl | hc
    -- the bindings that are heeded later are on other buttons
    · have hother : ∀ c' ∈ bs, c'.id ≠ c.id := fun c' hc' he => hb (List.mem_map.mpr ⟨c', hc', he⟩)
      rw [contains_heedAll_of_ne _ hother, down_heed hlt hfirst, ButtonSet.contains_put, if_pos ⟨rfl, hlt⟩]
    · exact ih hdistinct (fun d hd => hrange d (List.mem_cons_of_mem b hd)) _ hrest c hc

/-- A scan of registered buttons without a fault and without a loss brings them in step. -/
theorem Registered.inStep {s : Scanner n π (Journal σ)} (h : Registered s.bindings s.down)
    (hsent : (s.heedAll read s.bindings).emitter.sink.refused = s.emitter.sink.refused) :
    InStep read s.bindings (s.heedAll read s.bindings).down := by
  refine ⟨contains_heedAll h.distinct h.inRange s hsent, fun id hid => ?_⟩
  rw [s.contains_heedAll_of_ne hid]
  exact h.released id hid

/-! ## Scans of unchanged levels -/

/-- A level that is known already changes no button, whatever the sink answers, and offers
    what a held button repeats. -/
theorem heed_known {s : Scanner n π (Journal σ)} {id : ButtonId} (hid : id.toNat < n) {d : Bool}
    (hd : s.down.contains id = d) :
    (s.heed id d).down = s.down ∧ (s.heed id d).emitter.sink.offered =
      s.emitter.sink.offered ++ if d then (s.emitter.settings.boardEvent? id .hold).toList else [] := by
  have hput : s.down.put id d = s.down := hd ▸ ButtonSet.put_contains s.down id
  have hplan : s.down.plan s.emitter.settings id (.ofLevel d) =
      (if d then s.emitter.settings.boardEvent? id .hold else none, s.down) := by
    rw [ButtonSet.plan_of_lt _ _ hid, isDown_ofLevel, hput, hd]
    cases d <;> rfl
  obtain ⟨hoffered, hdown⟩ := Journal.settle s.emitter s.down (s.down.plan s.emitter.settings id (.ofLevel d))
  simp only [heed]
  refine ⟨?_, ?_⟩
  · rcases hdown with ⟨h, -, -⟩ | ⟨h, -, -⟩
    · rw [h, hplan]
    · rw [h]
  · rw [hoffered, hplan]
    cases d <;> rfl

theorem heedAll_known (hrange : ∀ b ∈ bs, b.id.toNat < n) (s : Scanner n π (Journal σ))
    (hknown : ∀ b ∈ bs, s.down.contains b.id = b.isHeld read) :
    (s.heedAll read bs).down = s.down ∧ (s.heedAll read bs).emitter.sink.offered =
      s.emitter.sink.offered ++ s.emitter.settings.heldNews (heldButtons read bs) := by
  induction bs generalizing s with
  | nil => simp [heldButtons]
  | cons b bs ih =>
    obtain ⟨hdown, hoffered⟩ := heed_known (hrange b List.mem_cons_self) (hknown b List.mem_cons_self)
    obtain ⟨hdown', hoffered'⟩ := ih (fun c hc => hrange c (List.mem_cons_of_mem b hc)) (s.heed b.id (b.isHeld read))
      fun c hc => hdown ▸ hknown c (List.mem_cons_of_mem b hc)
    refine ⟨hdown'.trans hdown, ?_⟩
    rw [heedAll_cons, hoffered', hoffered, settings_heed]
    cases hheld : b.isHeld read <;> simp [heldButtons, hheld, heldNews_cons]

omit [Sink σ] in
theorem eq_withSink {s t : Scanner n π σ} (hb : t.bindings = s.bindings) (hd : t.down = s.down)
    (hs : t.emitter.settings = s.emitter.settings) : t = s.withSink t.emitter.sink := by
  obtain ⟨bindings, down, settings, sink⟩ := t
  cases hb
  cases hd
  cases hs
  rfl

/-- A scan of buttons that are in step changes nothing but the sink, which is offered what
    held buttons tell and takes it if it refuses nothing. -/
theorem rescan {s : Scanner n π (Journal σ)} (hrange : ∀ b ∈ s.bindings, b.id.toNat < n)
    (hread : ∀ b ∈ s.bindings, ∃ high, read b.pin = .ok high) (hstep : InStep read s.bindings s.down) :
    let again := s.scan read
    let news := s.emitter.settings.heldNews (heldButtons read s.bindings)
    again.1 = .ok () ∧ again.2 = s.withSink again.2.emitter.sink ∧
      again.2.emitter.sink.offered = s.emitter.sink.offered ++ news ∧
      (again.2.emitter.sink.refused = s.emitter.sink.refused →
        again.2.emitter.sink.accepted = s.emitter.sink.accepted ++ news) := by
  intro again news
  have hagain : again = (.ok (), s.heedAll read s.bindings) := sampleAll_ok hread s
  obtain ⟨hdown, hoffered⟩ := heedAll_known hrange s hstep.bound
  rw [hagain]
  refine ⟨rfl, ?_, hoffered, ?_⟩
  · exact eq_withSink (bindings_heedAll read s s.bindings) hdown (settings_heedAll read s s.bindings)
  · intro hsent
    exact Journal.accepted_of_refused_eq (entries_heedAll s read s.bindings) hsent hoffered

/-! ## Resynchronisation -/

theorem keeps_buttonHistory {s : Settings} (hs : s.mode = .button) :
    Keeps n s fun (_ : List (Binding π)) down es => ButtonHistory down es where
  add _ _ _ _ _ _ h := h
  plan _ _ _ b _ r h := h.plan hs b.id r

theorem buttonHistory_calls {settings : Settings} (hs : settings.mode = .button) (sink : σ)
    (cs : List (ScanCall π ε (σ → σ))) :
    let s := (fresh ⟨settings, { sink }⟩ : Scanner n π (Journal σ)).calls Journal.disturb cs
    ButtonHistory s.down s.emitter.sink.accepted :=
  (calls_keep Journal.isLog Journal.accepted_disturb (fresh ⟨settings, { sink }⟩) (keeps_buttonHistory hs)
    buttonHistory_empty cs).2

theorem scan_resyncs (settings : Settings) (sink : σ) (cs : List (ScanCall π ε (σ → σ))) (read : π → Except ε Bool)
    (between : σ → σ) :
    let s := (fresh ⟨settings, { sink }⟩ : Scanner n π (Journal σ)).calls Journal.disturb cs
    let first := s.scan read
    let t := first.2.withSink (first.2.emitter.sink.disturb between)
    let second := t.scan read
    let news := settings.heldNews (heldButtons read s.bindings)
    (∀ b ∈ s.bindings, ∃ high, read b.pin = .ok high) → first.2.emitter.sink.refused = s.emitter.sink.refused →
      first.1 = .ok () ∧ InStep read s.bindings first.2.down ∧
      (settings.mode = .button → ∀ id,
        Phase.isOpen (buttonPhases id first.2.emitter.sink.accepted) = true ↔ id ∈ heldButtons read s.bindings) ∧
      second.1 = .ok () ∧ second.2 = t.withSink second.2.emitter.sink ∧
      second.2.emitter.sink.offered = t.emitter.sink.offered ++ news ∧
      (second.2.emitter.sink.refused = t.emitter.sink.refused →
        second.2.emitter.sink.accepted = t.emitter.sink.accepted ++ news) := by
  intro s first t second news hread hsent
  obtain ⟨hsettings, hreg⟩ : s.emitter.settings = settings ∧ Registered s.bindings s.down :=
    registered_calls settings sink cs
  have hfirst : first = (.ok (), s.heedAll read s.bindings) := sampleAll_ok hread s
  have hstep : InStep read s.bindings first.2.down := by
    rw [hfirst] at hsent ⊢
    exact hreg.inStep hsent
  have hbindings : t.bindings = s.bindings := by
    show first.2.bindings = s.bindings
    rw [hfirst, bindings_heedAll]
  have hsettings' : t.emitter.settings = settings := by
    show first.2.emitter.settings = settings
    rw [hfirst, settings_heedAll, hsettings]
  have hagain := rescan (s := t) (hbindings ▸ hreg.inRange) (hbindings ▸ hread) (hbindings ▸ hstep)
  rw [hbindings, hsettings'] at hagain
  refine ⟨by rw [hfirst], hstep, ?_, hagain⟩
  intro hmode id
  -- the first scan is one more call of the run, so what was told is still what is believed
  have htold : ButtonHistory first.2.down first.2.emitter.sink.accepted := by
    have h := buttonHistory_calls (n := n) hmode sink (cs ++ [.scan read])
    rw [calls_concat] at h
    exact h
  rw [← htold.down_eq id]
  exact hstep.contains_iff id

/-- A release is lost, and a scan is cut short by a pin that cannot be read: the software
    keeps button 0 down until the next whole scan, which also finds button 2 held. -/
theorem scan_resyncs_after_loss_and_fault :
    let up (_ : Nat) : Except Unit Bool := .ok false
    let cut (pin : Nat) : Except Unit Bool := if pin = 1 then .error () else .ok true
    let cs : List (ScanCall Nat Unit (Recorder → Recorder)) :=
      [.add ⟨0, ⟨0⟩, .activeHigh⟩, .add ⟨1, ⟨2⟩, .activeLow⟩, .scan cut, .outside (Recorder.setRejecting · true),
        .edge up 0, .outside (Recorder.setRejecting · false)]
    let s := (fresh ⟨{ mode := .button }, { sink := { capacity := 8 } }⟩ : Scanner 3 Nat (Journal Recorder)).calls
      Journal.disturb cs
    let first := s.scan up
    s.down.toList = [⟨0⟩] ∧ (∀ b ∈ s.bindings, ∃ high, up b.pin = .ok high) ∧
      first.2.emitter.sink.refused = s.emitter.sink.refused ∧
      first.2.emitter.sink.accepted = [.buttonPressed ⟨0⟩, .buttonReleased ⟨0⟩, .buttonPressed ⟨2⟩] ∧
      first.1 = .ok () ∧ InStep up s.bindings first.2.down ∧ heldButtons up s.bindings = [⟨2⟩] := by
  intro up cut cs s first
  have hread : ∀ b ∈ s.bindings, ∃ high, up b.pin = .ok high := fun b _ => ⟨false, rfl⟩
  have hsent : first.2.emitter.sink.refused = s.emitter.sink.refused := by decide
  obtain ⟨hok, hstep, -⟩ := scan_resyncs (n := 3) { mode := .button } ({ capacity := 8 } : Recorder) cs up id hread hsent
  exact ⟨by decide, hread, hsent, by decide, hok, hstep, by decide⟩

end Scanner

end ButtonPanel
