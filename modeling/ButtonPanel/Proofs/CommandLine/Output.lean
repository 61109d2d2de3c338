/-
  ButtonPanel.Proofs.CommandLine.Output — what the program prints, as a function of the
  configuration and the gestures.

  Between two gestures nothing is unread (`Panel.Idle`). A gesture whose key addresses a button
  prints the first events of what the panel tells of it, as many as the queue has room for, and
  leaves the panel idle again (`Idle.step`). So gestures that can all be done print one after
  the other (`Idle.play_append`), and the first one that cannot be done ends the run.
  `run_output_exact` says this of the whole program, its exit code and its report included.
-/

import ButtonPanel.CommandLine.Run
import ButtonPanel.Proofs.Panel.Build
import ButtonPanel.Proofs.Panel.Gestures
import ButtonPanel.Proofs.Queue.Order

namespace ButtonPanel

namespace PanelConfig

def Knows (c : PanelConfig) (g : Gesture) : Prop := (addressed? c.buttons g.key).isSome

instance (c : PanelConfig) (g : Gesture) : Decidable (c.Knows g) := inferInstanceAs (Decidable (_ = true))

def news (c : PanelConfig) (g : Gesture) : List Event :=
  match addressed? c.buttons g.key with
  | none => []
  | some w => c.listener.news w.id g.verb

/-- What is printed of a gesture: the events that the queue has room for. -/
def told (c : PanelConfig) (g : Gesture) : List Event := (c.news g).take c.queueDepth.toNat

theorem news_of_some {c : PanelConfig} {g : Gesture} {w : Widget} (h : addressed? c.buttons g.key = some w) :
    c.news g = c.listener.news w.id g.verb := by
  rw [news, h]

end PanelConfig

structure Panel.Idle (c : PanelConfig) (p : Panel Queue) : Prop where
  widgets : p.widgets = c.buttons
  settings : p.emitter.settings = c.listener
  sink : p.emitter.sink = { capacity := c.queueDepth.toNat }

namespace CommandLine

variable {c : PanelConfig} {p : Panel Queue} {g : Gesture}

theorem idle_panel (c : PanelConfig) : c.panel.Idle c := ⟨rfl, rfl, rfl⟩

theorem Idle.step (h : p.Idle c) {w : Widget} (hw : addressed? c.buttons g.key = some w) :
    ∃ q, g.apply p = .ok (w.id, q) ∧ q.drain.1 = c.told g ∧ q.drain.2.Idle c := by
  obtain ⟨held, hq⟩ := Gesture.apply_of_some (p := p) (g := g) (by rw [h.widgets]; exact hw)
  rw [h.settings, ← PanelConfig.news_of_some hw] at hq
  refine ⟨_, hq, ?_, h.widgets, h.settings, ?_⟩
  · show (p.emitter.sink.sendAll (c.news g)).unread = c.told g
    rw [h.sink, Queue.unread_sendAll (Nat.zero_le _), List.nil_append, PanelConfig.told]
  · show ({ capacity := (p.emitter.sink.sendAll (c.news g)).capacity } : Queue) = _
    rw [h.sink, Queue.capacity_sendAll]

/-- A run goes on behind gestures that can be done: what they print comes first, and the
    gestures that follow find the panel idle. -/
theorem Idle.play_append (h : p.Idle c) (number : Nat) {before : List Gesture} (hb : ∀ g ∈ before, c.Knows g)
    (rest : List Gesture) : ∃ q : Panel Queue, q.Idle c ∧
      play p number (before ++ rest) =
        { events := before.flatMap c.told ++ (play q (number + before.length) rest).events
          error := (play q (number + before.length) rest).error } := by
  induction before generalizing p number with
  | nil => exact ⟨p, h, rfl⟩
  | cons g before ih =>
    obtain ⟨w, hw⟩ := Option.isSome_iff_exists.mp (hb g List.mem_cons_self)
    obtain ⟨q, happly, htaken, hidle⟩ := Idle.step h hw
    obtain ⟨r, hr, hplay⟩ := ih hidle (number + 1) fun b hm => hb b (List.mem_cons_of_mem g hm)
    have hnumber : number + (g :: before).length = number + 1 + before.length := by
      rw [List.length_cons]
      omega
    refine ⟨r, hr, ?_⟩
    rw [hnumber, List.cons_append, play, happly]
    simp only [hplay, htaken, List.flatMap_cons, List.append_assoc]

theorem simulate_of_known (hv : c.validate = .ok ()) (hq : Queue.Allocatable c.queueDepth.toNat) {gs : List Gesture}
    (h : ∀ g ∈ gs, c.Knows g) : simulate c gs = { events := gs.flatMap c.told } := by
  obtain ⟨q, -, hplay⟩ := Idle.play_append (idle_panel c) 1 h []
  rw [List.append_nil] at hplay
  rw [simulate, PanelConfig.build_of_valid hv hq]
  show play c.panel 1 gs = _
  rw [hplay, play, List.append_nil]

theorem simulate_of_unknown (hv : c.validate = .ok ()) (hq : Queue.Allocatable c.queueDepth.toNat)
    {before after : List Gesture} (hb : ∀ g ∈ before, c.Knows g) (hg : ¬ c.Knows g) :
    simulate c (before ++ g :: after) =
      { events := before.flatMap c.told,
        error := some (.gesture (before.length + 1) g (.unknownButton g.key)) } := by
  obtain ⟨q, hidle, hplay⟩ := Idle.play_append (idle_panel c) 1 hb (g :: after)
  have hnone : addressed? q.widgets g.key = none := by
    rw [hidle.widgets]
    exact Option.not_isSome_iff_eq_none.mp hg
  rw [simulate, PanelConfig.build_of_valid hv hq]
  show play c.panel 1 (before ++ g :: after) = _
  rw [hplay, play, Gesture.apply_of_none hnone, Nat.add_comm]
  simp only [List.append_nil]

/-! ## The whole program -/

/-- `base` is the configuration that the arguments name, or the default if they name none. -/
def Arguments.Names (a : Arguments) (files : Files) (base : PanelConfig) : Prop :=
  match a.config with
  | none => base = {}
  | some path => PanelConfig.load files path = .ok base

theorem Arguments.Names.validate {a : Arguments} {files : Files} {base : PanelConfig} (h : a.Names files base) :
    base.validate = .ok () := by
  unfold Arguments.Names at h
  split at h
  · rw [h]
    exact PanelConfig.validate_default
  · exact PanelConfig.validate_of_load h

/-- The mode of the arguments, if they give one, replaces that of the configuration. -/
theorem Arguments.Names.loadConfig {a : Arguments} {files : Files} {base : PanelConfig} (h : a.Names files base) :
    a.loadConfig files =
      .ok { base with listener := { base.listener with mode := a.mode.getD base.listener.mode } } := by
  obtain ⟨config, mode, source⟩ := a
  cases config with
  | none =>
    rw [show base = {} from h]
    cases mode <;> rfl
  | some path =>
    have hload : PanelConfig.load files path = .ok base := h
    simp only [Arguments.loadConfig, hload]
    cases mode <;> rfl

def printed (es : List Event) : String := String.join (es.map fun e => e.text ++ "\n")

theorem run_output_exact {files : Files} {args : List String} {a : Arguments} {base : PanelConfig} {gs : List Gesture}
    (hargs : Request.parse args = .ok (.run a)) (hbase : a.Names files base) (hgs : a.loadGestures files = .ok gs)
    (hroom : Queue.Allocatable base.queueDepth.toNat) :
    let c := { base with listener := { base.listener with mode := a.mode.getD base.listener.mode } }
    ((∀ g ∈ gs, c.Knows g) → run files args = { exit := 0, stdout := printed (gs.flatMap c.told) }) ∧
    (∀ before g after, gs = before ++ g :: after → (∀ b ∈ before, c.Knows b) → ¬ c.Knows g →
      run files args =
        { exit := 1
          stdout := printed (before.flatMap c.told)
          stderr := ErrorReport.render
            { error := "action " ++ (before.length + 1).repr ++ " `" ++ g.text ++ "`"
              causes := ["No button named or numbered '" ++ g.key ++ "'"] } }) := by
  intro c
  have hv : c.validate = .ok () := hbase.validate
  have hrun : run files args = (simulate c gs).outcome := by
    rw [run, hargs]
    show (a.trace files).outcome = _
    rw [Arguments.trace, hbase.loadConfig, hgs]
  constructor
  · intro hall
    rw [hrun, simulate_of_known hv hroom hall]
    rfl
  · rintro before g after rfl hb hg
    rw [hrun, simulate_of_unknown hv hroom hb hg]
    rfl

/-- The mode given replaces that of the file, whose queue has room for one event. So a click in
    button mode prints one line, and the unknown button ends the run before the last gesture. -/
theorem run_output_exact_until_an_unknown_button :
    let base : PanelConfig := { listener := { mode := .home }, queueDepth := 1 }
    let files : Files := fun _ => .ok (Document.panelConfig.encode base).toUTF8
    let args := ["--config", "panel.json", "--mode", "button", "click:USER", "press:0", "press:MENU", "click:USER"]
    let gs : List Gesture := [⟨.click, "USER"⟩, ⟨.press, "0"⟩, ⟨.press, "MENU"⟩, ⟨.click, "USER"⟩]
    let a : Arguments := { config := some "panel.json", mode := some .button, source := .gestures gs }
    Request.parse args = .ok (.run a) ∧ a.Names files base ∧
      run files args =
        { exit := 1
          stdout := "button pressed #0\nbutton pressed #0\n"
          stderr := ErrorReport.render
            { error := "action 3 `press:MENU`", causes := ["No button named or numbered 'MENU'"] } } := by
  intro base files args gs a
  have hargs : Request.parse args = .ok (.run a) := by decide +kernel
  have hbase : a.Names files base := by
    show PanelConfig.load files "panel.json" = .ok base
    decide +kernel
  have hroom : Queue.Allocatable base.queueDepth.toNat := by decide
  have hstop := (run_output_exact hargs hbase rfl hroom).2 [⟨.click, "USER"⟩, ⟨.press, "0"⟩] ⟨.press, "MENU"⟩
    [⟨.click, "USER"⟩] rfl (by decide) (by decide)
  exact ⟨hargs, hbase, hstop.trans (by decide +kernel)⟩

end CommandLine

end ButtonPanel
