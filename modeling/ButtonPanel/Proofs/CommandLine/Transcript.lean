/-
  ButtonPanel.Proofs.CommandLine.Transcript — what the program prints tells which events it printed.

  Everything that a front panel tells is printable (`Settings.printable_of_mem_strokeNews`), so no
  line that shows an event is broken. The lines of what is printed are then the lines of the
  events, one each (`lines_printed`), and the line of an event tells which one it is. So what a run
  printed determines its events (`output_determines_events`).
-/

import ButtonPanel.Proofs.CommandLine.Losses
import ButtonPanel.Proofs.Emitter.Strokes
import ButtonPanel.Proofs.Text.Event
import ButtonPanel.Proofs.Text.Script

namespace ButtonPanel

/-! ## What is told is printable -/

namespace Settings

variable {s : Settings} {id : ButtonId} {e : Event}

/-- The only name that a front panel tells is that of the home generator. -/
theorem printable_of_mem_strokeNews {stroke : Stroke} (h : e ∈ s.strokeNews id stroke) :
    ∀ c ∈ e.text.toList, isPrintable c = true := by
  refine Event.printable_text fun name v he => ?_
  have hname : homeGenerator = name := by
    rw [he] at h
    obtain ⟨mode, command, homeValue⟩ := s
    cases mode <;> cases stroke <;> simp [strokeNews, pressNews, releaseNews] at h
    exact h.1.symm
  rw [← hname]
  exact List.all_eq_true.mp (by decide +kernel)

/-- A gesture tells what its strokes tell. -/
theorem exists_stroke_of_mem_news {v : Verb} (h : e ∈ s.news id v) : ∃ stroke, e ∈ s.strokeNews id stroke := by
  cases v with
  | press => exact ⟨.press, h⟩
  | release => exact ⟨.release, h⟩
  | click =>
    rcases List.mem_append.mp h with hpress | hrelease
    · exact ⟨.press, hpress⟩
    · exact ⟨.release, hrelease⟩

end Settings

theorem PanelConfig.printable_of_mem_told {c : PanelConfig} {g : Gesture} {e : Event} (h : e ∈ c.told g) :
    ∀ ch ∈ e.text.toList, isPrintable ch = true := by
  have hnews : e ∈ c.news g := List.mem_of_mem_take h
  cases hw : addressed? c.buttons g.key with
  | none =>
    rw [news, hw] at hnews
    cases hnews
  | some w =>
    rw [news_of_some hw] at hnews
    obtain ⟨stroke, hstroke⟩ := Settings.exists_stroke_of_mem_news hnews
    exact Settings.printable_of_mem_strokeNews hstroke

theorem Emitter.printable_of_mem_offered {σ : Type} [Sink σ] {s : Settings} {sink : σ} {ts : List (StrokeTurn (σ → σ))}
    {e : Event}
    (h : e ∈ (({ settings := s, sink := { sink } } : Emitter (Journal σ)).turns strike Journal.disturb ts).sink.offered) :
    ∀ c ∈ e.text.toList, isPrintable c = true := by
  rw [(Journal.offered_turns _ ts).2] at h
  obtain ⟨x, -, hx⟩ := List.mem_flatMap.mp h
  exact Settings.printable_of_mem_strokeNews hx

namespace CommandLine

/-! ## Runs -/

theorem printable_of_mem_simulate {c : PanelConfig} {gs : List Gesture} {e : Event} (h : e ∈ (simulate c gs).events) :
    ∀ ch ∈ e.text.toList, isPrintable ch = true := by
  cases hbuild : c.build with
  | error why =>
    -- nothing is printed of a panel that is not built
    rw [simulate, hbuild] at h
    cases why <;> cases h
  | ok p =>
    have hv : c.validate = .ok () := PanelConfig.valid_of_build hbuild
    have hq : Queue.Allocatable c.queueDepth.toNat := by
      by_contra hno
      rw [PanelConfig.build_eq_of_valid hv, if_neg hno] at hbuild
      cases hbuild
    rw [simulate_events hv hq] at h
    obtain ⟨g, -, hg⟩ := List.mem_flatMap.mp h
    exact PanelConfig.printable_of_mem_told hg

theorem printable_of_mem_trace {a : Arguments} {files : Files} {e : Event} (h : e ∈ (a.trace files).events) :
    ∀ c ∈ e.text.toList, isPrintable c = true := by
  unfold Arguments.trace at h
  split at h
  · cases h
  · split at h
    · cases h
    · exact printable_of_mem_simulate h

theorem newline_not_mem_of_printable {s : List Char} (h : ∀ c ∈ s, isPrintable c = true) : '\n' ∉ s :=
  fun hmem => absurd (h '\n' hmem) (by decide)

/-! ## Lines -/

theorem lines_printed {es : List Event} (h : ∀ e ∈ es, '\n' ∉ e.text.toList) :
    Script.lines (printed es).toList = es.map (·.text.toList) ++ [[]] := by
  induction es with
  | nil => rfl
  | cons e es ih =>
    have hline : (printed (e :: es)).toList = e.text.toList ++ '\n' :: (printed es).toList := by
      simp [printed, String.toList_append]
    rw [hline, Script.lines_append, Script.lines_of_not_mem (h e List.mem_cons_self),
      ih fun f hf => h f (List.mem_cons_of_mem e hf)]
    rfl

theorem eq_of_printed_eq {es fs : List Event} (hes : ∀ e ∈ es, '\n' ∉ e.text.toList)
    (hfs : ∀ f ∈ fs, '\n' ∉ f.text.toList) (h : printed es = printed fs) : es = fs := by
  have hlines : es.map (·.text.toList) ++ [[]] = fs.map (·.text.toList) ++ [[]] := by
    rw [← lines_printed hes, h, lines_printed hfs]
  have hinjective : Function.Injective fun e : Event => e.text.toList :=
    fun e f hef => Event.text_injective (String.toList_inj.mp hef)
  exact hinjective.list_map (List.append_cancel_right hlines)

theorem stdout_run {files : Files} {args : List String} {a : Arguments} (h : Request.parse args = .ok (.run a)) :
    (run files args).stdout = printed (a.trace files).events := by
  rw [run, h]
  rfl

/-- Events with the same text are the same. No event that a front panel tells has anything but printable
    characters in its text, whatever its sink answers and whatever else happens to the sink. So the
    lines that a run prints are those of the events it took from its queue, and runs that print the
    same, whether or not they end early, took the same events. -/
theorem output_determines_events :
    (∀ e f : Event, e.text = f.text ↔ e = f) ∧
    (∀ (σ : Type) [Sink σ] (s : Settings) (sink : σ) (ts : List (StrokeTurn (σ → σ))),
      let m : Emitter (Journal σ) := { settings := s, sink := { sink } }
      ∀ e ∈ (m.turns Emitter.strike Journal.disturb ts).sink.offered, ∀ c ∈ e.text.toList, isPrintable c = true) ∧
    (∀ files args a, Request.parse args = .ok (.run a) →
      Script.lines (run files args).stdout.toList = (a.trace files).events.map (·.text.toList) ++ [[]]) ∧
    ∀ files args a others brgs b, Request.parse args = .ok (.run a) → Request.parse brgs = .ok (.run b) →
      ((run files args).stdout = (run others brgs).stdout ↔ (a.trace files).events = (b.trace others).events) := by
  have hunbroken : ∀ (a : Arguments) files, ∀ e ∈ (a.trace files).events, '\n' ∉ e.text.toList :=
    fun a files e he => newline_not_mem_of_printable (printable_of_mem_trace he)
  refine ⟨fun e f => Event.text_injective.eq_iff, ?_, ?_, ?_⟩
  · intro σ _ s sink ts m e he
    exact Emitter.printable_of_mem_offered he
  · intro files args a ha
    rw [stdout_run ha]
    exact lines_printed (hunbroken a files)
  · intro files args a others brgs b ha hb
    rw [stdout_run ha, stdout_run hb]
    constructor
    · exact eq_of_printed_eq (hunbroken a files) (hunbroken b others)
    · intro h
      rw [h]

/-- The name has the `=` that stands before the value, and the value is the least there is. A press and
    a release in button mode print what a click prints, since the panel tells the same events of them. -/
theorem output_determines_events_of_click :
    let e : Event := .generic "1=1" 1
    let s : Settings := { homeValue := -2147483648 }
    let m : Emitter (Journal Recorder) := { settings := s, sink := { sink := { capacity := 0 } } }
    let files : Files := fun path => .ok path.toUTF8
    let args := ["--mode", "button", "press:USER", "release:USER"]
    let brgs := ["click:0", "--mode=button"]
    let a : Arguments := { mode := some .button, source := .gestures [⟨.press, "USER"⟩, ⟨.release, "USER"⟩] }
    let b : Arguments := { mode := some .button, source := .gestures [⟨.click, "0"⟩] }
    e.text = "generic 1=1=1" ∧ e.text ≠ (Event.generic "1" 11).text ∧
      (m.turns Emitter.strike Journal.disturb [.stroke (.ofNat 0) .press]).sink.offered =
        [.generic "WADAPPS" (-2147483648)] ∧
      (∀ c ∈ (Event.generic "WADAPPS" (-2147483648)).text.toList, isPrintable c = true) ∧
      Request.parse args = .ok (.run a) ∧ Request.parse brgs = .ok (.run b) ∧
      Script.lines (run files args).stdout.toList =
        ["button pressed #0".toList, "button pressed #0".toList, []] ∧
      (run files args).stdout = (run files brgs).stdout := by
  intro e s m files args brgs a b
  obtain ⟨htext, htold, hlines, hsame⟩ := output_determines_events
  have hoffered : (m.turns Emitter.strike Journal.disturb [.stroke (.ofNat 0) .press]).sink.offered =
      [.generic "WADAPPS" (-2147483648)] := by decide
  have ha : Request.parse args = .ok (.run a) := by decide +kernel
  have hb : Request.parse brgs = .ok (.run b) := by decide +kernel
  have hevents : (a.trace files).events = [.buttonPressed (.ofNat 0), .buttonPressed (.ofNat 0)] := by decide +kernel
  have hclick : (b.trace files).events = [.buttonPressed (.ofNat 0), .buttonPressed (.ofNat 0)] := by decide +kernel
  refine ⟨by decide +kernel, fun h => ?_, hoffered, ?_, ha, hb, ?_, ?_⟩
  · exact absurd ((htext e _).mp h) (by decide)
  · refine htold Recorder s { capacity := 0 } [.stroke (.ofNat 0) .press] _ ?_
    rw [hoffered]
    exact List.mem_cons_self
  · rw [hlines files args a ha, hevents]
    decide +kernel
  · exact (hsame files args a files brgs b ha hb).mpr (hevents.trans hclick.symm)

end CommandLine

end ButtonPanel
