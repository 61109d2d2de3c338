/-
  ButtonPanel.Proofs.CommandLine.Sources — gestures from a script and gestures on the command line.

  `script_runs_as_actions`: a command line that names a script and one that has the texts the
  script lists, with the same choices of configuration and mode, are the same run, down to the
  report: its number counts gestures, not lines. The choices need not be good. A bad mode or a
  file that is no configuration is reported by both, since the source of the gestures is read
  apart from the choices (`parse_of_sources`) and the script is loaded after the configuration.
-/

import ButtonPanel.CommandLine.Run
import ButtonPanel.Proofs.CommandLine.Reading
import ButtonPanel.Proofs.Text.Script

namespace ButtonPanel.CommandLine

variable {files : Files} {texts : List String} {gs : List Gesture} {choices : List Part} {args : List String}

/-! ## What the two kinds of sources are read as -/

theorem exists_gestures (h : ∀ t ∈ texts, ∃ g, Gesture.parse t = .ok g) :
    ∃ gs, List.Forall₂ (fun t g => Gesture.parse t = .ok g) texts gs := by
  induction texts with
  | nil => exact ⟨[], .nil⟩
  | cons t texts ih =>
    obtain ⟨g, hg⟩ := h t List.mem_cons_self
    obtain ⟨gs, hgs⟩ := ih fun u hu => h u (List.mem_cons_of_mem t hu)
    exact ⟨g :: gs, .cons hg hgs⟩

theorem Gathering.takeAll_texts (h : List.Forall₂ (fun t g => Gesture.parse t = .ok g) texts gs) {s : Gathering}
    {before : List Gesture} (hs : s.actions = some before) :
    s.takeAll (texts.map .text) = .ok { s with actions := some (before ++ gs) } := by
  induction h generalizing s before with
  | nil =>
    rw [List.append_nil, ← hs]
    rfl
  | @cons t g texts gs hg later ih =>
    have htake : s.take (.text t) = .ok { s with actions := some (before ++ [g]) } := by
      simp only [take, hg, hs, Option.getD_some]
    rw [List.map_cons, takeAll, htake, List.append_cons before g gs]
    exact ih (s := { s with actions := some (before ++ [g]) }) rfl

theorem parse_of_texts (h : List.Forall₂ (fun t g => Gesture.parse t = .ok g) texts gs) (hne : texts ≠ [])
    (hgood : ∀ t ∈ texts, ∃ g, Gesture.parse t = .ok g) (hline : Says args choices (texts.map .text)) :
    Request.parse args = (({} : Gathering).takeAll choices).map fun g =>
      .run { config := g.config, mode := g.mode, source := .gestures gs } := by
  have htexts : ∀ t, .text t ∈ texts.map Part.text → ∃ g, Gesture.parse t = .ok g := by
    intro t ht
    obtain ⟨u, hu, hut⟩ := List.mem_map.mp ht
    obtain rfl := Part.text.inj hut
    exact hgood u hu
  have hall : ({} : Gathering).takeAll (texts.map .text) = .ok { actions := some gs } := by
    cases h with
    | nil => exact absurd rfl hne
    | @cons t g texts gs hg later =>
      have htake : ({} : Gathering).take (.text t) = .ok { actions := some [g] } := by
        simp only [Gathering.take, hg]
        rfl
      rw [List.map_cons, Gathering.takeAll, htake]
      exact Gathering.takeAll_texts later (s := { actions := some [g] }) rfl
  exact parse_of_sources hline htexts hall rfl

theorem parse_of_script {path : String} (hpath : path ≠ "") (hline : Says args choices [.option .script path]) :
    Request.parse args = (({} : Gathering).takeAll choices).map fun g =>
      .run { config := g.config, mode := g.mode, source := .script path } := by
  have htexts : ∀ t, .text t ∈ [Part.option .script path] → ∃ g, Gesture.parse t = .ok g := by
    intro t ht
    cases List.mem_singleton.mp ht
  have hall : ({} : Gathering).takeAll [.option .script path] = .ok { script := some path, scriptFirst := true } := by
    have hset : ({} : Gathering).setFlag .script path = .ok { script := some path, scriptFirst := true } := if_neg hpath
    rw [Gathering.takeAll, Gathering.take, hset]
    rfl
  exact parse_of_sources hline htexts hall rfl

/-! ## The run -/

theorem trace_congr {a b : Arguments} (hconfig : a.config = b.config) (hmode : a.mode = b.mode)
    (hgestures : a.loadGestures files = b.loadGestures files) : a.trace files = b.trace files := by
  have hload : a.loadConfig files = b.loadConfig files := by rw [Arguments.loadConfig, Arguments.loadConfig, hconfig, hmode]
  rw [Arguments.trace, Arguments.trace, hload, hgestures]

/-- The two command lines may spell and mix their arguments differently. No file has the empty path,
    and as the value of an option it is turned away. -/
theorem script_runs_as_actions {path doc : String} {args' : List String}
    (hscript : Says args choices [.option .script path]) (hactions : Says args' choices (texts.map .text))
    (hpath : path ≠ "") (hne : texts ≠ []) (hgood : ∀ t ∈ texts, ∃ g, Gesture.parse t = .ok g)
    (hn : ∀ t ∈ texts, '\n' ∉ t.toList) (hdoc : files.readText path = .ok doc)
    (hlists : Script.Lists texts doc.toList) :
    run files args = run files args' ∧
      ∃ gs, List.Forall₂ (fun t g => Gesture.parse t = .ok g) texts gs ∧ Script.load files path = .ok gs := by
  obtain ⟨gs, hgs⟩ := exists_gestures hgood
  have hload : Script.load files path = .ok gs := Script.load_of_lists hdoc hlists hgs hn
  refine ⟨?_, gs, hgs, hload⟩
  rw [run, run, parse_of_script hpath hscript, parse_of_texts hgs hne hgood hactions]
  cases ({} : Gathering).takeAll choices with
  | error e => rfl
  | ok g =>
    have hgestures : (Script.load files path).mapError RunError.script = .ok gs := by
      rw [hload]
      rfl
    have htrace : Arguments.trace { config := g.config, mode := g.mode, source := .script path } files =
        Arguments.trace { config := g.config, mode := g.mode, source := .gestures gs } files :=
      trace_congr rfl rfl hgestures
    exact congrArg Trace.outcome htrace

/-- The script has comments, blank lines, both kinds of line ends and blanks around the colon. Its
    second gesture stands in line 5, and its key has a colon of its own. -/
theorem script_runs_as_actions_from_line_five :
    let doc := "# warm up\r\n\r\n  press : USER\t\n \t# then\nclick:a:b\r\nrelease:USER"
    let files : Files := fun _ => .ok doc.toUTF8
    let args := ["--mode=home", "--script", "steps.txt"]
    let args' := ["  press : USER\t", "click:a:b", "--mode", "home", "--", "release:USER"]
    run files args = run files args' ∧
      run files args' =
        { exit := 1
          stdout := "generic WADAPPS=1\n"
          stderr := ErrorReport.render
            { error := "action 2 `click:a:b`", causes := ["No button named or numbered 'a:b'"] } } := by
  intro doc files args args'
  let texts := ["  press : USER\t", "click:a:b", "release:USER"]
  have hscript : Says args [.option .mode "home"] [.option .script "steps.txt"] :=
    ⟨_, .joined .mode "home" (.apart .script (by decide) .nil), rfl, rfl⟩
  have hactions : Says args' [.option .mode "home"] (texts.map .text) :=
    ⟨_, .text _ (.text _ (.apart .mode (by decide) (.verbatim ["release:USER"]))), rfl, rfl⟩
  have hgood : ∀ t ∈ texts, ∃ g, Gesture.parse t = .ok g := by
    have hall : ∀ t ∈ texts, (Gesture.parse t).isOk = true := by decide
    intro t ht
    have hok := hall t ht
    cases hparse : Gesture.parse t with
    | error why =>
      rw [hparse] at hok
      cases hok
    | ok g => exact ⟨g, rfl⟩
  have hlisted := Script.Lists.silent (.comment [] nofun " warm up".toList) (by decide) .crlf
    (.silent (.blank [] nofun) (by decide) .crlf
      (.text "  press : USER\t" .lf
        (.silent (.comment [' ', '\t'] (List.all_eq_true.mp rfl) " then".toList) (by decide) .lf
          (.text "click:a:b" .crlf (.last "release:USER")))))
  have hlists : Script.Lists texts doc.toList := cast (congrArg (Script.Lists texts) (by decide)) hlisted
  have hdoc : files.readText "steps.txt" = .ok doc := by decide +kernel
  obtain ⟨hrun, -⟩ : run files args = run files args' ∧ _ :=
    script_runs_as_actions hscript hactions (by decide) (by decide) hgood (by decide) hdoc hlists
  exact ⟨hrun, by decide +kernel⟩

end ButtonPanel.CommandLine
