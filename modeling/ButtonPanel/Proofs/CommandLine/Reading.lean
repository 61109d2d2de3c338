/-
  ButtonPanel.Proofs.CommandLine.Reading — what the arguments of the program say. A command line
  is a sequence of parts, options with their values and texts, and a part can be written in
  more than one way (`Written`): the value of an option stands behind `=` or in an argument of its
  own, and behind `--` there are texts only.

  Reading argument by argument, with what is pending settled only when the next part begins, is
  taking the parts one after the other (`request_of_written`). Options other than the script
  choose the configuration and the mode, and the other parts say where the gestures come
  from. The two kinds do not touch, so it does not matter how they are mixed
  (`takeAll_onto`), and a request has its choices from the one and its source from the
  other (`parse_of_sources`).
-/

import ButtonPanel.CommandLine.Arguments
import ButtonPanel.Proofs.Text.Gesture

namespace ButtonPanel.CommandLine

/-! ## Parts -/

inductive Part
  | option (f : Flag) (value : String)
  | text (t : String)
  deriving DecidableEq, Repr

namespace Part

/-- Whether the part is an option that chooses the configuration or the mode. -/
def isChoice : Part → Bool
  | option f _ => f ≠ .script
  | text _ => false

def choices (ps : List Part) : List Part := ps.filter (·.isChoice)

def sources (ps : List Part) : List Part := ps.filter (! ·.isChoice)

end Part

inductive Written : List Part → List String → Prop
  | nil : Written [] []
  | joined (f : Flag) (value : String) {ps : List Part} {args : List String} (later : Written ps args) :
    Written (.option f value :: ps) (("--" ++ f.name ++ "=" ++ value) :: args)
  | apart (f : Flag) {value : String} (h : Word.of value = .plain value) {ps : List Part} {args : List String}
    (later : Written ps args) : Written (.option f value :: ps) (("--" ++ f.name) :: value :: args)
  | text (t : String) {ps : List Part} {args : List String} (later : Written ps args) :
    Written (.text t :: ps) (t :: args)
  | verbatim (texts : List String) : Written (texts.map .text) ("--" :: texts)

/-- A command line with certain choices and sources, spelled and mixed in any way. -/
def Says (args : List String) (choices sources : List Part) : Prop :=
  ∃ ps, Written ps args ∧ Part.choices ps = choices ∧ Part.sources ps = sources

theorem Flag.ofName?_name (f : Flag) : ofName? f.name = some f := by cases f <;> decide

namespace Word

theorem of_joined (f : Flag) (value : String) : of ("--" ++ f.name ++ "=" ++ value) = .long f.name (some value) := by
  cases f <;> simp [of, Flag.name, String.toList_append]

theorem of_name (f : Flag) : of ("--" ++ f.name) = .long f.name none := by cases f <;> decide

/-- A gesture is no option: behind the blanks it starts with its verb. -/
theorem of_gesture {t : String} {g : Gesture} (h : Gesture.parse t = .ok g) : of t = .plain t := by
  have hchars := Gesture.parse_eq_ok_iff.mp h
  obtain ⟨before, after, htext, hbefore, -⟩ := Blank.exists_trim t.toList
  have hdash : t.toList.head? ≠ some '-' := by
    rw [htext, List.append_assoc]
    cases before with
    | nil =>
      have hhead := Gesture.head?_trim hchars
      have hverb : g.verb.name.toList.head? ≠ some '-' ∧ g.verb.name.toList.head? ≠ none := by
        cases g.verb <;> decide
      rw [List.nil_append, List.head?_append, hhead, Option.or_of_isSome (Option.isSome_iff_ne_none.mpr hverb.2)]
      exact hverb.1
    | cons c before =>
      intro hc
      obtain rfl := Option.some.inj hc
      exact absurd (hbefore '-' List.mem_cons_self) (by decide)
  unfold of
  split
  case h_4 => rfl
  all_goals
    rename_i heq
    rw [heq] at hdash
    exact absurd rfl hdash

end Word

namespace Gathering

/-! ## Taking parts -/

def take (g : Gathering) : Part → Except ArgumentFault Gathering
  | .option f value => g.setFlag f value
  | .text t =>
    match Gesture.parse t with
    | .ok x => .ok { g with actions := some (g.actions.getD [] ++ [x]) }
    | .error why => .error (.badGesture why)

def takeAll (g : Gathering) : List Part → Except ArgumentFault Gathering
  | [] => .ok g
  | p :: ps => (g.take p).bind (·.takeAll ps)

/-- What reading goes on with once nothing is pending. -/
def conclude (g : Gathering) (ps : List Part) : Except ArgumentFault Request :=
  ((g.takeAll ps).bind finish).map .run

def request (g : Gathering) (args : List String) : Except ArgumentFault Request :=
  match args.foldlM step g with
  | .ok g => g.finish.map .run
  | .error (.notice n) => .ok (.notice n)
  | .error (.fault f) => .error f

theorem parse_eq (args : List String) : Request.parse args = ({} : Gathering).request args := rfl

variable {g g' : Gathering}

theorem conclude_cons (g : Gathering) (p : Part) (ps : List Part) :
    g.conclude (p :: ps) = (g.take p).bind (·.conclude ps) := by
  simp only [conclude, takeAll]
  cases g.take p with
  | error e => rfl
  | ok g => rfl

theorem request_cons {arg : String} {read : Except ArgumentFault Gathering} (h : g.step arg = read.mapError .fault)
    (args : List String) : g.request (arg :: args) = read.bind (·.request args) := by
  unfold request
  rw [List.foldlM_cons, h]
  cases read with
  | error e => rfl
  | ok g => rfl

/-! ## What is settled -/

theorem pending_setFlag {f : Flag} {value : String} (h : g.setFlag f value = .ok g') :
    g'.pending = g.pending ∧ g'.verbatim = g.verbatim := by
  unfold setFlag at h
  split at h
  · cases h
  · cases f
    all_goals
      dsimp only at h
      split at h <;> cases h
      exact ⟨rfl, rfl⟩

theorem pending_settle (h : g.settle = .ok g') : g'.pending = none ∧ g'.verbatim = g.verbatim := by
  unfold settle at h
  split at h
  · cases h
    exact ⟨rfl, rfl⟩
  · cases h
  · exact pending_setFlag h
  · split at h
    · cases h
      exact ⟨rfl, rfl⟩
    · cases h

theorem pending_take {p : Part} (h : g.take p = .ok g') : g'.pending = g.pending ∧ g'.verbatim = g.verbatim := by
  cases p with
  | option f value => exact pending_setFlag h
  | text t =>
    dsimp only [take] at h
    split at h
    · cases h
      exact ⟨rfl, rfl⟩
    · cases h

theorem settle_of_settled (h : g.pending = none) : g.settle = .ok g := by
  unfold settle
  rw [h]
  show Except.ok { g with pending := none } = .ok g
  rw [← h]

theorem pending_addAction {t : String} (h : g.addAction t = .ok g') :
    (∃ texts, g'.pending = some (.actions texts)) ∧ g'.verbatim = g.verbatim := by
  unfold addAction at h
  split at h
  · cases h
    exact ⟨⟨_, rfl⟩, rfl⟩
  · cases hs : g.settle with
    | error e =>
      rw [hs] at h
      cases h
    | ok s =>
      rw [hs] at h
      cases h
      exact ⟨⟨_, rfl⟩, (pending_settle hs).2⟩

/-- A text that is added to a run is settled with the run, behind the texts before it. -/
theorem addAction_settle (g : Gathering) (t : String) :
    (g.addAction t).bind settle = g.settle.bind (·.take (.text t)) := by
  unfold addAction
  split
  next texts hp =>
    show settle { g with pending := some (.actions (texts ++ [t])) } = _
    simp only [settle, hp, List.mapM_append, List.mapM_cons, List.mapM_nil]
    cases texts.mapM Gesture.parse with
    | error why => rfl
    | ok gs =>
      cases ht : Gesture.parse t with
      | error why => simp [take, ht, Except.bind, bind]
      | ok x => simp [take, ht, Except.bind, bind, pure, Except.pure]
  · cases hs : g.settle with
    | error e => rfl
    | ok s =>
      have hnone := (pending_settle hs).1
      show settle { s with pending := some (.actions [t]) } = s.take (.text t)
      simp only [settle, List.mapM_cons, List.mapM_nil]
      cases ht : Gesture.parse t with
      | error why => simp [take, ht, Except.bind, bind]
      | ok x => simp [take, ht, hnone, Except.bind, bind, pure, Except.pure]

/-! ## Reading is taking the parts -/

theorem request_nil (g : Gathering) : g.request [] = g.settle.bind (·.conclude []) := by
  show g.finish.map Request.run = _
  rw [finish]
  cases hs : g.settle with
  | error e => rfl
  | ok s =>
    show _ = s.finish.map Request.run
    rw [finish, settle_of_settled (pending_settle hs).1]

/-- A text that is read as one, before arguments that are read as they should. -/
theorem request_text {t : String} {ps : List Part} {args : List String}
    (hstep : g.step t = (g.addAction t).mapError .fault)
    (later : ∀ g', g.addAction t = .ok g' → g'.request args = g'.settle.bind (·.conclude ps)) :
    g.request (t :: args) = g.settle.bind (·.conclude (.text t :: ps)) := by
  calc g.request (t :: args) = (g.addAction t).bind (·.request args) := request_cons hstep args
    _ = ((g.addAction t).bind settle).bind (·.conclude ps) := by
      cases ha : g.addAction t with
      | error e => rfl
      | ok g' => exact later g' ha
    _ = (g.settle.bind (·.take (.text t))).bind (·.conclude ps) := by rw [addAction_settle]
    _ = g.settle.bind (·.conclude (.text t :: ps)) := by
      cases g.settle with
      | error e => rfl
      | ok s => exact (conclude_cons s (.text t) ps).symm

theorem request_verbatim (texts : List String) (hv : g.verbatim = true) :
    g.request texts = g.settle.bind (·.conclude (texts.map .text)) := by
  induction texts generalizing g with
  | nil => exact request_nil g
  | cons t texts ih =>
    have hstep : g.step t = (g.addAction t).mapError .fault := by rw [step, if_pos hv]
    refine request_text hstep fun g' ha => ih ?_
    rw [(pending_addAction ha).2, hv]

/-- An option is settled alike in two gatherings if it has been settled in both or in neither,
    and the map takes one to the other once the value is set in both. -/
theorem setFlag_map {s : Gathering} {F : Gathering → Gathering} {f : Flag} (value : String) (hhas : g.has f = s.has f)
    (hset : match f with
      | .config => ∀ path, { g with config := some path } = F { s with config := some path }
      | .mode => ∀ m, { g with mode := some m } = F { s with mode := some m }
      | .script => ∀ path, { g with script := some path, scriptFirst := g.actions.isNone } =
          F { s with script := some path, scriptFirst := s.actions.isNone }) :
    g.setFlag f value = (s.setFlag f value).map F := by
  unfold setFlag
  rw [hhas]
  split
  · rfl
  · cases f
    all_goals
      dsimp only
      split
      first | rfl | exact congrArg Except.ok (hset _)
      first | rfl | exact congrArg Except.ok (hset _)

theorem setFlag_verbatim (g : Gathering) (b : Bool) (f : Flag) (value : String) :
    setFlag { g with verbatim := b } f value = (g.setFlag f value).map ({ · with verbatim := b }) := by
  cases f <;> exact setFlag_map value rfl fun _ => rfl

theorem settle_verbatim (g : Gathering) (b : Bool) :
    settle { g with verbatim := b } = g.settle.map ({ · with verbatim := b }) := by
  unfold settle
  dsimp only
  split
  · rfl
  · rfl
  · exact setFlag_verbatim { g with pending := none } b _ _
  · split <;> rfl

theorem conclude_verbatim (g : Gathering) (b : Bool) (ps : List Part) :
    conclude { g with verbatim := b } ps = g.conclude ps := by
  induction ps generalizing g with
  | nil =>
    show (finish _).map _ = (finish _).map _
    rw [finish, finish, settle_verbatim]
    cases g.settle <;> rfl
  | cons p ps ih =>
    have htake : take { g with verbatim := b } p = (g.take p).map ({ · with verbatim := b }) := by
      cases p with
      | option f value => exact setFlag_verbatim g b f value
      | text t =>
        dsimp only [take]
        cases Gesture.parse t <;> rfl
    rw [conclude_cons, conclude_cons, htake]
    cases g.take p with
    | error e => rfl
    | ok g' => exact ih g'

/-- Behind `--` all arguments are texts. -/
theorem request_terminator (hv : g.verbatim = false) (texts : List String) :
    g.request ("--" :: texts) = g.settle.bind (·.conclude (texts.map .text)) := by
  have hstep : g.step "--" = (Except.ok { g with verbatim := true }).mapError .fault := by
    simp only [step, hv, Bool.false_eq_true, if_false]
    rfl
  rw [request_cons hstep]
  show request { g with verbatim := true } texts = _
  rw [request_verbatim texts rfl, settle_verbatim]
  cases g.settle with
  | error e => rfl
  | ok s => exact conclude_verbatim s true _

variable {ps : List Part} {args : List String}

/-- An option that comes with its value is settled at once. -/
theorem request_joined (hv : g.verbatim = false) (f : Flag) (value : String)
    (later : ∀ s : Gathering, s.pending = none → s.verbatim = false → s.request args = s.settle.bind (·.conclude ps)) :
    g.request (("--" ++ f.name ++ "=" ++ value) :: args) = g.settle.bind (·.conclude (.option f value :: ps)) := by
  have hstep : g.step ("--" ++ f.name ++ "=" ++ value) = (g.settle.bind (·.setFlag f value)).mapError .fault := by
    simp only [step, hv, Word.of_joined, f.ofName?_name, Bool.false_eq_true, if_false]
  rw [request_cons hstep]
  cases hs : g.settle with
  | error e => rfl
  | ok s =>
    show (s.take (.option f value)).bind (·.request args) = s.conclude (.option f value :: ps)
    rw [conclude_cons]
    cases htake : s.take (.option f value) with
    | error e => rfl
    | ok s' =>
      have hsettled : s'.pending = none := by rw [(pending_take htake).1, (pending_settle hs).1]
      have hv' : s'.verbatim = false := by rw [(pending_take htake).2, (pending_settle hs).2, hv]
      have hlater := later s' hsettled hv'
      rw [settle_of_settled hsettled] at hlater
      exact hlater

/-- An option that has been given its value waits to be settled with what follows. -/
theorem request_apart (hv : g.verbatim = false) (f : Flag) {value : String} (hvalue : Word.of value = .plain value)
    (later : ∀ s : Gathering, s.pending = some (.flag f (some value)) → s.verbatim = false →
      s.request args = s.settle.bind (·.conclude ps)) :
    g.request (("--" ++ f.name) :: value :: args) = g.settle.bind (·.conclude (.option f value :: ps)) := by
  have hname : g.step ("--" ++ f.name) =
      (g.settle.map ({ · with pending := some (.flag f none) })).mapError .fault := by
    simp only [step, hv, Word.of_name, f.ofName?_name, Bool.false_eq_true, if_false]
  rw [request_cons hname]
  cases hs : g.settle with
  | error e => rfl
  | ok s =>
    have hv' : s.verbatim = false := by rw [(pending_settle hs).2, hv]
    have hstep : step { s with pending := some (.flag f none) } value =
        (Except.ok { s with pending := some (.flag f (some value)) }).mapError .fault := by
      simp only [step, hv', hvalue, Bool.false_eq_true, if_false, Except.mapError]
    have hsettle : settle { s with pending := some (.flag f (some value)) } = s.take (.option f value) := by
      show setFlag { s with pending := none } f value = s.setFlag f value
      rw [← (pending_settle hs).1]
    show request { s with pending := some (.flag f none) } (value :: args) = s.conclude (.option f value :: ps)
    rw [request_cons hstep, conclude_cons, ← hsettle]
    exact later { s with pending := some (.flag f (some value)) } rfl hv'

theorem request_of_written (h : Written ps args) (ht : ∀ t, .text t ∈ ps → ∃ x, Gesture.parse t = .ok x)
    (hv : g.verbatim = false) (hp : ∀ f, g.pending ≠ some (.flag f none)) :
    g.request args = g.settle.bind (·.conclude ps) := by
  induction h generalizing g with
  | nil => exact request_nil g
  | joined f value later ih =>
    refine request_joined hv f value fun s hs hv' => ?_
    exact ih (fun t hm => ht t (List.mem_cons_of_mem _ hm)) hv' (by rw [hs]; nofun)
  | apart f hvalue later ih =>
    refine request_apart hv f hvalue fun s hs hv' => ?_
    exact ih (fun t hm => ht t (List.mem_cons_of_mem _ hm)) hv' (by rw [hs]; simp)
  | text t later ih =>
    obtain ⟨x, hx⟩ := ht t List.mem_cons_self
    -- an option that waits for its value would take the text for it, and by `hp` none waits
    have hstep : g.step t = (g.addAction t).mapError .fault := by
      simp only [step, hv, Word.of_gesture hx, Bool.false_eq_true, if_false]
    refine request_text hstep fun s ha => ?_
    obtain ⟨⟨texts, hs⟩, hv'⟩ := pending_addAction ha
    exact ih (fun u hm => ht u (List.mem_cons_of_mem _ hm)) (hv'.trans hv) (by rw [hs]; nofun)
  | verbatim texts => exact request_terminator hv texts

/-! ## Choices and sources -/

/-- The configuration and the mode of one gathering, and all else of another. -/
def onto (g s : Gathering) : Gathering := { s with config := g.config, mode := g.mode }

theorem take_onto_of_choice {p : Part} (hp : p.isChoice = true) (g s : Gathering) :
    (g.onto s).take p = (g.take p).map (·.onto s) := by
  cases p with
  | text t => cases hp
  | option f value =>
    cases f with
    | script => cases hp
    | config => exact setFlag_map (f := .config) value rfl fun _ => rfl
    | mode => exact setFlag_map (f := .mode) value rfl fun _ => rfl

theorem take_onto_of_source {p : Part} (hp : p.isChoice = false) (g s : Gathering) :
    (g.onto s).take p = (s.take p).map (g.onto ·) := by
  cases p with
  | text t =>
    dsimp only [take]
    cases Gesture.parse t <;> rfl
  | option f value =>
    cases f with
    | config => cases hp
    | mode => cases hp
    | script => exact setFlag_map (f := .script) value rfl fun _ => rfl

/-- However choices and sources are mixed: if nothing is wrong with the sources by themselves, what
    is taken is what the choices alone give, put onto what the sources alone give. -/
theorem takeAll_onto {s s' : Gathering} (hs : s.takeAll (Part.sources ps) = .ok s') (g : Gathering) :
    (g.onto s).takeAll ps = (g.takeAll (Part.choices ps)).map (·.onto s') := by
  induction ps generalizing g s with
  | nil =>
    cases hs
    rfl
  | cons p ps ih =>
    by_cases hp : p.isChoice = true
    · have hsources : Part.sources (p :: ps) = Part.sources ps := List.filter_cons_of_neg (by simp [hp])
      have hchoices : Part.choices (p :: ps) = p :: Part.choices ps := List.filter_cons_of_pos hp
      rw [hsources] at hs
      rw [hchoices, takeAll, takeAll, take_onto_of_choice hp]
      cases g.take p with
      | error e => rfl
      | ok g' => exact ih hs g'
    · have hp' := Bool.eq_false_iff.mpr hp
      have hsources : Part.sources (p :: ps) = p :: Part.sources ps := List.filter_cons_of_pos (by simp [hp'])
      have hchoices : Part.choices (p :: ps) = Part.choices ps := List.filter_cons_of_neg hp
      rw [hsources, takeAll] at hs
      rw [hchoices, takeAll, take_onto_of_source hp']
      cases htake : s.take p with
      | error e =>
        rw [htake] at hs
        cases hs
      | ok s₁ =>
        rw [htake] at hs
        exact ih hs g

theorem pending_takeAll (h : g.takeAll ps = .ok g') : g'.pending = g.pending := by
  induction ps generalizing g with
  | nil =>
    cases h
    rfl
  | cons p ps ih =>
    rw [takeAll] at h
    cases htake : g.take p with
    | error e =>
      rw [htake] at h
      cases h
    | ok g₁ =>
      rw [htake] at h
      rw [ih h, (pending_take htake).1]

theorem finish_onto {s : Gathering} (hs : s.pending = none) (g : Gathering) :
    (g.onto s).finish = s.finish.map ({ · with config := g.config, mode := g.mode }) := by
  rw [finish, finish, settle_of_settled hs, settle_of_settled (g := g.onto s) hs]
  obtain ⟨config, mode, script, actions, scriptFirst, pending, verbatim⟩ := s
  cases script <;> cases actions <;> rfl

end Gathering

/-- If nothing is wrong with the sources of a command line by themselves, its request has their
    source of gestures, and what the choices alone give. -/
theorem parse_of_sources {args : List String} {choices sources : List Part} (h : Says args choices sources)
    (ht : ∀ t, .text t ∈ sources → ∃ x, Gesture.parse t = .ok x) {s : Gathering}
    (hs : ({} : Gathering).takeAll sources = .ok s) {a : Arguments} (ha : s.finish = .ok a) :
    Request.parse args =
      (({} : Gathering).takeAll choices).map fun g => .run { config := g.config, mode := g.mode, source := a.source } := by
  obtain ⟨ps, hw, rfl, rfl⟩ := h
  have htexts : ∀ t, .text t ∈ ps → ∃ x, Gesture.parse t = .ok x := fun t hm => ht t (List.mem_filter.mpr ⟨hm, rfl⟩)
  have hread : ({} : Gathering).request args = ({} : Gathering).conclude ps :=
    Gathering.request_of_written hw htexts rfl nofun
  have honto : ({} : Gathering).takeAll ps = _ := Gathering.takeAll_onto hs {}
  have hpending : s.pending = none := Gathering.pending_takeAll hs
  rw [Gathering.parse_eq, hread, Gathering.conclude, honto]
  cases ({} : Gathering).takeAll (Part.choices ps) with
  | error e => rfl
  | ok g =>
    show ((g.onto s).finish).map Request.run = _
    rw [Gathering.finish_onto hpending, ha]
    rfl

end ButtonPanel.CommandLine
