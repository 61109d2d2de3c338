/-
  ButtonPanel.Proofs.Board.Independence — the buttons of a board do not hear of each other. What is
  seen of a button at a report on it is what the board offers then, whether that is accepted, and
  whether the button is down after it (`Glimpse`).

  `buttons_independent`: two runs of two boards with the same settings, over any sinks, in which the
  same is reported of a button and the offers made for it get the same answers, show the same of it,
  whatever else is reported in them. A report on a button leaves all others and the contact as they
  are.

  The two runs are not compared with each other. Each is compared with a button on its own
  (`Alone`), which knows its reports and the answers to its offers and nothing else
  (`alone_watch`), and such a button has no choice (`Alone.agree`).
-/

import ButtonPanel.Proofs.Board.Run
import ButtonPanel.Sink.Recorder

namespace ButtonPanel

/-! ## A button on its own -/

structure Glimpse where
  /-- The events that are offered for it, each with whether it is accepted. -/
  offers : List (Event × Bool)
  /-- Whether it is down after the report. -/
  isDown : Bool
  deriving DecidableEq, Repr

def answers (gs : List Glimpse) : List Bool := gs.flatMap fun g => g.offers.map (·.2)

namespace ButtonReport

variable (n : Nat) (s : Settings) (id : ButtonId)

/-- The event that a report has to tell of a button among `n`. -/
def event? (wasDown : Bool) (r : ButtonReport) : Option Event :=
  if id.toNat < n then (r.phase? wasDown).bind (s.boardEvent? id) else none

def leaves (wasDown : Bool) (r : ButtonReport) : Bool := if id.toNat < n then r.isDown else wasDown

/-- What a report shows of a button if its event gets a certain answer. -/
def glimpse (wasDown : Bool) (r : ButtonReport) (answer : Bool) : Glimpse :=
  match r.event? n s id wasDown with
  | none => ⟨[], r.leaves n id wasDown⟩
  | some e => ⟨[(e, answer)], if answer then r.leaves n id wasDown else wasDown⟩

end ButtonReport

theorem ButtonSet.plan_eq {n : Nat} (down : ButtonSet n) (s : Settings) (id : ButtonId) (r : ButtonReport) :
    (down.plan s id r).1 = r.event? n s id (down.contains id) ∧
      (down.plan s id r).2.contains id = r.leaves n id (down.contains id) := by
  unfold ButtonSet.plan ButtonReport.event? ButtonReport.leaves
  by_cases hn : id.toNat < n
  · simp [hn, ButtonSet.contains_put]
  · simp [hn]

/-- What a button shows of reports on it, one after the other, whatever the answers are. -/
inductive Alone (n : Nat) (s : Settings) (id : ButtonId) : Bool → List ButtonReport → List Glimpse → Prop
  | nil (wasDown : Bool) : Alone n s id wasDown [] []
  | cons (wasDown : Bool) (r : ButtonReport) (answer : Bool) {rs : List ButtonReport} {gs : List Glimpse} :
    Alone n s id (r.glimpse n s id wasDown answer).isDown rs gs →
    Alone n s id wasDown (r :: rs) (r.glimpse n s id wasDown answer :: gs)

/-- The same answers to the same reports show the same. -/
theorem Alone.agree {n : Nat} {s : Settings} {id : ButtonId} {wasDown : Bool} {rs : List ButtonReport}
    {gs hs : List Glimpse} (hg : Alone n s id wasDown rs gs) (hh : Alone n s id wasDown rs hs)
    (hsame : ∀ (k : Nat) a a', (answers gs)[k]? = some a → (answers hs)[k]? = some a' → a = a') : gs = hs := by
  induction hg generalizing hs with
  | nil => cases hh with | nil => rfl
  | cons wasDown r answer hg ih =>
    cases hh with
    | cons _ _ answer' hh =>
      cases he : r.event? n s id wasDown with
      | none =>
        simp only [ButtonReport.glimpse, he] at hsame hg hh ih ⊢
        rw [ih hh hsame]
      | some e =>
        simp only [ButtonReport.glimpse, he] at hsame hg hh ih ⊢
        obtain rfl : answer = answer' := hsame 0 answer answer' rfl rfl
        rw [ih hh fun k a a' ha ha' => hsame (k + 1) a a' ha ha']

/-! ## A button on a board -/

def reportsOn {α : Type} (id : ButtonId) (ts : List (Turn α)) : List ButtonReport :=
  ts.filterMap fun
    | .report (.button j r) => if j = id then some r else none
    | _ => none

namespace Board

variable {n : Nat} {σ τ : Type} [Sink σ] [Sink τ]

/-- What a step offers, with the answers. -/
def exchange (b : Board n (Journal σ)) (r : Report) : List (Event × Reply) :=
  (b.step r).emitter.sink.entries.drop b.emitter.sink.entries.length

def glimpse (b : Board n (Journal σ)) (id : ButtonId) (r : ButtonReport) : Glimpse where
  offers := (b.exchange (.button id r)).map fun x => (x.1, decide (x.2 = .accepted))
  isDown := (b.step (.button id r)).down.contains id

def watch (id : ButtonId) (b : Board n (Journal σ)) : List (Turn (σ → σ)) → List Glimpse
  | [] => []
  | t :: ts =>
    let later := (b.turn Journal.disturb t).watch id ts
    match t with
    | .report (.button j r) => if j = id then b.glimpse id r :: later else later
    | _ => later

/-- A report on a button leaves the other buttons and the contact as they are. -/
theorem step_button_frame (b : Board n σ) (id : ButtonId) (r : ButtonReport) :
    (b.step (.button id r)).touch = b.touch ∧
      ∀ j, j ≠ id → (b.step (.button id r)).down.contains j = b.down.contains j := by
  refine ⟨rfl, fun j hj => ?_⟩
  simp only [step]
  rcases b.emitter.settle_state b.down (b.down.plan b.emitter.settings id r) with h | h
  · rw [h, ButtonSet.contains_plan_of_ne _ _ hj]
  · rw [h]

/-- A step shows of a button what it would show on its own, by the answer of the sink. -/
theorem glimpse_eq (b : Board n (Journal σ)) (id : ButtonId) (r : ButtonReport) :
    ∃ answer, b.glimpse id r = r.glimpse n b.emitter.settings id (b.down.contains id) answer := by
  obtain ⟨hevent, hdown⟩ := b.down.plan_eq b.emitter.settings id r
  simp only [glimpse, exchange, step]
  rcases b.emitter.settle_cases b.down (b.down.plan b.emitter.settings id r) with
    ⟨hp, h⟩ | ⟨e, hp, ha, h⟩ | ⟨e, why, hp, hr, h⟩
  · refine ⟨true, ?_⟩
    rw [h, hdown]
    rw [hevent] at hp
    simp [ButtonReport.glimpse, hp]
  · refine ⟨true, ?_⟩
    rw [h, hdown]
    rw [hevent] at hp
    have ha : (Sink.send b.emitter.sink.sink e).1 = .accepted := ha
    simp [ButtonReport.glimpse, hp, Sink.send, Journal.send, ha]
  · refine ⟨false, ?_⟩
    rw [h]
    rw [hevent] at hp
    have hr : (Sink.send b.emitter.sink.sink e).1 = .refused why := hr
    simp [ButtonReport.glimpse, hp, Sink.send, Journal.send, hr]

/-- In every run a button shows what it would show on its own. -/
theorem alone_watch (id : ButtonId) (b : Board n (Journal σ)) (ts : List (Turn (σ → σ))) :
    Alone n b.emitter.settings id (b.down.contains id) (reportsOn id ts) (b.watch id ts) := by
  induction ts generalizing b with
  | nil => exact .nil _
  | cons t ts ih =>
    have hlater := ih (b.turn Journal.disturb t)
    cases t with
    | outside f => exact hlater
    | report r =>
      have hsettings : (b.turn Journal.disturb (.report r)).emitter.settings = b.emitter.settings := settings_step b r
      rw [hsettings] at hlater
      cases r with
      | touch r => exact hlater
      | button j r =>
        by_cases hj : j = id
        · subst hj
          obtain ⟨answer, hglimpse⟩ := b.glimpse_eq j r
          have hdown : (b.turn Journal.disturb (.report (.button j r))).down.contains j = (b.glimpse j r).isDown := rfl
          simp only [reportsOn, watch, List.filterMap_cons, if_true]
          rw [hdown, hglimpse] at hlater
          rw [hglimpse]
          exact .cons _ r answer hlater
        · have hdown := (b.step_button_frame j r).2 id (Ne.symm hj)
          simp only [reportsOn, watch, List.filterMap_cons, if_neg hj]
          rw [← hdown]
          exact hlater

theorem buttons_independent (s : Settings) (id : ButtonId) (firstLimit laterLimit firstLimit' laterLimit' : UInt32)
    (sink : σ) (sink' : τ) (ts : List (Turn (σ → σ))) (us : List (Turn (τ → τ))) :
    let b : Board n (Journal σ) := fresh firstLimit laterLimit ⟨s, { sink }⟩
    let c : Board n (Journal τ) := fresh firstLimit' laterLimit' ⟨s, { sink := sink' }⟩
    (reportsOn id ts = reportsOn id us →
      (∀ (k : Nat) a a', (answers (b.watch id ts))[k]? = some a → (answers (c.watch id us))[k]? = some a' → a = a') →
      b.watch id ts = c.watch id us) ∧
    ∀ r, let b' := b.turns Journal.disturb ts
      (b'.step (.button id r)).touch = b'.touch ∧
      ∀ j, j ≠ id → (b'.step (.button id r)).down.contains j = b'.down.contains j := by
  intro b c
  refine ⟨fun hreports hanswers => ?_, fun r => step_button_frame _ id r⟩
  have hb : Alone n s id false (reportsOn id ts) (b.watch id ts) := by
    have h := alone_watch id b ts
    rwa [show b.down.contains id = false from ButtonSet.contains_empty id] at h
  have hc : Alone n s id false (reportsOn id us) (c.watch id us) := by
    have h := alone_watch id c us
    rwa [show c.down.contains id = false from ButtonSet.contains_empty id] at h
  rw [← hreports] at hc
  exact hb.agree hc hanswers

/-- The release of a button is refused in two runs, by a sink that rejects and by a queue that is
    full. In the first run there are two more buttons, one of them out of range, and a contact. -/
theorem buttons_independent_of_neighbours :
    let s : Settings := { mode := .button }
    let button r : Report := .button ⟨0⟩ r
    let ts : List (Turn (Recorder → Recorder)) :=
      [.report (.button ⟨1⟩ .pressed), .report (button .pressed), .report (.touch (.pressed 3 4)),
        .outside (Recorder.setRejecting · true), .report (.button ⟨1⟩ .released), .report (button .released),
        .report (.button ⟨9⟩ .pressed), .outside (Recorder.setRejecting · false), .report (button .repeated)]
    let us : List (Turn (Queue → Queue)) :=
      [.report (button .pressed), .report (button .released), .outside (·.poll.2), .report (button .repeated)]
    let b : Board 2 (Journal Recorder) := fresh 8 2 ⟨s, { sink := { capacity := 8 } }⟩
    let c : Board 2 (Journal Queue) := fresh 0 0 ⟨s, { sink := { capacity := 1 } }⟩
    reportsOn ⟨0⟩ ts = reportsOn ⟨0⟩ us ∧
      answers (b.watch ⟨0⟩ ts) = [true, false, true] ∧ answers (c.watch ⟨0⟩ us) = [true, false, true] ∧
      b.watch ⟨0⟩ ts = c.watch ⟨0⟩ us ∧
      c.watch ⟨0⟩ us = [⟨[(.buttonPressed ⟨0⟩, true)], true⟩, ⟨[(.buttonReleased ⟨0⟩, false)], true⟩,
        ⟨[(.buttonRepeated ⟨0⟩, true)], true⟩] := by
  intro s button ts us b c
  have hreports : reportsOn ⟨0⟩ ts = reportsOn ⟨0⟩ us := rfl
  have hb : answers (b.watch ⟨0⟩ ts) = [true, false, true] := by decide
  have hc : answers (c.watch ⟨0⟩ us) = [true, false, true] := by decide
  obtain ⟨hsame, -⟩ := buttons_independent (n := 2) s ⟨0⟩ 8 2 0 0 ({ capacity := 8 } : Recorder)
    ({ capacity := 1 } : Queue) ts us
  have hwatch : b.watch ⟨0⟩ ts = c.watch ⟨0⟩ us := by
    refine hsame hreports fun k a a' ha ha' => ?_
    rw [hb] at ha
    rw [hc] at ha'
    exact Option.some.inj (ha.symm.trans ha')
  have hseen : c.watch ⟨0⟩ us = [⟨[(.buttonPressed ⟨0⟩, true)], true⟩, ⟨[(.buttonReleased ⟨0⟩, false)], true⟩,
      ⟨[(.buttonRepeated ⟨0⟩, true)], true⟩] := by decide
  -- two spellings of the boards are compared here, which must not run them
  with_reducible exact ⟨hreports, hb, hc, hwatch, hseen⟩

end Board

end ButtonPanel
