/-
  ButtonPanel.Proofs.Emitter.Strokes — what a front panel tells of strokes on its buttons. An
  emitter keeps nothing of a stroke: what it offers follows from its settings and the stroke
  (`Settings.strokeNews`), and it goes on as if the offer had been taken (`strike_tells`).

  Between two strokes something outside may act on the sink. A run is a list of such turns, and what
  a stroke does is a parameter of it, since a board reports strokes in another way.

  `strokes_told`: after every run of strokes, over any sink, whatever it answers,
  - the settings are as they were, and the sink was offered what each stroke tells, in their order;
  - all of that is of the one family of the mode;
  - the journal that shows the offers has changed nothing;
  - a recorder that nobody touches holds as many of the first offers as it has room for, and it has
    counted them all, up to the end of its counter.
-/

import ButtonPanel.Proofs.Log
import ButtonPanel.Proofs.Panel.Gestures
import ButtonPanel.Sink.Recorder

namespace ButtonPanel

/-! ## What is told -/

def Event.family? : Event → Option Mode
  | buttonPressed _ | buttonRepeated _ | buttonReleased _ => some .button
  | command _ => some .command
  | generic _ _ => some .home
  | touchPressed _ _ | touchMoved _ _ | touchReleased => none

namespace Settings

def strokeNews (s : Settings) (id : ButtonId) : Stroke → List Event
  | .press => s.pressNews id
  | .release => s.releaseNews id

def told (s : Settings) (xs : List (ButtonId × Stroke)) : List Event := xs.flatMap fun x => s.strokeNews x.1 x.2

theorem strokeNews_eq (s : Settings) (id : ButtonId) (stroke : Stroke) :
    (s.panelEvent? id stroke).toList = s.strokeNews id stroke := by
  cases stroke with
  | press => exact s.pressNews_eq id
  | release => exact s.releaseNews_eq id

theorem family?_of_mem_strokeNews {s : Settings} {id : ButtonId} {stroke : Stroke} {e : Event}
    (h : e ∈ s.strokeNews id stroke) : e.family? = some s.mode := by
  obtain ⟨mode, command, homeValue⟩ := s
  cases mode <;> cases stroke <;> simp [strokeNews, pressNews, releaseNews] at h <;> rw [h] <;> rfl

theorem family?_of_mem_told {s : Settings} {xs : List (ButtonId × Stroke)} {e : Event} (h : e ∈ s.told xs) :
    e.family? = some s.mode := by
  obtain ⟨x, -, he⟩ := List.mem_flatMap.mp h
  exact family?_of_mem_strokeNews he

end Settings

/-! ## Runs -/

inductive StrokeTurn (α : Type)
  | stroke (id : ButtonId) (stroke : Stroke)
  | outside (a : α)

def strokesIn {α : Type} (ts : List (StrokeTurn α)) : List (ButtonId × Stroke) :=
  ts.filterMap fun
    | .stroke id stroke => some (id, stroke)
    | .outside _ => none

def strokesOnly {α : Type} (xs : List (ButtonId × Stroke)) : List (StrokeTurn α) := xs.map fun x => .stroke x.1 x.2

namespace Emitter

section Run

variable {σ α : Type}

def withSink (m : Emitter σ) {τ : Type} (sink : τ) : Emitter τ := { settings := m.settings, sink }

def unjournaled (m : Emitter (Journal σ)) : Emitter σ := m.withSink m.sink.sink

/-- One turn, where `call` is what a stroke does. -/
def turn (call : Emitter σ → ButtonId → Stroke → Emitter σ) (act : σ → α → σ) (m : Emitter σ) : StrokeTurn α → Emitter σ
  | .stroke id stroke => call m id stroke
  | .outside a => m.withSink (act m.sink a)

def turns (call : Emitter σ → ButtonId → Stroke → Emitter σ) (act : σ → α → σ) (m : Emitter σ)
    (ts : List (StrokeTurn α)) : Emitter σ := ts.foldl (turn call act) m

end Run

variable {σ α : Type} [Sink σ]

theorem strike_tells (m : Emitter σ) (id : ButtonId) (stroke : Stroke) :
    m.strike id stroke = m.tell (m.settings.strokeNews id stroke) := by
  rw [strike_eq_tell, Settings.strokeNews_eq]

/-- With nothing else happening, strokes are told one after the other. -/
theorem turns_strokesOnly (act : σ → α → σ) (m : Emitter σ) (xs : List (ButtonId × Stroke)) :
    m.turns strike act (strokesOnly xs) = m.tell (m.settings.told xs) := by
  induction xs generalizing m with
  | nil => rfl
  | cons x xs ih =>
    have hstroke : m.turns strike act (strokesOnly (x :: xs)) = (m.strike x.1 x.2).turns strike act (strokesOnly xs) := rfl
    rw [hstroke, ih, strike_tells]
    exact (tell_append m _ _).symm

end Emitter

namespace Journal

variable {σ α : Type}

def act (act : σ → α → σ) (j : Journal σ) (a : α) : Journal σ := j.disturb (act · a)

/-- If keeping a journal changes nothing that a stroke does, it changes nothing in a run. -/
theorem unjournaled_turns {call : Emitter (Journal σ) → ButtonId → Stroke → Emitter (Journal σ)}
    {bare : Emitter σ → ButtonId → Stroke → Emitter σ}
    (hcall : ∀ m id stroke, (call m id stroke).unjournaled = bare m.unjournaled id stroke)
    (act : σ → α → σ) (m : Emitter (Journal σ)) (ts : List (StrokeTurn α)) :
    (m.turns call (Journal.act act) ts).unjournaled = m.unjournaled.turns bare act ts := by
  induction ts generalizing m with
  | nil => rfl
  | cons t ts ih =>
    cases t with
    | stroke id stroke =>
      have hrest := ih (call m id stroke)
      rw [hcall] at hrest
      exact hrest
    | outside a => exact ih (m.withSink (Journal.act act m.sink a))

variable [Sink σ]

theorem offered_offer (m : Emitter (Journal σ)) (e? : Option Event) :
    (m.offer e?).2.sink.offered = m.sink.offered ++ e?.toList := by
  cases e? with
  | none => exact (List.append_nil _).symm
  | some e => exact offered_send m.sink e

/-- Keeping a journal changes nothing that an offer does. -/
theorem unjournaled_offer (m : Emitter (Journal σ)) (e? : Option Event) :
    (m.offer e?).2.unjournaled = (m.unjournaled.offer e?).2 := by
  cases e? <;> rfl

theorem unjournaled_strike (m : Emitter (Journal σ)) (id : ButtonId) (stroke : Stroke) :
    (m.strike id stroke).unjournaled = m.unjournaled.strike id stroke := unjournaled_offer m _

/-- What strokes tell is what the sink is offered, and the settings stay. -/
theorem offered_turns (m : Emitter (Journal σ)) (ts : List (StrokeTurn (σ → σ))) :
    (m.turns Emitter.strike disturb ts).settings = m.settings ∧
      (m.turns Emitter.strike disturb ts).sink.offered = m.sink.offered ++ m.settings.told (strokesIn ts) := by
  induction ts generalizing m with
  | nil => exact ⟨rfl, (List.append_nil _).symm⟩
  | cons t ts ih =>
    cases t with
    | stroke id stroke =>
      obtain ⟨hsettings, hoffered⟩ := ih (m.strike id stroke)
      have hkeep : (m.strike id stroke).settings = m.settings := Emitter.settings_offer m _
      have hnews : (m.strike id stroke).sink.offered = m.sink.offered ++ m.settings.strokeNews id stroke := by
        rw [← Settings.strokeNews_eq]
        exact offered_offer m _
      rw [hkeep] at hsettings
      rw [hkeep, hnews, List.append_assoc] at hoffered
      exact ⟨hsettings, hoffered⟩
    | outside f => exact ih (m.withSink (m.sink.disturb f))

end Journal

namespace Recorder

theorem send_of_open {r : Recorder} (h : r.rejecting = false) (hroom : r.events.length ≤ r.capacity) (e : Event) :
    (r.send e).2 =
      { r with events := (r.events ++ [e]).take r.capacity, attempts := min (r.attempts + 1) maxAttempts } := by
  by_cases hfull : r.events.length < r.capacity
  · have hall : (r.events ++ [e]).take r.capacity = r.events ++ [e] := by
      refine List.take_of_length_le ?_
      rw [List.length_append, List.length_singleton]
      omega
    simp [send, h, hfull, hall]
  · have hsame : (r.events ++ [e]).take r.capacity = r.events := List.take_left' (by omega)
    simp [send, h, hfull, hsame]

/-- What is cut off before more is appended would be cut off behind it too. -/
theorem take_append_take (n : Nat) (es fs : List Event) : (es.take n ++ fs).take n = (es ++ fs).take n := by
  have hlength : n - min n es.length = n - es.length := by omega
  rw [List.take_append, List.take_append, List.take_take, Nat.min_self, List.length_take, hlength]

/-- A recorder that does not reject holds the first events that are told, and counts them all. -/
theorem tell {m : Emitter Recorder} (h : m.sink.rejecting = false) (hroom : m.sink.events.length ≤ m.sink.capacity)
    (hcount : m.sink.attempts ≤ maxAttempts) (es : List Event) :
    (m.tell es).sink =
      { m.sink with
        events := (m.sink.events ++ es).take m.sink.capacity
        attempts := min (m.sink.attempts + es.length) maxAttempts } := by
  induction es generalizing m with
  | nil =>
    show m.sink = _
    rw [List.append_nil, List.take_of_length_le hroom, List.length_nil, Nat.add_zero, Nat.min_eq_left hcount]
  | cons e es ih =>
    have hsend : (m.tell [e]).sink = _ := send_of_open h hroom e
    have hopen : (m.tell [e]).sink.rejecting = false := by rw [hsend, h]
    have hfits : (m.tell [e]).sink.events.length ≤ (m.tell [e]).sink.capacity := by
      rw [hsend]
      exact List.length_take_le _ _
    have hcounted : (m.tell [e]).sink.attempts ≤ maxAttempts := by
      rw [hsend]
      exact Nat.min_le_right _ _
    have hattempts : min (min (m.sink.attempts + 1) maxAttempts + es.length) maxAttempts =
        min (m.sink.attempts + (e :: es).length) maxAttempts := by
      -- the end of the counter is too large a number to be unfolded
      generalize maxAttempts = most
      rw [List.length_cons]
      omega
    have hlater : (m.tell (e :: es)).sink = ((m.tell [e]).tell es).sink := rfl
    rw [hlater, ih hopen hfits hcounted, hsend]
    simp only [take_append_take, hattempts, List.append_assoc, List.singleton_append]

end Recorder

namespace Emitter

theorem strokes_told {σ : Type} [Sink σ] (s : Settings) (sink : σ) (ts : List (StrokeTurn (σ → σ)))
    (xs : List (ButtonId × Stroke)) (capacity : Nat) :
    let m : Emitter (Journal σ) := { settings := s, sink := { sink } }
    let n := m.turns strike Journal.disturb ts
    let r : Emitter Recorder := { settings := s, sink := { capacity } }
    n.settings = s ∧ n.sink.offered = s.told (strokesIn ts) ∧
      (∀ e ∈ n.sink.offered, e.family? = some s.mode) ∧
      n.unjournaled = ({ settings := s, sink } : Emitter σ).turns strike (fun sink f => f sink) ts ∧
      (r.turns strike (fun sink (f : Recorder → Recorder) => f sink) (strokesOnly xs)).sink =
        { capacity
          events := (s.told xs).take capacity
          attempts := min (s.told xs).length Recorder.maxAttempts } := by
  intro m n r
  obtain ⟨hsettings, hoffered⟩ := Journal.offered_turns m ts
  have hsink := Journal.unjournaled_turns Journal.unjournaled_strike (fun sink (f : σ → σ) => f sink) m ts
  refine ⟨hsettings, hoffered, fun e he => ?_, hsink, ?_⟩
  · rw [hoffered] at he
    exact Settings.family?_of_mem_told he
  · rw [turns_strokesOnly, Recorder.tell rfl (Nat.zero_le _) (Nat.zero_le _)]
    simp [r]

/-- The release comes while the sink rejects, and the press after it when the sink is full: both are
    offered all the same. Of the same strokes a recorder with room for two holds two. -/
theorem strokes_told_past_refusals :
    let s : Settings := { mode := .button }
    let ts : List (StrokeTurn (Recorder → Recorder)) :=
      [.stroke ⟨4⟩ .press, .outside (Recorder.setRejecting · true), .stroke ⟨4⟩ .release,
        .outside (Recorder.setRejecting · false), .stroke ⟨7⟩ .press]
    let m : Emitter (Journal Recorder) := { settings := s, sink := { sink := { capacity := 1 } } }
    let n := m.turns strike Journal.disturb ts
    let r : Emitter Recorder := { settings := s, sink := { capacity := 2 } }
    n.sink.offered = [.buttonPressed ⟨4⟩, .buttonPressed ⟨4⟩, .buttonPressed ⟨7⟩] ∧
      n.sink.accepted = [.buttonPressed ⟨4⟩] ∧
      .buttonPressed ⟨7⟩ ∈ n.sink.offered ∧ (Event.buttonPressed ⟨7⟩).family? = some .button ∧
      (r.turns strike (fun sink (f : Recorder → Recorder) => f sink) (strokesOnly (strokesIn ts))).sink =
        { capacity := 2, events := [.buttonPressed ⟨4⟩, .buttonPressed ⟨4⟩], attempts := 3 } := by
  intro s ts m n r
  obtain ⟨-, hoffered, hfamily, -, hrecorded⟩ := strokes_told s ({ capacity := 1 } : Recorder) ts (strokesIn ts) 2
  have htold : s.told (strokesIn ts) = [.buttonPressed ⟨4⟩, .buttonPressed ⟨4⟩, .buttonPressed ⟨7⟩] := by decide
  have haccepted : n.sink.accepted = [.buttonPressed ⟨4⟩] := by decide
  have hmem : .buttonPressed ⟨7⟩ ∈ n.sink.offered := by
    show _ ∈ (m.turns strike Journal.disturb ts).sink.offered
    rw [hoffered, htold]
    decide
  rw [htold] at hoffered hrecorded
  exact ⟨hoffered, haccepted, hmem, hfamily _ hmem, hrecorded⟩

end Emitter

end ButtonPanel
