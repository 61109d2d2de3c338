/-
  ButtonPanel.Proofs.Board.Buttons — what an application is told of the buttons of a board.

  `buttons_orderly`: in button mode, over any sink that accepts and refuses as it likes,
  after any run of button and touch reports, the accepted events of each button begin a list
  of press-hold-release cycles, none names a button out of range, and a button is believed
  to be down exactly when the last event accepted of it left it open. Over a queue the same
  holds of what the consumer took followed by what is unread, whenever it takes. The journal that
  shows what was accepted has changed nothing.
-/

import ButtonPanel.Proofs.Board.Run
import ButtonPanel.Proofs.ButtonHistory
import ButtonPanel.Sink.Recorder

namespace ButtonPanel

theorem button?_of_touch_plan (t : Touch) (r : TouchReport) : ∀ e ∈ (t.plan r).1, e.button? = none := by
  intro e he
  unfold Touch.plan at he
  repeat' split at he
  all_goals cases he
  all_goals rfl

theorem buttonHistory_plan {n : Nat} {s : Settings} (hs : s.mode = .button) (k : Belief n) (es : List Event) (r : Report)
    (h : ButtonHistory k.down es) : ButtonHistory (k.plan s r).2.down (es ++ (k.plan s r).1.toList) := by
  cases r with
  | button id r => exact h.plan hs id r
  | touch r => exact h.append_other fun e he => button?_of_touch_plan k.touch r e (Option.mem_toList.mp he)

namespace Board

variable {n : Nat} {σ : Type} [Sink σ]

/-- Over any log of the sink, the buttons agree with the log after every run. -/
theorem buttonHistory_turns {α : Type} {log : σ → List Event} (hl : IsLog log) {act : σ → α → σ}
    (hact : ∀ s a, log (act s a) = log s) {m : Emitter σ} (hm : m.settings.mode = .button)
    (hlog : log m.sink = []) (firstLimit laterLimit : UInt32) (ts : List (Turn α)) :
    ButtonHistory ((fresh firstLimit laterLimit m : Board n σ).turns act ts).down
      (log ((fresh firstLimit laterLimit m : Board n σ).turns act ts).emitter.sink) :=
  turns_keep (I := fun k es => ButtonHistory k.down es) hl hact (fresh firstLimit laterLimit m)
    (fun k es r h => buttonHistory_plan hm k es r h)
    (show ButtonHistory (.empty : ButtonSet n) (log m.sink) from hlog ▸ buttonHistory_empty) ts

theorem buttons_orderly (s : Settings) (hs : s.mode = .button) (firstLimit laterLimit : UInt32)
    (sink : σ) (ts : List (Turn (σ → σ))) (capacity : Nat) (qs : List (Turn Take)) :
    let b := (fresh firstLimit laterLimit ⟨s, { sink }⟩ : Board n (Journal σ)).turns Journal.disturb ts
    let q := (fresh firstLimit laterLimit ⟨s, { queue := { capacity } }⟩ : Board n Delivery).turns Delivery.take qs
    (∀ id, ∃ w ∈ Phase.cycles, buttonPhases id b.emitter.sink.accepted <+: w) ∧
      ButtonHistory b.down b.emitter.sink.accepted ∧
      (∀ id, ∃ w ∈ Phase.cycles, buttonPhases id q.emitter.sink.delivered <+: w) ∧
      ButtonHistory q.down q.emitter.sink.delivered ∧
      b.unjournaled = (fresh firstLimit laterLimit ⟨s, sink⟩ : Board n σ).turns (fun sink f => f sink) ts := by
  intro b q
  have hb : ButtonHistory b.down b.emitter.sink.accepted :=
    buttonHistory_turns Journal.isLog Journal.accepted_disturb hs rfl firstLimit laterLimit ts
  have hq : ButtonHistory q.down q.emitter.sink.delivered :=
    buttonHistory_turns Delivery.isLog Delivery.delivered_take hs rfl firstLimit laterLimit qs
  exact ⟨fun id => (hb.orderly id).prefix_cycles, hb, fun id => (hq.orderly id).prefix_cycles, hq,
    unjournaled_turns _ ts⟩

/-- A press is lost and its release has nothing to say; a release is lost and the next press
    is a repeat. Over a queue with room for one event a release is lost until there is room. -/
theorem buttons_orderly_across_losses :
    let s : Settings := { mode := .button }
    let lose := Turn.outside (Recorder.setRejecting · true)
    let keep := Turn.outside (Recorder.setRejecting · false)
    let button r : Turn (Recorder → Recorder) := .report (.button ⟨0⟩ r)
    let ts := [lose, button .pressed, button .released, keep, button .repeated, .report (.touch (.pressed 3 4)),
      lose, button .released, keep, button .pressed, .report (.button ⟨9⟩ .pressed)]
    let b := (fresh 8 2 ⟨s, { sink := { capacity := 8 } }⟩ : Board 2 (Journal Recorder)).turns Journal.disturb ts
    let qs := [.report (.button ⟨1⟩ .pressed), .report (.button ⟨1⟩ .released), .outside .poll,
      .report (.button ⟨1⟩ .pressed), .outside .drain, .report (.button ⟨1⟩ .released)]
    let q := (fresh 8 2 ⟨s, { queue := { capacity := 1 } }⟩ : Board 2 Delivery).turns Delivery.take qs
    s.mode = .button ∧ b.emitter.sink.refused = [.buttonPressed ⟨0⟩, .buttonReleased ⟨0⟩] ∧
      b.emitter.sink.accepted = [.buttonPressed ⟨0⟩, .touchPressed 3 4, .buttonRepeated ⟨0⟩] ∧
      ButtonHistory b.down b.emitter.sink.accepted ∧
      q.emitter.sink.delivered = [.buttonPressed ⟨1⟩, .buttonRepeated ⟨1⟩, .buttonReleased ⟨1⟩] ∧
      ButtonHistory q.down q.emitter.sink.delivered := by
  intro s lose keep button ts b qs q
  have h := buttons_orderly (n := 2) s rfl 8 2 ({ capacity := 8 } : Recorder) ts 1 qs
  exact ⟨rfl, by decide, by decide, h.2.1, by decide, h.2.2.2.1⟩

end Board

end ButtonPanel
