/-
  ButtonPanel.Board — the buttons and the touch contact of a board over one emitter. A raw
  report offers at most one event, and what the board believes changes only if that event
  is taken (or none was called for): what the application was not told has not happened.
-/

import ButtonPanel.Board.Buttons
import ButtonPanel.Board.Touch
import ButtonPanel.Emitter

namespace ButtonPanel

structure Board (n : Nat) (σ : Type) where
  down : ButtonSet n := .empty
  touch : Touch := {}
  emitter : Emitter σ

inductive Report
  | button (id : ButtonId) (r : ButtonReport)
  | touch (r : TouchReport)
  deriving DecidableEq, Repr

namespace Board

variable {n : Nat} {σ : Type} [Sink σ]

def step (b : Board n σ) : Report → Board n σ
  | .button id r =>
    let (down, emitter) := b.emitter.settle b.down (b.down.plan b.emitter.settings id r)
    { b with down, emitter }
  | .touch r =>
    let (touch, emitter) := b.emitter.settle b.touch (b.touch.plan r)
    { b with touch, emitter }

def run (b : Board n σ) (rs : List Report) : Board n σ := rs.foldl step b

end Board

end ButtonPanel
