/-
  ButtonPanel.Board.Scanner — input pins bound to the buttons of a board. Sampling a pin
  tells whether its button is down, by the polarity of the binding; a scan samples all
  pins in the order in which they were bound and stops at the first that cannot be read.
-/

import ButtonPanel.Board.Buttons
import ButtonPanel.Emitter

namespace ButtonPanel

inductive Polarity
  | activeHigh
  | activeLow
  deriving DecidableEq, Repr

def Polarity.isDown (p : Polarity) (high : Bool) : Bool :=
  match p with
  | activeHigh => high
  | activeLow => !high

structure Binding (π : Type) where
  pin : π
  id : ButtonId
  polarity : Polarity
  deriving DecidableEq, Repr

/-- Why a pin was not bound or not sampled; `ε` says why a pin cannot be read. -/
inductive ScanError (ε : Type)
  | pin (fault : ε)
  | unknownSlot (slot : Nat)
  | full
  | idOutOfRange (id : ButtonId)
  | duplicateId (id : ButtonId)
  deriving DecidableEq, Repr

def ScanError.message {ε : Type} (faultText : ε → String) : ScanError ε → String
  | pin fault => "Button pin read failed: " ++ faultText fault
  | unknownSlot slot => "No button bound to slot " ++ slot.repr
  | full => "All button slots are in use"
  | idOutOfRange id => "Button " ++ id.text ++ " is outside the tracked range"
  | duplicateId id => "Button " ++ id.text ++ " is already bound"

/-- Pins of kind `π` bound to buttons below `n`. The place of a binding is its slot. -/
structure Scanner (n : Nat) (π σ : Type) where
  bindings : List (Binding π) := []
  down : ButtonSet n := .empty
  emitter : Emitter σ

namespace Scanner

variable {n : Nat} {π σ ε : Type} [Sink σ]

def size (s : Scanner n π σ) : Nat := s.bindings.length

def isEmpty (s : Scanner n π σ) : Bool := s.bindings.isEmpty

/-- Binds a pin to a button that is below `n` and not bound yet. Gives the slot. -/
def add (s : Scanner n π σ) (b : Binding π) : Except (ScanError ε) (Nat × Scanner n π σ) :=
  if n ≤ b.id.toNat then .error (.idOutOfRange b.id)
  else if s.bindings.any (·.id = b.id) then .error (.duplicateId b.id)
  else if n ≤ s.bindings.length then .error .full
  else .ok (s.bindings.length, { s with bindings := s.bindings ++ [b] })

/-- Samples one binding. Gives whether its button is down; that the event was refused does not show. -/
def sample (read : π → Except ε Bool) (s : Scanner n π σ) (b : Binding π) :
    Except (ScanError ε) Bool × Scanner n π σ :=
  match read b.pin with
  | .error fault => (.error (.pin fault), s)
  | .ok high =>
    let isDown := b.polarity.isDown high
    let report := if isDown then ButtonReport.pressed else .released
    let (down, emitter) := s.emitter.settle s.down (s.down.plan s.emitter.settings b.id report)
    (.ok isDown, { s with down, emitter })

def edge (read : π → Except ε Bool) (s : Scanner n π σ) (slot : Nat) :
    Except (ScanError ε) Bool × Scanner n π σ :=
  match s.bindings[slot]? with
  | none => (.error (.unknownSlot slot), s)
  | some b => s.sample read b

/-- Samples bindings in order up to the first fault. -/
def sampleAll (read : π → Except ε Bool) (s : Scanner n π σ) :
    List (Binding π) → Except (ScanError ε) Unit × Scanner n π σ
  | [] => (.ok (), s)
  | b :: rest =>
    match s.sample read b with
    | (.error e, s) => (.error e, s)
    | (.ok _, s) => s.sampleAll read rest

def scan (read : π → Except ε Bool) (s : Scanner n π σ) : Except (ScanError ε) Unit × Scanner n π σ :=
  s.sampleAll read s.bindings

end Scanner

end ButtonPanel
