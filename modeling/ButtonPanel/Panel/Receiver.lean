/-
  ButtonPanel.Panel.Receiver — the consumer of a panel that sends into a queue. It takes
  events from the queue and touches nothing else.
-/

import ButtonPanel.Panel
import ButtonPanel.Sink.Queue

namespace ButtonPanel.Panel

def withSink {σ τ : Type} (p : Panel σ) (sink : τ) : Panel τ :=
  { widgets := p.widgets, held := p.held, emitter := { settings := p.emitter.settings, sink } }

def poll (p : Panel Queue) : Option Event × Panel Queue :=
  let taken := p.emitter.sink.poll
  (taken.1, p.withSink taken.2)

def drain (p : Panel Queue) : List Event × Panel Queue :=
  let taken := p.emitter.sink.drain
  (taken.1, p.withSink taken.2)

/-- Waits for an event while a button is pressed. An event that is there already is taken
    before the press; otherwise the first one that the press brings, if any. -/
def awaitPress (p : Panel Queue) (key : String) : Option Event × Except PanelError ButtonId × Panel Queue :=
  let (first, p) := p.poll
  match p.press key with
  | .error why => (first, .error why, p)
  | .ok (id, p) =>
    match first with
    | some e => (some e, .ok id, p)
    | none =>
      let taken := p.poll
      (taken.1, .ok id, taken.2)

end ButtonPanel.Panel
