/-
  ButtonPanel.Proofs.CommandLine.Losses — which events a run loses. The run is done over a
  journal of its queue (`journal`), which tells what was offered and what was refused.

  A queue accepts as many of the events offered in a row as it has room for, and refuses the
  rest (`Queue.replies`). Between two gestures it is empty, so the journal of a run is the
  replies to one gesture after the other (`Idle.journal_entries`). No gesture has more than two
  events to tell, and taking all events after each gesture makes room for `queueDepth` of them.
  So a run loses events exactly if there is room for one only and it does a click that has two
  to tell (`event_lost_iff`).
-/

import Mathlib.Data.List.TakeWhile
import ButtonPanel.Proofs.CommandLine.Output
import ButtonPanel.Proofs.Log

namespace ButtonPanel

def Queue.replies (q : Queue) (es : List Event) : List (Event × Reply) :=
  let room := q.capacity - q.unread.length
  (es.take room).map (·, .accepted) ++ (es.drop room).map (·, .refused .queueFull)

/-- The first reply is that of the event sent first, and the others are those of the queue after it. -/
theorem Queue.replies_cons {q : Queue} (h : q.unread.length ≤ q.capacity) (e : Event) (es : List Event) :
    q.replies (e :: es) = (e, (q.send e).1) :: (q.send e).2.replies es := by
  by_cases hroom : q.unread.length < q.capacity
  · obtain ⟨n, hn⟩ : ∃ n, q.capacity - q.unread.length = n + 1 := ⟨q.capacity - q.unread.length - 1, by omega⟩
    have hless : q.capacity - (q.unread.length + 1) = n := by omega
    simp [send_of_room hroom, replies, hn, hless]
  · have hnone : q.capacity - q.unread.length = 0 := by omega
    simp [send_of_full (Nat.not_lt.mp hroom), replies, hnone]

namespace Journal

/-- Everything that was offered was accepted if and only if no reply is a refusal. -/
theorem accepted_eq_offered_iff {σ : Type} (j : Journal σ) :
    j.accepted = j.offered ↔ ∀ x ∈ j.entries, x.2 = .accepted := by
  constructor
  · intro h x hx
    have hlength := congrArg List.length h
    simp only [accepted, offered, List.length_map] at hlength
    simpa using List.length_filter_eq_length_iff.mp hlength x hx
  · intro h
    have hall : j.entries.filter (·.2 = .accepted) = j.entries := List.filter_eq_self.mpr fun x hx => by simp [h x hx]
    rw [accepted, hall, offered]

theorem tell_entries (m : Emitter (Journal Queue)) (h : m.sink.sink.unread.length ≤ m.sink.sink.capacity)
    (es : List Event) :
    (m.tell es).sink =
      { sink := m.sink.sink.sendAll es, entries := m.sink.entries ++ m.sink.sink.replies es } := by
  obtain ⟨settings, q, entries⟩ := m
  show es.foldl (fun s e => (Sink.send s e).2) (⟨q, entries⟩ : Journal Queue) = _
  replace h : q.unread.length ≤ q.capacity := h
  induction es generalizing q entries with
  | nil => simp [Queue.replies]
  | cons e es ih =>
    have hsend : (Sink.send (⟨q, entries⟩ : Journal Queue) e).2 = ⟨(q.send e).2, entries ++ [(e, (q.send e).1)]⟩ := rfl
    have hfits : (q.send e).2.unread.length ≤ (q.send e).2.capacity := by
      rw [Queue.capacity_send]
      exact Queue.length_send h e
    rw [List.foldl_cons, hsend, ih _ _ hfits, Queue.sendAll_cons, Queue.replies_cons h, List.append_assoc]
    rfl

end Journal

namespace PanelConfig

/-- The gestures of a run that are done: those before the first whose key addresses no button. -/
def done (c : PanelConfig) (gs : List Gesture) : List Gesture := gs.takeWhile (c.Knows ·)

/-- What is offered of a gesture and what is answered. -/
def answered (c : PanelConfig) (g : Gesture) : List (Event × Reply) :=
  ({ capacity := c.queueDepth.toNat } : Queue).replies (c.news g)

theorem knows_of_mem_done {c : PanelConfig} {gs : List Gesture} {g : Gesture} (h : g ∈ c.done gs) : c.Knows g := by
  have hall := List.mem_takeWhile_imp (p := fun g => decide (c.Knows g)) h
  exact of_decide_eq_true hall

/-- Each event that is printed was accepted, and the queue was full for the others. -/
theorem answered_eq (c : PanelConfig) (g : Gesture) :
    c.answered g =
      (c.told g).map (·, .accepted) ++ ((c.news g).drop c.queueDepth.toNat).map (·, .refused .queueFull) := rfl

theorem map_fst_answered (c : PanelConfig) (g : Gesture) : (c.answered g).map (·.1) = c.news g := by
  simp only [answered_eq, told, List.map_append, List.map_map, Function.comp_def, List.map_id',
    List.take_append_drop]

theorem accepted_answered (c : PanelConfig) (g : Gesture) :
    ((c.answered g).filter (·.2 = .accepted)).map (·.1) = c.told g := by
  have hall : ((c.told g).map fun e => (e, Reply.accepted)).filter (·.2 = .accepted) =
      (c.told g).map (·, .accepted) := List.filter_eq_self.mpr (by simp)
  have hnone : (((c.news g).drop c.queueDepth.toNat).map fun e => (e, Reply.refused .queueFull)).filter
      (·.2 = .accepted) = [] := by
    refine List.filter_eq_nil_iff.mpr fun x hx => ?_
    obtain ⟨e, -, rfl⟩ := List.mem_map.mp hx
    simp
  rw [answered_eq, List.filter_append, hall, hnone, List.append_nil, List.map_map]
  exact List.map_id' _

theorem reply_of_mem_answered {c : PanelConfig} {g : Gesture} {x : Event × Reply} (h : x ∈ c.answered g) :
    x.2 = .accepted ∨ x.2 = .refused .queueFull := by
  rcases List.mem_append.mp h with h | h
  · obtain ⟨e, -, rfl⟩ := List.mem_map.mp h
    exact Or.inl rfl
  · obtain ⟨e, -, rfl⟩ := List.mem_map.mp h
    exact Or.inr rfl

/-- A valid configuration has room for one event at least, so only a gesture that has two events
    to tell can find too little room. -/
theorem refusal_mem_answered_iff {c : PanelConfig} (hv : c.validate = .ok ()) {g : Gesture} (hk : c.Knows g) :
    (∃ e, (e, .refused .queueFull) ∈ c.answered g) ↔
      c.queueDepth = 1 ∧ c.listener.mode = .button ∧ g.verb = .click := by
  obtain ⟨w, hw⟩ := Option.isSome_iff_exists.mp hk
  obtain ⟨htwo, hone⟩ := c.listener.length_news w.id g.verb
  rw [← news_of_some hw] at htwo hone
  have hpos : c.queueDepth.toNat ≠ 0 := fun h => (validate_eq_ok_iff.mp hv).1 (UInt64.toNat.inj h)
  have hdepth : c.queueDepth = 1 ↔ c.queueDepth.toNat = 1 := ⟨fun h => by rw [h]; rfl, fun h => UInt64.toNat.inj h⟩
  have hlost : (∃ e, (e, .refused .queueFull) ∈ c.answered g) ↔ c.queueDepth.toNat < (c.news g).length := by
    have hdrop : (∃ e, (e, .refused .queueFull) ∈ c.answered g) ↔ ∃ e, e ∈ (c.news g).drop c.queueDepth.toNat := by
      simp only [answered_eq, List.mem_append, List.mem_map, Prod.mk.injEq, reduceCtorEq, and_false, exists_false,
        false_or, and_true, exists_eq_right]
    rw [hdrop, ← List.length_pos_iff_exists_mem, List.length_drop]
    omega
  rw [hlost, hdepth]
  constructor
  · intro hlt
    have hclick : c.listener.mode = .button ∧ g.verb = .click := by
      by_contra hno
      have := hone.mpr hno
      omega
    exact ⟨by omega, hclick⟩
  · rintro ⟨hd, hclick⟩
    have : ¬ (c.news g).length ≤ 1 := fun hle => hone.mp hle hclick
    omega

def journaled (c : PanelConfig) : Panel (Journal Queue) := c.panel.withSink { sink := c.panel.emitter.sink }

end PanelConfig

namespace Panel

def unjournaled (p : Panel (Journal Queue)) : Panel Queue := p.withSink p.emitter.sink.sink

def emptied (p : Panel (Journal Queue)) : Panel (Journal Queue) :=
  p.withSink (p.emitter.sink.disturb fun q => q.drain.2)

end Panel

namespace CommandLine

variable {c : PanelConfig} {p : Panel (Journal Queue)}

/-- Does gestures on a panel as `play` does, and gives the journal of the run. -/
def journal (p : Panel (Journal Queue)) : List Gesture → Journal Queue
  | [] => p.emitter.sink
  | g :: gs =>
    match g.apply p with
    | .error _ => p.emitter.sink
    | .ok (_, p) => journal p.emptied gs

theorem Idle.journal_step (h : p.unjournaled.Idle c) {g : Gesture} (hk : c.Knows g) :
    ∃ id q, g.apply p = .ok (id, q) ∧ q.emitter.sink.entries = p.emitter.sink.entries ++ c.answered g ∧
      q.emptied.unjournaled.Idle c := by
  obtain ⟨w, hw⟩ := Option.isSome_iff_exists.mp hk
  obtain ⟨held, hq⟩ := Gesture.apply_of_some (p := p) (g := g) (by rw [show p.widgets = _ from h.widgets]; exact hw)
  have hsink : p.emitter.sink.sink = { capacity := c.queueDepth.toNat } := h.sink
  have hfits : p.emitter.sink.sink.unread.length ≤ p.emitter.sink.sink.capacity := by
    rw [hsink]
    exact Nat.zero_le _
  rw [show p.emitter.settings = _ from h.settings, ← PanelConfig.news_of_some hw] at hq
  refine ⟨w.id, _, hq, ?_, h.widgets, h.settings, ?_⟩
  · show (p.emitter.tell (c.news g)).sink.entries = _
    rw [Journal.tell_entries _ hfits, hsink, PanelConfig.answered]
  · show ({ capacity := (p.emitter.tell (c.news g)).sink.sink.capacity } : Queue) = _
    rw [Journal.tell_entries _ hfits, Queue.capacity_sendAll, hsink]

theorem Idle.journal_entries (h : p.unjournaled.Idle c) (gs : List Gesture) :
    (journal p gs).entries = p.emitter.sink.entries ++ (c.done gs).flatMap c.answered := by
  induction gs generalizing p with
  | nil => simp [journal, PanelConfig.done]
  | cons g gs ih =>
    by_cases hk : c.Knows g
    · obtain ⟨id, q, happly, hentries, hidle⟩ := Idle.journal_step h hk
      have hdone : c.done (g :: gs) = g :: c.done gs := List.takeWhile_cons_of_pos (decide_eq_true hk)
      have hempty : q.emptied.emitter.sink.entries = q.emitter.sink.entries := rfl
      rw [journal, happly]
      simp only [ih hidle, hempty, hentries, hdone, List.flatMap_cons, List.append_assoc]
    · have hdone : c.done (g :: gs) = [] := List.takeWhile_cons_of_neg (by simpa using hk)
      have hnone : addressed? p.widgets g.key = none := by
        rw [show p.widgets = _ from h.widgets]
        exact Option.not_isSome_iff_eq_none.mp hk
      rw [journal, Gesture.apply_of_none hnone, hdone, List.flatMap_nil, List.append_nil]

theorem simulate_events (hv : c.validate = .ok ()) (hq : Queue.Allocatable c.queueDepth.toNat) (gs : List Gesture) :
    (simulate c gs).events = (c.done gs).flatMap c.told := by
  have hsplit : c.done gs ++ gs.dropWhile (c.Knows ·) = gs := List.takeWhile_append_dropWhile
  have hb : ∀ g ∈ c.done gs, c.Knows g := fun g => PanelConfig.knows_of_mem_done
  have hhead := List.head?_dropWhile_not (c.Knows ·) gs
  cases hrest : gs.dropWhile (c.Knows ·) with
  | nil =>
    rw [hrest, List.append_nil] at hsplit
    rw [hsplit] at hb ⊢
    rw [simulate_of_known hv hq hb]
  | cons g after =>
    rw [hrest] at hsplit hhead
    have hg : ¬ c.Knows g := of_decide_eq_false hhead
    conv => lhs; rw [← hsplit]
    rw [simulate_of_unknown hv hq hb hg]

/-- Of a valid configuration whose queue can be allocated: every event that the panel tells of the
    gestures done is offered to the queue, and what is printed is what the queue accepted. A send
    is refused exactly if there is room for one event only and a click in button mode is done;
    only then is anything missing from what is printed. -/
theorem event_lost_iff (hv : c.validate = .ok ()) (hq : Queue.Allocatable c.queueDepth.toNat) (gs : List Gesture) :
    let j := journal c.journaled gs
    j.offered = (c.done gs).flatMap c.news ∧
    (simulate c gs).events = j.accepted ∧
    ((∃ e, (e, .refused .queueFull) ∈ j.entries) ↔
      c.queueDepth = 1 ∧ c.listener.mode = .button ∧ ∃ g ∈ c.done gs, g.verb = .click) ∧
    ((simulate c gs).events = (c.done gs).flatMap c.news ↔ ¬ ∃ e, (e, .refused .queueFull) ∈ j.entries) := by
  intro j
  have hentries : j.entries = (c.done gs).flatMap c.answered :=
    Idle.journal_entries (p := c.journaled) ⟨rfl, rfl, rfl⟩ gs
  have hoffered : j.offered = (c.done gs).flatMap c.news := by
    simp only [Journal.offered, hentries, List.map_flatMap, PanelConfig.map_fst_answered]
  have haccepted : (simulate c gs).events = j.accepted := by
    simp only [Journal.accepted, hentries, List.filter_flatMap, List.map_flatMap, PanelConfig.accepted_answered,
      simulate_events hv hq]
  refine ⟨hoffered, haccepted, ?_, ?_⟩
  · have hgesture : (∃ e, (e, .refused .queueFull) ∈ j.entries) ↔
        ∃ g ∈ c.done gs, ∃ e, (e, .refused .queueFull) ∈ c.answered g := by
      rw [hentries]
      constructor
      · rintro ⟨e, he⟩
        obtain ⟨g, hg, he⟩ := List.mem_flatMap.mp he
        exact ⟨g, hg, e, he⟩
      · rintro ⟨g, hg, e, he⟩
        exact ⟨e, List.mem_flatMap.mpr ⟨g, hg, he⟩⟩
    rw [hgesture]
    constructor
    · rintro ⟨g, hg, hlost⟩
      obtain ⟨hdepth, hmode, hverb⟩ :=
        (PanelConfig.refusal_mem_answered_iff hv (PanelConfig.knows_of_mem_done hg)).mp hlost
      exact ⟨hdepth, hmode, g, hg, hverb⟩
    · rintro ⟨hdepth, hmode, g, hg, hverb⟩
      exact ⟨g, hg, (PanelConfig.refusal_mem_answered_iff hv (PanelConfig.knows_of_mem_done hg)).mpr
        ⟨hdepth, hmode, hverb⟩⟩
  · rw [haccepted, ← hoffered, Journal.accepted_eq_offered_iff]
    constructor
    · rintro hall ⟨e, he⟩
      cases hall _ he
    · intro hnone x hx
      have hmem := hx
      rw [hentries] at hmem
      obtain ⟨g, -, hg⟩ := List.mem_flatMap.mp hmem
      rcases PanelConfig.reply_of_mem_answered hg with h | h
      · exact h
      · exact absurd ⟨x.1, h ▸ hx⟩ hnone

/-- Room for one event is enough as long as no click in button mode is done: the second click
    addresses no button. -/
theorem event_lost_iff_press_and_unknown_click :
    let c : PanelConfig := { listener := { mode := .button }, queueDepth := 1 }
    let gs : List Gesture := [⟨.press, "USER"⟩, ⟨.release, "0"⟩, ⟨.click, "MENU"⟩, ⟨.click, "USER"⟩]
    c.validate = .ok () ∧ Queue.Allocatable c.queueDepth.toNat ∧ c.done gs = gs.take 2 ∧
      (simulate c gs).events = (c.done gs).flatMap c.news := by
  intro c gs
  have hv : c.validate = .ok () := by decide
  have hq : Queue.Allocatable c.queueDepth.toNat := by decide
  obtain ⟨-, -, hlost, hprinted⟩ := event_lost_iff hv hq gs
  refine ⟨hv, hq, by decide, hprinted.mpr fun h => ?_⟩
  obtain ⟨-, -, hclick⟩ := hlost.mp h
  exact absurd hclick (by decide)

/-- A click on the one button of a panel with room for one event has two events to tell. The
    second is refused and is missing from what the program prints, and the run succeeds. -/
theorem click_overflows_room_for_one :
    let c : PanelConfig := { listener := { mode := .button }, queueDepth := 1 }
    let files : Files := fun _ => .ok (Document.panelConfig.encode c).toUTF8
    let click : Gesture := ⟨.click, "USER"⟩
    c.validate = .ok () ∧ Queue.Allocatable c.queueDepth.toNat ∧
      c.news click = [.buttonPressed (.ofNat 0), .buttonPressed (.ofNat 0)] ∧
      (journal c.journaled [click]).entries =
        [(.buttonPressed (.ofNat 0), .accepted), (.buttonPressed (.ofNat 0), .refused .queueFull)] ∧
      run files ["--config", "panel.json", "click:USER"] = { exit := 0, stdout := "button pressed #0\n" } := by
  intro c files click
  exact ⟨by decide, by decide, by decide, by decide, by decide +kernel⟩

end CommandLine

end ButtonPanel
