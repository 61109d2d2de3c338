/-
  ButtonPanel.Proofs.Queue.Pipe — the two ends of a queue at work. Any number of producers send, in
  whatever order they get hold of the queue; a new one is a clone of another and takes over its
  capacity. One consumer polls, drains, asks how much is unread, or waits. A wait polls again
  and again, and what the producers do between two of its polls is part of the call.

  `queue_is_bounded_fifo`: after every run over a queue that can be allocated,
  - what was handed out, followed by what is unread, is what was accepted, in order;
  - no more is unread than the queue has room for, and a send by any producer is refused
    exactly when it is full, and then changes nothing;
  - draining is polling until nothing comes;
  - a wait that ends has taken one event by one poll, the first one to find any.

  `Sound` is the invariant. Each call keeps it (`Sound.call`), so every run does (`Sound.run`).
-/

import ButtonPanel.Proofs.Log
import ButtonPanel.Proofs.Queue.Order

namespace ButtonPanel

structure Pipe extends Delivery where
  /-- The capacities that the clones of the first producer go by. -/
  clones : List Nat := []
  /-- The events of the sends that succeeded. -/
  accepted : List Event := []
  deriving DecidableEq, Repr

/-- What a producer does. Clones are numbered from 0; any other number stands for the first producer. -/
inductive Feed
  | clone (producer : Nat)
  | send (producer : Nat) (e : Event)
  deriving DecidableEq, Repr

/-- What is done at either end. A wait lists what the producers do between one of its polls and
    the next. -/
inductive PipeCall
  | feed (f : Feed)
  | take (t : Take)
  | size
  | isEmpty
  | wait (meanwhile : List (List Feed))
  deriving DecidableEq, Repr

def Feed.event? : Feed → Option Event
  | clone _ => none
  | send _ e => some e

namespace Pipe

/-- A queue with one producer that has sent nothing. -/
def fresh (q : Queue) : Pipe := { queue := q }

/-- The queue as a producer sees it: what is unread is the same for all of them. -/
def seenBy (p : Pipe) (producer : Nat) : Queue :=
  { p.queue with capacity := p.clones[producer]?.getD p.queue.capacity }

def send (p : Pipe) (producer : Nat) (e : Event) : Reply × Pipe :=
  let answer := (p.seenBy producer).send e
  (answer.1,
    { p with
      queue := { p.queue with unread := answer.2.unread }
      accepted := if answer.1 = .accepted then p.accepted ++ [e] else p.accepted })

def feed (p : Pipe) : Feed → Pipe
  | .clone producer => { p with clones := p.clones ++ [(p.seenBy producer).capacity] }
  | .send producer e => (p.send producer e).2

def feedAll (p : Pipe) (fs : List Feed) : Pipe := fs.foldl feed p

/-- Events that the consumer takes are recorded with the queue. -/
def take (p : Pipe) (t : Take) : Pipe := { p with toDelivery := p.toDelivery.take t }

/-- Polls until there is an event. -/
def wait (p : Pipe) : List (List Feed) → Option Event × Pipe
  | [] => (p.queue.poll.1, p.take .poll)
  | fs :: later => if p.queue.isEmpty then (p.feedAll fs).wait later else (p.queue.poll.1, p.take .poll)

def call (p : Pipe) : PipeCall → Pipe
  | .feed f => p.feed f
  | .take t => p.take t
  | .size | .isEmpty => p
  | .wait meanwhile => (p.wait meanwhile).2

def run (p : Pipe) (cs : List PipeCall) : Pipe := cs.foldl call p

@[simp] theorem feedAll_nil (p : Pipe) : p.feedAll [] = p := rfl

@[simp] theorem feedAll_cons (p : Pipe) (f : Feed) (fs : List Feed) :
    p.feedAll (f :: fs) = (p.feed f).feedAll fs := rfl

theorem feedAll_append (p : Pipe) (fs gs : List Feed) : p.feedAll (fs ++ gs) = (p.feedAll fs).feedAll gs :=
  List.foldl_append

/-- All producers go by one capacity, which bounds what is unread, and nothing was lost,
    doubled or moved between the ends. -/
structure Sound (capacity : Nat) (p : Pipe) : Prop where
  first : p.queue.capacity = capacity
  clones : ∀ c ∈ p.clones, c = capacity
  fits : p.queue.unread.length ≤ capacity
  inOrder : p.delivered = p.accepted

variable {capacity : Nat} {p : Pipe}

theorem Sound.fresh {q : Queue} (hc : q.capacity = capacity) (hu : q.unread = []) : Sound capacity (fresh q) where
  first := hc
  clones c h := by cases h
  fits := by simp [Pipe.fresh, hu]
  inOrder := by simp [Pipe.fresh, Delivery.delivered, hu]

theorem Sound.seenBy (h : Sound capacity p) (producer : Nat) : p.seenBy producer = p.queue := by
  have hc : p.clones[producer]?.getD p.queue.capacity = p.queue.capacity := by
    cases hp : p.clones[producer]? with
    | none => rfl
    | some c => exact (h.clones c (List.mem_of_getElem? hp)).trans h.first.symm
  rw [Pipe.seenBy, hc]

/-- A send is refused when the queue is full, whoever makes it, and otherwise appends its event. -/
theorem Sound.send (h : Sound capacity p) (producer : Nat) (e : Event) :
    p.send producer e =
      if p.queue.unread.length = capacity then (.refused .queueFull, p)
      else (.accepted, { p with
        queue := { p.queue with unread := p.queue.unread ++ [e] }, accepted := p.accepted ++ [e] }) := by
  rw [Pipe.send, h.seenBy]
  by_cases hfull : p.queue.unread.length = capacity
  · have hle : p.queue.capacity ≤ p.queue.unread.length := Nat.le_of_eq (h.first.trans hfull.symm)
    rw [if_pos hfull, Queue.send_of_full hle]
    rfl
  · have hlt : p.queue.unread.length < p.queue.capacity := by
      rw [h.first]
      exact Nat.lt_of_le_of_ne h.fits hfull
    rw [if_neg hfull, Queue.send_of_room hlt]
    rfl

/-! ## Every run is sound -/

theorem Sound.feed (h : Sound capacity p) (f : Feed) : Sound capacity (p.feed f) := by
  cases f with
  | clone producer =>
    refine ⟨h.first, ?_, h.fits, h.inOrder⟩
    intro c hc
    rcases List.mem_append.mp hc with hc | hc
    · exact h.clones c hc
    · rw [List.mem_singleton.mp hc, h.seenBy, h.first]
  | send producer e =>
    show Sound capacity (p.send producer e).2
    rw [h.send]
    by_cases hfull : p.queue.unread.length = capacity
    · rw [if_pos hfull]
      exact h
    · rw [if_neg hfull]
      refine ⟨h.first, h.clones, ?_, ?_⟩
      · have hfits := h.fits
        simp only [List.length_append, List.length_singleton]
        omega
      · show p.taken ++ (p.queue.unread ++ [e]) = p.accepted ++ [e]
        rw [← List.append_assoc]
        exact congrArg (· ++ [e]) h.inOrder

theorem Sound.feedAll (h : Sound capacity p) (fs : List Feed) : Sound capacity (p.feedAll fs) := by
  induction fs generalizing p with
  | nil => exact h
  | cons f fs ih => exact ih (h.feed f)

theorem Sound.take (h : Sound capacity p) (t : Take) : Sound capacity (p.take t) := by
  refine ⟨?_, h.clones, ?_, (Delivery.delivered_take p.toDelivery t).trans h.inOrder⟩
  · cases t <;> exact h.first
  · cases t with
    | poll =>
      have htail : p.queue.unread.tail.length ≤ p.queue.unread.length := by simp
      exact Nat.le_trans htail h.fits
    | drain => exact Nat.zero_le _

theorem Sound.wait (h : Sound capacity p) (meanwhile : List (List Feed)) : Sound capacity (p.wait meanwhile).2 := by
  induction meanwhile generalizing p with
  | nil => exact h.take .poll
  | cons fs later ih =>
    rw [Pipe.wait]
    split
    · exact ih (h.feedAll fs)
    · exact h.take .poll

theorem Sound.call (h : Sound capacity p) (c : PipeCall) : Sound capacity (p.call c) := by
  cases c with
  | feed f => exact h.feed f
  | take t => exact h.take t
  | size => exact h
  | isEmpty => exact h
  | wait meanwhile => exact h.wait meanwhile

theorem Sound.run (h : Sound capacity p) (cs : List PipeCall) : Sound capacity (p.run cs) := by
  induction cs generalizing p with
  | nil => exact h
  | cons c cs ih => exact ih (h.call c)

/-! ## Waiting -/

/-- The polls of a wait before the one that follows `before` all found nothing. -/
def Dry (p : Pipe) (before : List (List Feed)) : Prop :=
  ∀ i < before.length, (p.feedAll (before.take i).flatten).queue.unread = []

theorem dry_nil (p : Pipe) : p.Dry [] := fun i hi => absurd hi (Nat.not_lt_zero i)

theorem dry_cons {fs : List Feed} {before : List (List Feed)} :
    p.Dry (fs :: before) ↔ p.queue.unread = [] ∧ (p.feedAll fs).Dry before := by
  constructor
  · intro h
    refine ⟨h 0 (Nat.succ_pos _), fun i hi => ?_⟩
    have hnext := h (i + 1) (Nat.succ_lt_succ hi)
    rwa [List.take_succ_cons, List.flatten_cons, feedAll_append] at hnext
  · rintro ⟨hu, h⟩ i hi
    cases i with
    | zero => exact hu
    | succ i =>
      rw [List.take_succ_cons, List.flatten_cons, feedAll_append]
      exact h i (Nat.lt_of_succ_lt_succ hi)

/-- Polls that find nothing leave no trace in a wait. -/
theorem wait_of_dry {before : List (List Feed)} (h : p.Dry before) (later : List (List Feed)) :
    p.wait (before ++ later) = (p.feedAll before.flatten).wait later := by
  induction before generalizing p with
  | nil => rfl
  | cons fs before ih =>
    obtain ⟨hu, hdry⟩ := dry_cons.mp h
    have hempty : p.queue.isEmpty = true := by simp [Queue.isEmpty, hu]
    rw [List.cons_append, Pipe.wait, if_pos hempty, ih hdry, List.flatten_cons, feedAll_append]

theorem wait_of_unread (h : p.queue.unread ≠ []) (meanwhile : List (List Feed)) :
    p.wait meanwhile = (p.queue.poll.1, p.take .poll) := by
  have hempty : ¬ p.queue.isEmpty = true := by simpa [Queue.isEmpty] using h
  cases meanwhile with
  | nil => rfl
  | cons fs later => rw [Pipe.wait, if_neg hempty]

/-- A wait that ends had dry polls up to one that found an event. -/
theorem dry_of_wait {meanwhile : List (List Feed)} {e : Event} (h : (p.wait meanwhile).1 = some e) :
    ∃ before later, meanwhile = before ++ later ∧ p.Dry before ∧ (p.feedAll before.flatten).queue.unread ≠ [] := by
  induction meanwhile generalizing p with
  | nil =>
    refine ⟨[], [], rfl, dry_nil p, ?_⟩
    intro hu
    rw [Pipe.wait, Queue.poll_of_nil (show p.queue.unread = [] from hu)] at h
    cases h
  | cons fs meanwhile ih =>
    by_cases hu : p.queue.unread = []
    · have hempty : p.queue.isEmpty = true := by simp [Queue.isEmpty, hu]
      rw [Pipe.wait, if_pos hempty] at h
      obtain ⟨before, later, rfl, hdry, hfound⟩ := ih h
      refine ⟨fs :: before, later, rfl, dry_cons.mpr ⟨hu, hdry⟩, ?_⟩
      rwa [List.flatten_cons, feedAll_append]
    · exact ⟨[], fs :: meanwhile, rfl, dry_nil p, hu⟩

/-- A producer that agrees with the others sends as the first one does. -/
theorem Sound.queue_send (h : Sound capacity p) (producer : Nat) (e : Event) :
    (p.send producer e).2.queue = (p.queue.send e).2 := by
  rw [Pipe.send, h.seenBy]
  show ({ capacity := p.queue.capacity, unread := (p.queue.send e).2.unread } : Queue) = _
  rw [← Queue.capacity_send p.queue e]

/-- Producers that agree feed the queue as if there were only one. -/
theorem Sound.queue_feedAll (h : Sound capacity p) (fs : List Feed) :
    (p.feedAll fs).queue = p.queue.sendAll (fs.filterMap Feed.event?) := by
  induction fs generalizing p with
  | nil => rfl
  | cons f fs ih =>
    rw [feedAll_cons, ih (h.feed f)]
    cases f with
    | clone producer => rfl
    | send producer e =>
      show (p.send producer e).2.queue.sendAll _ = (p.queue.send e).2.sendAll _
      rw [h.queue_send]

/-- To the consumer of producers that agree, waiting is waiting for their events. -/
theorem Sound.await (h : Sound capacity p) (meanwhile : List (List Feed)) :
    p.queue.await (meanwhile.map (·.filterMap Feed.event?)) = ((p.wait meanwhile).1, (p.wait meanwhile).2.queue) := by
  induction meanwhile generalizing p with
  | nil => rfl
  | cons fs later ih =>
    rw [List.map_cons, Queue.await, Pipe.wait, ← h.queue_feedAll, ih (h.feedAll fs)]
    split <;> rfl

/-! ## The queue as a bounded first-in-first-out queue -/

theorem queue_is_bounded_fifo {capacity : Nat} {q : Queue} (hq : Queue.ofCapacity? capacity = some q)
    (cs : List PipeCall) :
    let p := (fresh q).run cs
    p.taken ++ p.queue.unread = p.accepted ∧
    p.queue.unread.length ≤ capacity ∧
    p.taken.length + p.queue.size = p.accepted.length ∧
    (p.queue.isEmpty = true ↔ p.taken = p.accepted) ∧
    (∀ producer e, p.send producer e =
      if p.queue.unread.length = capacity then (.refused .queueFull, p)
      else (.accepted, { p with
        queue := { p.queue with unread := p.queue.unread ++ [e] }, accepted := p.accepted ++ [e] })) ∧
    p.queue.drain = p.queue.pollAll ∧
    (∀ meanwhile e, (p.wait meanwhile).1 = some e ↔
      ∃ before later, meanwhile = before ++ later ∧ p.Dry before ∧
        (p.feedAll before.flatten).queue.poll.1 = some e ∧
        (p.wait meanwhile).2 = (p.feedAll before.flatten).take .poll) ∧
    (∀ meanwhile, p.queue.await (meanwhile.map (·.filterMap Feed.event?)) =
      ((p.wait meanwhile).1, (p.wait meanwhile).2.queue)) := by
  intro p
  have hnew : q = { capacity } := by
    unfold Queue.ofCapacity? at hq
    split at hq
    · exact (Option.some.inj hq).symm
    · cases hq
  have h : Sound capacity p := by
    subst hnew
    exact (Sound.fresh (q := { capacity }) rfl rfl).run cs
  have hall : p.taken ++ p.queue.unread = p.accepted := h.inOrder
  refine ⟨hall, h.fits, ?_, ?_, h.send, (Queue.pollAll_eq_drain p.queue).symm, ?_, h.await⟩
  · rw [← hall, List.length_append, Queue.size]
  · rw [← hall, Queue.isEmpty, List.isEmpty_iff]
    exact List.self_eq_append_right.symm
  · intro meanwhile e
    constructor
    · intro he
      obtain ⟨before, later, rfl, hdry, hfound⟩ := dry_of_wait he
      have hwait := (wait_of_dry hdry later).trans (wait_of_unread hfound later)
      rw [hwait] at he ⊢
      exact ⟨before, later, rfl, hdry, he, rfl⟩
    · rintro ⟨before, later, rfl, hdry, hpoll, -⟩
      have hfound : (p.feedAll before.flatten).queue.unread ≠ [] := by
        intro hu
        rw [Queue.poll_of_nil hu] at hpoll
        cases hpoll
      rw [wait_of_dry hdry, wait_of_unread hfound]
      exact hpoll

/-- A clone fills a queue with room for one event, so the first producer is refused. A wait then
    polls twice in vain and takes what the clone sends in between; what comes later is not part of it. -/
theorem queue_is_bounded_fifo_with_room_for_one :
    let q : Queue := { capacity := 1 }
    let meanwhile : List (List Feed) :=
      [[.clone 0], [.send 1 (.command .esc), .send 0 .touchReleased], [.send 0 (.buttonPressed ⟨3⟩)]]
    let cs := [.feed (.clone 9), .feed (.send 0 .touchReleased), .feed (.send 9 (.buttonPressed ⟨2⟩)), .isEmpty,
      .take .poll, .size, .wait meanwhile]
    let p := (fresh q).run cs
    Queue.ofCapacity? 1 = some q ∧ p.accepted = [.touchReleased, .command .esc] ∧
      p.taken ++ p.queue.unread = p.accepted ∧ p.queue.unread.length ≤ 1 ∧ p.queue.drain = p.queue.pollAll := by
  intro q meanwhile cs p
  have hq : Queue.ofCapacity? 1 = some q := by decide
  obtain ⟨hall, hfits, -, -, -, hdrain, -, -⟩ := queue_is_bounded_fifo hq cs
  exact ⟨hq, by decide, hall, hfits, hdrain⟩

end Pipe

end ButtonPanel
