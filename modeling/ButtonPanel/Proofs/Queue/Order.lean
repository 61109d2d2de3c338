/-
  ButtonPanel.Proofs.Queue.Order — what the operations of a queue do to its unread events. A send
  appends its event while there is room and does nothing when there is none (`send_of_room`,
  `send_of_full`), so of several sends the first ones succeed (`unread_sendAll`). Taking all
  events at once is polling until none is left (`pollAll_eq_drain`).
-/

import ButtonPanel.Sink.Queue

namespace ButtonPanel.Queue

variable {q : Queue}

theorem send_of_room (h : q.unread.length < q.capacity) (e : Event) :
    q.send e = (.accepted, { q with unread := q.unread ++ [e] }) := by
  have hroom : ¬ q.capacity ≤ q.unread.length := by omega
  rw [send, if_neg hroom]

theorem send_of_full (h : q.capacity ≤ q.unread.length) (e : Event) : q.send e = (.refused .queueFull, q) := by
  rw [send, if_pos h]

@[simp] theorem capacity_send (q : Queue) (e : Event) : (q.send e).2.capacity = q.capacity := by
  by_cases h : q.capacity ≤ q.unread.length
  · rw [send_of_full h]
  · rw [send_of_room (Nat.lt_of_not_le h)]

theorem length_send (h : q.unread.length ≤ q.capacity) (e : Event) :
    (q.send e).2.unread.length ≤ q.capacity := by
  by_cases hroom : q.unread.length < q.capacity
  · rw [send_of_room hroom]
    simp only [List.length_append, List.length_singleton]
    omega
  · rw [send_of_full (Nat.not_lt.mp hroom)]
    exact h

@[simp] theorem sendAll_nil (q : Queue) : q.sendAll [] = q := rfl

@[simp] theorem sendAll_cons (q : Queue) (e : Event) (es : List Event) :
    q.sendAll (e :: es) = (q.send e).2.sendAll es := rfl

@[simp] theorem capacity_sendAll (q : Queue) (es : List Event) : (q.sendAll es).capacity = q.capacity := by
  induction es generalizing q with
  | nil => rfl
  | cons e es ih => rw [sendAll_cons, ih, capacity_send]

/-- Of several events those are taken for which there is room, from the first one on. -/
theorem unread_sendAll (h : q.unread.length ≤ q.capacity) (es : List Event) :
    (q.sendAll es).unread = (q.unread ++ es).take q.capacity := by
  induction es generalizing q with
  | nil => rw [sendAll_nil, List.append_nil, List.take_of_length_le h]
  | cons e es ih =>
    rw [sendAll_cons, ih (by rw [capacity_send]; exact length_send h e), capacity_send]
    by_cases hroom : q.unread.length < q.capacity
    · rw [send_of_room hroom]
      simp
    · have hfull : q.unread.length = q.capacity := by omega
      rw [send_of_full (Nat.le_of_eq hfull.symm), List.take_left' hfull, List.take_left' hfull]

theorem poll_of_cons {e : Event} {rest : List Event} (h : q.unread = e :: rest) :
    q.poll = (some e, { q with unread := rest }) := by simp [poll, h]

theorem poll_of_nil (h : q.unread = []) : q.poll = (none, q) := by
  obtain ⟨capacity, unread⟩ := q
  cases h
  rfl

def pollAll (q : Queue) : List Event × Queue :=
  match _h : q.poll with
  | (none, q') => ([], q')
  | (some e, q') =>
    let rest := q'.pollAll
    (e :: rest.1, rest.2)
termination_by q.unread.length
decreasing_by
  cases hu : q.unread with
  | nil => rw [poll_of_nil hu] at _h; cases _h
  | cons d ds => rw [poll_of_cons hu] at _h; cases _h; simp

theorem pollAll_eq_drain (q : Queue) : q.pollAll = q.drain := by
  obtain ⟨capacity, unread⟩ := q
  induction unread with
  | nil => rw [pollAll]; rfl
  | cons e rest ih =>
    rw [pollAll]
    simp only [poll, List.head?_cons, List.tail_cons, ih]
    rfl

end ButtonPanel.Queue
