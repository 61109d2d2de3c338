/-
  ButtonPanel.Proofs.Scanner.Run — runs of a scanner: bindings are added, pins are sampled one
  by one or all in order, and something outside acts on the sink in between.

  A sample that can be read is a report on the button of its binding (`sample_ok`) and leaves all
  other buttons as they are (`contains_heed_of_ne`), a sample that cannot changes nothing
  (`sample_error`). `calls_uphold`: whatever ties the bindings, the
  buttons that are down and the sink, and is kept by a new binding, by the settled plan of a
  report on a bound button and by what happens outside, holds after every run. So every run
  keeps the bindings apart, in range, and all other buttons up (`registered_run`).
  `calls_keep` is the same for a log of the sink: there it is enough that plans keep it.
-/

import ButtonPanel.Board.Scanner
import ButtonPanel.Proofs.Log

namespace ButtonPanel

def ButtonReport.ofLevel (isDown : Bool) : ButtonReport := if isDown then .pressed else .released

@[simp] theorem isDown_ofLevel (d : Bool) : (ButtonReport.ofLevel d).isDown = d := by cases d <;> rfl

/-- Whether the pin of a binding can be read and its level means that the button is down. -/
def Binding.isHeld {π ε : Type} (read : π → Except ε Bool) (b : Binding π) : Bool :=
  match read b.pin with
  | .ok high => b.polarity.isDown high
  | .error _ => false

/-- What can happen to a scanner; a sample comes with what the pins read at that time. -/
inductive ScanCall (π ε α : Type)
  | add (b : Binding π)
  | edge (read : π → Except ε Bool) (slot : Nat)
  | scan (read : π → Except ε Bool)
  | outside (a : α)

namespace Scanner

variable {n : Nat} {π σ ε α : Type}

def fresh (m : Emitter σ) : Scanner n π σ := { emitter := m }

def withSink (s : Scanner n π σ) (sink : σ) : Scanner n π σ := { s with emitter := { s.emitter with sink } }

variable [Sink σ]

def heed (s : Scanner n π σ) (id : ButtonId) (isDown : Bool) : Scanner n π σ :=
  let plan := s.down.plan s.emitter.settings id (.ofLevel isDown)
  { s with down := (s.emitter.settle s.down plan).1, emitter := (s.emitter.settle s.down plan).2 }

def call (act : σ → α → σ) (s : Scanner n π σ) : ScanCall π ε α → Scanner n π σ
  | .add b =>
    match (s.add b : Except (ScanError ε) (Nat × Scanner n π σ)) with
    | .ok (_, s) => s
    | .error _ => s
  | .edge read slot => (s.edge read slot).2
  | .scan read => (s.scan read).2
  | .outside a => s.withSink (act s.emitter.sink a)

def calls (act : σ → α → σ) (s : Scanner n π σ) (cs : List (ScanCall π ε α)) : Scanner n π σ := cs.foldl (call act) s

theorem calls_concat (act : σ → α → σ) (s : Scanner n π σ) (cs : List (ScanCall π ε α)) (c : ScanCall π ε α) :
    s.calls act (cs ++ [c]) = (s.calls act cs).call act c := by
  simp [calls]

/-! ## Samples -/

@[simp] theorem bindings_heed (s : Scanner n π σ) (id : ButtonId) (d : Bool) : (s.heed id d).bindings = s.bindings := rfl

@[simp] theorem settings_heed (s : Scanner n π σ) (id : ButtonId) (d : Bool) :
    (s.heed id d).emitter.settings = s.emitter.settings := Emitter.settings_settle _ _ _

theorem sample_ok {read : π → Except ε Bool} {b : Binding π} {high : Bool} (h : read b.pin = .ok high)
    (s : Scanner n π σ) : s.sample read b = (.ok (b.isHeld read), s.heed b.id (b.isHeld read)) := by
  simp only [sample, Binding.isHeld, h]
  rfl

theorem sample_error {read : π → Except ε Bool} {b : Binding π} {fault : ε} (h : read b.pin = .error fault)
    (s : Scanner n π σ) : s.sample read b = (.error (.pin fault), s) := by
  simp only [sample, h]

/-- All bindings of a list that can be read are heeded in order. -/
def heedAll (read : π → Except ε Bool) (s : Scanner n π σ) (bs : List (Binding π)) : Scanner n π σ :=
  bs.foldl (fun s b => s.heed b.id (b.isHeld read)) s

@[simp] theorem heedAll_nil (read : π → Except ε Bool) (s : Scanner n π σ) : s.heedAll read [] = s := rfl

@[simp] theorem heedAll_cons (read : π → Except ε Bool) (s : Scanner n π σ) (b : Binding π) (bs : List (Binding π)) :
    s.heedAll read (b :: bs) = (s.heed b.id (b.isHeld read)).heedAll read bs := rfl

@[simp] theorem bindings_heedAll (read : π → Except ε Bool) (s : Scanner n π σ) (bs : List (Binding π)) :
    (s.heedAll read bs).bindings = s.bindings := by
  induction bs generalizing s with
  | nil => rfl
  | cons b bs ih => rw [heedAll_cons, ih, bindings_heed]

@[simp] theorem settings_heedAll (read : π → Except ε Bool) (s : Scanner n π σ) (bs : List (Binding π)) :
    (s.heedAll read bs).emitter.settings = s.emitter.settings := by
  induction bs generalizing s with
  | nil => rfl
  | cons b bs ih => rw [heedAll_cons, ih, settings_heed]

theorem heedAll_append (read : π → Except ε Bool) (s : Scanner n π σ) (bs cs : List (Binding π)) :
    s.heedAll read (bs ++ cs) = (s.heedAll read bs).heedAll read cs := List.foldl_append

/-- Only the button of a sample can change. -/
theorem contains_heed_of_ne (s : Scanner n π σ) {id j : ButtonId} (h : j ≠ id) (d : Bool) :
    (s.heed id d).down.contains j = s.down.contains j := by
  rcases s.emitter.settle_state s.down (s.down.plan s.emitter.settings id (.ofLevel d)) with hs | hs
  · rw [heed, hs, ButtonSet.contains_plan_of_ne _ _ h]
  · rw [heed, hs]

theorem contains_heedAll_of_ne {read : π → Except ε Bool} {bs : List (Binding π)} (s : Scanner n π σ) {j : ButtonId}
    (h : ∀ b ∈ bs, b.id ≠ j) :
    (s.heedAll read bs).down.contains j = s.down.contains j := by
  induction bs generalizing s with
  | nil => rfl
  | cons b bs ih =>
    rw [heedAll_cons, ih _ fun c hc => h c (List.mem_cons_of_mem b hc)]
    exact s.contains_heed_of_ne (Ne.symm (h b List.mem_cons_self)) _

theorem sampleAll_ok {read : π → Except ε Bool} {bs : List (Binding π)} (h : ∀ b ∈ bs, ∃ high, read b.pin = .ok high)
    (s : Scanner n π σ) : s.sampleAll read bs = (.ok (), s.heedAll read bs) := by
  induction bs generalizing s with
  | nil => rfl
  | cons b bs ih =>
    obtain ⟨high, hb⟩ := h b List.mem_cons_self
    simp only [sampleAll, sample_ok hb]
    exact ih (fun c hc => h c (List.mem_cons_of_mem b hc)) _

/-- Sampling a list of bindings heeds a first part of it. -/
theorem sampleAll_prefix (read : π → Except ε Bool) (s : Scanner n π σ) (bs : List (Binding π)) :
    ∃ front, front <+: bs ∧ (s.sampleAll read bs).2 = s.heedAll read front := by
  induction bs generalizing s with
  | nil => exact ⟨[], List.prefix_refl [], rfl⟩
  | cons b bs ih =>
    cases hb : read b.pin with
    | error fault => exact ⟨[], List.nil_prefix, by simp only [sampleAll, sample_error hb, heedAll_nil]⟩
    | ok high =>
      obtain ⟨front, hfront, h⟩ := ih (s.heed b.id (b.isHeld read))
      refine ⟨b :: front, List.cons_prefix_cons.mpr ⟨rfl, hfront⟩, ?_⟩
      simp only [sampleAll, sample_ok hb, h, heedAll_cons]

/-- Sampling one slot heeds its binding or does nothing. -/
theorem edge_cases (read : π → Except ε Bool) (s : Scanner n π σ) (slot : Nat) :
    (s.edge read slot).2 = s ∨ ∃ b ∈ s.bindings, (s.edge read slot).2 = s.heed b.id (b.isHeld read) := by
  unfold edge
  cases hs : s.bindings[slot]? with
  | none => exact Or.inl rfl
  | some b =>
    cases hb : read b.pin with
    | error fault => left; simp only [sample_error hb]
    | ok high => exact Or.inr ⟨b, List.mem_of_getElem? hs, by simp only [sample_ok hb]⟩

@[simp] theorem bindings_edge (read : π → Except ε Bool) (s : Scanner n π σ) (slot : Nat) :
    (s.edge read slot).2.bindings = s.bindings := by
  rcases edge_cases read s slot with h | ⟨b, -, h⟩
  · rw [h]
  · rw [h, bindings_heed]

@[simp] theorem bindings_sampleAll (read : π → Except ε Bool) (s : Scanner n π σ) (bs : List (Binding π)) :
    (s.sampleAll read bs).2.bindings = s.bindings := by
  obtain ⟨front, -, h⟩ := sampleAll_prefix read s bs
  rw [h, bindings_heedAll]

omit [Sink σ] in
/-- A binding is added at the end, if its button is in range and not bound and there is room. -/
theorem add_cases (s : Scanner n π σ) (b : Binding π) :
    (∃ e : ScanError ε, s.add b = .error e) ∨
      (b.id.toNat < n ∧ (∀ c ∈ s.bindings, c.id ≠ b.id) ∧ s.bindings.length < n ∧
        (s.add b : Except (ScanError ε) (Nat × Scanner n π σ)) =
          .ok (s.bindings.length, { s with bindings := s.bindings ++ [b] })) := by
  unfold add
  by_cases hid : n ≤ b.id.toNat
  · exact Or.inl ⟨_, if_pos hid⟩
  rw [if_neg hid]
  by_cases hdup : s.bindings.any (·.id = b.id) = true
  · exact Or.inl ⟨_, if_pos hdup⟩
  rw [if_neg hdup]
  by_cases hfull : n ≤ s.bindings.length
  · exact Or.inl ⟨_, if_pos hfull⟩
  rw [if_neg hfull]
  exact Or.inr ⟨by omega, by simpa using hdup, by omega, rfl⟩

/-! ## Runs -/

/-- What a run upholds: a new binding, the settled plan of a report on a bound button, and what
    happens to the sink outside all keep it. -/
structure Upholds (s : Settings) (act : σ → α → σ) (I : List (Binding π) → ButtonSet n → σ → Prop) : Prop where
  add : ∀ bs down sink, ∀ b : Binding π, b.id.toNat < n → (∀ c ∈ bs, c.id ≠ b.id) → I bs down sink →
    I (bs ++ [b]) down sink
  settle : ∀ bs down sink, ∀ b ∈ bs, ∀ r, I bs down sink →
    let settled := Emitter.settle ⟨s, sink⟩ down (down.plan s b.id r)
    I bs settled.1 settled.2.sink
  outside : ∀ bs down sink a, I bs down sink → I bs down (act sink a)

section Uphold

variable {act : σ → α → σ} {I : List (Binding π) → ButtonSet n → σ → Prop}

theorem heedAll_upholds (read : π → Except ε Bool) {bs : List (Binding π)} (s : Scanner n π σ)
    (hI : Upholds s.emitter.settings act I) (hbs : ∀ b ∈ bs, b ∈ s.bindings)
    (h : I s.bindings s.down s.emitter.sink) :
    I s.bindings (s.heedAll read bs).down (s.heedAll read bs).emitter.sink := by
  induction bs generalizing s with
  | nil => exact h
  | cons b bs ih =>
    refine ih (s.heed b.id (b.isHeld read)) ?_ (fun c hc => hbs c (List.mem_cons_of_mem b hc))
      (hI.settle _ _ _ b (hbs b List.mem_cons_self) _ h)
    rw [settings_heed]
    exact hI

theorem call_upholds (s : Scanner n π σ) (hI : Upholds s.emitter.settings act I)
    (h : I s.bindings s.down s.emitter.sink) (c : ScanCall π ε α) :
    (s.call act c).emitter.settings = s.emitter.settings ∧
      I (s.call act c).bindings (s.call act c).down (s.call act c).emitter.sink := by
  cases c with
  | add b =>
    rcases add_cases (ε := ε) s b with ⟨e, hadd⟩ | ⟨hid, hdup, -, hadd⟩
    · simp only [call, hadd]
      exact ⟨trivial, h⟩
    · simp only [call, hadd]
      exact ⟨trivial, hI.add _ _ _ b hid hdup h⟩
  | edge read slot =>
    rcases edge_cases read s slot with he | ⟨b, hb, he⟩
    · simp only [call, he]
      exact ⟨trivial, h⟩
    · simp only [call, he]
      exact ⟨settings_heed s b.id _, hI.settle _ _ _ b hb _ h⟩
  | scan read =>
    obtain ⟨front, hfront, hs⟩ := sampleAll_prefix read s s.bindings
    simp only [call, scan, hs, settings_heedAll, bindings_heedAll]
    exact ⟨trivial, heedAll_upholds read s hI hfront.subset h⟩
  | outside a => exact ⟨rfl, hI.outside _ _ _ a h⟩

theorem calls_uphold (s : Scanner n π σ) (hI : Upholds s.emitter.settings act I)
    (h : I s.bindings s.down s.emitter.sink) (cs : List (ScanCall π ε α)) :
    (s.calls act cs).emitter.settings = s.emitter.settings ∧
      I (s.calls act cs).bindings (s.calls act cs).down (s.calls act cs).emitter.sink := by
  induction cs generalizing s with
  | nil => exact ⟨rfl, h⟩
  | cons c cs ih =>
    obtain ⟨hsettings, hc⟩ := call_upholds s hI h c
    obtain ⟨hs, hI'⟩ := ih (s.call act c) (hsettings ▸ hI) hc
    exact ⟨hs.trans hsettings, hI'⟩

end Uphold

structure Keeps (n : Nat) {π : Type} (s : Settings) (I : List (Binding π) → ButtonSet n → List Event → Prop) : Prop where
  add : ∀ bs down es, ∀ b : Binding π, b.id.toNat < n → (∀ c ∈ bs, c.id ≠ b.id) → I bs down es → I (bs ++ [b]) down es
  plan : ∀ bs down es, ∀ b ∈ bs, ∀ r, I bs down es → I bs (down.plan s b.id r).2 (es ++ (down.plan s b.id r).1.toList)

section Keep

variable {log : σ → List Event} {act : σ → α → σ} {I : List (Binding π) → ButtonSet n → List Event → Prop}

/-- What plans keep of a log of the sink is upheld: a plan is taken and its event is logged, or
    nothing changes. -/
theorem Keeps.upholds {s : Settings} (hI : Keeps n s I) (hl : IsLog log) (hact : ∀ s a, log (act s a) = log s) :
    Upholds s act fun bs down sink => I bs down (log sink) where
  add bs down sink := hI.add bs down (log sink)
  settle bs down sink b hb r h := by
    rcases hl.settle ⟨s, sink⟩ down (down.plan s b.id r) with ⟨h1, h2⟩ | ⟨h1, h2⟩
    · simp only [h1, h2]
      exact hI.plan _ _ _ b hb r h
    · simp only [h1, h2]
      exact h
  outside bs down sink a h := by
    rw [hact]
    exact h

theorem calls_keep (hl : IsLog log) (hact : ∀ s a, log (act s a) = log s) (s : Scanner n π σ)
    (hI : Keeps n s.emitter.settings I) (h : I s.bindings s.down (log s.emitter.sink)) (cs : List (ScanCall π ε α)) :
    (s.calls act cs).emitter.settings = s.emitter.settings ∧
      I (s.calls act cs).bindings (s.calls act cs).down (log (s.calls act cs).emitter.sink) :=
  calls_uphold s (hI.upholds hl hact) h cs

end Keep

/-! ## Registered buttons -/

/-- The bindings are on different buttons in range, and every other button is up. -/
structure Registered (bs : List (Binding π)) (down : ButtonSet n) : Prop where
  distinct : (bs.map (·.id)).Nodup
  inRange : ∀ b ∈ bs, b.id.toNat < n
  released : ∀ id, (∀ b ∈ bs, b.id ≠ id) → down.contains id = false

theorem registered_nil : Registered ([] : List (Binding π)) (.empty : ButtonSet n) where
  distinct := List.nodup_nil
  inRange _ h := by cases h
  released id _ := ButtonSet.contains_empty id

theorem upholds_registered (s : Settings) (act : σ → α → σ) :
    Upholds s act fun (bs : List (Binding π)) (down : ButtonSet n) _ => Registered bs down where
  add bs down _ b hid hdup h := by
    refine ⟨?_, ?_, fun id hne => h.released id fun c hc => hne c (List.mem_append_left _ hc)⟩
    · rw [List.map_append, List.nodup_append]
      refine ⟨h.distinct, List.pairwise_singleton _ _, fun i hi j hj => ?_⟩
      obtain ⟨c, hc, rfl⟩ := List.mem_map.mp hi
      obtain rfl := List.mem_singleton.mp hj
      exact hdup c hc
    · intro c hc
      rcases List.mem_append.mp hc with hc | hc
      · exact h.inRange c hc
      · obtain rfl := List.mem_singleton.mp hc
        exact hid
  settle bs down sink b hb r h := by
    have hplan : Registered bs (down.plan s b.id r).2 := by
      refine ⟨h.distinct, h.inRange, fun id hne => ?_⟩
      rw [ButtonSet.plan_of_lt s r (h.inRange b hb), ButtonSet.contains_put, if_neg fun he => hne b hb he.1.symm]
      exact h.released id hne
    rcases Emitter.settle_cases ⟨s, sink⟩ down (down.plan s b.id r) with
      ⟨-, hs⟩ | ⟨e, -, -, hs⟩ | ⟨e, why, -, -, hs⟩
    · rw [hs]
      exact hplan
    · rw [hs]
      exact hplan
    · rw [hs]
      exact h
  outside _ _ _ _ h := h

/-- Every run of a scanner keeps its settings, and its bindings and buttons registered. -/
theorem registered_run (act : σ → α → σ) (m : Emitter σ) (cs : List (ScanCall π ε α)) :
    let s := (fresh m : Scanner n π σ).calls act cs
    s.emitter.settings = m.settings ∧ Registered s.bindings s.down :=
  calls_uphold (fresh m) (upholds_registered m.settings act) registered_nil cs

theorem registered_calls (settings : Settings) (sink : σ) (cs : List (ScanCall π ε (σ → σ))) :
    let s := (fresh ⟨settings, { sink }⟩ : Scanner n π (Journal σ)).calls Journal.disturb cs
    s.emitter.settings = settings ∧ Registered s.bindings s.down :=
  registered_run Journal.disturb ⟨settings, { sink }⟩ cs

end Scanner

end ButtonPanel
