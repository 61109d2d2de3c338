/-
  ButtonPanel.Proofs.Board.Touch — what an application is told of the touch contact.

  `touch_orderly`: in every mode, over any sink that accepts and refuses as it likes, after
  any run of touch and button reports, the accepted touch events begin a list of
  press-move-release cycles; the contact is down at the place that was told last, if that
  was no release; and each accepted move leads further than its limit from the place told
  before it, the first of a contact further than the limit for first moves. The journal that
  shows what was accepted has changed nothing.
-/

import Mathlib.Algebra.Order.Group.Unbundled.Int
import ButtonPanel.Proofs.Board.Run
import ButtonPanel.Proofs.ButtonHistory

namespace ButtonPanel

def Event.touchPhase? : Event → Option Phase
  | touchPressed _ _ => some .press
  | touchMoved _ _ => some .hold
  | touchReleased => some .release
  | _ => none

/-- The contact that an event leaves. -/
def Event.contact? : Event → Option Contact
  | touchPressed x y => some ⟨x, y, false⟩
  | touchMoved x y => some ⟨x, y, true⟩
  | _ => none

def touchPhases (es : List Event) : List Phase := es.filterMap Event.touchPhase?

def lastTouch (es : List Event) : Option Event := (es.filter (·.touchPhase?.isSome)).getLast?

/-- The place that was told last, if it was not released since. -/
def placeTold (es : List Event) : Option (Int32 × Int32) :=
  match lastTouch es with
  | some (.touchPressed x y) | some (.touchMoved x y) => some (x, y)
  | _ => none

/-- A place is further from another than a limit on at least one axis. -/
def Beyond (limit : UInt32) (px py x y : Int32) : Prop :=
  (limit.toNat : Int) < |x.toInt - px.toInt| ∨ (limit.toNat : Int) < |y.toInt - py.toInt|

/-- A move after `before` leads far enough: from the press of its contact, or from the move
    before it. -/
def FarMove (firstLimit laterLimit : UInt32) (before : List Event) (x y : Int32) : Prop :=
  ∃ px py, (lastTouch before = some (.touchPressed px py) ∧ Beyond firstLimit px py x y) ∨
    (lastTouch before = some (.touchMoved px py) ∧ Beyond laterLimit px py x y)

/-! ## Reading the events -/

theorem touchPhases_concat (es : List Event) (e : Event) :
    touchPhases (es ++ [e]) = touchPhases es ++ e.touchPhase?.toList := by
  rw [touchPhases, List.filterMap_append]
  cases h : e.touchPhase? <;> simp [h, touchPhases]

theorem lastTouch_concat {es : List Event} {e : Event} :
    lastTouch (es ++ [e]) = if e.touchPhase?.isSome then some e else lastTouch es := by
  cases h : e.touchPhase? <;> simp [lastTouch, List.filter_append, h]

theorem lastTouch_of_contact {es : List Event} {c : Contact} (h : (lastTouch es).bind Event.contact? = some c) :
    lastTouch es = some (if c.moved then .touchMoved c.x c.y else .touchPressed c.x c.y) := by
  obtain ⟨e, he, hc⟩ := Option.bind_eq_some_iff.mp h
  rw [he]
  cases e <;> cases hc <;> rfl

theorem placeTold_eq (es : List Event) :
    placeTold es = ((lastTouch es).bind Event.contact?).map fun c => (c.x, c.y) := by
  unfold placeTold
  rcases lastTouch es with _ | e
  · rfl
  · cases e <;> rfl

theorem touchPhase?_plan {n : Nat} (down : ButtonSet n) (s : Settings) (id : ButtonId) (r : ButtonReport) :
    ∀ e ∈ (down.plan s id r).1, e.touchPhase? = none := by
  intro e he
  by_cases hn : id.toNat < n
  · rw [ButtonSet.plan_of_lt s r hn] at he
    obtain ⟨p, -, hp⟩ := Option.bind_eq_some_iff.mp he
    unfold Settings.boardEvent? at hp
    split at hp <;> cases hp <;> rfl
  · rw [ButtonSet.plan_of_le s r (Nat.not_lt.mp hn)] at he
    cases he

/-! ## The contact as a function of the events -/

/-- Distances are compared as the integers that they are. -/
theorem isMove_iff_beyond {t : Touch} {c : Contact} {x y : Int32} :
    t.isMove c x y = true ↔ Beyond (t.limit c) c.x c.y x y := by
  simp only [Touch.isMove, Bool.or_eq_true, decide_eq_true_eq, UInt32.lt_iff_toNat_lt, toNat_axisDistance, Beyond,
    Int.abs_eq_natAbs]
  omega

/-- The contact agrees with the events `es` that the application was told. -/
structure TouchHistory (firstLimit laterLimit : UInt32) (t : Touch) (es : List Event) : Prop where
  limits : t.firstLimit = firstLimit ∧ t.laterLimit = laterLimit
  orderly : Phase.Orderly (touchPhases es)
  isOpen : Phase.isOpen (touchPhases es) = t.isDown
  contact : (lastTouch es).bind Event.contact? = t.contact
  far : ∀ before x y, before ++ [.touchMoved x y] <+: es → FarMove firstLimit laterLimit before x y

variable {firstLimit laterLimit : UInt32} {t : Touch} {es : List Event}

theorem touchHistory_empty : TouchHistory firstLimit laterLimit { firstLimit, laterLimit } [] where
  limits := ⟨rfl, rfl⟩
  orderly := Phase.orderly_nil
  isOpen := rfl
  contact := rfl
  far before x y h := by simp at h

theorem TouchHistory.concat_other (h : TouchHistory firstLimit laterLimit t es) {e : Event} (he : e.touchPhase? = none) :
    TouchHistory firstLimit laterLimit t (es ++ [e]) := by
  refine ⟨h.limits, ?_, ?_, ?_, fun before x y hp => ?_⟩
  · rw [touchPhases_concat, he]; simpa using h.orderly
  · rw [touchPhases_concat, he]; simpa using h.isOpen
  · rw [lastTouch_concat, he]; exact h.contact
  · rcases List.prefix_concat_iff.mp hp with heq | hp
    · obtain ⟨-, hm⟩ := List.append_inj' heq rfl
      obtain rfl := List.singleton_inj.mp hm
      cases he
    · exact h.far before x y hp

/-- A move that the contact takes leads far enough from what was told. -/
theorem TouchHistory.farMove (h : TouchHistory firstLimit laterLimit t es) {c : Contact} (hc : t.contact = some c)
    {x y : Int32} (hm : t.isMove c x y = true) : FarMove firstLimit laterLimit es x y := by
  have hb := isMove_iff_beyond.mp hm
  have hl := lastTouch_of_contact (h.contact.trans hc)
  obtain ⟨rfl, rfl⟩ := h.limits
  refine ⟨c.x, c.y, ?_⟩
  cases hmoved : c.moved with
  | false => left; simpa [Touch.limit, hmoved] using And.intro hl hb
  | true => right; simpa [Touch.limit, hmoved] using And.intro hl hb

theorem TouchHistory.concat (h : TouchHistory firstLimit laterLimit t es) {e : Event} {p : Phase}
    (hp : e.touchPhase? = some p) (hfits : p = .press ↔ t.contact = none)
    (hfar : ∀ x y, e = .touchMoved x y → FarMove firstLimit laterLimit es x y) :
    TouchHistory firstLimit laterLimit { t with contact := e.contact? } (es ++ [e]) := by
  refine ⟨h.limits, ?_, ?_, ?_, fun before x y hpre => ?_⟩
  · rw [touchPhases_concat, hp]
    refine Phase.orderly_concat.mpr ⟨h.orderly, ?_⟩
    rw [h.isOpen, hfits]
    simp [Touch.isDown]
  · rw [touchPhases_concat, hp]
    refine (Phase.isOpen_concat _ p).trans ?_
    cases e <;> cases hp <;> rfl
  · rw [lastTouch_concat, hp]
    rfl
  · rcases List.prefix_concat_iff.mp hpre with heq | hpre
    · obtain ⟨rfl, hm⟩ := List.append_inj' heq rfl
      exact hfar x y (List.singleton_inj.mp hm).symm
    · exact h.far before x y hpre

theorem TouchHistory.plan (h : TouchHistory firstLimit laterLimit t es) (r : TouchReport) :
    TouchHistory firstLimit laterLimit (t.plan r).2 (es ++ (t.plan r).1.toList) := by
  rcases t.plan_cases r with hp | ⟨x, y, -, hc, hp⟩ | ⟨c, x, y, -, hc, hm, hp⟩ | ⟨c, -, hc, hp⟩
  · rw [hp]; simpa using h
  · rw [hp]
    exact h.concat (e := .touchPressed x y) rfl (by simp [hc]) fun x' y' he => by cases he
  · rw [hp]
    refine h.concat (e := .touchMoved x y) rfl (by simp [hc]) fun x' y' he => ?_
    cases he
    exact h.farMove hc hm
  · rw [hp]
    exact h.concat (e := .touchReleased) rfl (by simp [hc]) fun x' y' he => by cases he

theorem touchHistory_plan {n : Nat} (s : Settings) (k : Belief n) (es : List Event) (r : Report)
    (h : TouchHistory firstLimit laterLimit k.touch es) :
    TouchHistory firstLimit laterLimit (k.plan s r).2.touch (es ++ (k.plan s r).1.toList) := by
  cases r with
  | button id r =>
    show TouchHistory firstLimit laterLimit k.touch (es ++ (k.down.plan s id r).1.toList)
    cases he : (k.down.plan s id r).1 with
    | none => simpa using h
    | some e => exact h.concat_other (touchPhase?_plan k.down s id r e he)
  | touch r => exact h.plan r

namespace Board

variable {n : Nat} {σ : Type} [Sink σ]

/-- What a run has told, and the contact that it leaves. -/
theorem touchHistory_turns (s : Settings) (firstLimit laterLimit : UInt32) (sink : σ) (ts : List (Turn (σ → σ))) :
    let b := (fresh firstLimit laterLimit ⟨s, { sink }⟩ : Board n (Journal σ)).turns Journal.disturb ts
    TouchHistory firstLimit laterLimit b.touch b.emitter.sink.accepted :=
  turns_keep (I := fun k es => TouchHistory firstLimit laterLimit k.touch es) Journal.isLog Journal.accepted_disturb
    (fresh firstLimit laterLimit ⟨s, { sink }⟩) (fun k es r hk => touchHistory_plan s k es r hk) touchHistory_empty ts

theorem touch_orderly (s : Settings) (firstLimit laterLimit : UInt32) (sink : σ) (ts : List (Turn (σ → σ))) :
    let b := (fresh firstLimit laterLimit ⟨s, { sink }⟩ : Board n (Journal σ)).turns Journal.disturb ts
    let told := b.emitter.sink.accepted
    (∃ w ∈ Phase.cycles, touchPhases told <+: w) ∧
      b.touch.position? = placeTold told ∧ b.touch.isDown = (placeTold told).isSome ∧
      (∀ before x y, before ++ [.touchMoved x y] <+: told → FarMove firstLimit laterLimit before x y) ∧
      b.unjournaled = (fresh firstLimit laterLimit ⟨s, sink⟩ : Board n σ).turns (fun sink f => f sink) ts := by
  intro b told
  have h : TouchHistory firstLimit laterLimit b.touch told := touchHistory_turns s firstLimit laterLimit sink ts
  have hplace : placeTold told = b.touch.position? := by rw [placeTold_eq, h.contact]; rfl
  refine ⟨h.orderly.prefix_cycles, hplace.symm, ?_, h.far, unjournaled_turns _ ts⟩
  rw [hplace]
  simp [Touch.isDown, Touch.position?]

end Board

end ButtonPanel
