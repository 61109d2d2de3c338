/-
  ButtonPanel.Proofs.Board.Tracking — how closely the contact of a board is followed. A sample is a
  report that gives a place. A contact that is down tells of a sample exactly if it is further than
  the limit in force from the place told last, by exact distances (`isMove_iff_beyond`), and says
  nothing of it otherwise (`plan_sample`).

  `contact_tracked`: after every run of a board, over any sink,
  - a sample of a contact that is down offers a move exactly if it is that far;
  - a contact that is down is within its limit of the last sample that was not refused, whatever was
    reported and refused after it, and that sample offers nothing when it comes again;
  - with no room in the limits it is at that sample.

  `Follows` is the invariant: a contact that is down is near the last sample. After the plan of a
  touch report it holds whatever was before (`follows_plan`), other reports do not matter to it, so
  every run keeps it for the reports that it does not lose (`follows_turns`).
-/

import ButtonPanel.Proofs.Board.Loss
import ButtonPanel.Proofs.Board.Touch
import ButtonPanel.Sink.Recorder

namespace ButtonPanel

def TouchReport.place? : TouchReport → Option (Int32 × Int32)
  | pressed x y | moved x y => some (x, y)
  | released => none

def Report.place? : Report → Option (Int32 × Int32)
  | touch r => r.place?
  | button _ _ => none

/-- The place that was reported last. -/
def lastPlace (rs : List Report) : Option (Int32 × Int32) := (rs.filterMap Report.place?).getLast?

theorem lastPlace_concat (rs : List Report) (r : Report) : lastPlace (rs ++ [r]) = r.place?.or (lastPlace rs) := by
  cases h : r.place? <;> simp [lastPlace, h]

/-- The limit in force after what was told: that for first moves until a move of the contact was told. -/
def limitTold (firstLimit laterLimit : UInt32) (told : List Event) : UInt32 :=
  match lastTouch told with
  | some (.touchMoved _ _) => laterLimit
  | _ => firstLimit

instance (limit : UInt32) (px py x y : Int32) : Decidable (Beyond limit px py x y) :=
  inferInstanceAs (Decidable (_ ∨ _))

/-- No place but its own is within a limit of nothing. -/
theorem eq_of_not_beyond_zero {px py x y : Int32} (h : ¬ Beyond 0 px py x y) : px = x ∧ py = y := by
  simp only [Beyond, Int.abs_eq_natAbs, UInt32.toNat_zero, not_or] at h
  exact ⟨Int32.toInt_inj.mp (by omega), Int32.toInt_inj.mp (by omega)⟩

/-! ## One sample -/

namespace Touch

variable {t : Touch} {c : Contact} {r : TouchReport} {x y : Int32}

theorem isMove_self (hx : c.x = x) (hy : c.y = y) : t.isMove c x y = false := by
  subst hx hy
  simp [isMove, axisDistance]

/-- A sample of a contact that is down is told if it is a move, and else changes nothing. -/
theorem plan_sample (hc : t.contact = some c) (hr : r.place? = some (x, y)) :
    t.plan r =
      if t.isMove c x y then (some (.touchMoved x y), { t with contact := some ⟨x, y, true⟩ }) else (none, t) := by
  cases r with
  | pressed x' y' =>
    cases hr
    simp only [plan, hc]
  | moved x' y' =>
    cases hr
    simp only [plan, hc]
  | released => cases hr

/-- A contact that a sample leaves down is within its limit of the sample. -/
theorem isMove_after_sample (hr : r.place? = some (x, y)) (hc : (t.plan r).2.contact = some c) :
    (t.plan r).2.isMove c x y = false := by
  cases hd : t.contact with
  | some d =>
    rw [plan_sample hd hr] at hc ⊢
    by_cases hm : t.isMove d x y = true
    · rw [if_pos hm] at hc ⊢
      cases hc
      exact isMove_self rfl rfl
    · rw [if_neg hm] at hc ⊢
      cases hd.symm.trans hc
      exact Bool.eq_false_iff.mpr hm
  | none =>
    cases r with
    | pressed x' y' =>
      cases hr
      simp only [plan, hd] at hc ⊢
      cases hc
      exact isMove_self rfl rfl
    | moved x' y' => simp [plan, hd] at hc
    | released => cases hr

/-- A contact that is down is within its limit of the last sample. -/
def Follows (t : Touch) (rs : List Report) : Prop :=
  ∀ c, t.contact = some c → ∃ x y, lastPlace rs = some (x, y) ∧ t.isMove c x y = false

theorem follows_plan (t : Touch) (rs : List Report) (r : TouchReport) : (t.plan r).2.Follows (rs ++ [.touch r]) := by
  intro c hc
  rw [lastPlace_concat]
  cases hr : r.place? with
  | some place => exact ⟨place.1, place.2, by simp [Report.place?, hr], isMove_after_sample hr hc⟩
  | none =>
    -- only a release gives no place, and it leaves no contact
    cases r with
    | released => cases hd : t.contact <;> simp [Touch.plan, hd] at hc
    | pressed x y => cases hr
    | moved x y => cases hr

end Touch

/-! ## Runs -/

namespace Board

variable {n : Nat} {σ : Type} [Sink σ]

theorem follows_step {k : Belief n} {rs : List Report} (h : k.touch.Follows rs) (s : Settings) (r : Report) :
    (k.plan s r).2.touch.Follows (rs ++ [r]) := by
  cases r with
  | touch r => exact k.touch.follows_plan rs r
  | button id r =>
    intro c hc
    rw [lastPlace_concat]
    exact h c hc

theorem follows_turns {past : List Report} (b : Board n (Journal σ)) (h : b.touch.Follows past)
    (ts : List (Turn (σ → σ))) : (b.turns Journal.disturb ts).touch.Follows (past ++ b.kept ts) := by
  induction ts generalizing past b with
  | nil =>
    rw [kept, List.append_nil]
    exact h
  | cons t ts ih =>
    cases t with
    | outside f => exact ih (b.turn Journal.disturb (.outside f)) h
    | report r =>
      show ((b.step r).turns Journal.disturb ts).touch.Follows
        (past ++ if b.loses r then (b.step r).kept ts else r :: (b.step r).kept ts)
      rcases step_outcome b r with ⟨hlost, hb, -⟩ | ⟨hkept, hb, -⟩
      · rw [if_pos hlost]
        refine ih (b.step r) ?_
        show (b.step r).belief.touch.Follows past
        rw [hb]
        exact h
      · rw [hkept, if_neg Bool.false_ne_true, List.append_cons]
        refine ih (b.step r) ?_
        show (b.step r).belief.touch.Follows (past ++ [r])
        rw [hb]
        exact follows_step h b.emitter.settings r

section Fresh

variable (s : Settings) (firstLimit laterLimit : UInt32) (sink : σ) (ts : List (Turn (σ → σ)))

/-- A contact that is down after a run: where it is, and the limit in force for it. -/
theorem contact_turns {px py : Int32} :
    let b := (fresh firstLimit laterLimit ⟨s, { sink }⟩ : Board n (Journal σ)).turns Journal.disturb ts
    b.touch.position? = some (px, py) → ∃ c, b.touch.contact = some c ∧ c.x = px ∧ c.y = py ∧
      b.touch.limit c = limitTold firstLimit laterLimit b.emitter.sink.accepted := by
  intro b hpos
  have h : TouchHistory firstLimit laterLimit b.touch b.emitter.sink.accepted :=
    touchHistory_turns s firstLimit laterLimit sink ts
  obtain ⟨c, hc, hplace⟩ := Option.map_eq_some_iff.mp hpos
  obtain ⟨hx, hy⟩ := Prod.mk.inj hplace
  refine ⟨c, hc, hx, hy, ?_⟩
  rw [Touch.limit, h.limits.1, h.limits.2, limitTold, lastTouch_of_contact (h.contact.trans hc)]
  cases c.moved <;> rfl

theorem offered_sample {px py x y : Int32} {r : TouchReport} :
    let b := (fresh firstLimit laterLimit ⟨s, { sink }⟩ : Board n (Journal σ)).turns Journal.disturb ts
    b.touch.position? = some (px, py) → r.place? = some (x, y) →
      (b.step (.touch r)).emitter.sink.offered = b.emitter.sink.offered ++
        if Beyond (limitTold firstLimit laterLimit b.emitter.sink.accepted) px py x y then [.touchMoved x y] else [] := by
  intro b hpos hr
  obtain ⟨c, hc, rfl, rfl, hlimit⟩ := contact_turns s firstLimit laterLimit sink ts hpos
  have hplan : (b.belief.plan b.emitter.settings (.touch r)).1 = (b.touch.plan r).1 := rfl
  rw [offered_step, hplan, Touch.plan_sample hc hr, ← hlimit]
  by_cases hm : b.touch.isMove c x y = true
  · rw [if_pos hm, if_pos (isMove_iff_beyond.mp hm)]
    rfl
  · rw [if_neg hm, if_neg (mt isMove_iff_beyond.mpr hm)]
    rfl

theorem near_lastPlace {px py : Int32} :
    let start : Board n (Journal σ) := fresh firstLimit laterLimit ⟨s, { sink }⟩
    let b := start.turns Journal.disturb ts
    b.touch.position? = some (px, py) → ∃ x y, lastPlace (start.kept ts) = some (x, y) ∧
      ¬ Beyond (limitTold firstLimit laterLimit b.emitter.sink.accepted) px py x y ∧
      (firstLimit = 0 → laterLimit = 0 → (px, py) = (x, y)) := by
  intro start b hpos
  obtain ⟨c, hc, rfl, rfl, hlimit⟩ := contact_turns s firstLimit laterLimit sink ts hpos
  have hstart : start.touch.Follows [] := fun c hc => by cases hc
  obtain ⟨x, y, hlast, hm⟩ := follows_turns start hstart ts c hc
  have hnear : ¬ Beyond (limitTold firstLimit laterLimit b.emitter.sink.accepted) c.x c.y x y := by
    rw [← hlimit, ← isMove_iff_beyond, hm]
    exact Bool.false_ne_true
  refine ⟨x, y, hlast, hnear, fun hfirst hlater => ?_⟩
  subst hfirst hlater
  have hzero : limitTold 0 0 b.emitter.sink.accepted = 0 := by
    unfold limitTold
    split <;> rfl
  rw [hzero] at hnear
  obtain ⟨hx, hy⟩ := eq_of_not_beyond_zero hnear
  rw [hx, hy]

theorem contact_tracked :
    let start : Board n (Journal σ) := fresh firstLimit laterLimit ⟨s, { sink }⟩
    let b := start.turns Journal.disturb ts
    let limit := limitTold firstLimit laterLimit b.emitter.sink.accepted
    (∀ px py, b.touch.position? = some (px, py) → ∀ (r : TouchReport) x y, r.place? = some (x, y) →
      (b.step (.touch r)).emitter.sink.offered =
        b.emitter.sink.offered ++ if Beyond limit px py x y then [.touchMoved x y] else []) ∧
    (∀ px py, b.touch.position? = some (px, py) → ∃ x y, lastPlace (start.kept ts) = some (x, y) ∧
      ¬ Beyond limit px py x y ∧ (firstLimit = 0 → laterLimit = 0 → (px, py) = (x, y))) ∧
    (∀ (r : TouchReport) x y, r.place? = some (x, y) → b.loses (.touch r) = false →
      let after := b.step (.touch r)
      ∀ px py, after.touch.position? = some (px, py) →
        ¬ Beyond (limitTold firstLimit laterLimit after.emitter.sink.accepted) px py x y ∧
        (firstLimit = 0 → laterLimit = 0 → (px, py) = (x, y)) ∧
        ∀ again : TouchReport, again.place? = some (x, y) →
          (after.step (.touch again)).emitter.sink.offered = after.emitter.sink.offered) ∧
    ∀ a b : Int32, (axisDistance a b).toNat = (a.toInt - b.toInt).natAbs := by
  intro start b limit
  refine ⟨fun px py hpos r x y hr => offered_sample s firstLimit laterLimit sink ts hpos hr,
    fun px py hpos => near_lastPlace s firstLimit laterLimit sink ts hpos, ?_, toNat_axisDistance⟩
  intro r x y hr hkept after px py hpos
  -- the sample is the last turn of a longer run, in which it is the last place that is kept
  have hafter : after = start.turns Journal.disturb (ts ++ [.report (.touch r)]) :=
    (start.turns_concat Journal.disturb ts (.report (.touch r))).symm
  have hlast : lastPlace (start.kept (ts ++ [.report (.touch r)])) = some (x, y) := by
    rw [start.kept_concat ts hkept, lastPlace_concat, Report.place?, hr]
    rfl
  rw [hafter] at hpos ⊢
  obtain ⟨x', y', hplace, hnear, hzero⟩ := near_lastPlace s firstLimit laterLimit sink (ts ++ [.report (.touch r)]) hpos
  cases hplace.symm.trans hlast
  refine ⟨hnear, hzero, fun again hagain => ?_⟩
  have hagain := offered_sample s firstLimit laterLimit sink (ts ++ [.report (.touch r)]) hpos hagain
  rwa [if_neg hnear, List.append_nil] at hagain

end Fresh

/-- The contact has moved once, so the limit for later moves is in force. The last sample is within
    it and comes after one that was refused. A sample at the other end of the range is a move. -/
theorem contact_tracked_across_a_refusal :
    let sample x y : Report := .touch (.moved x y)
    let ts : List (Turn (Recorder → Recorder)) :=
      [.report (.touch (.pressed 0 0)), .report (sample 9 0), .outside (Recorder.setRejecting · true),
        .report (sample 40 0), .outside (Recorder.setRejecting · false), .report (sample 11 (-2))]
    let start : Board 2 (Journal Recorder) := fresh 8 2 ⟨{}, { sink := { capacity := 8 } }⟩
    let b := start.turns Journal.disturb ts
    let far := sample (-2147483648) 2147483647
    start.kept ts = [.touch (.pressed 0 0), sample 9 0, sample 11 (-2)] ∧
      b.emitter.sink.refused = [.touchMoved 40 0] ∧ b.touch.position? = some (9, 0) ∧
      limitTold 8 2 b.emitter.sink.accepted = 2 ∧ ¬ Beyond 2 9 0 11 (-2) ∧
      (b.step (sample 11 (-2))).emitter.sink.offered = b.emitter.sink.offered ∧
      Beyond 2 9 0 (-2147483648) 2147483647 ∧
      (b.step far).emitter.sink.offered = b.emitter.sink.offered ++ [.touchMoved (-2147483648) 2147483647] ∧
      b.loses far = false := by
  intro sample ts start b far
  obtain ⟨hoffers, hnear, -, -⟩ := contact_tracked (n := 2) {} 8 2 ({ capacity := 8 } : Recorder) ts
  have hkept : start.kept ts = [.touch (.pressed 0 0), sample 9 0, sample 11 (-2)] := by decide
  have hpos : b.touch.position? = some (9, 0) := by decide
  have hlimit : limitTold 8 2 b.emitter.sink.accepted = 2 := by decide
  obtain ⟨x, y, hlast, hin, -⟩ := hnear 9 0 hpos
  have hlast' : lastPlace (start.kept ts) = some (11, -2) := by rw [hkept]; rfl
  cases hlast.symm.trans hlast'
  rw [hlimit] at hin
  have hbeyond : Beyond 2 9 0 (-2147483648) 2147483647 := by decide
  have hagain := hoffers 9 0 hpos (.moved 11 (-2)) 11 (-2) rfl
  rw [hlimit, if_neg hin, List.append_nil] at hagain
  have hfar := hoffers 9 0 hpos (.moved (-2147483648) 2147483647) _ _ rfl
  rw [hlimit, if_pos hbeyond] at hfar
  have hlost : b.emitter.sink.refused = [.touchMoved 40 0] := by decide
  have htaken : b.loses far = false := by decide
  -- two spellings of the board are compared here, which must not run it
  with_reducible exact ⟨hkept, hlost, hpos, hlimit, hin, hagain, hbeyond, hfar, htaken⟩

end Board

end ButtonPanel
