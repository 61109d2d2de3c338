/-
  ButtonPanel.Proofs.Text.Lines — what a script says, line by line.

  The lines of a text are those that a reader counts (`rows`): a line feed ends a line, also one
  behind a carriage return, and the last line may end with the text. A script is read by cutting at
  every line feed, which leaves the carriage returns in and counts one line more where nothing
  stands behind the last line feed. Both say the same (`ofLines_rows`), since what a line says does
  not depend on the blanks that it ends in (`ofLines_congr`).

  `script_composes`: for all texts,
  - a script that goes on behind a line feed has the gestures of both parts, or else the bad line of
    the first part that has one, which is counted on from the lines before it;
  - a script is bad exactly if one of its lines is stray, and then the first of these is named;
  - otherwise its gestures are those of its lines that speak, in their order;
  - it does not matter which line feeds have a carriage return before them.
-/

import ButtonPanel.Proofs.Text.Script

namespace ButtonPanel.Script

/-! ## Several lines -/

/-- What the lines that say something say, without the blanks around it. -/
def spoken (ls : List (List Char)) : List String :=
  ((ls.map Blank.trim).filter (!isSilent ·)).map String.ofList

section Lines

variable {number : Nat} {l : List Char} {ls : List (List Char)}

theorem spoken_of_silent (h : isSilent (Blank.trim l) = true) (ls : List (List Char)) : spoken (l :: ls) = spoken ls := by
  simp [spoken, h]

theorem spoken_of_speaks (h : isSilent (Blank.trim l) = false) (ls : List (List Char)) :
    spoken (l :: ls) = String.ofList (Blank.trim l) :: spoken ls := by
  simp [spoken, h]

theorem ofLines_append (number : Nat) (ls ms : List (List Char)) :
    ofLines number (ls ++ ms) =
      (ofLines number ls).bind fun gs => (ofLines (number + ls.length) ms).map (gs ++ ·) := by
  induction ls generalizing number with
  | nil =>
    show ofLines number ms = (ofLines number ms).map ([] ++ ·)
    cases ofLines number ms <;> rfl
  | cons l ls ih =>
    have hcount : number + 1 + ls.length = number + (l :: ls).length := by
      rw [List.length_cons]
      omega
    rw [List.cons_append, ← hcount]
    rcases line_cases l with hs | ⟨hs, g, hg⟩ | hstray
    · rw [ofLines_of_silent _ _ hs, ofLines_of_silent _ _ hs, ih]
    · rw [ofLines_of_speaks _ _ hs hg, ofLines_of_speaks _ _ hs hg, ih]
      cases ofLines (number + 1) ls with
      | error e => rfl
      | ok gs =>
        show ((ofLines (number + 1 + ls.length) ms).map (gs ++ ·)).map (g :: ·) = _
        cases ofLines (number + 1 + ls.length) ms <;> rfl
    · rw [ofLines_of_stray _ _ hstray, ofLines_of_stray _ _ hstray]
      rfl

/-- Only the number of the bad line depends on where the count begins. -/
theorem ofLines_add (number k : Nat) (ls : List (List Char)) :
    ofLines (number + k) ls = (ofLines number ls).mapError fun e => ⟨e.number + k, e.cause⟩ := by
  induction ls generalizing number with
  | nil => rfl
  | cons l ls ih =>
    have hcount : number + k + 1 = number + 1 + k := by omega
    rcases line_cases l with hs | ⟨hs, g, hg⟩ | hstray
    · rw [ofLines_of_silent _ _ hs, ofLines_of_silent _ _ hs, hcount, ih]
    · rw [ofLines_of_speaks _ _ hs hg, ofLines_of_speaks _ _ hs hg, hcount, ih]
      cases ofLines (number + 1) ls <;> rfl
    · rw [ofLines_of_stray _ _ hstray, ofLines_of_stray _ _ hstray]
      rfl

/-- Reading succeeds exactly if no line is stray. -/
theorem ofLines_succeeds_iff (number : Nat) (ls : List (List Char)) :
    (∃ gs, ofLines number ls = .ok gs) ↔ ∀ l ∈ ls, ¬ Stray l := by
  induction ls generalizing number with
  | nil => exact iff_of_true ⟨[], rfl⟩ fun l hl => absurd hl List.not_mem_nil
  | cons l ls ih =>
    rw [List.forall_mem_cons, ← ih (number + 1)]
    rcases line_cases l with hs | ⟨hs, g, hg⟩ | hstray
    · rw [ofLines_of_silent _ _ hs, and_iff_right (not_stray_of_silent hs)]
    · have hspeaks : ¬ Stray l := fun hstray => hstray.2.2 g hg
      rw [ofLines_of_speaks _ _ hs hg, and_iff_right hspeaks]
      cases ofLines (number + 1) ls with
      | error e => exact iff_of_false (by intro ⟨_, h⟩; cases h) (by intro ⟨_, h⟩; cases h)
      | ok gs => exact iff_of_true ⟨g :: gs, rfl⟩ ⟨gs, rfl⟩
    · rw [ofLines_of_stray _ _ hstray]
      exact iff_of_false (by intro ⟨_, h⟩; cases h) fun h => h.1 hstray

theorem ofLines_fails_iff : (∃ e, ofLines number ls = .error e) ↔ ∃ l ∈ ls, Stray l := by
  have hok := ofLines_succeeds_iff number ls
  have hsome : (∃ l ∈ ls, Stray l) ↔ ¬ ∀ l ∈ ls, ¬ Stray l := by simp
  rw [hsome, ← hok]
  cases ofLines number ls <;> simp

/-- The first stray line is blamed, whatever comes behind it. -/
theorem ofLines_of_first {before : List (List Char)} (hbefore : ∀ l ∈ before, ¬ Stray l) {line : List Char}
    (h : Stray line) (number : Nat) (after : List (List Char)) :
    ofLines number (before ++ line :: after) = .error (blame (number + before.length) line) := by
  obtain ⟨gs, hgs⟩ := (ofLines_succeeds_iff number before).mpr hbefore
  rw [ofLines_append, hgs, ofLines_of_stray _ _ h]
  rfl

theorem ofLines_eq_error_iff {e : BadLine} :
    ofLines number ls = .error e ↔ ∃ before line after, ls = before ++ line :: after ∧
      (∀ l ∈ before, ¬ Stray l) ∧ Stray line ∧ e = blame (number + before.length) line := by
  constructor
  · intro h
    classical
    cases hfirst : ls.find? (Stray ·) with
    | none =>
      have hnone : ∀ l ∈ ls, ¬ Stray l := by simpa using hfirst
      obtain ⟨gs, hgs⟩ := (ofLines_succeeds_iff number ls).mpr hnone
      rw [hgs] at h
      cases h
    | some line =>
      obtain ⟨hline, before, after, hsplit, hbefore⟩ := List.find?_eq_some_iff_append.mp hfirst
      have hstray : Stray line := by simpa using hline
      have hclean : ∀ l ∈ before, ¬ Stray l := by simpa using hbefore
      rw [hsplit, ofLines_of_first hclean hstray] at h
      cases h
      exact ⟨before, line, after, hsplit, hclean, hstray, rfl⟩
  · intro ⟨before, line, after, hsplit, hbefore, hline, he⟩
    rw [hsplit, he, ofLines_of_first hbefore hline]

/-- The gestures are those that the lines speak of. -/
theorem ofLines_eq_ok_iff {gs : List Gesture} :
    ofLines number ls = .ok gs ↔ List.Forall₂ (fun t g => Gesture.parse t = .ok g) (spoken ls) gs := by
  induction ls generalizing number gs with
  | nil =>
    show Except.ok [] = Except.ok gs ↔ List.Forall₂ _ [] gs
    rw [List.forall₂_nil_left_iff, Except.ok.injEq, eq_comm]
  | cons l ls ih =>
    rcases line_cases l with hs | ⟨hs, g, hg⟩ | hstray
    · rw [ofLines_of_silent _ _ hs, spoken_of_silent hs, ih]
    · rw [ofLines_of_speaks _ _ hs hg, spoken_of_speaks hs, List.forall₂_cons_left_iff]
      constructor
      · intro h
        cases hrest : ofLines (number + 1) ls with
        | error e =>
          rw [hrest] at h
          cases h
        | ok rest =>
          rw [hrest] at h
          cases h
          exact ⟨g, rest, hg, ih.mp hrest, rfl⟩
      · intro ⟨g', rest, hg', hrest, hgs⟩
        rw [hg] at hg'
        cases hg'
        rw [ih.mpr hrest, hgs]
        rfl
    · rw [ofLines_of_stray _ _ hstray, spoken_of_speaks hstray.isSilent_eq_false, List.forall₂_cons_left_iff]
      constructor
      · intro h
        cases h
      · intro ⟨g, _, hg, _, _⟩
        exact absurd hg (hstray.2.2 g)

end Lines

/-! ## The lines of a text -/

theorem length_lines (s : List Char) : (lines s).length = s.count '\n' + 1 := by
  induction s with
  | nil => rfl
  | cons c s ih =>
    by_cases hc : c = '\n'
    · rw [hc, lines_newline, List.length_cons, List.count_cons_self, ih]
    · rw [lines_of_ne hc, List.count_cons_of_ne hc, ← ih]
      rfl

/-- A script that goes on behind a line feed. -/
theorem parse_append (a b : String) :
    parse (a ++ "\n" ++ b) = (parse a).bind fun gs =>
      ((parse b).mapError fun e => ⟨e.number + (1 + a.toList.count '\n'), e.cause⟩).map (gs ++ ·) := by
  have htext : (a ++ "\n" ++ b).toList = a.toList ++ '\n' :: b.toList := by simp [String.toList_append]
  have hcount : 1 + (lines a.toList).length = 1 + (1 + a.toList.count '\n') := by
    rw [length_lines]
    omega
  rw [parse, htext, lines_append, ofLines_append, hcount, ofLines_add]
  rfl

/-- The lines of a text as a reader counts them. -/
def rows : List Char → List (List Char)
  | [] => []
  | '\n' :: s => [] :: rows s
  | '\r' :: '\n' :: s => [] :: rows s
  | c :: s =>
    match rows s with
    | [] => [[c]]
    | row :: later => (c :: row) :: later

example : rows "a\r\n\nb\rc\r\n".toList = ["a".toList, [], "b\rc".toList] := by decide

/-- Texts that differ at most in the carriage returns before their line feeds. -/
inductive SameLines : List Char → List Char → Prop
  | line (line : List Char) (e f : LineEnd) {s t : List Char} (later : SameLines s t) :
    SameLines (line ++ e.chars ++ s) (line ++ f.chars ++ t)
  | last (line : List Char) : SameLines line line

section Ends

variable {ls ms : List (List Char)}

theorem ofLines_trimRight (number : Nat) (ls : List (List Char)) :
    ofLines number (ls.map Blank.trimRight) = ofLines number ls := by
  induction ls generalizing number with
  | nil => rfl
  | cons l ls ih => simp only [List.map_cons, ofLines, Blank.trim_trimRight, ih]

/-- Blanks at the ends of lines say nothing. -/
theorem ofLines_congr (h : ls.map Blank.trimRight = ms.map Blank.trimRight) (number : Nat) :
    ofLines number ls = ofLines number ms := by
  rw [← ofLines_trimRight, h, ofLines_trimRight]

theorem trimRight_cons_congr {l m : List Char} (h : Blank.trimRight l = Blank.trimRight m) (c : Char) :
    Blank.trimRight (c :: l) = Blank.trimRight (c :: m) := by
  simp only [Blank.trimRight, h]

/-- Apart from blanks at their ends, the lines between line feeds are the lines that a reader counts,
    and perhaps an empty one behind them. -/
theorem lines_rows (s : List Char) :
    (lines s).map Blank.trimRight = (rows s).map Blank.trimRight ∨
      (lines s).map Blank.trimRight = (rows s).map Blank.trimRight ++ [[]] := by
  fun_induction rows s with
  | case1 => exact Or.inr rfl
  | case2 s ih =>
    rw [lines_newline, List.map_cons, List.map_cons, List.cons_append]
    exact ih.imp (congrArg (_ :: ·)) (congrArg (_ :: ·))
  | case3 s ih =>
    have hlines : lines ('\r' :: '\n' :: s) = ['\r'] :: lines s := rfl
    have hreturn : Blank.trimRight ['\r'] = Blank.trimRight [] := by decide
    rw [hlines, List.map_cons, List.map_cons, List.cons_append, hreturn]
    exact ih.imp (congrArg (_ :: ·)) (congrArg (_ :: ·))
  | case4 c s hc hlf hrows ih =>
    left
    rw [hrows] at ih
    have hlast : Blank.trimRight (splitLines s).1 = [] ∧ (splitLines s).2 = [] := by
      rcases ih with ih | ih
      · cases ih
      · simpa [lines] using ih
    have hone : Blank.trimRight (c :: (splitLines s).1) = Blank.trimRight [c] := trimRight_cons_congr hlast.1 c
    rw [lines_of_ne hc, List.map_cons, hone, hlast.2]
    rfl
  | case5 c s hc hlf row later hrows ih =>
    rw [hrows] at ih
    rw [lines_of_ne hc]
    simp only [lines, List.map_cons, List.cons_append, List.cons.injEq] at ih ⊢
    exact ih.imp (fun h => ⟨trimRight_cons_congr h.1 c, h.2⟩) fun h => ⟨trimRight_cons_congr h.1 c, h.2⟩

theorem ofLines_rows (number : Nat) (s : List Char) : ofLines number (rows s) = ofLines number (lines s) := by
  have hsame := lines_rows s
  rcases hsame with h | h
  · exact ofLines_congr h.symm number
  · have hempty : (lines s).map Blank.trimRight = (rows s ++ [[]]).map Blank.trimRight := by
      rw [h, List.map_append]
      rfl
    rw [ofLines_congr hempty, ofLines_append]
    cases ofLines number (rows s) with
    | error e => rfl
    | ok gs =>
      show Except.ok gs = Except.ok (gs ++ [])
      rw [List.append_nil]

theorem trimRight_lines_rest (line : List Char) (e : LineEnd) :
    (lines (line ++ e.rest)).map Blank.trimRight = (lines line).map Blank.trimRight := by
  induction line with
  | nil => cases e <;> rfl
  | cons c line ih =>
    rw [List.cons_append]
    by_cases hc : c = '\n'
    · rw [hc, lines_newline, lines_newline, List.map_cons, List.map_cons, ih]
    · rw [lines_of_ne hc, lines_of_ne hc]
      simp only [lines, List.map_cons, List.cons.injEq] at ih ⊢
      exact ⟨trimRight_cons_congr ih.1 c, ih.2⟩

theorem SameLines.trimRight_lines {s t : List Char} (h : SameLines s t) :
    (lines s).map Blank.trimRight = (lines t).map Blank.trimRight := by
  induction h with
  | @line l e f s t later ih =>
    have hends (e : LineEnd) (s : List Char) : l ++ e.chars ++ s = (l ++ e.rest) ++ '\n' :: s := by simp [LineEnd.chars]
    rw [hends, hends, lines_append, lines_append, List.map_append, List.map_append, trimRight_lines_rest,
      trimRight_lines_rest, ih]
  | last l => rfl

end Ends

theorem script_composes (a b : String) :
    (∀ gs hs, parse a = .ok gs → parse b = .ok hs → parse (a ++ "\n" ++ b) = .ok (gs ++ hs)) ∧
    (∀ e, parse a = .error e → parse (a ++ "\n" ++ b) = .error e) ∧
    (∀ gs e, parse a = .ok gs → parse b = .error e →
      parse (a ++ "\n" ++ b) = .error ⟨e.number + 1 + a.toList.count '\n', e.cause⟩) ∧
    ((∃ e, parse a = .error e) ↔ ∃ line ∈ rows a.toList, Stray line) ∧
    (∀ e, parse a = .error e ↔ ∃ before line after, rows a.toList = before ++ line :: after ∧
      (∀ l ∈ before, ¬ Stray l) ∧ Stray line ∧ e = blame (1 + before.length) line) ∧
    (∀ gs, parse a = .ok gs ↔ List.Forall₂ (fun t g => Gesture.parse t = .ok g) (spoken (rows a.toList)) gs) ∧
    (SameLines a.toList b.toList → parse a = parse b) := by
  have hrows : parse a = ofLines 1 (rows a.toList) := (ofLines_rows 1 a.toList).symm
  refine ⟨fun gs hs ha hb => ?_, fun e ha => ?_, fun gs e ha hb => ?_, ?_, fun e => ?_, fun gs => ?_, fun h => ?_⟩
  · rw [parse_append, ha, hb]
    rfl
  · rw [parse_append, ha]
    rfl
  · rw [parse_append, ha, hb, Nat.add_assoc]
    rfl
  · rw [hrows]
    exact ofLines_fails_iff
  · rw [hrows]
    exact ofLines_eq_error_iff
  · rw [hrows]
    exact ofLines_eq_ok_iff
  · exact ofLines_congr h.trimRight_lines 1

/-- The first script ends in a line feed behind a carriage return, so one more line feed puts an
    empty line, its third, before the other script, whose third line is stray. -/
theorem script_composes_from_line_four :
    let a := "# warm-up\r\npress: USER\r\n"
    let b := "# warm-up\npress: USER\r\n"
    let good := "click:3"
    let bad := "\nrelease:USER \nwiggle:USER\n click:"
    parse a = .ok [⟨.press, "USER"⟩] ∧ parse good = .ok [⟨.click, "3"⟩] ∧
      parse bad = .error ⟨3, ⟨"wiggle:USER"⟩⟩ ∧
      parse (a ++ "\n" ++ good) = .ok [⟨.press, "USER"⟩, ⟨.click, "3"⟩] ∧
      parse (a ++ "\n" ++ bad) = .error ⟨6, ⟨"wiggle:USER"⟩⟩ ∧
      parse (bad ++ "\n" ++ a) = .error ⟨3, ⟨"wiggle:USER"⟩⟩ ∧
      SameLines a.toList b.toList ∧ parse a = parse b := by
  intro a b good bad
  have ha : parse a = .ok [⟨.press, "USER"⟩] := by decide
  have hgood : parse good = .ok [⟨.click, "3"⟩] := by decide
  have hbad : parse bad = .error ⟨3, ⟨"wiggle:USER"⟩⟩ := by decide
  have hsame : SameLines a.toList b.toList := by
    have hfirst : a.toList = "# warm-up".toList ++ LineEnd.crlf.chars ++ "press: USER\r\n".toList := by decide
    have hsecond : b.toList = "# warm-up".toList ++ LineEnd.lf.chars ++ "press: USER\r\n".toList := by decide
    rw [hfirst, hsecond]
    exact .line _ .crlf .lf (.last _)
  have hcount : a.toList.count '\n' = 2 := by decide
  obtain ⟨-, -, -, -, -, -, hends⟩ := script_composes a b
  obtain ⟨hboth, -⟩ := script_composes a good
  obtain ⟨-, -, hlater, -⟩ := script_composes a bad
  obtain ⟨-, hfirst, -⟩ := script_composes bad a
  have hcounted := hlater _ _ ha hbad
  rw [hcount] at hcounted
  exact ⟨ha, hgood, hbad, hboth _ _ ha hgood, hcounted, hfirst _ hbad, hsame, hends hsame⟩

end ButtonPanel.Script
