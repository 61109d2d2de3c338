/-
  ButtonPanel.Proofs.Text.Script — scripts that list given texts, one a line, with lines that say
  nothing anywhere between them (`Lists`). Lines end in a line feed, also one behind a carriage
  return, and the last one may also end with the script. A line says nothing, or it is a gesture,
  or it is stray (`line_cases`), and each has an equation of its own.

  `ofLines_of_lists`: if the texts are gestures, such a script has just these gestures, in their
  order. A carriage return before the line feed is a blank at the end of the line, so it is cut
  off like any other; a line that says nothing stays silent, and a gesture, which starts with
  its verb, is never taken for a comment.
-/

import Mathlib.Data.List.Forall2
import ButtonPanel.Script
import ButtonPanel.Proofs.Text.Gesture

namespace ButtonPanel.Script

/-! ## Lines -/

inductive LineEnd
  | lf
  | crlf
  deriving DecidableEq, Repr

def LineEnd.rest : LineEnd → List Char
  | lf => []
  | crlf => ['\r']

def LineEnd.chars (e : LineEnd) : List Char := e.rest ++ ['\n']

theorem LineEnd.blank_rest (e : LineEnd) : ∀ c ∈ e.rest, Blank.isBlank c = true := by
  cases e <;> exact List.all_eq_true.mp rfl

theorem LineEnd.not_mem_rest (e : LineEnd) : '\n' ∉ e.rest := by cases e <;> decide

theorem lines_newline (s : List Char) : lines ('\n' :: s) = [] :: lines s := rfl

theorem lines_of_ne {c : Char} (h : c ≠ '\n') (s : List Char) :
    lines (c :: s) = (c :: (splitLines s).1) :: (splitLines s).2 := by
  simp only [lines, splitLines, if_neg h]

theorem lines_append (s t : List Char) : lines (s ++ '\n' :: t) = lines s ++ lines t := by
  induction s with
  | nil => rfl
  | cons c s ih =>
    by_cases hc : c = '\n'
    · rw [hc, List.cons_append, lines_newline, lines_newline, ih, List.cons_append]
    · rw [List.cons_append, lines_of_ne hc, lines_of_ne hc]
      simp only [lines, List.cons_append, List.cons.injEq] at ih
      rw [ih.1, ih.2]
      rfl

theorem lines_of_not_mem {line : List Char} (h : '\n' ∉ line) : lines line = [line] := by
  induction line with
  | nil => rfl
  | cons c line ih =>
    have hc : c ≠ '\n' := fun he => h (he ▸ List.mem_cons_self)
    have hline := ih fun hm => h (List.mem_cons_of_mem c hm)
    simp only [lines, List.cons.injEq] at hline
    rw [lines_of_ne hc, hline.1, hline.2]

theorem lines_ended {line : List Char} (h : '\n' ∉ line) (e : LineEnd) (s : List Char) :
    lines (line ++ e.chars ++ s) = (line ++ e.rest) :: lines s := by
  have hnone : '\n' ∉ line ++ e.rest := by
    intro hm
    rcases List.mem_append.mp hm with hm | hm
    · exact h hm
    · exact e.not_mem_rest hm
  have hsplit : line ++ e.chars ++ s = (line ++ e.rest) ++ '\n' :: s := by simp [LineEnd.chars]
  rw [hsplit, lines_append, lines_of_not_mem hnone, List.singleton_append]

/-! ## What a line says -/

/-- A line that says something which is no gesture. -/
def Stray (line : List Char) : Prop :=
  Blank.trim line ≠ [] ∧ (Blank.trim line).head? ≠ some '#' ∧
    ∀ g, Gesture.parse (String.ofList (Blank.trim line)) ≠ .ok g

def blame (number : Nat) (line : List Char) : BadLine := ⟨number, ⟨String.ofList (Blank.trim line)⟩⟩

theorem isSilent_eq_false_iff {line : List Char} : isSilent line = false ↔ line ≠ [] ∧ line.head? ≠ some '#' := by
  cases line <;> simp [isSilent]

theorem Stray.isSilent_eq_false {line : List Char} (h : Stray line) : isSilent (Blank.trim line) = false :=
  isSilent_eq_false_iff.mpr ⟨h.1, h.2.1⟩

/-- A line says nothing, or it is a gesture, or it is stray. -/
theorem line_cases (line : List Char) :
    isSilent (Blank.trim line) = true ∨
    (isSilent (Blank.trim line) = false ∧ ∃ g, Gesture.parse (String.ofList (Blank.trim line)) = .ok g) ∨
    Stray line := by
  cases hs : isSilent (Blank.trim line) with
  | true => exact Or.inl rfl
  | false =>
    by_cases hg : ∃ g, Gesture.parse (String.ofList (Blank.trim line)) = .ok g
    · exact Or.inr (Or.inl ⟨rfl, hg⟩)
    · obtain ⟨hne, hhead⟩ := isSilent_eq_false_iff.mp hs
      exact Or.inr (Or.inr ⟨hne, hhead, fun g h => hg ⟨g, h⟩⟩)

section Line

variable {line : List Char} (number : Nat) (ls : List (List Char))

theorem ofLines_of_silent (h : isSilent (Blank.trim line) = true) :
    ofLines number (line :: ls) = ofLines (number + 1) ls := by
  simp only [ofLines, h, if_true]

theorem ofLines_of_speaks (h : isSilent (Blank.trim line) = false) {g : Gesture}
    (hg : Gesture.parse (String.ofList (Blank.trim line)) = .ok g) :
    ofLines number (line :: ls) = (ofLines (number + 1) ls).map (g :: ·) := by
  simp only [ofLines, h, Bool.false_eq_true, if_false, hg]

theorem ofLines_of_stray (h : Stray line) : ofLines number (line :: ls) = .error (blame number line) := by
  have hs := h.isSilent_eq_false
  cases hg : Gesture.parse (String.ofList (Blank.trim line)) with
  | ok g => exact absurd hg (h.2.2 g)
  | error b =>
    have hb := Gesture.eq_of_parse_error hg
    simp only [ofLines, hs, Bool.false_eq_true, if_false, hg, blame, hb]

theorem not_stray_of_silent (h : isSilent (Blank.trim line) = true) : ¬ Stray line := by
  intro hstray
  rw [hstray.isSilent_eq_false] at h
  cases h

end Line

inductive Silent : List Char → Prop
  | blank (line : List Char) (h : ∀ c ∈ line, Blank.isBlank c = true) : Silent line
  | comment (indent : List Char) (h : ∀ c ∈ indent, Blank.isBlank c = true) (text : List Char) :
    Silent (indent ++ '#' :: text)

theorem Silent.isSilent_trim {line : List Char} (h : Silent line) : isSilent (Blank.trim line) = true := by
  cases h with
  | blank line h =>
    have hnil : Blank.trim line = [] := by
      have htrim := Blank.trim_blank_append h []
      rw [List.append_nil] at htrim
      exact htrim
    rw [hnil]
    rfl
  | comment indent h text =>
    obtain ⟨before, after, htext, hbefore, -⟩ := Blank.exists_trim ('#' :: text)
    rw [Blank.trim_blank_append h]
    cases before with
    | nil =>
      -- the `#` itself is no blank, so it is not among those that are cut off on its left
      rw [List.nil_append] at htext
      cases htrim : Blank.trim ('#' :: text) with
      | nil => rfl
      | cons c t =>
        rw [htrim, List.cons_append] at htext
        rw [← (List.cons.inj htext).1]
        rfl
    | cons c before =>
      have hc : c = '#' := by
        rw [List.cons_append, List.cons_append] at htext
        exact (List.cons.inj htext).1.symm
      exact absurd (hbefore c List.mem_cons_self) (by rw [hc]; decide)

theorem ofLines_silent {line : List Char} (h : Silent line) {ends : List Char} (he : ∀ c ∈ ends, Blank.isBlank c = true)
    (number : Nat) (ls : List (List Char)) : ofLines number ((line ++ ends) :: ls) = ofLines (number + 1) ls := by
  refine ofLines_of_silent number ls ?_
  rw [Blank.trim_append_blank he]
  exact h.isSilent_trim

theorem ofLines_gesture {text : List Char} {g : Gesture} (h : Gesture.ofChars? text = some g) {ends : List Char}
    (he : ∀ c ∈ ends, Blank.isBlank c = true) (number : Nat) (ls : List (List Char)) :
    ofLines number ((text ++ ends) :: ls) = (ofLines (number + 1) ls).map (g :: ·) := by
  have hspeaks : isSilent (Blank.trim text) = false := by
    have hhead := Gesture.head?_trim h
    cases htrim : Blank.trim text with
    | nil =>
      rw [htrim] at hhead
      cases hv : g.verb <;> rw [hv] at hhead <;> cases hhead
    | cons c t =>
      rw [htrim] at hhead
      cases hv : g.verb <;> rw [hv] at hhead <;> cases hhead <;> rfl
  have hparse : Gesture.parse (String.ofList (Blank.trim text)) = .ok g := by
    rw [Gesture.parse_eq_ok_iff, String.toList_ofList]
    exact Gesture.ofChars?_trim h
  refine ofLines_of_speaks number ls ?_ ?_
  · rw [Blank.trim_append_blank he]
    exact hspeaks
  · rw [Blank.trim_append_blank he]
    exact hparse

/-! ## Scripts that list texts -/

inductive Lists : List String → List Char → Prop
  | silent {line : List Char} (h : Silent line) (hn : '\n' ∉ line) (e : LineEnd) {texts : List String} {s : List Char}
    (later : Lists texts s) : Lists texts (line ++ e.chars ++ s)
  | text (t : String) (e : LineEnd) {texts : List String} {s : List Char} (later : Lists texts s) :
    Lists (t :: texts) (t.toList ++ e.chars ++ s)
  /-- The last line says nothing. It is empty if the line before it ends the script. -/
  | lastSilent {line : List Char} (h : Silent line) (hn : '\n' ∉ line) : Lists [] line
  | last (t : String) : Lists [t] t.toList

theorem ofLines_of_lists {texts : List String} {s : List Char} (h : Lists texts s) {gs : List Gesture}
    (hgs : List.Forall₂ (fun t g => Gesture.parse t = .ok g) texts gs) (hn : ∀ t ∈ texts, '\n' ∉ t.toList) (number : Nat) :
    ofLines number (lines s) = .ok gs := by
  induction h generalizing gs number with
  | silent h hline e later ih =>
    rw [lines_ended hline, ofLines_silent h e.blank_rest]
    exact ih hgs hn _
  | text t e later ih =>
    obtain ⟨g, rest, hg, hrest, rfl⟩ := List.forall₂_cons_left_iff.mp hgs
    rw [lines_ended (hn t List.mem_cons_self), ofLines_gesture (Gesture.parse_eq_ok_iff.mp hg) e.blank_rest,
      ih hrest fun u hu => hn u (List.mem_cons_of_mem t hu)]
    rfl
  | lastSilent h hline =>
    obtain rfl := List.forall₂_nil_left_iff.mp hgs
    have hends : ∀ c ∈ ([] : List Char), Blank.isBlank c = true := nofun
    have hofLines := ofLines_silent h hends number []
    rw [List.append_nil] at hofLines
    rw [lines_of_not_mem hline, hofLines]
    rfl
  | last t =>
    obtain ⟨g, rest, hg, hrest, rfl⟩ := List.forall₂_cons_left_iff.mp hgs
    obtain rfl := List.forall₂_nil_left_iff.mp hrest
    have hends : ∀ c ∈ ([] : List Char), Blank.isBlank c = true := nofun
    have hofLines := ofLines_gesture (Gesture.parse_eq_ok_iff.mp hg) hends number []
    rw [List.append_nil] at hofLines
    rw [lines_of_not_mem (hn t List.mem_cons_self), hofLines]
    rfl

theorem load_of_lists {files : Files} {path doc : String} (hdoc : files.readText path = .ok doc) {texts : List String}
    (h : Lists texts doc.toList) {gs : List Gesture} (hgs : List.Forall₂ (fun t g => Gesture.parse t = .ok g) texts gs)
    (hn : ∀ t ∈ texts, '\n' ∉ t.toList) : load files path = .ok gs := by
  simp only [load, hdoc, parse, ofLines_of_lists h hgs hn]

end ButtonPanel.Script
