/-
  ButtonPanel.Proofs.Text.Gesture — which texts are gestures. A text is one exactly if it has a
  colon, what stands before the first one is a verb between blanks, and what stands behind it is
  not blank; that, cut free of blanks, is the key (`ofChars?_eq_some_iff`). So the text that is
  left of a gesture without the blanks around it is the same gesture (`ofChars?_trim`), and it
  starts with its verb (`head?_trim`).
-/

import ButtonPanel.Gesture
import ButtonPanel.Proofs.Text.Blank

namespace ButtonPanel

namespace Verb

theorem ofName?_name (v : Verb) : ofName? v.name = some v := by cases v <;> decide

theorem ofName?_eq_some_iff {name : String} {v : Verb} : ofName? name = some v ↔ name = v.name := by
  constructor
  · intro h
    have hname : v.name = name := by simpa using List.find?_some h
    exact hname.symm
  · rintro rfl
    exact v.ofName?_name

theorem colon_not_mem (v : Verb) : ':' ∉ v.name.toList := by cases v <;> decide

theorem trim_name (v : Verb) : Blank.trim v.name.toList = v.name.toList := by cases v <;> decide

theorem name_ne_nil (v : Verb) : v.name.toList ≠ [] := by cases v <;> decide

end Verb

namespace Gesture

/-- The part before the first colon is the verb and the part behind it the key. -/
theorem ofChars?_colon {before : List Char} (h : ':' ∉ before) (after : List Char) :
    ofChars? (before ++ ':' :: after) =
      if Blank.trim after = [] then none
      else (Verb.ofName? (String.ofList (Blank.trim before))).map fun v => ⟨v, String.ofList (Blank.trim after)⟩ := by
  have hall : ∀ c ∈ before, decide (c ≠ ':') = true := by
    intro c hc
    exact decide_eq_true fun hcolon => h (hcolon ▸ hc)
  have hbefore : (before ++ ':' :: after).takeWhile (· ≠ ':') = before := by
    rw [List.takeWhile_append_of_pos hall, List.takeWhile_cons_of_neg (by decide), List.append_nil]
  have hafter : (before ++ ':' :: after).dropWhile (· ≠ ':') = ':' :: after := by
    rw [List.dropWhile_append_of_pos hall, List.dropWhile_cons_of_neg (by decide)]
  unfold ofChars?
  simp only [hbefore, hafter]
  cases Blank.trim after with
  | nil => rfl
  | cons c key => rfl

theorem ofChars?_of_not_mem {s : List Char} (h : ':' ∉ s) : ofChars? s = none := by
  have hnil : s.dropWhile (· ≠ ':') = [] := by
    rw [List.dropWhile_eq_nil_iff]
    intro c hc
    exact decide_eq_true fun hcolon => h (hcolon ▸ hc)
  simp only [ofChars?, hnil]

theorem ofChars?_eq_some_iff {s : List Char} {g : Gesture} :
    ofChars? s = some g ↔ ∃ before after, s = before ++ ':' :: after ∧ ':' ∉ before ∧
      Blank.trim before = g.verb.name.toList ∧ Blank.trim after = g.key.toList ∧ g.key ≠ "" := by
  constructor
  · intro h
    by_cases hs : ':' ∈ s
    · obtain ⟨before, after, rfl, hbefore⟩ := List.eq_append_cons_of_mem hs
      rw [ofChars?_colon hbefore] at h
      by_cases hkey : Blank.trim after = []
      · rw [if_pos hkey] at h
        cases h
      · rw [if_neg hkey] at h
        obtain ⟨v, hv, rfl⟩ := Option.map_eq_some_iff.mp h
        have hname := congrArg String.toList (Verb.ofName?_eq_some_iff.mp hv)
        rw [String.toList_ofList] at hname
        refine ⟨before, after, rfl, hbefore, hname, String.toList_ofList.symm, fun hempty => hkey ?_⟩
        rw [← String.toList_inj, String.toList_ofList] at hempty
        exact hempty
    · rw [ofChars?_of_not_mem hs] at h
      cases h
  · rintro ⟨before, after, rfl, hbefore, hname, hkey, hne⟩
    have hnil : g.key.toList ≠ [] := fun h => hne (String.toList_inj.mp h)
    rw [ofChars?_colon hbefore, hname, hkey, if_neg hnil, String.ofList_toList, String.ofList_toList,
      g.verb.ofName?_name]
    rfl

theorem parse_eq_ok_iff {s : String} {g : Gesture} : parse s = .ok g ↔ ofChars? s.toList = some g := by
  unfold parse
  cases ofChars? s.toList with
  | none => simp
  | some h => simp

/-- A text that is no gesture is blamed as it stands. -/
theorem eq_of_parse_error {s : String} {b : BadGesture} (h : parse s = .error b) : b = ⟨s⟩ := by
  unfold parse at h
  cases hg : ofChars? s.toList with
  | some g =>
    rw [hg] at h
    cases h
  | none =>
    rw [hg] at h
    cases h
    rfl

theorem parse_verb (v : Verb) (s : String) :
    parse (v.name ++ ":" ++ s) =
      if Blank.trim s.toList = [] then .error ⟨v.name ++ ":" ++ s⟩
      else .ok ⟨v, String.ofList (Blank.trim s.toList)⟩ := by
  have hchars : (v.name ++ ":" ++ s).toList = v.name.toList ++ ':' :: s.toList := by simp [String.toList_append]
  have hverb : Verb.ofName? (String.ofList (Blank.trim v.name.toList)) = some v := by
    rw [v.trim_name, String.ofList_toList, v.ofName?_name]
  rw [parse, hchars, ofChars?_colon v.colon_not_mem, hverb]
  by_cases ht : Blank.trim s.toList = []
  · rw [if_pos ht, if_pos ht]
  · rw [if_neg ht, if_neg ht]
    rfl

/-! ## Without the blanks around it -/

variable {s : List Char} {g : Gesture}

/-- What is left of a gesture starts with its verb and ends with its key. -/
theorem exists_trim (h : ofChars? s = some g) :
    ∃ before after, Blank.trim s = (g.verb.name.toList ++ before) ++ ':' :: (after ++ g.key.toList) ∧
      (∀ c ∈ before, Blank.isBlank c = true) ∧ ∀ c ∈ after, Blank.isBlank c = true := by
  obtain ⟨left, right, rfl, -, hname, hkey, hne⟩ := ofChars?_eq_some_iff.mp h
  obtain ⟨outer, before, hleft, houter, hbefore⟩ := Blank.exists_trim left
  obtain ⟨after, outer', hright, hafter, houter'⟩ := Blank.exists_trim right
  have hnil : g.key.toList ≠ [] := fun h => hne (String.toList_inj.mp h)
  have hwhole : left ++ ':' :: right =
      outer ++ ((g.verb.name.toList ++ before) ++ ':' :: (after ++ g.key.toList)) ++ outer' := by
    rw [← hname, ← hkey]
    conv_lhs => rw [hleft, hright]
    simp only [List.append_assoc, List.cons_append]
  have htrimmed : Blank.Trimmed ((g.verb.name.toList ++ before) ++ ':' :: (after ++ g.key.toList)) := by
    constructor
    · rw [List.append_assoc, List.head?_append_of_ne_nil _ g.verb.name_ne_nil, ← hname]
      exact (Blank.trimmed_trim left).1
    · rw [← List.cons_append, ← List.append_assoc, List.getLast?_append_of_ne_nil _ hnil, ← hkey]
      exact (Blank.trimmed_trim right).2
  refine ⟨before, after, ?_, hbefore, hafter⟩
  rw [hwhole, Blank.trim_append_blank houter', Blank.trim_blank_append houter, Blank.trim_eq_self_iff.mpr htrimmed]

theorem ofChars?_trim (h : ofChars? s = some g) : ofChars? (Blank.trim s) = some g := by
  obtain ⟨left, right, -, -, hname, hkey, hne⟩ := ofChars?_eq_some_iff.mp h
  obtain ⟨before, after, htrim, hbefore, hafter⟩ := exists_trim h
  have hcolon : ':' ∉ g.verb.name.toList ++ before := by
    intro hmem
    rcases List.mem_append.mp hmem with hmem | hmem
    · exact g.verb.colon_not_mem hmem
    · exact absurd (hbefore _ hmem) (by decide)
  refine ofChars?_eq_some_iff.mpr ⟨_, _, htrim, hcolon, ?_, ?_, hne⟩
  · rw [Blank.trim_append_blank hbefore, g.verb.trim_name]
  · rw [Blank.trim_blank_append hafter, ← hkey, Blank.trim_eq_self_iff.mpr (Blank.trimmed_trim right)]

theorem head?_trim (h : ofChars? s = some g) : (Blank.trim s).head? = g.verb.name.toList.head? := by
  obtain ⟨before, after, htrim, -, -⟩ := exists_trim h
  rw [htrim, List.append_assoc, List.head?_append_of_ne_nil _ g.verb.name_ne_nil]

end Gesture

end ButtonPanel
