/-
  ButtonPanel.Proofs.Text.Blank — what cutting off blanks leaves. A text stays as it is exactly if
  it neither starts nor ends with a blank (`trim_eq_self_iff`), which holds of whatever is left
  (`trimmed_trim`). Every text is what is left of it, between blanks (`exists_trim`), and blanks
  put around a text make no difference (`trim_blank_append`, `trim_append_blank`).
-/

import Mathlib.Data.List.DropRight
import ButtonPanel.Text.Blank

namespace ButtonPanel.Blank

/-- Whether a text neither starts nor ends with a blank. -/
def Trimmed (s : List Char) : Prop := (∀ c ∈ s.head?, isBlank c = false) ∧ ∀ c ∈ s.getLast?, isBlank c = false

instance (s : List Char) : Decidable (Trimmed s) :=
  decidable_of_iff (s.head?.all (!isBlank ·) ∧ s.getLast?.all (!isBlank ·)) (by simp [Trimmed, Option.all_eq_true])

theorem trimRight_eq_rdropWhile (s : List Char) : trimRight s = s.rdropWhile isBlank := by
  induction s with
  | nil => rfl
  | cons c s ih =>
    have hsplit : (c :: s).rdropWhile isBlank =
        if s.rdropWhile isBlank = [] then [c].rdropWhile isBlank else c :: s.rdropWhile isBlank := by
      simp only [List.rdropWhile, List.reverse_cons, List.dropWhile_append, List.isEmpty_iff, List.reverse_eq_nil_iff]
      split <;> simp
    rw [trimRight, hsplit, ← ih]
    cases trimRight s with
    | nil => rw [if_pos rfl, List.rdropWhile_singleton]
    | cons d t => rw [if_neg (List.cons_ne_nil d t)]

theorem trim_eq (s : List Char) : trim s = (s.dropWhile isBlank).rdropWhile isBlank :=
  trimRight_eq_rdropWhile _

theorem dropWhile_eq_self_iff (s : List Char) :
    s.dropWhile isBlank = s ↔ ∀ c ∈ s.head?, isBlank c = false := by
  cases s with
  | nil => simp
  | cons c s => simp [List.dropWhile_eq_self_iff]

theorem rdropWhile_eq_self_iff (s : List Char) :
    s.rdropWhile isBlank = s ↔ ∀ c ∈ s.getLast?, isBlank c = false := by
  rw [List.rdropWhile_eq_self_iff]
  constructor
  · intro h c hc
    obtain ⟨hne, rfl⟩ := List.mem_getLast?_eq_getLast hc
    exact Bool.eq_false_iff.mpr (h hne)
  · intro h hne
    exact Bool.eq_false_iff.mp (h _ (List.getLast?_eq_getLast_of_ne_nil hne))

theorem trim_eq_self_iff {s : List Char} : trim s = s ↔ Trimmed s := by
  rw [trim_eq, Trimmed, ← dropWhile_eq_self_iff, ← rdropWhile_eq_self_iff]
  constructor
  · intro h
    -- what is cut off at either end has no length
    have hleft : (s.dropWhile isBlank).length ≤ s.length := (List.dropWhile_suffix isBlank).length_le
    have hright := (List.rdropWhile_prefix isBlank (s.dropWhile isBlank)).length_le
    rw [h] at hright
    have hdrop : s.dropWhile isBlank = s := (List.dropWhile_suffix isBlank).eq_of_length (Nat.le_antisymm hleft hright)
    rw [hdrop] at h
    exact ⟨hdrop, h⟩
  · rintro ⟨hdrop, hright⟩
    rw [hdrop, hright]

theorem trim_append_blank {after : List Char} (ha : ∀ c ∈ after, isBlank c = true) (s : List Char) :
    trim (s ++ after) = trim s := by
  have hright : ∀ t : List Char, (t ++ after).rdropWhile isBlank = t.rdropWhile isBlank := by
    intro t
    have hall : ∀ c ∈ after.reverse, isBlank c = true := fun c hc => ha c (List.mem_reverse.mp hc)
    rw [List.rdropWhile, List.reverse_append, List.dropWhile_append_of_pos hall, List.rdropWhile]
  rw [trim_eq, trim_eq, List.dropWhile_append]
  by_cases hs : (s.dropWhile isBlank).isEmpty = true
  · rw [if_pos hs, List.dropWhile_eq_nil_iff.mpr ha, List.isEmpty_iff.mp hs]
  · rw [if_neg hs, hright]

theorem trim_blank_append {before : List Char} (hb : ∀ c ∈ before, isBlank c = true) (s : List Char) :
    trim (before ++ s) = trim s := by
  rw [trim, trim, List.dropWhile_append_of_pos hb]

theorem trim_trimRight (s : List Char) : trim (trimRight s) = trim s := by
  have hafter : ∀ c ∈ s.rtakeWhile isBlank, isBlank c = true := fun c hc => List.mem_rtakeWhile_imp hc
  have hsplit : trimRight s ++ s.rtakeWhile isBlank = s := by
    rw [trimRight_eq_rdropWhile, List.rdropWhile_append_rtakeWhile]
  calc trim (trimRight s) = trim (trimRight s ++ s.rtakeWhile isBlank) := (trim_append_blank hafter _).symm
    _ = trim s := by rw [hsplit]

theorem trimmed_trim (s : List Char) : Trimmed (trim s) := by
  have hhead : ∀ c ∈ ((s.dropWhile isBlank).rdropWhile isBlank).head?, isBlank c = false := by
    intro c hc
    obtain ⟨rest, hrest⟩ := List.rdropWhile_prefix isBlank (s.dropWhile isBlank)
    have hfirst : c ∈ (s.dropWhile isBlank).head? := by
      rw [← hrest]
      exact List.mem_head?_append_of_mem_head? hc
    have hnot := List.head?_dropWhile_not isBlank s
    rw [Option.mem_def.mp hfirst] at hnot
    exact hnot
  rw [← trim_eq_self_iff, trim_eq, trim_eq, (dropWhile_eq_self_iff _).mpr hhead, List.rdropWhile_idempotent]

theorem exists_trim (s : List Char) : ∃ before after, s = before ++ trim s ++ after ∧
    (∀ c ∈ before, isBlank c = true) ∧ ∀ c ∈ after, isBlank c = true := by
  refine ⟨s.takeWhile isBlank, (s.dropWhile isBlank).rtakeWhile isBlank, ?_, ?_, ?_⟩
  · rw [trim_eq, List.append_assoc, List.rdropWhile_append_rtakeWhile, List.takeWhile_append_dropWhile]
  · exact fun c hc => List.mem_takeWhile_imp hc
  · exact fun c hc => List.mem_rtakeWhile_imp hc

theorem mem_of_mem_trim {c : Char} {s : List Char} (h : c ∈ trim s) : c ∈ s := by
  obtain ⟨before, after, hs, -, -⟩ := exists_trim s
  rw [hs]
  exact List.mem_append_left after (List.mem_append_right before h)

end ButtonPanel.Blank
