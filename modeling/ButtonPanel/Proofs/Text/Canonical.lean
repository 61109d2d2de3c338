/-
  ButtonPanel.Proofs.Text.Canonical — the canonical text of a gesture: its verb, a colon and its key.

  Not every gesture can be read back from its text: the key must not be empty, and it must neither
  start nor end with a blank (`parse_text_iff`). Reading gives such gestures only (`parse_text`),
  and those of a script have no line feed in their texts either, since its lines have none
  (`newline_not_mem_text`). So their texts, one a line, are a script that lists them.

  `text_canonical`: a text is a gesture exactly if a verb stands before its first colon and
  something that is not blank behind it, which is the key; the text of a gesture that was read is
  that gesture; and the texts of the gestures of a script, with a line feed between them, are a
  script with the same gestures.
-/

import ButtonPanel.Proofs.Text.Lines

namespace ButtonPanel

/-! ## Gestures -/

namespace Gesture

variable {s : String} {g : Gesture}

theorem toList_text (g : Gesture) : g.text.toList = g.verb.name.toList ++ ':' :: g.key.toList := by
  simp [text, String.toList_append]

theorem parse_text_iff : parse g.text = .ok g ↔ Blank.Trimmed g.key.toList ∧ g.key ≠ "" := by
  obtain ⟨verb, key⟩ := g
  show parse (verb.name ++ ":" ++ key) = .ok ⟨verb, key⟩ ↔ Blank.Trimmed key.toList ∧ key ≠ ""
  rw [parse_verb, ← Blank.trim_eq_self_iff]
  by_cases hblank : Blank.trim key.toList = []
  · rw [if_pos hblank, hblank]
    refine iff_of_false (by simp) ?_
    intro ⟨hnil, hne⟩
    exact hne (String.toList_inj.mp hnil.symm)
  · rw [if_neg hblank]
    constructor
    · intro h
      have hkey : String.ofList (Blank.trim key.toList) = key := by simpa using h
      rw [← String.toList_inj, String.toList_ofList] at hkey
      refine ⟨hkey, fun hempty => hblank ?_⟩
      rw [hkey, hempty]
      rfl
    · intro ⟨hkey, _⟩
      rw [hkey, String.ofList_toList]

/-- What was read can be written and read again. -/
theorem parse_text (h : parse s = .ok g) : parse g.text = .ok g := by
  obtain ⟨before, after, -, -, -, hkey, hne⟩ := ofChars?_eq_some_iff.mp (parse_eq_ok_iff.mp h)
  refine parse_text_iff.mpr ⟨?_, hne⟩
  rw [← hkey]
  exact Blank.trimmed_trim after

/-- The key is cut from the text that was read, and the verb is one word. -/
theorem newline_not_mem_text (h : parse s = .ok g) (hs : '\n' ∉ s.toList) : '\n' ∉ g.text.toList := by
  obtain ⟨before, after, hsplit, -, -, hkey, -⟩ := ofChars?_eq_some_iff.mp (parse_eq_ok_iff.mp h)
  have hverb : '\n' ∉ g.verb.name.toList := by cases g.verb <;> decide
  have hafter : '\n' ∉ g.key.toList := by
    intro hmem
    rw [← hkey] at hmem
    have hpart : '\n' ∈ ':' :: after := List.mem_cons_of_mem _ (Blank.mem_of_mem_trim hmem)
    exact hs (hsplit ▸ List.mem_append_right before hpart)
  rw [toList_text]
  intro hmem
  rcases List.mem_append.mp hmem with hmem | hmem
  · exact hverb hmem
  · rcases List.mem_cons.mp hmem with hmem | hmem
    · exact absurd hmem (by decide)
    · exact hafter hmem

end Gesture

/-! ## Scripts -/

namespace Script

theorem newline_not_mem_lines {s line : List Char} (h : line ∈ lines s) : '\n' ∉ line := by
  induction s generalizing line with
  | nil =>
    rw [List.mem_singleton.mp h]
    exact List.not_mem_nil
  | cons c s ih =>
    by_cases hc : c = '\n'
    · rw [hc, lines_newline] at h
      rcases List.mem_cons.mp h with h | h
      · rw [h]
        exact List.not_mem_nil
      · exact ih h
    · rw [lines_of_ne hc] at h
      rcases List.mem_cons.mp h with h | h
      · rw [h]
        intro hmem
        rcases List.mem_cons.mp hmem with hmem | hmem
        · exact hc hmem.symm
        · exact ih List.mem_cons_self hmem
      · exact ih (List.mem_cons_of_mem _ h)

theorem newline_not_mem_spoken {s : List Char} {t : String} (h : t ∈ spoken (lines s)) : '\n' ∉ t.toList := by
  obtain ⟨trimmed, hmem, ht⟩ := List.mem_map.mp h
  obtain ⟨line, hline, htrim⟩ := List.mem_map.mp (List.mem_filter.mp hmem).1
  rw [← ht, String.toList_ofList, ← htrim]
  exact fun hmem => newline_not_mem_lines hline (Blank.mem_of_mem_trim hmem)

theorem exists_text_of_mem {ts : List String} {gs : List Gesture}
    (h : List.Forall₂ (fun t g => Gesture.parse t = .ok g) ts gs) {g : Gesture} (hg : g ∈ gs) :
    ∃ t ∈ ts, Gesture.parse t = .ok g := by
  induction h with
  | nil => cases hg
  | @cons t x ts gs hx later ih =>
    rcases List.mem_cons.mp hg with hg | hg
    · rw [hg]
      exact ⟨t, List.mem_cons_self, hx⟩
    · obtain ⟨u, hu, hread⟩ := ih hg
      exact ⟨u, List.mem_cons_of_mem t hu, hread⟩

/-- Texts with a line feed between them list themselves. -/
theorem lists_intercalate (texts : List String) : Lists texts ("\n".intercalate texts).toList := by
  rw [String.toList_intercalate]
  induction texts with
  | nil => exact .lastSilent (.blank [] nofun) List.not_mem_nil
  | cons t ts ih =>
    cases ts with
    | nil =>
      rw [List.map_singleton, List.intercalate_singleton]
      exact .last t
    | cons u ts =>
      rw [List.map_cons, List.map_cons, List.intercalate_cons_cons]
      exact .text t .lf ih

/-- The texts of the gestures of a script are a script with the same gestures. -/
theorem parse_intercalate {script : String} {gs : List Gesture} (h : parse script = .ok gs) :
    parse ("\n".intercalate (gs.map Gesture.text)) = .ok gs := by
  have hspoken := ofLines_eq_ok_iff.mp h
  have hread : List.Forall₂ (fun t g => Gesture.parse t = .ok g) (gs.map Gesture.text) gs := by
    rw [List.forall₂_map_left_iff, List.forall₂_same]
    intro g hg
    obtain ⟨t, -, ht⟩ := exists_text_of_mem hspoken hg
    exact Gesture.parse_text ht
  have hnone : ∀ t ∈ gs.map Gesture.text, '\n' ∉ t.toList := by
    intro t hmem
    obtain ⟨g, hg, hgt⟩ := List.mem_map.mp hmem
    obtain ⟨u, hu, hread⟩ := exists_text_of_mem hspoken hg
    rw [← hgt]
    exact Gesture.newline_not_mem_text hread (newline_not_mem_spoken hu)
  exact ofLines_of_lists (lists_intercalate _) hread hnone 1

end Script

namespace Gesture

theorem text_canonical :
    (∀ s g, parse s = .ok g ↔ ∃ before after, s.toList = before ++ ':' :: after ∧ ':' ∉ before ∧
      Blank.trim before = g.verb.name.toList ∧ Blank.trim after = g.key.toList ∧ g.key ≠ "") ∧
    (∀ s g, parse s = .ok g → parse g.text = .ok g) ∧
    ∀ script gs, Script.parse script = .ok gs → Script.parse ("\n".intercalate (gs.map text)) = .ok gs :=
  ⟨fun _ _ => parse_eq_ok_iff.trans ofChars?_eq_some_iff, fun _ _ h => parse_text h,
    fun _ _ h => Script.parse_intercalate h⟩

/-- The keys have a colon, a `#`, inner blanks and blanks beyond ASCII around them. -/
theorem text_canonical_between_blanks :
    let s := " press\u00a0: a : b\u3000"
    let script := "# keys\r\n" ++ s ++ "\r\n\nclick:\t#1"
    parse s = .ok ⟨.press, "a : b"⟩ ∧
      (∃ before after, s.toList = before ++ ':' :: after ∧ ':' ∉ before ∧ Blank.trim before = "press".toList ∧
        Blank.trim after = "a : b".toList) ∧
      parse "press:a : b" = .ok ⟨.press, "a : b"⟩ ∧
      Script.parse script = .ok [⟨.press, "a : b"⟩, ⟨.click, "#1"⟩] ∧
      Script.parse "press:a : b\nclick:#1" = .ok [⟨.press, "a : b"⟩, ⟨.click, "#1"⟩] := by
  intro s script
  obtain ⟨hreads, hback, hscript⟩ := text_canonical
  have hs : parse s = .ok ⟨.press, "a : b"⟩ := by decide
  have hgs : Script.parse script = .ok [⟨.press, "a : b"⟩, ⟨.click, "#1"⟩] := by decide
  have htext : Gesture.text ⟨.press, "a : b"⟩ = "press:a : b" := by decide
  have hjoined : "\n".intercalate ([⟨.press, "a : b"⟩, ⟨.click, "#1"⟩].map text) = "press:a : b\nclick:#1" := by decide
  obtain ⟨before, after, hsplit, hbefore, hverb, hkey, -⟩ := (hreads _ _).mp hs
  have hread := hback _ _ hs
  rw [htext] at hread
  have hagain := hscript _ _ hgs
  rw [hjoined] at hagain
  exact ⟨hs, ⟨before, after, hsplit, hbefore, hverb, hkey⟩, hread, hgs, hagain⟩

end Gesture

end ButtonPanel
