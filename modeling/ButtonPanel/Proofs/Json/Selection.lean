/-
  ButtonPanel.Proofs.Json.Selection — objects that hold some of the members that a record can
  have. A selection has them in any order and each at most once; such an object is taken if its
  members make a record (`takes_record`) and turned down if they do not (`turnsDown_of_unfinished`).
  Members with one too many between them, unknown or a repetition, are overfull; an object of
  those is turned down wherever that one stands (`turnsDown_of_overfull`). So is an object with a
  member whose value is turned down (`turnsDown_of_value`).

  All of this comes down to the first members of the object, up to the one that is at fault: they
  are a selection too, and their values are read.
-/

import ButtonPanel.Proofs.Json.Codec
import ButtonPanel.Proofs.Json.Sketch

namespace ButtonPanel.Json

namespace Sketch

/-- Some members of an object, in any order and each at most once. -/
structure Selection (all ms : List Member) : Prop where
  subset : ms ⊆ all
  nodup : (ms.map Prod.fst).Nodup

/-- A selection with one member more, of a name that the object does not know or one of them again. -/
def Overfull (all ms : List Member) : Prop :=
  ∃ before x after, ms = before ++ x :: after ∧ Selection all (before ++ after) ∧
    (x.1 ∉ all.map Prod.fst ∨ x ∈ before ++ after)

theorem Selection.mono {all more ms : List Member} (h : Selection all ms) (hmore : all ⊆ more) : Selection more ms :=
  ⟨List.Subset.trans h.subset hmore, h.nodup⟩

theorem Selection.of_subperm {all ms ls : List Member} (h : Selection all ms) (hls : ls.Subperm ms) :
    Selection all ls where
  subset := List.Subset.trans hls.subset h.subset
  nodup := by
    obtain ⟨ks, hperm, hsub⟩ := hls
    exact (hperm.map Prod.fst).nodup_iff.mp ((hsub.map Prod.fst).nodup h.nodup)

/-- Up to the member too many there is a selection, to which that member cannot be added. -/
theorem Overfull.exists_first {all ms : List Member} (h : Overfull all ms) :
    ∃ good x after, ms = good ++ x :: after ∧ Selection all good ∧
      (x.1 ∉ all.map Prod.fst ∨ x.1 ∈ good.map Prod.fst) := by
  obtain ⟨before, x, after, rfl, hsel, hx⟩ := h
  have hbefore : Selection all before := hsel.of_subperm (List.sublist_append_left _ _).subperm
  rcases hx with hunknown | hagain
  · exact ⟨before, x, after, rfl, hbefore, .inl hunknown⟩
  · rcases List.mem_append.mp hagain with hfirst | hsecond
    · exact ⟨before, x, after, rfl, hbefore, .inr (List.mem_map_of_mem hfirst)⟩
    · -- The repetition stands first, and it is its original that is too many.
      obtain ⟨between, rest, rfl⟩ := List.append_of_mem hsecond
      refine ⟨before ++ x :: between, x, rest, by simp, hsel.of_subperm ?_, .inr ?_⟩
      · refine (List.Perm.append_left before (List.perm_append_singleton x between).symm).subperm.trans ?_
        exact ((List.sublist_append_left [x] rest).append_left between |>.append_left before |>.subperm)
      · exact List.mem_map_of_mem (List.mem_append_right _ List.mem_cons_self)

end Sketch

def Field.of {β δ : Type} (name : String) (c : Codec β) (put : δ → β → δ) : Field δ where
  name := name
  read d := return put d (← c.read)

namespace Entry

variable {δ : Type}

def of {β : Type} (name : String) {c : Codec β} (put : δ → β → δ) {ts : List Token} {b : β} (h : c.read.Reads ts b) :
    Entry δ where
  field := .of name c put
  value := ts
  effect d := put d b
  reads _ rest := Reader.bind_ok (h rest)

def member (e : Entry δ) : Sketch.Member := (e.field.name, Sketch.ofTokens e.value)

theorem names_member (es : List (Entry δ)) : (es.map member).map Prod.fst = es.map (·.field.name) := by
  rw [List.map_map]
  rfl

/-- A part of a draft that one member fills, always with the same, and that the others leave alone. -/
theorem applyAll_part {β : Type} {all es : List (Entry δ)} (hes : es ⊆ all) (part : δ → β) (name : String) (b : β)
    (h : ∀ e ∈ all, ∀ d, part (e.effect d) = if e.field.name = name then b else part d) (draft : δ) :
    part (applyAll es draft) = if name ∈ es.map (·.field.name) then b else part draft := by
  induction es using List.reverseRecOn with
  | nil => rfl
  | append_singleton es e ih =>
    obtain ⟨hes, he⟩ := List.append_subset.mp hes
    rw [applyAll_concat, h e (he List.mem_cons_self), ih hes]
    simp only [List.map_append, List.map_singleton, List.mem_append, List.mem_singleton]
    by_cases he : name = e.field.name
    · rw [if_pos he.symm, if_pos (.inr he)]
    · simp only [he, Ne.symm he, if_false, or_false]

/-- A selection from members that entries stand for is a selection of entries. -/
theorem exists_among {fields : List (Field δ)} (hn : (fields.map (·.name)).Nodup) {all : List (Entry δ)}
    (hall : ∀ e ∈ all, e.field ∈ fields) {ms : List Sketch.Member} (h : Sketch.Selection (all.map member) ms) :
    ∃ es, ms = es.map member ∧ es ⊆ all ∧ Among fields es := by
  obtain ⟨es, rfl, hes⟩ : ∃ es, ms = es.map member ∧ es ⊆ all := by
    obtain ⟨hsub, -⟩ := h
    induction ms with
    | nil => exact ⟨[], rfl, List.nil_subset _⟩
    | cons m ms ih =>
      obtain ⟨hm, hms⟩ := List.cons_subset.mp hsub
      obtain ⟨e, he, rfl⟩ := List.mem_map.mp hm
      obtain ⟨es, rfl, hes⟩ := ih hms
      exact ⟨e :: es, rfl, List.cons_subset.mpr ⟨he, hes⟩⟩
  exact ⟨es, rfl, hes, hn, fun e he => hall e (hes he), names_member es ▸ h.nodup⟩

theorem object_member (es : List (Entry δ)) :
    Sketch.object (es.map member) =
      Sketch.ofTokens (.openBrace :: ([Token.comma].intercalate (es.map (·.tokens)) ++ [.closeBrace])) := by
  rw [Sketch.object, Sketch.ofTokens_cons, Sketch.ofTokens_append, Sketch.ofTokens_intercalate, List.map_map,
    List.map_map]
  rfl

/-- An object up to the value of the member behind some entries. -/
theorem object_behind (es : List (Entry δ)) (m : Sketch.Member) (after : List Sketch.Member) :
    ∃ rest, Sketch.object (es.map member ++ m :: after) =
      Sketch.ofTokens (.openBrace :: upTo es m.1) ++ some .colon :: (m.2 ++ rest) := by
  have htokens : (es.map member).map Sketch.Member.sketch = (es.map (·.tokens)).map Sketch.ofTokens := by
    rw [List.map_map, List.map_map]
    rfl
  refine ⟨(after.map Sketch.Member.sketch).flatMap (some Token.comma :: ·) ++ [some .closeBrace], ?_⟩
  rw [Sketch.object, List.map_append, List.map_cons, htokens, Sketch.intercalate_behind, upTo, List.flatMap_map]
  simp [Sketch.Member.sketch, Sketch.ofTokens]

end Entry

namespace Reader

variable {α β δ : Type} {fields : List (Field δ)} {draft : δ} {finish : δ → Option α}

theorem takes_record (hn : (fields.map (·.name)).Nodup) {all : List (Entry δ)} (hall : all.map (·.field) = fields)
    {ms : List Sketch.Member} (h : Sketch.Selection (all.map Entry.member) ms) {a : α}
    (hfinish : ∀ es ⊆ all, es.map (·.field.name) = ms.map Prod.fst → finish (Entry.applyAll es draft) = some a) :
    (record fields draft finish).Takes (Sketch.object ms) a := by
  obtain ⟨es, rfl, hes, hamong⟩ := Entry.exists_among hn (fun e he => hall ▸ List.mem_map_of_mem he) h
  exact ⟨_, Entry.object_member es, reads_record hamong (hfinish es hes (Entry.names_member es).symm)⟩

theorem turnsDown_of_unfinished (hn : (fields.map (·.name)).Nodup) {all : List (Entry δ)}
    (hall : all.map (·.field) = fields) {ms : List Sketch.Member} (h : Sketch.Selection (all.map Entry.member) ms)
    (hfinish : ∀ es ⊆ all, es.map (·.field.name) = ms.map Prod.fst → finish (Entry.applyAll es draft) = none) :
    (record fields draft finish).TurnsDown (Sketch.object ms) .mismatched := by
  obtain ⟨es, rfl, hes, hamong⟩ := Entry.exists_among hn (fun e he => hall ▸ List.mem_map_of_mem he) h
  have hrejects := rejects_record_unfinished hamong (hfinish es hes (Entry.names_member es).symm)
  exact ⟨_, _, [], (Entry.object_member es).trans (List.append_nil _).symm, hrejects⟩

theorem turnsDown_of_overfull (hn : (fields.map (·.name)).Nodup) {all : List (Entry δ)}
    (hall : all.map (·.field) = fields) {ms : List Sketch.Member} (h : Sketch.Overfull (all.map Entry.member) ms) :
    (record fields draft finish).TurnsDown (Sketch.object ms) .mismatched := by
  obtain ⟨good, x, after, rfl, hgood, hx⟩ := h.exists_first
  obtain ⟨es, rfl, -, hamong⟩ := Entry.exists_among hn (fun e he => hall ▸ List.mem_map_of_mem he) hgood
  obtain ⟨rest, hrest⟩ := Entry.object_behind es x after
  have hkey : x.1 ∉ fields.map (·.name) ∨ x.1 ∈ es.map (·.field.name) := by
    rw [Entry.names_member, Entry.names_member] at hx
    rwa [← hall, List.map_map]
  exact ⟨_, _, _, hrest, rejects_record (rejects_object_of_key hamong draft hkey) finish⟩

theorem turnsDown_of_value (hn : (fields.map (·.name)).Nodup) {name : String} {c : Codec β} {put : δ → β → δ}
    (hm : .of name c put ∈ fields) {others : List (Entry δ)} (hothers : ∀ e ∈ others, e.field ∈ fields) {v : Sketch}
    {f : Fault} (hbad : c.read.TurnsDown v f)
    {ms : List Sketch.Member} (h : Sketch.Selection ((name, v) :: others.map Entry.member) ms) (hv : (name, v) ∈ ms) :
    (record fields draft finish).TurnsDown (Sketch.object ms) f := by
  obtain ⟨before, after, rfl⟩ := List.append_of_mem hv
  have hnew : name ∉ before.map Prod.fst := by
    have hnames := h.nodup
    rw [List.map_append, List.map_cons] at hnames
    exact fun hname => (List.nodup_append.mp hnames).2.2 name hname name List.mem_cons_self rfl
  have hbefore : Sketch.Selection (others.map Entry.member) before := by
    obtain ⟨hsub, hnames⟩ := h.of_subperm (List.sublist_append_left before _).subperm
    refine ⟨fun y hy => ?_, hnames⟩
    rcases List.mem_cons.mp (hsub hy) with rfl | hother
    · exact absurd (List.mem_map_of_mem hy) hnew
    · exact hother
  obtain ⟨es, rfl, -, hamong⟩ := Entry.exists_among hn hothers hbefore
  obtain ⟨rest, hrest⟩ := Entry.object_behind es (name, v) after
  obtain ⟨t, ts, k, rfl, hrejects⟩ := hbad
  rw [Entry.names_member] at hnew
  have hobject := rejects_object_of_value hamong draft hm hnew fun d => hrejects.bind fun b => pure (put d b)
  refine ⟨_, _, k ++ rest, ?_, rejects_record hobject finish⟩
  rw [hrest]
  simp [Sketch.ofTokens_cons, Sketch.ofTokens_append, Field.of]

end Reader

end ButtonPanel.Json
