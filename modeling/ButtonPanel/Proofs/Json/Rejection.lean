/-
  ButtonPanel.Proofs.Json.Rejection — tokens that a reader does not get past. A reader rejects
  tokens if it fails on everything that starts with them, always with the same fault (`Rejects`).
  What follows such tokens does not matter: it need not be JSON at all.

  An object is rejected at the name of a member that is unknown or was there before
  (`rejects_object_of_key`), and inside the value of a member if the reader of that value rejects
  it (`rejects_object_of_value`); a list is rejected inside the first of its items that is
  rejected (`rejects_list`), and a record at its end if too little was read (`rejects_record_unfinished`).
-/

import ButtonPanel.Proofs.Json.Reader

namespace ButtonPanel.Json.Reader

variable {α β δ : Type}

/-- Whether a reader fails on tokens, whatever follows them. -/
def Rejects (r : Reader α) (ts : List Token) (f : Fault) : Prop := ∀ rest, r (ts.map .token ++ rest) = .error f

theorem bind_error {r : Reader α} {k : α → Reader β} {s : List Lexeme} {f : Fault} (h : r s = .error f) :
    (r >>= k) s = .error f := by
  show (r s >>= fun p => k p.1 p.2) = _
  rw [h]
  rfl

theorem Rejects.bind {r : Reader α} {ts : List Token} {f : Fault} (h : r.Rejects ts f) (k : α → Reader β) :
    (r >>= k).Rejects ts f := fun rest => bind_error (h rest)

theorem Reads.rejects {r : Reader α} {k : α → Reader β} {ts us : List Token} {a : α} {f : Fault} (hr : r.Reads ts a)
    (hk : (k a).Rejects us f) : (r >>= k).Rejects (ts ++ us) f := by
  intro rest
  rw [List.map_append, List.append_assoc, bind_ok (hr _)]
  exact hk rest

/-! ## Lists -/

theorem rejects_items {item : Reader α} {tss : List (List Token)} {as : List α} (h : List.Forall₂ item.Reads tss as)
    {ts : List Token} {f : Fault} (hbad : item.Rejects ts f) {n : Nat} (hn : tss.length < n) :
    (list.items item n).Rejects (tss.flatMap (· ++ [Token.comma]) ++ ts) f := by
  induction h generalizing n with
  | nil =>
    obtain ⟨n, rfl⟩ : ∃ m, n = m + 1 := ⟨n - 1, by omega⟩
    rw [list.items]
    exact hbad.bind _
  | @cons us a tss as ha _ ih =>
    obtain ⟨n, rfl⟩ : ∃ m, n = m + 1 := ⟨n - 1, by omega⟩
    have hlater := ih (Nat.lt_of_succ_lt_succ hn)
    rw [list.items, List.flatMap_cons, List.append_assoc, List.append_assoc]
    refine ha.rejects ?_
    exact (reads_take .comma).rejects (hlater.bind _)

/-- A list is rejected where an item is rejected behind others that are read. -/
theorem rejects_list {item : Reader α} {tss : List (List Token)} {as : List α} (h : List.Forall₂ item.Reads tss as)
    {ts : List Token} {f : Fault} (hbad : item.Rejects ts f)
    (hstart : ∀ us ∈ tss ++ [ts], ∃ t vs, us = t :: vs ∧ t ≠ .closeBracket) :
    (list item).Rejects (.openBracket :: (tss.flatMap (· ++ [Token.comma]) ++ ts)) f := by
  obtain ⟨t, us, hstarts, hne⟩ : ∃ t us, tss.flatMap (· ++ [Token.comma]) ++ ts = t :: us ∧ t ≠ .closeBracket := by
    cases tss with
    | nil => exact hstart ts List.mem_cons_self
    | cons vs tss =>
      obtain ⟨t, us, rfl, hne⟩ := hstart vs List.mem_cons_self
      exact ⟨t, _, rfl, hne⟩
  have hlength : tss.length ≤ us.length := by
    have hflat := length_le_length_flatMap (f := (· ++ [Token.comma])) (by simp) tss
    have hsame := congrArg List.length hstarts
    obtain ⟨_, _, rfl, -⟩ := hstart ts (List.mem_append_right _ List.mem_cons_self)
    simp only [List.length_append, List.length_cons] at hsame
    omega
  intro rest
  have hfuel : tss.length < (us.map Lexeme.token ++ rest).length + 1 := by
    rw [List.length_append, List.length_map]
    omega
  have hitems := rejects_items h hbad hfuel rest
  rw [hstarts] at hitems ⊢
  exact (list_of_head? (head?_ne hne _)).trans hitems

/-! ## Objects -/

/-- An object is rejected at a name that no member has, or that a member before it has. -/
theorem rejects_object_of_key {fields : List (Field δ)} {es : List (Entry δ)} (h : Entry.Among fields es) (draft : δ)
    {key : String} (hkey : key ∉ fields.map (·.name) ∨ key ∈ es.map (·.field.name)) :
    (object fields draft).Rejects (Entry.upTo es key) .mismatched := by
  obtain ⟨others, hperm, hreach⟩ := object_reach h draft key
  have hall := hperm.map (·.name)
  rw [List.map_append, List.map_map] at hall
  have hothers : key ∉ others.map (·.name) := by
    intro hother
    rcases hkey with hunknown | hbefore
    · exact hunknown (hall.subset (List.mem_append_right _ hother))
    · exact (List.nodup_append.mp (hall.nodup_iff.mpr h.names)).2.2 key hbefore key hother rfl
  intro rest
  rw [hreach, members_of_unknown (Field.pick?_of_not_mem hothers)]
  rfl

/-- An object is rejected inside the value of a member if the value is rejected. -/
theorem rejects_object_of_value {fields : List (Field δ)} {es : List (Entry δ)} (h : Entry.Among fields es) (draft : δ)
    {m : Field δ} (hm : m ∈ fields) (hnew : m.name ∉ es.map (·.field.name)) {ts : List Token} {f : Fault}
    (hbad : ∀ d, (m.read d).Rejects ts f) :
    (object fields draft).Rejects (Entry.upTo es m.name ++ .colon :: ts) f := by
  obtain ⟨others, hperm, hreach⟩ := object_reach h draft m.name
  obtain ⟨left, hpick, -⟩ := pick?_behind h.names hperm hm hnew
  intro rest
  rw [List.map_append, List.append_assoc, hreach, members_of_pick? hpick]
  exact (reads_expect .colon).rejects ((hbad _).bind _) rest

theorem rejects_record {fields : List (Field δ)} {draft : δ} {ts : List Token} {f : Fault}
    (h : (object fields draft).Rejects ts f) (finish : δ → Option α) :
    (record fields draft finish).Rejects (.openBrace :: ts) f := by
  intro rest
  exact (bind_ok (reads_take .openBrace _)).trans (bind_error (h rest))

/-- A record is rejected if its members, all of which could be read, do not make one. -/
theorem rejects_record_unfinished {fields : List (Field δ)} {es : List (Entry δ)} (h : Entry.Among fields es) {draft : δ}
    {finish : δ → Option α} (hfinish : finish (Entry.applyAll es draft) = none) :
    (record fields draft finish).Rejects
      (.openBrace :: ([Token.comma].intercalate (es.map (·.tokens)) ++ [.closeBrace])) .mismatched := by
  intro rest
  refine (bind_ok (reads_take .openBrace _)).trans ((bind_ok (reads_object h draft rest)).trans ?_)
  simp only [hfinish]
  rfl

end ButtonPanel.Json.Reader
