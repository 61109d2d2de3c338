/-
  ButtonPanel.Proofs.Json.Reader — what readers make of tokens. A reader reads tokens as a value
  if it takes just them and gives that value, whatever follows them (`Reader.Reads`); then it
  reads every text that spells them as that value (`Reads.parse`).

  A member of an object is an entry: its name, its tokens, and what they make of a draft. Entries
  of different names are read from an object in whatever order they come, and each adds to the
  draft what it does (`reads_record`). The step is one member: it is found among those to come,
  and those of other names are still to come (`pick?_of_mem`). So behind any entries the reader
  has come to the name of the next one, with just the other members still to come (`object_reach`).
-/

import Mathlib.Data.List.Forall2
import Mathlib.Data.List.Induction
import Mathlib.Data.List.Nodup
import Mathlib.Data.List.Perm.Basic
import ButtonPanel.Json.Reader
import ButtonPanel.Proofs.Json.Spelling

namespace ButtonPanel.Json

theorem intercalate_cons {α : Type} (d : α) (x : List α) (xs : List (List α)) :
    [d].intercalate (x :: xs) = x ++ xs.flatMap (d :: ·) := by
  induction xs generalizing x with
  | nil => rw [List.intercalate_singleton, List.flatMap_nil, List.append_nil]
  | cons y ys ih =>
    rw [List.intercalate_cons_cons, ih, List.flatMap_cons, List.append_assoc]
    rfl

theorem intercalate_append_cons {α : Type} (d : α) (xs : List (List α)) (y : List α) (ys : List (List α)) :
    [d].intercalate (xs ++ y :: ys) = xs.flatMap (· ++ [d]) ++ (y ++ ys.flatMap (d :: ·)) := by
  induction xs with
  | nil => exact intercalate_cons d y ys
  | cons x xs ih =>
    obtain ⟨z, zs, hz⟩ : ∃ z zs, xs ++ y :: ys = z :: zs := List.exists_cons_of_ne_nil (by simp)
    rw [List.cons_append, hz, List.intercalate_cons_cons, ← hz, ih, List.flatMap_cons]
    simp only [List.append_assoc]

theorem length_le_length_flatMap {α β : Type} {f : α → List β} (hf : ∀ x, f x ≠ []) (xs : List α) :
    xs.length ≤ (xs.flatMap f).length := by
  induction xs with
  | nil => exact Nat.le_refl _
  | cons x xs ih =>
    have hx := List.length_pos_iff.mpr (hf x)
    rw [List.flatMap_cons, List.length_append, List.length_cons]
    omega

namespace Reader

variable {α β δ : Type}

/-- Whether a reader reads tokens as a value. -/
def Reads (r : Reader α) (ts : List Token) (a : α) : Prop := ∀ rest, r (ts.map .token ++ rest) = .ok (a, rest)

theorem Reads.parse {r : Reader α} {ts : List Token} {a : α} (h : r.Reads ts a) {s : String}
    (hs : Spells s.toList ts) : r.parse s = .ok a := by
  have hrun : r.run (Lexeme.scan s.toList) = .ok (a, []) := by
    rw [hs.scan, ← List.append_nil (ts.map _)]
    exact h []
  rw [Reader.parse, hrun]

theorem bind_ok {r : Reader α} {f : α → Reader β} {s s' : List Lexeme} {a : α} (h : r s = .ok (a, s')) :
    (r >>= f) s = f a s' := by
  show (r s >>= fun p => f p.1 p.2) = _
  rw [h]
  rfl

theorem Reads.bind {r : Reader α} {f : α → Reader β} {ts us : List Token} {a : α} {b : β} (hr : r.Reads ts a)
    (hf : (f a).Reads us b) : (r >>= f).Reads (ts ++ us) b := by
  intro rest
  rw [List.map_append, List.append_assoc, bind_ok (hr _)]
  exact hf rest

theorem reads_take (t : Token) : take.Reads [t] (.token t) := fun _ => rfl

theorem reads_expect (t : Token) : (expect t).Reads [t] () := by
  intro rest
  show (if Lexeme.token t ≠ .token t then throw Fault.malformed else pure () : Reader Unit) rest = _
  rw [if_neg (fun h => h rfl)]
  rfl

theorem reads_text (s : String) : text.Reads [.text s] s := fun _ => rfl

theorem reads_name (s : String) : name.Reads [.text s] s := fun _ => rfl

theorem reads_integer {meaning : Int → Option α} {i : Int} {a : α} (h : meaning i = some a) :
    (integer meaning).Reads [.integer i] a := by
  intro rest
  refine (bind_ok (reads_take (.integer i) rest)).trans ?_
  simp only [h]
  rfl

theorem reads_choice {ofName? : String → Option α} {s : String} {a : α} (h : ofName? s = some a) :
    (choice ofName?).Reads [.text s] a := by
  intro rest
  show (choice.named ofName? s) rest = _
  rw [choice.named, h]
  rfl

/-! ## Lists -/

theorem skip?_of_head? {t : Token} {ls : List Lexeme} (h : ls.head? ≠ some (.token t)) :
    skip? t ls = .ok (false, ls) := if_neg h

theorem head?_ne {t u : Token} (h : u ≠ t) (rest : List Lexeme) :
    (Lexeme.token u :: rest).head? ≠ some (.token t) := by
  simpa using h

theorem reads_items {item : Reader α} {ts : List Token} {a : α} (h : item.Reads ts a) {tss : List (List Token)}
    {as : List α} (hs : List.Forall₂ item.Reads tss as) {n : Nat} (hn : as.length < n) :
    (list.items item n).Reads (ts ++ (tss.flatMap (.comma :: ·) ++ [.closeBracket])) (a :: as) := by
  induction hs generalizing ts a n with
  | nil =>
    obtain ⟨n, rfl⟩ : ∃ m, n = m + 1 := ⟨n - 1, by omega⟩
    rw [list.items]
    exact h.bind fun rest => rfl
  | @cons us b tss as hb hs ih =>
    obtain ⟨n, rfl⟩ : ∃ m, n = m + 1 := ⟨n - 1, by omega⟩
    have hlater := ih hb (Nat.lt_of_succ_lt_succ hn)
    rw [list.items]
    refine h.bind fun rest => ?_
    rw [List.flatMap_cons, List.append_assoc]
    show (list.items item n >>= fun as => pure (a :: as))
      ((us ++ (tss.flatMap (Token.comma :: ·) ++ [Token.closeBracket])).map .token ++ rest) = _
    rw [bind_ok (hlater rest)]
    rfl

/-- Behind the bracket of a list comes its first item, unless the list ends there. -/
theorem list_of_head? {item : Reader α} {ls : List Lexeme} (h : ls.head? ≠ some (.token .closeBracket)) :
    list item (.token .openBracket :: ls) = list.items item ls.length ls := by
  show (skip? .closeBracket >>= fun empty => if empty then pure [] else get >>= fun ls => list.items item ls.length)
    ls = _
  rw [bind_ok (skip?_of_head? h)]
  rfl

/-- A list is read from its items if none of them starts like the end of a list. -/
theorem reads_list {item : Reader α} {tss : List (List Token)} {as : List α} (h : List.Forall₂ item.Reads tss as)
    (hstart : ∀ ts ∈ tss, ∃ t us, ts = t :: us ∧ t ≠ .closeBracket) :
    (list item).Reads (.openBracket :: ([Token.comma].intercalate tss ++ [.closeBracket])) as := by
  cases h with
  | nil => exact fun rest => rfl
  | @cons ts a tss as ha has =>
    obtain ⟨t, us, rfl, hne⟩ := hstart ts List.mem_cons_self
    rw [intercalate_cons, List.append_assoc]
    intro rest
    have hlength : as.length < ((us ++ (tss.flatMap (Token.comma :: ·) ++ [Token.closeBracket])).map Lexeme.token ++
        rest).length + 1 := by
      have hflat := length_le_length_flatMap (f := (Token.comma :: ·)) (List.cons_ne_nil _) tss
      have hsame := has.length_eq
      simp only [List.length_append, List.length_map, List.length_singleton]
      omega
    exact (list_of_head? (head?_ne hne _)).trans (reads_items ha has hlength rest)

end Reader

/-! ## Records -/

namespace Field

variable {δ : Type}

/-- A member to come is found by its name, and the others are still to come. -/
theorem pick?_of_mem {fields : List (Field δ)} {m : Field δ} (hm : m ∈ fields) (hn : (fields.map (·.name)).Nodup) :
    ∃ others, pick? m.name fields = some (m, others) ∧ (m :: others).Perm fields := by
  induction fields with
  | nil => cases hm
  | cons f fields ih =>
    obtain ⟨hfresh, hn⟩ := List.nodup_cons.mp hn
    rcases List.mem_cons.mp hm with rfl | hm
    · exact ⟨fields, if_pos rfl, List.Perm.refl _⟩
    · have hname : f.name ≠ m.name := fun h => hfresh (List.mem_map.mpr ⟨m, hm, h.symm⟩)
      obtain ⟨others, hpick, hperm⟩ := ih hm hn
      refine ⟨f :: others, ?_, (List.Perm.swap f m others).trans (hperm.cons f)⟩
      rw [pick?, if_neg hname, hpick]
      rfl

/-- No member is found by a name that none has. -/
theorem pick?_of_not_mem {fields : List (Field δ)} {key : String} (h : key ∉ fields.map (·.name)) :
    pick? key fields = none := by
  induction fields with
  | nil => rfl
  | cons f fields ih =>
    rw [List.map_cons, List.mem_cons, not_or] at h
    rw [pick?, if_neg fun e => h.1 e.symm, ih h.2]
    rfl

end Field

structure Entry (δ : Type) where
  field : Field δ
  value : List Token
  effect : δ → δ
  reads : ∀ d, (field.read d).Reads value (effect d)

namespace Entry

variable {δ : Type}

def tokens (e : Entry δ) : List Token := .text e.field.name :: .colon :: e.value

def upTo (es : List (Entry δ)) (key : String) : List Token :=
  es.flatMap (fun e => e.tokens ++ [Token.comma]) ++ [Token.text key]

theorem intercalate_tokens (es : List (Entry δ)) (e : Entry δ) (after : List (Entry δ)) :
    [Token.comma].intercalate ((es ++ e :: after).map (·.tokens)) =
      upTo es e.field.name ++ .colon :: (e.value ++ after.flatMap (Token.comma :: ·.tokens)) := by
  rw [List.map_append, List.map_cons, intercalate_append_cons, List.flatMap_map, List.flatMap_map]
  simp [upTo, tokens]

theorem upTo_concat (es : List (Entry δ)) (e : Entry δ) (key : String) :
    upTo (es ++ [e]) key = upTo es e.field.name ++ Token.colon :: (e.value ++ [Token.comma, Token.text key]) := by
  simp [upTo, tokens]

/-- Entries that can stand in one object: each is for a member that it may have, and no two for the same one. -/
structure Among (fields : List (Field δ)) (es : List (Entry δ)) : Prop where
  names : (fields.map (·.name)).Nodup
  mem : ∀ e ∈ es, e.field ∈ fields
  nodup : (es.map (·.field.name)).Nodup

theorem among_concat_iff {fields : List (Field δ)} {es : List (Entry δ)} {e : Entry δ} :
    Among fields (es ++ [e]) ↔ Among fields es ∧ e.field ∈ fields ∧ e.field.name ∉ es.map (·.field.name) := by
  have hnodup : ((es ++ [e]).map (·.field.name)).Nodup ↔
      e.field.name ∉ es.map (·.field.name) ∧ (es.map (·.field.name)).Nodup := by
    rw [List.map_append, List.map_singleton, ← List.concat_eq_append, List.nodup_concat]
  constructor
  · rintro ⟨hn, hmem, hnames⟩
    obtain ⟨hnew, hnames⟩ := hnodup.mp hnames
    exact ⟨⟨hn, fun x hx => hmem x (List.mem_append_left _ hx), hnames⟩,
      hmem e (List.mem_append_right _ List.mem_cons_self), hnew⟩
  · rintro ⟨⟨hn, hmem, hnames⟩, he, hnew⟩
    refine ⟨hn, fun x hx => ?_, hnodup.mpr ⟨hnew, hnames⟩⟩
    rcases List.mem_append.mp hx with hx | hx
    · exact hmem x hx
    · exact List.mem_singleton.mp hx ▸ he

def applyAll (es : List (Entry δ)) (draft : δ) : δ := es.foldl (fun d e => e.effect d) draft

theorem applyAll_concat (es : List (Entry δ)) (e : Entry δ) (draft : δ) :
    applyAll (es ++ [e]) draft = e.effect (applyAll es draft) := by
  simp [applyAll]

end Entry

namespace Reader

variable {α δ : Type}

theorem members_of_unknown {fields : List (Field δ)} {key : String} (h : Field.pick? key fields = none) (draft : δ) :
    members fields key draft = throw .mismatched := by
  rw [members]
  split
  · rfl
  · next _ _ hsome =>
    rw [h] at hsome
    cases hsome

theorem members_of_pick? {fields others : List (Field δ)} {key : String} {m : Field δ}
    (h : Field.pick? key fields = some (m, others)) (draft : δ) :
    members fields key draft = (do
      expect .colon
      let draft ← m.read draft
      match ← take with
      | .token .closeBrace => return draft
      | .token .comma => members others (← name) draft
      | _ => throw .malformed) := by
  rw [members]
  split
  · next hnone =>
    rw [h] at hnone
    cases hnone
  · next _ _ hsome =>
    rw [h] at hsome
    cases hsome
    rfl

/-- Behind the brace of an object comes the name of its first member, unless the object ends there. -/
theorem object_of_head? {fields : List (Field δ)} {draft : δ} {ls : List Lexeme}
    (h : ls.head? ≠ some (.token .closeBrace)) :
    object fields draft ls = (name >>= fun key => members fields key draft) ls := by
  show (skip? .closeBrace >>= fun empty => if empty then pure draft else name >>= fun key => members fields key draft)
    ls = _
  rw [bind_ok (skip?_of_head? h)]
  rfl

/-- From the value of a member on, the reader comes to the name of the next one. -/
theorem members_step {fields others : List (Field δ)} {e : Entry δ}
    (h : Field.pick? e.field.name fields = some (e.field, others)) (draft : δ) (key : String) (rest : List Lexeme) :
    members fields e.field.name draft ((Token.colon :: (e.value ++ [Token.comma, Token.text key])).map .token ++ rest) =
      members others key (e.effect draft) rest := by
  have hcolon := reads_expect .colon ((e.value ++ [Token.comma, Token.text key]).map .token ++ rest)
  have hvalue := e.reads draft ([Token.comma, Token.text key].map .token ++ rest)
  rw [← List.append_assoc, ← List.map_append] at hvalue
  rw [members_of_pick? h]
  refine (bind_ok hcolon).trans ((bind_ok hvalue).trans ?_)
  exact (bind_ok (reads_take .comma _)).trans (bind_ok (reads_name key rest))

/-- Behind entries, a member of another name is still to come. -/
theorem pick?_behind {fields others : List (Field δ)} (hn : (fields.map (·.name)).Nodup) {es : List (Entry δ)}
    (hperm : (es.map (·.field) ++ others).Perm fields) {m : Field δ} (hm : m ∈ fields)
    (hnew : m.name ∉ es.map (·.field.name)) :
    ∃ left, Field.pick? m.name others = some (m, left) ∧ (es.map (·.field) ++ m :: left).Perm fields := by
  have hcoming : m ∈ others := by
    rcases List.mem_append.mp (hperm.symm.subset hm) with h | h
    · obtain ⟨x, hx, rfl⟩ := List.mem_map.mp h
      exact absurd (List.mem_map_of_mem hx) hnew
    · exact h
  have hothers : (others.map (·.name)).Nodup := by
    have hall := (hperm.map (·.name)).nodup_iff.mpr hn
    rw [List.map_append] at hall
    exact (List.nodup_append.mp hall).2.1
  obtain ⟨left, hpick, hleft⟩ := Field.pick?_of_mem hcoming hothers
  exact ⟨left, hpick, (hleft.append_left _).trans hperm⟩

/-- Behind entries, which may come in any order, the reader of an object comes to the name of the next
    member, and the members that it has not read are still to come. -/
theorem object_reach {fields : List (Field δ)} {es : List (Entry δ)} (h : Entry.Among fields es) (draft : δ)
    (key : String) :
    ∃ others, (es.map (·.field) ++ others).Perm fields ∧ ∀ rest,
      object fields draft ((Entry.upTo es key).map .token ++ rest) =
        members others key (Entry.applyAll es draft) rest := by
  induction es using List.reverseRecOn generalizing key with
  | nil =>
    refine ⟨fields, List.Perm.refl _, fun rest => ?_⟩
    exact (object_of_head? (head?_ne Token.noConfusion rest)).trans (bind_ok (reads_name key rest))
  | append_singleton es e ih =>
    obtain ⟨hes, he, hnew⟩ := Entry.among_concat_iff.mp h
    obtain ⟨others, hperm, hreach⟩ := ih hes e.field.name
    obtain ⟨left, hpick, hleft⟩ := pick?_behind h.names hperm he hnew
    refine ⟨left, by rwa [List.map_append, List.append_assoc], fun rest => ?_⟩
    rw [Entry.upTo_concat, List.map_append, List.append_assoc, hreach, Entry.applyAll_concat]
    exact members_step hpick _ key rest

/-- From the value of the last member on, the reader comes to the end of the object. -/
theorem members_last {fields others : List (Field δ)} {e : Entry δ}
    (h : Field.pick? e.field.name fields = some (e.field, others)) (draft : δ) (rest : List Lexeme) :
    members fields e.field.name draft ((Token.colon :: (e.value ++ [Token.closeBrace])).map .token ++ rest) =
      .ok (e.effect draft, rest) := by
  have hcolon := reads_expect .colon ((e.value ++ [Token.closeBrace]).map .token ++ rest)
  have hvalue := e.reads draft ([Token.closeBrace].map .token ++ rest)
  rw [← List.append_assoc, ← List.map_append] at hvalue
  rw [members_of_pick? h]
  exact (bind_ok hcolon).trans ((bind_ok hvalue).trans rfl)

/-- An object is read from entries, which may come in any order and need not be for all the
    members that it could have. -/
theorem reads_object {fields : List (Field δ)} {es : List (Entry δ)} (h : Entry.Among fields es) (draft : δ) :
    (object fields draft).Reads ([Token.comma].intercalate (es.map (·.tokens)) ++ [.closeBrace])
      (Entry.applyAll es draft) := by
  intro rest
  rcases List.eq_nil_or_concat' es with rfl | ⟨es, e, rfl⟩
  · rfl
  · obtain ⟨hes, he, hnew⟩ := Entry.among_concat_iff.mp h
    obtain ⟨others, hperm, hreach⟩ := object_reach hes draft e.field.name
    obtain ⟨left, hpick, -⟩ := pick?_behind h.names hperm he hnew
    rw [Entry.intercalate_tokens, List.flatMap_nil, List.append_nil, List.append_assoc, List.map_append,
      List.append_assoc, hreach, Entry.applyAll_concat]
    exact members_last hpick _ rest

theorem reads_record {fields : List (Field δ)} {es : List (Entry δ)} (h : Entry.Among fields es) {draft : δ}
    {finish : δ → Option α} {a : α} (hfinish : finish (Entry.applyAll es draft) = some a) :
    (record fields draft finish).Reads
      (.openBrace :: ([Token.comma].intercalate (es.map (·.tokens)) ++ [.closeBrace])) a := by
  intro rest
  refine (bind_ok (reads_take .openBrace _)).trans ((bind_ok (reads_object h draft rest)).trans ?_)
  simp only [hfinish]
  rfl

end Reader

end ButtonPanel.Json
