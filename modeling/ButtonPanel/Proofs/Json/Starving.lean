/-
  ButtonPanel.Proofs.Json.Starving — what readers make of tokens that were cut short. A reader
  starves on tokens if it asks for more wherever they are cut (`Starves`). Readers of texts and of
  choices do, since what is left of a text is seen to break off.

  The first digits of an integer are an integer, so its reader may be content with them; but then
  it has come to the end of what there is (`Exhausts`). Whoever reads on finds nothing and asks for
  more. In a list or a record something has to follow every value, so lists and records starve
  although their values need not (`starves_list`, `starves_record`).
-/

import ButtonPanel.Proofs.Json.Codec
import ButtonPanel.Proofs.Json.Cutting
import ButtonPanel.Proofs.Json.Rejection

namespace ButtonPanel.Json

/-! ## Cuts -/

theorem Cut.of_append {ts us : List Token} {ls : List Lexeme} (h : Cut (ts ++ us) ls) :
    Cut ts ls ∨ ∃ rest, ls = ts.map .token ++ rest ∧ Cut us rest := by
  induction ts generalizing ls with
  | nil => exact Or.inr ⟨ls, rfl, h⟩
  | cons t ts ih =>
    cases h with
    | before => exact Or.inl (.before t ts)
    | inside _ hp => exact Or.inl (.inside ts hp)
    | behind _ h =>
      rcases ih h with h | ⟨rest, hrest, h⟩
      · exact Or.inl (.behind t h)
      · exact Or.inr ⟨rest, by rw [hrest]; rfl, h⟩

/-- What is left of a token is never taken for a token of another kind. -/
theorem Cut.head?_ne {t u : Token} {ts : List Token} {ls : List Lexeme} (h : Cut (t :: ts) ls) (hne : t ≠ u)
    (hu : u.isInteger = false) : ls.head? ≠ some (.token u) := by
  intro hhead
  cases h with
  | before => cases hhead
  | inside _ hp =>
    cases hp with
    | digits =>
      cases hhead
      cases hu
    | _ => cases hhead
  | behind => exact hne (by simpa using hhead)

/-! ## Entries -/

namespace Entry

variable {δ : Type}

theorem tokens_append (e : Entry δ) (ts : List Token) :
    e.tokens ++ ts = [.text e.field.name] ++ .colon :: (e.value ++ ts) := rfl

/-- Behind the first of some entries the others can stand in what is left of the object. -/
theorem Among.of_cons {fields : List (Field δ)} {e : Entry δ} {es : List (Entry δ)} (h : Among fields (e :: es)) :
    ∃ others, Field.pick? e.field.name fields = some (e.field, others) ∧ Among others es := by
  obtain ⟨others, hpick, hperm⟩ := Field.pick?_of_mem (h.mem e List.mem_cons_self) h.names
  obtain ⟨hfresh, hnodup⟩ := List.nodup_cons.mp h.nodup
  have hnames := (hperm.map (·.name)).nodup_iff.mpr h.names
  refine ⟨others, hpick, (List.nodup_cons.mp hnames).2, fun x hx => ?_, hnodup⟩
  rcases List.mem_cons.mp (hperm.symm.subset (h.mem x (List.mem_cons_of_mem e hx))) with hsame | hother
  · exact absurd (List.mem_map.mpr ⟨x, hx, by rw [hsame]⟩) hfresh
  · exact hother

end Entry

/-! ## Readers -/

namespace Reader

variable {α β δ : Type}

/-- Whether a reader asks for more wherever tokens are cut short. -/
def Starves (r : Reader α) (ts : List Token) : Prop := ∀ ls, Cut ts ls → r ls = .error .truncated

/-- Whether a reader comes to the end of what is left wherever tokens are cut short. -/
def Exhausts (r : Reader α) (ts : List Token) : Prop :=
  ∀ ls, Cut ts ls → r ls = .error .truncated ∨ ∃ a, r ls = .ok (a, [])

theorem starves_nil (r : Reader α) : r.Starves [] := nofun

theorem Starves.exhausts {r : Reader α} {ts : List Token} (h : r.Starves ts) : r.Exhausts ts :=
  fun ls hc => Or.inl (h ls hc)

theorem Starves.before {r : Reader α} {ts : List Token} (h : r.Starves ts) (f : α → Reader β) : (r >>= f).Starves ts :=
  fun ls hc => bind_error (h ls hc)

/-- The cut is in what the first reader reads, or it is behind that. -/
theorem Starves.append {r : Reader α} {f : α → Reader β} {ts us : List Token} {a : α} (hts : (r >>= f).Starves ts)
    (hr : r.Reads ts a) (hus : (f a).Starves us) : (r >>= f).Starves (ts ++ us) := by
  intro ls hc
  rcases hc.of_append with hbefore | ⟨rest, rfl, hbehind⟩
  · exact hts ls hbefore
  · rw [bind_ok (hr rest)]
    exact hus rest hbehind

theorem Starves.bind {r : Reader α} {f : α → Reader β} {ts us : List Token} {a : α} (h : r.Starves ts)
    (hr : r.Reads ts a) (hf : (f a).Starves us) : (r >>= f).Starves (ts ++ us) :=
  (h.before f).append hr hf

/-- A reader that may be content with less starves if something has to follow. -/
theorem Exhausts.bind {r : Reader α} {f : α → Reader β} {ts us : List Token} {a : α} (h : r.Exhausts ts)
    (hr : r.Reads ts a) (hmore : ∀ b, f b [] = .error .truncated) (hf : (f a).Starves us) :
    (r >>= f).Starves (ts ++ us) := by
  refine Starves.append (fun ls hc => ?_) hr hf
  rcases h ls hc with herror | ⟨b, hok⟩
  · exact bind_error herror
  · rw [bind_ok hok]
    exact hmore b

theorem Exhausts.map {r : Reader α} {ts : List Token} (h : r.Exhausts ts) (f : α → β) :
    (r >>= fun a => pure (f a)).Exhausts ts := by
  intro ls hc
  rcases h ls hc with herror | ⟨a, hok⟩
  · exact Or.inl (bind_error herror)
  · exact Or.inr ⟨f a, bind_ok hok⟩

/-! ## Single tokens -/

/-- A token that is written with one character is there or not. -/
theorem starves_take (t : Token) (hmark : ∀ l, ¬ t.Part l) {f : Lexeme → Reader β} {ts : List Token}
    (hf : (f (.token t)).Starves ts) : (take >>= f).Starves (t :: ts) := by
  intro ls hc
  cases hc with
  | before => rfl
  | inside _ hp => exact absurd hp (hmark _)
  | behind _ hc => exact hf _ hc

theorem starves_expect (t : Token) (hmark : ∀ l, ¬ t.Part l) : (expect t).Starves [t] :=
  starves_take t hmark (starves_nil _)

/-- Text that breaks off is a fault wherever a text may stand. -/
theorem starves_take_text {f : Lexeme → Reader β} (hf : f (.brokenText .truncated) = throw .truncated) (s : String) :
    (take >>= f).Starves [.text s] := by
  intro ls hc
  cases hc with
  | before => rfl
  | inside _ hp =>
    cases hp with
    | text =>
      show f (.brokenText .truncated) [] = _
      rw [hf]
      rfl
  | behind _ hc => cases hc

theorem starves_text (s : String) : text.Starves [.text s] := starves_take_text rfl s

theorem starves_name (s : String) : name.Starves [.text s] := starves_take_text rfl s

theorem starves_choice (ofName? : String → Option α) (s : String) : (choice ofName?).Starves [.text s] :=
  starves_take_text rfl s

/-- The first digits of an integer have a meaning if every integer between zero and it has one. -/
theorem exhausts_integer {meaning : Int → Option α} {i : Int}
    (h : ∀ j, min 0 i ≤ j → j ≤ max 0 i → (meaning j).isSome) : (integer meaning).Exhausts [.integer i] := by
  intro ls hc
  cases hc with
  | before => exact Or.inl rfl
  | inside _ hp =>
    cases hp with
    | minus => exact Or.inl rfl
    | digits hmin hmax =>
      obtain ⟨a, ha⟩ := Option.isSome_iff_exists.mp (h _ hmin hmax)
      exact Or.inr ⟨a, reads_integer ha []⟩
  | behind _ hc => cases hc

/-! ## Lists -/

theorem starves_items {item : Reader α} {ts : List Token} {a : α} (hx : item.Exhausts ts) (h : item.Reads ts a)
    {tss : List (List Token)} {as : List α} (hxs : ∀ us ∈ tss, item.Exhausts us) (hs : List.Forall₂ item.Reads tss as)
    (n : Nat) : (list.items item n).Starves (ts ++ (tss.flatMap (.comma :: ·) ++ [.closeBracket])) := by
  induction hs generalizing ts a n with
  | nil =>
    cases n with
    | zero => exact fun _ _ => rfl
    | succ n => exact hx.bind h (fun _ => rfl) (starves_take .closeBracket nofun (starves_nil _))
  | @cons us b tss as hb _ ih =>
    obtain ⟨hus, htss⟩ := List.forall_mem_cons.mp hxs
    cases n with
    | zero => exact fun _ _ => rfl
    | succ n =>
      have hlater := ih hus hb htss n
      rw [List.flatMap_cons, List.append_assoc]
      exact hx.bind h (fun _ => rfl) (starves_take .comma nofun (hlater.before _))

/-- A list starves if none of its items starts like the end of a list. -/
theorem starves_list {item : Reader α} {tss : List (List Token)} {as : List α} (hxs : ∀ ts ∈ tss, item.Exhausts ts)
    (hs : List.Forall₂ item.Reads tss as) (hstart : ∀ ts ∈ tss, ∃ t us, ts = t :: us ∧ t ≠ .closeBracket) :
    (list item).Starves (.openBracket :: ([Token.comma].intercalate tss ++ [.closeBracket])) := by
  intro ls hc
  cases hc with
  | before => rfl
  | inside _ hp => cases hp
  | @behind _ _ ls hc =>
    cases hs with
    | nil =>
      cases hc with
      | before => rfl
      | inside _ hp => cases hp
      | behind _ hc => cases hc
    | @cons ts a tss as ha has =>
      obtain ⟨t, us, rfl, hne⟩ := hstart ts List.mem_cons_self
      obtain ⟨hx, hxs⟩ := List.forall_mem_cons.mp hxs
      rw [intercalate_cons, List.append_assoc] at hc
      rw [list_of_head? (hc.head?_ne hne rfl)]
      exact starves_items hx ha hxs has _ ls hc

/-! ## Records -/

theorem starves_members {fields : List (Field δ)} {e : Entry δ} {es : List (Entry δ)} (h : Entry.Among fields (e :: es))
    (hx : ∀ x ∈ e :: es, ∀ d, (x.field.read d).Exhausts x.value) (draft : δ) :
    (members fields e.field.name draft).Starves
      (.colon :: (e.value ++ (es.flatMap (Token.comma :: ·.tokens) ++ [.closeBrace]))) := by
  induction es generalizing fields e draft with
  | nil =>
    obtain ⟨others, hpick, -⟩ := h.of_cons
    rw [members_of_pick? hpick]
    refine (starves_expect .colon nofun).bind (reads_expect .colon) ?_
    refine (hx e List.mem_cons_self draft).bind (e.reads draft) (fun _ => rfl) ?_
    exact starves_take .closeBrace nofun (starves_nil _)
  | cons x es ih =>
    obtain ⟨others, hpick, hothers⟩ := h.of_cons
    have hlater := ih hothers fun y hy => hx y (List.mem_cons_of_mem e hy)
    rw [members_of_pick? hpick]
    refine (starves_expect .colon nofun).bind (reads_expect .colon) ?_
    refine (hx e List.mem_cons_self draft).bind (e.reads draft) (fun _ => rfl) ?_
    rw [List.flatMap_cons, List.append_assoc, List.cons_append, Entry.tokens_append]
    exact starves_take .comma nofun ((starves_name _).bind (reads_name _) (hlater _))

theorem starves_object {fields : List (Field δ)} {es : List (Entry δ)} (h : Entry.Among fields es)
    (hx : ∀ x ∈ es, ∀ d, (x.field.read d).Exhausts x.value) (draft : δ) :
    (object fields draft).Starves ([Token.comma].intercalate (es.map (·.tokens)) ++ [.closeBrace]) := by
  intro ls hc
  cases es with
  | nil =>
    cases hc with
    | before => rfl
    | inside _ hp => cases hp
    | behind _ hc => cases hc
  | cons e es =>
    rw [List.map_cons, intercalate_cons, List.flatMap_map, List.append_assoc] at hc
    rw [object_of_head? (hc.head?_ne Token.noConfusion rfl)]
    rw [Entry.tokens_append] at hc
    exact (starves_name _).bind (reads_name _) (starves_members h hx draft) ls hc

theorem starves_record {fields : List (Field δ)} {es : List (Entry δ)} (h : Entry.Among fields es)
    (hx : ∀ x ∈ es, ∀ d, (x.field.read d).Exhausts x.value) (draft : δ) (finish : δ → Option α) :
    (record fields draft finish).Starves
      (.openBrace :: ([Token.comma].intercalate (es.map (·.tokens)) ++ [.closeBrace])) :=
  starves_take .openBrace nofun ((starves_object h hx draft).before _)

end Reader

/-! ## Codecs -/

namespace Codec

variable {α : Type}

theorem exhausts_integer {ofInt? : Int → Option α} {toInt : α → Int} {a : α}
    (h : ∀ j, min 0 (toInt a) ≤ j → j ≤ max 0 (toInt a) → (ofInt? j).isSome) :
    (integer ofInt? toInt).read.Exhausts ((integer ofInt? toInt).write a) := Reader.exhausts_integer h

theorem starves_text (s : String) : text.read.Starves (text.write s) := Reader.starves_text s

theorem starves_choice (ofName? : String → Option α) (name : α → String) (a : α) :
    (choice ofName? name).read.Starves ((choice ofName? name).write a) := Reader.starves_choice ofName? (name a)

theorem starves_list {c : Codec α} (h : c.Lawful) (hx : ∀ a, c.read.Exhausts (c.write a)) (as : List α) :
    c.list.read.Starves (c.list.write as) := by
  have hreads : List.Forall₂ c.read.Reads (as.map c.write) as :=
    List.forall₂_map_left_iff.mpr (List.forall₂_same.mpr fun a _ => h.reads a)
  refine Reader.starves_list (fun ts hts => ?_) hreads fun ts hts => ?_
  · obtain ⟨a, -, rfl⟩ := List.mem_map.mp hts
    exact hx a
  · obtain ⟨a, -, rfl⟩ := List.mem_map.mp hts
    exact h.starts a

/-- A value whose reader starves is not read from a stub of its compact text. -/
theorem decode_stub {c : Codec α} (h : c.Lawful) {a : α} (hs : c.read.Starves (c.write a))
    {text : String} (ht : Stub text.toList (c.encode a).toList) : c.decode text = .error .truncated := by
  rw [encode, compact, String.toList_ofList] at ht
  have hrun : c.read.run (Lexeme.scan text.toList) = .error .truncated := hs _ ((h.scannable a).cut ht)
  rw [decode, Reader.parse, hrun]

end Codec

namespace LawfulMember

variable {α β δ : Type}

theorem exhausts_of (name : String) {c : Codec β} (h : c.Lawful) (put : δ → β → δ) (get : α → β)
    (hx : ∀ b, c.read.Exhausts (c.write b)) (a : α) (d : δ) :
    ((of name h put get).read d).Exhausts ((of name h put get).write a) :=
  (hx (get a)).map (put d)

theorem starves_record {members : List (LawfulMember δ α)} (hn : (members.map (·.name)).Nodup)
    (hx : ∀ m ∈ members, ∀ a d, (m.read d).Exhausts (m.write a)) {draft : δ} {finish : δ → Option α} (a : α) :
    (Codec.record (members.map (·.toMember)) draft finish).read.Starves
      ((Codec.record (members.map (·.toMember)) draft finish).write a) := by
  rw [write_record]
  refine Reader.starves_record (among_entries hn a) (fun x hmem d => ?_) draft finish
  obtain ⟨m, hm, rfl⟩ := List.mem_map.mp hmem
  exact hx m hm a d

end LawfulMember

end ButtonPanel.Json
