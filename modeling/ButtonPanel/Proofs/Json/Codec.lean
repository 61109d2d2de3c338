/-
  ButtonPanel.Proofs.Json.Codec — lawful codecs. A codec is lawful if it reads what it writes,
  whatever follows it (`Lawful.reads`), and if what it writes can be written without blanks
  (`Lawful.scannable`). Then a value comes back from its compact text (`Lawful.decode_encode`).
  Every way to make a codec makes a lawful one of lawful parts.
-/

import ButtonPanel.Json.Codec
import ButtonPanel.Proofs.Json.Reader

namespace ButtonPanel.Json

theorem scannable_intercalate {tss : List (List Token)} (h : ∀ ts ∈ tss, Scannable ts) :
    Scannable ([Token.comma].intercalate tss) := by
  induction tss with
  | nil => exact scannable_nil
  | cons ts tss ih =>
    have hts := h ts List.mem_cons_self
    have htss := ih fun us hus => h us (List.mem_cons_of_mem ts hus)
    cases tss with
    | nil => rwa [List.intercalate_singleton]
    | cons us tss =>
      rw [List.intercalate_cons_cons, List.append_assoc]
      exact (scannable_append_cons rfl).mpr ⟨hts, htss⟩

/-- What stands between two tokens that are no integers can be written without blanks together with them. -/
theorem scannable_enclosed {o c : Token} (ho : o.isInteger = false) (hc : c.isInteger = false) {ts : List Token}
    (h : Scannable ts) : Scannable (o :: (ts ++ [c])) :=
  (scannable_cons ho).mpr ((scannable_append_cons hc).mpr ⟨h, scannable_nil⟩)

theorem Entry.scannable {δ : Type} {e : Entry δ} (h : Scannable e.value) : Scannable e.tokens :=
  (scannable_cons rfl).mpr ((scannable_cons rfl).mpr h)

namespace Codec

variable {α δ : Type}

structure Lawful (c : Codec α) : Prop where
  reads : ∀ a, c.read.Reads (c.write a) a
  scannable : ∀ a, Scannable (c.write a)
  /-- No value starts like the end of a list. -/
  starts : ∀ a, ∃ t ts, c.write a = t :: ts ∧ t ≠ .closeBracket

theorem Lawful.decode_encode {c : Codec α} (h : c.Lawful) (a : α) : c.decode (c.encode a) = .ok a := by
  refine (h.reads a).parse ?_
  rw [encode, compact, String.toList_ofList]
  exact (h.scannable a).spells

theorem lawful_integer {ofInt? : Int → Option α} {toInt : α → Int} (h : ∀ a, ofInt? (toInt a) = some a)
    (hfits : ∀ a, FitsWord (toInt a)) : (integer ofInt? toInt).Lawful where
  reads a := Reader.reads_integer (h a)
  scannable a := scannable_singleton (hfits a)
  starts _ := ⟨_, [], rfl, nofun⟩

theorem lawful_text : text.Lawful where
  reads := Reader.reads_text
  scannable _ := scannable_singleton trivial
  starts _ := ⟨_, [], rfl, nofun⟩

theorem lawful_choice {ofName? : String → Option α} {name : α → String} (h : ∀ a, ofName? (name a) = some a) :
    (choice ofName? name).Lawful where
  reads a := Reader.reads_choice (h a)
  scannable _ := scannable_singleton trivial
  starts _ := ⟨_, [], rfl, nofun⟩

theorem Lawful.list {c : Codec α} (h : c.Lawful) : c.list.Lawful where
  reads as := by
    refine Reader.reads_list (List.forall₂_map_left_iff.mpr (List.forall₂_same.mpr fun a _ => h.reads a)) ?_
    intro ts hts
    obtain ⟨a, -, rfl⟩ := List.mem_map.mp hts
    exact h.starts a
  scannable as := by
    refine scannable_enclosed rfl rfl (scannable_intercalate fun ts hts => ?_)
    obtain ⟨a, -, rfl⟩ := List.mem_map.mp hts
    exact h.scannable a
  starts _ := ⟨_, _, rfl, nofun⟩

end Codec

/-! ## Records -/

structure LawfulMember (δ α : Type) extends Member δ α where
  effect : α → δ → δ
  reads : ∀ a d, (read d).Reads (write a) (effect a d)
  scannable : ∀ a, Scannable (write a)

namespace LawfulMember

variable {α β δ : Type}

def of (name : String) {c : Codec β} (h : c.Lawful) (put : δ → β → δ) (get : α → β) : LawfulMember δ α where
  toMember := .of name c put get
  effect a d := put d (get a)
  reads a _ rest := Reader.bind_ok (h.reads (get a) rest)
  scannable a := h.scannable (get a)

def entry (m : LawfulMember δ α) (a : α) : Entry δ where
  field := m.toField
  value := m.write a
  effect := m.effect a
  reads := m.reads a

/-- A record is written as the entries of all its members. -/
theorem write_record (members : List (LawfulMember δ α)) (draft : δ) (finish : δ → Option α) (a : α) :
    (Codec.record (members.map (·.toMember)) draft finish).write a =
      .openBrace :: ([Token.comma].intercalate ((members.map (·.entry a)).map (·.tokens)) ++ [.closeBrace]) := by
  have htokens : (members.map (·.entry a)).map (·.tokens) =
      (members.map (·.toMember)).map fun m => .text m.name :: .colon :: m.write a := by
    rw [List.map_map, List.map_map]
    rfl
  rw [htokens]
  rfl

theorem among_entries {members : List (LawfulMember δ α)} (hn : (members.map (·.name)).Nodup) (a : α) :
    Entry.Among ((members.map (·.toMember)).map (·.toField)) (members.map (·.entry a)) := by
  refine ⟨?_, fun x hx => ?_, ?_⟩
  · simpa only [List.map_map, Function.comp_def] using hn
  · obtain ⟨m, hm, rfl⟩ := List.mem_map.mp hx
    exact List.mem_map.mpr ⟨m.toMember, List.mem_map_of_mem hm, rfl⟩
  · simpa only [List.map_map, Function.comp_def, entry] using hn

/-- A record is lawful if all its members together make the value out of the first draft. -/
theorem lawful_record {members : List (LawfulMember δ α)} (hn : (members.map (·.name)).Nodup) {draft : δ}
    {finish : δ → Option α} (h : ∀ a, finish (Entry.applyAll (members.map (·.entry a)) draft) = some a) :
    (Codec.record (members.map (·.toMember)) draft finish).Lawful where
  reads a := by
    rw [write_record]
    exact Reader.reads_record (among_entries hn a) (h a)
  scannable a := by
    rw [write_record]
    refine scannable_enclosed rfl rfl (scannable_intercalate fun ts hts => ?_)
    rw [List.map_map] at hts
    obtain ⟨m, -, rfl⟩ := List.mem_map.mp hts
    exact Entry.scannable (m.scannable a)
  starts _ := ⟨_, _, rfl, nofun⟩

end LawfulMember

end ButtonPanel.Json
