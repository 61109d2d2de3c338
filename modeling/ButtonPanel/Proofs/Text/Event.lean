/-
  ButtonPanel.Proofs.Text.Event — the line that shows an event tells which event it is
  (`Event.text_injective`).

  A line starts with words that say what happened (`lead`), and what it happened to follows them
  (`detail`). No such words are the start of others, so lines that are the same have the same words
  and the same details (`eq_parts_of_text_eq`). A character that no number has keeps two numbers
  apart. The name of a generator can have any character, also the `=` that stands before the value.
  But the value has none, so it starts behind the last one (`split_last`).

  All characters of a line are printable, unless the name of a generator brings in others
  (`printable_text`).
-/

import Mathlib
import ButtonPanel.Event
import ButtonPanel.Proofs.Text.Decimal

namespace ButtonPanel

/-- What stands on both sides of the last separator can be told from the whole. -/
theorem split_last {α : Type} {a : α} {u v x y : List α} (hx : a ∉ x) (hy : a ∉ y)
    (h : u ++ a :: x = v ++ a :: y) : u = v ∧ x = y := by
  rcases List.append_eq_append_iff.mp h with ⟨w, hv, hw⟩ | ⟨w, hu, hw⟩
  · cases w with
    | nil => exact ⟨by rw [hv, List.append_nil], (List.cons.inj hw).2⟩
    | cons b w =>
      have hmem : a ∈ x := by
        rw [(List.cons.inj hw).2]
        exact List.mem_append_right w List.mem_cons_self
      exact absurd hmem hx
  · cases w with
    | nil => exact ⟨by rw [hu, List.append_nil], (List.cons.inj hw).2.symm⟩
    | cons b w =>
      have hmem : a ∈ y := by
        rw [(List.cons.inj hw).2]
        exact List.mem_append_right w List.mem_cons_self
      exact absurd hmem hy

/-- Whether a character is from the blank to the tilde. -/
def isPrintable (c : Char) : Bool := ' ' ≤ c && c ≤ '~'

theorem printable_of_isDigit {c : Char} (h : c.isDigit = true) : isPrintable c = true := by
  have hrange := toNat_of_isDigit h
  have hlow : ' ' ≤ c := by
    show 32 ≤ c.toNat
    omega
  have hhigh : c ≤ '~' := by
    show c.toNat ≤ 126
    omega
  simp only [isPrintable, hlow, hhigh, decide_true, Bool.and_self]

theorem printable_repr {i : Int} {c : Char} (h : c ∈ i.repr.toList) : isPrintable c = true := by
  rcases mem_repr_int h with rfl | hdigit
  · decide
  · exact printable_of_isDigit hdigit

theorem not_mem_repr {c : Char} (hminus : c ≠ '-') (hdigit : c.isDigit = false) (i : Int) : c ∉ i.repr.toList := by
  intro hmem
  rcases mem_repr_int hmem with h | h
  · exact hminus h
  · rw [hdigit] at h
    cases h

theorem ButtonId.text_injective : Function.Injective ButtonId.text := by
  intro a b h
  exact ButtonId.toNat_inj.mp (Nat.repr_inj.mp ((String.append_right_inj _).mp h))

theorem ButtonId.printable_text (id : ButtonId) {c : Char} (h : c ∈ id.text.toList) : isPrintable c = true := by
  rw [text, String.toList_append] at h
  rcases List.mem_append.mp h with hsign | hdigit
  · rw [List.mem_singleton.mp hsign]
    decide
  · exact printable_of_isDigit ((decimal_repr id.toNat).digits c hdigit)

theorem repr_toInt_inj {v w : Int32} : v.toInt.repr = w.toInt.repr ↔ v = w := Int.repr_inj.trans Int32.toInt_inj

namespace Event

def lead : Event → String
  | buttonPressed _ => "button pressed "
  | buttonRepeated _ => "button repeated "
  | buttonReleased _ => "button released "
  | command _ => "command "
  | generic _ _ => "generic "
  | touchPressed _ _ => "touch pressed "
  | touchMoved _ _ => "touch moved "
  | touchReleased => "touch released"

def detail : Event → String
  | buttonPressed id | buttonRepeated id | buttonReleased id => id.text
  | command c => c.name ++ " (" ++ codeText c ++ ")"
  | generic generator value => generator ++ "=" ++ value.toInt.repr
  | touchPressed x y | touchMoved x y => pointText x y
  | touchReleased => ""

def leads : List String :=
  ["button pressed ", "button repeated ", "button released ", "command ", "generic ", "touch pressed ", "touch moved ",
    "touch released"]

theorem text_eq_append (e : Event) : e.text = e.lead ++ e.detail := by
  cases e with
  | command c =>
    show "command " ++ c.name ++ " (" ++ codeText c ++ ")" = "command " ++ (c.name ++ " (" ++ codeText c ++ ")")
    simp only [String.append_assoc]
  | generic generator value =>
    show "generic " ++ generator ++ "=" ++ value.toInt.repr = "generic " ++ (generator ++ "=" ++ value.toInt.repr)
    simp only [String.append_assoc]
  | touchReleased => exact (String.append_empty).symm
  | _ => rfl

theorem lead_mem_leads (e : Event) : e.lead ∈ leads := by
  cases e <;> simp only [lead] <;> decide

/-- No words are the start of others. -/
theorem eq_of_prefix_of_mem_leads : ∀ s ∈ leads, ∀ t ∈ leads, s.toList <+: t.toList → s = t := by decide

theorem eq_parts_of_text_eq {e f : Event} (h : e.text = f.text) : e.lead = f.lead ∧ e.detail = f.detail := by
  rw [text_eq_append, text_eq_append] at h
  have hlists : e.lead.toList ++ e.detail.toList = f.lead.toList ++ f.detail.toList := by
    rw [← String.toList_append, h, String.toList_append]
  have hlead : e.lead = f.lead := by
    rcases List.prefix_or_prefix_of_prefix (List.prefix_append _ _) ⟨_, hlists.symm⟩ with hpre | hpre
    · exact eq_of_prefix_of_mem_leads _ e.lead_mem_leads _ f.lead_mem_leads hpre
    · exact (eq_of_prefix_of_mem_leads _ f.lead_mem_leads _ e.lead_mem_leads hpre).symm
  rw [hlead] at h
  exact ⟨hlead, (String.append_right_inj _).mp h⟩

/-! ## Details -/

theorem toList_pointText (x y : Int32) :
    (pointText x y).toList = ('(' :: x.toInt.repr.toList) ++ ',' :: ' ' :: (y.toInt.repr.toList ++ [')']) := by
  simp [pointText, String.toList_append]

theorem toList_detail_generic (generator : String) (value : Int32) :
    (generic generator value).detail.toList = generator.toList ++ '=' :: value.toInt.repr.toList := by
  simp [detail, String.toList_append]

theorem toList_detail_command (c : Command) :
    (command c).detail.toList = c.name.toList ++ ' ' :: '(' :: ((codeText c).toList ++ [')']) := by
  simp [detail, String.toList_append]

theorem pointText_inj {x y x' y' : Int32} (h : pointText x y = pointText x' y') : x = x' ∧ y = y' := by
  have hcomma : ∀ v : Int32, ',' ∉ ' ' :: (v.toInt.repr.toList ++ [')']) := by
    intro v hmem
    rcases List.mem_cons.mp hmem with hblank | hmem
    · exact absurd hblank (by decide)
    · rcases List.mem_append.mp hmem with hdigit | hend
      · exact not_mem_repr (by decide) (by decide) _ hdigit
      · exact absurd hend (by decide)
  rw [← String.toList_inj, toList_pointText, toList_pointText] at h
  obtain ⟨hleft, hright⟩ := split_last (hcomma y) (hcomma y') h
  constructor
  · exact repr_toInt_inj.mp (String.toList_inj.mp (List.cons.inj hleft).2)
  · exact repr_toInt_inj.mp (String.toList_inj.mp (List.append_cancel_right (List.cons.inj hright).2))

theorem detail_generic_inj {g g' : String} {v v' : Int32} (h : (generic g v).detail = (generic g' v').detail) :
    g = g' ∧ v = v' := by
  have hequals : ∀ w : Int32, '=' ∉ w.toInt.repr.toList := fun w => not_mem_repr (by decide) (by decide) _
  rw [← String.toList_inj, toList_detail_generic, toList_detail_generic] at h
  obtain ⟨hname, hvalue⟩ := split_last (hequals v) (hequals v') h
  exact ⟨String.toList_inj.mp hname, repr_toInt_inj.mp (String.toList_inj.mp hvalue)⟩

theorem detail_command_inj {c d : Command} (h : (command c).detail = (command d).detail) : c = d := by
  have hblank : ∀ b : Command, ' ' ∉ '(' :: ((codeText b).toList ++ [')']) := by
    intro b
    cases b <;> decide
  rw [← String.toList_inj, toList_detail_command, toList_detail_command] at h
  have hname : c.name = d.name := String.toList_inj.mp (split_last (hblank c) (hblank d) h).1
  have hcommand := Command.ofName?_name c
  rw [hname, Command.ofName?_name] at hcommand
  exact (Option.some.inj hcommand).symm

/-- The same words are said of one kind of event only, and the details tell which one it is. -/
theorem eq_of_parts {e f : Event} (hlead : e.lead = f.lead) (hdetail : e.detail = f.detail) : e = f := by
  -- of two different kinds the words differ, so only the pairs of one kind are left
  cases e with
  | buttonPressed id =>
    cases f with
    | buttonPressed id' => rw [ButtonId.text_injective hdetail]
    | _ => simp [lead] at hlead
  | buttonRepeated id =>
    cases f with
    | buttonRepeated id' => rw [ButtonId.text_injective hdetail]
    | _ => simp [lead] at hlead
  | buttonReleased id =>
    cases f with
    | buttonReleased id' => rw [ButtonId.text_injective hdetail]
    | _ => simp [lead] at hlead
  | command c =>
    cases f with
    | command d => rw [detail_command_inj hdetail]
    | _ => simp [lead] at hlead
  | generic g v =>
    cases f with
    | generic g' v' =>
      obtain ⟨hname, hvalue⟩ := detail_generic_inj hdetail
      rw [hname, hvalue]
    | _ => simp [lead] at hlead
  | touchPressed x y =>
    cases f with
    | touchPressed x' y' =>
      obtain ⟨hx, hy⟩ := pointText_inj hdetail
      rw [hx, hy]
    | _ => simp [lead] at hlead
  | touchMoved x y =>
    cases f with
    | touchMoved x' y' =>
      obtain ⟨hx, hy⟩ := pointText_inj hdetail
      rw [hx, hy]
    | _ => simp [lead] at hlead
  | touchReleased =>
    cases f with
    | touchReleased => rfl
    | _ => simp [lead] at hlead

theorem text_injective : Function.Injective text := by
  intro e f h
  obtain ⟨hlead, hdetail⟩ := eq_parts_of_text_eq h
  exact eq_of_parts hlead hdetail

/-! ## Characters -/

theorem printable_of_mem_leads {s : String} (h : s ∈ leads) : ∀ c ∈ s.toList, isPrintable c = true := by
  have hall : leads.all (·.toList.all isPrintable) = true := by decide +kernel
  exact List.all_eq_true.mp (List.all_eq_true.mp hall s h)

theorem printable_detail_command (c : Command) : ∀ ch ∈ (command c).detail.toList, isPrintable ch = true := by
  refine List.all_eq_true.mp ?_
  cases c <;> decide +kernel

theorem printable_pointText (x y : Int32) : ∀ c ∈ (pointText x y).toList, isPrintable c = true := by
  intro c hc
  rw [toList_pointText] at hc
  simp only [List.mem_append, List.mem_cons, List.not_mem_nil, or_false] at hc
  rcases hc with (rfl | hx) | rfl | rfl | hy | rfl
  · decide
  · exact printable_repr hx
  · decide
  · decide
  · exact printable_repr hy
  · decide

/-- A line has no other characters than printable ones, unless the name of a generator brings them in. -/
theorem printable_text {e : Event} (h : ∀ name v, e = generic name v → ∀ c ∈ name.toList, isPrintable c = true) :
    ∀ c ∈ e.text.toList, isPrintable c = true := by
  intro c hc
  rw [text_eq_append, String.toList_append] at hc
  rcases List.mem_append.mp hc with hlead | hdetail
  · exact printable_of_mem_leads e.lead_mem_leads c hlead
  · cases e with
    | buttonPressed id | buttonRepeated id | buttonReleased id => exact id.printable_text hdetail
    | command b => exact printable_detail_command b c hdetail
    | generic name v =>
      rw [toList_detail_generic] at hdetail
      rcases List.mem_append.mp hdetail with hname | hvalue
      · exact h name v rfl c hname
      · rcases List.mem_cons.mp hvalue with rfl | hdigit
        · decide
        · exact printable_repr hdigit
    | touchPressed x y | touchMoved x y => exact printable_pointText x y c hdetail
    | touchReleased => exact absurd hdetail List.not_mem_nil

end Event

end ButtonPanel
