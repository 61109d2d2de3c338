/-
  ButtonPanel.Proofs.Json.Spelling — texts that spell tokens. A text spells tokens if it holds
  spellings of them in order (`Token.Spelt`), with any blanks between them (`Spells`). Such a text
  is read as just those tokens (`Spells.scan`), whatever they are. The only condition is on
  integers: each has to fit 64 bits, and nothing behind it may go on with its numeral. Without any
  blanks that is so if no two integers are neighbours (`Scannable.spells`), and tokens remain
  without such neighbours when they are put together with another token between them
  (`scannable_append_cons`).
-/

import Mathlib.Data.List.Chain
import ButtonPanel.Proofs.Json.Numeral
import ButtonPanel.Proofs.Json.Quoted

namespace ButtonPanel.Json

namespace Token

def isInteger : Token → Bool
  | integer _ => true
  | _ => false

def Fits : Token → Prop
  | integer i => FitsWord i
  | _ => True

theorem fits_of_not_isInteger {t : Token} (h : t.isInteger = false) : t.Fits := by
  cases t with
  | integer i => cases h
  | _ => trivial

/-- The ways to spell a token. Only the characters of a text can be written in several ways. -/
inductive Spelt : Token → List Char → Prop
  | word (t : Token) : Spelt t t.spelling
  | text {s : String} {vs : List (List Char)} :
      List.Forall₂ Quoted.Writes s.toList vs → Spelt (text s) ('"' :: (vs.flatten ++ ['"']))

end Token

inductive Spells : List Char → List Token → Prop
  | nil : Spells [] []
  | blank {c : Char} {s : List Char} {ts : List Token} : isBlank c = true → Spells s ts → Spells (c :: s) ts
  | token {t : Token} {v s : List Char} {ts : List Token} :
      t.Spelt v → t.Fits → (t.isInteger = true → Numeral.Ends s) → Spells s ts → Spells (v ++ s) (t :: ts)

/-! ## Reading what is spelt -/

namespace Lexeme

theorem scan_blank {c : Char} (h : isBlank c = true) (s : List Char) : scan (c :: s) = scan s := by
  rw [scan, if_pos h]

theorem scan_word {c : Char} {s rest : List Char} {l : Lexeme} (hc : isBlank c = false) (h : next c s = (l, rest)) :
    scan (c :: s) = l :: scan rest := by
  rw [scan, if_neg (by rw [hc]; decide), h]

theorem next_numeral {c : Char} (h : c = '-' ∨ c.isDigit = true) (s : List Char) :
    next c s = number (c :: s) := by
  unfold next
  split
  case h_11 => rw [if_pos (by simpa using h)]
  all_goals exact absurd h (by decide)

theorem isBlank_numeral {c : Char} (h : c = '-' ∨ c.isDigit = true) : isBlank c = false := by
  rw [Bool.eq_false_iff]
  intro hblank
  simp only [isBlank, Bool.or_eq_true, decide_eq_true_eq] at hblank
  rcases hblank with ((rfl | rfl) | rfl) | rfl <;> exact absurd h (by decide)

theorem scan_text {s : String} {vs : List (List Char)} (h : List.Forall₂ Quoted.Writes s.toList vs)
    (rest : List Char) : scan ('"' :: (vs.flatten ++ '"' :: rest)) = .token (.text s) :: scan rest := by
  refine scan_word (by decide) ?_
  show quoted (vs.flatten ++ '"' :: rest) = _
  simp only [quoted, Quoted.decode_writes h rest, String.ofList_toList]

theorem scan_spelling {t : Token} (hfits : t.Fits) {rest : List Char} (hends : t.isInteger = true → Numeral.Ends rest) :
    scan (t.spelling ++ rest) = .token t :: scan rest := by
  cases t with
  | text s =>
    have hspelt : (Token.text s).spelling ++ rest =
        '"' :: ((s.toList.map Quoted.encodeChar).flatten ++ '"' :: rest) := by
      simp [Token.spelling, Quoted.encode, List.flatMap]
    rw [hspelt]
    exact scan_text (Quoted.writes_encode s.toList) rest
  | integer i =>
    obtain ⟨c, s, hs, hc⟩ := Numeral.exists_cons_repr i
    have hnumber := number_repr hfits (hends rfl)
    rw [hs] at hnumber
    rw [Token.spelling, hs]
    exact scan_word (isBlank_numeral hc) ((next_numeral hc (s ++ rest)).trans hnumber)
  | bool b => cases b <;> exact scan_word (by decide) rfl
  | _ => exact scan_word (by decide) rfl

theorem scan_spelt {t : Token} {v : List Char} (h : t.Spelt v) (hfits : t.Fits) {rest : List Char}
    (hends : t.isInteger = true → Numeral.Ends rest) : scan (v ++ rest) = .token t :: scan rest := by
  cases h with
  | word => exact scan_spelling hfits hends
  | @text s vs hvs =>
    rw [List.cons_append, List.append_assoc]
    exact scan_text hvs rest

end Lexeme

theorem Spells.scan {s : List Char} {ts : List Token} (h : Spells s ts) : Lexeme.scan s = ts.map .token := by
  induction h with
  | nil => rw [Lexeme.scan, List.map_nil]
  | blank hc _ ih => rw [Lexeme.scan_blank hc, ih]
  | token hspelt hfits hends _ ih => rw [Lexeme.scan_spelt hspelt hfits hends, ih, List.map_cons]

/-! ## Spelling without blanks -/

structure Scannable (ts : List Token) : Prop where
  fits : ∀ t ∈ ts, t.Fits
  apart : ts.IsChain fun t u => ¬ (t.isInteger = true ∧ u.isInteger = true)

theorem scannable_nil : Scannable [] := ⟨nofun, List.isChain_nil⟩

theorem scannable_singleton {t : Token} (h : t.Fits) : Scannable [t] :=
  ⟨fun _ hu => List.mem_singleton.mp hu ▸ h, List.isChain_singleton t⟩

/-- A token that is no integer keeps what stands on either side of it apart. -/
theorem scannable_append_cons {d : Token} (hd : d.isInteger = false) {ts us : List Token} :
    Scannable (ts ++ d :: us) ↔ Scannable ts ∧ Scannable us := by
  constructor
  · rintro ⟨hfits, hapart⟩
    obtain ⟨hts, hus, -⟩ := List.isChain_append.mp hapart
    exact ⟨⟨fun t ht => hfits t (List.mem_append_left _ ht), hts⟩,
      ⟨fun t ht => hfits t (List.mem_append_right _ (List.mem_cons_of_mem d ht)), (List.isChain_cons.mp hus).2⟩⟩
  · rintro ⟨⟨htsFits, hts⟩, husFits, hus⟩
    have hbehind : (d :: us).IsChain fun t u => ¬ (t.isInteger = true ∧ u.isInteger = true) :=
      List.isChain_cons.mpr ⟨fun u _ h => Bool.false_ne_true (hd.symm.trans h.1), hus⟩
    refine ⟨fun t ht => ?_, List.isChain_append.mpr ⟨hts, hbehind, ?_⟩⟩
    · rcases List.mem_append.mp ht with ht | ht
      · exact htsFits t ht
      · rcases List.mem_cons.mp ht with rfl | ht
        · exact Token.fits_of_not_isInteger hd
        · exact husFits t ht
    · rintro t - u hu ⟨-, h⟩
      rw [List.head?_cons, Option.mem_some] at hu
      exact Bool.false_ne_true (hd.symm.trans (hu ▸ h))

theorem scannable_cons {d : Token} (hd : d.isInteger = false) {us : List Token} :
    Scannable (d :: us) ↔ Scannable us := by
  have hnone : Scannable ([] ++ d :: us) ↔ Scannable [] ∧ Scannable us := scannable_append_cons hd
  exact hnone.trans (and_iff_right scannable_nil)

theorem ends_spelling {t : Token} (h : t.isInteger = false) (rest : List Char) : Numeral.Ends (t.spelling ++ rest) := by
  cases t with
  | integer i => cases h
  | bool b => cases b <;> (rintro c ⟨⟩; decide)
  | _ => rintro c ⟨⟩; decide

/-- The first of such tokens is read as itself, and what is written behind it does not go on with it. -/
theorem Scannable.of_cons {t : Token} {ts : List Token} (h : Scannable (t :: ts)) :
    t.Fits ∧ (t.isInteger = true → Numeral.Ends (ts.flatMap Token.spelling)) ∧ Scannable ts := by
  obtain ⟨hfits, hapart⟩ := h
  obtain ⟨hhead, htail⟩ := List.isChain_cons.mp hapart
  refine ⟨hfits t List.mem_cons_self, fun ht => ?_, fun u hu => hfits u (List.mem_cons_of_mem t hu), htail⟩
  cases ts with
  | nil => exact Numeral.ends_nil
  | cons u us =>
    rw [List.flatMap_cons]
    exact ends_spelling (Bool.eq_false_iff.mpr fun hu => hhead u rfl ⟨ht, hu⟩) _

theorem Scannable.spells {ts : List Token} (h : Scannable ts) : Spells (ts.flatMap Token.spelling) ts := by
  induction ts with
  | nil => exact .nil
  | cons t ts ih =>
    obtain ⟨hfits, hends, hlater⟩ := h.of_cons
    rw [List.flatMap_cons]
    exact .token (.word t) hfits hends (ih hlater)

end ButtonPanel.Json
