/-
  ButtonPanel.Proofs.Json.Sketch — documents of which only a part is given. A sketch is the tokens
  of a document with gaps between them; a text fills it if it holds spellings of the tokens, with any
  blanks between them and any text at all in the gaps (`Fills`).

  A reader takes a sketch as a value if it has no gaps and its tokens are read as that value
  (`Takes`). It turns a sketch down if it rejects the tokens at its front, so that neither gaps
  nor anything else behind them matters (`TurnsDown`). Either way every text that fills the
  sketch is read alike (`Takes.parse`, `TurnsDown.parse`).
-/

import ButtonPanel.Proofs.Json.Rejection

namespace ButtonPanel.Json

/-- The tokens of a document, and gaps where anything may stand. -/
abbrev Sketch := List (Option Token)

namespace Sketch

def ofTokens (ts : List Token) : Sketch := ts.map some

abbrev Member := String × Sketch

def Member.sketch (m : Member) : Sketch := some (.text m.1) :: some .colon :: m.2

def object (ms : List Member) : Sketch :=
  some .openBrace :: ([some Token.comma].intercalate (ms.map Member.sketch) ++ [some .closeBrace])

def array (items : List Sketch) : Sketch :=
  some .openBracket :: ([some Token.comma].intercalate items ++ [some .closeBracket])

theorem ofTokens_append (ts us : List Token) : ofTokens (ts ++ us) = ofTokens ts ++ ofTokens us := List.map_append

theorem ofTokens_cons (t : Token) (ts : List Token) : ofTokens (t :: ts) = some t :: ofTokens ts := rfl

theorem ofTokens_flatMap {α : Type} (f : α → List Token) (xs : List α) :
    ofTokens (xs.flatMap f) = xs.flatMap fun x => ofTokens (f x) := List.map_flatMap

theorem ofTokens_intercalate (tss : List (List Token)) :
    ofTokens ([Token.comma].intercalate tss) = [some Token.comma].intercalate (tss.map ofTokens) := by
  cases tss with
  | nil => rfl
  | cons ts tss =>
    rw [List.map_cons, intercalate_cons, intercalate_cons, ofTokens_append, ofTokens_flatMap, List.flatMap_map]
    rfl

/-- What stands in front of an item, behind items without gaps. -/
theorem intercalate_behind (tss : List (List Token)) (k : Sketch) (after : List Sketch) :
    [some Token.comma].intercalate (tss.map ofTokens ++ k :: after) =
      ofTokens (tss.flatMap (· ++ [Token.comma])) ++ (k ++ after.flatMap (some Token.comma :: ·)) := by
  rw [intercalate_append_cons, ofTokens_flatMap, List.flatMap_map]
  simp only [ofTokens_append]
  rfl

end Sketch

inductive Fills : List Char → Sketch → Prop
  | nil : Fills [] []
  | blank {c : Char} {s : List Char} {k : Sketch} : isBlank c = true → Fills s k → Fills (c :: s) k
  | token {t : Token} {v s : List Char} {k : Sketch} :
      t.Spelt v → t.Fits → (t.isInteger = true → Numeral.Ends s) → Fills s k → Fills (v ++ s) (some t :: k)
  | gap {s : List Char} {k : Sketch} (v : List Char) : Fills s k → Fills (v ++ s) (none :: k)

/-- Tokens that are no integers may stand anywhere as they are spelt. -/
theorem Fills.tokens (ts : List Token) (hts : ∀ t ∈ ts, t.isInteger = false) {s : List Char} {k : Sketch}
    (h : Fills s k) : Fills (ts.flatMap Token.spelling ++ s) (Sketch.ofTokens ts ++ k) := by
  induction ts with
  | nil => exact h
  | cons t ts ih =>
    obtain ⟨ht, hts⟩ := List.forall_mem_cons.mp hts
    rw [List.flatMap_cons, List.append_assoc]
    exact .token (.word t) (Token.fits_of_not_isInteger ht) (fun hi => absurd (ht.symm.trans hi) Bool.false_ne_true) (ih hts)

/-- The tokens at the front of a sketch are read from every text that fills it. -/
theorem Fills.scan {s : List Char} {ts : List Token} {k : Sketch} (h : Fills s (Sketch.ofTokens ts ++ k)) :
    ∃ rest, Lexeme.scan s = ts.map .token ++ rest := by
  generalize hsk : Sketch.ofTokens ts ++ k = sk at h
  induction h generalizing ts with
  | nil =>
    obtain ⟨rfl, rfl⟩ : ts = [] ∧ k = [] := by simpa [Sketch.ofTokens] using hsk
    exact ⟨_, rfl⟩
  | blank hc _ ih =>
    rw [Lexeme.scan_blank hc]
    exact ih hsk
  | token hspelt hfits hends _ ih =>
    cases ts with
    | nil => exact ⟨_, rfl⟩
    | cons t ts =>
      obtain ⟨ht, hk⟩ := List.cons_eq_cons.mp hsk
      cases ht
      obtain ⟨rest, hrest⟩ := ih hk
      exact ⟨rest, by rw [Lexeme.scan_spelt hspelt hfits hends, hrest]; rfl⟩
  | gap v _ _ =>
    cases ts with
    | nil => exact ⟨_, rfl⟩
    | cons t ts => cases (List.cons_eq_cons.mp hsk).1

/-- A text that fills a sketch without gaps spells its tokens. -/
theorem Fills.spells {s : List Char} {ts : List Token} (h : Fills s (Sketch.ofTokens ts)) : Spells s ts := by
  generalize hsk : Sketch.ofTokens ts = sk at h
  induction h generalizing ts with
  | nil =>
    obtain rfl : ts = [] := List.map_eq_nil_iff.mp hsk
    exact .nil
  | blank hc _ ih => exact .blank hc (ih hsk)
  | token hspelt hfits hends _ ih =>
    obtain ⟨t, ts, rfl, ht, hk⟩ := List.map_eq_cons_iff.mp hsk
    cases ht
    exact .token hspelt hfits hends (ih hk)
  | gap v _ _ =>
    obtain ⟨t, ts, -, ht, -⟩ := List.map_eq_cons_iff.mp hsk
    cases ht

namespace Reader

variable {α : Type}

/-- Whether a reader reads a sketch as a value. -/
def Takes (r : Reader α) (k : Sketch) (a : α) : Prop := ∃ ts, k = Sketch.ofTokens ts ∧ r.Reads ts a

/-- Whether a reader fails on the first tokens of a sketch. -/
def TurnsDown (r : Reader α) (k : Sketch) (f : Fault) : Prop :=
  ∃ t ts rest, k = Sketch.ofTokens (t :: ts) ++ rest ∧ r.Rejects (t :: ts) f

theorem Takes.parse {r : Reader α} {k : Sketch} {a : α} (h : r.Takes k a) {s : String} (hs : Fills s.toList k) :
    r.parse s = .ok a := by
  obtain ⟨ts, rfl, hreads⟩ := h
  exact hreads.parse hs.spells

theorem TurnsDown.parse {r : Reader α} {k : Sketch} {f : Fault} (h : r.TurnsDown k f) {s : String}
    (hs : Fills s.toList k) : r.parse s = .error f := by
  obtain ⟨t, ts, k, rfl, hrejects⟩ := h
  obtain ⟨rest, hrest⟩ := hs.scan
  have hrun : r.run (Lexeme.scan s.toList) = .error f := by
    rw [hrest]
    exact hrejects rest
  rw [Reader.parse, hrun]

/-! ## Lists of objects -/

theorem starts_of_object {ms : List Sketch.Member} {t : Token} {ts : List Token} {k : Sketch}
    (h : Sketch.object ms = Sketch.ofTokens (t :: ts) ++ k) : t ≠ .closeBracket := by
  obtain ⟨ht, -⟩ := List.cons_eq_cons.mp h
  cases ht
  exact nofun

theorem exists_tokens {item : Reader α} {ks : List Sketch} {as : List α} (h : List.Forall₂ item.Takes ks as)
    (hobjects : ∀ k ∈ ks, ∃ ms, k = Sketch.object ms) :
    ∃ tss, ks = tss.map Sketch.ofTokens ∧ List.Forall₂ item.Reads tss as ∧
      ∀ ts ∈ tss, ∃ t us, ts = t :: us ∧ t ≠ .closeBracket := by
  induction h with
  | nil => exact ⟨[], rfl, .nil, nofun⟩
  | @cons k a ks as hk _ ih =>
    obtain ⟨ts, rfl, hts⟩ := hk
    obtain ⟨ms, hms⟩ := hobjects _ List.mem_cons_self
    obtain ⟨tss, rfl, htss, hstart⟩ := ih fun k hk => hobjects k (List.mem_cons_of_mem _ hk)
    refine ⟨ts :: tss, rfl, .cons hts htss, List.forall_mem_cons.mpr ⟨?_, hstart⟩⟩
    cases ts with
    | nil => cases hms
    | cons t us => exact ⟨t, us, rfl, starts_of_object (hms.symm.trans (List.append_nil _).symm)⟩

theorem Takes.list {item : Reader α} {ks : List Sketch} {as : List α} (h : List.Forall₂ item.Takes ks as)
    (hobjects : ∀ k ∈ ks, ∃ ms, k = Sketch.object ms) : (list item).Takes (Sketch.array ks) as := by
  obtain ⟨tss, rfl, htss, hstart⟩ := exists_tokens h hobjects
  refine ⟨_, ?_, reads_list htss hstart⟩
  rw [Sketch.array, ← Sketch.ofTokens_intercalate]
  exact (Sketch.ofTokens_append _ [Token.closeBracket] ▸ rfl)

/-- A list is turned down if one of its items is, behind others that can be read. -/
theorem TurnsDown.list {item : Reader α} {ks : List Sketch} {as : List α} (h : List.Forall₂ item.Takes ks as)
    {k : Sketch} {f : Fault} (hbad : item.TurnsDown k f) (hobjects : ∀ x ∈ ks ++ [k], ∃ ms, x = Sketch.object ms)
    (after : List Sketch) : (Reader.list item).TurnsDown (Sketch.array (ks ++ k :: after)) f := by
  obtain ⟨tss, rfl, htss, hstart⟩ := exists_tokens h fun x hx => hobjects x (List.mem_append_left _ hx)
  obtain ⟨ms, hms⟩ := hobjects k (List.mem_append_right _ List.mem_cons_self)
  obtain ⟨t, ts, rest, rfl, hts⟩ := hbad
  have hne := starts_of_object hms.symm
  refine ⟨_, _, rest ++ (after.flatMap (some Token.comma :: ·) ++ [some .closeBracket]), ?_, rejects_list htss hts ?_⟩
  · simp only [Sketch.array, Sketch.intercalate_behind, Sketch.ofTokens_cons, Sketch.ofTokens_append, List.cons_append,
      List.append_assoc]
  · intro us hus
    rcases List.mem_append.mp hus with hus | hus
    · exact hstart us hus
    · exact ⟨t, ts, List.mem_singleton.mp hus, hne⟩

end Reader

end ButtonPanel.Json
