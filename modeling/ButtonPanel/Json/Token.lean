/-
  ButtonPanel.Json.Token — the words of a JSON text. A token has one spelling when it is
  written. A text is read as lexemes: its tokens in order, up to the first word that
  breaks off; blanks between words do not matter.
-/

import ButtonPanel.Json.Number
import ButtonPanel.Json.Quoted

namespace ButtonPanel.Json

inductive Token
  | openBrace
  | closeBrace
  | openBracket
  | closeBracket
  | comma
  | colon
  | null
  | bool (b : Bool)
  | text (s : String)
  | integer (i : Int)
  deriving DecidableEq, Repr

/-- A word as it was read. No document here holds a real, so of a real only the kind is kept. -/
inductive Lexeme
  | token (t : Token)
  | real
  /-- Text between quotes that breaks off. -/
  | brokenText (f : Fault)
  /-- Any other word that breaks off, or a character that starts no word. -/
  | broken (f : Fault)
  deriving DecidableEq, Repr

/-! ## Writing -/

def Token.spelling : Token → List Char
  | openBrace => ['{']
  | closeBrace => ['}']
  | openBracket => ['[']
  | closeBracket => [']']
  | comma => [',']
  | colon => [':']
  | null => ['n', 'u', 'l', 'l']
  | bool true => ['t', 'r', 'u', 'e']
  | bool false => ['f', 'a', 'l', 's', 'e']
  | text s => '"' :: (Quoted.encode s.toList ++ ['"'])
  | integer i => i.repr.toList

/-- Tokens written one after the other, without blanks. -/
def compact (ts : List Token) : String := String.ofList (ts.flatMap Token.spelling)

/-! ## Reading -/

def isBlank (c : Char) : Bool := c = ' ' || c = '\t' || c = '\n' || c = '\r'

namespace Lexeme

def literal (t : Token) : List Char → List Char → Lexeme × List Char
  | [], s => (token t, s)
  | _ :: _, [] => (broken .truncated, [])
  | e :: es, c :: s => if c = e then literal t es s else (broken .malformed, [])

def quoted (s : List Char) : Lexeme × List Char :=
  match Quoted.decode s with
  | .ok (t, rest) => (token (.text (String.ofList t)), rest)
  | .error f => (brokenText f, [])

def number (s : List Char) : Lexeme × List Char :=
  match Numeral.scan s with
  | .error f => (broken f, [])
  | .ok (n, rest) =>
    match n.value with
    | .ok (.integer i) => (token (.integer i), rest)
    | .ok .real => (real, rest)
    | .error f => (broken f, [])

def next (c : Char) (rest : List Char) : Lexeme × List Char :=
  match c with
  | '{' => (token .openBrace, rest)
  | '}' => (token .closeBrace, rest)
  | '[' => (token .openBracket, rest)
  | ']' => (token .closeBracket, rest)
  | ',' => (token .comma, rest)
  | ':' => (token .colon, rest)
  | '"' => quoted rest
  | 'n' => literal .null ['u', 'l', 'l'] rest
  | 't' => literal (.bool true) ['r', 'u', 'e'] rest
  | 'f' => literal (.bool false) ['a', 'l', 's', 'e'] rest
  | c => if c = '-' || c.isDigit then number (c :: rest) else (broken .malformed, [])

theorem length_literal (t : Token) (es s : List Char) : (literal t es s).2.length ≤ s.length := by
  fun_induction literal t es s with
  | case1 => exact Nat.le_refl _
  | case2 => exact Nat.le_refl _
  | case3 es c s ih => simp only [List.length_cons]; omega
  | case4 => simp

theorem length_quoted (s : List Char) : (quoted s).2.length ≤ s.length := by
  unfold quoted
  split
  · next h => exact Nat.le_of_lt (Quoted.length_of_decode h)
  · simp

theorem length_number (c : Char) (s : List Char) : (number (c :: s)).2.length ≤ s.length := by
  unfold number
  split
  · simp
  · next h =>
    have := Numeral.length_of_scan h
    simp only [List.length_cons] at this
    split <;> simp <;> omega

theorem length_next (c : Char) (s : List Char) : (next c s).2.length ≤ s.length := by
  unfold next
  split <;> first
    | exact Nat.le_refl _
    | exact length_quoted _
    | exact length_literal _ _ _
    | skip
  split
  · exact length_number _ _
  · simp

def scan (s : List Char) : List Lexeme :=
  match s with
  | [] => []
  | c :: rest =>
    if isBlank c then scan rest
    else
      let word := next c rest
      word.1 :: scan word.2
termination_by s.length
decreasing_by
  · simp
  · have := length_next c rest
    simp only [List.length_cons]; omega

end Lexeme

end ButtonPanel.Json
