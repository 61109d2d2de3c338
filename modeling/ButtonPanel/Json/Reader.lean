/-
  ButtonPanel.Json.Reader — readers of JSON values. A reader takes lexemes from the front
  and gives a value or the fault that it met; it meets faults in the order of the text.

  A record is read from an object, whose members may come in any order and each at most
  once, or from an array of its members in their own order, which may end early. What
  happens to a member that is missing is up to the record.
-/

import ButtonPanel.Json.Token

namespace ButtonPanel.Json

abbrev Reader := StateT (List Lexeme) (Except Fault)

namespace Reader

/-- The next lexeme. There is always one while a value is open. -/
def take : Reader Lexeme := fun
  | [] => .error .truncated
  | l :: rest => .ok (l, rest)

def skip? (t : Token) : Reader Bool := fun ls =>
  if ls.head? = some (.token t) then .ok (true, ls.tail) else .ok (false, ls)

/-- The fault of a lexeme at a place where a value of another kind is expected. -/
def mismatch : Lexeme → Fault
  | .token .closeBrace | .token .closeBracket | .token .comma | .token .colon => .malformed
  | .brokenText f | .broken f => f
  | _ => .mismatched

def expect (t : Token) : Reader Unit := do
  if (← take) ≠ .token t then throw .malformed

def null : Reader Unit := do
  match ← take with
  | .token .null => return ()
  | l => throw (mismatch l)

def text : Reader String := do
  match ← take with
  | .token (.text s) => return s
  | l => throw (mismatch l)

def integer {α : Type} (meaning : Int → Option α) : Reader α := do
  match ← take with
  | .token (.integer i) =>
    match meaning i with
    | some a => return a
    | none => throw .mismatched
  | l => throw (mismatch l)

/-- The name of a member, or of a choice behind its brace. Whatever else stands there, be it a value
    of another kind or a word that is cut short, the text is no JSON. -/
def name : Reader String := do
  match ← take with
  | .token (.text s) => return s
  | .brokenText f => throw f
  | _ => throw .malformed

/-- One of several named values: its name, or an object with that name and null. -/
def choice {α : Type} (ofName? : String → Option α) : Reader α := do
  match ← take with
  | .token (.text s) => named s
  | .brokenText f => throw f
  | .token .openBrace =>
    let a ← named (← name)
    expect .colon
    null
    expect .closeBrace
    return a
  | _ => throw .malformed
where
  /-- The value with a name. -/
  named (s : String) : Reader α :=
    match ofName? s with
    | some a => return a
    | none => throw .mismatched

/-- A list of values; `item` is a reader that takes something. -/
def list {α : Type} (item : Reader α) : Reader (List α) := do
  match ← take with
  | .token .openBracket =>
    if ← skip? .closeBracket then return []
    items (← get).length
  | l => throw (mismatch l)
where
  /-- The items from here to the closing bracket, of which there are at most as many as lexemes. -/
  items : Nat → Reader (List α)
    | 0 => throw .truncated
    | n + 1 => do
      let a ← item
      match ← take with
      | .token .closeBracket => return [a]
      | .token .comma => return a :: (← items n)
      | _ => throw .malformed

end Reader

structure Field (δ : Type) where
  name : String
  read : δ → Reader δ

namespace Field

variable {δ : Type}

/-- The member with a name, and the others. -/
def pick? (key : String) : List (Field δ) → Option (Field δ × List (Field δ))
  | [] => none
  | m :: ms => if m.name = key then some (m, ms) else (pick? key ms).map fun (x, others) => (x, m :: others)

theorem length_of_pick? {key : String} {ms others : List (Field δ)} {m : Field δ}
    (h : pick? key ms = some (m, others)) : others.length < ms.length := by
  induction ms generalizing m others with
  | nil => cases h
  | cons x ms ih =>
    simp only [pick?] at h
    split at h
    · cases h; simp
    · cases hp : pick? key ms with
      | none => simp [hp] at h
      | some p =>
        simp only [hp, Option.map_some, Option.some.injEq, Prod.mk.injEq] at h
        have := ih hp
        simp only [← h.2, List.length_cons]; omega

end Field

namespace Reader

variable {δ α : Type}

/-- The rest of an object from the value of a member on. A member that was read is no longer
    among those to come, so a second one of its name is as unknown as any other. -/
def members (fields : List (Field δ)) (key : String) (draft : δ) : Reader δ :=
  match _h : Field.pick? key fields with
  | none => throw .mismatched
  | some (m, others) => do
    expect .colon
    let draft ← m.read draft
    match ← take with
    | .token .closeBrace => return draft
    | .token .comma => members others (← name) draft
    | _ => throw .malformed
termination_by fields.length
decreasing_by exact Field.length_of_pick? _h

def object (fields : List (Field δ)) (draft : δ) : Reader δ := do
  if ← skip? .closeBrace then return draft
  members fields (← name) draft

def elements : List (Field δ) → δ → Reader δ
  | [], draft => do
    expect .closeBracket
    return draft
  | m :: ms, draft => do
    match ← take with
    | .token .closeBracket => return draft
    | .token .comma => elements ms (← m.read draft)
    | _ => throw .malformed

def array (fields : List (Field δ)) (draft : δ) : Reader δ := do
  if ← skip? .closeBracket then return draft
  match fields with
  | [] => throw .malformed
  | m :: ms => elements ms (← m.read draft)

def record (fields : List (Field δ)) (draft : δ) (finish : δ → Option α) : Reader α := do
  let draft ← match ← take with
    | .token .openBrace => object fields draft
    | .token .openBracket => array fields draft
    | l => throw (mismatch l)
  match finish draft with
  | some a => return a
  | none => throw .mismatched

def parse (r : Reader α) (s : String) : Except Fault α :=
  match r.run (Lexeme.scan s.toList) with
  | .ok (a, []) => .ok a
  | .ok (_, _ :: _) => .error .malformed
  | .error f => .error f

end Reader

end ButtonPanel.Json
