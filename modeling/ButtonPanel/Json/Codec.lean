/-
  ButtonPanel.Json.Codec — a way to read and to write the values of a type. Written
  documents are compact: the members of a record in their order, and no blanks.
-/

import ButtonPanel.Json.Reader

namespace ButtonPanel.Json

structure Codec (α : Type) where
  read : Reader α
  write : α → List Token

structure Member (δ α : Type) extends Field δ where
  write : α → List Token

/-- A member with a codec of its own: `put` adds its value to a draft, `get` finds it in a
    record. -/
def Member.of {α β δ : Type} (name : String) (c : Codec β) (put : δ → β → δ) (get : α → β) : Member δ α where
  name := name
  read d := return put d (← c.read)
  write a := c.write (get a)

namespace Codec

variable {α δ : Type}

def decode (c : Codec α) (text : String) : Except Fault α := c.read.parse text

def encode (c : Codec α) (a : α) : String := compact (c.write a)

def integer (ofInt? : Int → Option α) (toInt : α → Int) : Codec α where
  read := Reader.integer ofInt?
  write a := [.integer (toInt a)]

def text : Codec String where
  read := Reader.text
  write s := [.text s]

def choice (ofName? : String → Option α) (name : α → String) : Codec α where
  read := Reader.choice ofName?
  write a := [.text (name a)]

def list (c : Codec α) : Codec (List α) where
  read := Reader.list c.read
  write as := .openBracket :: [Token.comma].intercalate (as.map c.write) ++ [.closeBracket]

/-- Records with the given members. Reading starts from a draft, and `finish` may find that too little was read. -/
def record (members : List (Member δ α)) (draft : δ) (finish : δ → Option α) : Codec α where
  read := Reader.record (members.map (·.toField)) draft finish
  write a :=
    .openBrace :: [Token.comma].intercalate (members.map fun m => .text m.name :: .colon :: m.write a) ++ [.closeBrace]

end Codec

end ButtonPanel.Json
