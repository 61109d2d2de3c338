/-
  ButtonPanel.Files — files as far as a program reads them: a path leads to bytes or to
  the reason why there are none. A text file holds UTF-8.
-/

namespace ButtonPanel

inductive ReadFault
  | missing
  /-- A name on the way is that of a file. -/
  | notDirectory
  | isDirectory
  | nameTooLong
  /-- The path holds the character that ends a path. -/
  | nulInName
  | notText
  /-- Another reason, in the words of the system. -/
  | system (reason : String)
  deriving DecidableEq, Repr

def ReadFault.message : ReadFault → String
  | missing => "No such file or directory (os error 2)"
  | notDirectory => "Not a directory (os error 20)"
  | isDirectory => "Is a directory (os error 21)"
  | nameTooLong => "File name too long (os error 36)"
  | nulInName => "file name contained an unexpected NUL byte"
  | notText => "stream did not contain valid UTF-8"
  | system reason => reason

/-- What each path leads to. -/
abbrev Files := String → Except ReadFault ByteArray

def Files.readText (files : Files) (path : String) : Except ReadFault String :=
  match files path with
  | .error f => .error f
  | .ok bytes =>
    match String.fromUTF8? bytes with
    | some text => .ok text
    | none => .error .notText

end ButtonPanel
