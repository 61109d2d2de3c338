/-
  ButtonPanel.Files.Folder — the files below one folder, which is the place that relative
  paths start from. A path is followed name by name, each from the directory that the
  names before it lead to, and the first name that leads nowhere is the fault. Outside of
  the folder there are directories, but no file is known.
-/

import ButtonPanel.Files

namespace ButtonPanel

structure Folder where
  /-- The names that lead to a file, and what it holds. -/
  entries : List (List String × ByteArray) := []

namespace Folder

inductive Place
  | inside (names : List String)
  | outside
  | nowhere
  deriving DecidableEq, Repr

namespace Place

def child : Place → String → Place
  | inside names, name => inside (names ++ [name])
  | outside, _ | nowhere, _ => nowhere

def parent : Place → Place
  | inside [] | outside => outside
  | inside names => inside names.dropLast
  | nowhere => nowhere

end Place

inductive Node
  | directory
  | file (bytes : ByteArray)

/-- The longest name, in bytes. -/
def nameLimit : Nat := 255

/-- Paths of this many bytes are too long. -/
def pathLimit : Nat := 4096

def names (path : String) : List String := path.splitOn "/"

def ofList (files : List (String × ByteArray)) : Folder where
  entries := files.map fun (path, bytes) => (names path, bytes)

/-- A place is a directory if it is the folder itself, or if more names lead on to a file. -/
def node? (f : Folder) : Place → Option Node
  | .outside => some .directory
  | .nowhere => none
  | .inside names =>
    match f.entries.lookup names with
    | some bytes => some (.file bytes)
    | none => if names = [] ∨ f.entries.any (names.isPrefixOf ·.1) then some .directory else none

def follow (f : Folder) (place : Place) : List String → Except ReadFault ByteArray
  | [] =>
    match f.node? place with
    | none => .error .missing
    | some .directory => .error .isDirectory
    | some (.file bytes) => .ok bytes
  | name :: rest =>
    match f.node? place with
    | none => .error .missing
    | some (.file _) => .error .notDirectory
    | some .directory =>
      if name = "" ∨ name = "." then f.follow place rest
      else if name = ".." then f.follow place.parent rest
      else if nameLimit < name.utf8ByteSize then .error .nameTooLong
      else f.follow (place.child name) rest

/-- A path that starts with a slash starts outside. -/
def files (f : Folder) : Files := fun path =>
  if path.toList.contains '\x00' then .error .nulInName
  else if path = "" then .error .missing
  else if pathLimit ≤ path.utf8ByteSize then .error .nameTooLong
  else f.follow (if path.toList.head? = some '/' then .outside else .inside []) (names path)

end Folder

end ButtonPanel
