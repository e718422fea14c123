/-!
# Folders

The files below one folder, and what a path read from there leads to. The folder's surroundings
hold nothing that can be seen from it.
-/

namespace ScriptScan

/-- Why no text can be had at a path. -/
inductive ReadFault where
  | notFound
  | notDirectory
  | isDirectory
  | notText
  | other (reason : String)
  deriving DecidableEq, Repr

namespace ReadFault

def message : ReadFault → String
  | notFound => "No such file or directory (os error 2)"
  | notDirectory => "Not a directory (os error 20)"
  | isDirectory => "Is a directory (os error 21)"
  | notText => "stream did not contain valid UTF-8"
  | other reason => reason

end ReadFault

def decodeText (bytes : ByteArray) : Except ReadFault String :=
  match String.fromUTF8? bytes with
  | some text => .ok text
  | none => .error .notText

/-- The parts of a text between its slashes. -/
def splitSlashes (cs : List Char) : List (List Char) :=
  cs.foldr
    (fun c parts =>
      if c = '/' then [] :: parts
      else match parts with
        | [] => [[c]]
        | part :: parts => (c :: part) :: parts)
    [[]]

def pathParts (path : String) : List String := (splitSlashes path.toList).map String.ofList

/-- A part of a path that leads away from where it stands. -/
def isName (part : String) : Bool := part != "" && part != "."

/-- The last name in a path; none if the path ends by going up or names nothing. -/
def fileName? (path : String) : Option String :=
  match ((pathParts path).filter isName).getLast? with
  | some ".." => none
  | last => last

/-- Files by the names that lead to them. -/
structure Folder where
  files : List (List String × ByteArray)

namespace Folder

/-- What a list of names leads to. -/
inductive Entry where
  | file (bytes : ByteArray)
  | directory
  | missing

def entry (f : Folder) (names : List String) : Entry :=
  match f.files.find? fun file => file.1 == names with
  | some file => .file file.2
  | none =>
    if names.isEmpty || f.files.any fun file => names.isPrefixOf file.1 then .directory
    else .missing

/-- The entry at a place: some names below the folder, or outside it. -/
def entryAt (f : Folder) : Option (List String) → Entry
  | some names => f.entry names
  | none => .directory

/-- The place that one part of a path leads to from a directory. Outside the folder no name leads
anywhere. -/
def step (part : String) (place : Option (List String)) : Except ReadFault (Option (List String)) :=
  if part = "" ∨ part = "." then .ok place
  else if part = ".." then
    match place with
    | some (name :: names) => .ok (some ((name :: names).dropLast))
    | _ => .ok none
  else match place with
    | some names => .ok (some (names ++ [part]))
    | none => .error .notFound

def follow (f : Folder) (place : Option (List String)) : List String → Except ReadFault ByteArray
  | [] =>
    match f.entryAt place with
    | .file bytes => .ok bytes
    | .directory => .error .isDirectory
    | .missing => .error .notFound
  | part :: parts =>
    match f.entryAt place with
    | .file _ => .error .notDirectory
    | .missing => .error .notFound
    | .directory => (step part place).bind fun place => f.follow place parts

/-- The bytes at a path; one that begins with a slash begins outside the folder. -/
def bytes (f : Folder) (path : String) : Except ReadFault ByteArray :=
  match pathParts path with
  | [""] => .error .notFound
  | "" :: parts => f.follow none parts
  | parts => f.follow (some []) parts

def read (f : Folder) (path : String) : Except ReadFault String := (f.bytes path).bind decodeText

def ofPaths (files : List (String × ByteArray)) : Folder :=
  ⟨files.map fun file => ((pathParts file.1).filter isName, file.2)⟩

end Folder

end ScriptScan
