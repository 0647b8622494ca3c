/-!
Folders and files, and what reading or writing a path in them comes to. Paths are relative
to the working folder. Outside it only the folders above are known.
-/
namespace Listeners

inductive FileFault where
  | missing
  | notFolder
  | isFolder
  | nameTooLong
  | nulInPath
  | notText
  | refused (text : String) (number : Nat)
  deriving DecidableEq, Repr

def FileFault.systemText (text : String) (number : Nat) : String :=
  text ++ " (os error " ++ Nat.repr number ++ ")"

def FileFault.text : FileFault → String
  | missing => systemText "No such file or directory" 2
  | notFolder => systemText "Not a directory" 20
  | isFolder => systemText "Is a directory" 21
  | nameTooLong => systemText "File name too long" 36
  | nulInPath => "file name contained an unexpected NUL byte"
  | notText => "stream did not contain valid UTF-8"
  | refused text number => systemText text number

def decodeText (bytes : ByteArray) : Except FileFault String :=
  match String.fromUTF8? bytes with
  | some s => .ok s
  | none => .error .notText

namespace Store

/-- The longest name of a file or folder, in bytes, and the first length that a path cannot have. -/
def nameLimit : Nat := 255

def pathLimit : Nat := 4096

structure Path where
  absolute : Bool
  names : List String
  slashAtEnd : Bool

def splitNames (s : List Char) : List (List Char) :=
  s.foldr (fun c names =>
    if c = '/' then [] :: names
    else
      match names with
      | n :: rest => (c :: n) :: rest
      | [] => [[c]]) [[]]

def Path.ofString (path : String) : Path where
  absolute := path.toList.head? == some '/'
  names := ((splitNames path.toList).filter (!·.isEmpty)).map String.ofList
  slashAtEnd := path.toList.getLast? == some '/'

/-- A place in the working folder, by the names that lead to it, or a folder above. -/
inductive Place where
  | inside (names : List String)
  | above
  deriving DecidableEq, Repr

end Store

structure Store where
  files : List (List String × ByteArray) := []
  folders : List (List String) := []

namespace Store

def isFolder (store : Store) : Place → Bool
  | .above => true
  | .inside [] => true
  | .inside names => store.folders.contains names

def content? (store : Store) : Place → Option ByteArray
  | .above => none
  | .inside names => store.files.lookup names

def Place.parent : Place → Place
  | .inside (n :: ns) => .inside (n :: ns).dropLast
  | _ => .above

def Place.child (name : String) : Place → Option Place
  | .inside names => some (.inside (names ++ [name]))
  | .above => none

def step (store : Store) (place : Place) (name : String) : Except FileFault Place :=
  if !store.isFolder place then .error .notFolder
  else if name = "." then .ok place
  else if name = ".." then .ok place.parent
  else if nameLimit < name.utf8ByteSize then .error .nameTooLong
  else
    match place.child name with
    | none => .error .missing
    | some p => if store.isFolder p || (store.content? p).isSome then .ok p else .error .missing

def walk (store : Store) (place : Place) (names : List String) : Except FileFault Place :=
  names.foldlM (step store) place

def path? (path : String) : Except FileFault Path :=
  if path.toList.contains '\x00' then .error .nulInPath
  else if path.isEmpty then .error .missing
  else if pathLimit ≤ path.utf8ByteSize then .error .nameTooLong
  else .ok (.ofString path)

def Path.start (p : Path) : Place := if p.absolute then .above else .inside []

def readBytes (store : Store) (path : String) : Except FileFault ByteArray := do
  let p ← path? path
  let place ← store.walk p.start p.names
  match store.content? place with
  | some bytes => if p.slashAtEnd then .error .notFolder else .ok bytes
  | none => .error .isFolder

def readText (store : Store) (path : String) : Except FileFault String := do
  decodeText (← store.readBytes path)

/-- Where a file would be written: its folder must be there, and no folder may be in its place. -/
def target (store : Store) (path : String) : Except FileFault (List String) := do
  let p ← path? path
  let folder ← store.walk p.start p.names.dropLast
  match p.names.getLast? with
  | none => .error .isFolder
  | some name =>
    if !store.isFolder folder then .error .notFolder
    else if name = "." ∨ name = ".." ∨ p.slashAtEnd then .error .isFolder
    else if nameLimit < name.utf8ByteSize then .error .nameTooLong
    else
      match folder.child name with
      | none => .error .missing
      | some place =>
        if store.isFolder place then .error .isFolder
        else
          match place with
          | .inside names => .ok names
          | .above => .error .isFolder

def putFile (files : List (List String × ByteArray)) (names : List String) (bytes : ByteArray) :
    List (List String × ByteArray) :=
  (names, bytes) :: files.filter (·.1 != names)

/-- Writes a whole file: one that is there is replaced. -/
def writeText (store : Store) (path text : String) : Except FileFault Store := do
  let names ← store.target path
  .ok { store with files := putFile store.files names text.toUTF8 }

def foldersTo (names : List String) : List (List String) :=
  (List.range names.length).map fun n => names.take (n + 1)

def addFolder (store : Store) (path : String) : Store :=
  { store with folders := store.folders ++ foldersTo (Path.ofString path).names }

def addFile (store : Store) (path : String) (bytes : ByteArray) : Store :=
  let names := (Path.ofString path).names
  { files := putFile store.files names bytes, folders := store.folders ++ foldersTo names.dropLast }

end Store

end Listeners
