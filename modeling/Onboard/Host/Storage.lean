import Onboard.Host.Path
import Onboard.Text.Quoted
import Onboard.Text.Utf8

/-!
Files and directories of the robot's computer. A tree maps places to what lies there; each operation follows a path,
and fails for the causes that the system names.
-/

namespace Onboard

inductive IoFailure where
  | notFound
  | connectionRefused
  | alreadyExists
  | notADirectory
  | isADirectory
  | invalidInput (detail : String)
  | invalidUtf8
  | addressInUse
  | addressNotAvailable
  | networkUnreachable
  | messageTooLong
  | noSuchDevice
  | invalidArgument
  | nameTooLong
  | other (detail : String)
  deriving DecidableEq

namespace IoFailure

def description : IoFailure → String
  | .notFound => "No such file or directory"
  | .connectionRefused => "Connection refused"
  | .alreadyExists => "File exists"
  | .notADirectory => "Not a directory"
  | .isADirectory => "Is a directory"
  | .invalidInput detail => detail
  | .invalidUtf8 => "stream did not contain valid UTF-8"
  | .addressInUse => "Address already in use"
  | .addressNotAvailable => "Cannot assign requested address"
  | .networkUnreachable => "Network is unreachable"
  | .messageTooLong => "Message too long"
  | .noSuchDevice => "No such device"
  | .invalidArgument => "Invalid argument"
  | .nameTooLong => "File name too long"
  | .other detail => detail

/-- The system's number; failures that are found before the system is asked have none. -/
def code? : IoFailure → Option Nat
  | .notFound => some 2
  | .connectionRefused => some 111
  | .alreadyExists => some 17
  | .notADirectory => some 20
  | .isADirectory => some 21
  | .addressInUse => some 98
  | .addressNotAvailable => some 99
  | .networkUnreachable => some 101
  | .messageTooLong => some 90
  | .noSuchDevice => some 19
  | .invalidArgument => some 22
  | .nameTooLong => some 36
  | .invalidInput _ | .invalidUtf8 | .other _ => none

def kindName : IoFailure → String
  | .notFound => "NotFound"
  | .connectionRefused => "ConnectionRefused"
  | .alreadyExists => "AlreadyExists"
  | .notADirectory => "NotADirectory"
  | .isADirectory => "IsADirectory"
  | .invalidInput _ | .invalidArgument => "InvalidInput"
  | .invalidUtf8 => "InvalidData"
  | .addressInUse => "AddrInUse"
  | .addressNotAvailable => "AddrNotAvailable"
  | .networkUnreachable => "NetworkUnreachable"
  | .nameTooLong => "InvalidFilename"
  | .messageTooLong | .noSuchDevice => "Uncategorized"
  | .other _ => "Other"

def message (e : IoFailure) : String :=
  match e.code? with
  | some code => e.description ++ s!" (os error {code})"
  | none => e.description

def structured (e : IoFailure) : String :=
  match e.code? with
  | some code => s!"Os \x7b code: {code}, kind: " ++ e.kindName ++ ", message: " ++ Text.quoted e.description ++ " \x7d"
  | none => "Error \x7b kind: " ++ e.kindName ++ ", message: " ++ Text.quoted e.description ++ " \x7d"

end IoFailure

inductive FileNode where
  | file (contents : Bytes)
  | directory
  deriving DecidableEq

namespace FileNode

/-- What the system reports as the length of a directory. -/
def directoryLength : Nat := 4096

def length : FileNode → Nat
  | .file contents => contents.length
  | .directory => directoryLength

/-- What lies at a path after bytes have been appended to its file, or put into a new one. -/
def appended (node : Option FileNode) (bytes : Bytes) : FileNode :=
  match node with
  | some (.file contents) => .file (contents ++ bytes)
  | _ => .file bytes

def contents? : Option FileNode → Except IoFailure Bytes
  | none => .error .notFound
  | some .directory => .error .isADirectory
  | some (.file contents) => .ok contents

def text? (node : Option FileNode) : Except IoFailure String := do
  match Utf8.decode? (← contents? node) with
  | some text => .ok text
  | none => .error .invalidUtf8

end FileNode

/-- Places, as the names that lead there, with their nodes; the latest entry of a place first. -/
structure FileTree where
  entries : List (List String × FileNode)

namespace FileTree

def empty : FileTree := ⟨[]⟩

/-- The root of the tree is a directory. -/
def node? (t : FileTree) (place : List String) : Option FileNode :=
  if place = [] then some .directory else t.entries.lookup place

def put (t : FileTree) (place : List String) (node : FileNode) : FileTree :=
  ⟨(place, node) :: t.entries.filter fun e => e.1 ≠ place⟩

def nameLimit : Nat := 255

/-- Paths have fewer bytes than this. -/
def pathLimit : Nat := 4096

/-- What makes a path none, whatever the tree is. -/
def checkPath (path : String) : Except IoFailure Unit :=
  if path.toList.contains '\x00' then .error (.invalidInput "file name contained an unexpected NUL byte")
  else if path = "" then .error .notFound
  else if pathLimit ≤ path.utf8ByteSize then .error .nameTooLong
  else .ok ()

/-- One point stays where it is, and two points lead back to the directory above. -/
def follow (place : List String) (name : String) : List String :=
  if name = "." then place else if name = ".." then place.dropLast else place ++ [name]

/-- Follows a path name by name; every name but the last has to be a directory. -/
def resolveFrom (t : FileTree) (place : List String) : List String → Except IoFailure (List String)
  | [] => .ok place
  | name :: rest =>
    match t.node? place with
    | some .directory =>
      if nameLimit < name.utf8ByteSize then .error .nameTooLong else resolveFrom t (follow place name) rest
    | some (.file _) => .error .notADirectory
    | none => .error .notFound

/-- The place that a path leads to, where something may lie or not. -/
def resolve (t : FileTree) (path : String) : Except IoFailure (List String) := do
  checkPath path
  t.resolveFrom [] (Path.names path)

def lookup (t : FileTree) (path : String) : Except IoFailure (Option FileNode) := do
  match Path.ending path, t.node? (← t.resolve path) with
  | .separator, some (.file _) => .error .notADirectory
  | _, node => .ok node

def readText (t : FileTree) (path : String) : Except IoFailure String := do
  FileNode.text? (← t.lookup path)

def exists? (t : FileTree) (path : String) : Bool :=
  match t.lookup path with
  | .ok (some _) => true
  | _ => false

/-- Makes a directory and those above it; one that is there already is kept. -/
def makeDirectoriesFrom (t : FileTree) (place : List String) : List String → Except IoFailure FileTree
  | [] => .ok t
  | name :: rest =>
    if name = "." ∨ name = ".." then makeDirectoriesFrom t (follow place name) rest
    else if nameLimit < name.utf8ByteSize then .error .nameTooLong
    else
      let next := place ++ [name]
      match t.node? next with
      | some .directory => makeDirectoriesFrom t next rest
      | some (.file _) => .error (if rest = [] then .alreadyExists else .notADirectory)
      | none => makeDirectoriesFrom (t.put next .directory) next rest

def makeDirectories (t : FileTree) (path : String) : Except IoFailure FileTree := do
  checkPath path
  t.makeDirectoriesFrom [] (Path.names path)

/-- The place of a file to be written, which may be there or not. -/
def placeOfFile (t : FileTree) (path : String) : Except IoFailure (List String) := do
  let place ← t.resolve path
  if Path.ending path = .name ∧ t.node? place ≠ some .directory then .ok place else .error .isADirectory

/-- Creates a file in a directory that is there, or empties the one that is there. -/
def create (t : FileTree) (path : String) : Except IoFailure FileTree := do
  return t.put (← t.placeOfFile path) (.file [])

/-- Creates a file in a directory that is there, or keeps the one that is there. -/
def keep (t : FileTree) (path : String) : Except IoFailure FileTree := do
  let place ← t.placeOfFile path
  return if (t.node? place).isSome then t else t.put place (.file [])

/-- Makes a socket, which shows as an empty file, where nothing is. -/
def makeSocket (t : FileTree) (path : String) : Except IoFailure FileTree := do
  let place ← t.resolve path
  match Path.ending path, t.node? place with
  | .name, none => .ok (t.put place (.file []))
  | .separator, none => .error .notFound
  | _, _ => .error .addressInUse

def remove (t : FileTree) (path : String) : Except IoFailure FileTree := do
  let place ← t.resolve path
  match Path.ending path, t.node? place with
  | _, none => .error .notFound
  | _, some .directory => .error .isADirectory
  | .name, some (.file _) => .ok ⟨t.entries.filter fun e => e.1 ≠ place⟩
  | _, some (.file _) => .error .notADirectory

def ofNodes (nodes : List (String × FileNode)) : FileTree :=
  nodes.foldl (fun t n =>
    let names := Path.names n.1
    ((t.makeDirectoriesFrom [] names.dropLast).toOption.getD t).put (names.foldl follow []) n.2) empty

end FileTree

end Onboard
