import Onboard.Number.Reading
import Onboard.Number.Unsigned

/-!
Options on command lines. An option has a long name and may have a letter; its value follows it or is joined to it,
and a text that begins with a dash always begins another option. `Arguments.read` yields what a command line asks
for, or the first thing that is wrong with it.
-/

namespace Onboard

inductive ValueForm where
  | text
  | whole (limit : Nat)
  | number
  deriving DecidableEq

def ValueForm.reason? (form : ValueForm) (text : String) : Option String :=
  match form with
  | .text => none
  | .whole limit =>
    match readUnsigned limit text.toList with
    | .ok _ => none
    | .error e => some e.message
  | .number =>
    match readNumber text.toList with
    | .ok _ => none
    | .error e => some e.message

inductive OptionKind where
  | switch
  /-- An option with a value, and the value that stands in for a missing one. -/
  | value (form : ValueForm) (fallback : Option String)
  deriving DecidableEq

structure OptionSpec where
  name : String
  letter : Option Char
  kind : OptionKind
  deriving DecidableEq

namespace OptionSpec

def takesValue (o : OptionSpec) : Bool := o.kind ≠ .switch

def fallback (o : OptionSpec) : Option String :=
  match o.kind with
  | .switch => none
  | .value _ fallback => fallback

def shown (o : OptionSpec) : String :=
  if o.takesValue then "--" ++ o.name ++ " <" ++ o.name ++ ">" else "--" ++ o.name

end OptionSpec

inductive ArgumentError where
  | unexpected (argument : String)
  | missingValue (option : OptionSpec)
  | invalidValue (option : OptionSpec) (reason : String)
  | repeated (option : OptionSpec)
  deriving DecidableEq

def ArgumentError.message : ArgumentError → String
  | .unexpected argument =>
    "Found argument '" ++ argument ++ "' which wasn't expected, or isn't valid in this context"
  | .missingValue option => "The argument '" ++ option.shown ++ "' requires a value but none was supplied"
  | .invalidValue option reason => "Invalid value for '" ++ option.shown ++ "': " ++ reason
  | .repeated option =>
    "The argument '" ++ option.shown ++ "' was provided more than once, but cannot be used multiple times"

structure Occurrence where
  option : OptionSpec
  value : Option String
  deriving DecidableEq

/-- What a command line asks for: to run with options, or to tell about the program. -/
inductive Request (α : Type) where
  | run (options : α)
  | help
  | version
  deriving DecidableEq

namespace Arguments

def trimStart (c : Char) (text : List Char) : List Char :=
  text.dropWhile (· = c)

/-- The occurrences so far and the option that waits for its value. -/
structure State where
  given : List Occurrence
  awaiting : Option OptionSpec
  deriving DecidableEq

namespace State

def initial : State := ⟨[], none⟩

/-- An option that goes on waiting gets no value. -/
def settle (s : State) : List Occurrence :=
  s.given ++ (s.awaiting.map fun o => ⟨o, none⟩).toList

/-- An option occurs, with a value joined to it or none. -/
def occur (s : State) (o : OptionSpec) (joined : Option (List Char)) : State :=
  match o.takesValue, joined with
  | true, some value => ⟨s.settle ++ [⟨o, some (String.ofList (trimStart '=' value))⟩], none⟩
  | true, none => ⟨s.settle, some o⟩
  | false, _ => ⟨s.settle ++ [⟨o, none⟩], none⟩

end State

/-- Reads what follows two dashes: a name, and a value behind an equals sign. -/
def readLong (specs : List OptionSpec) (s : State) (body : List Char) : Except ArgumentError (Request State) :=
  let name := String.ofList (body.takeWhile (· ≠ '='))
  let joined := match body.dropWhile (· ≠ '=') with
    | [] => none
    | value => some value
  match specs.find? fun o => o.name = name with
  | some o => .ok (.run (s.occur o joined))
  | none =>
    if name = "help" then .ok .help
    else if name = "version" then .ok .version
    else .error (.unexpected ("--" ++ name))

/-- Reads letters behind one dash: switches, and at last an option to which the rest is joined. -/
def readLetters (specs : List OptionSpec) (s : State) : List Char → Except ArgumentError (Request State)
  | [] => .ok (.run s)
  | c :: rest =>
    match specs.find? fun o => o.letter = some c with
    | some o =>
      if o.takesValue then .ok (.run (s.occur o (if rest = [] then none else some rest)))
      else readLetters specs (s.occur o none) rest
    | none =>
      if c = 'h' then .ok .help
      else if c = 'V' then .ok .version
      else .error (.unexpected (String.ofList ['-', c]))

/-- A text that stands for itself: the value of a waiting option. -/
def readPlain (s : State) (text : String) : Except ArgumentError State :=
  match s.awaiting with
  | some o => .ok ⟨s.given ++ [⟨o, some text⟩], none⟩
  | none => .error (.unexpected text)

/-- Reads one argument after the other; behind two dashes that stand alone none may follow. -/
def readAll (specs : List OptionSpec) (s : State) : List String → Except ArgumentError (Request State)
  | [] => .ok (.run s)
  | argument :: rest => do
    let next ← match argument.toList with
      | ['-', '-'] =>
        match rest with
        | [] => .ok (.run s)
        | extra :: _ => .error (.unexpected extra)
      | '-' :: '-' :: body => readLong specs s (trimStart '-' body)
      | '-' :: c :: letters => readLetters specs s (c :: letters)
      | _ => (readPlain s argument).map .run
    match next with
    | .run s => readAll specs s rest
    | .help => return .help
    | .version => return .version

def occurrences (given : List Occurrence) (o : OptionSpec) : List Occurrence :=
  given.filter fun g => g.option = o

/-- The first value of an option, or the one that stands in for it. -/
def value? (given : List Occurrence) (o : OptionSpec) : Option String :=
  match (occurrences given o).filterMap Occurrence.value with
  | value :: _ => some value
  | [] => o.fallback

/-- The last option must not go on waiting, unless some value is known. -/
def checkAwaiting (s : State) : Except ArgumentError Unit :=
  match s.awaiting with
  | some o => if (value? s.given o).isNone then .error (.missingValue o) else .ok ()
  | none => .ok ()

/-- An option that occurs has a value if it takes one, all its values have its form, and it occurs at most once. -/
def checkOption (given : List Occurrence) (o : OptionSpec) : Except ArgumentError Unit :=
  let found := occurrences given o
  let reason := match o.kind with
    | .switch => none
    | .value form _ => (found.filterMap Occurrence.value).findSome? form.reason?
  if o.takesValue ∧ found ≠ [] ∧ (value? given o).isNone then .error (.missingValue o)
  else
    match reason with
    | some reason => .error (.invalidValue o reason)
    | none => if 1 < found.length then .error (.repeated o) else .ok ()

def read (specs : List OptionSpec) (arguments : List String) : Except ArgumentError (Request (List Occurrence)) := do
  match ← readAll specs .initial arguments with
  | .help => return .help
  | .version => return .version
  | .run s =>
    checkAwaiting s
    specs.forM (checkOption s.settle)
    return .run s.settle

def whole (given : List Occurrence) (o : OptionSpec) : Nat :=
  match o.kind, value? given o with
  | .value (.whole limit) _, some text => (readUnsigned limit text.toList).toOption.getD 0
  | _, _ => 0

def number? (given : List Occurrence) (o : OptionSpec) : Option Float :=
  (value? given o).bind fun text => (readNumber text.toList).toOption

end Arguments

end Onboard
