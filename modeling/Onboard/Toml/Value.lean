import Onboard.Toml.Number

/-!
Values and lines of TOML text. A line is a header or a key with its value; keys with dots open tables within the
table they stand in.
-/

namespace Onboard.Toml

inductive Value where
  | text (content : String)
  | integer (value : Int)
  | float (value : Float)
  | boolean (value : Bool)
  | date
  | array (items : List Value)
  /-- A table between braces, or one that a header opened. -/
  | table (entries : List (String × Value))
  /-- A table that dotted keys opened and that others may add to. -/
  | dotted (entries : List (String × Value))

def skipBlank : List Token → List Token
  | .blank _ :: rest => rest
  | rest => rest

/-- A key without dots; strings over several lines are none. -/
def key? : Parse String
  | .word w :: rest => some (String.ofList w, rest)
  | .text content false :: rest => some (String.ofList content, rest)
  | _ => none

def moreKeys : (fuel : Nat) → Parse (List String)
  | 0, tokens => some ([], tokens)
  | fuel + 1, tokens =>
    match skipBlank tokens with
    | .period :: rest => do
      let (part, rest) ← key? (skipBlank rest)
      let (parts, rest) ← moreKeys fuel rest
      return (part :: parts, rest)
    | rest => some ([], rest)

def dottedKey? : Parse (String × List String) := fun tokens => do
  let (first, rest) ← key? tokens
  let (more, rest) ← moreKeys rest.length rest
  return ((first, more), rest)

/-- Adds a value under a dotted key. A part that is there already has to be a table of dotted keys. -/
def addDotted (key : String) (more : List String) (value : Value) (entries : List (String × Value)) :
    Option (List (String × Value)) :=
  match more with
  | [] => some (entries ++ [(key, value)])
  | next :: more =>
    match entries.lookup key with
    | some (.dotted inner) => do
      let inner ← addDotted next more value inner
      return replaceFirst key (.dotted inner) entries
    | some _ => none
    | none => do
      let inner ← addDotted next more value []
      return entries ++ [(key, .dotted inner)]
where
  /-- Puts a value in the place of the first one of its key. -/
  replaceFirst (key : String) (value : Value) : List (String × Value) → List (String × Value)
    | [] => []
    | e :: rest => if e.1 = key then (key, value) :: rest else e :: replaceFirst key value rest

/-- After a comment the line has to end. -/
def lineEnd? : List Token → Option (List Token)
  | [] => some []
  | .newline :: rest => some rest
  | .comment :: [] => some []
  | .comment :: .newline :: rest => some rest
  | _ => none

/-- Skips blanks, comments and line ends between the items of an array. -/
def skipLines : (fuel : Nat) → List Token → Option (List Token)
  | 0, tokens => some tokens
  | fuel + 1, tokens =>
    match skipBlank tokens with
    | .newline :: rest => skipLines fuel rest
    | .comment :: rest => (lineEnd? (.comment :: rest)).bind (skipLines fuel)
    | rest => some rest

def ofNumber : Number → Value
  | .integer n => .integer n
  | .float x => .float x

def wordValue? (w : List Char) (rest : List Token) : Option (Value × List Token) :=
  let startsNumber := match w with
    | c :: _ => c = '-' || isDigit c
    | [] => false
  if w = ['t', 'r', 'u', 'e'] then some (.boolean true, rest)
  else if w = ['f', 'a', 'l', 's', 'e'] then some (.boolean false, rest)
  else if w = ['i', 'n', 'f'] || w = ['n', 'a', 'n'] || startsNumber then
    if looksLikeDate w then (afterDate? rest).map fun rest => (.date, rest)
    else
      match rest with
      | .colon :: after => (timeOfDay? after).map fun r => (.date, r.2)
      | _ => (number? w rest).map fun r => (ofNumber r.1, r.2)
  else none

mutual

/-- A value; `fuel` is at least twice the number of tokens. -/
def value? : (fuel : Nat) → Parse Value
  | 0, _ => none
  | fuel + 1, tokens =>
    match tokens with
    | .text content _ :: rest => some (.text (String.ofList content), rest)
    | .word w :: rest => wordValue? w rest
    | .plus :: .word w :: rest => (number? w rest).map fun r => (ofNumber r.1, r.2)
    | .openBracket :: rest => items? fuel [] rest
    | .openBrace :: rest =>
      match skipBlank rest with
      | .closeBrace :: rest => some (.table [], rest)
      | rest => entries? fuel [] rest
    | _ => none

/-- The items of an array up to its end. A comma may follow the last one. -/
def items? : (fuel : Nat) → (before : List Value) → Parse Value
  | 0, _, _ => none
  | fuel + 1, before, tokens => do
    match ← skipLines tokens.length tokens with
    | .closeBracket :: rest => return (.array before.reverse, rest)
    | rest =>
      let (item, rest) ← value? fuel rest
      match ← skipLines rest.length rest with
      | .comma :: rest => items? fuel (item :: before) rest
      | .closeBracket :: rest => return (.array (item :: before).reverse, rest)
      | _ => none

/-- The entries of a table between braces, of which there is at least one more. -/
def entries? : (fuel : Nat) → (before : List (String × Value)) → Parse Value
  | 0, _, _ => none
  | fuel + 1, before, tokens => do
    let ((key, more), rest) ← dottedKey? tokens
    match skipBlank rest with
    | .equals :: rest =>
      let (value, rest) ← value? fuel (skipBlank rest)
      let entries ← addDotted key more value before
      match skipBlank rest with
      | .closeBrace :: rest => return (.table entries, rest)
      | .comma :: rest => entries? fuel entries (skipBlank rest)
      | _ => none
    | _ => none

end

inductive Line where
  | header (path : List String) (isArray : Bool)
  | entry (key : String) (more : List String) (value : Value)

/-- The path of a header after its opening brackets, and the end of its line. -/
def header? (isArray : Bool) : Parse Line := fun tokens => do
  let ((first, more), rest) ← dottedKey? (skipBlank tokens)
  let rest ← match isArray, rest with
    | false, .closeBracket :: rest => some rest
    | true, .closeBracket :: .closeBracket :: rest => some rest
    | _, _ => none
  let rest ← lineEnd? (skipBlank rest)
  return (.header (first :: more) isArray, rest)

def entry? : Parse Line := fun tokens => do
  let ((key, more), rest) ← dottedKey? tokens
  match skipBlank rest with
  | .equals :: rest =>
    let rest := skipBlank rest
    let (value, rest) ← value? (2 * rest.length + 2) rest
    let rest ← lineEnd? (skipBlank rest)
    return (.entry key more value, rest)
  | _ => none

def lines? : (fuel : Nat) → List Token → Option (List Line)
  | 0, tokens => if tokens = [] then some [] else none
  | fuel + 1, tokens =>
    match skipBlank tokens with
    | [] => some []
    | .newline :: rest => lines? fuel rest
    | .comment :: rest => (lineEnd? (.comment :: rest)).bind (lines? fuel)
    | .openBracket :: .openBracket :: rest => do
      let (line, rest) ← header? true rest
      return line :: (← lines? fuel rest)
    | .openBracket :: rest => do
      let (line, rest) ← header? false rest
      return line :: (← lines? fuel rest)
    | rest => do
      let (line, rest) ← entry? rest
      return line :: (← lines? fuel rest)

end Onboard.Toml
