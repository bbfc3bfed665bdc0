import Onboard.Number.Reading
import Onboard.Text.Blank

/-!
Tokens of TOML text. Words are runs of the characters that bare keys, numbers and dates are made of; strings arrive
with their escapes undone. Blanks are tokens because a number may not hold any.
-/

namespace Onboard.Toml

inductive Token where
  | blank (text : List Char)
  | newline
  | comment
  | equals
  | period
  | comma
  | colon
  | plus
  | openBrace
  | closeBrace
  | openBracket
  | closeBracket
  | word (text : List Char)
  | text (content : List Char) (isMultiline : Bool)
  deriving DecidableEq

/-- Line ends of two characters count as one. -/
def foldLineEnds : List Char → List Char
  | '\r' :: '\n' :: rest => '\n' :: foldLineEnds rest
  | c :: rest => c :: foldLineEnds rest
  | [] => []

def isWordChar (c : Char) : Bool :=
  isDigit c || ('a' ≤ c && c ≤ 'z') || ('A' ≤ c && c ≤ 'Z') || c = '-' || c = '_'

/-- Characters that a comment may hold. -/
def isCommentChar (c : Char) : Bool :=
  c = '\t' || ' ' ≤ c

/-- Characters that a string may hold as they are. -/
def isTextChar (c : Char) : Bool :=
  isCommentChar c && c ≠ '\x7f'

def hexDigit? (c : Char) : Option Nat :=
  if isDigit c then some (c.toNat - 48)
  else if 'a' ≤ c && c ≤ 'f' then some (c.toNat - 87)
  else if 'A' ≤ c && c ≤ 'F' then some (c.toNat - 55)
  else none

/-- A number of exactly `count` hexadecimal digits from the front. -/
def hexNumber? : (count value : Nat) → List Char → Option (Nat × List Char)
  | 0, value, rest => some (value, rest)
  | count + 1, value, c :: rest => (hexDigit? c).bind fun d => hexNumber? count (16 * value + d) rest
  | _ + 1, _, [] => none

/-- The character of a code point, which may not be half a surrogate pair. -/
def character? (n : Nat) : Option Char :=
  if h : n.isValidChar then some (Char.ofNatAux n h) else none

/-- The character of an escape that stands for one, from the letter after the backslash on. -/
def escape? : List Char → Option (Char × List Char)
  | '"' :: rest => some ('"', rest)
  | '\\' :: rest => some ('\\', rest)
  | 'b' :: rest => some ('\x08', rest)
  | 'f' :: rest => some ('\x0c', rest)
  | 'n' :: rest => some ('\n', rest)
  | 'r' :: rest => some ('\r', rest)
  | 't' :: rest => some ('\t', rest)
  | 'u' :: rest => do
    let (n, rest) ← hexNumber? 4 0 rest
    return (← character? n, rest)
  | 'U' :: rest => do
    let (n, rest) ← hexNumber? 8 0 rest
    return (← character? n, rest)
  | _ => none

/-- A backslash before a line end takes away the white space up to the next text. -/
def lineEscape? (s : List Char) : Option (List Char) :=
  match s.dropWhile fun c => c = ' ' || c = '\t' with
  | '\n' :: rest => some (rest.dropWhile fun c => c = ' ' || c = '\t' || c = '\n')
  | _ => none

/-- How a string is written: its quote, whether backslashes escape, whether it may span lines. -/
structure TextForm where
  quote : Char
  hasEscapes : Bool
  isMultiline : Bool

/-- The rest of a string and what follows it; `fuel` is as long as the text. -/
def textBody (form : TextForm) : (fuel : Nat) → (read : List Char) → List Char → Option (List Char × List Char)
  | 0, _, _ => none
  | _ + 1, _, [] => none
  | fuel + 1, read, c :: rest =>
    if c = '\n' then
      if form.isMultiline then textBody form fuel ('\n' :: read) rest else none
    else if c = form.quote then
      if form.isMultiline then
        let quotes := (rest.takeWhile (· = form.quote)).length
        if quotes < 2 then textBody form fuel (List.replicate (quotes + 1) c ++ read) (rest.drop quotes)
        else
          let more := min 2 (quotes - 2)
          some ((List.replicate more c ++ read).reverse, rest.drop (2 + more))
      else some (read.reverse, rest)
    else if c = '\\' && form.hasEscapes then
      match escape? rest with
      | some (character, rest) => textBody form fuel (character :: read) rest
      | none =>
        if form.isMultiline then (lineEscape? rest).bind fun rest => textBody form fuel read rest else none
    else if isTextChar c then textBody form fuel (c :: read) rest
    else none

/-- A string after its first quote. A line end right after three quotes is not part of it. -/
def text? (quote : Char) (hasEscapes : Bool) (s : List Char) : Option (Token × List Char) := do
  match s with
  | a :: b :: rest =>
    if a = quote && b = quote then
      let body := match rest with
        | '\n' :: body => body
        | body => body
      let (content, rest) ← textBody ⟨quote, hasEscapes, true⟩ (body.length + 1) [] body
      return (.text content true, rest)
    else if a = quote then return (.text [] false, b :: rest)
    else
      let (content, rest) ← textBody ⟨quote, hasEscapes, false⟩ (s.length + 1) [] s
      return (.text content false, rest)
  | [a] => if a = quote then return (.text [] false, []) else none
  | [] => none

/-- The token at the front of a text that is not empty. -/
def next? (c : Char) (rest : List Char) : Option (Token × List Char) :=
  if c = '\n' then some (.newline, rest)
  else if c = ' ' || c = '\t' then
    let isSpace (c : Char) : Bool := c = ' ' || c = '\t'
    some (.blank (c :: rest.takeWhile isSpace), rest.dropWhile isSpace)
  else if c = '#' then some (.comment, rest.dropWhile isCommentChar)
  else if c = '=' then some (.equals, rest)
  else if c = '.' then some (.period, rest)
  else if c = ',' then some (.comma, rest)
  else if c = ':' then some (.colon, rest)
  else if c = '+' then some (.plus, rest)
  else if c = '\x7b' then some (.openBrace, rest)
  else if c = '\x7d' then some (.closeBrace, rest)
  else if c = '[' then some (.openBracket, rest)
  else if c = ']' then some (.closeBracket, rest)
  else if c = '\'' then text? '\'' false rest
  else if c = '"' then text? '"' true rest
  else if isWordChar c then some (.word (c :: rest.takeWhile isWordChar), rest.dropWhile isWordChar)
  else none

def tokensFrom : (fuel : Nat) → List Char → Option (List Token)
  | _, [] => some []
  | 0, _ :: _ => none
  | fuel + 1, c :: rest => do
    let (token, rest) ← next? c rest
    return token :: (← tokensFrom fuel rest)

/-- The tokens of a text. A byte order mark in front is skipped. -/
def tokens? (s : String) : Option (List Token) :=
  let chars := foldLineEnds s.toList
  let chars := if chars.head? = some '\uFEFF' then chars.tail else chars
  tokensFrom chars.length chars

end Onboard.Toml
