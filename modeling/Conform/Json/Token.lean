import Conform.Json.Number
import Conform.Json.Quoted

/-!
The tokens of JSON text.

The text is read one character at a time. What has been read of a token so far
is the state of the scan, so the scan is a recursion over the characters.
-/

namespace Conform

/-- A token. Numbers and strings carry what they denote, if anything. -/
inductive Token where
  | openBrace
  | closeBrace
  | openBracket
  | closeBracket
  | comma
  | colon
  | null
  | bool (value : Bool)
  | number (value : Option JsonNumber)
  | string (value : Option String)
deriving Repr

namespace Token

/-- What the scan is inside of, with the characters so far, last one first. -/
inductive Pending where
  | nothing
  | word (characters : List Char)
  | number (characters : List Char)
  | quoted (characters : List Char) (escaped : Bool)
deriving Repr

def isBlank (character : Char) : Bool :=
  character == ' ' || character == '\n' || character == '\t' || character == '\r'

def isNumeric (character : Char) : Bool :=
  character.isDigit || character == '-' || character == '+' || character == '.' ||
    character == 'e' || character == 'E'

def isWord (character : Char) : Bool :=
  decide ('a' ≤ character ∧ character ≤ 'z')

def punctuation? : Char → Option Token
  | '{' => some .openBrace
  | '}' => some .closeBrace
  | '[' => some .openBracket
  | ']' => some .closeBracket
  | ',' => some .comma
  | ':' => some .colon
  | _ => none

def ofWord : List Char → Option Token
  | ['n', 'u', 'l', 'l'] => some .null
  | ['t', 'r', 'u', 'e'] => some (.bool true)
  | ['f', 'a', 'l', 's', 'e'] => some (.bool false)
  | _ => none

/-- The token that ends where the pending characters end. -/
def finish : Pending → Option (List Token)
  | .nothing => some []
  | .word characters => (ofWord characters.reverse).map ([·])
  | .number characters => (JsonNumber.read characters.reverse).map fun value => [.number value]
  | .quoted _ _ => none

/-- A character outside of every token. -/
def start (character : Char) : Option (List Token × Pending) :=
  if isBlank character then some ([], .nothing)
  else if character = '"' then some ([], .quoted [] false)
  else if character.isDigit || character == '-' then some ([], .number [character])
  else if isWord character then some ([], .word [character])
  else (punctuation? character).map fun token => ([token], .nothing)

/-- Ends the pending token in front of a character that does not belong to it. -/
def restart (pending : Pending) (character : Char) : Option (List Token × Pending) :=
  match finish pending, start character with
  | some ended, some (started, next) => some (ended ++ started, next)
  | _, _ => none

def step (pending : Pending) (character : Char) : Option (List Token × Pending) :=
  match pending with
  | .nothing => start character
  | .word characters =>
      if isWord character then some ([], .word (character :: characters))
      else restart pending character
  | .number characters =>
      if isNumeric character then some ([], .number (character :: characters))
      else restart pending character
  | .quoted characters true => some ([], .quoted (character :: characters) false)
  | .quoted characters false =>
      if character = '"' then
        (Quoted.read characters.reverse).map fun value => ([.string value], .nothing)
      else some ([], .quoted (character :: characters) (character == '\\'))

def scan (pending : Pending) : List Char → Option (List Token)
  | [] => finish pending
  | character :: rest =>
      match step pending character with
      | some (found, next) => (scan next rest).map (found ++ ·)
      | none => none

/-- The tokens of a text, if it consists of tokens and blanks. -/
def tokens (text : List Char) : Option (List Token) :=
  scan .nothing text

end Token

end Conform
