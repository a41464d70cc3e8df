import Conform.Yaml.Escape
import Conform.Yaml.Fold
import Conform.Yaml.Layout

/-!
From the glyphs of a YAML text to its tokens.

The text is read one glyph at a time, with a look at the glyphs behind it. What
has been read of a scalar so far is the state of the reading.

Anchors, aliases, tags, directives and block scalars are not part of the
notation that is read here.
-/

namespace Conform.Yaml

/-- What a glyph stands in. -/
inductive Place where
  | between
  | comment
  | plain (folded : Folded)
  | quoted (mark : Char) (folded : Folded)
deriving Repr

structure Reading where
  place : Place
  layout : Layout
  /-- How many of the next glyphs have been read already. -/
  ahead : Nat
deriving Repr

namespace Reading

def start : Reading := ⟨.between, .start, 0⟩

def between (layout : Layout) : Reading := ⟨.between, layout, 0⟩

/-- Characters that mean something at the start of a token; three of them may
begin a plain scalar if something follows. -/
def isIndicator (character : Char) : Bool :=
  ['-', '?', ':', ',', '[', ']', '{', '}', '#', '&', '*', '!', '|', '>', '\'', '"', '%', '@',
    Char.ofNat 96].contains character

/-- The brackets and the comma of flow collections. -/
def isFlowIndicator (character : Char) : Bool :=
  [',', '[', ']', '{', '}'].contains character

/-- Whether a glyph, with `rest` behind it, begins a plain scalar. -/
def startsPlain (inFlow : Bool) (character : Char) (rest : List Glyph) : Bool :=
  if isIndicator character then
    character == '-' || (!inFlow && (character == '?' || character == ':') && !isBreakBefore rest)
  else !isBlank character

/-- A scalar begins with a glyph. It may be a key, and no key may follow it
directly. -/
def beginScalar (glyph : Glyph) (place : Place) (layout : Layout) : Option Reading :=
  (layout.markKeyStart glyph).map fun layout => ⟨place, layout.allowKey false, 0⟩

/-- The token that a glyph begins. -/
def beginToken (glyph : Glyph) (rest : List Glyph) (layout : Layout) : Option Reading :=
  if isDocumentMark (glyph :: rest) then
    let token := if glyph.char = '-' then .documentStart else .documentEnd
    (layout.documentMark token).map fun layout => ⟨.between, layout, 2⟩
  else
    match glyph.char with
    | '[' => (layout.openFlow .openBracket glyph).map between
    | '{' => (layout.openFlow .openBrace glyph).map between
    | ']' => (layout.closeFlow .closeBracket).map between
    | '}' => (layout.closeFlow .closeBrace).map between
    | ',' => layout.comma.map between
    | '"' => beginScalar glyph (.quoted '"' .empty) layout
    | '\'' => beginScalar glyph (.quoted '\'' .empty) layout
    | character =>
        if character == '-' && isBreakBefore rest then (layout.dash glyph).map between
        else if character == '?' && (layout.inFlow || isBreakBefore rest) then
          (layout.key glyph).map between
        else if character == ':' && (layout.inFlow || isBreakBefore rest) then
          (layout.colon glyph).map between
        else if startsPlain layout.inFlow character rest then
          beginScalar glyph (.plain (Folded.empty.add character)) layout
        else none

/-- A glyph between tokens. A tab may stand in front of a token unless a key
may begin there, and a byte order mark in front of all. -/
def readBetween (glyph : Glyph) (rest : List Glyph) (layout : Layout) : Option Reading :=
  if glyph.char == ' ' || (glyph.char == '\t' && (layout.inFlow || !layout.keyAllowed)) ||
      (glyph.char == byteOrderMark && glyph.offset == 0) then some (between layout)
  else if glyph.char == '#' then some ⟨.comment, layout, 0⟩
  else if isLineEnd glyph.char then some (between layout.endLine)
  else
    (layout.forgetKeyStarts glyph).bind fun layout =>
      beginToken glyph rest (layout.closeBlocksWhile (glyph.column < ·))

/-- Whether a plain scalar ends in front of a glyph that is neither a blank nor
a line end. -/
def endsPlain (folded : Folded) (layout : Layout) (glyph : Glyph) (rest : List Glyph) : Bool :=
  (!folded.gap.isEmpty &&
    (glyph.char == '#' || (!layout.inFlow && decide (glyph.column < layout.contentColumn)))) ||
  isDocumentMark (glyph :: rest) ||
  (glyph.char == ':' && isBreakBefore rest) ||
  (layout.inFlow && isFlowIndicator glyph.char)

/-- The layout behind a plain scalar. If it ends behind a line end, a key may
follow. -/
def finishPlain (folded : Folded) (layout : Layout) : Layout :=
  (layout.emit (.scalar (.plain folded.trimmed))).allowKey
    (layout.keyAllowed || folded.gap.hasLines)

/-- Whether a colon in a flow collection touches what cannot follow a key. -/
def isMisplacedColon (layout : Layout) (glyph : Glyph) (rest : List Glyph) : Bool :=
  layout.inFlow && glyph.char == ':' &&
    rest.head?.any fun next => next.char == '?' || isFlowIndicator next.char

def readPlain (folded : Folded) (glyph : Glyph) (rest : List Glyph) (layout : Layout) :
    Option Reading :=
  if isBlank glyph.char then
    if folded.gap.hasLines && glyph.char == '\t' &&
        decide (glyph.column < layout.contentColumn) then none
    else some ⟨.plain (folded.addBlank glyph.char), layout, 0⟩
  else if isLineEnd glyph.char then
    some ⟨.plain (folded.addLineEnd glyph.char), layout, 0⟩
  else if endsPlain folded layout glyph rest then
    readBetween glyph rest (finishPlain folded layout)
  else if isMisplacedColon layout glyph rest then none
  else some ⟨.plain (folded.add glyph.char), layout, 0⟩

/-- A backslash in double quotes, with `rest` behind it. -/
def readEscape (folded : Folded) (rest : List Glyph) (layout : Layout) : Option Reading :=
  if rest.head?.any fun next => isLineEnd next.char then
    some ⟨.quoted '"' folded.hideLineEnd, layout, 1⟩
  else
    (escape? rest).map fun (character, length) =>
      ⟨.quoted '"' (folded.add character), layout, length⟩

def readQuoted (mark : Char) (folded : Folded) (glyph : Glyph) (rest : List Glyph)
    (layout : Layout) : Option Reading :=
  if isBlank glyph.char then some ⟨.quoted mark (folded.addBlank glyph.char), layout, 0⟩
  else if isLineEnd glyph.char then
    some ⟨.quoted mark (folded.addLineEnd glyph.char), layout, 0⟩
  else if isDocumentMark (glyph :: rest) then none
  else if mark == '\'' && glyph.char == mark && rest.head?.any (·.char == mark) then
    some ⟨.quoted mark (folded.add mark), layout, 1⟩
  else if glyph.char == mark then
    some (between (layout.emit (.scalar (.quoted folded.whole))))
  else if mark == '"' && glyph.char == '\\' then readEscape folded rest layout
  else some ⟨.quoted mark (folded.add glyph.char), layout, 0⟩

def step (reading : Reading) (glyph : Glyph) (rest : List Glyph) : Option Reading :=
  match reading.ahead with
  | ahead + 1 => some { reading with ahead }
  | 0 =>
      match reading.place with
      | .between => readBetween glyph rest reading.layout
      | .comment =>
          some (if isLineEnd glyph.char then between reading.layout.endLine else reading)
      | .plain folded => readPlain folded glyph rest reading.layout
      | .quoted mark folded => readQuoted mark folded glyph rest reading.layout

/-- The tokens of a text that ends here. -/
def finish (reading : Reading) : Option (List Token) :=
  match reading.place with
  | .between | .comment => reading.layout.finish
  | .plain folded => (finishPlain folded reading.layout).finish
  | .quoted _ _ => none

def run : Reading → List Glyph → Option (List Token)
  | reading, [] => reading.finish
  | reading, glyph :: rest =>
      match reading.step glyph rest with
      | some next => run next rest
      | none => none

end Reading

/-- The tokens of a text. -/
def tokens (text : String) : Option (List Token) :=
  (glyphs? text.toList).bind (Reading.run .start)

end Conform.Yaml
