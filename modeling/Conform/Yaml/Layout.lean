import Conform.Yaml.Glyph
import Conform.Yaml.Token

/-!
The layout of a YAML text: which tokens its columns and colons imply.

A block collection is open as long as nothing stands further left than its
first token. A key is recognised by the colon behind it, so the place where one
may have begun is remembered until the colon comes or is out of reach.
-/

namespace Conform.Yaml

/-- A place where a key may have begun. -/
structure KeyStart where
  /-- Only a key can stand there. -/
  required : Bool
  /-- The tokens in front of it. -/
  tokensBefore : Nat
  offset : Nat
  line : Nat
  column : Nat
deriving Repr

namespace KeyStart

/-- A key ends on its line and within 1024 bytes. -/
def isOutOfReach (start : KeyStart) (glyph : Glyph) : Bool :=
  decide (start.line < glyph.line ∨ start.offset + 1024 < glyph.offset)

end KeyStart

structure Layout where
  /-- The tokens so far, the last one first. -/
  tokens : List Token
  tokenCount : Nat
  /-- Where a key may have begun on the innermost level, and on the levels
  around it. Each open flow collection is a level of its own. -/
  keyStart : Option KeyStart
  outerKeyStarts : List (Option KeyStart)
  /-- The columns of the open block collections, the innermost one first. -/
  columns : List Nat
  /-- Whether a key may begin here. -/
  keyAllowed : Bool
deriving Repr

namespace Layout

def start : Layout := ⟨[], 0, none, [], [], true⟩

/-- Inside a flow collection columns do not matter. -/
def inFlow (layout : Layout) : Bool :=
  !layout.outerKeyStarts.isEmpty

/-- The least column of what belongs to the innermost block collection. -/
def contentColumn (layout : Layout) : Nat :=
  match layout.columns with
  | [] => 0
  | column :: _ => column + 1

def emit (token : Token) (layout : Layout) : Layout :=
  { layout with tokens := token :: layout.tokens, tokenCount := layout.tokenCount + 1 }

/-- Puts a token in front of the last `behind` ones. -/
def insert (token : Token) (behind : Nat) (layout : Layout) : Layout :=
  { layout with
    tokens := layout.tokens.take behind ++ token :: layout.tokens.drop behind
    tokenCount := layout.tokenCount + 1 }

def allowKey (allowed : Bool) (layout : Layout) : Layout :=
  { layout with keyAllowed := allowed }

/-- Opens a block collection in front of the last `behind` tokens, unless one
is open at its column or further right. -/
def openBlock (token : Token) (column behind : Nat) (layout : Layout) : Layout :=
  if layout.inFlow || decide (column < layout.contentColumn) then layout
  else { layout with columns := column :: layout.columns }.insert token behind

def emitBlockEnds : List Nat → Layout → Layout
  | [], layout => layout
  | _ :: columns, layout => emitBlockEnds columns (layout.emit .closeBlock)

/-- Closes the block collections whose columns satisfy a condition, from the
innermost one on. -/
def closeBlocksWhile (closes : Nat → Bool) (layout : Layout) : Layout :=
  if layout.inFlow then layout
  else
    emitBlockEnds (layout.columns.takeWhile closes)
      { layout with columns := layout.columns.dropWhile closes }

/-- Gives up the place where a key may have begun; a required one cannot be
given up. -/
def dropKeyStart (layout : Layout) : Option Layout :=
  if layout.keyStart.any (·.required) then none else some { layout with keyStart := none }

/-- Remembers that a key may begin at a glyph. -/
def markKeyStart (glyph : Glyph) (layout : Layout) : Option Layout :=
  if layout.keyAllowed then
    let required := !layout.inFlow && layout.columns.head? == some glyph.column
    let start : KeyStart :=
      ⟨required, layout.tokenCount, glyph.offset, glyph.line, glyph.column⟩
    layout.dropKeyStart.map ({ · with keyStart := some start })
  else some layout

/-- Gives up the places that are out of reach of a colon at a glyph. -/
def forgetKeyStarts (glyph : Glyph) (layout : Layout) : Option Layout :=
  let isLost := fun start : KeyStart => start.isOutOfReach glyph
  if (layout.keyStart :: layout.outerKeyStarts).any
      (fun start => start.any fun start => isLost start && start.required) then none
  else
    let keep := fun start : Option KeyStart => start.filter fun start => !isLost start
    some { layout with
      keyStart := keep layout.keyStart
      outerKeyStarts := layout.outerKeyStarts.map keep }

/-- The end of a line. In a block collection a key may follow. -/
def endLine (layout : Layout) : Layout :=
  if layout.inFlow then layout else layout.allowKey true

/-- A bracket that opens a flow collection, which may itself be a key. -/
def openFlow (token : Token) (glyph : Glyph) (layout : Layout) : Option Layout :=
  (layout.markKeyStart glyph).map fun layout =>
    ({ layout with
      keyStart := none
      outerKeyStarts := layout.keyStart :: layout.outerKeyStarts }.allowKey true).emit token

def closeFlow (token : Token) (layout : Layout) : Option Layout :=
  layout.dropKeyStart.map fun layout =>
    let layout :=
      match layout.outerKeyStarts with
      | [] => layout
      | start :: outer => { layout with keyStart := start, outerKeyStarts := outer }
    (layout.allowKey false).emit token

def comma (layout : Layout) : Option Layout :=
  layout.dropKeyStart.map fun layout => (layout.allowKey true).emit .comma

/-- The dash of an item. The first one of a block sequence opens it. -/
def dash (glyph : Glyph) (layout : Layout) : Option Layout :=
  if layout.inFlow || layout.keyAllowed then
    (layout.openBlock .openBlockSequence glyph.column 0).dropKeyStart.map fun layout =>
      (layout.allowKey true).emit .dash
  else none

/-- A mark in front of a key. The first key of a block mapping opens it. -/
def key (glyph : Glyph) (layout : Layout) : Option Layout :=
  if layout.inFlow || layout.keyAllowed then
    (layout.openBlock .openBlockMapping glyph.column 0).dropKeyStart.map fun layout =>
      (layout.allowKey (!layout.inFlow)).emit .key
  else none

/-- A colon. If a key may have begun within reach, it has; otherwise the key
stands in front with a mark of its own. -/
def colon (glyph : Glyph) (layout : Layout) : Option Layout :=
  match layout.keyStart with
  | some start =>
      let behind := layout.tokenCount - start.tokensBefore
      let layout := (layout.insert .key behind).openBlock .openBlockMapping start.column
        (behind + 1)
      some (({ layout with keyStart := none }.allowKey false).emit .colon)
  | none =>
      if layout.inFlow || layout.keyAllowed then
        let layout := layout.openBlock .openBlockMapping glyph.column 0
        some ((layout.allowKey (!layout.inFlow)).emit .colon)
      else none

/-- A mark between documents, which closes all block collections. -/
def documentMark (token : Token) (layout : Layout) : Option Layout :=
  (layout.closeBlocksWhile fun _ => true).dropKeyStart.map fun layout =>
    (layout.allowKey false).emit token

/-- The tokens of a text that ends here. -/
def finish (layout : Layout) : Option (List Token) :=
  (layout.closeBlocksWhile fun _ => true).dropKeyStart.map (·.tokens.reverse)

end Layout

end Conform.Yaml
