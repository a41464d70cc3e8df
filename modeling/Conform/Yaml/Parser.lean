import Conform.Yaml.Reading

/-!
From tokens to a YAML document.

The open collections form a stack. A token first settles what it shows to be
left out or over, then it extends the innermost collection or opens or closes
one.
-/

namespace Conform.Yaml

/-- Where a collection stands. -/
inductive Slot where
  /-- A part may begin. -/
  | ready
  /-- A part is over. -/
  | filled
  /-- A key may begin behind its mark. -/
  | key
  /-- The key is over. -/
  | colon (key : Yaml)
  /-- The value may begin behind the colon. -/
  | value (key : Yaml)
deriving Repr

/-- An open collection, its parts last one first. -/
inductive Frame where
  | blockSequence (items : List Yaml) (slot : Slot)
  /-- A block sequence at the column of the mapping around it, which nothing
  closes but the mapping's next part. -/
  | flatSequence (items : List Yaml) (slot : Slot)
  | blockMapping (entries : List (Yaml × Yaml)) (slot : Slot)
  | flowSequence (items : List Yaml) (slot : Slot)
  /-- A single entry that is an item of a flow sequence. -/
  | pair (slot : Slot)
  | flowMapping (entries : List (Yaml × Yaml)) (slot : Slot)
deriving Repr

structure Progress where
  frames : List Frame
  result : Option Yaml
deriving Repr

namespace Progress

def start : Progress := ⟨[], none⟩

/-- Hands a finished node to the innermost open collection. A key without a
mark in a flow mapping has no value. -/
def deliver (node : Yaml) : List Frame → Option Progress
  | [] => some ⟨[], some node⟩
  | .blockSequence items .ready :: outer =>
      some ⟨.blockSequence (node :: items) .filled :: outer, none⟩
  | .flatSequence items .ready :: outer =>
      some ⟨.flatSequence (node :: items) .filled :: outer, none⟩
  | .blockMapping entries .key :: outer =>
      some ⟨.blockMapping entries (.colon node) :: outer, none⟩
  | .blockMapping entries (.value key) :: outer =>
      some ⟨.blockMapping ((key, node) :: entries) .filled :: outer, none⟩
  | .flowSequence items .ready :: outer =>
      some ⟨.flowSequence (node :: items) .filled :: outer, none⟩
  | .pair .key :: outer => some ⟨.pair (.colon node) :: outer, none⟩
  | .pair (.value key) :: outer => deliver (.mapping [(key, node)]) outer
  | .flowMapping entries .ready :: outer =>
      some ⟨.flowMapping ((node, absent) :: entries) .filled :: outer, none⟩
  | .flowMapping entries .key :: outer =>
      some ⟨.flowMapping entries (.colon node) :: outer, none⟩
  | .flowMapping entries (.value key) :: outer =>
      some ⟨.flowMapping ((key, node) :: entries) .filled :: outer, none⟩
  | _ => none

/-- Whether a node may begin. -/
def acceptsNode : List Frame → Bool
  | [] => true
  | .blockSequence _ .ready :: _ | .flatSequence _ .ready :: _ => true
  | .blockMapping _ .key :: _ | .blockMapping _ (.value _) :: _ => true
  | .flowSequence _ .ready :: _ => true
  | .pair .key :: _ | .pair (.value _) :: _ => true
  | .flowMapping _ .ready :: _ | .flowMapping _ .key :: _ | .flowMapping _ (.value _) :: _ =>
      true
  | _ => false

/-- The part of a block mapping in front of a token, with what is left out. -/
def settleBlock (token : Token) (entries : List (Yaml × Yaml)) : Slot → Frame
  | .key =>
      match token with
      | .colon => .blockMapping entries (.colon absent)
      | .key | .closeBlock => .blockMapping ((absent, absent) :: entries) .filled
      | _ => .blockMapping entries .key
  | .colon key =>
      if token == .colon then .blockMapping entries (.colon key)
      else .blockMapping ((key, absent) :: entries) .filled
  | .value key =>
      if [.key, .colon, .closeBlock].contains token then
        .blockMapping ((key, absent) :: entries) .filled
      else .blockMapping entries (.value key)
  | slot => .blockMapping entries slot

/-- The part of a flow mapping in front of a token, with what is left out. -/
def settleFlow (token : Token) (entries : List (Yaml × Yaml)) : Slot → Frame
  | .key =>
      match token with
      | .colon => .flowMapping entries (.colon absent)
      | .comma | .closeBrace => .flowMapping ((absent, absent) :: entries) .filled
      | _ => .flowMapping entries .key
  | .colon key =>
      if token == .colon then .flowMapping entries (.colon key)
      else .flowMapping ((key, absent) :: entries) .filled
  | .value key =>
      if [.comma, .closeBrace].contains token then
        .flowMapping ((key, absent) :: entries) .filled
      else .flowMapping entries (.value key)
  | slot => .flowMapping entries slot

def settleMapping (token : Token) : List Frame → List Frame
  | .blockMapping entries slot :: outer => settleBlock token entries slot :: outer
  | .flowMapping entries slot :: outer => settleFlow token entries slot :: outer
  | frames => frames

/-- Ends a flat sequence or a pair in front of a token. -/
def endInFront (token : Token) (node : Yaml) (outer : List Frame) : Option (List Frame) :=
  (deliver node outer).map fun progress => settleMapping token progress.frames

/-- Settles what a token shows to be left out or over. A flat sequence is over
at anything but a dash, a pair at anything that does not continue it. -/
def settle (token : Token) (frames : List Frame) : Option (List Frame) :=
  match frames with
  | .blockSequence items .ready :: outer =>
      if [.dash, .closeBlock].contains token then
        some (.blockSequence (absent :: items) .filled :: outer)
      else some frames
  | .flatSequence items .ready :: outer =>
      if token == .dash then some (.flatSequence (absent :: items) .filled :: outer)
      else if [.key, .colon, .closeBlock].contains token then
        endInFront token (.sequence (absent :: items).reverse) outer
      else some frames
  | .flatSequence items .filled :: outer =>
      if token == .dash then some frames
      else endInFront token (.sequence items.reverse) outer
  | .pair (.colon key) :: outer =>
      if token == .colon then some frames
      else endInFront token (.mapping [(key, absent)]) outer
  | .pair (.value key) :: outer =>
      if [.comma, .closeBracket].contains token then
        endInFront token (.mapping [(key, absent)]) outer
      else some frames
  | _ => some (settleMapping token frames)

def openFrame (frame : Frame) (frames : List Frame) : Option Progress :=
  if acceptsNode frames then some ⟨frame :: frames, none⟩ else none

/-- What a token does to collections that are settled. A pair without a key
takes up the token behind its mark, whichever one may end it. -/
def place (token : Token) (frames : List Frame) : Option Progress :=
  match token, frames with
  | .scalar value, _ => deliver value frames
  | .openBlockSequence, _ => openFrame (.blockSequence [] .filled) frames
  | .openBlockMapping, _ => openFrame (.blockMapping [] .filled) frames
  | .openBracket, _ => openFrame (.flowSequence [] .ready) frames
  | .openBrace, _ => openFrame (.flowMapping [] .ready) frames
  | .dash, .blockSequence items .filled :: outer =>
      some ⟨.blockSequence items .ready :: outer, none⟩
  | .dash, .flatSequence items .filled :: outer =>
      some ⟨.flatSequence items .ready :: outer, none⟩
  | .dash, .blockMapping _ .key :: _ | .dash, .blockMapping _ (.value _) :: _ =>
      some ⟨.flatSequence [] .ready :: frames, none⟩
  | .closeBlock, .blockSequence items .filled :: outer =>
      deliver (.sequence items.reverse) outer
  | .closeBlock, .blockMapping entries .filled :: outer =>
      deliver (.mapping entries.reverse) outer
  | .key, .blockMapping entries .filled :: outer =>
      some ⟨.blockMapping entries .key :: outer, none⟩
  | .key, .flowMapping entries .ready :: outer =>
      some ⟨.flowMapping entries .key :: outer, none⟩
  | .key, .flowSequence _ .ready :: _ => some ⟨.pair .key :: frames, none⟩
  | .colon, .pair .key :: outer | .comma, .pair .key :: outer
  | .closeBracket, .pair .key :: outer => some ⟨.pair (.colon absent) :: outer, none⟩
  | .colon, .pair (.colon key) :: outer => some ⟨.pair (.value key) :: outer, none⟩
  | .colon, .blockMapping entries (.colon key) :: outer =>
      some ⟨.blockMapping entries (.value key) :: outer, none⟩
  | .colon, .flowMapping entries (.colon key) :: outer =>
      some ⟨.flowMapping entries (.value key) :: outer, none⟩
  | .comma, .flowSequence items .filled :: outer =>
      some ⟨.flowSequence items .ready :: outer, none⟩
  | .comma, .flowMapping entries .filled :: outer =>
      some ⟨.flowMapping entries .ready :: outer, none⟩
  | .closeBracket, .flowSequence items .ready :: outer
  | .closeBracket, .flowSequence items .filled :: outer =>
      deliver (.sequence items.reverse) outer
  | .closeBrace, .flowMapping entries .ready :: outer
  | .closeBrace, .flowMapping entries .filled :: outer =>
      deliver (.mapping entries.reverse) outer
  | _, _ => none

def advance (progress : Progress) (token : Token) : Option Progress :=
  match progress.result with
  | some _ => none
  | none => (settle token progress.frames).bind (place token)

end Progress

/-- The node that tokens make up. -/
def ofNodeTokens (tokens : List Token) : Option Yaml :=
  match tokens.foldlM Progress.advance Progress.start with
  | some ⟨[], some node⟩ => some node
  | _ => none

/-- The only document of a text. A document that is left out is absent; its end
may be marked, but only if it has begun. -/
def ofTokens (tokens : List Token) : Option Yaml :=
  let (isMarked, content) :=
    match tokens with
    | .documentStart :: rest => (true, rest)
    | _ => (false, tokens)
  let isEnd := fun token => token == Token.documentEnd
  let node := content.takeWhile (!isEnd ·)
  let ends := content.dropWhile (!isEnd ·)
  if !ends.all isEnd then none
  else if !node.isEmpty then ofNodeTokens node
  else if isMarked || ends.isEmpty then some absent
  else none

/-- Reads a document. -/
def parse (text : String) : Option Yaml :=
  (tokens text).bind ofTokens

end Conform.Yaml
