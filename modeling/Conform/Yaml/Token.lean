import Conform.Yaml.Basic

/-!
The tokens of a YAML text.

Block collections have brackets too, which the text shows by its columns; a key
has a mark in front, which the text shows by the colon behind it.
-/

namespace Conform.Yaml

inductive Token where
  | documentStart
  | documentEnd
  | openBlockSequence
  | openBlockMapping
  | closeBlock
  | dash
  | openBracket
  | closeBracket
  | openBrace
  | closeBrace
  | comma
  | key
  | colon
  | scalar (value : Yaml)
deriving Repr, BEq

end Conform.Yaml
