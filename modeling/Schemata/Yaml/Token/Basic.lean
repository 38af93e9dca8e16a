import Schemata.Yaml.Scalar.Basic
import Schemata.Yaml.Tag
namespace Schemata

/-! Tokens of a YAML text that holds a mapping of scalars. -/

namespace Yaml

inductive Token where
  | directive (directive : Directive)
  | documentStart
  | documentEnd
  /-- The first entry of a mapping that is a block. -/
  | blockStart
  | blockEnd
  | openBrace
  | closeBrace
  | comma
  | key
  | value
  | anchor (name : String)
  | alias (name : String)
  | tag (tag : Tag)
  | scalar (style : Style) (text : String)
deriving DecidableEq

end Yaml

end Schemata
