import GraphScan.Value.Basic
import GraphScan.Decimal.Layout
import GraphScan.Text.Quoted

/-!
# The text of values

Two forms are in use.  `Value.render` shows a cell in a table listing or a message.
`Value.describe` also names its kind and quotes texts, for the one message that has to show exactly
what was found in place of an id.
-/

namespace GraphScan

namespace Value

/-- **A cell as a listing shows it.**  Text stands between apostrophes and is not escaped. -/
def render : Value → String
  | .bool b => toString b
  | .float x => x.render .plain
  | .int n => toString n.toInt
  | .null => "NULL"
  | .text s => s!"'{s}'"

def describe : Value → String
  | .bool b => s!"Bool({b})"
  | .float x => "Float64(" ++ x.render .tagged ++ ")"
  | .int n => "Int(" ++ toString n.toInt ++ ")"
  | .null => "Null"
  | .text s => "Text(" ++ Text.quoted s ++ ")"

/-- What was found where a cell was expected. -/
def describeFound : Option Value → String
  | none => "None"
  | some v => "Some(" ++ v.describe ++ ")"

end Value

end GraphScan
