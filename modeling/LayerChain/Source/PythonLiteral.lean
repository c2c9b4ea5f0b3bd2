import LayerChain.Catalog.SettingValue

/-!
# Python literals

The literal of a setting value in generated source. A choice is a string literal between double
quotes, in which backslashes, double quotes and line breaks are escaped, so it never ends early
and never leaves its line.
-/

namespace LayerChain

namespace PythonLiteral

/-- How one character is written in a string literal. -/
def escape (c : Char) : List Char :=
  if c = '\\' then ['\\', '\\']
  else if c = '"' then ['\\', '"']
  else if c = '\n' then ['\\', 'n']
  else if c = '\r' then ['\\', 'r']
  else [c]

/-- The string literal of a text. -/
def quote (text : String) : String :=
  String.ofList ('"' :: (text.toList.flatMap escape ++ ['"']))

/-- The literal of a setting value. -/
def ofValue : SettingValue → String
  | .int n => toString n.toInt
  | .float x => Layout.literal.text x
  | .bool true => "True"
  | .bool false => "False"
  | .choice s => quote s
  | .auto => "None"

end PythonLiteral

end LayerChain
