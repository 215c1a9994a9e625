import FlowDiagram.Text.Printable

/-!
# Texts quoted for a reader

`quoted s` puts `s` between double quotes. Inside, a quote and a backslash follow a backslash,
the usual controls have their letter, and every other concealed character is written by its code
point in lower-case hexadecimal digits.
-/

namespace FlowDiagram.Text

/-- A character as it stands between quotes. -/
def shown (c : Char) : List Char :=
  if c = '"' then ['\\', '"']
  else if c = '\\' then ['\\', '\\']
  else if c = '\n' then ['\\', 'n']
  else if c = '\r' then ['\\', 'r']
  else if c = '\t' then ['\\', 't']
  else if c = '\x00' then ['\\', '0']
  else if isConcealed c then
    ['\\', 'u', '\x7b'] ++ Nat.toDigits 16 c.toNat ++ ['\x7d']
  else [c]

def quoted (s : String) : String :=
  String.ofList ('"' :: s.toList.flatMap shown ++ ['"'])

end FlowDiagram.Text
