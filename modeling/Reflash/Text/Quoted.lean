import Reflash.Text.Numeral
import Reflash.Text.Printable
/-!
# Quoted text

A string between double quotes, with everything that a terminal would not show as itself spelled
out: a quote and a backslash by a backslash, four controls by a letter, any other character
without a form of its own by its code point.
-/

namespace Reflash.Text

def quotedChar (c : Char) : String :=
  if c = '\x00' then "\\0"
  else if c = '\t' then "\\t"
  else if c = '\n' then "\\n"
  else if c = '\r' then "\\r"
  else if c = '"' then "\\\""
  else if c = '\\' then "\\\\"
  else if isPlain c then c.toString
  else "\\u" ++ "\x7b" ++ hexDigits c.toNat ++ "\x7d"

def quoted (s : String) : String :=
  "\"" ++ s.toList.foldl (fun text c => text ++ quotedChar c) "" ++ "\""

end Reflash.Text
