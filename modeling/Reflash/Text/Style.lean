/-!
# Styled text

Text that a terminal shows in a colour, where colours are wanted.
-/

namespace Reflash.Text

inductive Style where
  | good
  | notable
  | alarming
  deriving DecidableEq

def Style.code : Style → String
  | good => "32"
  | notable => "33"
  | alarming => "1;31"

def styled (colored : Bool) (style : Style) (text : String) : String :=
  if colored then "\x1b[" ++ style.code ++ "m" ++ text ++ "\x1b[0m" else text

end Reflash.Text
