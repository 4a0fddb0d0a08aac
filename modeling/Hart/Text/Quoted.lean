/-
This file writes texts in double quotes, for readers that are programs. Quotes, backslashes and
control characters inside the text are written so that the text stays on one line and ends at the
closing quote.
-/

import Hart.Text.Digits

namespace Hart.Text

/-- A character inside a quoted text. -/
def quotedSymbol (symbol : Char) : String :=
  if symbol = '"' then "\\\""
  else if symbol = '\\' then "\\\\"
  else if symbol.toNat < 0x20 then "\\u" ++ hexPadded '0' 4 symbol.toNat
  else String.singleton symbol

/-- A text in double quotes. -/
def quoted (text : String) : String :=
  "\"" ++ String.join (text.toList.map quotedSymbol) ++ "\""

end Hart.Text
