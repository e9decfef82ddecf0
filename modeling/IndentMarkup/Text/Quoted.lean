import IndentMarkup.Text.Basic
import IndentMarkup.Text.Unprintable

/-!
# Quoted text

Diagnostics and token listings show text between quotation marks, with escapes for
what would be invisible.
-/

namespace IndentMarkup.Text

def ofHex (n : Nat) : Text :=
  Nat.toDigits 16 n

/-- How a character is written between quotation marks of the given kind. -/
def escapeChar (mark : Char) (c : Char) : Text :=
  if c = '\x00' then ['\\', '0']
  else if c = '\t' then ['\\', 't']
  else if c = '\n' then ['\\', 'n']
  else if c = '\r' then ['\\', 'r']
  else if c = '\\' ∨ c = mark then ['\\', c]
  else if isUnprintable c then ['\\', 'u', '{'] ++ ofHex c.toNat ++ ['}']
  else [c]

def quoted (text : Text) : String :=
  String.ofList ('"' :: text.flatMap (escapeChar '"') ++ ['"'])

def quotedChar (c : Char) : String :=
  String.ofList ('\'' :: escapeChar '\'' c ++ ['\''])

end IndentMarkup.Text
