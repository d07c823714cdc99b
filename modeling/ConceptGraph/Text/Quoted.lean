/-
Text between double quotes, as messages show it: quotes and backslashes are escaped, the common controls have short
escapes, and a character that cannot be shown by itself is given by its code point. Everything else stands as it is.
-/
import ConceptGraph.Text.Unprintable

namespace ConceptGraph.Text

/-- a code point between braces, in lower-case hexadecimal -/
def codePointEscape (c : Char) : List Char :=
  '\\' :: 'u' :: '{' :: Nat.toDigits 16 c.toNat ++ ['}']

/-- how one character stands between quotes -/
def quotedChar (c : Char) : List Char :=
  if c = '"' then ['\\', '"']
  else if c = '\\' then ['\\', '\\']
  else if c = '\n' then ['\\', 'n']
  else if c = '\r' then ['\\', 'r']
  else if c = '\t' then ['\\', 't']
  else if c.toNat = 0 then ['\\', '0']
  else if isUnprintable c then codePointEscape c
  else [c]

/-- the text between quotes -/
def quoted (s : String) : String := String.ofList ('"' :: s.toList.flatMap quotedChar ++ ['"'])

end ConceptGraph.Text
