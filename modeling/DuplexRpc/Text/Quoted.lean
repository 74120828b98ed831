import DuplexRpc.Text.Printable

/-!
# Quoted text

A quoted text stands between double quotes and keeps to one printable line: the
quote, the backslash and the controls that have a letter are written with a
backslash, and every other character that leaves no mark of its own is written as
its code point in hexadecimal.
-/

namespace DuplexRpc.Text

/-- A number in lower-case hexadecimal without leading zeros. -/
def hex (n : Nat) : String := String.ofList (Nat.toDigits 16 n)

/-- How a character is written between the quotes. -/
def quoteChar (c : Char) : String :=
  if c = '\x00' then "\\0"
  else if c = '\t' then "\\t"
  else if c = '\r' then "\\r"
  else if c = '\n' then "\\n"
  else if c = '"' then "\\\""
  else if c = '\\' then "\\\\"
  else if isExtending c || !isPrintable c then "\\u\x7b" ++ hex c.toNat ++ "\x7d"
  else c.toString

/-- A text between double quotes, on one printable line. -/
def quote (s : String) : String :=
  "\"" ++ String.join (s.toList.map quoteChar) ++ "\""

end DuplexRpc.Text
