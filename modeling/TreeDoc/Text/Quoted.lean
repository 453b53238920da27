/-
  Quoted text: a string between double quotes, on one line.

  * `quotedChar`: how one character is written between the quotes;
  * `quoted`: the whole text with its quotes.
-/
import TreeDoc.Text.Unprintable

namespace TreeDoc.Text

/-- A number in lowercase hexadecimal, without padding. -/
def hex (n : Nat) : String := String.ofList (Nat.toDigits 16 n)

/-- How one character is written between the quotes: the quote, the backslash
    and four controls by a short escape, every other character without a
    printable form by its code point, the rest as it is. -/
def quotedChar (c : Char) : String :=
  match c with
  | '"' => "\\\""
  | '\\' => "\\\\"
  | '\n' => "\\n"
  | '\r' => "\\r"
  | '\t' => "\\t"
  | '\x00' => "\\0"
  | _ => if c < ' ' || isUnprintable c then "\\u\x7b" ++ hex c.toNat ++ "\x7d" else c.toString

/-- The text between double quotes. -/
def quoted (s : String) : String :=
  "\"" ++ String.join (s.toList.map quotedChar) ++ "\""

end TreeDoc.Text
