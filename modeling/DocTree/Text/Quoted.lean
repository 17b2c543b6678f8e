import DocTree.Text.Unprintable
set_option autoImplicit false

/-!
# Quoted: characters between double quotes, on one line

A quoted text can be read back: quotes and backslashes are marked, line ends and
all other characters without a form of their own are written by name or number.
Single quotes stay as they are.
-/

namespace DocTree.Text

/-- A character by its code point, in lower case hexadecimal between braces. -/
def byNumber (c : Char) : List Char :=
  ['\\', 'u', '\x7b'] ++ Nat.toDigits 16 c.toNat ++ ['\x7d']

/-- How one character is written between quotes. -/
def quoteChar (c : Char) : List Char :=
  if c = '"' then ['\\', '"']
  else if c = '\\' then ['\\', '\\']
  else if c = '\n' then ['\\', 'n']
  else if c = '\r' then ['\\', 'r']
  else if c = '\t' then ['\\', 't']
  else if c = '\x00' then ['\\', '0']
  else if isUnprintable c then byNumber c
  else [c]

/-- The written form of characters between quotes, with the closing quote. -/
def quoteChars : List Char → List Char
  | [] => ['"']
  | c :: cs => quoteChar c ++ quoteChars cs

/-- A text between double quotes. -/
def quote (s : String) : String := String.ofList ('"' :: quoteChars s.toList)

end DocTree.Text
