import DocTree.Text.Lines
set_option autoImplicit false

/-!
# Utf8: characters and their bytes

`encode` writes characters as bytes.  `decodeParts` reads bytes back: it answers
the characters and, for every longest stretch of bytes that begins a character
without finishing it, or cannot begin one, the absence of a character.  Bytes are
well formed when nothing is absent.
-/

namespace DocTree.Text

/-- The bytes of a text. -/
def encode (cs : List Char) : Bytes := cs.flatMap String.utf8EncodeChar

/-- The bytes are those of some text. -/
def IsEncoded (x : Bytes) : Prop := ∃ cs, x = encode cs

/-! ## Reading -/

/-- A character of which the first bytes have been read: the number its bytes give
so far, how many bytes are missing after the next one, and the range in which the
next one has to lie. -/
structure Unfinished where
  code : Nat
  missing : Nat
  low : UInt8
  high : UInt8
  deriving DecidableEq, Repr

/-- What one more byte means: characters read or found absent, and the character it
leaves unfinished. -/
abbrev Reading := List (Option Char) × Option Unfinished

/-- Reads a byte at which a character begins.  The ranges leave out longer forms
than needed, surrogates, and numbers that no character has. -/
def beginChar (b : UInt8) : Reading :=
  if b < 0x80 then ([some (Char.ofNat b.toNat)], none)
  else if b < 0xC2 then ([none], none)
  else if b < 0xE0 then ([], some ⟨b.toNat % 32, 0, 0x80, 0xBF⟩)
  else if b = 0xE0 then ([], some ⟨0, 1, 0xA0, 0xBF⟩)
  else if b = 0xED then ([], some ⟨13, 1, 0x80, 0x9F⟩)
  else if b < 0xF0 then ([], some ⟨b.toNat % 16, 1, 0x80, 0xBF⟩)
  else if b = 0xF0 then ([], some ⟨0, 2, 0x90, 0xBF⟩)
  else if b < 0xF4 then ([], some ⟨b.toNat % 8, 2, 0x80, 0xBF⟩)
  else if b = 0xF4 then ([], some ⟨4, 2, 0x80, 0x8F⟩)
  else ([none], none)

/-- Reads a byte inside a character.  A byte out of range ends the character
unfinished and is read again at the beginning of another one. -/
def continueChar (u : Unfinished) (b : UInt8) : Reading :=
  if u.low ≤ b ∧ b ≤ u.high then
    let code := u.code * 64 + b.toNat % 64
    match u.missing with
    | 0 => ([some (Char.ofNat code)], none)
    | missing + 1 => ([], some ⟨code, missing, 0x80, 0xBF⟩)
  else
    let again := beginChar b
    (none :: again.1, again.2)

/-- Reads bytes after an unfinished character, if there is one. -/
def decodeFrom (u : Option Unfinished) : Bytes → List (Option Char)
  | [] => if u.isSome then [none] else []
  | b :: bs =>
    let read :=
      match u with
      | none => beginChar b
      | some u => continueChar u b
    read.1 ++ decodeFrom read.2 bs

/-- The characters of a byte string, and their absences. -/
def decodeParts (x : Bytes) : List (Option Char) := decodeFrom none x

/-- The characters of a byte string, if nothing is absent. -/
def decode? (x : Bytes) : Option (List Char) := (decodeParts x).mapM id

/-- The characters of a byte string, with the replacement character for whatever is
absent. -/
def decodeReplacing (x : Bytes) : List Char :=
  (decodeParts x).map fun c => c.getD (Char.ofNat 0xFFFD)

end DocTree.Text
