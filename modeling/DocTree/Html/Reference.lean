import Std.Data.HashMap
import DocTree.Html.Char
import DocTree.Html.EntityTable
set_option autoImplicit false

/-!
# Reference: characters written by name or by number

An ampersand may begin a reference to a character, by a name of the table or by a
number.  A name is read as far as a longer one is possible.  Some old names need
no semicolon; in the value of an attribute such a name is left as it is when what
follows could belong to it, since there it is more often part of an address.
-/

namespace DocTree.Html

/-! ## Names -/

/-- A number in hexadecimal digits. -/
def hexValue (s : String) : Nat :=
  s.toList.foldl (fun n c => n * 16 + (if c.isDigit then c.toNat - 48 else c.toLower.toNat - 87)) 0

/-- The name and the characters of one entry of the table. -/
def readEntry (entry : String) : String × List Char :=
  match entry.splitOn "=" with
  | [name, codes] => (name, (codes.splitOn ",").map fun code => Char.ofNat (hexValue code))
  | _ => (entry, [])

/-- The characters that the names stand for. -/
def entities : Std.HashMap String (List Char) :=
  Std.HashMap.ofList (entityLines.flatMap fun line => (line.splitOn " ").map readEntry)

/-- No name is longer than this. -/
def longestName : Nat := 32

/-- The longest name of at most `limit` characters with which the text begins: its
length and the characters that it stands for. -/
def nameAt? (cs : List Char) : (limit : Nat) → Option (Nat × List Char)
  | 0 => none
  | limit + 1 =>
    if limit < cs.length then
      match entities[String.ofList (cs.take (limit + 1))]? with
      | some chars => some (limit + 1, chars)
      | none => nameAt? cs limit
    else nameAt? cs limit

/-! ## Numbers -/

/-- What the numbers from `0x80` to `0x9F` are taken for, as far as they are taken
for another character. -/
def numbersTakenFor : List (Nat × Nat) := [
  (0x80, 0x20AC), (0x82, 0x201A), (0x83, 0x0192), (0x84, 0x201E), (0x85, 0x2026),
  (0x86, 0x2020), (0x87, 0x2021), (0x88, 0x02C6), (0x89, 0x2030), (0x8A, 0x0160),
  (0x8B, 0x2039), (0x8C, 0x0152), (0x8E, 0x017D), (0x91, 0x2018), (0x92, 0x2019),
  (0x93, 0x201C), (0x94, 0x201D), (0x95, 0x2022), (0x96, 0x2013), (0x97, 0x2014),
  (0x98, 0x02DC), (0x99, 0x2122), (0x9A, 0x0161), (0x9B, 0x203A), (0x9C, 0x0153),
  (0x9E, 0x017E), (0x9F, 0x0178)]

/-- The character that a number refers to. -/
def charOfNumber (n : Nat) : Char :=
  if n = 0 ∨ 0x10FFFF < n ∨ (0xD800 ≤ n ∧ n ≤ 0xDFFF) then replacement
  else Char.ofNat ((numbersTakenFor.lookup n).getD n)

/-- The value of a digit in a base of at most sixteen. -/
def digit? (base : Nat) (c : Char) : Option Nat :=
  let value? : Option Nat :=
    if c.isDigit then some (c.toNat - 48)
    else if 'a' ≤ c.toLower ∧ c.toLower ≤ 'f' then some (c.toLower.toNat - 87)
    else none
  value?.filter fun d => d < base

/-- The digits with which a text begins, as values. -/
def digits (base : Nat) (cs : List Char) : List Nat :=
  (cs.takeWhile fun c => (digit? base c).isSome).filterMap (digit? base)

/-! ## References -/

/-- What an ampersand turned out to mean. -/
structure Reference where
  /-- The characters that take its place. -/
  chars : List Char
  /-- How many characters behind the ampersand belong to it. -/
  taken : Nat
  /-- It was written without the semicolon that a number needs. -/
  unfinished : Bool
  deriving DecidableEq, Repr

namespace Reference

/-- The ampersand means itself. -/
def ampersand : Reference := ⟨['&'], 0, false⟩

/-- A reference by number; `cs` is behind `skipped` characters that announce it. -/
def byNumber (base skipped : Nat) (cs : List Char) : Reference :=
  match digits base cs with
  | [] => ampersand
  | ds =>
    let char := charOfNumber (ds.foldl (fun n d => n * base + d) 0)
    match cs.drop ds.length with
    | ';' :: _ => ⟨[char], skipped + ds.length + 1, false⟩
    | _ => ⟨[char], skipped + ds.length, true⟩

/-- A reference by name. -/
def byName (inAttribute : Bool) (cs : List Char) : Reference :=
  match nameAt? cs longestName with
  | none => ampersand
  | some (length, chars) =>
    let closed := (cs.take length).getLast? = some ';'
    let goesOn := (cs.drop length).head?.any fun c => c == '=' || isAlphanumeric c
    if inAttribute ∧ ¬ closed ∧ goesOn then ampersand else ⟨chars, length, false⟩

/-- Reads what stands behind an ampersand. -/
def read (inAttribute : Bool) : List Char → Reference
  | '#' :: 'x' :: cs => byNumber 16 2 cs
  | '#' :: 'X' :: cs => byNumber 16 2 cs
  | '#' :: cs => byNumber 10 1 cs
  | cs => byName inAttribute cs

end Reference

/-! ## Resolving -/

/-- One character of a resolved text. -/
inductive Resolved where
  /-- A character that stood in the text itself. -/
  | plain (c : Char)
  /-- A character that a reference stands for. -/
  | referred (c : Char)
  /-- A reference was unfinished; the character it stands for comes next. -/
  | mistake
  deriving DecidableEq, Repr

/-- Resolves the references of a text of which the first `skip` characters are
already done. -/
def resolveFrom (inAttribute : Bool) : (skip : Nat) → List Char → List Resolved
  | _, [] => []
  | skip + 1, _ :: cs => resolveFrom inAttribute skip cs
  | 0, c :: cs =>
    if c = '&' then
      let r := Reference.read inAttribute cs
      (if r.unfinished then [.mistake] else []) ++ r.chars.map .referred ++
        resolveFrom inAttribute r.taken cs
    else .plain c :: resolveFrom inAttribute 0 cs

/-- Resolves the references of a text. -/
def resolve (cs : List Char) : List Resolved := resolveFrom false 0 cs

/-- The value of an attribute as it was written, with its references resolved. -/
def attributeValue (cs : List Char) : String :=
  String.ofList ((resolveFrom true 0 cs).filterMap fun
    | .plain c => some (keep c)
    | .referred c => some c
    | .mistake => none)

end DocTree.Html
