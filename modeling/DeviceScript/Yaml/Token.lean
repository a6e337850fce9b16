/-!
# Tokens of a YAML text

A YAML text is a sequence of tokens.  Most of them are marks that stand in the text; the tokens that
begin and end a block stand for a change of indentation, and the token before a key stands for the
colon that follows the key.

This module also has the character classes on which the forms of the tokens rest.
-/

namespace DeviceScript.Yaml

/-! ## 1. Characters -/

/-- A character that may stand in a YAML text. -/
def isAllowed (c : Char) : Bool :=
  let n := c.toNat
  n == 0x09 || n == 0x0A || n == 0x0D || (0x20 ≤ n && n ≤ 0x7E) || n == 0x85 ||
    (0xA0 ≤ n && n ≤ 0xD7FF) || (0xE000 ≤ n && n ≤ 0xFFFD) || 0x10000 ≤ n

/-- A space or a tab. -/
def isSpacing (c : Char) : Bool :=
  c == ' ' || c == '\t'

/-- A character that ends a line. -/
def isBreak (c : Char) : Bool :=
  let n := c.toNat
  n == 0x0A || n == 0x0D || n == 0x85 || n == 0x2028 || n == 0x2029

/-- A character that stands between words. -/
def isGap (c : Char) : Bool :=
  isSpacing c || isBreak c

/-- A character of an anchor or of the name of a directive. -/
def isNameChar (c : Char) : Bool :=
  c.isAlphanum || c == '_' || c == '-'

/-- Whether a text is at its end or begins with a gap. -/
def atGap : List Char → Bool
  | [] => true
  | c :: _ => isGap c

/-- Whether a text is at its end or begins with a line break. -/
def atLineEnd : List Char → Bool
  | [] => true
  | c :: _ => isBreak c

/-- The text after the line break it begins with; a carriage return and a line feed are one. -/
def afterBreak : List Char → List Char
  | '\r' :: '\n' :: r => r
  | r => r.drop 1

/-- The line breaks in a text, all but two of them as line feeds. -/
def breaks : List Char → List Char
  | [] => []
  | '\r' :: '\n' :: r => '\n' :: breaks r
  | c :: r =>
    if c.toNat = 0x2028 ∨ c.toNat = 0x2029 then c :: breaks r
    else if isBreak c then '\n' :: breaks r
    else breaks r

/-- What a gap inside a scalar stands for: a single line break becomes a space, and of several line
breaks the first is dropped. -/
def folded (gap : List Char) : List Char :=
  match breaks gap with
  | [] => gap
  | '\n' :: [] => [' ']
  | '\n' :: more => more
  | first :: more => first :: more

/-- The number of characters after the last line break. -/
def lastColumn (gap : List Char) : Nat :=
  (gap.reverse.takeWhile (!isBreak ·)).length

/-- Whether a text begins with three times this character and then a gap. -/
def isTriple (c : Char) : List Char → Bool
  | a :: b :: d :: r => a == c && b == c && d == c && atGap r
  | _ => false

/-- Whether a text that begins a line begins with the mark of a document's start or end. -/
def isDocumentMark (cs : List Char) : Bool :=
  isTriple '-' cs || isTriple '.' cs

/-! ## 2. Tokens -/

/-- A token. -/
inductive Token where
  | documentStart
  | documentEnd
  | version (major minor : Nat)
  /-- A handle and what it stands for. -/
  | handle (handle meaning : String)
  | blockSequenceStart
  | blockMappingStart
  | blockEnd
  | flowSequenceStart
  | flowSequenceEnd
  | flowMappingStart
  | flowMappingEnd
  | blockEntry
  | flowEntry
  | key
  | value
  | aliasOf (name : String)
  | anchor (name : String)
  | tag (handle suffix : String)
  | scalar (plain : Bool) (text : String)
  deriving Repr, DecidableEq

end DeviceScript.Yaml
