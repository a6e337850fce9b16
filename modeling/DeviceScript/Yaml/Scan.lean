import DeviceScript.Yaml.Mark
/-!
# Finding the tokens

The tokens of a text are found from its start to its end.  Two things go beyond looking at the next
characters.

Outside brackets, the indentation of a line decides which blocks begin and end there.

A key is recognised only by the colon behind it.  Wherever a key may stand, the place is kept in
mind (`PendingKey`), one for each level of brackets, until the colon comes or can no longer come: a
key has no line break in it and at most 1024 characters.  When the colon comes, the token for the
key is put in at that place.  Outside brackets, something at the indentation of its block has to be
a key, and it is an error if no colon comes.
-/

namespace DeviceScript.Yaml

/-- A place in the text: the characters before it, the lines before it, and the characters before it
on its line. -/
structure Place where
  index : Nat := 0
  line : Nat := 0
  column : Nat := 0
  deriving Repr, DecidableEq

/-- The place after these characters. -/
def Place.after (p : Place) : List Char → Place
  | [] => p
  | '\r' :: '\n' :: r => Place.after ⟨p.index + 2, p.line + 1, 0⟩ r
  | c :: r =>
    if isBreak c then Place.after ⟨p.index + 1, p.line + 1, 0⟩ r
    else Place.after ⟨p.index + 1, p.line, p.column + 1⟩ r

/-- A place where a key may have begun: how many tokens there are before it, and whether it has to
be a key. -/
structure PendingKey where
  position : Nat
  place : Place
  required : Bool
  deriving Repr, DecidableEq

/-- How far the tokens of a text have been found. -/
structure Scanner where
  rest : List Char
  place : Place := {}
  /-- The indentation of the innermost block, if there is one. -/
  indent : Option Nat := none
  /-- The indentations of the blocks around it. -/
  outer : List (Option Nat) := []
  /-- Whether a key may begin here. -/
  keyAllowed : Bool := true
  /-- The pending keys, the first for the innermost brackets and the last for the text outside. -/
  keys : List (Option PendingKey) := [none]
  tokens : Array Token := #[]

namespace Scanner

/-- The scanner at the start of a text.  A byte order mark there is passed over; the one that names
the encoding is not part of the text. -/
def start (cs : List Char) : Scanner :=
  match cs with
  | '\ufeff' :: '\ufeff' :: r => { rest := r, place := ⟨1, 0, 1⟩ }
  | '\ufeff' :: r => { rest := r }
  | r => { rest := r }

/-- Whether the place is between brackets. -/
def inFlow (s : Scanner) : Bool :=
  s.keys.length > 1

/-- The scanner at a later part of its text. -/
def moveTo (s : Scanner) (rest : List Char) : Scanner :=
  { s with rest, place := s.place.after (s.rest.take (s.rest.length - rest.length)) }

/-- The scanner with one more token. -/
def push (s : Scanner) (t : Token) : Scanner :=
  { s with tokens := s.tokens.push t }

/-- The scanner with tokens put in before one that is there already. -/
def insert (s : Scanner) (position : Nat) (ts : List Token) : Scanner :=
  { s with
    tokens := s.tokens.extract 0 position ++ ts.toArray ++
      s.tokens.extract position s.tokens.size }

/-! ## 1. Pending keys -/

/-- Whether a colon behind a pending key would come too late here. -/
def isStale (s : Scanner) (k : PendingKey) : Bool :=
  k.place.line < s.place.line || k.place.index + 1024 < s.place.index

/-- Pending keys without those for which a colon would come too late. -/
def freshKeys? (s : Scanner) : List (Option PendingKey) → Option (List (Option PendingKey))
  | [] => some []
  | none :: r => (s.freshKeys? r).map (none :: ·)
  | some k :: r =>
    if s.isStale k then if k.required then none else (s.freshKeys? r).map (none :: ·)
    else (s.freshKeys? r).map (some k :: ·)

/-- The scanner without pending keys for which a colon would come too late. -/
def dropStale? (s : Scanner) : Option Scanner :=
  (s.freshKeys? s.keys).map fun keys => { s with keys }

/-- The scanner without the innermost pending key. -/
def dropKey? (s : Scanner) : Option Scanner :=
  match s.keys with
  | some k :: r => if k.required then none else some { s with keys := none :: r }
  | _ => some s

/-- The scanner that keeps this place in mind, if a key may begin here. -/
def keepKey? (s : Scanner) : Option Scanner :=
  if s.keyAllowed then
    let k : PendingKey := {
      position := s.tokens.size
      place := s.place
      required := !s.inFlow && s.indent == some s.place.column }
    s.dropKey?.map fun s => { s with keys := some k :: s.keys.drop 1 }
  else some s

/-! ## 2. Indentation -/

/-- Whether a column lies further in than the innermost block. -/
def isDeeper (s : Scanner) (column : Nat) : Bool :=
  s.indent.all (· < column)

/-- The scanner in a new block, if the column lies further in than the innermost one; the token that
begins the block comes before the token at `position`. -/
def openBlock (s : Scanner) (column position : Nat) (t : Token) : Scanner :=
  if !s.inFlow && s.isDeeper column then
    { s.insert position [t] with outer := s.indent :: s.outer, indent := some column }
  else s

/-- End the blocks that lie further in than a column, or all of them. -/
def closeBlocksFrom (column : Option Nat) : List (Option Nat) → Scanner → Scanner
  | [], s => s
  | i :: r, s =>
    if s.indent.any fun n => column.all (· < n) then
      closeBlocksFrom column r { s.push .blockEnd with indent := i, outer := r }
    else s

/-- End the blocks that lie further in than a column, or all of them. -/
def closeBlocks (s : Scanner) (column : Option Nat) : Scanner :=
  if s.inFlow then s else closeBlocksFrom column s.outer s

/-! ## 3. Single tokens -/

/-- Pass over blanks, comments and line breaks.  Outside brackets a key may begin on a new line.  A
tab is passed over only where no key may begin. -/
def skipGap (inFlow : Bool) : (bound : Nat) → (keyAllowed : Bool) → List Char → Bool × List Char
  | 0, keyAllowed, r => (keyAllowed, r)
  | bound + 1, keyAllowed, r =>
    let r := r.dropWhile fun c => c == ' ' || ((inFlow || !keyAllowed) && c == '\t')
    let r := if r.head? == some '#' then r.dropWhile (!isBreak ·) else r
    if r.head?.any isBreak then skipGap inFlow bound (keyAllowed || !inFlow) (afterBreak r)
    else (keyAllowed, r)

/-- The scanner where the next token begins. -/
def toNextToken (s : Scanner) : Scanner :=
  let (keyAllowed, r) := skipGap s.inFlow (s.rest.length + 1) s.keyAllowed s.rest
  { s.moveTo r with keyAllowed }

/-- Take a token of `width` characters. -/
def take (s : Scanner) (width : Nat) (t : Token) : Scanner :=
  (s.push t).moveTo (s.rest.drop width)

/-- All blocks end, and no key is pending. -/
def finish? (s : Scanner) : Option Scanner :=
  (s.closeBlocks none).dropKey?.map fun s => { s with keyAllowed := false }

/-- A document's start or end. -/
def documentMark? (s : Scanner) (t : Token) : Option Scanner :=
  s.finish?.map (·.take 3 t)

/-- A directive. -/
def directive? (s : Scanner) : Option Scanner := do
  let s ← s.finish?
  let (t, r) ← readDirective? (s.rest.drop 1)
  pure ((s.push t).moveTo r)

/-- An opening bracket. -/
def openFlow? (s : Scanner) (t : Token) : Option Scanner :=
  s.keepKey?.map fun s => { s.take 1 t with keys := none :: s.keys, keyAllowed := true }

/-- A closing bracket. -/
def closeFlow? (s : Scanner) (t : Token) : Option Scanner :=
  s.dropKey?.map fun s =>
    { s.take 1 t with keys := if s.inFlow then s.keys.drop 1 else s.keys, keyAllowed := false }

/-- A comma between brackets. -/
def flowEntry? (s : Scanner) : Option Scanner :=
  s.dropKey?.map fun s => { s.take 1 .flowEntry with keyAllowed := true }

/-- The dash of an item. -/
def blockEntry? (s : Scanner) : Option Scanner :=
  if !s.inFlow && !s.keyAllowed then none
  else
    (s.openBlock s.place.column s.tokens.size .blockSequenceStart).dropKey?.map fun s =>
      { s.take 1 .blockEntry with keyAllowed := true }

/-- The question mark before a key. -/
def key? (s : Scanner) : Option Scanner :=
  if !s.inFlow && !s.keyAllowed then none
  else
    (s.openBlock s.place.column s.tokens.size .blockMappingStart).dropKey?.map fun s =>
      { s.take 1 .key with keyAllowed := !s.inFlow }

/-- The colon before a value: the pending key is a key, or else the key is empty or was
announced. -/
def value? (s : Scanner) : Option Scanner :=
  match s.keys with
  | some k :: r =>
    let s := (s.insert k.position [.key]).openBlock k.place.column k.position .blockMappingStart
    some { s.take 1 .value with keys := none :: r, keyAllowed := false }
  | _ =>
    if !s.inFlow && !s.keyAllowed then none
    else
      let s := s.openBlock s.place.column s.tokens.size .blockMappingStart
      some { s.take 1 .value with keyAllowed := !s.inFlow }

/-- A part of a node that may be a key: its token and the rest of the text. -/
def nodePart? (s : Scanner) (read : List Char → Option (Token × List Char)) : Option Scanner := do
  let s ← s.keepKey?
  let (t, r) ← read s.rest
  pure { (s.push t).moveTo r with keyAllowed := false }

/-- A plain scalar; if it reached over the end of a line, a key may begin behind it. -/
def plain? (s : Scanner) : Option Scanner := do
  let s ← s.keepKey?
  let least := match s.indent with
    | some n => n + 1
    | none => 0
  let (text, broken, r) ← readPlain? s.inFlow least s.rest
  pure { (s.push (.scalar true (String.ofList text))).moveTo r with keyAllowed := broken }

/-- A block scalar. -/
def block? (s : Scanner) (literal : Bool) : Option Scanner := do
  let s ← s.dropKey?
  let (text, r) ← readBlock? literal s.indent (s.rest.drop 1)
  pure { (s.push (.scalar false (String.ofList text))).moveTo r with keyAllowed := true }

/-- The token of a quoted scalar, and the rest. -/
def readQuotedToken? (quote : Char) (cs : List Char) : Option (Token × List Char) :=
  (readQuoted? quote (cs.drop 1)).map fun (t, r) => (.scalar false (String.ofList t), r)

/-- A character that no plain scalar begins with. -/
def isIndicator (c : Char) : Bool :=
  "-?:,[]\x7b\x7d#&*!|>'\"%@`".toList.contains c

/-- Take the next token of a text that is not at its end and begins with one. -/
def token? (s : Scanner) (c : Char) (r : List Char) : Option Scanner :=
  let lineStart := s.place.column == 0
  if lineStart && c == '%' then s.directive?
  else if lineStart && isTriple '-' s.rest then s.documentMark? .documentStart
  else if lineStart && isTriple '.' s.rest then s.documentMark? .documentEnd
  else if c == '[' then s.openFlow? .flowSequenceStart
  else if c == '\x7b' then s.openFlow? .flowMappingStart
  else if c == ']' then s.closeFlow? .flowSequenceEnd
  else if c == '\x7d' then s.closeFlow? .flowMappingEnd
  else if c == ',' then s.flowEntry?
  else if c == '-' && atGap r then s.blockEntry?
  else if c == '?' && (s.inFlow || atGap r) then s.key?
  else if c == ':' && (s.inFlow || atGap r) then s.value?
  else if c == '*' then
    s.nodePart? fun cs => (readName? (cs.drop 1)).map fun (n, r) => (.aliasOf n, r)
  else if c == '&' then
    s.nodePart? fun cs => (readName? (cs.drop 1)).map fun (n, r) => (.anchor n, r)
  else if c == '!' then s.nodePart? (readTag? s.inFlow)
  else if c == '|' && !s.inFlow then s.block? true
  else if c == '>' && !s.inFlow then s.block? false
  else if c == '\'' || c == '"' then s.nodePart? (readQuotedToken? c)
  else if !isIndicator c && !isGap c then s.plain?
  else if c == '-' && !r.head?.any isSpacing then s.plain?
  else if !s.inFlow && (c == '?' || c == ':') && !atGap r then s.plain?
  else none

/-- Find the rest of the tokens.  Every token takes at least one character, so a bound as large as
the text is never reached. -/
def run? : (bound : Nat) → Scanner → Option (List Token)
  | 0, _ => none
  | bound + 1, s => do
    let s ← s.toNextToken.dropStale?
    let s := s.closeBlocks (some s.place.column)
    match s.rest with
    | [] => (← s.finish?).tokens.toList
    | c :: r => run? bound (← s.token? c r)

end Scanner

/-- The tokens of a text, if it has any that make sense one by one. -/
def Token.ofText? (cs : List Char) : Option (List Token) :=
  if cs.all isAllowed then Scanner.run? (cs.length + 1) (.start cs) else none

end DeviceScript.Yaml
