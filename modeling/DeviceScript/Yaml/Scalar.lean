import DeviceScript.Text.Hex
import DeviceScript.Yaml.Token
/-!
# The forms of scalars

A scalar is written plain, between single or double quotes, or as a block of lines.  Each reader
takes the text from where the scalar begins and gives the scalar's text and what follows it.

Every round of a reader's loop consumes at least one character, so a bound as large as the text is
never reached.
-/

namespace DeviceScript.Yaml

/-! ## 1. Plain scalars -/

/-- One of the marks that divide a collection between brackets. -/
def isFlowMark (c : Char) : Bool :=
  c == ',' || c == '[' || c == ']' || c == '\x7b' || c == '\x7d'

/-- The characters of a plain scalar up to a gap or a mark that ends it, and the rest.  Between
brackets a colon must not stand right before one of their marks. -/
def readPlainChunk? (inFlow : Bool) : List Char → Option (List Char × List Char)
  | [] => some ([], [])
  | c :: r =>
    if isGap c then some ([], c :: r)
    else if inFlow && c == ':' && (r.head?.any fun d => isFlowMark d || d == '?') then none
    else if c == ':' && atGap r then some ([], c :: r)
    else if inFlow && isFlowMark c then some ([], c :: r)
    else (readPlainChunk? inFlow r).map fun (chunk, rest) => (c :: chunk, rest)

/-- Whether a tab stands in the indentation of a line, before `indent`.  The first line does not
count, unless it is known to be a whole one. -/
def hasEarlyTab (indent : Nat) : (whole : Bool) → (column : Nat) → List Char → Bool
  | _, _, [] => false
  | whole, column, c :: r =>
    if isBreak c then hasEarlyTab indent true 0 r
    else (whole && c == '\t' && column < indent) || hasEarlyTab indent whole (column + 1) r

/-- The text of a plain scalar, whether it was ended by the end of a line, and the rest; `gap` stands
for the gap before it, which counts only if something follows. -/
def readPlainFrom? (inFlow : Bool) (indent : Nat) :
    (bound : Nat) → (gap : List Char) → (broken lineStart : Bool) → List Char →
    Option (List Char × Bool × List Char)
  | 0, _, _, _, _ => none
  | bound + 1, gap, broken, lineStart, cs =>
    if (lineStart && isDocumentMark cs) || cs.head? == some '#' then some ([], broken, cs)
    else
      match readPlainChunk? inFlow cs with
      | none => none
      | some ([], _) => some ([], broken, cs)
      | some (chunk, r) =>
        let run := r.takeWhile isGap
        let r := r.dropWhile isGap
        let broken := run.any isBreak
        if run.isEmpty then some (gap ++ chunk, false, r)
        else if hasEarlyTab indent false 0 run then none
        else if !inFlow && broken && lastColumn run < indent then some (gap ++ chunk, broken, r)
        else
          (readPlainFrom? inFlow indent bound (folded run) broken
            (broken && lastColumn run == 0) r).map fun (t, rest) => (gap ++ chunk ++ t, rest)

/-- The text of a plain scalar, whether it was ended by the end of a line, and the rest. -/
def readPlain? (inFlow : Bool) (indent : Nat) (cs : List Char) :
    Option (List Char × Bool × List Char) :=
  readPlainFrom? inFlow indent (cs.length + 1) [] false false cs

/-! ## 2. Quoted scalars -/

/-- What stands between quotes up to a gap or the closing quote: its text, whether it was ended by
an escaped line break, and the rest. -/
abbrev Chunk := List Char × Bool × List Char

/-- The characters between single quotes up to a gap or the closing quote; a quote is written
twice. -/
def readSingleChunk : List Char → Chunk
  | [] => ([], false, [])
  | '\'' :: '\'' :: r =>
    let (t, _, rest) := readSingleChunk r
    ('\'' :: t, false, rest)
  | c :: r =>
    if c = '\'' ∨ isGap c then ([], false, c :: r)
    else
      let (t, _, rest) := readSingleChunk r
      (c :: t, false, rest)

/-- The character with this number, if there is one. -/
def numbered? (n : Nat) : Option Char :=
  if h : n.isValidChar then some (Char.ofNatAux n h) else none

/-- The character that an escape between double quotes stands for, and the rest. -/
def readEscape? : List Char → Option (Char × List Char)
  | [] => none
  | c :: r =>
    match c with
    | '0' => some ('\x00', r)
    | 'a' => some ('\x07', r)
    | 'b' => some ('\x08', r)
    | 't' | '\t' => some ('\t', r)
    | 'n' => some ('\n', r)
    | 'v' => some ('\x0b', r)
    | 'f' => some ('\x0c', r)
    | 'r' => some ('\r', r)
    | 'e' => some ('\x1b', r)
    | ' ' | '"' | '/' | '\\' => some (c, r)
    | 'N' => some ('\u0085', r)
    | '_' => some ('\u00a0', r)
    | 'L' => some ('\u2028', r)
    | 'P' => some ('\u2029', r)
    | 'x' => (Text.readHex? 2 0 r).bind fun (n, r) => (numbered? n).map (·, r)
    | 'u' => (Text.readHex? 4 0 r).bind fun (n, r) => (numbered? n).map (·, r)
    | 'U' => (Text.readHex? 8 0 r).bind fun (n, r) => (numbered? n).map (·, r)
    | _ => none

/-- The characters between double quotes up to a gap, an escaped line break or the closing quote. -/
def readDoubleChunk? : (bound : Nat) → List Char → Option Chunk
  | 0, _ => none
  | _, [] => some ([], false, [])
  | bound + 1, c :: r =>
    if c = '"' ∨ isGap c then some ([], false, c :: r)
    else if c = '\\' then
      if r.head?.any isBreak then some ([], true, afterBreak r)
      else
        (readEscape? r).bind fun (e, r) =>
        (readDoubleChunk? bound r).map fun (t, escaped, rest) => (e :: t, escaped, rest)
    else (readDoubleChunk? bound r).map fun (t, escaped, rest) => (c :: t, escaped, rest)

/-- The text of a quoted scalar up to its closing quote, and the rest after it. -/
def readQuotedFrom? (quote : Char) (chunk? : List Char → Option Chunk) :
    (bound : Nat) → (lineStart : Bool) → List Char → Option (List Char × List Char)
  | 0, _, _ => none
  | bound + 1, lineStart, cs =>
    if cs.isEmpty || (lineStart && isDocumentMark cs) then none
    else
      match chunk? cs with
      | none => none
      | some (t, escaped, r) =>
        if r.head? == some quote then some (t, r.drop 1)
        else
          let run := r.takeWhile isGap
          let gap := if escaped then breaks run else folded run
          let lineStart := (escaped || run.any isBreak) && lastColumn run == 0
          (readQuotedFrom? quote chunk? bound lineStart (r.dropWhile isGap)).map
            fun (more, rest) => (t ++ gap ++ more, rest)

/-- The text of a scalar after its opening quote, and the rest after the closing one. -/
def readQuoted? (quote : Char) (cs : List Char) : Option (List Char × List Char) :=
  let chunk? : List Char → Option Chunk := fun cs =>
    if quote = '"' then readDoubleChunk? (cs.length + 1) cs else some (readSingleChunk cs)
  readQuotedFrom? quote chunk? (cs.length + 1) false cs

/-! ## 3. Block scalars -/

/-- Which of the line breaks at the end of a block are kept. -/
inductive Chomping where
  | strip
  | clip
  | keep
  deriving Repr, DecidableEq

/-- The chomping mark at the start of a text. -/
def readChomping : List Char → Option Chomping × List Char
  | '+' :: r => (some .keep, r)
  | '-' :: r => (some .strip, r)
  | r => (none, r)

/-- The digit of a block's indentation at the start of a text; zero is none. -/
def readIncrement? : List Char → Option (Option Nat × List Char)
  | c :: r =>
    if c = '0' then none
    else if '1' ≤ c ∧ c ≤ '9' then some (some (c.toNat - '0'.toNat), r)
    else some (none, c :: r)
  | [] => some (none, [])

/-- The marks after the character that begins a block, in either order, and the rest. -/
def readBlockMarks? (cs : List Char) : Option (Chomping × Option Nat × List Char) :=
  match readChomping cs with
  | (some chomping, r) => (readIncrement? r).map fun (n, r) => (chomping, n, r)
  | (none, r) =>
    (readIncrement? r).map fun (n, r) =>
    match n, readChomping r with
    | some _, (some chomping, r) => (chomping, n, r)
    | _, _ => (.clip, n, r)

/-- The text after blanks and a comment, which must reach to the end of the line. -/
def afterComment? (cs : List Char) : Option (List Char) :=
  let r := cs.dropWhile isSpacing
  let r := if r.head? == some '#' then r.dropWhile (!isBreak ·) else r
  if atLineEnd r then some r else none

/-- The place between two lines of a block: the line breaks passed, the widest indentation seen, the
column reached, and the rest. -/
structure BlockGap where
  breaks : List Char
  widest : Nat
  column : Nat
  rest : List Char

/-- Pass over empty lines and over the indentation of the next line, up to `indent` if that is known
already.  A tab must not stand in the indentation. -/
def readBlockGap? (indent : Option Nat) :
    (bound : Nat) → (held : List Char) → (widest : Nat) → List Char → Option BlockGap
  | 0, _, _, _ => none
  | bound + 1, held, widest, cs =>
    let spaces := (cs.takeWhile (· == ' ')).length
    let column := min spaces (indent.getD spaces)
    let r := cs.drop column
    let widest := max widest column
    if r.head? == some '\t' && indent.all (column < ·) then none
    else if r.head?.any isBreak then
      readBlockGap? indent bound (held ++ breaks (r.take (r.length - (afterBreak r).length))) widest
        (afterBreak r)
    else some ⟨held, widest, column, r⟩

/-- The lines of a block.  `text` is what was read, `lead` the line break after it, `blank` whether
the line before began with a blank, and `gap` the place before the next line. -/
def readBlockLines? (literal : Bool) (indent : Nat) :
    (bound : Nat) → (text lead : List Char) → (blank : Bool) → (gap : BlockGap) →
    Option (List Char × List Char × BlockGap)
  | 0, _, _, _, _ => none
  | bound + 1, text, lead, blank, gap =>
    match gap.rest with
    | [] => some (text, lead, gap)
    | c :: _ =>
      if gap.column ≠ indent then some (text, lead, gap)
      else
        let joined :=
          if !literal && lead.head? == some '\n' && !blank && !isSpacing c then
            if gap.breaks.isEmpty then [' '] else []
          else lead
        let line := gap.rest.takeWhile (!isBreak ·)
        let r := gap.rest.dropWhile (!isBreak ·)
        let next := if r.isEmpty then [] else breaks (r.take (r.length - (afterBreak r).length))
        let r := if r.isEmpty then [] else afterBreak r
        match readBlockGap? (some indent) (r.length + 1) [] 0 r with
        | none => none
        | some g =>
          readBlockLines? literal indent bound (text ++ joined ++ gap.breaks ++ line) next
            (isSpacing c) g

/-- The text of a block scalar after the character that begins it, and the rest.  `parent` is the
indentation of the collection that the block stands in, if it stands in one. -/
def readBlock? (literal : Bool) (parent : Option Nat) (cs : List Char) :
    Option (List Char × List Char) := do
  let (chomping, increment, r) ← readBlockMarks? cs
  let r ← afterComment? r
  let r := if r.isEmpty then [] else afterBreak r
  let known := increment.map (· + parent.getD 0)
  let gap ← readBlockGap? known (r.length + 1) [] 0 r
  let least := match parent with
    | some n => n + 1
    | none => 1
  let indent := known.getD (max gap.widest least)
  let (text, lead, gap) ← readBlockLines? literal indent (r.length + 1) [] [] false gap
  let tail := match chomping with
    | .strip => []
    | .clip => lead
    | .keep => lead ++ gap.breaks
  pure (text ++ tail, gap.rest)

end DeviceScript.Yaml
