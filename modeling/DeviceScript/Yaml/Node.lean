import DeviceScript.Table
import DeviceScript.Yaml.Token
/-!
# Nodes

A document is a node: a scalar, a sequence or a mapping, or an alias of a node that has an anchor.
`Node.documents?` finds the documents that a list of tokens denotes.

A part that is left out, such as the value behind a colon at the end of a line, is an empty plain
scalar.  Of any two readers that call each other in turn one takes at least one token, so a bound of
twice the number of tokens is never reached.
-/

namespace DeviceScript.Yaml

/-- What may stand before a node. -/
structure Properties (ν : Type) where
  anchor : Option ν := none
  tag : Option String := none
  deriving Repr

/-- A node; anchors have names in `ν`. -/
inductive Node (ν : Type) where
  | aliasOf (anchor : ν)
  | scalar (properties : Properties ν) (plain : Bool) (text : String)
  | sequence (properties : Properties ν) (items : List (Node ν))
  | mapping (properties : Properties ν) (entries : List (Node ν × Node ν))
  deriving Repr

namespace Node

/-- The node that stands for a part that is left out. -/
def empty : Node String :=
  .scalar {} true ""

/-! ## 1. Properties -/

/-- What the handles stand for that no directive explains. -/
def standardHandles : Table String :=
  [("!", "!"), ("!!", "tag:yaml.org,2002:")]

/-- The tag that a handle and a suffix denote. -/
def tagName? (handles : Table String) (handle suffix : String) : Option String :=
  if handle = "" then some suffix
  else (handles.find? handle).map (· ++ suffix)

/-- The anchor and the tag at the start of a list of tokens, in either order, and the rest. -/
def properties? (handles : Table String) : List Token → Option (Properties String × List Token)
  | .anchor a :: .tag h s :: r => (tagName? handles h s).map fun t => (⟨some a, some t⟩, r)
  | .tag h s :: .anchor a :: r => (tagName? handles h s).map fun t => (⟨some a, some t⟩, r)
  | .anchor a :: r => some (⟨some a, none⟩, r)
  | .tag h s :: r => (tagName? handles h s).map fun t => (⟨none, some t⟩, r)
  | r => some (⟨none, none⟩, r)

/-! ## 2. Grammar -/

/-- Whether an item of a block ends before it began. -/
def endsItem : List Token → Bool
  | .blockEntry :: _ | .blockEnd :: _ => true
  | _ => false

/-- Whether a key or a value in a block ends before it began. -/
def endsEntry : List Token → Bool
  | .key :: _ | .value :: _ | .blockEnd :: _ => true
  | _ => false

/-- Whether a value in a sequence between brackets ends before it began. -/
def endsFlowItem : List Token → Bool
  | .flowEntry :: _ | .flowSequenceEnd :: _ => true
  | _ => false

/-- Whether a value in a mapping between brackets ends before it began. -/
def endsFlowEntry : List Token → Bool
  | .flowEntry :: _ | .flowMappingEnd :: _ => true
  | _ => false

/-- Where a node stands, which decides how it may be written. -/
inductive Position where
  /-- Between brackets. -/
  | flow
  /-- In a block. -/
  | block
  /-- In a block mapping; a sequence here needs no indentation of its own. -/
  | entry
  deriving Repr, DecidableEq

mutual

/-- The node at the start of a list of tokens, and the rest. -/
def read? (handles : Table String) (position : Position) :
    (bound : Nat) → List Token → Option (Node String × List Token)
  | 0, _ => none
  | _, .aliasOf name :: r => some (.aliasOf name, r)
  | bound + 1, ts => do
    let (p, r) ← properties? handles ts
    match r with
    | .scalar plain text :: r => pure (.scalar p plain text, r)
    | .flowSequenceStart :: r =>
      let (items, r) ← flowItems? handles true bound r
      pure (.sequence p items, r)
    | .flowMappingStart :: r =>
      let (entries, r) ← flowEntries? handles true bound r
      pure (.mapping p entries, r)
    | t :: rest =>
      if t = .blockSequenceStart ∧ position ≠ .flow then
        let (items, r) ← blockItems? handles bound rest
        pure (.sequence p items, r)
      else if t = .blockMappingStart ∧ position ≠ .flow then
        let (entries, r) ← blockEntries? handles bound rest
        pure (.mapping p entries, r)
      else if t = .blockEntry ∧ position = .entry then
        let (items, r) ← looseItems? handles bound r
        pure (.sequence p items, r)
      else if p.anchor.isSome || p.tag.isSome then pure (.scalar p true "", r)
      else none
    | [] => if p.anchor.isSome || p.tag.isSome then pure (.scalar p true "", []) else none

/-- A node unless it is left out, and the rest. -/
def readUnless? (handles : Table String) (left : List Token → Bool) (position : Position) :
    (bound : Nat) → List Token → Option (Node String × List Token)
  | 0, _ => none
  | bound + 1, ts => if left ts then some (empty, ts) else read? handles position bound ts

/-- The items of a block sequence up to its end, and the rest. -/
def blockItems? (handles : Table String) :
    (bound : Nat) → List Token → Option (List (Node String) × List Token)
  | 0, _ => none
  | bound + 1, .blockEntry :: r => do
    let (n, r) ← readUnless? handles endsItem .block bound r
    let (ns, r) ← blockItems? handles bound r
    pure (n :: ns, r)
  | _, .blockEnd :: r => some ([], r)
  | _, _ => none

/-- The items of a sequence without indentation of its own, and the rest. -/
def looseItems? (handles : Table String) :
    (bound : Nat) → List Token → Option (List (Node String) × List Token)
  | 0, _ => none
  | bound + 1, .blockEntry :: r => do
    let (n, r) ← readUnless? handles (fun ts => endsItem ts || endsEntry ts) .block bound r
    let (ns, r) ← looseItems? handles bound r
    pure (n :: ns, r)
  | _, r => some ([], r)

/-- The entries of a block mapping up to its end, and the rest. -/
def blockEntries? (handles : Table String) :
    (bound : Nat) → List Token → Option (List (Node String × Node String) × List Token)
  | 0, _ => none
  | bound + 1, .key :: r => do
    let (k, r) ← readUnless? handles endsEntry .entry bound r
    let (v, r) ← entryValue? handles endsEntry .entry bound r
    let (es, r) ← blockEntries? handles bound r
    pure ((k, v) :: es, r)
  | _, .blockEnd :: r => some ([], r)
  | _, _ => none

/-- The value after a key, and the rest; without a colon it is left out. -/
def entryValue? (handles : Table String) (left : List Token → Bool) (position : Position) :
    (bound : Nat) → List Token → Option (Node String × List Token)
  | 0, _ => none
  | bound + 1, .value :: r => readUnless? handles left position bound r
  | _, r => some (empty, r)

/-- The items of a sequence between brackets up to its end, and the rest.  An item may be a single
entry, which stands for a mapping of its own.  An announced key that is left out takes the next
token with it. -/
def flowItems? (handles : Table String) (first : Bool) :
    (bound : Nat) → List Token → Option (List (Node String) × List Token)
  | 0, _ => none
  | _, .flowSequenceEnd :: r => some ([], r)
  | bound + 1, ts => do
    let ts ← if first then some ts else match ts with
      | .flowEntry :: r => some r
      | _ => none
    match ts with
    | .flowSequenceEnd :: r => pure ([], r)
    | .key :: r =>
      let (k, r) ←
        if r.head? == some .value || endsFlowItem r then some (empty, r.drop 1)
        else read? handles .flow bound r
      let (v, r) ← entryValue? handles endsFlowItem .flow bound r
      let (ns, r) ← flowItems? handles false bound r
      pure (.mapping {} [(k, v)] :: ns, r)
    | ts =>
      let (n, r) ← read? handles .flow bound ts
      let (ns, r) ← flowItems? handles false bound r
      pure (n :: ns, r)

/-- The entries of a mapping between brackets up to its end, and the rest. -/
def flowEntries? (handles : Table String) (first : Bool) :
    (bound : Nat) → List Token → Option (List (Node String × Node String) × List Token)
  | 0, _ => none
  | _, .flowMappingEnd :: r => some ([], r)
  | bound + 1, ts => do
    let ts ← if first then some ts else match ts with
      | .flowEntry :: r => some r
      | _ => none
    match ts with
    | .flowMappingEnd :: r => pure ([], r)
    | .key :: r =>
      let left (ts : List Token) : Bool := ts.head? == some .value || endsFlowEntry ts
      let (k, r) ← readUnless? handles left .flow bound r
      let (v, r) ← entryValue? handles endsFlowEntry .flow bound r
      let (es, r) ← flowEntries? handles false bound r
      pure ((k, v) :: es, r)
    | ts =>
      let (k, r) ← read? handles .flow bound ts
      let (es, r) ← flowEntries? handles false bound r
      pure ((k, empty) :: es, r)

end

/-! ## 3. Documents -/

/-- The handles that the directives at the start of a list of tokens explain, and the rest.  A text
names its version at most once and explains no handle twice. -/
def directives? (versioned : Bool) (handles : Table String) :
    List Token → Option (Table String × List Token)
  | .version major minor :: r =>
    if versioned || major ≠ 1 || (minor ≠ 1 && minor ≠ 2) then none
    else directives? true handles r
  | .handle handle meaning :: r =>
    if handles.contains handle then none
    else directives? versioned (handles.insert handle meaning) r
  | r => some (handles, r)

/-- What handles stand for: the standard meaning gives way to what directives say. -/
def withStandard (handles : Table String) : Table String :=
  handles.foldl (fun t e => t.insert e.1 e.2) standardHandles

/-- Whether a list of tokens begins with something that no document's content begins with. -/
def endsDocument : List Token → Bool
  | [] => true
  | .version .. :: _ | .handle .. :: _ | .documentStart :: _ | .documentEnd :: _ => true
  | _ => false

/-- The documents from here on.  All but the first need a mark at their start. -/
def documentsFrom? (first : Bool) : (bound : Nat) → List Token → Option (List (Node String))
  | 0, _ => none
  | bound + 1, ts =>
    let ts := if first then ts else ts.dropWhile (· == .documentEnd)
    let afterContent (n : Node String) (r : List Token) : Option (List (Node String)) :=
      let r := match r with
        | .documentEnd :: r => r
        | r => r
      (documentsFrom? false bound r).map (n :: ·)
    if ts.isEmpty then some []
    else if first && (!endsDocument ts || ts.head? == some .documentEnd) then do
      let (n, r) ← read? standardHandles .block (2 * ts.length + 2) ts
      afterContent n r
    else do
      let (handles, r) ← directives? false [] ts
      match r with
      | .documentStart :: r =>
        let (n, r) ←
          if endsDocument r then some (empty, r)
          else read? (withStandard handles) .block (2 * r.length + 2) r
        afterContent n r
      | _ => none

/-- The documents that a list of tokens denotes. -/
def documents? (ts : List Token) : Option (List (Node String)) :=
  documentsFrom? true (ts.length + 1) ts

end Node

end DeviceScript.Yaml
