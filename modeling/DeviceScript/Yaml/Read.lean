import DeviceScript.Yaml.Node
import DeviceScript.Yaml.Resolve
import DeviceScript.Yaml.Scan
/-!
# Reading YAML

`Yaml.read?` gives the value of a text that holds one document; a text without any denotes null.

An alias stands for the node with its anchor.  Anchors are numbered as they come, by the number of
names that were in use before; when a name is used again, its new number may be that of another
name, and the last node with a number is the one that all aliases of that number stand for.

Three things bound the work: nothing is nested deeper than 128 collections, an alias of a collection
from within that collection included; aliases are followed at most a hundred times as often as the
document has parts; and no key occurs twice in a mapping.
-/

namespace DeviceScript.Yaml

/-! ## 1. Anchors -/

mutual

/-- The node with numbers for the names of anchors, after some names are in use, and the names in
use then.  An alias must come after its anchor. -/
def Node.link? (names : Table Nat) : Node String → Option (Node Nat × Table Nat)
  | .aliasOf name => (names.find? name).map fun n => (.aliasOf n, names)
  | .scalar p plain text =>
    let (p, names) := number names p
    some (.scalar p plain text, names)
  | .sequence p items =>
    let (p, names) := number names p
    (linkItems? names items).map fun (items, names) => (.sequence p items, names)
  | .mapping p entries =>
    let (p, names) := number names p
    (linkEntries? names entries).map fun (entries, names) => (.mapping p entries, names)
where
  /-- Properties with a number for the name of the anchor, and the names in use then. -/
  number (names : Table Nat) (p : Properties String) : Properties Nat × Table Nat :=
    match p.anchor with
    | some name => (⟨some names.length, p.tag⟩, names.insert name names.length)
    | none => (⟨none, p.tag⟩, names)

/-- The items of a sequence with numbers for the names of anchors. -/
def Node.linkItems? (names : Table Nat) :
    List (Node String) → Option (List (Node Nat) × Table Nat)
  | [] => some ([], names)
  | n :: r =>
    (n.link? names).bind fun (n, names) =>
    (linkItems? names r).map fun (r, names) => (n :: r, names)

/-- The entries of a mapping with numbers for the names of anchors. -/
def Node.linkEntries? (names : Table Nat) :
    List (Node String × Node String) → Option (List (Node Nat × Node Nat) × Table Nat)
  | [] => some ([], names)
  | (k, v) :: r =>
    (k.link? names).bind fun (k, names) =>
    (v.link? names).bind fun (v, names) =>
    (linkEntries? names r).map fun (r, names) => ((k, v) :: r, names)

end

namespace Node

variable {ν : Type}

/-- The anchor of a node. -/
def anchor? : Node ν → Option ν
  | aliasOf _ => none
  | scalar p .. => p.anchor
  | sequence p _ => p.anchor
  | mapping p _ => p.anchor

mutual

/-- The number of parts of a node: one for a scalar or an alias, and two for the ends of a
collection. -/
def parts : Node ν → Nat
  | aliasOf _ => 1
  | scalar .. => 1
  | sequence _ items => 2 + itemParts items
  | mapping _ entries => 2 + entryParts entries

/-- The number of parts of some nodes. -/
def itemParts : List (Node ν) → Nat
  | [] => 0
  | n :: r => parts n + itemParts r

/-- The number of parts of some entries. -/
def entryParts : List (Node ν × Node ν) → Nat
  | [] => 0
  | (k, v) :: r => parts k + parts v + entryParts r

end

mutual

/-- A node and all nodes in it that have an anchor, in the order of their beginnings. -/
def anchored : Node ν → List (ν × Node ν)
  | aliasOf _ => []
  | scalar p plain text => (p.anchor.map (·, scalar p plain text)).toList
  | sequence p items => (p.anchor.map (·, sequence p items)).toList ++ itemsAnchored items
  | mapping p entries => (p.anchor.map (·, mapping p entries)).toList ++ entriesAnchored entries

/-- All nodes with an anchor in some nodes. -/
def itemsAnchored : List (Node ν) → List (ν × Node ν)
  | [] => []
  | n :: r => anchored n ++ itemsAnchored r

/-- All nodes with an anchor in some entries. -/
def entriesAnchored : List (Node ν × Node ν) → List (ν × Node ν)
  | [] => []
  | (k, v) :: r => anchored k ++ anchored v ++ entriesAnchored r

end

end Node

/-! ## 2. Values -/

/-- A document while its values are found: the nodes that aliases stand for, and how often aliases
may be followed. -/
structure Document where
  targets : List (Nat × Node Nat)
  jumpLimit : Nat

/-- What is found of a value, and how often aliases were followed so far. -/
abbrev Found (α : Type) := Option (α × Nat)

namespace Document

/-- The node that an alias stands for. -/
def target? (d : Document) (anchor : Nat) : Option (Node Nat) :=
  (d.targets.reverse.find? (·.1 == anchor)).map (·.2)

/-- The values of the items of a sequence, `inner` giving the value of one node. -/
def items (inner : Bool → Node Nat → Nat → Found Value) :
    List (Node Nat) → Nat → Found (List Value)
  | [], jumps => some ([], jumps)
  | n :: r, jumps =>
    (inner false n jumps).bind fun (v, jumps) =>
    (items inner r jumps).map fun (vs, jumps) => (v :: vs, jumps)

/-- The entries of a mapping, after some entries whose keys must not come again.  Keys lose their
tags where `bare` says so. -/
def entries (inner : Bool → Node Nat → Nat → Found Value) (bare : Bool)
    (before : List (Value × Value)) :
    List (Node Nat × Node Nat) → Nat → Found (List (Value × Value))
  | [], jumps => some (before, jumps)
  | (k, v) :: r, jumps =>
    (inner bare k jumps).bind fun (k, jumps) =>
    if Value.hasKey k before then none
    else
      (inner false v jumps).bind fun (v, jumps) =>
      entries inner bare (before ++ [(k, v)]) r jumps

/-- The tag that a node's value is to carry; a node that is read bare loses its tag. -/
def valueTag? (bare : Bool) (tag : Option String) : Option String :=
  if bare then none else tag.bind keptTag?

/-- The value of a node that is no alias, `inner` giving the values of the nodes in it; without
`inner` there must not be any.  A collection that is read bare has bare keys, and so has one with a
tag. -/
def solid (inner : Option (Bool → Node Nat → Nat → Found Value)) (bare : Bool) (n : Node Nat)
    (jumps : Nat) : Found Value :=
  let withTag (tag : Option String) (v : Value) : Value :=
    match valueTag? bare tag with
    | some t => .tagged t v
    | none => v
  match n with
  | .aliasOf _ => none
  | .scalar p plain text =>
    let tag := if bare || (valueTag? bare p.tag).isSome then none else p.tag
    (ofScalar? tag plain text).map fun v => (withTag p.tag v, jumps)
  | .sequence p ns =>
    inner.bind fun inner =>
    (items inner ns jumps).map fun (vs, jumps) => (withTag p.tag (.sequence vs), jumps)
  | .mapping p es =>
    inner.bind fun inner =>
    (entries inner (bare || (valueTag? bare p.tag).isSome) [] es jumps).map fun (vs, jumps) =>
      (withTag p.tag (.mapping vs), jumps)

/-- The value of a node, which may hold so many levels of collections. -/
def value (d : Document) : (depth : Nat) → (bare : Bool) → Node Nat → (jumps : Nat) → Found Value
  | depth, bare, n, jumps =>
    let inner : Option (Bool → Node Nat → Nat → Found Value) :=
      match depth with
      | 0 => none
      | depth + 1 => some (d.value depth)
    match n with
    | .aliasOf a =>
      if jumps + 1 > d.jumpLimit then none
      else (d.target? a).bind fun n => solid inner false n (jumps + 1)
    | n => solid inner bare n jumps

end Document

/-- The number of levels of collections that a value may have. -/
def depthLimit : Nat := 128

/-- The value of a document. -/
def Node.value? (n : Node String) : Option Value := do
  let (n, _) ← n.link? []
  let d : Document := ⟨n.anchored, n.parts * 100⟩
  let (v, _) ← d.value depthLimit false n 0
  pure v

/-- The value of a text with at most one document. -/
def read? (s : String) : Option Value := do
  match ← Node.documents? (← Token.ofText? s.toList) with
  | [] => some .null
  | [n] => n.value?
  | _ => none

end DeviceScript.Yaml
