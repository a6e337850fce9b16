import DeviceScript.Decimal.Shortest
import DeviceScript.Text.Quoted
/-!
# YAML values

What a document denotes: a tree of scalars, sequences and mappings, in which a part may carry a tag.
The entries of a mapping are kept in the order of the document.

Two keys of a mapping are the same when they denote the same value (`Value.same`); the order of
entries does not matter for that, and of numbers the value counts and not the text.
-/

namespace DeviceScript.Yaml

/-- What a document denotes. -/
inductive Value where
  | null
  | bool (value : Bool)
  | int (value : Int)
  | float (value : Decimal.Double)
  | text (value : String)
  | sequence (items : List Value)
  | mapping (entries : List (Value × Value))
  /-- A value with a tag, whose name does not include the mark before it. -/
  | tagged (tag : String) (value : Value)
  deriving Repr, Inhabited

/-- The written form of a tag. -/
def tagText (tag : String) : String :=
  "!" ++ tag

namespace Value

mutual

/-- Whether two values are the same. -/
def same : Value → Value → Bool
  | null, null => true
  | bool a, bool b => a == b
  | int a, int b => a == b
  | float a, float b => a.sameValue b
  | text a, text b => a == b
  | sequence as, sequence bs => sameItems as bs
  | mapping as, mapping bs => as.length == bs.length && sameEntries as bs
  | tagged s a, tagged t b => s == t && same a b
  | _, _ => false

/-- Whether two lists of values are the same. -/
def sameItems : List Value → List Value → Bool
  | [], [] => true
  | a :: as, b :: bs => same a b && sameItems as bs
  | _, _ => false

/-- Whether each of these entries is among the others. -/
def sameEntries : List (Value × Value) → List (Value × Value) → Bool
  | [], _ => true
  | (k, v) :: r, es => (es.any fun e => same k e.1 && same v e.2) && sameEntries r es

end

/-- Whether one of these entries has this key. -/
def hasKey (key : Value) (entries : List (Value × Value)) : Bool :=
  entries.any fun e => same key e.1

/-! ## Values in messages -/

/-- A number in a message. -/
def floatText (x : Decimal.Double) : String :=
  match x with
  | .nan => ".nan"
  | .infinite negative => if negative then "-.inf" else ".inf"
  | x => x.scientific

mutual

/-- The text of a value in a message: the sort of the value and what it holds. -/
def describe : Value → String
  | null => "Null"
  | bool b => "Bool(" ++ toString b ++ ")"
  | int n => "Number(" ++ toString n ++ ")"
  | float x => "Number(" ++ floatText x ++ ")"
  | text s => "String(" ++ Text.quoted s ++ ")"
  | sequence items => "Sequence [" ++ describeItems items ++ "]"
  | mapping entries => "Mapping \x7b" ++ describeEntries entries ++ "\x7d"
  | tagged tag value =>
    "TaggedValue \x7b tag: " ++ tagText tag ++ ", value: " ++ describe value ++ " \x7d"

/-- The texts of some values, divided by commas. -/
def describeItems : List Value → String
  | [] => ""
  | [v] => describe v
  | v :: r => describe v ++ ", " ++ describeItems r

/-- The texts of some entries, divided by commas.  Keys that are truth values, numbers or texts
stand there without their sort. -/
def describeEntries : List (Value × Value) → String
  | [] => ""
  | [(k, v)] => describeKey k ++ ": " ++ describe v
  | (k, v) :: r => describeKey k ++ ": " ++ describe v ++ ", " ++ describeEntries r

/-- The text of a key. -/
def describeKey : Value → String
  | bool b => toString b
  | int n => toString n
  | float x => floatText x
  | text s => Text.quoted s
  | null => "Null"
  | sequence items => "Sequence [" ++ describeItems items ++ "]"
  | mapping entries => "Mapping \x7b" ++ describeEntries entries ++ "\x7d"
  | tagged tag value =>
    "TaggedValue \x7b tag: " ++ tagText tag ++ ", value: " ++ describe value ++ " \x7d"

end

end Value

end DeviceScript.Yaml
