/-!
# Paths

A path names a file by the way to it: names divided by slashes, from the root of the file tree when
it begins with a slash and from the working directory otherwise.  A path is a text, and what is done
with it here is done with its text alone; whether there is anything at its end is not looked at.

Two paths are the same way (`Path.same`) when they differ only in doubled slashes and in dots that
stand for the directory reached so far.  Two dots go up one level and are never resolved, so
different ways may lead to one file.
-/

namespace DeviceScript

/-- A path, as it is written. -/
abbrev Path := String

namespace Path

/-- The pieces of a text between slashes; `held` is the piece being read, backwards. -/
def piecesFrom (held : List Char) : List Char → List (List Char)
  | [] => [held.reverse]
  | c :: r => if c = '/' then held.reverse :: piecesFrom [] r else piecesFrom (c :: held) r

/-- The pieces of a text between slashes; an empty text has none. -/
def pieces (cs : List Char) : List (List Char) :=
  if cs.isEmpty then [] else piecesFrom [] cs

/-- Whether a path begins at the root. -/
def isAbsolute (p : Path) : Bool :=
  p.toList.head? == some '/'

/-- Whether a path begins with a dot that stands for the working directory. -/
def beginsHere (p : Path) : Bool :=
  match p.toList with
  | ['.'] => true
  | '.' :: '/' :: _ => true
  | _ => false

/-- The part of a path that says where it begins, and the pieces of the rest. -/
def split (p : Path) : List Char × List (List Char) :=
  let width := if p.isAbsolute || p.beginsHere then 1 else 0
  (p.toList.take width, pieces (p.toList.drop width))

/-- A piece that does not lead anywhere. -/
def isIdle (piece : List Char) : Bool :=
  piece == [] || piece == ['.']

/-- Where a path begins, and the steps it takes from there. -/
def steps (p : Path) : List Char × List (List Char) :=
  let (start, ps) := p.split
  (start, ps.filter (!isIdle ·))

/-- Whether two paths are the same way. -/
def same (p q : Path) : Bool :=
  p.steps == q.steps

/-- A path that begins where another ends, unless it begins at the root. -/
def join (dir p : Path) : Path :=
  if p.isAbsolute then p
  else if dir = "" || dir.toList.getLast? == some '/' then dir ++ p
  else dir ++ "/" ++ p

/-- Pieces without those at the end that do not lead anywhere. -/
def dropIdle (ps : List (List Char)) : List (List Char) :=
  (ps.reverse.dropWhile isIdle).reverse

/-- The path of the directory that a path's last step is taken in; a path without steps has none,
unless it is the working directory itself. -/
def parent? (p : Path) : Option Path :=
  let (start, ps) := p.split
  let ps := dropIdle ps
  if ps.isEmpty then if p.beginsHere then some "" else none
  else some (String.ofList (start ++ List.intercalate ['/'] (dropIdle ps.dropLast)))

/-- The name that a path's last step leads to. -/
def name? (p : Path) : Option String :=
  match p.steps.2.getLast? with
  | some n => if n = ['.', '.'] then none else some (String.ofList n)
  | none => none

/-- A name without its last point and what follows it; a point at the very front does not count. -/
def stemOf (name : String) : String :=
  let cs := name.toList
  let extension := (cs.reverse.takeWhile (· != '.')).length
  if cs.contains '.' && extension + 1 < cs.length then
    String.ofList (cs.take (cs.length - extension - 1))
  else name

/-- The name that a path's last step leads to, without its last point and what follows it. -/
def stem? (p : Path) : Option String :=
  p.name?.map stemOf

end Path

end DeviceScript
