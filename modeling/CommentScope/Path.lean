import CommentScope.Text.Case
import CommentScope.Text.Search

/-!
# Paths

A `Path` is written with slashes between its parts; empty parts and single dots are left out, double
dots are kept. It is relative unless it begins with a slash. Of slashes at the start exactly two are
kept as two, any other number counts as one.

A `Location` is where something is: the names on the way to it from the root.
-/

namespace CommentScope

/-- A path: the slashes at its start, and its parts. -/
structure Path where
  anchor : String
  parts : List String
  deriving DecidableEq

namespace Path

/-- The pieces of a text between slashes. -/
def pieces (s : String) : List String := (Text.splitOn '/' s.toList).map String.ofList

/-- The slashes that a path begins with. -/
def anchorOf (s : String) : String :=
  match (s.toList.takeWhile (· == '/')).length with
  | 0 => ""
  | 2 => "//"
  | _ => "/"

/-- The path that a text stands for. -/
def ofText (s : String) : Path where
  anchor := anchorOf s
  parts := (pieces s).filter fun p ↦ p != "" && p != "."

/-- How a path is written. -/
def text (p : Path) : String :=
  if p.anchor.isEmpty && p.parts.isEmpty then "." else p.anchor ++ "/".intercalate p.parts

/-- Whether a path begins at the root. -/
def isAbsolute (p : Path) : Bool := !p.anchor.isEmpty

/-- The last part of a path; empty if there is none. -/
def name (p : Path) : String := p.parts.getLastD ""

/-- The path without its last part. -/
def parent (p : Path) : Path := { p with parts := p.parts.dropLast }

/-- The path with one more part. -/
def child (p : Path) (name : String) : Path := { p with parts := p.parts ++ [name] }

/-- The path with more parts. -/
def along (p : Path) (way : List String) : Path := { p with parts := p.parts ++ way }

/-- What a path leads to from the end of another one. -/
def join (p q : Path) : Path :=
  if q.isAbsolute then q else { p with parts := p.parts ++ q.parts }

@[simp] theorem join_of_isAbsolute {p q : Path} (h : q.isAbsolute = true) : p.join q = q := by
  simp [join, h]

/-- The part of a name from its last dot on. A dot at the start or at the end of the name does not
count. -/
def suffixOf (name : String) : String :=
  let cs := name.toList
  let behind := (cs.reverse.takeWhile (· != '.')).reverse
  if behind.isEmpty ∨ cs.length ≤ behind.length + 1 then ""
  else String.ofList ('.' :: behind)

/-- The suffix of the last part, in lower case. -/
def suffix (p : Path) : String := Text.lower (suffixOf p.name)

/-- Backslashes as slashes. -/
def withSlashes (s : String) : String := s.map fun c ↦ if c = '\\' then '/' else c

end Path

/-- The names on the way from the root. -/
abbrev Location := List String

namespace Location

/-- How a location is written. -/
def text (l : Location) : String := "/" ++ "/".intercalate l

/-- Follows the parts of a path, double dots included, without looking at what is there. -/
def follow (l : Location) : List String → Location
  | [] => l
  | p :: rest =>
    if p = "" ∨ p = "." then follow l rest
    else if p = ".." then follow l.dropLast rest
    else follow (l ++ [p]) rest

/-- The way from one location to another. -/
def wayTo : (source target : Location) → List String
  | a :: source, b :: target =>
    if a = b then wayTo source target
    else List.replicate (source.length + 1) ".." ++ b :: target
  | source, target => List.replicate source.length ".." ++ target

/-- How the way from one location to another is written. -/
def wayText (source target : Location) : String :=
  let way := wayTo source target
  if way.isEmpty then "." else "/".intercalate way

@[simp] theorem wayTo_append (l way : Location) : wayTo l (l ++ way) = way := by
  induction l with
  | nil => cases way <;> rfl
  | cons a l ih => simp [wayTo, ih]

/-- Whether a location comes before another or is the same; names are compared one by one. -/
def le : Location → Location → Bool
  | [], _ => true
  | _ :: _, [] => false
  | a :: l, b :: m => decide (a < b) || a == b && le l m

end Location

end CommentScope
