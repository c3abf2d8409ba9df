import RouterAgent.Text.Blank

/-!
Paths of files.

`Path` is the normal form of an absolute path: a row of names without empty ones, `.` and `..`. A
path that does not begin with a slash is taken from the root. Exactly two slashes at the beginning
are kept in the text of a path, but on a host they lead to the same location as one.
-/

namespace RouterAgent

open RouterAgent.Text

/-- A location on a host: the names on the way to it from the root on. -/
abbrev Location := List (List Char)

/-- The root of a location and every location on the way to it, the location itself last. -/
def Location.upTo (p : Location) : List Location := (List.range (p.length + 1)).map p.take

/-- A normal absolute path: whether two slashes begin it, and the location that it leads to. -/
structure Path where
  doubled : Bool
  location : Location
deriving DecidableEq, Inhabited

namespace Path

/-- Takes one name of a path into account: `..` goes back by one. -/
def enter (location : Location) (name : List Char) : Location :=
  if name = [] ∨ name = ['.'] then location
  else if name = ['.', '.'] then location.dropLast
  else location ++ [name]

def ofText (s : String) : Path :=
  let cs := s.toList
  { doubled := cs.take 2 = ['/', '/'] && cs.take 3 ≠ ['/', '/', '/']
    location := (cs.splitOn '/').foldl enter [] }

def text (p : Path) : String :=
  String.ofList ((if p.doubled then ['/', '/'] else ['/']) ++ ['/'].intercalate p.location)

/-- The directory that holds what the path names; the root holds itself. -/
def parent (p : Path) : Path := { p with location := p.location.dropLast }

end Path

def Location.ofText (s : String) : Location := (Path.ofText s).location

/-- The directory part of a path as it is written: all before the last slash. -/
def directoryPart (s : String) : String :=
  let head := trimRightWhere (· ≠ '/') s.toList
  let bare := trimRightWhere (· = '/') head
  String.ofList (if bare.isEmpty then head else bare)

example : (Path.ofText "a/../b//./c").text = "/b/c" := by decide +kernel
example : (Path.ofText "//x/").text = "//x" := by decide +kernel
example : Location.ofText "//x/" = Location.ofText "/x" := by decide +kernel
example : directoryPart "/a/b" = "/a" := by decide +kernel
example : directoryPart "/b" = "/" := by decide +kernel

end RouterAgent
