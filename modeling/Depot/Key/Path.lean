/-
Slash-separated paths as texts, and the rules that make object keys of them.

`normalize` drops empty segments and `.`, and lets `..` take back the segment before it; a path that starts at the
root stays there, and one with exactly two leading slashes keeps both. `clean` also turns backslashes into slashes,
keeps a final slash, and gives the empty path for one that leads nowhere. `join?` puts a path under a base and refuses
one that leads out of it; its result has no leading slash.
-/

namespace Depot.Key.Path

/-- the segments between slashes; a text without slashes is one segment -/
def segments : List Char → List (List Char)
  | [] => [[]]
  | c :: rest =>
    if c = '/' then [] :: segments rest
    else match segments rest with
      | [] => [[c]]
      | s :: more => (c :: s) :: more

/-- segments with slashes between them -/
def unite : List (List Char) → List Char
  | [] => []
  | [s] => s
  | s :: more => s ++ '/' :: unite more

/-- one segment after those kept so far, the last of which comes first; `rooted` paths cannot be left upwards -/
def keep (rooted : Bool) (kept : List (List Char)) (s : List Char) : List (List Char) :=
  if s = [] ∨ s = ['.'] then kept
  else if s = ['.', '.'] then
    match kept with
    | [] => if rooted then [] else [s]
    | t :: before => if t = ['.', '.'] then s :: kept else before
  else s :: kept

/-- the leading slashes that a path keeps: none, one or two -/
def root : List Char → List Char
  | '/' :: '/' :: '/' :: _ => ['/']
  | '/' :: '/' :: _ => ['/', '/']
  | '/' :: _ => ['/']
  | _ => []

/-- a path without empty segments, `.` and, as far as possible, `..` -/
def normalize (path : List Char) : List Char :=
  let start := root path
  let kept := (segments path).foldl (keep (!start.isEmpty)) []
  match start ++ unite kept.reverse with
  | [] => ['.']
  | result => result

def endsInSlash (path : List Char) : Bool :=
  path.getLast? == some '/'

def trimEnd (path : List Char) : List Char :=
  (path.reverse.dropWhile (· == '/')).reverse

/-- one character of a cleaned path -/
def forward (c : Char) : Char :=
  if c = Char.ofNat 0x5C then '/' else c

/-- a normal path with slashes only, that ends with one if the given path does; the path that leads nowhere is empty -/
def clean (path : List Char) : List Char :=
  let c := (normalize path).map forward
  let c := if endsInSlash path && !endsInSlash c then c ++ ['/'] else c
  if c = ['.'] then [] else c

/-- a path seen from a folder given with its final slash -/
def within (folder path : List Char) : List Char :=
  if path.head? = some '/' then path else folder ++ path

/-- a path under a base, without leading slashes; none if it leads out of the base -/
def join? (base path : List Char) : Option (List Char) :=
  let stem := trimEnd base
  let folder := stem ++ ['/']
  let g := normalize (within folder path)
  let g := if endsInSlash path || g ++ ['/'] == folder then g ++ ['/'] else g
  let g := if g = stem then g ++ ['/'] else g
  if stem.isPrefixOf g ∧ (g.drop stem.length).head? = some '/' then some (g.dropWhile (· == '/')) else none

end Depot.Key.Path
