import ForgeClone.FileSystem

/-!
# Remappings, and how solc resolves an import through them

A remapping `context:name=path` tells the compiler to replace the prefix `name` of an import by
`path`. `dump_sources` builds remappings with string paths (`dest.to_string_lossy()`), rewrites
the metadata's remapping paths with string tests (`starts_with`) and path operations
(`strip_prefix`, `join`), and finally makes every path relative to the project root
(`into_relative`). This file models the string and path operations those steps use.

Strings are compared through their character lists, so that every test here is structural and
can be evaluated by `decide`.

## What is modelled from the spec

`Remapping`, `RelativeRemapping`, `into_relative` and the rendering `to_string` belong to
`foundry-compilers`, which is not part of the sources. Rendering follows the spec's canonical form
`[context:]name=path`; `into_relative` strips the root from a path under it and leaves every other
path as it is.

## Paths as Rust reads them

`Path::components` splits on `/`, drops empty segments, and drops `.` segments except a leading
one of a relative path; `pathComponents` does the same, and leaves the root to `hasRoot`.
`Path::strip_prefix` compares components, but what it returns is the rest of the string as
written, only trimmed of empty and `.` segments at both ends: `stripPrefix` renders that rest.

## Resolution

`resolveImport` is solc's rule for remappings: among the remappings whose name is a prefix of the
import, the longest wins, a later one on a tie, and its name is replaced by its path; an import no
name matches is used as is.
-/

namespace ForgeClone

/-- `str::starts_with` with a string pattern. -/
def startsWith (s pre : String) : Bool := pre.toList.isPrefixOf s.toList

/-- Splits a character list at every `/`. -/
def splitSlash : List Char → List (List Char)
  | [] => [[]]
  | c :: cs =>
    match splitSlash cs with
    | [] => [[c]]
    | seg :: segs => if c = '/' then [] :: seg :: segs else (c :: seg) :: segs

/-- Whether a path string is absolute (`Path::has_root`). -/
def hasRoot (s : String) : Bool := startsWith s "/"

/-- `Path::components` of a path string, as names: the non-empty segments between `/` but `.`,
with a leading `.` of a relative path kept. The root of an absolute path is left out. -/
def pathComponents (s : String) : List Name :=
  let names := ((splitSlash s.toList).filter (· ≠ [])).map String.mk
  (if !hasRoot s && names.head? == some "." then ["."] else []) ++ names.filter (· ≠ ".")

/-- `to_string_lossy` of an absolute path. -/
def pathString (p : Path) : String := "/" ++ "/".intercalate p

/-- `PathBuf::join`: an absolute argument replaces the base, a relative one is appended, after a
separator unless the base is empty or already ends in one. -/
def joinPath (base rel : String) : String :=
  if hasRoot rel then rel
  else if base.toList.getLast?.all (· == '/') then base ++ rel
  else base ++ "/" ++ rel

/-- The segments `Components::as_path` keeps: all but the empty and `.` ones at either end. -/
def trimSegments (segs : List (List Char)) : List (List Char) :=
  let edge := fun seg : List Char => decide (seg = [] ∨ seg = ['.'])
  ((segs.dropWhile edge).reverse.dropWhile edge).reverse

/-- `Path::strip_prefix` of the one-component prefix `pre`, a plain name, rendered back to a
string: the path must start with the component `pre`, and what follows it is kept as written,
trimmed at both ends. -/
def stripPrefix (s pre : String) : Option String :=
  match splitSlash s.toList with
  | seg :: rest => if String.mk seg = pre then some (String.mk (['/'].intercalate (trimSegments rest)))
    else none
  | [] => none

/-- A remapping as `foundry-compilers` holds it: `context:name=path`. -/
structure Remapping where
  context : Option String
  name : String
  path : String
  deriving DecidableEq, Repr

/-- A remapping whose path has been made relative to the project root where it could be. -/
structure RelativeRemapping where
  context : Option String
  name : String
  /-- The path as `RelativeRemappingPathBuf::original` gives it. -/
  path : String
  deriving DecidableEq, Repr

/-- Modelled from the spec: `RelativeRemappingPathBuf::with_root`, which strips `root` from a
path under it and keeps every other path. -/
def relativePath (root : Path) (s : String) : String :=
  let comps := pathComponents s
  if hasRoot s ∧ root <+: comps then "/".intercalate (comps.drop root.length) else s

/-- Modelled from the spec: `Remapping::into_relative`. -/
def Remapping.intoRelative (root : Path) (r : Remapping) : RelativeRemapping :=
  ⟨r.context, r.name, relativePath root r.path⟩

/-- Modelled from the spec: the canonical string form `[context:]name=path`. -/
def RelativeRemapping.toString (r : RelativeRemapping) : String :=
  (match r.context with | some c => c ++ ":" | none => "") ++ r.name ++ "=" ++ r.path

/-! ## solc's resolution rule -/

/-- Whether the remapping `(name, path)` should replace `best` for the import `s`: its name is a
prefix of `s`, at least as long as the best so far. -/
def betterMatch (s : String) (best : Option (String × String)) (r : String × String) : Bool :=
  startsWith s r.1 && best.all fun b => b.1.length ≤ r.1.length

/-- The remapping solc uses for the import `s`. -/
def bestMatch (rs : List (String × String)) (s : String) : Option (String × String) :=
  rs.foldl (fun best r => if betterMatch s best r then some r else best) none

/-- The path solc reads for the import `s` under the remappings `rs`. -/
def resolveImport (rs : List (String × String)) (s : String) : String :=
  match bestMatch rs s with
  | some (name, path) => path ++ String.mk (s.toList.drop name.length)
  | none => s

end ForgeClone
