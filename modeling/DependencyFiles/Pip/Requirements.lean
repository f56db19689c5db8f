import DependencyFiles.Ecosystem.Reference
import DependencyFiles.Text.Blank

/-!
# Requirement files

Each line asks for one package or holds one option. Lines may include other requirement
files and may name local directories; comments, package extras, fragments and environment
markers say nothing about where to look.
-/

namespace DependencyFiles.Pip

open Text

/-- A line without its comment, which starts the line or follows a space. -/
def withoutComment (line : List Char) : List Char :=
  if (trimStart line).head? = some '#' then [] else before [' ', '#'] line

/-- The value of a single option: behind an equals sign, or behind a blank. -/
def valueOf? (option line : List Char) : Option (List Char) :=
  match after? option line with
  | some ('=' :: value) => some (trim value)
  | some rest => if startsBlank rest then some (trim rest) else none
  | none => none

/-- The value of the first option that the line holds. -/
def optionValue? (options : List String) (line : List Char) : Option (List Char) :=
  options.findSome? fun option => valueOf? option.toList line

/-- What a requirement names as a local path, before anything is cut off. -/
def localPart? (requirement : List Char) : Option (List Char) :=
  match after? "file://".toList requirement with
  | some rest => some rest
  | none =>
    match after? "file:".toList requirement with
    | some rest => some rest
    | none =>
      if "./".toList.isPrefixOf requirement || "../".toList.isPrefixOf requirement ||
          requirement == ['.'] then some requirement
      else none

/-- The local directory of a requirement, without fragment, marker and extras. -/
def localPath? (requirement : List Char) : Option (List Char) :=
  ((localPart? requirement).map fun text =>
    trim ((trim (text.takeWhile fun c => c != '#' && c != ';')).takeWhile (· != '['))).filter
      (!·.isEmpty)

/-- Whether a path depends on environment variables. -/
def isVariable (path : List Char) : Bool :=
  occursIn ['$', '\x7b'] path || path.head? = some '$'

/-- A path as text, unless it depends on environment variables. -/
def fixedPath (path line : List Char) (origin : String) : Except ScanError (List Char) :=
  if isVariable path then .error (.unresolvable origin (String.ofList line)) else .ok path

/-- The options that include another file. -/
def includeOptions : List String := ["-r", "--requirement", "-c", "--constraint"]

/-- The options that install a package in place. -/
def editableOptions : List String := ["-e", "--editable"]

/-- The reference of a trimmed line without comment. -/
def lineReference? (line : List Char) (origin : String) : Except ScanError (Option Reference) :=
  match optionValue? includeOptions line with
  | some target => do
    let path ← fixedPath target line origin
    return some ⟨.childManifest, String.ofList path, origin⟩
  | none =>
    match localPath? ((optionValue? editableOptions line).getD line) with
    | some target => do
      let path ← fixedPath target line origin
      return some ⟨.pathDependency (String.ofList (basename path)), String.ofList path, origin⟩
    | none => .ok none

/-- The references of lines, one after the other. -/
def lineReferences (origin : String) : List (List Char) → Except ScanError (List Reference)
  | [] => .ok []
  | line :: rest => do
    let text := trim (withoutComment line)
    let found ← if text.isEmpty then .ok none else lineReference? text origin
    return found.toList ++ (← lineReferences origin rest)

/-- The references in a requirement file. -/
def requirementReferences (content origin : String) : Except ScanError (List Reference) :=
  lineReferences origin (lines content.toList)

end DependencyFiles.Pip
