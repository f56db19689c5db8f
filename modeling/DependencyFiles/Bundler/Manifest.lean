import DependencyFiles.Bundler.Expression
import DependencyFiles.Ecosystem.Reference

/-!
# References in Ruby files

Gemfiles declare child Gemfiles and packages in local directories; every Ruby file may
require others by relative path. Declarations are read line by line, with the variables
assigned on earlier lines. A Gemfile that mentions a version file refers to it.
-/

namespace DependencyFiles.Bundler

open Text

/-- Whether a file may declare packages and child Gemfiles. -/
def isGemfileLike (fileName : List Char) : Bool :=
  !".gemspec".toList.isSuffixOf fileName &&
    (fileName == "gems.rb".toList || !".rb".toList.isSuffixOf fileName)

/-- The expression of a keyword argument that names a local directory. -/
def pathOption? (argument : List Char) : Option (List Char) :=
  let value? :=
    match after? "path:".toList argument with
    | some rest => some rest
    | none => (after? ":path".toList argument).bind fun rest => after? "=>".toList (trimStart rest)
  (value?.map trim).filter (!·.isEmpty)

/-- The name of a package: the first argument without its quotes, or else the last segment of
its directory. -/
def packageName (first : Option (List Char)) (path : List Char) : List Char :=
  ((first.map (dropAroundWhile isQuote)).filter fun name =>
    !name.isEmpty && !name.contains '#' && !name.contains ' ').getD (basename path)

/-- A required file has the extension `.rb` unless its name has a dot. -/
def withExtension (path : List Char) : List Char :=
  if (basename path).contains '.' then path else path ++ ".rb".toList

/-- The file that is read, as far as references depend on it. -/
structure File where
  origin : String
  fileName : List Char

/-- The file with a given origin. -/
def File.ofOrigin (origin : String) : File := ⟨origin, basename origin.toList⟩

/-- The value of an expression in the file. -/
def File.value (file : File) (locals : Locals) (expression : List Char) : Outcome :=
  evaluate locals file.fileName nestingLimit expression

/-- A reference to a child manifest. -/
def File.child (file : File) (path : List Char) : Reference :=
  ⟨.childManifest, String.ofList path, file.origin⟩

/-- A reference to a local package. -/
def File.dependency (file : File) (name path : List Char) : Reference :=
  ⟨.pathDependency (String.ofList name), String.ofList path, file.origin⟩

/-- The path of an expression that surely declares one; a path that is not known is an error. -/
def File.declared? (file : File) (locals : Locals) (expression : List Char) :
    Except ScanError (Option (List Char)) :=
  match file.value locals expression with
  | .path path => .ok (some path)
  | .skipped => .ok none
  | .unknown => .error (.unresolvable file.origin (String.ofList expression))

/-- The path of an expression that need not declare one. -/
def File.possible? (file : File) (locals : Locals) (expression : List Char) : Option (List Char) :=
  match file.value locals expression with
  | .path path => some path
  | _ => none

/-- The reference that a call declares. -/
def File.callReference? (file : File) (locals : Locals) (method : String)
    (arguments : List (List Char)) : Except ScanError (Option Reference) :=
  if method = "require_relative" then
    .ok ((arguments.head?.bind (file.possible? locals)).map fun path => file.child (withExtension path))
  else if !isGemfileLike file.fileName then .ok none
  else
    match method with
    | "eval_gemfile" =>
      match arguments with
      | [] => .ok none
      | argument :: _ => return (← file.declared? locals argument).map file.child
    | "gem" =>
      match (arguments.drop 1).findSome? pathOption? with
      | none => .ok none
      | some expression =>
        return (← file.declared? locals expression).map fun path =>
          file.dependency (packageName arguments.head? path) path
    | "gemspec" =>
      match arguments.findSome? pathOption? with
      | none => .ok none
      | some expression =>
        return (← file.declared? locals expression).map fun path =>
          file.dependency (basename path) path
    | "path" =>
      .ok ((arguments.head?.bind (file.possible? locals)).map fun path =>
        file.dependency (basename path) path)
    | _ => .ok none

/-- The methods whose calls declare references. -/
def methods : List String := ["eval_gemfile", "require_relative", "gemspec", "gem", "path"]

/-- The method and the arguments of a line that is a call of interest. -/
def call? (line : List Char) : Option (String × List (List Char)) :=
  let (word, rest) := (trimStart line).span isWord
  let method := String.ofList word
  if methods.contains method then (callArguments? rest).map (method, ·) else none

/-- The reference that a line without comment declares. -/
def File.lineReference? (file : File) (locals : Locals) (line : List Char) :
    Except ScanError (Option Reference) :=
  match call? line with
  | some (method, arguments) => file.callReference? locals method arguments
  | none => .ok none

/-- The references that lines declare, one after the other. -/
def File.lineReferences (file : File) (locals : Locals) :
    List (List Char) → Except ScanError (List Reference)
  | [] => .ok []
  | line :: rest =>
    let code := withoutComment {} line
    if allBlank code then file.lineReferences locals rest
    else
      match assignment? code with
      | some assigned => file.lineReferences (assigned :: locals) rest
      | none => do
        let found ← file.lineReference? locals code
        return found.toList ++ (← file.lineReferences locals rest)

/-- The version files that some Gemfiles read. -/
def supportFiles : List String := [".ruby-version", ".tool-versions"]

/-- References to the version files that a text mentions. -/
def supportReferences (content : List Char) (origin : String) : List Reference :=
  (supportFiles.filter fun name => occursIn name.toList content).map fun name =>
    ⟨.supportFile, name, origin⟩

/-- The references in a Ruby file. -/
def references (content origin : String) : Except ScanError (List Reference) := do
  let file := File.ofOrigin origin
  let declared ← file.lineReferences [] (lines content.toList)
  return declared ++
    if isGemfileLike file.fileName then supportReferences content.toList origin else []

end DependencyFiles.Bundler
