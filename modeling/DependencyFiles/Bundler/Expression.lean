import DependencyFiles.Bundler.Arguments
import DependencyFiles.Text.Word

/-!
# Expressions that name paths

The few expressions that have a value without running code: string literals, the current
file and directory, local variables, and joined or expanded paths of such values. Other
calls are skipped; variables and interpolations without a value are reported.
-/

namespace DependencyFiles.Bundler

open Text

/-- What is known about the value of an expression. -/
inductive Outcome where
  /-- The value is a path, relative to the directory of the file. -/
  | path (text : List Char)
  /-- The expression is of a kind that is not followed. -/
  | skipped
  /-- The value depends on something that is not known. -/
  | unknown
  deriving DecidableEq, Repr

/-- Local variables with the expressions assigned to them, latest assignment first. -/
abbrev Locals := List (List Char × List Char)

/-- The variable and the expression of a line that is an assignment. -/
def assignment? (line : List Char) : Option (List Char × List Char) :=
  let (name, rest) := (trimStart line).span isWord
  match trimStart rest with
  | '=' :: rest =>
    let value := trim rest
    match value with
    | [] => none
    | c :: _ => if isIdentifier name && c != '=' && c != '~' then some (name, value) else none
  | _ => none

/-- The quote and the body of a text that is one string literal. -/
def literal? (text : List Char) : Option (Char × List Char) :=
  match text with
  | [] => none
  | q :: rest =>
    if isQuote q ∧ rest.getLast? = some q ∧ ¬ q ∈ rest.dropLast then some (q, rest.dropLast) else none

/-- A piece of a string literal: a character, or the code of an interpolation. -/
inductive Piece where
  | char (c : Char)
  | code (text : List Char)
  deriving DecidableEq, Repr

/-- The pieces of the body of a string literal; while skipping, characters up to the end of an
interpolation are left out. -/
def literalPieces (skipping : Bool) : List Char → List Piece
  | [] => []
  | '#' :: '\x7b' :: rest =>
    if skipping then literalPieces true rest
    else if '\x7d' ∈ rest then .code (rest.takeWhile (· ≠ '\x7d')) :: literalPieces true rest
    else .char '#' :: .char '\x7b' :: literalPieces false rest
  | c :: rest =>
    if skipping then literalPieces (c ≠ '\x7d') rest else .char c :: literalPieces false rest

/-- The text of a string literal, when all its interpolations have values. -/
def interpolate (value : List Char → Outcome) : List Piece → Outcome
  | [] => .path []
  | .char c :: rest =>
    match interpolate value rest with
    | .path text => .path (c :: text)
    | other => other
  | .code code :: rest =>
    match value code with
    | .path inner =>
      match interpolate value rest with
      | .path text => .path (inner ++ text)
      | other => other
    | _ => .unknown

/-- The parts of a path with single slashes between them; slashes at the end of a part and
empty parts are left out. -/
def joinParts (parts : List (List Char)) : List Char :=
  joinWith '/' ((parts.map (dropEndWhile (· == '/'))).filter (!·.isEmpty))

/-- The values of all parts, or what is known of the first part without one, behind which no
part is looked at. -/
def allPaths (value : List Char → Outcome) : List (List Char) → Except Outcome (List (List Char))
  | [] => .ok []
  | part :: rest =>
    match value part with
    | .path text => (allPaths value rest).map (text :: ·)
    | other => .error other

/-- The arguments of a call of the named method. -/
def methodArguments? (name : String) (text : List Char) : Option (List (List Char)) :=
  (after? name.toList text).bind callArguments?

/-- The path that a target expands to from a base; a target from the root stands for itself. -/
def expandPath (target base : List Char) : List Char :=
  if target.head? = some '/' then target else joinParts [base, target]

/-- How many expressions may be looked up inside one another. -/
def nestingLimit : Nat := 9

/-- The value of an expression in a file of the given name, `depth` levels from the limit. -/
def evaluate (locals : Locals) (fileName : List Char) : (depth : Nat) → List Char → Outcome
  | 0, _ => .unknown
  | depth + 1, expression =>
    let text := trim expression
    match literal? text with
    | some (quote, body) =>
      if quote = '\'' then .path body
      else interpolate (evaluate locals fileName depth) (literalPieces false body)
    | none =>
      if text = "__dir__".toList then .path ['.']
      else if text = "__FILE__".toList then .path fileName
      else if "ENV[".toList.isPrefixOf text || "ENV.".toList.isPrefixOf text then .unknown
      else if isIdentifier text then
        match (locals.lookup text).map (evaluate locals fileName depth) with
        | some (.path value) => .path value
        | _ => .unknown
      else
        match methodArguments? "File.join" text with
        | some arguments =>
          match allPaths (evaluate locals fileName depth) arguments with
          | .ok parts => .path (joinParts parts)
          | .error other => other
        | none =>
          match methodArguments? "File.expand_path" text with
          | none | some [] => .skipped
          | some (target :: base) =>
            match evaluate locals fileName depth target, base with
            | .path target, [] => .path target
            | .path target, base :: _ =>
              match evaluate locals fileName depth base with
              | .path base => .path (expandPath target base)
              | other => other
            | other, _ => other

end DependencyFiles.Bundler
