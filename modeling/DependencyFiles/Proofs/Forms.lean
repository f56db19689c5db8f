import DependencyFiles.Bundler.Expression

/-!
# The forms of expressions

An expression has one of a few forms, which its text alone decides. The form says which other
expressions its value is made of and which variable it looks up; evaluation with a bound on
the nesting goes one level down in these.
-/

namespace DependencyFiles.Bundler

open Text

/-- The form of an expression. -/
inductive Form where
  /-- The path is in the text itself. -/
  | constant (path : List Char)
  /-- A string literal, perhaps with interpolations. -/
  | template (pieces : List Piece)
  /-- A value of the environment. -/
  | environment
  /-- A local variable. -/
  | named (name : List Char)
  /-- Paths put together. -/
  | join (arguments : List (List Char))
  /-- A path looked at from another one, if that is given. -/
  | expand (target : List Char) (base? : Option (List Char))
  /-- Everything that is not followed. -/
  | unfollowed
  deriving DecidableEq, Repr

/-- The form of a call, or of what is none. -/
def callForm (text : List Char) : Form :=
  match methodArguments? "File.join" text with
  | some arguments => .join arguments
  | none =>
    match methodArguments? "File.expand_path" text with
    | none | some [] => .unfollowed
    | some (target :: more) => .expand target more.head?

/-- The form of an expression in a file of the given name. -/
def form (fileName expression : List Char) : Form :=
  let text := trim expression
  match literal? text with
  | some (quote, body) =>
    if quote = '\'' then .constant body else .template (literalPieces false body)
  | none =>
    if text = "__dir__".toList then .constant ['.']
    else if text = "__FILE__".toList then .constant fileName
    else if "ENV[".toList.isPrefixOf text || "ENV.".toList.isPrefixOf text then .environment
    else if isIdentifier text then .named text
    else callForm text

/-- The value of a variable, from what is known of the one assigned to it. -/
def variableValue (assigned? : Option Outcome) : Outcome :=
  match assigned? with
  | some (.path value) => .path value
  | _ => .unknown

/-- The value of joined paths, from the values of the parts. -/
def joinOutcome : Except Outcome (List (List Char)) → Outcome
  | .ok parts => .path (joinParts parts)
  | .error other => other

/-- The value of an expanded path, from those of the target and of the base. -/
def expandOutcome : Outcome → Option Outcome → Outcome
  | .path target, none => .path target
  | .path target, some (.path base) => .path (expandPath target base)
  | .path _, some other => other
  | other, _ => other

namespace Form

/-- The value of an expression with a form, from the values of variables and of its parts. -/
def outcome (lookup value : List Char → Outcome) : Form → Outcome
  | .constant path => .path path
  | .template pieces => interpolate value pieces
  | .environment => .unknown
  | .named name => lookup name
  | .join arguments => joinOutcome (allPaths value arguments)
  | .expand target base? => expandOutcome (value target) (base?.map value)
  | .unfollowed => .skipped

/-- The code of a piece of a string literal, if it is an interpolation. -/
def code? : Piece → Option (List Char)
  | .char _ => none
  | .code text => some text

/-- The expressions that the value of an expression with a form is made of. -/
def parts : Form → List (List Char)
  | .template pieces => pieces.filterMap code?
  | .join arguments => arguments
  | .expand target base? => target :: base?.toList
  | _ => []

/-- The variable that an expression with a form looks up. -/
def name? : Form → Option (List Char)
  | .named name => some name
  | _ => none

end Form

/-- A call of one of the two methods has the value that they give to its arguments. -/
theorem outcome_callForm (lookup value : List Char → Outcome) (text : List Char) :
    (callForm text).outcome lookup value =
      match methodArguments? "File.join" text with
      | some arguments =>
        match allPaths value arguments with
        | .ok parts => .path (joinParts parts)
        | .error other => other
      | none =>
        match methodArguments? "File.expand_path" text with
        | none | some [] => .skipped
        | some (target :: base) =>
          match value target, base with
          | .path target, [] => .path target
          | .path target, base :: _ =>
            match value base with
            | .path base => .path (expandPath target base)
            | other => other
          | other, _ => other := by
  rw [callForm]
  cases methodArguments? "File.join" text with
  | some arguments =>
    dsimp only [Form.outcome]
    cases allPaths value arguments <;> rfl
  | none =>
    match methodArguments? "File.expand_path" text with
    | none | some [] => rfl
    | some [target] =>
      dsimp only [Form.outcome, List.head?_nil, Option.map_none]
      cases value target <;> rfl
    | some (target :: base :: _) =>
      dsimp only [Form.outcome, List.head?_cons, Option.map_some]
      cases value target with
      | path target =>
        dsimp only
        cases value base <;> rfl
      | skipped | unknown => rfl

/-- Evaluation of an expression evaluates the parts of its form one level down. -/
theorem evaluate_succ (locals : Locals) (fileName : List Char) (depth : Nat)
    (expression : List Char) :
    evaluate locals fileName (depth + 1) expression =
      (form fileName expression).outcome
        (fun name => variableValue ((locals.lookup name).map (evaluate locals fileName depth)))
        (evaluate locals fileName depth) := by
  rw [evaluate, form]
  cases literal? (trim expression) with
  | some literal =>
    obtain ⟨quote, body⟩ := literal
    dsimp only
    split <;> rfl
  | none =>
    dsimp only
    split
    · rfl
    · split
      · rfl
      · split
        · rfl
        · split
          · rfl
          · exact (outcome_callForm _ _ _).symm

/-- The parts that evaluation comes to from the first one on: it goes on behind a part with a
path only. -/
inductive Reached (value : List Char → Outcome) : List (List Char) → List Char → Prop
  | first (part : List Char) (rest : List (List Char)) : Reached value (part :: rest) part
  | later {part path other : List Char} {rest : List (List Char)} (hpath : value part = .path path)
      (hother : Reached value rest other) : Reached value (part :: rest) other

section
variable {value value' lookup lookup' : List Char → Outcome}

/-- Evaluation comes to no other expressions than the parts. -/
theorem Reached.mem {parts : List (List Char)} {part : List Char} (h : Reached value parts part) :
    part ∈ parts := by
  induction h with
  | first part rest => exact List.mem_cons_self
  | later _ _ ih => exact List.mem_cons_of_mem _ ih

/-- Joined parts are told by the parts that evaluation comes to. -/
theorem allPaths_congr {arguments : List (List Char)}
    (h : ∀ argument, Reached value arguments argument → value argument = value' argument) :
    allPaths value arguments = allPaths value' arguments := by
  induction arguments with
  | nil => rfl
  | cons argument rest ih =>
    rw [allPaths, allPaths, ← h argument (.first argument rest)]
    cases hpath : value argument with
    | path text => dsimp only; rw [ih fun other hother => h other (.later hpath hother)]
    | skipped | unknown => rfl

/-- The text of a string literal is told by the interpolations that evaluation comes to. -/
theorem interpolate_congr {pieces : List Piece}
    (h : ∀ code, Reached value (pieces.filterMap Form.code?) code → value code = value' code) :
    interpolate value pieces = interpolate value' pieces := by
  induction pieces with
  | nil => rfl
  | cons piece rest ih =>
    cases piece with
    | char c => rw [interpolate, interpolate, ih h]
    | code text =>
      rw [interpolate, interpolate, ← h text (.first text _)]
      cases hpath : value text with
      | path inner => dsimp only; rw [ih fun code hcode => h code (.later hpath hcode)]
      | skipped | unknown => rfl

/-- The value of an expression depends on the variable that it looks up and on the values of
the parts that evaluation comes to, and on nothing else. -/
theorem Form.outcome_congr (f : Form)
    (hvariable : ∀ name, f.name? = some name → lookup name = lookup' name)
    (hparts : ∀ part, Reached value f.parts part → value part = value' part) :
    f.outcome lookup value = f.outcome lookup' value' := by
  cases f with
  | constant path => rfl
  | template pieces => exact interpolate_congr hparts
  | environment => rfl
  | named name => exact hvariable name rfl
  | join arguments => exact congrArg joinOutcome (allPaths_congr hparts)
  | expand target base? =>
    have htarget := hparts target (.first target _)
    rw [outcome, outcome, ← htarget]
    cases base? with
    | none => rfl
    | some base =>
      cases hpath : value target with
      | path text =>
        have hbase := hparts base (.later hpath (.first base []))
        rw [Option.map_some, Option.map_some, hbase]
      | skipped | unknown => rfl
  | unfollowed => rfl

end

end DependencyFiles.Bundler
