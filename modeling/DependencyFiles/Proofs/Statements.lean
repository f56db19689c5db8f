import DependencyFiles.Bundler.Manifest

/-!
# Ruby files as lists of statements

As far as references depend on it, a Ruby file is a list of statements: assignments to
variables and uses of paths. Which statement a line is does not depend on any variable. A run
over the statements needs a memory for the variables; scanning is the run whose memory keeps
the assigned expressions.
-/

namespace DependencyFiles.Bundler

open Text

/-- A use of a path: the expression that names it, whether the path must be known, and the
reference that it becomes. -/
structure PathUse where
  expression : List Char
  required : Bool
  reference : List Char → Reference

/-- The path that a call uses. -/
def File.pathUse? (file : File) (method : String) (arguments : List (List Char)) : Option PathUse :=
  if method = "require_relative" then
    arguments.head?.map fun argument => ⟨argument, false, fun path => file.child (withExtension path)⟩
  else if !isGemfileLike file.fileName then none
  else if method = "eval_gemfile" then
    arguments.head?.map fun argument => ⟨argument, true, file.child⟩
  else if method = "gem" then
    ((arguments.drop 1).findSome? pathOption?).map fun option =>
      ⟨option, true, fun path => file.dependency (packageName arguments.head? path) path⟩
  else if method = "gemspec" then
    (arguments.findSome? pathOption?).map fun option =>
      ⟨option, true, fun path => file.dependency (basename path) path⟩
  else if method = "path" then
    arguments.head?.map fun argument =>
      ⟨argument, false, fun path => file.dependency (basename path) path⟩
  else none

/-- The reference that a use becomes, or the error that its path is not known. -/
def PathUse.resolve (use : PathUse) (origin : String) :
    Outcome → Except ScanError (Option Reference)
  | .path path => .ok (some (use.reference path))
  | .skipped => .ok none
  | .unknown =>
    if use.required then .error (.unresolvable origin (String.ofList use.expression)) else .ok none

/-- The path that a line without comment uses. -/
def File.use? (file : File) (code : List Char) : Option PathUse :=
  (call? code).bind fun call => file.pathUse? call.1 call.2

/-- A statement of a Ruby file. -/
inductive Statement where
  | assignment (name expression : List Char)
  | use (use : PathUse)

/-- The statement on a line, if there is one. -/
def File.statement? (file : File) (line : List Char) : Option Statement :=
  let code := withoutComment {} line
  if allBlank code then none
  else
    match assignment? code with
    | some (name, expression) => some (.assignment name expression)
    | none => (file.use? code).map .use

/-- A memory for variables: what is left of it by an assignment, and the values that
expressions have with it. -/
structure Memory (State : Type) where
  assign : State → (name expression : List Char) → State
  value : State → (expression : List Char) → Outcome

/-- The references that statements make, one after the other. -/
def File.run (file : File) {State : Type} (memory : Memory State) (state : State) :
    List Statement → Except ScanError (List Reference)
  | [] => .ok []
  | .assignment name expression :: rest => file.run memory (memory.assign state name expression) rest
  | .use use :: rest => do
    let found ← use.resolve file.origin (memory.value state use.expression)
    return found.toList ++ (← file.run memory state rest)

/-- The memory that keeps the assigned expressions and looks at them where they are used. -/
def File.lateMemory (file : File) : Memory Locals where
  assign locals name expression := (name, expression) :: locals
  value := file.value

section
variable (file : File) (locals : Locals)

/-- A path that must be known. -/
theorem File.declared?_map (expression : List Char) (reference : List Char → Reference) :
    (do return (← file.declared? locals expression).map reference) =
      PathUse.resolve ⟨expression, true, reference⟩ file.origin (file.value locals expression) := by
  rw [declared?]
  cases file.value locals expression <;> rfl

/-- A path that need not be known. -/
theorem File.possible?_map (expression : List Char) (reference : List Char → Reference) :
    .ok ((file.possible? locals expression).map reference) =
      PathUse.resolve ⟨expression, false, reference⟩ file.origin (file.value locals expression) := by
  rw [possible?]
  cases file.value locals expression <;> rfl

/-- A call declares what becomes of its use of a path. -/
theorem File.callReference?_eq (method : String) (arguments : List (List Char)) :
    file.callReference? locals method arguments =
      (file.pathUse? method arguments).elim (.ok none) fun use =>
        use.resolve file.origin (file.value locals use.expression) := by
  unfold callReference? pathUse?
  split
  · cases arguments with
    | nil => rfl
    | cons argument _ => exact file.possible?_map locals argument _
  · split
    · rfl
    · split
      · rw [if_pos rfl]
        cases arguments with
        | nil => rfl
        | cons argument _ => exact file.declared?_map locals argument _
      · rw [if_neg (by decide), if_pos rfl]
        cases (arguments.drop 1).findSome? pathOption? with
        | none => rfl
        | some option => exact file.declared?_map locals option _
      · rw [if_neg (by decide), if_neg (by decide), if_pos rfl]
        cases arguments.findSome? pathOption? with
        | none => rfl
        | some option => exact file.declared?_map locals option _
      · rw [if_neg (by decide), if_neg (by decide), if_neg (by decide), if_pos rfl]
        cases arguments with
        | nil => rfl
        | cons argument _ => exact file.possible?_map locals argument _
      · rename_i heval hgem hspec hpath
        rw [if_neg heval, if_neg hgem, if_neg hspec, if_neg hpath]
        rfl

/-- A line declares what becomes of its use of a path. -/
theorem File.lineReference?_eq (code : List Char) :
    file.lineReference? locals code =
      (file.use? code).elim (.ok none) fun use =>
        use.resolve file.origin (file.value locals use.expression) := by
  rw [lineReference?, use?]
  cases call? code with
  | none => rfl
  | some call => exact file.callReference?_eq locals call.1 call.2

/-- Scanning runs over the statements and remembers expressions. -/
theorem File.lineReferences_eq_run (lines : List (List Char)) :
    file.lineReferences locals lines =
      file.run file.lateMemory locals (lines.filterMap file.statement?) := by
  induction lines generalizing locals with
  | nil => rfl
  | cons line rest ih =>
    unfold lineReferences
    by_cases hblank : allBlank (withoutComment {} line)
    · have hnone : file.statement? line = none := by simp only [statement?, if_pos hblank]
      rw [List.filterMap_cons_none hnone]
      simp only [if_pos hblank, ih]
    · cases hassign : assignment? (withoutComment {} line) with
      | some assigned =>
        have hsome : file.statement? line = some (.assignment assigned.1 assigned.2) := by
          simp only [statement?, if_neg hblank, hassign]
        rw [List.filterMap_cons_some hsome]
        simp only [if_neg hblank, hassign, ih]
        rfl
      | none =>
        simp only [if_neg hblank, hassign, ih, lineReference?_eq]
        cases huse : file.use? (withoutComment {} line) with
        | none =>
          have hnone : file.statement? line = none := by
            simp only [statement?, if_neg hblank, hassign, huse, Option.map_none]
          rw [List.filterMap_cons_none hnone]
          cases file.run file.lateMemory locals (rest.filterMap file.statement?) <;> rfl
        | some use =>
          have hsome : file.statement? line = some (.use use) := by
            simp only [statement?, if_neg hblank, hassign, huse, Option.map_some]
          rw [List.filterMap_cons_some hsome]
          rfl

end

/-- The statements of a file. -/
def File.statements (file : File) (content : String) : List Statement :=
  (lines content.toList).filterMap file.statement?

/-- The references in a Ruby file whose variables are remembered in a given way. -/
def scan {State : Type} (memory : File → Memory State) (initial : State)
    (content origin : String) : Except ScanError (List Reference) := do
  let file := File.ofOrigin origin
  let declared ← file.run (memory file) initial (file.statements content)
  return declared ++
    if isGemfileLike file.fileName then supportReferences content.toList origin else []

/-- The references in a Ruby file are those of a scan that remembers expressions. -/
theorem references_eq_scan (content origin : String) :
    references content origin = scan File.lateMemory [] content origin := by
  rw [references, scan, File.statements]
  simp only [File.lineReferences_eq_run]

end DependencyFiles.Bundler
