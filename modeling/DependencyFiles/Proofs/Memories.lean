import DependencyFiles.Proofs.Forms
import DependencyFiles.Proofs.Statements
import DependencyFiles.Proofs.Trees

/-!
# Variables and the values they were assigned

A scan keeps the expressions that were assigned to variables and evaluates them where a path
is used, with the assignments made until then. A program in the language evaluates them where
they are assigned. Both give the same references as long as no assignment changes a variable
that its own expression uses, or that the expression of another variable in force uses. An
assignment that does changes what the earlier ones meant.
-/

namespace DependencyFiles.Bundler

open Text

/-! ## Evaluation at the assignment -/

/-- Local variables with the values that were assigned to them, latest assignment first. -/
abbrev Values := List (List Char × Outcome)

/-- The value of an expression with the values of variables, `depth` levels from the limit. -/
def valueIn (values : Values) (fileName : List Char) : (depth : Nat) → List Char → Outcome
  | 0, _ => .unknown
  | depth + 1, expression =>
    (form fileName expression).outcome (fun name => variableValue (values.lookup name))
      (valueIn values fileName depth)

/-- The memory that evaluates expressions where they are assigned and keeps their values. -/
def File.earlyMemory (file : File) : Memory Values where
  assign values name expression :=
    (name, valueIn values file.fileName nestingLimit expression) :: values
  value values expression := valueIn values file.fileName nestingLimit expression

/-! ## Expressions within the bound -/

/-- Whether the evaluation of an expression stays within the bound on the nesting. -/
def fits (locals : Locals) (fileName : List Char) : (depth : Nat) → List Char → Bool
  | 0, _ => false
  | depth + 1, expression =>
    (form fileName expression).parts.all (fits locals fileName depth) &&
      ((form fileName expression).name?.bind (locals.lookup ·)).all (fits locals fileName depth)

/-- Whether every use of a path along a run stays within the bound. -/
def staysWithin (locals : Locals) (fileName : List Char) : List Statement → Bool
  | [] => true
  | .assignment name expression :: rest => staysWithin ((name, expression) :: locals) fileName rest
  | .use use :: rest =>
    fits locals fileName nestingLimit use.expression && staysWithin locals fileName rest

/-! ## Variables that expressions use -/

/-- An expression uses a variable when it is the variable or one of its parts uses it. -/
inductive Uses (fileName name : List Char) : List Char → Prop
  | named {expression : List Char} (h : (form fileName expression).name? = some name) :
      Uses fileName name expression
  | part {expression part : List Char} (hpart : part ∈ (form fileName expression).parts)
      (h : Uses fileName name part) : Uses fileName name expression

/-- No expression of another variable in force uses the variable. -/
def Unused (locals : Locals) (fileName name : List Char) : Prop :=
  ∀ other expression, other ≠ name → locals.lookup other = some expression →
    ¬ Uses fileName name expression

/-- Along a run no assignment changes a variable that its own expression uses, or that the
expression of another variable in force uses. -/
def Lasting (locals : Locals) (fileName : List Char) : List Statement → Prop
  | [] => True
  | .assignment name expression :: rest =>
    ¬ Uses fileName name expression ∧ Unused locals fileName name ∧
      Lasting ((name, expression) :: locals) fileName rest
  | .use _ :: rest => Lasting locals fileName rest

section
variable {locals : Locals} {values : Values} {fileName name assigned expression : List Char}
  {depth : Nat}

/-- What evaluation looks up is not touched by an assignment to a variable that is not used. -/
theorem lookup_assign (hexpression : ¬ Uses fileName name expression) {other : List Char}
    (hother : (form fileName expression).name? = some other) :
    List.lookup other ((name, assigned) :: locals) = locals.lookup other := by
  have hne : other ≠ name := fun h => hexpression (.named (h ▸ hother))
  rw [List.lookup_cons, beq_false_of_ne hne]

/-- An assignment to a variable that is not used leaves values as they are. -/
theorem evaluate_assign (hunused : Unused locals fileName name)
    (hexpression : ¬ Uses fileName name expression) :
    evaluate ((name, assigned) :: locals) fileName depth expression =
      evaluate locals fileName depth expression := by
  induction depth generalizing expression with
  | zero => rfl
  | succ depth ih =>
    rw [evaluate_succ, evaluate_succ]
    refine Form.outcome_congr _ (fun other hother => ?_)
      fun part hpart => ih fun h => hexpression (.part hpart.mem h)
    rw [lookup_assign hexpression hother]
    cases hlookup : locals.lookup other with
    | none => rfl
    | some value =>
      have hne : other ≠ name := fun h => hexpression (.named (h ▸ hother))
      exact congrArg (variableValue ∘ some) (ih (hunused other value hne hlookup))

/-- An expression is within the bound when its parts and its variable are, one level down. -/
theorem fits_succ :
    fits locals fileName (depth + 1) expression = true ↔
      (∀ part ∈ (form fileName expression).parts, fits locals fileName depth part = true) ∧
        ∀ name, (form fileName expression).name? = some name → ∀ assigned,
          locals.lookup name = some assigned → fits locals fileName depth assigned = true := by
  rw [fits, Bool.and_eq_true, List.all_eq_true, Option.all_eq_true]
  simp only [Option.bind_eq_some_iff]
  exact and_congr_right fun _ =>
    ⟨fun h name hname assigned hassigned => h assigned ⟨name, hname, hassigned⟩,
      fun h assigned ⟨name, hname, hassigned⟩ => h name hname assigned hassigned⟩

/-- An expression within the bound was so before an assignment to a variable that is not used. -/
theorem fits_of_assign (hunused : Unused locals fileName name)
    (hexpression : ¬ Uses fileName name expression)
    (hfits : fits ((name, assigned) :: locals) fileName depth expression = true) :
    fits locals fileName depth expression = true := by
  induction depth generalizing expression with
  | zero => exact hfits
  | succ depth ih =>
    rw [fits_succ] at hfits ⊢
    refine ⟨fun part hpart => ih (fun h => hexpression (.part hpart h)) (hfits.1 part hpart), ?_⟩
    intro other hother value hlookup
    have hne : other ≠ name := fun h => hexpression (.named (h ▸ hother))
    refine ih (hunused other value hne hlookup) (hfits.2 other hother value ?_)
    rw [lookup_assign hexpression hother, hlookup]

/-! ## Checking assignments -/

/-- Whether an expression may use a variable, as far as its parts of a limited depth tell. -/
def mayUse (fileName name : List Char) : (depth : Nat) → List Char → Bool
  | 0, _ => true
  | depth + 1, expression =>
    (form fileName expression).name? == some name ||
      (form fileName expression).parts.any (mayUse fileName name depth)

theorem not_uses_of_mayUse (h : mayUse fileName name depth expression = false) :
    ¬ Uses fileName name expression := by
  intro huses
  induction huses generalizing depth with
  | named hname => cases depth <;> simp [mayUse, hname] at h
  | part hpart _ ih =>
    cases depth with
    | zero => simp [mayUse] at h
    | succ depth =>
      rw [mayUse, Bool.or_eq_false_iff, List.any_eq_false] at h
      exact ih (Bool.eq_false_iff.2 (h.2 _ hpart))

/-- Whether no assignment along a run may change a variable that is in use. -/
def mustLast (locals : Locals) (fileName : List Char) : List Statement → Bool
  | [] => true
  | .assignment name expression :: rest =>
    ((name, expression) :: locals.filter (·.1 != name)).all
        (fun other => !mayUse fileName name nestingLimit other.2) &&
      mustLast ((name, expression) :: locals) fileName rest
  | .use _ :: rest => mustLast locals fileName rest

theorem lasting_of_mustLast {statements : List Statement}
    (h : mustLast locals fileName statements = true) : Lasting locals fileName statements := by
  induction statements generalizing locals with
  | nil => trivial
  | cons statement rest ih =>
    cases statement with
    | assignment name expression =>
      rw [mustLast, Bool.and_eq_true, List.all_eq_true] at h
      have hfree (other : List Char × List Char)
          (hmem : other ∈ (name, expression) :: locals.filter (·.1 != name)) :
          ¬ Uses fileName name other.2 :=
        not_uses_of_mayUse (by simpa using h.1 other hmem)
      refine ⟨hfree _ List.mem_cons_self, fun other assigned hne hlookup => ?_, ih h.2⟩
      refine hfree (other, assigned) (List.mem_cons_of_mem _ (List.mem_filter.2 ?_))
      exact ⟨mem_of_lookup hlookup, bne_iff_ne.2 hne⟩
    | use use => exact ih h

/-! ## The same values -/

/-- Expressions and values that agree: the same variables are known, and within the bound the
expression of a variable evaluates to its value. -/
def Agree (locals : Locals) (values : Values) (fileName : List Char) : Prop :=
  ∀ name, Option.Rel (fun expression value => ∀ depth ≤ nestingLimit,
    fits locals fileName depth expression = true →
      evaluate locals fileName depth expression = value) (locals.lookup name) (values.lookup name)

theorem Agree.nil (fileName : List Char) : Agree [] [] fileName := fun _ => .none

/-- An expression within the bound has the same value where it is used as where it is assigned,
when the variables agree. -/
theorem Agree.evaluate_eq (hagree : Agree locals values fileName) {limit : Nat}
    (hlimit : limit ≤ nestingLimit) (hdepth : depth ≤ limit)
    (hfits : fits locals fileName depth expression = true) :
    evaluate locals fileName depth expression = valueIn values fileName limit expression := by
  induction depth generalizing expression limit with
  | zero => exact absurd hfits Bool.false_ne_true
  | succ depth ih =>
    obtain ⟨smaller, rfl⟩ : ∃ smaller, limit = smaller + 1 := ⟨limit - 1, by omega⟩
    rw [fits_succ] at hfits
    rw [evaluate_succ, valueIn]
    refine Form.outcome_congr _ (fun name hname => ?_)
      fun part hpart => ih (by omega) (by omega) (hfits.1 part hpart.mem)
    have hvariable := hagree name
    have hassigned := hfits.2 name hname
    generalize locals.lookup name = assigned?, values.lookup name = value? at hvariable hassigned ⊢
    cases hvariable with
    | none => rfl
    | some hvalue =>
      exact congrArg (variableValue ∘ some) (hvalue depth (by omega) (hassigned _ rfl))

/-- Expressions and values agree behind an assignment that changes no variable in use. -/
theorem Agree.assign (hagree : Agree locals values fileName)
    (hexpression : ¬ Uses fileName name expression) (hunused : Unused locals fileName name) :
    Agree ((name, expression) :: locals)
      ((name, valueIn values fileName nestingLimit expression) :: values) fileName := by
  intro other
  by_cases hother : other = name
  · subst hother
    rw [List.lookup_cons_self, List.lookup_cons_self]
    refine .some fun depth hdepth hfits => ?_
    rw [evaluate_assign hunused hexpression]
    exact hagree.evaluate_eq (Nat.le_refl _) hdepth (fits_of_assign hunused hexpression hfits)
  · rw [List.lookup_cons, List.lookup_cons, beq_false_of_ne hother]
    have hvariable := hagree other
    have hfree := fun assigned => hunused other assigned hother
    dsimp only
    generalize locals.lookup other = assigned?, values.lookup other = value? at hvariable hfree ⊢
    cases hvariable with
    | none => exact .none
    | some hvalue =>
      refine .some fun depth hdepth hfits => ?_
      rw [evaluate_assign hunused (hfree _ rfl)]
      exact hvalue depth hdepth (fits_of_assign hunused (hfree _ rfl) hfits)

/-- Runs with memories that agree make the same references. -/
theorem Agree.run_eq {file : File} {statements : List Statement}
    (hagree : Agree locals values file.fileName)
    (hwithin : staysWithin locals file.fileName statements = true)
    (hlasting : Lasting locals file.fileName statements) :
    file.run file.lateMemory locals statements = file.run file.earlyMemory values statements := by
  induction statements generalizing locals values with
  | nil => rfl
  | cons statement rest ih =>
    cases statement with
    | assignment name expression =>
      obtain ⟨hexpression, hunused, hrest⟩ := hlasting
      exact ih (hagree.assign hexpression hunused) hwithin hrest
    | use use =>
      rw [staysWithin, Bool.and_eq_true] at hwithin
      have hvalue : file.lateMemory.value locals use.expression =
          file.earlyMemory.value values use.expression :=
        hagree.evaluate_eq (Nat.le_refl _) (Nat.le_refl _) hwithin.1
      rw [File.run, File.run, hvalue, ih hagree hwithin.2 hlasting]

end

/-- **Variables have the values they were assigned** when no assignment changes a variable that
an expression in force uses: then a scan makes the same references, or fails with the same
error, as the scan that evaluates every expression where it is assigned. -/
theorem references_eq_scan_early (content origin : String)
    (hwithin : staysWithin [] (File.ofOrigin origin).fileName
      ((File.ofOrigin origin).statements content) = true)
    (hlasting : Lasting [] (File.ofOrigin origin).fileName
      ((File.ofOrigin origin).statements content)) :
    references content origin = scan File.earlyMemory [] content origin := by
  rw [references_eq_scan, scan, scan]
  simp only [(Agree.nil _).run_eq hwithin hlasting]

/-- A Gemfile that names a directory and puts the path of another Gemfile together. -/
def composed : String :=
  "dir = \"a\"\nfile = File.join(dir, \"Gemfile\")\neval_gemfile file\n"

theorem references_composed :
    staysWithin [] (File.ofOrigin "Gemfile").fileName
        ((File.ofOrigin "Gemfile").statements composed) = true ∧
      Lasting [] (File.ofOrigin "Gemfile").fileName
        ((File.ofOrigin "Gemfile").statements composed) ∧
      references composed "Gemfile" = scan File.earlyMemory [] composed "Gemfile" := by
  have hwithin : staysWithin [] (File.ofOrigin "Gemfile").fileName
      ((File.ofOrigin "Gemfile").statements composed) = true := by decide +kernel
  have hlasting : Lasting [] (File.ofOrigin "Gemfile").fileName
      ((File.ofOrigin "Gemfile").statements composed) := lasting_of_mustLast (by decide +kernel)
  exact ⟨hwithin, hlasting, references_eq_scan_early composed "Gemfile" hwithin hlasting⟩

/-- The same Gemfile with the directory reassigned between the two. -/
def reassigned : String :=
  "dir = \"a\"\nfile = File.join(dir, \"Gemfile\")\ndir = \"b\"\neval_gemfile file\n"

/-- A variable that was computed from another one takes part in its reassignment: where
evaluation at the assignment gives `a/Gemfile`, the scan refers to `b/Gemfile`. -/
theorem references_reassigned :
    staysWithin [] (File.ofOrigin "Gemfile").fileName
        ((File.ofOrigin "Gemfile").statements reassigned) = true ∧
      (references reassigned "Gemfile").toOption =
        some [⟨.childManifest, "b/Gemfile", "Gemfile"⟩] ∧
      (scan File.earlyMemory [] reassigned "Gemfile").toOption =
        some [⟨.childManifest, "a/Gemfile", "Gemfile"⟩] := by
  decide +kernel

end DependencyFiles.Bundler
