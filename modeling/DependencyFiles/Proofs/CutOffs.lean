import DependencyFiles.Proofs.Forms
import Mathlib.Logic.Relation

/-!
# The bound on nested evaluation

Evaluation goes into the parts of an expression up to a number of levels. An evaluation that comes
to the last level is cut off and ends without a known value, and one that does not has the same
value with every larger number of levels. So the bound decides how many expressions have a value,
and never which value an expression has.

An expression has a path only when all that it is made of has paths, in fewer levels. A variable
that comes back in its own expansion therefore has none, whatever the bound.
-/

namespace DependencyFiles.Bundler

open Text

/-- Evaluation in the given number of levels comes to an expression with no level left. It goes
into the variable of an expression, and into its parts as long as those before have paths. -/
inductive CutOff (locals : Locals) (fileName : List Char) : Nat → List Char → Prop
  | here (expression : List Char) : CutOff locals fileName 0 expression
  | assigned {depth : Nat} {expression name value : List Char}
      (hname : (form fileName expression).name? = some name)
      (hvalue : locals.lookup name = some value) (hcut : CutOff locals fileName depth value) :
      CutOff locals fileName (depth + 1) expression
  | part {depth : Nat} {expression part : List Char}
      (hpart : Reached (evaluate locals fileName depth) (form fileName expression).parts part)
      (hcut : CutOff locals fileName depth part) : CutOff locals fileName (depth + 1) expression

/-- An expression leads to its parts, which are the interpolations of a literal, the arguments of
a join, and the target and the base of an expansion, and to the expression assigned to the
variable that it is. -/
inductive Expands (locals : Locals) (fileName : List Char) : List Char → List Char → Prop
  | part {expression part : List Char} (hpart : part ∈ (form fileName expression).parts) :
      Expands locals fileName expression part
  | assigned {expression name value : List Char}
      (hname : (form fileName expression).name? = some name)
      (hvalue : locals.lookup name = some value) : Expands locals fileName expression value

/-! ## Parts without a path -/

section
variable {value lookup : List Char → Outcome} {part : List Char}

/-- Of several parts, some without a path, evaluation comes to one without a path. -/
theorem exists_reached_of_not_path {parts : List (List Char)} (hpart : part ∈ parts)
    (hnone : ∀ path, value part ≠ .path path) :
    ∃ other, Reached value parts other ∧ ∀ path, value other ≠ .path path := by
  induction parts with
  | nil => cases hpart
  | cons first rest ih =>
    by_cases hfirst : ∃ path, value first = .path path
    · obtain ⟨path, hpath⟩ := hfirst
      have hne : part ≠ first := fun h => hnone path (h ▸ hpath)
      obtain ⟨other, hother, hothers⟩ := ih ((List.mem_cons.1 hpart).resolve_left hne)
      exact ⟨other, .later hpath hother, hothers⟩
    · exact ⟨first, .first first rest, not_exists.1 hfirst⟩

theorem allPaths_of_reached {arguments : List (List Char)} (h : Reached value arguments part)
    (hnone : ∀ path, value part ≠ .path path) : allPaths value arguments = .error (value part) := by
  induction h with
  | first part rest =>
    rw [allPaths]
    cases hvalue : value part with
    | path text => exact absurd hvalue (hnone text)
    | skipped | unknown => rfl
  | later hpath _ ih =>
    rw [allPaths, hpath, ih hnone]
    rfl

theorem interpolate_of_reached {pieces : List Piece}
    (h : Reached value (pieces.filterMap Form.code?) part) (hnone : ∀ path, value part ≠ .path path) :
    interpolate value pieces = .unknown := by
  induction pieces with
  | nil => cases h
  | cons piece rest ih =>
    cases piece with
    | char c => rw [interpolate, ih h]
    | code text =>
      rw [interpolate]
      cases h with
      | first =>
        cases hvalue : value part with
        | path inner => exact absurd hvalue (hnone inner)
        | skipped | unknown => rfl
      | later hpath hlater => rw [hpath, ih hlater]

/-- A part that evaluation comes to and that has no path leaves the expression without one. -/
theorem Form.outcome_of_reached {f : Form} (h : Reached value f.parts part)
    (hnone : ∀ path, value part ≠ .path path) :
    f.outcome lookup value = value part ∨ f.outcome lookup value = .unknown := by
  cases f with
  | template pieces => exact .inr (interpolate_of_reached h hnone)
  | join arguments => exact .inl (congrArg joinOutcome (allPaths_of_reached h hnone))
  | expand target base? =>
    left
    rw [outcome]
    cases h with
    | first =>
      cases hvalue : value part with
      | path text => exact absurd hvalue (hnone text)
      | skipped | unknown => rfl
    | later hpath hlater =>
      obtain _ | base := base?
      · cases hlater
      · obtain rfl : part = base := List.mem_singleton.1 hlater.mem
        rw [hpath, Option.map_some]
        cases hvalue : value part with
        | path text => exact absurd hvalue (hnone text)
        | skipped | unknown => rfl
  | constant | environment | named | unfollowed => cases h

/-- An expression with a path has paths for all its parts. -/
theorem Form.exists_path_of_outcome {f : Form} {path : List Char}
    (h : f.outcome lookup value = .path path) : ∀ part ∈ f.parts, ∃ path, value part = .path path := by
  intro part hpart
  refine Classical.byContradiction fun hnone => ?_
  obtain ⟨other, hreached, hother⟩ := exists_reached_of_not_path hpart (not_exists.1 hnone)
  have hcases : f.outcome lookup value = value other ∨ f.outcome lookup value = .unknown :=
    outcome_of_reached hreached hother
  obtain hvalue | hunknown := hcases
  · exact hother path (hvalue.symm.trans h)
  · cases h.symm.trans hunknown

end

/-! ## The bound -/

section
variable {locals : Locals} {fileName expression : List Char} {depth larger : Nat}

/-- An expression that is a variable has the form of one. -/
theorem Form.name?_eq_some_iff {f : Form} {name : List Char} : f.name? = some name ↔ f = .named name := by
  cases f <;> simp [name?]

/-- Evaluation of a variable evaluates the expression assigned to it one level down. -/
theorem evaluate_named {name : List Char} (hform : form fileName expression = .named name) :
    evaluate locals fileName (depth + 1) expression =
      variableValue ((locals.lookup name).map (evaluate locals fileName depth)) := by
  rw [evaluate_succ, hform]
  rfl

/-- An evaluation that is cut off ends without a known value. -/
theorem CutOff.evaluate_eq (h : CutOff locals fileName depth expression) :
    evaluate locals fileName depth expression = .unknown := by
  induction h with
  | here expression => rfl
  | assigned hname hvalue _ ih =>
    rw [evaluate_named (Form.name?_eq_some_iff.1 hname), hvalue, Option.map_some, ih]
    rfl
  | @part depth _ part hpart _ ih =>
    have hnone (path : List Char) : evaluate locals fileName depth part ≠ .path path := by simp [ih]
    rw [evaluate_succ]
    exact (Form.outcome_of_reached hpart hnone).elim (·.trans ih) id

/-- An evaluation that is not cut off has the same value in more levels. -/
theorem evaluate_eq_of_not_cutOff (h : ¬ CutOff locals fileName depth expression)
    (hle : depth ≤ larger) :
    evaluate locals fileName larger expression = evaluate locals fileName depth expression := by
  induction depth generalizing larger expression with
  | zero => exact absurd (.here expression) h
  | succ depth ih =>
    obtain ⟨larger, rfl⟩ : ∃ more, larger = more + 1 := ⟨larger - 1, by omega⟩
    rw [evaluate_succ, evaluate_succ]
    refine (Form.outcome_congr _ (fun name hname => ?_) fun part hpart => ?_).symm
    · cases hvalue : locals.lookup name with
      | none => rfl
      | some value =>
        have hfits : ¬ CutOff locals fileName depth value := fun hcut => h (.assigned hname hvalue hcut)
        rw [Option.map_some, Option.map_some, ih hfits (Nat.le_of_succ_le_succ hle)]
    · exact (ih (fun hcut => h (.part hpart hcut)) (by omega)).symm

/-- A known value does not change in more levels. -/
theorem evaluate_mono (hle : depth ≤ larger)
    (hknown : evaluate locals fileName depth expression ≠ .unknown) :
    evaluate locals fileName larger expression = evaluate locals fileName depth expression :=
  evaluate_eq_of_not_cutOff (fun hcut => hknown hcut.evaluate_eq) hle

end

/-! ## Variables in their own expansion -/

section
variable {locals : Locals} {fileName expression other path : List Char} {depth : Nat}

/-- What an expression with a path leads to has a path one level down. -/
theorem Expands.exists_path (h : Expands locals fileName expression other)
    (hpath : evaluate locals fileName depth expression = .path path) :
    ∃ fewer < depth, ∃ path, evaluate locals fileName fewer other = .path path := by
  cases depth with
  | zero => cases hpath
  | succ depth =>
    refine ⟨depth, Nat.lt_succ_self depth, ?_⟩
    cases h with
    | part hpart =>
      rw [evaluate_succ] at hpath
      exact Form.exists_path_of_outcome hpath _ hpart
    | assigned hname hvalue =>
      rw [evaluate_named (Form.name?_eq_some_iff.1 hname), hvalue, Option.map_some] at hpath
      cases hother : evaluate locals fileName depth other with
      | path text => exact ⟨text, rfl⟩
      | skipped | unknown => rw [hother] at hpath; cases hpath

/-- Whatever an expression with a path leads to in the end has a path in fewer levels. -/
theorem exists_path_of_transGen (h : Relation.TransGen (Expands locals fileName) expression other)
    (hpath : evaluate locals fileName depth expression = .path path) :
    ∃ fewer < depth, ∃ path, evaluate locals fileName fewer other = .path path := by
  induction h with
  | single h => exact h.exists_path hpath
  | tail _ h ih =>
    obtain ⟨fewer, hfewer, middle, hmiddle⟩ := ih
    obtain ⟨least, hleast, hend⟩ := h.exists_path hmiddle
    exact ⟨least, Nat.lt_trans hleast hfewer, hend⟩

/-- Evaluation goes by the form of an expression alone. -/
theorem evaluate_eq_of_form (h : form fileName expression = form fileName other) :
    evaluate locals fileName depth expression = evaluate locals fileName depth other := by
  cases depth with
  | zero => rfl
  | succ depth => rw [evaluate_succ, evaluate_succ, h]

/-- An expression that leads to another one of its own form has no path. -/
theorem evaluate_ne_path_of_transGen (h : Relation.TransGen (Expands locals fileName) expression other)
    (hform : form fileName expression = form fileName other) :
    evaluate locals fileName depth expression ≠ .path path := by
  induction depth using Nat.strongRecOn generalizing path with
  | ind depth ih =>
    intro hpath
    obtain ⟨fewer, hfewer, inner, hinner⟩ := exists_path_of_transGen h hpath
    exact ih fewer hfewer ((evaluate_eq_of_form hform).trans hinner)

/-- An expression that is a variable has a path or no known value. -/
theorem evaluate_named_cases {name : List Char} (hform : form fileName expression = .named name) :
    (∃ path, evaluate locals fileName depth expression = .path path) ∨
      evaluate locals fileName depth expression = .unknown := by
  cases depth with
  | zero => exact .inr rfl
  | succ depth =>
    rw [evaluate_named hform]
    unfold variableValue
    split
    · exact .inl ⟨_, rfl⟩
    · exact .inr rfl

/-- A variable in whose expansion the variable occurs has no known value. -/
theorem evaluate_recurring {name value : List Char} (hvalue : locals.lookup name = some value)
    (hleads : Relation.ReflTransGen (Expands locals fileName) value other)
    (hother : form fileName other = .named name) (hform : form fileName expression = .named name) :
    evaluate locals fileName depth expression = .unknown := by
  have hstep : Expands locals fileName expression value :=
    .assigned (Form.name?_eq_some_iff.2 hform) hvalue
  refine (evaluate_named_cases hform).resolve_left fun ⟨path, hpath⟩ => ?_
  exact evaluate_ne_path_of_transGen (.head' hstep hleads) (hform.trans hother.symm) hpath

/-- No identifier is a string literal. -/
theorem literal?_of_isIdentifier {text : List Char} (h : isIdentifier text = true) : literal? text = none := by
  cases text with
  | nil => rfl
  | cons c rest =>
    have hc : isQuote c = false := by
      refine Bool.eq_false_iff.2 fun hquote => ?_
      have hstart : startsIdentifier c = true := (Bool.and_eq_true_iff.1 h).1
      simp only [isQuote, Bool.or_eq_true, beq_iff_eq] at hquote
      obtain rfl | rfl := hquote <;> cases hstart
    simp [literal?, hc]

/-- An identifier is never skipped. -/
theorem evaluate_ne_skipped_of_isIdentifier (h : isIdentifier (trim expression) = true) :
    evaluate locals fileName depth expression ≠ .skipped := by
  cases depth with
  | zero => simp [evaluate]
  | succ depth =>
    rw [evaluate, literal?_of_isIdentifier h]
    dsimp only
    rw [if_pos h]
    repeat' split
    all_goals exact Outcome.noConfusion

end

/-- **The bound only cuts off.** Evaluation that starts further down has fewer levels left. A known
value, path or not, does not change in more levels; where a value does change, the evaluation in
fewer levels was cut off, and so it ended without a known value. A variable that occurs in its own
expansion has no known value in any number of levels, and an identifier is never skipped. -/
theorem bound_only_cuts_off (locals : Locals) (fileName : List Char) :
    (∀ (expression : List Char) (depth larger : Nat), depth ≤ larger →
      evaluate locals fileName depth expression ≠ .unknown →
      evaluate locals fileName larger expression = evaluate locals fileName depth expression) ∧
    (∀ (expression : List Char) (depth larger : Nat), depth ≤ larger →
      evaluate locals fileName larger expression ≠ evaluate locals fileName depth expression →
      CutOff locals fileName depth expression ∧
        evaluate locals fileName depth expression = .unknown) ∧
    (∀ name value occurrence : List Char, locals.lookup name = some value →
      Relation.ReflTransGen (Expands locals fileName) value occurrence →
      form fileName occurrence = .named name →
      ∀ (expression : List Char) (depth : Nat), form fileName expression = .named name →
        evaluate locals fileName depth expression = .unknown) ∧
    ∀ expression : List Char, isIdentifier (trim expression) = true →
      ∀ depth, evaluate locals fileName depth expression ≠ .skipped := by
  refine ⟨fun _ _ _ hle hknown => evaluate_mono hle hknown, fun expression depth larger hle hne => ?_,
    fun _ _ _ hvalue hleads hother _ _ hform => evaluate_recurring hvalue hleads hother hform,
    fun _ h _ => evaluate_ne_skipped_of_isIdentifier h⟩
  have hcut : CutOff locals fileName depth expression :=
    Classical.byContradiction fun hfits => hne (evaluate_eq_of_not_cutOff hfits hle)
  exact ⟨hcut, hcut.evaluate_eq⟩

/-- Two variables whose expressions use each other, and one that has a path in three levels. -/
def tangledLocals : Locals :=
  [("a".toList, "File.join(b, 'x')".toList), ("b".toList, "\"#\x7ba\x7d/y\"".toList),
    ("dir".toList, "File.join(__dir__, 'gems')".toList)]

theorem bound_only_cuts_off_tangled :
    evaluate tangledLocals "Gemfile".toList 3 "dir".toList = .path "./gems".toList ∧
      evaluate tangledLocals "Gemfile".toList nestingLimit "dir".toList = .path "./gems".toList ∧
      CutOff tangledLocals "Gemfile".toList 2 "dir".toList ∧
      (∀ depth, evaluate tangledLocals "Gemfile".toList depth "a".toList = .unknown) ∧
      ∀ depth, evaluate tangledLocals "Gemfile".toList depth "dir".toList ≠ .skipped := by
  have hbound := bound_only_cuts_off tangledLocals "Gemfile".toList
  have hpath : evaluate tangledLocals "Gemfile".toList 3 "dir".toList = .path "./gems".toList := by
    decide +kernel
  have hknown : evaluate tangledLocals "Gemfile".toList 3 "dir".toList ≠ .unknown := by
    rw [hpath]
    exact Outcome.noConfusion
  have hfewer : evaluate tangledLocals "Gemfile".toList 3 "dir".toList ≠
      evaluate tangledLocals "Gemfile".toList 2 "dir".toList := by decide +kernel
  have hjoin : Expands tangledLocals "Gemfile".toList "File.join(b, 'x')".toList "b".toList :=
    .part (by decide +kernel)
  have hother : form "Gemfile".toList "b".toList = .named "b".toList := by decide +kernel
  have hvariable : Expands tangledLocals "Gemfile".toList "b".toList "\"#\x7ba\x7d/y\"".toList :=
    .assigned (Form.name?_eq_some_iff.2 hother) rfl
  have hliteral : Expands tangledLocals "Gemfile".toList "\"#\x7ba\x7d/y\"".toList "a".toList :=
    .part (by decide +kernel)
  have hleads : Relation.ReflTransGen (Expands tangledLocals "Gemfile".toList)
      "File.join(b, 'x')".toList "a".toList := .head hjoin (.head hvariable (.single hliteral))
  have hname : form "Gemfile".toList "a".toList = .named "a".toList := by decide +kernel
  exact ⟨hpath, (hbound.1 _ 3 nestingLimit (by decide) hknown).trans hpath,
    (hbound.2.1 _ 2 3 (by decide) hfewer).1, fun depth => hbound.2.2.1 _ _ _ rfl hleads hname _ depth hname,
    hbound.2.2.2 _ (by decide +kernel)⟩

end DependencyFiles.Bundler
