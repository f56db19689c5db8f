import DependencyFiles.Proofs.Cleaning
import DependencyFiles.Proofs.CutOffs
import DependencyFiles.Proofs.LineEnds
import Mathlib.Data.List.Forall2

/-!
# Paths put together from parts

Joining parts leaves out empty ones and the slashes at their ends, and cleans nothing. Followed from
a directory the joined text still leads where the parts lead one after the other, as slashes in a
row are nothing to follow. So expressions that put their paths together from the same parts in the
same order lead to the same place, whichever calls and variables group the parts.
-/

namespace DependencyFiles

open Text

namespace PathText

theorem run_nil (segments : List (List Char)) : run segments [] = segments := rfl

/-- Slashes behind a written path lead nowhere. -/
theorem run_append_slashes {slashes : List Char} (h : slashes.all (· == '/') = true)
    (segments : List (List Char)) (written : List Char) :
    run segments (written ++ slashes) = run segments written := by
  induction slashes generalizing segments written with
  | nil => rw [List.append_nil]
  | cons c rest ih =>
    rw [List.all_cons, Bool.and_eq_true, beq_iff_eq] at h
    rw [h.1, run_append]
    exact ih h.2 (run segments written) []

/-- Slashes at the end of a written path lead nowhere. -/
theorem run_dropEndWhile (segments : List (List Char)) (written : List Char) :
    run segments (dropEndWhile (· == '/') written) = run segments written := by
  obtain ⟨slashes, hslashes, hwritten⟩ := exists_dropEndWhile_append (· == '/') written
  calc run segments (dropEndWhile (· == '/') written)
      _ = run segments (dropEndWhile (· == '/') written ++ slashes) := (run_append_slashes hslashes _ _).symm
      _ = run segments written := by rw [← hwritten]

/-- Texts with slashes between them are followed one after the other. -/
theorem run_joinWith (segments : List (List Char)) (texts : List (List Char)) :
    run segments (joinWith '/' texts) = texts.foldl run segments := by
  induction texts generalizing segments with
  | nil => rfl
  | cons text more ih =>
    cases more with
    | nil => rfl
    | cons next others =>
      have htext : joinWith '/' (text :: next :: others) = text ++ '/' :: joinWith '/' (next :: others) := rfl
      rw [htext, run_append, ih]
      rfl

/-- Joined parts are followed one after the other. -/
theorem run_joinParts (segments : List (List Char)) (parts : List (List Char)) :
    run segments (Bundler.joinParts parts) = parts.foldl run segments := by
  rw [Bundler.joinParts, run_joinWith]
  induction parts generalizing segments with
  | nil => rfl
  | cons part rest ih =>
    have hpart := run_dropEndWhile segments part
    rw [List.map_cons, List.filter_cons, List.foldl_cons]
    split
    · rw [List.foldl_cons, ih, hpart]
    · rename_i hempty
      have hnone : dropEndWhile (· == '/') part = [] := by simpa using hempty
      rw [hnone, run_nil] at hpart
      rw [ih, ← hpart]

end PathText

namespace TreePath

/-- Where written paths lead from a place, followed one after the other. -/
def along (place : TreePath) (paths : List (List Char)) : TreePath :=
  paths.foldl (fun place path => place.join (String.ofList path)) place

theorem along_cons (place : TreePath) (path : List Char) (rest : List (List Char)) :
    place.along (path :: rest) = (place.join (String.ofList path)).along rest := rfl

theorem along_append (place : TreePath) (front back : List (List Char)) :
    place.along (front ++ back) = (place.along front).along back := List.foldl_append

theorem names_along (place : TreePath) (paths : List (List Char)) :
    (place.along paths).names = paths.foldl PathText.run place.names := by
  induction paths generalizing place with
  | nil => rfl
  | cons path rest ih => rw [along_cons, ih, names_join, String.toList_ofList, List.foldl_cons]

/-- Joined parts lead where the parts lead one after the other. -/
theorem join_joinParts (place : TreePath) (parts : List (List Char)) :
    place.join (String.ofList (Bundler.joinParts parts)) = place.along parts := by
  apply ext_names
  rw [names_join, String.toList_ofList, PathText.run_joinParts, names_along]

end TreePath

namespace Bundler

/-! ## Calls that put paths together -/

/-- Expressions have these paths, one each. -/
def HavePaths (locals : Locals) (fileName : List Char) (depth : Nat)
    (expressions paths : List (List Char)) : Prop :=
  List.Forall₂ (fun expression path => evaluate locals fileName depth expression = .path path)
    expressions paths

/-- No path of an expression starts from the root. -/
def IsRelative (locals : Locals) (fileName expression : List Char) : Prop :=
  ∀ depth path, evaluate locals fileName depth expression = .path path → path.head? ≠ some '/'

/-- An expression is taken apart into what it joins, into the base and the target that it expands,
or into what is assigned to the variable that it is. -/
inductive TakesApart (locals : Locals) (fileName : List Char) : List Char → List (List Char) → Prop
  | join {expression : List Char} {arguments : List (List Char)}
      (hform : form fileName expression = .join arguments) :
      TakesApart locals fileName expression arguments
  | expand {expression target base : List Char}
      (hform : form fileName expression = .expand target (some base))
      (hrelative : IsRelative locals fileName target) :
      TakesApart locals fileName expression [base, target]
  | alone {expression target : List Char} (hform : form fileName expression = .expand target none) :
      TakesApart locals fileName expression [target]
  | assigned {expression name value : List Char} (hform : form fileName expression = .named name)
      (hvalue : locals.lookup name = some value) : TakesApart locals fileName expression [value]

/-- Expressions in a row are made of parts: some of them are parts, and the others are taken apart
until only parts are left. -/
inductive MadeOf (locals : Locals) (fileName : List Char) : List (List Char) → List (List Char) → Prop
  | nil : MadeOf locals fileName [] []
  | part {expression : List Char} {rest parts : List (List Char)}
      (hrest : MadeOf locals fileName rest parts) :
      MadeOf locals fileName (expression :: rest) (expression :: parts)
  | apart {expression : List Char} {members rest parts : List (List Char)}
      (hmembers : TakesApart locals fileName expression members)
      (hrest : MadeOf locals fileName (members ++ rest) parts) :
      MadeOf locals fileName (expression :: rest) parts

section
variable {locals : Locals} {fileName expression : List Char} {depth larger : Nat}
  {expressions front back members parts paths : List (List Char)}

theorem HavePaths.mono (hle : depth ≤ larger) (h : HavePaths locals fileName depth expressions paths) :
    HavePaths locals fileName larger expressions paths := by
  refine List.Forall₂.imp (fun expression path hpath => ?_) h
  have hknown : evaluate locals fileName depth expression ≠ .unknown := by simp [hpath]
  exact (evaluate_mono hle hknown).trans hpath

theorem HavePaths.append {others : List (List Char)} (hfront : HavePaths locals fileName depth front paths)
    (hback : HavePaths locals fileName depth back others) :
    HavePaths locals fileName depth (front ++ back) (paths ++ others) := List.rel_append hfront hback

theorem HavePaths.exists_of_append (h : HavePaths locals fileName depth (front ++ back) paths) :
    ∃ first second, paths = first ++ second ∧ HavePaths locals fileName depth front first ∧
      HavePaths locals fileName depth back second := by
  induction front generalizing paths with
  | nil => exact ⟨[], paths, rfl, .nil, h⟩
  | cons expression front ih =>
    cases h with
    | cons hpath hrest =>
      obtain ⟨first, second, rfl, hfirst, hsecond⟩ := ih hrest
      exact ⟨_ :: first, second, rfl, .cons hpath hfirst, hsecond⟩

/-- Expressions have no other paths in any other number of levels. -/
theorem HavePaths.unique {others : List (List Char)} (h : HavePaths locals fileName depth expressions paths)
    (hothers : HavePaths locals fileName larger expressions others) : paths = others := by
  have hfirst := h.mono (Nat.le_max_left depth larger)
  have hsecond := hothers.mono (Nat.le_max_right depth larger)
  refine List.right_unique_forall₂' (fun expression path other hpath hother => ?_) hfirst hsecond
  exact Outcome.path.inj (hpath.symm.trans hother)

theorem HavePaths.allPaths_eq (h : HavePaths locals fileName depth expressions paths) :
    allPaths (evaluate locals fileName depth) expressions = .ok paths := by
  induction h with
  | nil => rfl
  | cons hpath _ ih =>
    rw [allPaths, hpath, ih]
    rfl

theorem exists_havePaths (h : ∀ expression ∈ expressions, ∃ path,
    evaluate locals fileName depth expression = .path path) :
    ∃ paths, HavePaths locals fileName depth expressions paths := by
  induction expressions with
  | nil => exact ⟨[], .nil⟩
  | cons expression rest ih =>
    obtain ⟨path, hpath⟩ := h expression List.mem_cons_self
    obtain ⟨paths, hpaths⟩ := ih fun other hother => h other (List.mem_cons_of_mem expression hother)
    exact ⟨path :: paths, .cons hpath hpaths⟩

/-! ## One expression taken apart -/

/-- An expression leads to all that it is taken apart into. -/
theorem TakesApart.expands (h : TakesApart locals fileName expression members) :
    ∀ member ∈ members, Expands locals fileName expression member := by
  intro member hmember
  cases h with
  | join hform => exact .part (by rw [hform]; exact hmember)
  | expand hform =>
    refine .part ?_
    rw [hform]
    exact List.mem_cons.2 ((List.mem_cons.1 hmember).symm.imp List.mem_singleton.1 List.mem_singleton.2)
  | alone hform => exact .part (by rw [hform]; exact hmember)
  | assigned hform hvalue =>
    rw [List.mem_singleton.1 hmember]
    exact .assigned (Form.name?_eq_some_iff.2 hform) hvalue

/-- What is taken apart has a path one level above its members, and leads where they lead one
after the other. -/
theorem TakesApart.exists_path (h : TakesApart locals fileName expression members)
    (hpaths : HavePaths locals fileName depth members paths) :
    ∃ path, evaluate locals fileName (depth + 1) expression = .path path ∧
      ∀ place : TreePath, place.join (String.ofList path) = place.along paths := by
  cases h with
  | join hform =>
    refine ⟨joinParts paths, ?_, fun place => place.join_joinParts paths⟩
    rw [evaluate_succ, hform]
    exact congrArg joinOutcome hpaths.allPaths_eq
  | expand hform hrelative =>
    obtain _ | ⟨hbase, _ | ⟨htarget, _ | _⟩⟩ := hpaths
    refine ⟨_, ?_, fun place => place.join_joinParts _⟩
    rw [evaluate_succ, hform, Form.outcome, Option.map_some, htarget, hbase, expandOutcome, expandPath,
      if_neg (hrelative depth _ htarget)]
  | alone hform =>
    obtain _ | ⟨htarget, _ | _⟩ := hpaths
    refine ⟨_, ?_, fun _ => rfl⟩
    rw [evaluate_succ, hform, Form.outcome, htarget]
    rfl
  | assigned hform hvalue =>
    obtain _ | ⟨hassigned, _ | _⟩ := hpaths
    refine ⟨_, ?_, fun _ => rfl⟩
    rw [evaluate_named hform, hvalue, Option.map_some, hassigned]
    rfl

/-- The members of what has a path have paths one level down that lead to the same place. -/
theorem TakesApart.exists_havePaths {path : List Char} (h : TakesApart locals fileName expression members)
    (hpath : evaluate locals fileName depth expression = .path path) :
    ∃ paths, HavePaths locals fileName depth members paths ∧
      ∀ place : TreePath, place.join (String.ofList path) = place.along paths := by
  have hmembers : ∃ paths, HavePaths locals fileName depth members paths := by
    refine Bundler.exists_havePaths fun member hmember => ?_
    obtain ⟨fewer, hfewer, inner, hinner⟩ := (h.expands member hmember).exists_path hpath
    have hknown : evaluate locals fileName fewer member ≠ .unknown := by simp [hinner]
    exact ⟨inner, (evaluate_mono (Nat.le_of_lt hfewer) hknown).trans hinner⟩
  obtain ⟨paths, hpaths⟩ := hmembers
  obtain ⟨other, hother, hplace⟩ := h.exists_path hpaths
  have hknown : evaluate locals fileName depth expression ≠ .unknown := by simp [hpath]
  have hsame := (evaluate_mono (Nat.le_succ depth) hknown).trans hpath
  obtain rfl : path = other := Outcome.path.inj (hsame.symm.trans hother)
  exact ⟨paths, hpaths, hplace⟩

/-! ## Expressions made of parts -/

/-- The parts of expressions with paths have paths that lead to the same place. -/
theorem MadeOf.exists_parts (h : MadeOf locals fileName expressions parts)
    (hpaths : HavePaths locals fileName depth expressions paths) :
    ∃ others, HavePaths locals fileName depth parts others ∧
      ∀ place : TreePath, place.along paths = place.along others := by
  induction h generalizing paths with
  | nil =>
    cases hpaths
    exact ⟨[], .nil, fun _ => rfl⟩
  | part _ ih =>
    obtain _ | ⟨hpath, hrest⟩ := hpaths
    obtain ⟨others, hothers, hplace⟩ := ih hrest
    exact ⟨_ :: others, .cons hpath hothers, fun place => hplace _⟩
  | apart hmembers _ ih =>
    obtain _ | ⟨hpath, hrest⟩ := hpaths
    obtain ⟨first, hfirst, hjoin⟩ := hmembers.exists_havePaths hpath
    obtain ⟨others, hothers, hplace⟩ := ih (hfirst.append hrest)
    refine ⟨others, hothers, fun place => ?_⟩
    rw [TreePath.along_cons, hjoin, ← TreePath.along_append, hplace]

/-- Expressions whose parts have paths have paths, some levels above, that lead to the same place. -/
theorem MadeOf.exists_whole (h : MadeOf locals fileName expressions parts)
    (hpaths : HavePaths locals fileName depth parts paths) :
    ∃ larger others, depth ≤ larger ∧ HavePaths locals fileName larger expressions others ∧
      ∀ place : TreePath, place.along others = place.along paths := by
  induction h generalizing paths with
  | nil =>
    cases hpaths
    exact ⟨depth, [], Nat.le_refl depth, .nil, fun _ => rfl⟩
  | part _ ih =>
    obtain _ | ⟨hpath, hrest⟩ := hpaths
    obtain ⟨larger, others, hle, hothers, hplace⟩ := ih hrest
    have hknown := HavePaths.mono hle (.cons hpath .nil)
    exact ⟨larger, _ :: others, hle, hknown.append hothers, fun place => hplace _⟩
  | apart hmembers _ ih =>
    obtain ⟨larger, others, hle, hothers, hplace⟩ := ih hpaths
    obtain ⟨first, second, rfl, hfirst, hsecond⟩ := hothers.exists_of_append
    obtain ⟨path, hpath, hjoin⟩ := hmembers.exists_path hfirst
    refine ⟨larger + 1, path :: second, Nat.le_succ_of_le hle,
      .cons hpath (hsecond.mono (Nat.le_succ larger)), fun place => ?_⟩
    rw [TreePath.along_cons, hjoin, ← TreePath.along_append, hplace]

/-- Expressions that are made of the same parts and have paths lead to the same place. -/
theorem MadeOf.same_place {first second : List Char} {path other : List Char}
    (hfirst : MadeOf locals fileName [first] parts) (hsecond : MadeOf locals fileName [second] parts)
    (hpath : evaluate locals fileName depth first = .path path)
    (hother : evaluate locals fileName larger second = .path other) (place : TreePath) :
    place.join (String.ofList path) = place.join (String.ofList other) := by
  obtain ⟨paths, hpaths, hplace⟩ := hfirst.exists_parts (.cons hpath .nil)
  obtain ⟨others, hothers, hsame⟩ := hsecond.exists_parts (.cons hother .nil)
  obtain rfl := hpaths.unique hothers
  exact (hplace place).trans (hsame place).symm

/-- An expression is relative when a path that it has in some number of levels is. -/
theorem isRelative_of_evaluate {path : List Char} (hpath : evaluate locals fileName depth expression = .path path)
    (hrelative : path.head? ≠ some '/') : IsRelative locals fileName expression := by
  intro larger other hother
  have hsame : [path] = [other] := HavePaths.unique (.cons hpath .nil) (.cons hother .nil)
  exact (List.cons.inj hsame).1 ▸ hrelative

end

/-- **Joined parts lead along their parts.** From every place the text that joins parts leads where
the parts lead one after the other. So a join whose arguments have paths, and an expansion of a
relative target from a base, have a path, and it leads where the paths of the arguments, or of the
base and then of the target, lead. The same holds of nested calls and variables down to the parts
they are made of, given enough levels; and two expressions made of the same parts lead to the
same place, however the parts are grouped. -/
theorem joined_parts_lead_along (locals : Locals) (fileName : List Char) :
    (∀ (place : TreePath) (parts : List String),
      place.join (String.ofList (joinParts (parts.map String.toList))) = parts.foldl TreePath.join place) ∧
    (∀ (expression : List Char) (members paths : List (List Char)) (depth : Nat),
      TakesApart locals fileName expression members → HavePaths locals fileName depth members paths →
      ∃ path, evaluate locals fileName (depth + 1) expression = .path path ∧
        ∀ place : TreePath, place.join (String.ofList path) = place.along paths) ∧
    (∀ (expression : List Char) (parts paths : List (List Char)) (depth : Nat),
      MadeOf locals fileName [expression] parts → HavePaths locals fileName depth parts paths →
      ∃ larger path, evaluate locals fileName larger expression = .path path ∧
        ∀ place : TreePath, place.join (String.ofList path) = place.along paths) ∧
    ∀ (first second : List Char) (parts : List (List Char)), MadeOf locals fileName [first] parts →
      MadeOf locals fileName [second] parts → ∀ (depth larger : Nat) (path other : List Char),
      evaluate locals fileName depth first = .path path →
      evaluate locals fileName larger second = .path other →
      ∀ place : TreePath, place.join (String.ofList path) = place.join (String.ofList other) := by
  refine ⟨fun place parts => ?_, fun _ _ _ _ h hpaths => h.exists_path hpaths,
    fun expression parts paths depth h hpaths => ?_,
    fun _ _ _ hfirst hsecond _ _ _ _ hpath hother => hfirst.same_place hsecond hpath hother⟩
  · rw [place.join_joinParts, TreePath.along, List.foldl_map]
    simp only [String.ofList_toList]
  · obtain ⟨larger, others, -, hothers, hplace⟩ := h.exists_whole hpaths
    obtain _ | ⟨hpath, _ | _⟩ := hothers
    exact ⟨larger, _, hpath, hplace⟩

/-- A variable for a directory that is put together from three parts. -/
def toolLocals : Locals := [("dir".toList, "File.join('gems/', '', '/tool')".toList)]

/-- The directory beside it, by the name of the variable. -/
def besideByName : List Char := "File.join(dir, '../core')".toList

/-- The directory beside it, seen from the same parts grouped in another way. -/
def besideByTarget : List Char :=
  "File.expand_path('../core', File.join('gems/', File.join('', '/tool')))".toList

/-- The parts of both. -/
def besideParts : List (List Char) :=
  ["'gems/'".toList, "''".toList, "'/tool'".toList, "'../core'".toList]

theorem madeOf_besideByName : MadeOf toolLocals "Gemfile".toList [besideByName] besideParts := by
  have hwhole : TakesApart toolLocals "Gemfile".toList besideByName ["dir".toList, "'../core'".toList] :=
    .join (by decide +kernel)
  have hname : form "Gemfile".toList "dir".toList = .named "dir".toList := by decide +kernel
  have hvalue : TakesApart toolLocals "Gemfile".toList "File.join('gems/', '', '/tool')".toList
      ["'gems/'".toList, "''".toList, "'/tool'".toList] := .join (by decide +kernel)
  exact .apart hwhole (.apart (.assigned hname rfl) (.apart hvalue (.part (.part (.part (.part .nil))))))

theorem madeOf_besideByTarget : MadeOf toolLocals "Gemfile".toList [besideByTarget] besideParts := by
  have htarget : evaluate toolLocals "Gemfile".toList 1 "'../core'".toList = .path "../core".toList := rfl
  have hwhole : TakesApart toolLocals "Gemfile".toList besideByTarget
      ["File.join('gems/', File.join('', '/tool'))".toList, "'../core'".toList] :=
    .expand (by decide +kernel) (isRelative_of_evaluate htarget (by decide))
  have hbase : TakesApart toolLocals "Gemfile".toList "File.join('gems/', File.join('', '/tool'))".toList
      ["'gems/'".toList, "File.join('', '/tool')".toList] := .join (by decide +kernel)
  have hinner : TakesApart toolLocals "Gemfile".toList "File.join('', '/tool')".toList
      ["''".toList, "'/tool'".toList] := .join (by decide +kernel)
  exact .apart hwhole (.apart hbase (.part (.apart hinner (.part (.part (.part .nil))))))

theorem joined_parts_lead_along_beside :
    HavePaths toolLocals "Gemfile".toList 1 besideParts
        ["gems/".toList, [], "/tool".toList, "../core".toList] ∧
      (∃ larger path, evaluate toolLocals "Gemfile".toList larger besideByName = .path path ∧
        ∀ place : TreePath, place.join (String.ofList path) =
          place.along ["gems/".toList, [], "/tool".toList, "../core".toList]) ∧
      ∃ path other, evaluate toolLocals "Gemfile".toList nestingLimit besideByName = .path path ∧
        evaluate toolLocals "Gemfile".toList nestingLimit besideByTarget = .path other ∧
        ∀ place : TreePath, place.join (String.ofList path) = place.join (String.ofList other) := by
  have hlead := joined_parts_lead_along toolLocals "Gemfile".toList
  have hparts : HavePaths toolLocals "Gemfile".toList 1 besideParts
      ["gems/".toList, [], "/tool".toList, "../core".toList] :=
    .cons rfl (.cons rfl (.cons rfl (.cons rfl .nil)))
  have hname : evaluate toolLocals "Gemfile".toList nestingLimit besideByName =
      .path "gems//tool/../core".toList := by decide +kernel
  have htarget : evaluate toolLocals "Gemfile".toList nestingLimit besideByTarget =
      .path "gems//tool/../core".toList := by decide +kernel
  exact ⟨hparts, hlead.2.2.1 _ _ _ 1 madeOf_besideByName hparts,
    _, _, hname, htarget, hlead.2.2.2 _ _ _ madeOf_besideByName madeOf_besideByTarget _ _ _ _ hname htarget⟩

end Bundler

end DependencyFiles
