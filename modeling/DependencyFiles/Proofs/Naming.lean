import DependencyFiles.Bundler.Basic
import DependencyFiles.Proofs.Beginnings

/-!
# What files are called

A file may be collected through several mounts, and is then called differently. What its
references ask for goes by its name alone, and the name is the same wherever the file is
reached, since no submodule is mounted between a file's repository and the base directory.
-/

namespace DependencyFiles

/-- What a reference asks for, wherever it stands. -/
def Reference.aim (reference : Reference) : Reference.Kind × String := (reference.kind, reference.path)

/-- What the references in a text ask for, when they can be told. -/
def Ecosystem.aims? (ecosystem : Ecosystem) (content origin : String) :
    Option (List (Reference.Kind × String)) :=
  (ecosystem.references content origin).toOption.map (List.map Reference.aim)

/-- Files are told apart by their names: the references in a file go by the last segment of the path
that it stands at, manifests have names, and a file without a name is no specification. -/
structure Ecosystem.GoesByName (ecosystem : Ecosystem) : Prop where
  aims? : ∀ content origin other, Text.basename origin.toList = Text.basename other.toList →
    ecosystem.aims? content origin = ecosystem.aims? content other
  isSegment : ∀ name ∈ ecosystem.manifests, IsSegment name
  isSpecification : ecosystem.isSpecification "" = false
  isBesideManifest : ecosystem.isBesideManifest "" = false

/-- Steps that agree in part of their results, whatever their errors, agree when they are composed. -/
theorem map_toOption_bind {ε α β γ δ : Type} {x y : Except ε α} {f g : α → Except ε β} {i : α → γ}
    {k : β → δ} (hxy : x.toOption.map i = y.toOption.map i)
    (hfg : ∀ a b, i a = i b → (f a).toOption.map k = (g b).toOption.map k) :
    (x >>= f).toOption.map k = (y >>= g).toOption.map k := by
  cases x with
  | error e =>
    cases y with
    | error e' => rfl
    | ok b => cases hxy
  | ok a =>
    cases y with
    | error e' => cases hxy
    | ok b =>
      apply hfg
      simpa [Except.toOption] using hxy

namespace Bundler

variable (origin other : String) (fileName : List Char)

/-- A declared path does not depend on where the file stands. -/
theorem toOption_declared? (locals : Locals) (expression : List Char) :
    ((File.mk origin fileName).declared? locals expression).toOption.map id =
      ((File.mk other fileName).declared? locals expression).toOption.map id := by
  have hvalue : (File.mk origin fileName).value = (File.mk other fileName).value := rfl
  unfold File.declared?
  rw [hvalue]
  cases (File.mk other fileName).value locals expression <;> rfl

/-- What a call asks for does not depend on where the file stands. -/
theorem aim_callReference? (locals : Locals) (method : String) (arguments : List (List Char)) :
    ((File.mk origin fileName).callReference? locals method arguments).toOption.map
        (Option.map Reference.aim) =
      ((File.mk other fileName).callReference? locals method arguments).toOption.map
        (Option.map Reference.aim) := by
  have hpossible : (File.mk origin fileName).possible? = (File.mk other fileName).possible? := rfl
  have hdeclared (expression : List Char) {reference reference' : List Char → Reference}
      (haim : ∀ path, (reference path).aim = (reference' path).aim) :
      (do return (← (File.mk origin fileName).declared? locals expression).map reference :
        Except ScanError (Option Reference)).toOption.map (Option.map Reference.aim) =
      (do return (← (File.mk other fileName).declared? locals expression).map reference' :
        Except ScanError (Option Reference)).toOption.map (Option.map Reference.aim) := by
    refine map_toOption_bind (toOption_declared? origin other fileName locals expression) ?_
    intro path _ hthis
    obtain rfl := hthis
    cases path with
    | none => rfl
    | some path => exact congrArg (fun aim => some (some aim)) (haim path)
  unfold File.callReference?
  rw [hpossible]
  split
  · cases arguments.head?.bind ((File.mk other fileName).possible? locals) <;> rfl
  · split
    · rfl
    · split
      · split
        · rfl
        · exact hdeclared _ fun _ => rfl
      · split
        · rfl
        · exact hdeclared _ fun _ => rfl
      · split
        · rfl
        · exact hdeclared _ fun _ => rfl
      · cases arguments.head?.bind ((File.mk other fileName).possible? locals) <;> rfl
      · rfl

/-- What lines ask for does not depend on where the file stands. -/
theorem aims_lineReferences (locals : Locals) (lines : List (List Char)) :
    ((File.mk origin fileName).lineReferences locals lines).toOption.map (List.map Reference.aim) =
      ((File.mk other fileName).lineReferences locals lines).toOption.map (List.map Reference.aim) := by
  induction lines generalizing locals with
  | nil => rfl
  | cons line rest ih =>
    unfold File.lineReferences
    dsimp only
    split
    · exact ih locals
    · split
      · exact ih _
      · have hline : ((File.mk origin fileName).lineReference? locals
            (withoutComment {} line)).toOption.map (Option.map Reference.aim) =
            ((File.mk other fileName).lineReference? locals
              (withoutComment {} line)).toOption.map (Option.map Reference.aim) := by
          unfold File.lineReference?
          split
          · exact aim_callReference? origin other fileName locals _ _
          · rfl
        refine map_toOption_bind hline fun found found' hfound => ?_
        refine map_toOption_bind (ih locals) fun more more' hmore => ?_
        have hlist : found.toList.map Reference.aim = found'.toList.map Reference.aim := by
          rw [← Option.toList_map, ← Option.toList_map, hfound]
        exact congrArg some (by rw [List.map_append, List.map_append, hlist, hmore])

end Bundler

/-- Ruby files are told apart by their names. -/
theorem Ecosystem.bundler_goesByName : bundler.GoesByName where
  aims? content origin other hname := by
    have hfile : Bundler.File.ofOrigin origin = ⟨origin, Text.basename origin.toList⟩ := rfl
    have hfile' : Bundler.File.ofOrigin other = ⟨other, Text.basename origin.toList⟩ := by
      rw [Bundler.File.ofOrigin, hname]
    have hsupport : (Bundler.supportReferences content.toList origin).map Reference.aim =
        (Bundler.supportReferences content.toList other).map Reference.aim := by
      simp [Bundler.supportReferences, Function.comp_def, Reference.aim]
    change (Bundler.references content origin).toOption.map (List.map Reference.aim) =
      (Bundler.references content other).toOption.map (List.map Reference.aim)
    unfold Bundler.references
    rw [hfile, hfile']
    refine map_toOption_bind (Bundler.aims_lineReferences origin other _ [] _)
      fun declared declared' hdeclared => congrArg some ?_
    rw [List.map_append, List.map_append, hdeclared]
    by_cases hlike : Bundler.isGemfileLike (Text.basename origin.toList) = true
    · rw [if_pos hlike, if_pos hlike, hsupport]
    · rw [if_neg hlike, if_neg hlike]
  isSegment := by decide
  isSpecification := by decide
  isBesideManifest := by decide

namespace Forge

variable {forge : Forge} {settings : Settings} {checkout : Checkout} {requested : TreePath} {base : Place}

/-- The requested directory is listed in the checkout that is asked for. -/
theorem listing?_of_base? (hbase : forge.base? settings checkout requested = some base) :
    ∃ entries, forge.listing? (checkout, requested) = some entries := by
  unfold base? at hbase
  cases hlist : forge.listing? (checkout, requested) with
  | none =>
    rw [hlist] at hbase
    cases hbase
  | some entries => exact ⟨entries, rfl⟩

/-- The requested directory is no file. -/
theorem isFile_of_base? (hbase : forge.base? settings checkout requested = some base) {entry : Entry}
    (hlist : forge.listing? (checkout, requested) = some [entry]) (hpath : entry.path = requested) :
    entry.isFile = false := by
  have hone : Entry.single? [entry] requested = some entry := if_pos hpath
  unfold base? at hbase
  rw [hlist] at hbase
  dsimp only at hbase
  rw [hone] at hbase
  dsimp only at hbase
  split at hbase
  · rename_i hfollow
    have hkind := (Bool.and_eq_true_iff.1 hfollow).1
    unfold Entry.isSubmodule at hkind
    unfold Entry.isFile
    rw [beq_iff_eq] at hkind
    rw [hkind]
    rfl
  · cases hbase

/-- No submodule is mounted above the base directory: one that the base directory lies in is mounted
right there. -/
theorem Mounted.position_eq (hbase : forge.base? settings checkout requested = some base)
    {mount : Mount} (h : forge.Mounted ⟨checkout, .root⟩ mount) :
    mount = ⟨checkout, .root⟩ ∨
      (requested.isWithin mount.position = true → mount.position = requested) := by
  induction h with
  | root => exact .inl rfl
  | @enter mount path entries entry inner houter hlist hentry hkind hinside ih =>
    refine .inr fun hwithin => ?_
    have hprefix := List.isPrefixOf_iff_prefix.1 hwithin
    rw [TreePath.segments_append] at hprefix
    obtain ⟨-, repository, hrepository, hcommit, hlisted⟩ := listing?_eq_some.1 hlist
    rcases ih with hroot | hposition
    · -- A submodule of the root repository hides all that lies beneath it.
      subst hroot
      have hbeneath : entry.path.segments <+: requested.segments := by simpa using hprefix
      obtain ⟨target, hnode⟩ := Repository.node?_of_isSubmodule hlisted hentry hkind
      obtain ⟨listed, hlisting⟩ := listing?_of_base? hbase
      obtain ⟨-, other, hother, -, hlist'⟩ := listing?_eq_some.1 hlisting
      obtain rfl : repository = other := Option.some_inj.1 (hrepository.symm.trans hother)
      by_cases hsame : entry.path = requested
      · apply TreePath.ext_segments
        simp [hsame]
      · exact absurd hlist' (Repository.list_beneath_submodule hnode
          (List.isPrefixOf_iff_prefix.2 hbeneath) hsame _)
    · have houtside := (List.prefix_append mount.position.segments entry.path.segments).trans hprefix
      have hsame := hposition (List.isPrefixOf_iff_prefix.2 houtside)
      have hlength := hprefix.length_le
      rw [List.length_append, hsame] at hlength
      have hnone : entry.path.segments = [] := List.length_eq_zero_iff.1 (by omega)
      apply TreePath.ext_segments
      rw [TreePath.segments_append, hnone, List.append_nil, hsame]

/-- The base directory is not beneath a file that can be read and that nothing lies beneath, unless the
file is the root of its repository. -/
theorem isWithin_rootPath (hbase : forge.base? settings checkout requested = some base) {place : Place}
    (hleaf : forge.IsLeaf place.key)
    (hroot : forge.Mounted ⟨checkout, .root⟩ place.mount) (hpath : place.path ≠ .root)
    {content : Bytes} (hcontent : forge.content? place.key = some content) :
    requested.isWithin place.rootPath = false := by
  rw [← Bool.not_eq_true]
  intro hwithin
  have hprefix := List.isPrefixOf_iff_prefix.1 hwithin
  unfold Place.rootPath at hprefix
  rw [TreePath.segments_append] at hprefix
  rcases hroot.position_eq hbase with hmount | hposition
  · obtain ⟨mount, path⟩ := place
    subst hmount
    have hbeneath : path.segments <+: requested.segments := by simpa using hprefix
    obtain ⟨-, repository, hrepository, -, hread⟩ := content?_eq_some.1 hcontent
    obtain ⟨hvisible, hnode⟩ := Repository.read_eq_ok_iff.1 hread
    obtain ⟨entries, hlisting⟩ := listing?_of_base? hbase
    obtain ⟨-, other, hother, -, hlist⟩ := listing?_eq_some.1 hlisting
    obtain rfl : repository = other := Option.some_inj.1 (hrepository.symm.trans hother)
    by_cases hsame : requested = path
    · subst hsame
      have hself : repository.list requested = .ok [(Node.file content).entry requested] := by
        change repository.isHidden requested = false at hvisible
        change repository.node? requested = _ at hnode
        unfold Repository.list
        rw [hvisible, hnode]
        rfl
      obtain rfl : [(Node.file content).entry requested] = entries :=
        Except.ok.inj (hself.symm.trans hlist)
      cases isFile_of_base? hbase hlisting (Node.path_entry _ _)
    · exact Repository.list_beneath_leaf (hleaf repository hrepository)
        (List.isPrefixOf_iff_prefix.2 hbeneath) hsame _ hlist
  · have houtside := (List.prefix_append place.mount.position.segments _).trans hprefix
    have hsame := hposition (List.isPrefixOf_iff_prefix.2 houtside)
    have hlength := hprefix.length_le
    rw [List.length_append, hsame] at hlength
    exact hpath (TreePath.ext_segments (List.length_eq_zero_iff.1 (by omega)))

/-- A file that nothing lies beneath goes by its own name wherever it is reached. -/
theorem basename_of_mounted (hbase : forge.base? settings checkout requested = some base) {place : Place}
    (hleaf : forge.IsLeaf place.key) (hroot : forge.Mounted ⟨checkout, .root⟩ place.mount) {content : Bytes}
    (hcontent : forge.content? place.key = some content) {name : String}
    (hname : place.path.name? = some name) :
    Text.basename (place.rootPath.relativeTo requested).toList = Text.basename name.toList := by
  obtain ⟨front, hfront⟩ := List.getLast?_eq_some_iff.1 hname
  have hpath : place.path ≠ .root := by
    intro hroot
    rw [hroot] at hfront
    simp at hfront
  have hlast : place.rootPath.segments = (place.mount.position.segments ++ front) ++ [name] := by
    rw [Place.rootPath, TreePath.segments_append, hfront, List.append_assoc]
  exact TreePath.basename_relativeTo hlast (isWithin_rootPath hbase hleaf hroot hpath hcontent)

end Forge

end DependencyFiles
