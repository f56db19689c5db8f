import DependencyFiles.Proofs.Harvest
import DependencyFiles.Proofs.Rewriting
import DependencyFiles.Proofs.Verdicts

/-!
# The order of declarations

In a steady forge the order in which a manifest declares its references makes no difference
to a collection, apart from the order of its results. It makes one in other forges: a search
goes by what an earlier search found, although it could go further down itself.
-/

namespace DependencyFiles

namespace Forge.Alike

variable {forge other : Forge} {ecosystem : Ecosystem} {settings : Settings}
  (h : forge.Alike ecosystem other)

include h

/-- Requests have the same base directories. -/
theorem base? (checkout : Checkout) (requested : TreePath) :
    forge.base? settings checkout requested = other.base? settings checkout requested := by
  unfold Forge.base?
  rw [h.listing, funext h.inside]

/-- Directories have the same lock files. -/
theorem lockfile? (base : Key) : forge.lockfile? ecosystem base = other.lockfile? ecosystem base := by
  unfold Forge.lockfile? Forge.manifest?
  rw [h.listing]

/-- Directories show their markers alike. -/
theorem showsMarker {directory : Key} (hmarker : forge.ShowsMarker ecosystem directory) :
    other.ShowsMarker ecosystem directory := by
  unfold ShowsMarker at *
  rwa [← h.readable, ← h.showsFile]

/-- Directories stand apart alike. -/
theorem apart {sought sought' : Key → Prop} (hsought : ∀ directory, sought' directory → sought directory)
    (happart : forge.Apart ecosystem settings sought) : other.Apart ecosystem settings sought' := by
  intro directory origin inner depth less hdirectory horigin hexposes hless hlt hfound n target hn
    htarget hspecified
  obtain ⟨m, hm, hspecifiedAt⟩ := hfound
  rw [← h.specifications] at hspecified
  obtain ⟨k, hk, hreached⟩ := happart directory origin inner depth less (hsought _ hdirectory)
    (hsought _ horigin) (h.symm.exposes hexposes) (h.symm.exposes hless) hlt
    ⟨m, hm, h.symm.specifiedAt hspecifiedAt⟩ n target hn (h.symm.exposes htarget) hspecified
  exact ⟨k, hk, h.exposes hreached⟩

/-- A forge that is alike to a steady one and has the same leaves is steady itself. -/
theorem steady {base : Key} (hleaves : ∀ file, forge.IsLeaf file → other.IsLeaf file)
    (hsteady : forge.Steady ecosystem settings base) : other.Steady ecosystem settings base where
  leaves file hasked hread :=
    hleaves file (hsteady.leaves file (h.symm.asked hasked) (by rwa [h.readable]))
  markers directory hsought := h.showsMarker (hsteady.markers directory (h.symm.sought hsought))
  distinct file reference hscanned htaken hrefers :=
    hsteady.distinct file reference (h.symm.asked hscanned) (h.symm.asked htaken)
      (h.symm.refers file reference |>.1 hrefers)
  apart := h.apart (fun _ hsought => h.symm.sought hsought) hsteady.apart

end Forge.Alike

namespace Collector

variable {forge : Forge} {ecosystem : Ecosystem} {settings : Settings} {extent : Extent}
  {source : Source} {log : List Request} {checkout : Checkout} {base : Place}
  {files : List DependencyFile} {unreachable : List Unreachable}

/-- In a steady forge a collection without a lock file that comes to its end has the files that it is
asked for, and has noted the packages that it is asked for and that are missing. -/
theorem harvest_iff_asked (hnames : ecosystem.GoesByName)
    (hcheckout : forge.checkout? ⟨source.repo, source.reference.getD settings.defaultRef⟩ = some checkout)
    (hbase : forge.base? settings checkout source.directory = some base)
    (hlock : forge.lockfile? ecosystem base.key = none)
    (hsteady : forge.Steady ecosystem settings base.key)
    (hrun : harvest? ((forge.collector ecosystem settings extent).run source log).1 =
      some (files, unreachable)) :
    (∀ file, file ∈ files.map DependencyFile.key ↔
      ∃ scanned, forge.Asked ecosystem settings base.key scanned file) ∧
    ∀ name, name ∈ unreachable.map Unreachable.name ↔ forge.Lacks ecosystem settings base.key name := by
  obtain ⟨course, rfl, rfl, -⟩ := exists_course hrun
  constructor
  · intro file
    exact course.mem_keys_iff rfl hnames hsteady hbase hcheckout hlock
  · intro name
    exact course.mem_unreachableNames_iff rfl hnames hsteady hbase hcheckout hlock

/-- The order in which a Gemfile declares its references makes no difference in a steady forge. When
the Gemfile without a lock file is rewritten so that it has the same references in another order, and
collections come to their ends before and after, the same files have been collected and the same
packages have been noted as unreachable. -/
theorem same_harvest_of_perm (forge : Forge) (settings : Settings) (extent extent' : Extent)
    (source : Source) (log log' : List Request) (checkout : Checkout) (base : Place) (name : String)
    (content content' : Bytes) (references references' : List Reference)
    (files files' : List DependencyFile) (unreachable unreachable' : List Unreachable)
    (hcheckout : forge.checkout? ⟨source.repo, source.reference.getD settings.defaultRef⟩ = some checkout)
    (hbase : forge.base? settings checkout source.directory = some base)
    (hmanifest : forge.manifest? .bundler base.key = some name)
    (hlock : forge.lockfile? .bundler base.key = none)
    (hcontent : forge.content? (base.child name).key = some content)
    (hscan : Ecosystem.bundler.references (Text.decodeLossy content) name = .ok references)
    (hscan' : Ecosystem.bundler.references (Text.decodeLossy content') name = .ok references')
    (horder : references.Perm references') (hsteady : forge.Steady .bundler settings base.key)
    (hrun : harvest? ((forge.collector .bundler settings extent).run source log).1 =
      some (files, unreachable))
    (hrun' : harvest? (((forge.rewrite (base.child name).key content').collector .bundler settings
      extent').run source log').1 = some (files', unreachable')) :
    (∀ file, file ∈ files.map DependencyFile.key ↔ file ∈ files'.map DependencyFile.key) ∧
    ∀ package, package ∈ unreachable.map Unreachable.name ↔
      package ∈ unreachable'.map Unreachable.name := by
  have hnames := Ecosystem.bundler_goesByName
  have hfile : (base.child name).key.2.name?.getD "" = name := by
    obtain ⟨entries, -, hfind⟩ := Option.bind_eq_some_iff.1 hmanifest
    have hsegment := hnames.isSegment name (List.mem_of_find?_eq_some hfind)
    change (base.path.join name).name?.getD "" = name
    rw [TreePath.join_of_isSegment _ hsegment]
    simp [TreePath.name?]
  have halike : forge.Alike .bundler (forge.rewrite (base.child name).key content') :=
    Forge.alike_rewrite hcontent (by rw [hfile, hscan]) (by rw [hfile, hscan']) horder
  have hsteady' := halike.steady (fun _ hleaf => Forge.isLeaf_rewrite hleaf) hsteady
  obtain ⟨hkeys, hnoted⟩ := harvest_iff_asked hnames hcheckout hbase hlock hsteady hrun
  rw [halike.checkouts] at hcheckout
  rw [halike.base?] at hbase
  rw [halike.lockfile?] at hlock
  obtain ⟨hkeys', hnoted'⟩ := harvest_iff_asked hnames hcheckout hbase hlock hsteady' hrun'
  constructor
  · intro file
    rw [hkeys, hkeys']
    exact exists_congr fun scanned => ⟨halike.asked, halike.symm.asked⟩
  · intro package
    rw [hnoted, hnoted']
    exact ⟨halike.lacks, halike.symm.lacks⟩

end Collector

/-- The declarations of three packages. -/
def Forge.terraceManifest : Bytes :=
  "gem 'outer', path: 'a'\ngem 'inner', path: 'a/x'\ngem 'b', path: 'b'".toUTF8.toList

/-- A forge where the directory of one package lies in that of another one, with one specification
near both and one further down, and where the package that is declared last is missing. -/
def Forge.terrace : Forge where
  name := "forge"
  repositories :=
    [{ name := "org/app", commit := ⟨"c1"⟩
       nodes :=
         [(.ofString "Gemfile", .file terraceManifest),
          (.ofString "a/x/p/p.gemspec", .file []),
          (.ofString "a/x/q/r/r.gemspec", .file [])] }]

namespace Forge

/-- What stands at the path. -/
def terraceKey (path : String) : Key := (⟨"forge", "org/app", ⟨"c1"⟩⟩, .ofString path)

/-- The Gemfile with the first two declarations in the other order. -/
def terraceRewritten : Bytes :=
  "gem 'inner', path: 'a/x'\ngem 'outer', path: 'a'\ngem 'b', path: 'b'".toUTF8.toList

/-- The references in the Gemfile. -/
def terraceReferences : List Reference :=
  [⟨.pathDependency "outer", "a", "Gemfile"⟩, ⟨.pathDependency "inner", "a/x", "Gemfile"⟩,
    ⟨.pathDependency "b", "b", "Gemfile"⟩]

/-- The references in the rewritten Gemfile. -/
def terraceReordered : List Reference :=
  [⟨.pathDependency "inner", "a/x", "Gemfile"⟩, ⟨.pathDependency "outer", "a", "Gemfile"⟩,
    ⟨.pathDependency "b", "b", "Gemfile"⟩]

/-- The directories of the packages and those below. -/
def terraceDirectories : List Key := ["a", "a/x", "a/x/p", "a/x/q", "a/x/q/r"].map terraceKey

/-- All files. -/
def terraceFiles : List Key := ["Gemfile", "a/x/p/p.gemspec", "a/x/q/r/r.gemspec"].map terraceKey

/-- The Gemfile is scanned with its references in either order. -/
theorem terrace_scan :
    Ecosystem.bundler.references (Text.decodeLossy terraceManifest) "Gemfile" = .ok terraceReferences ∧
    Ecosystem.bundler.references (Text.decodeLossy terraceRewritten) "Gemfile" =
      .ok terraceReordered := by
  have hok {found : Except ScanError (List Reference)} {references : List Reference}
      (h : found.toOption = some references) : found = .ok references := by
    cases found with
    | error error => cases h
    | ok other => exact congrArg Except.ok (Option.some_inj.1 h)
  exact ⟨hok (by decide +kernel), hok (by decide +kernel)⟩

/-- Only the Gemfile refers to anything. -/
theorem terrace_refers {origin : Key} {reference : Reference} (horigin : origin ∈ terraceFiles)
    (h : terrace.Refers .bundler origin reference) :
    origin = terraceKey "Gemfile" ∧ reference ∈ terraceReferences := by
  obtain ⟨content, references, hread, hscan, hmem⟩ := h
  have hfound : (terrace.content? origin).bind (fun content => (Ecosystem.bundler.references
      (Text.decodeLossy content) (origin.2.name?.getD "")).toOption) = some references := by
    rw [hread, Option.bind_some, hscan]
    rfl
  have hall : ∀ origin ∈ terraceFiles, ∀ reference ∈ ((terrace.content? origin).bind fun content =>
      (Ecosystem.bundler.references (Text.decodeLossy content)
        (origin.2.name?.getD "")).toOption).getD [],
      origin = terraceKey "Gemfile" ∧ reference ∈ terraceReferences := by decide +kernel
  apply hall origin horigin reference
  rw [hfound]
  exact hmem

/-- The references in the Gemfile lead to the directories of packages. -/
theorem terrace_leads {reference : Reference} {directory : Key}
    (hreference : reference ∈ terraceReferences)
    (h : terrace.Leads {} (targetOf (terraceKey "Gemfile") reference) directory) :
    directory ∈ terraceDirectories := by
  have hlisted : ∀ reference ∈ terraceReferences,
      (terrace.listing? (targetOf (terraceKey "Gemfile") reference)).isSome = true →
        targetOf (terraceKey "Gemfile") reference ∈ terraceDirectories := by decide
  have hmany : ∀ reference ∈ terraceReferences,
      ((terrace.listing? (targetOf (terraceKey "Gemfile") reference)).bind
        (Entry.single? · (targetOf (terraceKey "Gemfile") reference).2)) = none := by decide
  have haround : ∀ reference ∈ terraceReferences,
      terrace.around? (targetOf (terraceKey "Gemfile") reference).1
        (targetOf (terraceKey "Gemfile") reference).2
        (targetOf (terraceKey "Gemfile") reference).2.ancestors = none := by decide
  cases h with
  | here hlist => exact hlisted reference hreference (by rw [hlist]; rfl)
  | enter hlist hone =>
    have hnone := hmany reference hreference
    rw [hlist, Option.bind_some, hone] at hnone
    cases hnone
  | through _ _ hsome =>
    rw [haround reference hreference] at hsome
    cases hsome

/-- Below directories of packages lie such directories alone, each at a longer path. -/
theorem terrace_exposes {n : Nat} {directory target : Key} (hdirectory : directory ∈ terraceDirectories)
    (h : terrace.Exposes .bundler {} n directory target) :
    target ∈ terraceDirectories ∧ directory.2.segments.length + n ≤ target.2.segments.length := by
  have hbelow : ∀ directory ∈ terraceDirectories,
      ∀ inner ∈ ((terrace.listing? directory).getD []).filterMap fun entry =>
        if entry.isDirectory || (entry.isSubmodule && ({} : Settings).followSubmodules) then
          terrace.into? directory.1 entry
        else none,
      inner ∈ terraceDirectories ∧ directory.2.segments.length < inner.2.segments.length := by
    decide
  induction h with
  | here => exact ⟨hdirectory, Nat.le_refl _⟩
  | down _ hstep _ ih =>
    obtain ⟨hinner, hlength⟩ := hbelow _ hdirectory _ (below_iff_mem.1 hstep)
    obtain ⟨htarget, hrest⟩ := ih hinner
    exact ⟨htarget, by omega⟩

/-- A collection asks for the files of this forge, and for all of them to be scanned. -/
theorem terrace_asked {scanned : Bool} {file : Key}
    (h : terrace.Asked .bundler {} (terraceKey "") scanned file) :
    scanned = true ∧ file ∈ terraceFiles := by
  have hpackages : ∀ reference ∈ terraceReferences,
      ∃ name, reference.kind = .pathDependency name := by simp [terraceReferences]
  induction h with
  | manifest hmanifest =>
    have hname : some "Gemfile" = some _ := Eq.trans (by decide) hmanifest
    obtain rfl := Option.some_inj.1 hname
    exact ⟨rfl, by decide⟩
  | beside hbeside =>
    obtain ⟨⟨entries, hlist, entry, hentry, hkind, -⟩, -⟩ := hbeside
    have hnone : ∀ entry ∈ (terrace.listing? (terraceKey "")).getD [],
        (entry.isFile && Ecosystem.bundler.isBesideManifest entry.name) = false := by decide
    rw [hlist] at hnone
    rw [hnone entry hentry] at hkind
    cases hkind
  | fetched _ hrefers hfetches ih =>
    obtain ⟨rfl, hreference⟩ := terrace_refers ih.2 hrefers
    obtain ⟨name, hkind⟩ := hpackages _ hreference
    obtain ⟨-, directory, hleads, n, -, target, hexposes, hfile⟩ := (fetches_package hkind).1 hfetches
    have htarget := (terrace_exposes (terrace_leads hreference hleads) hexposes).1
    have hspecifications : ∀ directory ∈ terraceDirectories,
        ∀ file ∈ terrace.specifications .bundler directory, file ∈ terraceFiles := by decide
    exact ⟨rfl, hspecifications target htarget _ hfile⟩
  | taken _ hrefers htakes ih =>
    obtain ⟨rfl, hreference⟩ := terrace_refers ih.2 hrefers
    obtain ⟨name, hkind⟩ := hpackages _ hreference
    obtain ⟨-, directory, hleads, -, hmarked, -⟩ := (takes_package hkind).1 htakes
    have hunmarked : ∀ directory ∈ terraceDirectories,
        terrace.showsFile (markerOf .bundler directory) = false := by decide
    have hshown := hmarked.1
    rw [hunmarked directory (terrace_leads hreference hleads)] at hshown
    cases hshown

/-- With the depth to which searches go by default this forge is steady. -/
theorem steady_terrace : terrace.Steady .bundler {} (terraceKey "") where
  leaves _ _ hread := isLeaf_of_filesAreLeaves (by decide) hread
  markers directory _ := showsMarker_of_filesAreLeaves rfl (by decide) directory
  distinct file reference _ htaken := by
    cases (terrace_asked htaken).1
  apart := by
    apply apart_of_shallow
    intro directory hsought n target hexposes
    obtain ⟨origin, reference, name, hasked, hrefers, -, hleads⟩ := hsought
    obtain ⟨rfl, hreference⟩ := terrace_refers (terrace_asked hasked).2 hrefers
    obtain ⟨htarget, hlength⟩ := terrace_exposes (terrace_leads hreference hleads) hexposes
    have hshort : ∀ target ∈ terraceDirectories,
        target.2.segments.length ≤ ({} : Settings).maxSearchDepth := by decide
    have hthis := hshort target htarget
    omega

end Forge

/-- Collections from this forge come to three files and one missing package in either order. -/
theorem Collector.same_harvest_of_perm_terrace :
    Forge.terrace.Steady .bundler {} (Forge.terraceKey "") ∧
    ∃ (files files' : List DependencyFile) (unreachable unreachable' : List Unreachable),
      harvest? ((Forge.terrace.collector .bundler {} Forge.terrace.extent).run
        ⟨"forge", "org/app", none, .root⟩ []).1 = some (files, unreachable) ∧
      harvest? (((Forge.terrace.rewrite (Forge.terraceKey "Gemfile") Forge.terraceRewritten).collector
        .bundler {} Forge.terrace.extent).run ⟨"forge", "org/app", none, .root⟩ []).1 =
          some (files', unreachable') ∧
      files.length = 3 ∧ unreachable.map Unreachable.name = ["b"] ∧
      (∀ file, file ∈ files.map DependencyFile.key ↔ file ∈ files'.map DependencyFile.key) ∧
      ∀ package, package ∈ unreachable.map Unreachable.name ↔
        package ∈ unreachable'.map Unreachable.name := by
  have hends : (harvest? ((Forge.terrace.collector .bundler {} Forge.terrace.extent).run
      ⟨"forge", "org/app", none, .root⟩ []).1).map
        (fun harvest => (harvest.1.length, harvest.2.map Unreachable.name)) = some (3, ["b"]) := by
    decide +kernel
  have hends' : (harvest? (((Forge.terrace.rewrite (Forge.terraceKey "Gemfile")
      Forge.terraceRewritten).collector .bundler {} Forge.terrace.extent).run
        ⟨"forge", "org/app", none, .root⟩ []).1).isSome = true := by
    decide +kernel
  obtain ⟨⟨files, unreachable⟩, hrun, hharvest⟩ := Option.map_eq_some_iff.1 hends
  obtain ⟨hfiles, hunreachable⟩ := Prod.mk.inj hharvest
  obtain ⟨⟨files', unreachable'⟩, hrun'⟩ := Option.isSome_iff_exists.1 hends'
  obtain ⟨hkeys, hnames⟩ := same_harvest_of_perm Forge.terrace {} Forge.terrace.extent
    Forge.terrace.extent ⟨"forge", "org/app", none, .root⟩ [] [] ⟨"forge", "org/app", ⟨"c1"⟩⟩
    ⟨⟨⟨"forge", "org/app", ⟨"c1"⟩⟩, .root⟩, .root⟩ "Gemfile" Forge.terraceManifest
    Forge.terraceRewritten Forge.terraceReferences Forge.terraceReordered files files' unreachable
    unreachable' (by decide) (by decide) (by decide) (by decide)
    rfl Forge.terrace_scan.1 Forge.terrace_scan.2 (.swap _ _ _) Forge.steady_terrace
    hrun hrun'
  exact ⟨Forge.steady_terrace, files, files', unreachable, unreachable', hrun, hrun', hfiles,
    hunreachable, hkeys, hnames⟩

/-- When searches go down two levels only, the order makes a difference in this forge. The search for
the outer package finds the near specification when it can go no further, and the search for the
inner package goes by that, although it could reach the other specification. -/
theorem Collector.not_same_harvest_of_perm :
    ∃ (references references' : List Reference) (files files' : List DependencyFile)
        (unreachable unreachable' : List Unreachable),
      Forge.terrace.failures = [] ∧
      Forge.terrace.manifest? .bundler (Forge.terraceKey "") = some "Gemfile" ∧
      Forge.terrace.lockfile? .bundler (Forge.terraceKey "") = none ∧
      Forge.terrace.content? (Forge.terraceKey "Gemfile") = some Forge.terraceManifest ∧
      Ecosystem.bundler.references (Text.decodeLossy Forge.terraceManifest) "Gemfile" =
        .ok references ∧
      Ecosystem.bundler.references (Text.decodeLossy Forge.terraceRewritten) "Gemfile" =
        .ok references' ∧
      references.Perm references' ∧
      harvest? ((Forge.terrace.collector .bundler { maxSearchDepth := 2 } Forge.terrace.extent).run
        ⟨"forge", "org/app", none, .root⟩ []).1 = some (files, unreachable) ∧
      harvest? (((Forge.terrace.rewrite (Forge.terraceKey "Gemfile") Forge.terraceRewritten).collector
        .bundler { maxSearchDepth := 2 } Forge.terrace.extent).run
          ⟨"forge", "org/app", none, .root⟩ []).1 = some (files', unreachable') ∧
      Forge.terraceKey "a/x/q/r/r.gemspec" ∉ files.map DependencyFile.key ∧
      Forge.terraceKey "a/x/q/r/r.gemspec" ∈ files'.map DependencyFile.key := by
  have hends : (harvest? ((Forge.terrace.collector .bundler { maxSearchDepth := 2 }
      Forge.terrace.extent).run ⟨"forge", "org/app", none, .root⟩ []).1).map
        (fun harvest => harvest.1.map DependencyFile.key) =
          some (["Gemfile", "a/x/p/p.gemspec"].map Forge.terraceKey) := by
    decide +kernel
  have hends' : (harvest? (((Forge.terrace.rewrite (Forge.terraceKey "Gemfile")
      Forge.terraceRewritten).collector .bundler { maxSearchDepth := 2 } Forge.terrace.extent).run
        ⟨"forge", "org/app", none, .root⟩ []).1).map
        (fun harvest => harvest.1.map DependencyFile.key) =
          some (["Gemfile", "a/x/p/p.gemspec", "a/x/q/r/r.gemspec"].map Forge.terraceKey) := by
    decide +kernel
  obtain ⟨⟨files, unreachable⟩, hrun, hkeys⟩ := Option.map_eq_some_iff.1 hends
  obtain ⟨⟨files', unreachable'⟩, hrun', hkeys'⟩ := Option.map_eq_some_iff.1 hends'
  refine ⟨Forge.terraceReferences, Forge.terraceReordered, files, files', unreachable, unreachable',
    rfl, by decide, by decide, rfl, Forge.terrace_scan.1,
    Forge.terrace_scan.2, .swap _ _ _, hrun, hrun', ?_, ?_⟩
  · rw [show files.map DependencyFile.key = _ from hkeys]
    decide
  · rw [show files'.map DependencyFile.key = _ from hkeys']
    decide

end DependencyFiles
