import DependencyFiles.Proofs.Bounds
import DependencyFiles.Proofs.Revision

/-!
# Superseded references

With an authoritative lock file only its own references to packages count. The others wait
on the stack like those that count, but following them does nothing. So a collection with
an ecosystem that does not tell them at all takes the same steps, leads aside that were not
on its stack.
-/

namespace DependencyFiles

/-- The ecosystem that tells no references to packages, those in lock files aside. -/
def Ecosystem.withoutPackages (ecosystem : Ecosystem) : Ecosystem :=
  { ecosystem with
    references := fun content origin => (ecosystem.references content origin).map fun references =>
      references.filter fun reference => !reference.isPathDependency }

/-- References to packages are kept in lock files only. -/
def lockfileOnly : Rule := fun fromLockfile _ _ references =>
  if fromLockfile then references else references.filter fun reference => !reference.isPathDependency

/-- Not telling references to packages is a revision. -/
theorem Ecosystem.revise_lockfileOnly (ecosystem : Ecosystem) :
    ecosystem.revise lockfileOnly = ecosystem.withoutPackages := by
  have hlock : (fun content origin => (ecosystem.scanLockfile content origin).map fun scan =>
      { scan with references := lockfileOnly true content origin scan.references }) =
      ecosystem.scanLockfile := by
    funext content origin
    cases ecosystem.scanLockfile content origin <;> rfl
  unfold revise
  rw [hlock]
  rfl

namespace Walk

/-- What is left of a file's leads are those that count beside an authoritative lock file. -/
theorem leads_lockfileOnly (x : Section) (base : TreePath) :
    (x.revise lockfileOnly base).leads = x.leads.filter (isCounted true) := by
  obtain ⟨place, text, fromLockfile, references⟩ := x
  simp only [Section.leads, Section.revise, List.filter_map]
  congr 1
  cases fromLockfile <;> simp [lockfileOnly, isCounted, Function.comp_def]

theorem Reports.filter_isCounted {job : Job (List Request)} {t : Progress (List Request)}
    {sections : List Section} {leads leads' : List Lead}
    (h : Reports job lockfileOnly t sections leads leads') : leads' = leads.filter (isCounted true) := by
  rw [h.leads_eq, h.revised_eq, List.filter_flatMap]
  simp only [leads_lockfileOnly]

variable {forge : Forge} {job : Job (List Request)} {log : List Request} {root : Mount}
  {base : Place}

/-- With room for all files that the forge has, leads that do not count may be left off the stack when
they come up. -/
theorem followAll_superseded (hjob : job.provider = forge.provider)
    (hmounted : forge.Mounted root base.mount)
    (hshows : ∀ path, forge.Shows base.key path → forge.showsFile (base.key.1, path) = true)
    (hroot : root.checkout.provider = forge.name) {s : Progress (List Request)}
    {stack : List Lead} (h : Within forge job log root stack s) {fuel fuel' : Nat}
    (hfuel : forge.extent.files ≤ s.files.length + fuel)
    (hfuel' : forge.extent.files ≤ s.files.length + fuel') :
    followAll (visit (job.revise lockfileOnly) base true) fuel' (stack.filter (isCounted true)) s =
      followAll (visit job base true) fuel stack s := by
  -- The induction is on the room that is left, and within it on the stack. A visit that gives new
  -- leads has collected a file, so that less room is left; any other visit shortens the stack.
  induction hleft : forge.extent.files - s.files.length using Nat.strongRecOn
    generalizing s stack fuel fuel' with
  | _ left ih =>
    replace hleft := Nat.le_of_eq hleft
    induction stack generalizing s fuel fuel' with
    | nil => rw [List.filter_nil, followAll_eq, followAll_eq]; cases fuel <;> cases fuel' <;> rfl
    | cons lead rest ihrest =>
      rw [followAll_cons]
      cases hcounted : isCounted true lead with
      | false =>
        have hthis : visit job base true lead = (return []) := visit_of_not_counted hcounted
        rw [List.filter_cons_of_neg (by simp [hcounted]), hthis, pure_bind]
        exact ihrest (h.step hjob hmounted hshows (congrFun hthis s)).1 hfuel hfuel' hleft
      | true =>
        rw [List.filter_cons_of_pos hcounted, followAll_cons]
        refine ((inStep_visit hjob base true lead h.sound.toTruthful).bind_eq
          fun found found' t hvisit hrevised => ?_).symm
        obtain ⟨sections, hreports, -⟩ := hrevised.reports
        obtain rfl := hreports.filter_isCounted
        obtain ⟨hwithin, hle, hlt⟩ := h.step hjob hmounted hshows hvisit
        have hroom : forge.extent.files ≤ t.files.length + fuel := by omega
        have hroom' : forge.extent.files ≤ t.files.length + fuel' := by omega
        cases found with
        | nil => exact (ihrest hwithin hroom hroom' (by omega)).symm
        | cons first found =>
          have hlength := hwithin.length_files hroot
          have hgrows := hlt (List.cons_ne_nil _ _)
          obtain ⟨fuel, rfl⟩ := Nat.exists_eq_add_one_of_ne_zero (n := fuel) (by omega)
          obtain ⟨fuel', rfl⟩ := Nat.exists_eq_add_one_of_ne_zero (n := fuel') (by omega)
          have hroom : forge.extent.files ≤ t.files.length + fuel := by omega
          have hless : forge.extent.files ≤ t.files.length + fuel' := by omega
          have hrest {fuel' : Nat} (hroom' : forge.extent.files ≤ t.files.length + fuel') :=
            (ih _ (by omega) hwithin hroom hroom' rfl).symm
          rw [List.filter_append] at hrest
          cases hcounts : (first :: found).filter (isCounted true) with
          | nil => simpa only [hcounts, List.nil_append] using hrest hroom'
          | cons next counts => simpa only [hcounts] using hrest hless

/-- A collection with an authoritative lock file takes the same steps when no other references to
packages are told. -/
theorem collectFrom_superseded (hjob : job.provider = forge.provider)
    (hroom : forge.extent.files ≤ job.extent.files) {repo reference : String} {checkout : Checkout}
    {opened : Progress (List Request)} {lock : Place} {scan : LockScan}
    (hopen : askOr (Cached.openCheckout job.provider repo reference) .provider
      { cached := { inner := log } } = .ok checkout opened)
    (hbase : forge.base? job.settings checkout job.base = some base)
    (hscan : forge.lockScan? job.ecosystem base job.base = some (lock, scan))
    (hauthoritative : scan.authoritative = true) :
    collectFrom (job.revise lockfileOnly) ⟨checkout, .root⟩ opened =
      collectFrom job ⟨checkout, .root⟩ opened := by
  have hlogging := Forge.logged_keptByAll hjob log
  have hlogged : forge.Logged log opened :=
    (Keeps.askOr (hlogging.resolve repo reference) (fun _ => rfl) _ (Forge.logged_initial forge log)).of_ok
      hopen
  obtain ⟨hcheckout, hsound, hfiles, -⟩ := opening_of_ok hjob hopen
  refine ((inStep_start hjob checkout hsound hlogged hfiles).bind_eq
    fun first first' t hstart hfirst => ?_).symm
  obtain ⟨hdirectory, hauthority, sections, hreports⟩ := hfirst
  have hbeginning := (beginning_of_ok hjob hopen hstart).2
  have hwithin := hbeginning.within ((hlogging.start ⟨checkout, .root⟩ opened hlogged).of_ok hstart)
  obtain rfl := Option.some_inj.1 (hbase.symm.trans hbeginning.base)
  have hsupersedes : first.authoritative = true := by
    rw [hbeginning.authoritative, hscan]
    exact hauthoritative
  rw [hdirectory, hauthority, hsupersedes, hreports.filter_isCounted]
  exact (followAll_superseded hjob hbeginning.mounted
    (fun path hshows => Forge.showsFile_of_base hbeginning.base hshows)
    (Forge.provider_of_checkout? hcheckout) hwithin
    (Nat.le_add_left_of_le hroom) (Nat.le_add_left_of_le hroom)).symm

/-- Whole collections with an authoritative lock file come to the same. -/
theorem collectSource_superseded (hjob : job.provider = forge.provider)
    (hroom : forge.extent.files ≤ job.extent.files) {repo reference : String} {checkout : Checkout}
    {lock : Place} {scan : LockScan} (hcheckout : forge.checkout? ⟨repo, reference⟩ = some checkout)
    (hbase : forge.base? job.settings checkout job.base = some base)
    (hscan : forge.lockScan? job.ecosystem base job.base = some (lock, scan))
    (hauthoritative : scan.authoritative = true) :
    collectSource (job.revise lockfileOnly) repo reference { cached := { inner := log } } =
      collectSource job repo reference { cached := { inner := log } } := by
  refine (InStep.of_eq rfl).bind_eq fun opening _ opened hopen hsame => ?_
  obtain rfl := hsame
  obtain rfl := Option.some_inj.1 ((opening_of_ok hjob hopen).1.symm.trans hcheckout)
  have hcollect := collectFrom_superseded hjob hroom hopen hbase hscan hauthoritative
  exact (InStep.of_eq hcollect).bind_eq fun _ _ _ _ _ => rfl

end Walk

/-- An authoritative lock file supersedes what manifests and specifications say of packages: when the
base directory has one, a collection with an ecosystem that tells no references to packages, except
in lock files, makes the same requests in the same order and has the same result. -/
theorem Collector.manifests_superseded (forge : Forge) (ecosystem : Ecosystem) (settings : Settings)
    (extent : Extent) (source : Source) (log : List Request) (checkout : Checkout) (base lock : Place)
    (scan : LockScan) (hroom : forge.extent.files ≤ extent.files)
    (hcheckout : forge.checkout?
      ⟨source.repo, (forge.collector ecosystem settings extent).reference source⟩ = some checkout)
    (hbase : forge.base? settings checkout source.directory = some base)
    (hscan : forge.lockScan? ecosystem base source.directory = some (lock, scan))
    (hauthoritative : scan.authoritative = true) :
    (forge.collector ecosystem.withoutPackages settings extent).run source log =
      (forge.collector ecosystem settings extent).run source log := by
  have hjob : ((forge.collector ecosystem settings extent).job source).provider = forge.provider := rfl
  have hcollect :
      Walk.collectSource ((forge.collector ecosystem.withoutPackages settings extent).job source)
        source.repo ((forge.collector ecosystem.withoutPackages settings extent).reference source)
        { cached := { inner := log } } =
      Walk.collectSource ((forge.collector ecosystem settings extent).job source) source.repo
        ((forge.collector ecosystem settings extent).reference source) { cached := { inner := log } } := by
    rw [← Ecosystem.revise_lockfileOnly]
    exact Walk.collectSource_superseded hjob hroom hcheckout hbase hscan hauthoritative
  unfold run
  rw [hcollect]

/-- A forge whose lock file supersedes a package that the manifest names. -/
def Forge.vault : Forge where
  name := "forge"
  repositories :=
    [{ name := "org/app", commit := ⟨"c1"⟩
       nodes :=
         [(.ofString "Gemfile", .file "gem 'a', path: 'a'\ngem 'b', path: 'b'".toUTF8.toList),
          (.ofString "Gemfile.lock", .file "PATH\n  remote: a\n  specs:\n    a (1.0)\n".toUTF8.toList),
          (.ofString "a/a.gemspec", .file []),
          (.ofString "b/b.gemspec", .file [])] }]

/-- The package that only the manifest names makes no difference to the collection from this forge. -/
theorem Collector.manifests_superseded_vault :
    ∃ (checkout : Checkout) (base lock : Place) (scan : LockScan),
      Forge.vault.checkout? ⟨"org/app", "HEAD"⟩ = some checkout ∧
      Forge.vault.base? {} checkout .root = some base ∧
      Forge.vault.lockScan? .bundler base .root = some (lock, scan) ∧ scan.authoritative = true ∧
      (Forge.vault.collector Ecosystem.bundler.withoutPackages {} Forge.vault.extent).run
          ⟨"forge", "org/app", none, .root⟩ [] =
        (Forge.vault.collector .bundler {} Forge.vault.extent).run
          ⟨"forge", "org/app", none, .root⟩ [] := by
  have hcheckout : Forge.vault.checkout? ⟨"org/app", "HEAD"⟩ = some ⟨"forge", "org/app", ⟨"c1"⟩⟩ := by
    decide
  have hbase : Forge.vault.base? {} ⟨"forge", "org/app", ⟨"c1"⟩⟩ .root =
      some ⟨⟨⟨"forge", "org/app", ⟨"c1"⟩⟩, .root⟩, .root⟩ := by
    decide +kernel
  have hlock : (Forge.vault.lockScan? .bundler ⟨⟨⟨"forge", "org/app", ⟨"c1"⟩⟩, .root⟩, .root⟩
      .root).any (·.2.authoritative) = true := by
    decide +kernel
  obtain ⟨⟨lock, scan⟩, hscan, hauthoritative⟩ := (Option.any_eq_true _ _).1 hlock
  exact ⟨_, _, lock, scan, hcheckout, hbase, hscan, hauthoritative,
    manifests_superseded Forge.vault .bundler {} Forge.vault.extent _ [] _ _ lock scan
      (Nat.le_refl _) hcheckout hbase hscan hauthoritative⟩

end DependencyFiles
