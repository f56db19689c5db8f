import DependencyFiles.Proofs.Bounds

/-!
# The stack makes a depth-first walk

Leads wait on a stack, and as many of them may give new leads as the bound says. The same walk
can be written without a stack: a lead is followed, and then each lead that it gives, with all
that comes of it, before the next one. This recursion goes no deeper than there are files, and it
comes to the same result with the same requests as the stack does.
-/

namespace DependencyFiles

namespace Walk

variable {σ : Type}

/-- Follow a lead, and then one by one the leads that it gives, each with all that comes of it. Leads
deeper down than the given depth are left to `beyond`. -/
def followDeep (visit : Lead → Walk σ (List Lead)) (beyond : Lead → Walk σ Unit) :
    (depth : Nat) → Lead → Walk σ Unit
  | 0, lead => beyond lead
  | depth + 1, lead => do
    let found ← visit lead
    found.forM (followDeep visit beyond depth)

/-- Collect the files of the requested directory, scan them, and follow the references in the
manifest, in its lock file and in the specifications beside it, each with all that comes of it. -/
def collectDeep (job : Job σ) (beyond : Lead → Walk σ Unit) (depth : Nat) (root : Mount) :
    Walk σ Unit := do
  let (directory, entries) ← openBase job root
  let manifest ← chooseManifest job directory entries
  let place := directory.child manifest
  let text ← readRequired job place .manifest
  let (locked, authoritative) ← readLockfile job directory entries manifest text
  let beside ← readBeside job <| (entries.filter fun entry =>
    entry.isFile && job.ecosystem.isBesideManifest entry.name).map fun entry => directory.moveTo entry.path
  let declared ← scan job place text
  let described ← scanAll job beside
  let follow := followDeep (visit job directory authoritative) beyond depth
  declared.forM follow
  locked.forM follow
  described.forM follow

/-- Collect the files of a source without a stack. -/
def collectSourceDeep (job : Job σ) (beyond : Lead → Walk σ Unit) (depth : Nat)
    (repo reference : String) : Walk σ (List DependencyFile) := do
  let checkout ← askOr (Cached.openCheckout job.provider repo reference) .provider
  collectDeep job beyond depth ⟨checkout, .root⟩
  handOut

/-- The leads of the start are followed one by one, whichever file they stand in. -/
theorem collectDeep_eq (job : Job σ) (beyond : Lead → Walk σ Unit) (depth : Nat) (root : Mount) :
    collectDeep job beyond depth root = (do
      let start ← start job root
      start.leads.forM (followDeep (visit job start.directory start.authoritative) beyond depth)) := by
  unfold collectDeep start
  simp only [bind_assoc, pure_bind, List.forM_eq_forM, List.forM_append]

variable {forge : Forge} {job : Job (List Request)} {s : Progress (List Request)} {root : Mount}
  {base : Place} {authoritative : Bool} {log : List Request}

section Runs

variable (hjob : job.provider = forge.provider) (hmounted : forge.Mounted root base.mount)
  (hshows : ∀ path, forge.Shows base.key path → forge.showsFile (base.key.1, path) = true)
  (hroot : root.checkout.provider = forge.name)

include hjob hmounted hshows hroot

/-- With room for all files, the leads on top of the stack are followed before the rest of it as they
are by recursion, which need not go deeper than there are files. -/
theorem gives_followDeep {beyond : Lead → Walk (List Request) Unit} {depth fuel : Nat}
    {leads rest : List Lead} (h : Within forge job log root (leads ++ rest) s)
    (hfuel : forge.extent.files ≤ s.files.length + fuel)
    (hdepth : forge.extent.files < s.files.length + depth) :
    Gives (leads.forM (followDeep (visit job base authoritative) beyond depth)) s
      (fun _ t => Within forge job log root rest t ∧ s.files.length ≤ t.files.length ∧
        ∃ left, forge.extent.files ≤ t.files.length + left ∧
          followAll (visit job base authoritative) fuel (leads ++ rest) s =
            followAll (visit job base authoritative) left rest t)
      fun halt t =>
        followAll (visit job base authoritative) fuel (leads ++ rest) s = .error halt t := by
  induction depth generalizing leads rest s fuel with
  | zero =>
    have hlength := h.length_files hroot
    omega
  | succ depth ih =>
    induction leads generalizing s fuel with
    | nil => exact ⟨h, Nat.le_refl _, fuel, hfuel, rfl⟩
    | cons lead leads ihleads =>
      rw [List.cons_append] at h ⊢
      rw [List.forM_eq_forM, List.forM_cons, followDeep, gives_bind, gives_bind]
      cases hvisit : visit job base authoritative lead s with
      | error halt t =>
        rw [Gives, hvisit, followAll_cons]
        exact bind_eq_error.2 (.inl hvisit)
      | ok found t =>
        obtain ⟨hwithin, hle, hlt⟩ := h.step hjob hmounted hshows hvisit
        rw [Gives, hvisit, followAll_cons, bind_of_ok hvisit]
        dsimp only
        cases found with
        | nil =>
          have hroom : forge.extent.files ≤ t.files.length + fuel := by omega
          refine (ihleads hwithin hroom (by omega)).imp (fun _ u hu => ?_) fun _ _ => id
          exact ⟨hu.1, Nat.le_trans hle hu.2.1, hu.2.2⟩
        | cons first found =>
          -- The new leads come from a new file, so that there was room for it.
          have hlength := hwithin.length_files hroot
          have hgrows := hlt (List.cons_ne_nil _ _)
          obtain ⟨fuel, rfl⟩ := Nat.exists_eq_add_one_of_ne_zero (n := fuel) (by omega)
          have hroom : forge.extent.files ≤ t.files.length + fuel := by omega
          refine (ih hwithin hroom (by omega)).imp (fun _ u hu => ?_) fun _ _ => id
          obtain ⟨hrest, hle', left, hleft, hsame⟩ := hu
          dsimp only
          rw [hsame]
          refine (ihleads hrest hleft (by omega)).imp (fun _ v hv => ?_) fun _ _ => id
          exact ⟨hv.1, by omega, hv.2.2⟩

/-- With room for all files, following a stack of leads is following each of them with all that comes
of it. -/
theorem followAll_eq_followDeep {beyond : Lead → Walk (List Request) Unit} {depth fuel : Nat}
    {leads : List Lead} (h : Within forge job log root leads s)
    (hfuel : forge.extent.files ≤ s.files.length + fuel)
    (hdepth : forge.extent.files < s.files.length + depth) :
    followAll (visit job base authoritative) fuel leads s =
      leads.forM (followDeep (visit job base authoritative) beyond depth) s := by
  rw [← List.append_nil leads] at h
  have hdeep : Gives (leads.forM (followDeep (visit job base authoritative) beyond depth)) s _ _ :=
    gives_followDeep hjob hmounted hshows hroot h hfuel hdepth
  rw [List.append_nil] at hdeep
  cases hrun : leads.forM (followDeep (visit job base authoritative) beyond depth) s with
  | ok u t =>
    obtain ⟨-, -, left, -, hsame⟩ := hdeep.of_ok hrun
    rw [hsame]
    cases left <;> rfl
  | error halt t => exact hdeep.of_error hrun

end Runs

/-- Steps that end in the same way go on in the same way. -/
theorem bind_congr_state {α β : Type} {x y : Walk σ α} {f : α → Walk σ β} {s : Progress σ}
    (h : x s = y s) : (x >>= f) s = (y >>= f) s := by
  simp only [bind, EStateM.bind, h]

/-- With room for all files, the files of a source are collected in the same way without a stack. -/
theorem collectSource_eq_deep (hjob : job.provider = forge.provider)
    (hroom : forge.extent.files ≤ job.extent.files) {depth : Nat} (hdepth : forge.extent.files < depth)
    (beyond : Lead → Walk (List Request) Unit) (repo reference : String) (log : List Request) :
    collectSource job repo reference { cached := { inner := log } } =
      collectSourceDeep job beyond depth repo reference { cached := { inner := log } } := by
  have hlogged := Forge.logged_keptByAll hjob log
  unfold collectSource collectSourceDeep
  cases hopen : askOr (Cached.openCheckout job.provider repo reference) .provider
      { cached := { inner := log } } with
  | error halt t => rw [bind_eq_error.2 (.inl hopen), bind_eq_error.2 (.inl hopen)]
  | ok checkout opened =>
    rw [bind_of_ok hopen, bind_of_ok hopen]
    refine bind_congr_state ?_
    rw [collectDeep_eq, collectFrom]
    cases hstart : start job ⟨checkout, .root⟩ opened with
    | error halt t => rw [bind_eq_error.2 (.inl hstart), bind_eq_error.2 (.inl hstart)]
    | ok first started =>
      rw [bind_of_ok hstart, bind_of_ok hstart]
      have hopenlog : forge.Logged log opened :=
        (Keeps.askOr (hlogged.resolve repo reference) (fun _ => rfl) _
          (Forge.logged_initial forge log)).of_ok hopen
      have hstartlog := ((hlogged.start ⟨checkout, .root⟩) opened hopenlog).of_ok hstart
      obtain ⟨hcheckout, hbeginning⟩ := beginning_of_ok hjob hopen hstart
      exact followAll_eq_followDeep hjob hbeginning.mounted
        (fun path hshows => Forge.showsFile_of_base hbeginning.base hshows)
        (Forge.provider_of_checkout? hcheckout) (hbeginning.within hstartlog)
        (Nat.le_add_left_of_le hroom) (by omega)

end Walk

/-- Collect the dependency files of a source without a stack; the provider's state comes along. -/
def Collector.runDeep {σ : Type} (collector : Collector σ) (beyond : Lead → Walk σ Unit) (depth : Nat)
    (source : Source) (state : σ) : Except Halt (List DependencyFile) × σ :=
  match Walk.collectSourceDeep (collector.job source) beyond depth source.repo
      (collector.reference source) { cached := { inner := state } } with
  | .ok files progress => (.ok files, progress.cached.inner)
  | .error halt progress => (.error halt, progress.cached.inner)

/-- A collection is a depth-first walk: it gives the same files in the same order, or fails with the same
failure, and asks the same of the forge, as the recursion does that follows each reference with all
that comes of it before the next one. No reference lies deeper down than there are files in the forge,
so that it does not matter what would be done with such references. -/
theorem Collector.run_eq_runDeep (forge : Forge) (ecosystem : Ecosystem) (settings : Settings)
    (extent : Extent) (source : Source) (log : List Request) (beyond : Lead → Walk (List Request) Unit)
    (depth : Nat) (hroom : forge.extent.files ≤ extent.files) (hdepth : forge.extent.files < depth) :
    (forge.collector ecosystem settings extent).run source log =
      (forge.collector ecosystem settings extent).runDeep beyond depth source log := by
  have hjob : ((forge.collector ecosystem settings extent).job source).provider = forge.provider := rfl
  have hsame := Walk.collectSource_eq_deep hjob hroom hdepth beyond source.repo
    ((forge.collector ecosystem settings extent).reference source) log
  unfold run runDeep
  cases hdeep : Walk.collectSourceDeep ((forge.collector ecosystem settings extent).job source) beyond depth
      source.repo ((forge.collector ecosystem settings extent).reference source)
      { cached := { inner := log } } with
  | ok files t => simp only [hsame, hdeep]
  | error halt t => simp only [hsame, hdeep]

/-- Also through manifests that include each other the recursion ends by itself. -/
theorem Collector.run_eq_runDeep_maze :
    Forge.maze.extent.files ≤ Forge.maze.extent.files ∧ Forge.maze.extent.files < 5 ∧
      (Forge.maze.collector .bundler {} Forge.maze.extent).run ⟨"forge", "org/app", none, .root⟩ [] =
        (Forge.maze.collector .bundler {} Forge.maze.extent).runDeep
          (fun _ => Walk.fail (.unknownEcosystem "beyond")) 5 ⟨"forge", "org/app", none, .root⟩ [] := by
  have hroom : Forge.maze.extent.files ≤ Forge.maze.extent.files := Nat.le_refl _
  have hdepth : Forge.maze.extent.files < 5 := by decide
  exact ⟨hroom, hdepth, run_eq_runDeep Forge.maze .bundler {} Forge.maze.extent
    ⟨"forge", "org/app", none, .root⟩ [] _ 5 hroom hdepth⟩

end DependencyFiles
