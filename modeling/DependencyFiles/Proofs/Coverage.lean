import DependencyFiles.Proofs.Visits

/-!
# What searches leave out

A search that goes by the outcome of an earlier one with a smaller budget misses what only
its own budget reaches. Where the directories that are sought stand apart, there is nothing
to miss: a search collects every specification that it is exposed to, whatever was searched
before.
-/

namespace DependencyFiles

namespace Forge

variable (forge : Forge) (ecosystem : Ecosystem) (settings : Settings)

/-- All specifications that a search with the budget is exposed to are among the files. -/
def Covered (files : List Key) (key : Key) (budget : Nat) : Prop :=
  ∀ n ≤ budget, ∀ target, forge.Exposes ecosystem settings n key target →
    forge.specifications ecosystem target ⊆ files

/-- The sought directories stand apart. When a directory is exposed further down to one search than to
another, and the first search finds something there, it finds there all that the second one does. -/
def Apart (sought : Key → Prop) : Prop :=
  ∀ directory other inner depth less, sought directory → sought other →
    forge.Exposes ecosystem settings depth directory inner →
    forge.Exposes ecosystem settings less other inner → less < depth →
    (∃ n, depth + n ≤ settings.maxSearchDepth ∧ forge.SpecifiedAt ecosystem settings inner n) →
    ∀ n target, less + n ≤ settings.maxSearchDepth →
      forge.Exposes ecosystem settings n inner target → forge.specifications ecosystem target ≠ [] →
      ∃ m, depth + m ≤ settings.maxSearchDepth ∧ forge.Exposes ecosystem settings m inner target

/-- Nothing is exposed to a search further down than so many levels. -/
def Shallow (depth : Nat) (key : Key) : Prop :=
  ∀ n target, forge.Exposes ecosystem settings n key target → n ≤ depth

variable {forge ecosystem settings}

/-- More files cover at least as much. -/
theorem Covered.mono {files more : List Key} {key : Key} {budget less : Nat} (hfiles : files ⊆ more)
    (hbudget : less ≤ budget) (h : forge.Covered ecosystem settings files key budget) :
    forge.Covered ecosystem settings more key less :=
  fun n hn target hexposes => List.Subset.trans (h n (Nat.le_trans hn hbudget) target hexposes) hfiles

/-- What is exposed below an exposed directory is exposed as many levels further down. -/
theorem Exposes.trans {n m : Nat} {key inner target : Key}
    (h : forge.Exposes ecosystem settings n key inner)
    (hrest : forge.Exposes ecosystem settings m inner target) :
    forge.Exposes ecosystem settings (n + m) key target := by
  induction h with
  | here key => rwa [Nat.zero_add]
  | down hbare hbelow _ ih =>
    rw [Nat.add_right_comm]
    exact .down hbare hbelow (ih hrest)

/-- What lies below an exposed directory without specifications is exposed one level further down. -/
theorem Exposes.snoc {n : Nat} {key inner target : Key}
    (h : forge.Exposes ecosystem settings n key inner)
    (hbare : forge.specifications ecosystem inner = []) (hbelow : forge.Below settings inner target) :
    forge.Exposes ecosystem settings (n + 1) key target :=
  h.trans (.down hbare hbelow (.here target))

/-- Directories below which no search is cut off stand apart. -/
theorem apart_of_shallow {sought : Key → Prop}
    (h : ∀ directory, sought directory →
      forge.Shallow ecosystem settings settings.maxSearchDepth directory) :
    forge.Apart ecosystem settings sought := by
  intro directory other inner depth less hsought hother hexposes hless hlt hfound n target hn htarget
    hspecified
  exact ⟨n, h directory hsought _ target (hexposes.trans htarget), htarget⟩

/-- Where nothing is specified there is nothing to cover. -/
theorem covered_of_not_specifiedAt {files : List Key} {key : Key} {budget : Nat}
    (h : ∀ n ≤ budget, ¬ forge.SpecifiedAt ecosystem settings key n) :
    forge.Covered ecosystem settings files key budget := by
  intro n hn target hexposes file hfile
  exact absurd ⟨target, hexposes.levels, List.ne_nil_of_mem hfile⟩ (h n hn)

/-- A directory with specifications covers itself. -/
theorem covered_of_specified {files : List Key} {key : Key} {budget : Nat}
    (hspecified : forge.specifications ecosystem key ≠ [])
    (hall : forge.specifications ecosystem key ⊆ files) :
    forge.Covered ecosystem settings files key budget := by
  intro n hn target hexposes
  cases hexposes with
  | here => exact hall
  | down hbare => exact absurd hbare hspecified

/-- A directory without specifications is covered when all directories below are. -/
theorem covered_of_below {files : List Key} {key : Key} {budget : Nat}
    (hbare : forge.specifications ecosystem key = [])
    (hall : ∀ inner, forge.Below settings key inner →
      forge.Covered ecosystem settings files inner budget) :
    forge.Covered ecosystem settings files key (budget + 1) := by
  intro n hn target hexposes
  cases hexposes with
  | here =>
    rw [hbare]
    exact List.nil_subset _
  | down _ hbelow hrest => exact hall _ hbelow _ (by omega) target hrest

end Forge

namespace Walk

variable {forge : Forge} {job : Job (List Request)} {s t : Progress (List Request)} {root : Mount}
  {sought : Key → Prop}

/-- What searches found is all that they were exposed to, and they went down from sought directories
as far as they could. -/
def Covering (forge : Forge) (job : Job (List Request)) (sought : Key → Prop)
    (s : Progress (List Request)) : Prop :=
  ∀ kept ∈ s.searched, ∀ n, kept.2.foundAt = some n → ∃ directory depth, sought directory ∧
    forge.Exposes job.ecosystem job.settings depth directory kept.1 ∧
    depth + kept.2.budget = job.settings.maxSearchDepth ∧
    forge.Covered job.ecosystem job.settings s.keys kept.1 kept.2.budget

/-- More files leave what was found covered. -/
theorem Covering.more (h : Covering forge job sought s) (hsearched : t.searched = s.searched)
    (hkeys : s.keys ⊆ t.keys) : Covering forge job sought t := by
  intro kept hkept n hn
  rw [hsearched] at hkept
  obtain ⟨directory, depth, hsought, hexposes, hdepth, hcovered⟩ := h kept hkept n hn
  exact ⟨directory, depth, hsought, hexposes, hdepth, hcovered.mono hkeys (Nat.le_refl _)⟩

/-- What a search in a directory leaves behind when all is covered. -/
structure Coverage (forge : Forge) (job : Job (List Request)) (sought : Key → Prop)
    (covered : List Key → Prop) (s t : Progress (List Request)) : Prop where
  sound : Sound forge job t
  covering : Covering forge job sought t
  keys_subset : s.keys ⊆ t.keys
  covered : covered t.keys

/-- The outcomes of earlier searches cover what a later one is exposed to. -/
theorem Covering.covered_of_answer (h : Covering forge job sought s) (hs : Sound forge job s)
    (happart : forge.Apart job.ecosystem job.settings sought) {directory key : Key} {depth budget : Nat}
    (hsought : sought directory) (hexposes : forge.Exposes job.ecosystem job.settings depth directory key)
    (hdepth : depth + budget = job.settings.maxSearchDepth) {outcome : SearchOutcome}
    (hkept : (key, outcome) ∈ s.searched) {result : Option Nat}
    (hanswer : outcome.answer? budget = some result) :
    forge.Covered job.ecosystem job.settings s.keys key budget := by
  have hleast := hs.least _ hkept
  obtain ⟨foundAt, known⟩ := outcome
  cases foundAt with
  | none =>
    have hle : budget ≤ known := by
      by_cases hle : budget ≤ known
      · exact hle
      · simp [SearchOutcome.answer?, hle] at hanswer
    exact Forge.covered_of_not_specifiedAt fun n hn => hleast n (Nat.le_trans hn hle)
  | some found =>
    obtain ⟨origin, reached, horigin, hreached, hknown, hcovered⟩ := h _ hkept found rfl
    dsimp only at hreached hknown hcovered
    by_cases hle : budget ≤ known
    · exact hcovered.mono (fun _ hkey => hkey) hle
    · -- The earlier search could go down less far, and found all the same.
      obtain ⟨hfound, hspecified, -⟩ := hleast
      intro n hn target htarget
      by_cases hnone : forge.specifications job.ecosystem target = []
      · rw [hnone]
        exact List.nil_subset _
      · obtain ⟨m, hm, hagain⟩ := happart origin directory key reached depth horigin hsought hreached
          hexposes (by omega) ⟨found, by dsimp only at hfound; omega, hspecified⟩ n target (by omega)
          htarget hnone
        exact hcovered m (by omega) target hagain

variable (hjob : job.provider = forge.provider)

include hjob

/-- Searching the directories of entries covers what searching each of them covers. -/
theorem covers_searchEntries {place : Place} {listed : List Entry} {budget : Nat}
    {descend : Place → Walk (List Request) (Option Nat × List Lead)}
    (hdescend : ∀ inner s, forge.Mounted root inner.mount → forge.Below job.settings place.key inner.key →
      Sound forge job s → Covering forge job sought s →
      Gives (descend inner) s (fun _ t => Coverage forge job sought
        (forge.Covered job.ecosystem job.settings · inner.key budget) s t) fun _ _ => True)
    (hroot : forge.Mounted root place.mount) (hlist : forge.listing? place.key = some listed)
    (entries : List Entry) (hentries : ∀ entry ∈ entries, isSearched job entry = true ∧ entry ∈ listed)
    (hs : Sound forge job s) (hcovering : Covering forge job sought s) :
    Gives (searchEntries job place descend entries) s (fun _ t => Coverage forge job sought
      (fun files => ∀ inner, forge.LeadsInto job.settings place.key.1 entries inner →
        forge.Covered job.ecosystem job.settings files inner budget) s t) fun _ _ => True := by
  induction entries generalizing s with
  | nil =>
    refine ⟨hs, hcovering, fun _ hkey => hkey, fun inner hinner => ?_⟩
    obtain ⟨entry, hentry, -⟩ := hinner
    cases hentry
  | cons entry rest ih =>
    obtain ⟨hsearched, hentry⟩ := hentries entry List.mem_cons_self
    have hrest := fun other hother => hentries other (List.mem_cons_of_mem _ hother)
    have hcons (inner : Key) : forge.LeadsInto job.settings place.key.1 (entry :: rest) inner ↔ _ :=
      Forge.leadsInto_cons hsearched
    unfold searchEntries
    rw [gives_bind]
    apply (tells_entryPlace? hjob place entry s hs.toTruthful).mono
    intro found _ hafter
    obtain ⟨⟨hinto, hmounted⟩, ht, cached, rfl⟩ := hafter
    have hasked := hs.asked ht
    cases found with
    | none =>
      apply (ih hrest hasked hcovering).mono
      intro result t hafter
      obtain ⟨ht, hcovering, hkeys, hall⟩ := hafter
      refine ⟨ht, hcovering, hkeys, fun inner hinner => ?_⟩
      rw [hcons, ← hinto] at hinner
      rcases hinner with hinner | hinner
      · cases hinner
      · exact hall inner hinner
    | some inner =>
      dsimp only
      rw [gives_bind]
      have hbelow : forge.Below job.settings place.key inner.key :=
        ⟨listed, hlist, entry, hentry, hsearched, hinto.symm⟩
      apply (hdescend inner _ (hmounted root listed hroot hlist hentry inner rfl) hbelow hasked
        hcovering).mono
      intro result t hafter
      obtain ⟨depth, leads⟩ := result
      obtain ⟨ht, hcovering, hkeys, hfirst⟩ := hafter
      rw [gives_bind]
      apply (ih hrest ht hcovering).mono
      intro result u hafter
      obtain ⟨best, more⟩ := result
      obtain ⟨hu, hcovering, hkeys', hall⟩ := hafter
      refine ⟨hu, hcovering, List.Subset.trans hkeys hkeys', fun other hother => ?_⟩
      rw [hcons, ← hinto] at hother
      rcases hother with hother | hother
      · rw [← Option.some_inj.1 hother]
        exact hfirst.mono hkeys' (Nat.le_refl _)
      · exact hall other hother

/-- Searching a listed directory covers its own specifications or else those further down. -/
theorem covers_searchListed {place : Place} {entries : List Entry} {budget : Nat}
    {descend : Option (Place → Walk (List Request) (Option Nat × List Lead))}
    (hstop : descend = none → budget = 0)
    (hdescend : ∀ f ∈ descend, ∃ less, budget = less + 1 ∧ ∀ inner s,
      forge.Mounted root inner.mount → forge.Below job.settings place.key inner.key →
      forge.specifications job.ecosystem place.key = [] →
      Sound forge job s → Covering forge job sought s →
      Gives (f inner) s (fun _ t => Coverage forge job sought
        (forge.Covered job.ecosystem job.settings · inner.key less) s t) fun _ _ => True)
    (hroot : forge.Mounted root place.mount) (hlist : forge.listing? place.key = some entries)
    (hs : Sound forge job s) (hcovering : Covering forge job sought s) :
    Gives (searchListed job descend place entries) s (fun _ t => Coverage forge job sought
      (forge.Covered job.ecosystem job.settings · place.key budget) s t) fun _ _ => True := by
  unfold searchListed
  rw [gives_bind]
  have hsearched := (keptByReading_searched job s.searched).readSpecifications
    (shownPlaces job place entries) s rfl
  apply ((gives_readShown hjob hroot hlist hs).and hsearched).mono
  intro result t hafter
  obtain ⟨found, leads⟩ := result
  obtain ⟨⟨ht, hfound, hall, hgains⟩, hsame⟩ := hafter
  have hmore := hcovering.more hsame hgains.keys_subset
  cases found with
  | true =>
    exact ⟨ht, hmore, hgains.keys_subset, Forge.covered_of_specified (hfound.1 rfl) hall⟩
  | false =>
    have hbare : forge.specifications job.ecosystem place.key = [] := by simpa using hfound
    cases descend with
    | none =>
      obtain rfl := hstop rfl
      refine ⟨ht, hmore, hgains.keys_subset, Forge.covered_of_not_specifiedAt fun n hn => ?_⟩
      obtain rfl : n = 0 := by omega
      rw [Forge.specifiedAt_zero]
      exact fun hsome => hsome hbare
    | some descend =>
      obtain ⟨less, rfl, hinner⟩ := hdescend descend rfl
      have hentries : ∀ entry ∈ entries.filter (isSearched job),
          isSearched job entry = true ∧ entry ∈ entries :=
        fun entry hentry => (List.mem_filter.1 hentry).symm
      simp only [Bool.false_eq_true, if_false, gives_bind]
      apply (covers_searchEntries hjob (fun inner s hmounted hbelow =>
        hinner inner s hmounted hbelow hbare) hroot hlist _ hentries ht hmore).mono
      intro result u hafter
      obtain ⟨depth, more⟩ := result
      obtain ⟨hu, hcovering, hkeys, hcovered⟩ := hafter
      have hbelow : ∀ inner, forge.Below job.settings place.key inner →
          forge.Covered job.ecosystem job.settings u.keys inner less := by
        intro inner hbelow
        obtain ⟨others, hothers, hinto⟩ := hbelow
        rw [hlist, Option.some_inj] at hothers
        subst hothers
        exact hcovered inner (Forge.leadsInto_filter.2 hinto)
      exact ⟨hu, hcovering, List.Subset.trans hgains.keys_subset hkeys,
        Forge.covered_of_below hbare hbelow⟩

omit hjob in
/-- An outcome that is kept from now on covers what its search was exposed to. -/
theorem Covering.keep (h : Covering forge job sought s) {directory key : Key} {depth : Nat}
    {outcome : SearchOutcome} (hsought : sought directory)
    (hexposes : forge.Exposes job.ecosystem job.settings depth directory key)
    (hdepth : depth + outcome.budget = job.settings.maxSearchDepth)
    (hcovered : forge.Covered job.ecosystem job.settings s.keys key outcome.budget) :
    Covering forge job sought { s with searched := (key, outcome) :: s.searched } := by
  intro kept hkept n hn
  rcases List.mem_cons.1 hkept with rfl | hkept
  · exact ⟨directory, depth, hsought, hexposes, hdepth, hcovered⟩
  · exact h kept hkept n hn

/-- A search that goes by earlier outcomes covers what it is exposed to. -/
theorem covers_searchKept (happart : forge.Apart job.ecosystem job.settings sought) {directory : Key}
    (hsought : sought directory) {place : Place} {depth budget : Nat}
    (hexposes : forge.Exposes job.ecosystem job.settings depth directory place.key)
    (hdepth : depth + budget = job.settings.maxSearchDepth)
    {descend : Option (Place → Walk (List Request) (Option Nat × List Lead))}
    (hstop : descend = none → budget = 0)
    (hdescend : ∀ f ∈ descend, ∃ less, budget = less + 1 ∧ ∀ inner s,
      forge.Mounted root inner.mount → forge.Below job.settings place.key inner.key →
      forge.specifications job.ecosystem place.key = [] →
      Sound forge job s → Covering forge job sought s →
      Gives (f inner) s (fun _ t => Coverage forge job sought
        (forge.Covered job.ecosystem job.settings · inner.key less) s t) fun _ _ => True)
    (hfinds : Gives (searchKept job budget descend place) s
      (Finding forge job root place.key budget s) fun _ _ => True)
    (hroot : forge.Mounted root place.mount) (hs : Sound forge job s)
    (hcovering : Covering forge job sought s) :
    Gives (searchKept job budget descend place) s (fun _ t => Coverage forge job sought
      (forge.Covered job.ecosystem job.settings · place.key budget) s t) fun _ _ => True := by
  have hcovers : Gives (searchKept job budget descend place) s (fun _ t =>
      Covering forge job sought t ∧ s.keys ⊆ t.keys ∧
      forge.Covered job.ecosystem job.settings t.keys place.key budget) fun _ _ => True := by
    unfold searchKept
    rw [gives_bind, gives_get]
    dsimp only
    split
    · rename_i found hknown
      obtain ⟨outcome, hlookup, hanswer⟩ := Option.bind_eq_some_iff.1 hknown
      exact ⟨hcovering, fun _ hkey => hkey, hcovering.covered_of_answer hs happart hsought hexposes
        hdepth (mem_of_lookup hlookup) hanswer⟩
    · rw [gives_bind]
      apply (tells_list? hjob place s hs.toTruthful).mono
      intro _ _ hafter
      obtain ⟨rfl, ht, cached, rfl⟩ := hafter
      have hasked := hs.asked ht
      cases hlist : forge.listing? place.key with
      | none =>
        exact ⟨hcovering, fun _ hkey => hkey, Forge.covered_of_not_specifiedAt fun n _ =>
          Forge.not_specifiedAt hlist n⟩
      | some entries =>
        dsimp only
        rw [gives_bind]
        apply (covers_searchListed hjob hstop hdescend hroot hlist hasked hcovering).mono
        intro result t hafter
        obtain ⟨found, leads⟩ := result
        obtain ⟨-, hcovering, hkeys, hcovered⟩ := hafter
        exact ⟨hcovering.keep hsought hexposes hdepth hcovered, hkeys, hcovered⟩
  apply (hfinds.and hcovers).mono
  intro result t hafter
  obtain ⟨hfinding, hcovering, hkeys, hcovered⟩ := hafter
  exact ⟨hfinding.sound, hcovering, hkeys, hcovered⟩

/-- A search from a sought directory covers all that its budget reaches. -/
theorem covers_search (happart : forge.Apart job.ecosystem job.settings sought) {directory : Key}
    (hsought : sought directory) (budget : Nat) {place : Place} {depth : Nat}
    (hexposes : forge.Exposes job.ecosystem job.settings depth directory place.key)
    (hdepth : depth + budget = job.settings.maxSearchDepth)
    (hroot : forge.Mounted root place.mount) (hs : Sound forge job s)
    (hcovering : Covering forge job sought s) :
    Gives (search job budget place) s (fun _ t => Coverage forge job sought
      (forge.Covered job.ecosystem job.settings · place.key budget) s t) fun _ _ => True := by
  induction budget generalizing place depth s with
  | zero =>
    exact covers_searchKept hjob happart hsought hexposes hdepth (fun _ => rfl) (by simp)
      (gives_search hjob 0 hroot hs) hroot hs hcovering
  | succ budget ih =>
    refine covers_searchKept hjob happart hsought hexposes hdepth (by simp) (fun descend hdescend => ?_)
      (gives_search hjob (budget + 1) hroot hs) hroot hs hcovering
    refine ⟨budget, rfl, fun inner s hinner hbelow hbare hs hcovering => ?_⟩
    rw [← Option.mem_some_iff.1 hdescend]
    exact ih (hexposes.snoc hbare hbelow) (by omega) hinner hs hcovering

/-- Looking for a package covers all that a search for it is exposed to. -/
theorem covers_findPackage (happart : forge.Apart job.ecosystem job.settings sought) {place : Place}
    (hsought : ∀ directory, forge.Leads job.settings place.key directory → sought directory)
    (hroot : forge.Mounted root place.mount) (hs : Sound forge job s)
    (hcovering : Covering forge job sought s) :
    Gives (findPackage job place) s (fun _ t => Covering forge job sought t ∧
      ∀ file, forge.Specifies job.ecosystem job.settings place.key file → file ∈ t.keys)
      fun _ _ => True := by
  unfold findPackage
  rw [gives_bind]
  apply (tells_locate hjob place s hs.toTruthful).mono
  intro found _ hafter
  obtain ⟨hlocated, ht, cached, rfl⟩ := hafter
  have hasked := hs.asked ht
  cases found with
  | none =>
    refine ⟨hcovering, fun file hspecifies => ?_⟩
    obtain ⟨directory, hleads, -⟩ := hspecifies
    cases (hlocated.leads directory).1 hleads
  | some directory =>
    dsimp only
    rw [gives_bind]
    have hleads : forge.Leads job.settings place.key directory.key := (hlocated.leads _).2 rfl
    apply (covers_search hjob happart (hsought _ hleads) job.settings.maxSearchDepth (.here _)
      (Nat.zero_add _) (hlocated.mounted root hroot directory rfl) hasked hcovering).mono
    intro result t hafter
    obtain ⟨depth, leads⟩ := result
    obtain ⟨hsound, hcovering, -, hcovered⟩ := hafter
    have hall (file : Key) (hspecifies : forge.Specifies job.ecosystem job.settings place.key file) :
        file ∈ t.keys := by
      obtain ⟨other, hother, n, hn, target, hexposes, hfile⟩ := hspecifies
      obtain rfl : directory.key = other := by simpa using (hlocated.leads other).1 hother
      exact hcovered n hn target hexposes hfile
    dsimp only
    split
    · exact ⟨hcovering, hall⟩
    · rw [gives_bind]
      have hsearched := (keptByReading_searched job t.searched).takeMarker directory t rfl
      apply ((gives_takeMarker hjob directory hsound).and hsearched).mono
      intro found u hafter
      obtain ⟨⟨-, -, -, -, others, hothers, -⟩, hsame⟩ := hafter
      have hkeys : t.keys ⊆ u.keys := Progress.keys_subset_of_files hothers
      have hafter : Covering forge job sought u ∧ ∀ file,
          forge.Specifies job.ecosystem job.settings place.key file → file ∈ u.keys :=
        ⟨hcovering.more hsame hkeys, fun file hspecifies => hkeys (hall file hspecifies)⟩
      split <;> exact hafter

omit hjob in
/-- Noting a package changes neither the outcomes of searches nor the files. -/
theorem searched_markUnreachable {name reason : String} {u : Unit}
    (h : markUnreachable name reason s = .ok u t) : t.searched = s.searched ∧ t.files = s.files := by
  have hstate : t = if s.unreachable.any (·.name = name) then s
      else { s with unreachable := s.unreachable ++ [⟨name, reason⟩] } := by
    cases h
    rfl
  rw [hstate]
  split <;> exact ⟨rfl, rfl⟩

/-- Following a lead covers what it asks for. -/
theorem covers_visit (happart : forge.Apart job.ecosystem job.settings sought) {base : Place}
    {authoritative : Bool} {lead : Lead} {found : List Lead}
    (hcounted : isCounted authoritative lead = true)
    (hsought : ∀ name directory, lead.reference.kind = .pathDependency name →
      forge.Leads job.settings (Forge.targetOf lead.origin.key lead.reference) directory →
      sought directory)
    (hroot : forge.Mounted root lead.origin.mount) (hs : Sound forge job s)
    (hcovering : Covering forge job sought s)
    (hvisit : visit job base authoritative lead s = .ok found t)
    (hfinding : VisitFinding forge job root base.key authoritative lead s found t) :
    Covering forge job sought t ∧ ∀ file role, forge.Fetches job.ecosystem job.settings
      lead.origin.key lead.reference file role → file ∈ t.keys := by
  have hkeys : s.keys ⊆ t.keys := hfinding.gathers.choose_spec.keys_subset
  have hanswered := hfinding.answered hcounted
  cases hkind : lead.reference.kind with
  | childManifest =>
    have hfile : lead.reference.isPathDependency = false := by
      simp [Reference.isPathDependency, hkind]
    have hsame := ((keptByReading_searched job s.searched).visitFile base authoritative hfile s
      rfl).of_ok hvisit
    refine ⟨hcovering.more hsame hkeys, fun file role hfetches => ?_⟩
    rw [((Forge.fetches_child hkind).1 hfetches).2]
    exact (Forge.answered_child hkind).1 hanswered
  | supportFile =>
    have hfile : lead.reference.isPathDependency = false := by
      simp [Reference.isPathDependency, hkind]
    have hsame := ((keptByReading_searched job s.searched).visitFile base authoritative hfile s
      rfl).of_ok hvisit
    exact ⟨hcovering.more hsame hkeys, fun file role hfetches =>
      absurd hfetches (Forge.not_fetches_support hkind)⟩
  | pathDependency name =>
    rw [isCounted_of_package hkind, Bool.not_eq_true'] at hcounted
    unfold visit at hvisit
    rw [hkind] at hvisit
    dsimp only at hvisit
    rw [hcounted, if_neg (by simp)] at hvisit
    obtain ⟨⟨reason, leads⟩, r, hfind, hnote⟩ := bind_eq_ok.1 hvisit
    have hleads (directory : Key) (hleads : forge.Leads job.settings
        (lead.origin.resolve lead.reference.path).key directory) : sought directory :=
      hsought name directory hkind hleads
    obtain ⟨hafter, hall⟩ := (covers_findPackage hjob happart hleads hroot hs hcovering).of_ok hfind
    have hfetched (file : Key) (role : DependencyFile.Role) (hfetches : forge.Fetches job.ecosystem
        job.settings lead.origin.key lead.reference file role) : file ∈ r.keys :=
      hall file ((Forge.fetches_package hkind).1 hfetches).2
    cases reason with
    | none =>
      cases hnote
      exact ⟨hafter, hfetched⟩
    | some reason =>
      obtain ⟨⟨⟩, u, hmark, hend⟩ := bind_eq_ok.1 hnote
      obtain rfl : u = t := (EStateM.Result.ok.inj hend).2
      obtain ⟨hsame, hfiles⟩ := searched_markUnreachable hmark
      have hsubset : r.keys ⊆ u.keys := by
        rw [Progress.keys, Progress.keys, hfiles]
        exact fun _ hkey => hkey
      exact ⟨hafter.more hsame hsubset, fun file role hfetches =>
        hsubset (hfetched file role hfetches)⟩

end Walk

end DependencyFiles
