import DependencyFiles.Proofs.Halting
import DependencyFiles.Proofs.Stages

/-!
# Searches as if nothing was kept

A search goes by the outcomes of earlier searches, and enters directories again that it is in the
midst of searching. A plain search looks at every directory within its budget anew. Whenever a
collection searches a directory and nothing fails, it finds what the plain search finds: the least
number of levels down to a specification, when that is within the budget.
-/

namespace DependencyFiles

namespace Forge

variable (forge : Forge) (ecosystem : Ecosystem) (settings : Settings)

/-- The directories one level below a directory, in the order of its listing. -/
def directlyBelow (key : Key) : List Key :=
  ((forge.listing? key).getD []).filterMap fun entry =>
    if entry.isDirectory || (entry.isSubmodule && settings.followSubmodules) then
      forge.into? key.1 entry
    else none

/-- How many levels down the shallowest specification is, when every directory within the budget is
looked at anew. -/
def plainSearch : (budget : Nat) → Key → Option Nat
  | 0, key => if forge.specifications ecosystem key = [] then none else some 0
  | budget + 1, key =>
    if forge.specifications ecosystem key = [] then
      (forge.directlyBelow settings key).foldr
        (fun inner best => Walk.shallower ((plainSearch budget inner).map (· + 1)) best) none
    else some 0

variable {forge ecosystem settings}

/-- A directory with a specification has it at level zero. -/
theorem least_of_specifications {key : Key} {budget : Nat}
    (hspecified : forge.specifications ecosystem key ≠ []) :
    Least (forge.SpecifiedAt ecosystem settings key) budget (some 0) :=
  ⟨Nat.zero_le _, specifiedAt_zero.2 hspecified, fun _ hless => absurd hless (Nat.not_lt_zero _)⟩

/-- The smallest of what plain searches below find is the least level below, one level further down. -/
theorem least_foldr_plainSearch {budget : Nat}
    (hleast : ∀ key, Least (forge.SpecifiedAt ecosystem settings key) budget
      (forge.plainSearch ecosystem settings budget key)) (keys : List Key) :
    Least (fun n => ∃ m, n = m + 1 ∧ ∃ inner ∈ keys, forge.SpecifiedAt ecosystem settings inner m)
      (budget + 1) (keys.foldr (fun inner best =>
        Walk.shallower ((forge.plainSearch ecosystem settings budget inner).map (· + 1)) best) none) := by
  induction keys with
  | nil =>
    intro n _ hthis
    obtain ⟨m, -, inner, hinner, -⟩ := hthis
    cases hinner
  | cons key rest ih =>
    refine ((hleast key).succ.shallower ih).congr fun n => ?_
    simp only [List.mem_cons, exists_eq_or_imp, and_or_left, exists_or]

/-- A plain search finds the least number of levels down to a specification within its budget. -/
theorem least_plainSearch (budget : Nat) (key : Key) :
    Least (forge.SpecifiedAt ecosystem settings key) budget
      (forge.plainSearch ecosystem settings budget key) := by
  induction budget generalizing key with
  | zero =>
    unfold plainSearch
    split
    · intro n hn
      rw [Nat.le_zero.1 hn, specifiedAt_zero]
      exact fun hspecified => hspecified ‹_›
    · exact least_of_specifications ‹_›
  | succ budget ih =>
    unfold plainSearch
    split
    · refine (least_foldr_plainSearch ih _).congr fun n => ?_
      cases n with
      | zero => simpa [specifiedAt_zero] using ‹forge.specifications ecosystem key = []›
      | succ n =>
        rw [specifiedAt_succ]
        simp only [Nat.add_right_cancel_iff, exists_eq_left', directlyBelow, below_iff_mem]
    · exact least_of_specifications ‹_›

end Forge

namespace Walk

/-- In some run, a search of the place with the budget begins in the state: for a package that a lead
on top of the stack asks for, or one level below a place that is being searched, has no specification
itself and whose earlier entries have been searched. -/
inductive Searching (job : Job (List Request)) (repo reference : String)
    (initial : Progress (List Request)) : (budget : Nat) → Place → Progress (List Request) → Prop
  | package {checkout : Checkout} {first : Start} {lead : Lead} {rest : List Lead} {name : String}
      {directory : Place} {s t : Progress (List Request)}
      (hunderway : Underway job repo reference initial checkout first (lead :: rest) s)
      (hkind : lead.reference.kind = .pathDependency name)
      (hcounted : isCounted first.authoritative lead = true)
      (hlocate : locate job (lead.origin.resolve lead.reference.path) s = .ok (some directory) t) :
      Searching job repo reference initial job.settings.maxSearchDepth directory t
  | deeper {budget : Nat} {place inner : Place} {entries before after : List Entry} {entry : Entry}
      {leads : List Lead} {result : Option Nat × List Lead} {s t u v w : Progress (List Request)}
      (hsearch : Searching job repo reference initial (budget + 1) place s)
      (hunsettled : (s.searched.lookup place.key).bind (·.answer? (budget + 1)) = none)
      (hlist : list? job place s = .ok (some entries) t)
      (hbare : readSpecifications job (shownPlaces job place entries) t = .ok (false, leads) u)
      (hentries : entries.filter (isSearched job) = before ++ entry :: after)
      (hbefore : searchEntries job place (search job budget) before u = .ok result v)
      (hentry : entryPlace? job place entry v = .ok (some inner) w) :
      Searching job repo reference initial budget inner w

/-- Every kept outcome is the least number of levels down to a specification, when that is within the
budget that it was kept with. -/
def KeptRight (forge : Forge) (ecosystem : Ecosystem) (settings : Settings)
    (s : Progress (List Request)) : Prop :=
  ∀ kept ∈ s.searched,
    Least (forge.SpecifiedAt ecosystem settings kept.1) kept.2.budget kept.2.foundAt

variable {forge : Forge} {job : Job (List Request)} {repo reference : String} {log : List Request}

/-- Searches begin in sound states and in mounted checkouts. -/
theorem Searching.sound (hjob : job.provider = forge.provider) {budget : Nat} {place : Place}
    {s : Progress (List Request)}
    (h : Searching job repo reference { cached := { inner := log } } budget place s) :
    Sound forge job s ∧ ∃ checkout, forge.Mounted ⟨checkout, .root⟩ place.mount := by
  induction h with
  | @package checkout first lead rest name directory s t hunderway _ _ hlocate =>
    have hwithin := hunderway.within hjob
    obtain ⟨hlocated, ht, cached, rfl⟩ :=
      (tells_locate hjob _ s hwithin.sound.toTruthful).of_ok hlocate
    have hroot := hwithin.mounted lead List.mem_cons_self
    exact ⟨hwithin.sound.asked ht, checkout, hlocated.mounted _ hroot directory rfl⟩
  | @deeper budget place inner entries before after entry leads result s t u v w _ _ hlist hbare hentries
      hbefore hentry ih =>
    obtain ⟨hs, checkout, hroot⟩ := ih
    obtain ⟨hlisted, ht, cached, rfl⟩ := (tells_list? hjob place s hs.toTruthful).of_ok hlist
    obtain ⟨hu, -⟩ := (gives_readSpecifications hjob _ (P := fun _ => True) (hs.asked ht)
      fun _ _ _ => trivial).of_ok hbare
    have hmem (other : Entry) (hother : other ∈ before ++ entry :: after) :
        isSearched job other = true ∧ other ∈ entries := by
      rw [← hentries] at hother
      exact (List.mem_filter.1 hother).symm
    have hv := ((gives_searchEntries hjob (fun inner s => gives_search hjob budget) hroot hlisted.symm
      before (fun other hother => hmem other (List.mem_append_left _ hother)) hu).of_ok hbefore).sound
    obtain ⟨⟨-, hmounted⟩, hw, cached, rfl⟩ :=
      (tells_entryPlace? hjob place entry v hv.toTruthful).of_ok hentry
    exact ⟨hv.asked hw, checkout, hmounted _ entries hroot hlisted.symm (hmem entry (by simp)).2 inner rfl⟩

/-- No search of a run may go further down than the settings say. -/
theorem Searching.budget_le {job : Job (List Request)} {initial s : Progress (List Request)} {budget : Nat}
    {place : Place} (h : Searching job repo reference initial budget place s) :
    budget ≤ job.settings.maxSearchDepth := by
  induction h with
  | package => exact Nat.le_refl _
  | deeper _ _ _ _ _ _ _ ih => exact Nat.le_of_succ_le ih

end Walk

/-- Whenever a collection from a forge without failures searches a directory, it ends because the
references in some specification cannot be told, or finds what a plain search finds: the least number of
levels down to a specification, when that is within the budget, and nothing otherwise. No budget is
above that of the settings. The outcomes that are kept at any stage of the collection, and before and
after each of its searches, are such least numbers, too. -/
theorem Collector.searches_plain (forge : Forge) (ecosystem : Ecosystem) (settings : Settings)
    (extent : Extent) (source : Source) (log : List Request) (hfailures : forge.failures = []) :
    (∀ checkout first stack s,
      Walk.Underway ((forge.collector ecosystem settings extent).job source) source.repo
        ((forge.collector ecosystem settings extent).reference source) { cached := { inner := log } }
        checkout first stack s → Walk.KeptRight forge ecosystem settings s) ∧
    ∀ budget place s,
      Walk.Searching ((forge.collector ecosystem settings extent).job source) source.repo
        ((forge.collector ecosystem settings extent).reference source) { cached := { inner := log } }
        budget place s →
      budget ≤ settings.maxSearchDepth ∧ Walk.KeptRight forge ecosystem settings s ∧
      (∀ halt t, Walk.search ((forge.collector ecosystem settings extent).job source) budget place s =
        .error halt t → ∃ checkout, Walk.Garbled forge
          ((forge.collector ecosystem settings extent).job source) ⟨checkout, .root⟩ halt t) ∧
      ∀ found leads t,
        Walk.search ((forge.collector ecosystem settings extent).job source) budget place s =
          .ok (found, leads) t →
        found = forge.plainSearch ecosystem settings budget place.key ∧
        Least (forge.SpecifiedAt ecosystem settings place.key) budget found ∧
        Walk.KeptRight forge ecosystem settings t := by
  have hjob : ((forge.collector ecosystem settings extent).job source).provider = forge.provider := rfl
  refine ⟨fun _ _ _ _ hunderway => (hunderway.within hjob).sound.least,
    fun budget place s hsearching => ?_⟩
  obtain ⟨hs, checkout, hroot⟩ := hsearching.sound hjob
  refine ⟨hsearching.budget_le, hs.least, fun halt t hhalt => ⟨checkout, ?_⟩, fun found leads t hrun => ?_⟩
  · rcases Walk.stops_search hjob budget hroot hs halt t hhalt with hbalks | hgarbled
    · exact absurd hbalks (Forge.not_balks hfailures halt)
    · exact hgarbled
  · have hfinding := (Walk.gives_search hjob budget hroot hs).of_ok hrun
    exact ⟨hfinding.least.eq (Forge.least_plainSearch budget place.key), hfinding.least,
      hfinding.sound.least⟩

/-- A forge whose application names a directory with a package two levels down. -/
def Forge.hangar : Forge where
  name := "forge"
  repositories :=
    [{ name := "org/app", commit := ⟨"c1"⟩
       nodes :=
         [(.ofString "Gemfile", .file "gem 'a', path: 'libs'".toUTF8.toList),
          (.ofString "libs/ruby/a/a.gemspec", .file []), (.ofString "libs/tools/run.rb", .file [])] }]

/-- What stays the same while the files of the application are collected. -/
def Forge.hangarJob : Job (List Request) :=
  (Forge.hangar.collector .bundler {} Forge.hangar.extent).job ⟨"forge", "org/app", none, .root⟩

/-- The result of a step and the state after it, when it has one. -/
def Walk.outcome? {σ α : Type} (x : Walk σ α) (s : Progress σ) : Option (α × Progress σ) :=
  match x s with
  | .ok a t => some (a, t)
  | .error _ _ => none

/-- A step with an outcome has that result. -/
theorem Walk.outcome?_eq_some {σ α : Type} {x : Walk σ α} {s : Progress σ} {reached : α × Progress σ} :
    x.outcome? s = some reached ↔ x s = .ok reached.1 reached.2 := by
  unfold outcome?
  cases x s <;> simp [Prod.ext_iff]

/-- The search for the package finds its specification two levels down, as a plain search does. -/
theorem Collector.searches_plain_hangar :
    Forge.hangar.failures = [] ∧ ∃ budget place s found leads t,
      Walk.Searching Forge.hangarJob "org/app" "HEAD" { cached := { inner := [] } } budget place s ∧
      Walk.search Forge.hangarJob budget place s = .ok (found, leads) t ∧ found = some 2 ∧
      found = Forge.hangar.plainSearch .bundler {} budget place.key ∧
      Walk.KeptRight Forge.hangar .bundler {} t := by
  have hfailures : Forge.hangar.failures = [] := rfl
  have heval : ((Walk.askOr (Cached.openCheckout Forge.hangarJob.provider "org/app" "HEAD") .provider).outcome?
      { cached := { inner := [] } }).bind (fun opened =>
        ((Walk.start Forge.hangarJob ⟨opened.1, .root⟩).outcome? opened.2).bind fun started =>
          started.1.leads.head?.bind fun lead =>
            ((Walk.locate Forge.hangarJob (lead.origin.resolve lead.reference.path)).outcome? started.2).bind
              fun located => located.1.bind fun directory =>
                ((Walk.search Forge.hangarJob Forge.hangarJob.settings.maxSearchDepth directory).outcome?
                  located.2).map fun searched =>
                    (lead.reference.kind, Walk.isCounted started.1.authoritative lead, searched.1.1)) =
      some (.pathDependency "a", true, some 2) := by
    decide +kernel
  obtain ⟨⟨checkout, opened⟩, hopen, heval⟩ := Option.bind_eq_some_iff.1 heval
  obtain ⟨⟨first, started⟩, hstart, heval⟩ := Option.bind_eq_some_iff.1 heval
  obtain ⟨lead, hlead, heval⟩ := Option.bind_eq_some_iff.1 heval
  obtain ⟨⟨place?, s⟩, hlocate, heval⟩ := Option.bind_eq_some_iff.1 heval
  obtain ⟨directory, rfl, heval⟩ := Option.bind_eq_some_iff.1 heval
  obtain ⟨⟨⟨found, leads⟩, t⟩, hsearch, hresult⟩ := Option.map_eq_some_iff.1 heval
  obtain ⟨hkind, hcounted, hfound⟩ : _ ∧ _ ∧ _ := by simpa using hresult
  rw [Walk.outcome?_eq_some] at hopen hstart hlocate hsearch
  obtain ⟨rest, hleads⟩ := List.head?_eq_some_iff.1 hlead
  have hunderway := Walk.Underway.begun hopen hstart
  dsimp only at hunderway
  rw [hleads] at hunderway
  have hsearching := Walk.Searching.package hunderway hkind hcounted hlocate
  obtain ⟨-, hsearches⟩ := searches_plain Forge.hangar .bundler {} Forge.hangar.extent
    ⟨"forge", "org/app", none, .root⟩ [] hfailures
  obtain ⟨-, -, -, hends⟩ := hsearches _ _ _ hsearching
  obtain ⟨hplain, -, hkept⟩ := hends found leads t hsearch
  exact ⟨hfailures, _, _, _, found, leads, t, hsearching, hsearch, hfound, hplain, hkept⟩

end DependencyFiles
