import DependencyFiles.Proofs.Findings

/-!
# What searches leave behind

A search leaves outcomes behind, for other searches to go by. An outcome that something was
found decides how far later searches go. One that nothing was found only spares them the
way: whoever searched the directory again would find nothing, and nothing on the way there
would fail.
-/

namespace DependencyFiles

/-- The answer lets a collection go on: there is one, or there is nothing. -/
def Answer.Passes {α : Type} (answer : Answer α) : Prop :=
  ∀ error, answer = .error error → error.isNotFound = true

/-- Where nothing has the property within the budget there is no least number with it. -/
theorem Least.eq_none {P : Nat → Prop} {budget : Nat} {result : Option Nat}
    (h : Least P budget result) (hnone : Least P budget none) : result = none := by
  cases result with
  | none => rfl
  | some n => exact absurd h.2.1 (hnone n h.1)

/-- There is one least number. -/
theorem Least.unique {P : Nat → Prop} {budget budget' m n : Nat} (h : Least P budget (some m))
    (h' : Least P budget' (some n)) : m = n :=
  Nat.le_antisymm (Nat.le_of_not_lt fun hlt => h.2.2 n hlt h'.2.1)
    (Nat.le_of_not_lt fun hlt => h'.2.2 m hlt h.2.1)

/-- What is least is determined. -/
theorem Least.eq {P : Nat → Prop} {budget : Nat} {result result' : Option Nat}
    (h : Least P budget result) (h' : Least P budget result') : result = result' := by
  cases result with
  | none => exact (h'.eq_none h).symm
  | some m =>
    cases result' with
    | none => exact h.eq_none h'
    | some n => rw [h.unique h']

/-- A reference is known or not found. -/
theorem Forge.passes_resolve (forge : Forge) (repo reference : String) :
    Answer.Passes ((forge.resolve repo reference).map fun commit => Checkout.mk forge.name repo commit) := by
  intro error herror
  unfold resolve at herror
  split at herror
  · cases herror
  · cases herror
    rfl

/-- How many levels down the shallowest specifications are, where searches have found any. -/
def Progress.depths {σ : Type} (s : Progress σ) (key : Key) : Option Nat :=
  (s.searched.lookup key).bind (·.foundAt)

namespace Walk

/-- Where a search finds nothing, all that it asks for passes. It does not ask about directories below
which something is known to be found. -/
inductive Passable (forge : Forge) (job : Job (List Request)) (depths : Key → Option Nat) :
    Nat → Key → Prop
  | known {budget : Nat} {key : Key} {depth : Nat} (h : depths key = some depth) :
      Passable forge job depths budget key
  | asked {budget : Nat} {key : Key} (hlist : (forge.list key.1.repo key.1.commit key.2).Passes)
      (hread : ∀ entries, forge.listing? key = some entries →
        ∀ file ∈ Forge.shownSpecifications job.ecosystem key.1 entries,
          (forge.read file.1.repo file.1.commit file.2).Passes)
      (hbelow : ∀ less, budget = less + 1 → ∀ inner, forge.Below job.settings key inner →
        Passable forge job depths less inner) :
      Passable forge job depths budget key

variable {forge : Forge} {job : Job (List Request)} {s t u : Progress (List Request)}
  {depths depths' : Key → Option Nat} {budget : Nat} {key : Key}

namespace Passable

/-- A search that goes down less far asks for less. -/
theorem less (h : Passable forge job depths budget key) {less : Nat} (hless : less ≤ budget) :
    Passable forge job depths less key := by
  induction h generalizing less with
  | known h => exact .known h
  | asked hlist hread hbelow ih =>
    refine .asked hlist hread fun n hn inner hinner => ?_
    subst hn
    obtain ⟨budget, rfl⟩ := Nat.exists_eq_add_one_of_ne_zero (Nat.ne_zero_of_lt hless)
    exact ih budget rfl inner hinner (Nat.le_of_succ_le_succ hless)

/-- A search that knows more asks for less. -/
theorem mono (h : Passable forge job depths budget key)
    (hdepths : ∀ key depth, depths key = some depth → depths' key = some depth) :
    Passable forge job depths' budget key := by
  induction h with
  | known h => exact .known (hdepths _ _ h)
  | asked hlist hread hbelow ih => exact .asked hlist hread ih

end Passable

/-- A search of the directory finds nothing and comes to no halt. -/
structure Barren (forge : Forge) (job : Job (List Request)) (depths : Key → Option Nat) (budget : Nat)
    (key : Key) : Prop where
  least : Least (forge.SpecifiedAt job.ecosystem job.settings key) budget none
  passable : Passable forge job depths budget key

/-- The kept answers and outcomes are right, and where nothing was found all passes. -/
structure Surveyed (forge : Forge) (job : Job (List Request)) (s : Progress (List Request)) : Prop
    extends Sound forge job s where
  passable : ∀ key outcome, s.searched.lookup key = some outcome → outcome.foundAt = none →
    Passable forge job s.depths outcome.budget key

/-- A collection starts without outcomes. -/
theorem surveyed_initial (forge : Forge) (job : Job (List Request)) (log : List Request) :
    Surveyed forge job { cached := { inner := log } } :=
  ⟨sound_initial forge job log, by simp⟩

/-- Only outcomes matter for what passes. -/
theorem Surveyed.more (h : Surveyed forge job s) (ht : Sound forge job t)
    (hsearched : t.searched = s.searched) : Surveyed forge job t := by
  refine ⟨ht, ?_⟩
  unfold Progress.depths
  rw [hsearched]
  exact h.passable

/-- Asking leaves the outcomes as they are. -/
theorem Surveyed.asked (h : Surveyed forge job s) {cached : Cached (List Request)}
    (ht : forge.Truthful { s with cached }) : Surveyed forge job { s with cached } :=
  h.more (h.toSound.asked ht) rfl

/-- An outcome goes with what is known about the directory. -/
theorem lookup_keep {key other : Key} {outcome : SearchOutcome} :
    ((key, outcome) :: s.searched).lookup other =
      if other = key then some outcome else s.searched.lookup other := by
  rw [List.lookup_cons]
  by_cases h : other = key
  · rw [if_pos h, h, beq_self_eq_true]
  · rw [if_neg h, beq_false_of_ne h]

/-- An outcome that nothing was found does not add to what is known. -/
theorem depths_keep {key : Key} {outcome : SearchOutcome} (hkey : s.depths key = none)
    (hnone : outcome.foundAt = none) :
    Progress.depths { s with searched := (key, outcome) :: s.searched } = s.depths := by
  funext other
  unfold Progress.depths
  rw [lookup_keep]
  split
  · rename_i hsame
    subst hsame
    exact hnone.trans hkey.symm
  · rfl

/-- An outcome of a search that was not settled before is kept as the others are. -/
theorem Surveyed.keep (h : Surveyed forge job s) {key : Key} {outcome : SearchOutcome}
    (hsound : Sound forge job { s with searched := (key, outcome) :: s.searched })
    (hknown : ∀ depth, s.depths key = some depth → outcome.foundAt = some depth)
    (hpassable : outcome.foundAt = none → Passable forge job s.depths outcome.budget key) :
    Surveyed forge job { s with searched := (key, outcome) :: s.searched } ∧
      ∀ other depth, s.depths other = some depth →
        Progress.depths { s with searched := (key, outcome) :: s.searched } other = some depth := by
  have hdepths (other : Key) (depth : Nat) (hother : s.depths other = some depth) :
      Progress.depths { s with searched := (key, outcome) :: s.searched } other = some depth := by
    unfold Progress.depths
    rw [lookup_keep]
    split
    · rename_i hkey
      exact hknown depth (hkey ▸ hother)
    · exact hother
  refine ⟨⟨hsound, fun other kept hkept hnone => ?_⟩, hdepths⟩
  dsimp only at hkept
  rw [lookup_keep] at hkept
  split at hkept
  · rename_i hkey
    obtain rfl := Option.some_inj.1 hkept
    exact hkey ▸ (hpassable hnone).mono hdepths
  · exact (h.passable other kept hkept hnone).mono hdepths

/-- What settles that nothing is found tells that all passes. -/
theorem Surveyed.settled (h : Surveyed forge job s)
    (hsettled : (s.searched.lookup key).bind (·.answer? budget) = some none) :
    Passable forge job s.depths budget key := by
  obtain ⟨outcome, hlookup, hanswer⟩ := Option.bind_eq_some_iff.1 hsettled
  unfold SearchOutcome.answer? at hanswer
  cases hfound : outcome.foundAt with
  | none =>
    rw [hfound] at hanswer
    dsimp only at hanswer
    split at hanswer
    · exact (h.passable key outcome hlookup hfound).less ‹_›
    · cases hanswer
  | some depth =>
    have hdepth : s.depths key = some depth := by
      unfold Progress.depths
      rw [hlookup]
      exact hfound
    exact .known hdepth

/-- Nothing is known of a directory whose search is not settled. -/
theorem depths_of_unsettled (hunsettled : (s.searched.lookup key).bind (·.answer? budget) = none) :
    s.depths key = none := by
  unfold Progress.depths
  cases hlookup : s.searched.lookup key with
  | none => rfl
  | some outcome =>
    cases hfound : outcome.foundAt with
    | none => exact hfound
    | some depth => simp [hlookup, SearchOutcome.answer?, hfound] at hunsettled

/-- What becomes of the outcomes: those of searches that found something stay as they are, and others are
added only when something is found. -/
structure Left (forge : Forge) (job : Job (List Request)) (nothing : Prop)
    (s t : Progress (List Request)) : Prop where
  surveyed : Surveyed forge job t
  known : ∀ key depth, s.depths key = some depth → t.depths key = some depth
  same : nothing → t.depths = s.depths

namespace Left

variable {p q : Prop}

/-- What was asked before does not matter. -/
theorem asked {cached : Cached (List Request)} (h : Left forge job p { s with cached } t) :
    Left forge job p s t :=
  ⟨h.surveyed, h.known, h.same⟩

/-- Steps that do not search leave the outcomes as they are. -/
theorem of_searched_eq (hs : Surveyed forge job s) (ht : Sound forge job t)
    (hsearched : t.searched = s.searched) : Left forge job p s t := by
  have hdepths : t.depths = s.depths := by
    unfold Progress.depths
    rw [hsearched]
  exact ⟨hs.more ht hsearched, fun _ _ h => hdepths ▸ h, fun _ => hdepths⟩

theorem trans (h : Left forge job p s t) (hmore : Left forge job q t u) :
    Left forge job (p ∧ q) s u :=
  ⟨hmore.surveyed, fun key depth hkey => hmore.known key depth (h.known key depth hkey),
    fun hnothing => (hmore.same hnothing.2).trans (h.same hnothing.1)⟩

theorem imp (h : Left forge job p s t) (hpq : q → p) : Left forge job q s t :=
  ⟨h.surveyed, h.known, fun hnothing => h.same (hpq hnothing)⟩

end Left

section Outcomes

variable {root : Mount} {result : Option Nat × List Lead}
  (h : Left forge job (result.1 = none) s t) (hfresh : s.depths key = none)
  (hfinding : Finding forge job root key budget s result t)

include h hfresh hfinding

/-- What is known of a directory after it was searched is what the search found. -/
theorem Left.found {depth : Nat} (hdepth : t.depths key = some depth) : result.1 = some depth := by
  obtain ⟨outcome, hlookup, houtcome⟩ := Option.bind_eq_some_iff.1 hdepth
  have hleast := hfinding.sound.least _ (mem_of_lookup hlookup)
  rw [houtcome] at hleast
  cases hresult : result.1 with
  | none =>
    rw [h.same hresult, hfresh] at hdepth
    cases hdepth
  | some n =>
    have hthis := hfinding.least
    rw [hresult] at hthis
    rw [hthis.unique hleast]

/-- The outcome of a search that was not settled before joins those that the search left behind. -/
theorem Left.keep (hpassable : result.1 = none → Passable forge job s.depths budget key) :
    Left forge job (result.1 = none) s
      { t with searched := (key, ⟨result.1, budget⟩) :: t.searched } := by
  have hsound : Sound forge job { t with searched := (key, ⟨result.1, budget⟩) :: t.searched } :=
    hfinding.sound.keep hfinding.least hfinding.has
  obtain ⟨hsurveyed, hknown⟩ := h.surveyed.keep hsound (fun depth => h.found hfresh hfinding)
    fun hnone => by
      rw [h.same hnone]
      exact hpassable hnone
  refine ⟨hsurveyed, fun other depth hother => hknown other depth (h.known other depth hother),
    fun hnone => ?_⟩
  have htfresh : t.depths key = none := by rw [h.same hnone, hfresh]
  exact (depths_keep htfresh hnone).trans (h.same hnone)

end Outcomes

/-- What a search leaves behind. -/
structure Survey (forge : Forge) (job : Job (List Request)) (budget : Nat) (key : Key)
    (s : Progress (List Request)) (result : Option Nat × List Lead) (t : Progress (List Request)) :
    Prop where
  left : Left forge job (result.1 = none) s t
  least : Least (forge.SpecifiedAt job.ecosystem job.settings key) budget result.1
  passable : result.1 = none → Passable forge job s.depths budget key

/-- What was left behind by the search of one directory and then by those of others. -/
theorem Survey.cons {inner : Key} {depth best : Option Nat} {leads : List Lead} {others : Key → Prop}
    (hfirst : Survey forge job budget inner s (depth, leads) t)
    (hrest : Left forge job (best = none) t u ∧
      (best = none → ∀ key, others key → Passable forge job t.depths budget key)) :
    Left forge job (shallower (depth.map (· + 1)) best = none) s u ∧
      (shallower (depth.map (· + 1)) best = none → ∀ key, inner = key ∨ others key →
        Passable forge job s.depths budget key) := by
  have hboth (hnone : shallower (depth.map (· + 1)) best = none) : depth = none ∧ best = none := by
    cases depth <;> cases best <;> first | exact ⟨rfl, rfl⟩ | cases hnone
  obtain ⟨hleft, hpassable⟩ := hrest
  refine ⟨(hfirst.left.trans hleft).imp hboth, fun hnone key hkey => ?_⟩
  rcases hkey with rfl | hkey
  · exact hfirst.passable (hboth hnone).1
  · exact hfirst.left.same (hboth hnone).1 ▸ hpassable (hboth hnone).2 key hkey

/-- The search one level further down, when the search may go down. -/
def descent (job : Job (List Request)) : (budget : Nat) →
    Option (Place → Walk (List Request) (Option Nat × List Lead))
  | 0 => none
  | budget + 1 => some (search job budget)

theorem search_eq (budget : Nat) : search job budget = searchKept job budget (descent job budget) := by
  cases budget <;> rfl

/-- A question that may have no answer goes on exactly when its answer passes. -/
theorem gives_ask?_passes {α : Type} (query : Query (Cached (List Request)) α) :
    Gives (ask? query) s (fun _ _ => Answer.Passes (query s.cached).1)
      fun _ _ => ¬ Answer.Passes (query s.cached).1 := by
  unfold ask?
  rw [gives_bind, gives_ask]
  cases (query s.cached).1 with
  | ok a => exact nofun
  | error error =>
    dsimp only
    cases hkind : error.isNotFound with
    | true => exact fun _ hthis => Except.error.inj hthis ▸ hkind
    | false => exact fun hpasses => Bool.false_ne_true (hkind.symm.trans (hpasses error rfl))

section Passing

variable (hjob : job.provider = forge.provider)

include hjob

/-- When a place is listed the answer passes, and otherwise it does not. -/
theorem gives_list?_passes (place : Place) (hs : forge.Truthful s) :
    Gives (list? job place) s
      (fun _ _ => (forge.list place.key.1.repo place.key.1.commit place.key.2).Passes)
      fun _ _ => ¬ (forge.list place.key.1.repo place.key.1.commit place.key.2).Passes := by
  have hask := gives_ask?_passes (s := s) (Cached.list job.provider place.mount.checkout place.path)
  rwa [hjob, hs.list_fst, ← hjob] at hask

/-- When a file is read the answer passes, and otherwise it does not. -/
theorem gives_readOptional_passes (place : Place) (role : DependencyFile.Role) (hs : forge.Truthful s) :
    Gives (readOptional job place role) s
      (fun _ _ => (forge.read place.key.1.repo place.key.1.commit place.key.2).Passes)
      fun _ _ => ¬ (forge.read place.key.1.repo place.key.1.commit place.key.2).Passes := by
  have hread : (contentOf job place s.cached).1 =
      forge.read place.key.1.repo place.key.1.commit place.key.2 := by
    unfold contentOf
    rw [hjob]
    exact hs.read_fst place.mount.checkout place.path
  unfold readOptional
  rw [gives_bind, gives_readCollecting, hread]
  cases forge.read place.key.1.repo place.key.1.commit place.key.2 with
  | ok content => exact nofun
  | error error =>
    dsimp only
    cases hkind : error.isNotFound with
    | true => exact fun _ hthis => Except.error.inj hthis ▸ hkind
    | false => exact fun hpasses => Bool.false_ne_true (hkind.symm.trans (hpasses error rfl))

/-- Entries of a listing are entered without a halt. -/
theorem gives_entryPlace?_passes {place : Place} {entries : List Entry} {entry : Entry}
    (hlist : forge.listing? place.key = some entries) (hentry : entry ∈ entries) (hs : forge.Truthful s) :
    Gives (entryPlace? job place entry) s (fun _ _ => True) fun _ _ => False := by
  unfold entryPlace?
  cases hkind : entry.isSubmodule with
  | false => trivial
  | true =>
    obtain ⟨-, repository, -, -, hlisted⟩ := Forge.listing?_eq_some.1 hlist
    obtain ⟨target, htarget⟩ :=
      Option.isSome_iff_exists.1 (Repository.isSome_submodule hlisted hentry hkind)
    have hasked : (Cached.target job.provider entry s.cached).1 = .ok target := by
      rw [hjob]
      change entry.target? = _
      rw [Entry.target?, htarget]
    unfold enter?
    rw [if_pos rfl, gives_bind]
    refine ((gives_ask?_passes _).and ((tells_askTarget hjob entry).ask? s hs)).imp
      (fun found t hafter => ?_) fun _ _ hafter => hafter.1 (by rw [hasked]; exact nofun)
    obtain ⟨-, -, ht, -⟩ := hafter
    cases found with
    | none => trivial
    | some target =>
      dsimp only
      rw [gives_bind]
      refine (gives_ask?_passes _).imp (fun checkout _ _ => by cases checkout <;> trivial)
        fun _ _ hafter => hafter ?_
      rw [hjob, ht.openCheckout_fst]
      exact Forge.passes_resolve forge target.repo target.reference

/-- Reading specifications finds none only when all answers pass, and halts only when some answer does not
pass or some file can be read. -/
theorem gives_readSpecifications_passes (places : List Place) (hs : forge.Truthful s) :
    Gives (readSpecifications job places) s
      (fun result _ => result.1 = false → ∀ place ∈ places,
        (forge.read place.key.1.repo place.key.1.commit place.key.2).Passes)
      fun _ _ => ¬ ∀ place ∈ places, forge.content? place.key = none ∧
        (forge.read place.key.1.repo place.key.1.commit place.key.2).Passes := by
  induction places generalizing s with
  | nil => exact fun _ => by simp
  | cons place rest ih =>
    simp only [List.mem_cons, forall_eq_or_imp]
    unfold readSpecifications
    rw [gives_bind, gives_isCollected]
    split
    · rw [gives_bind]
      exact (ih hs).imp (fun _ _ _ hnothing => by cases hnothing) fun _ _ hrest hall => hrest hall.2
    · rw [gives_bind]
      refine ((gives_readOptional_passes hjob place .specification hs).and
        (gives_readOptional hjob hs place .specification)).imp (fun text t hafter => ?_)
        fun _ _ hafter hall => hafter.1 hall.1.2
      obtain ⟨hpasses, rfl, hread⟩ := hafter
      cases hcontent : forge.content? place.key with
      | none =>
        exact (ih hread.truthful).imp (fun _ _ hrest hnothing => ⟨hpasses, hrest hnothing⟩)
          fun _ _ hrest hall => hrest hall.2
      | some content =>
        simp only [Option.map_some, gives_bind]
        refine (gives_scan place _).imp (fun leads u hafter => ?_) fun _ _ _ hall => ?_
        · obtain ⟨rfl, -⟩ := hafter
          exact (ih hread.truthful).imp (fun _ _ _ hnothing => by cases hnothing)
            fun _ _ _ hall => Option.some_ne_none _ hall.1.1
        · exact Option.some_ne_none _ hall.1.1

/-- Searching the directories of entries leaves behind what searching each of them does. -/
theorem gives_searchEntries_left {place : Place} {listed : List Entry}
    (hlist : forge.listing? place.key = some listed)
    (hsearch : ∀ inner s, Surveyed forge job s → Gives (search job budget inner) s
      (Survey forge job budget inner.key s) fun _ _ => ¬ Barren forge job s.depths budget inner.key)
    (entries : List Entry) (hentries : ∀ entry ∈ entries, isSearched job entry = true ∧ entry ∈ listed)
    (hs : Surveyed forge job s) :
    Gives (searchEntries job place (search job budget) entries) s (fun result t =>
      Left forge job (result.1 = none) s t ∧ (result.1 = none → ∀ inner,
        forge.LeadsInto job.settings place.key.1 entries inner →
          Passable forge job s.depths budget inner))
      fun _ _ => ¬ ∀ inner, forge.LeadsInto job.settings place.key.1 entries inner →
        Barren forge job s.depths budget inner := by
  induction entries generalizing s with
  | nil =>
    refine ⟨.of_searched_eq hs hs.toSound rfl, fun _ inner hinner => ?_⟩
    obtain ⟨entry, hentry, -⟩ := hinner
    cases hentry
  | cons entry rest ih =>
    obtain ⟨hsearched, hentry⟩ := hentries entry List.mem_cons_self
    have hrest := fun other hother => hentries other (List.mem_cons_of_mem _ hother)
    have hcons (inner : Key) : forge.LeadsInto job.settings place.key.1 (entry :: rest) inner ↔ _ :=
      Forge.leadsInto_cons hsearched
    simp only [hcons]
    unfold searchEntries
    rw [gives_bind]
    refine ((gives_entryPlace?_passes hjob hlist hentry hs.toTruthful).and
      (tells_entryPlace? hjob place entry s hs.toTruthful)).imp (fun found _ hafter => ?_)
      fun _ _ hafter => hafter.1.elim
    obtain ⟨-, ⟨hinto, -⟩, ht, cached, rfl⟩ := hafter
    have hasked := hs.asked ht
    rw [← hinto]
    cases found with
    | none =>
      simp only [Option.map_none, reduceCtorEq, false_or]
      exact (ih hrest hasked).imp (fun _ _ h => ⟨h.1.asked, h.2⟩) fun _ _ h => h
    | some inner =>
      simp only [Option.map_some, Option.some_inj]
      rw [gives_bind]
      refine (hsearch inner _ hasked).imp (fun result t hfirst => ?_)
        fun _ _ hhalt hall => hhalt (hall inner.key (.inl rfl))
      obtain ⟨depth, leads⟩ := result
      rw [gives_bind]
      refine (ih hrest hfirst.left.surveyed).imp (fun result u hmore => ?_) fun _ _ hhalt hall => ?_
      · exact (hfirst.cons hmore).imp .asked id
      · -- The first directory is barren, so its search has changed nothing for the others.
        have hdepth : depth = none := hfirst.least.eq_none (hall inner.key (.inl rfl)).least
        rw [hfirst.left.same hdepth] at hhalt
        exact hhalt fun key hkey => hall key (.inr hkey)

omit hjob in
/-- The specifications that a listing shows are at the places shown. -/
theorem shownSpecifications_eq (place : Place) (entries : List Entry) :
    Forge.shownSpecifications job.ecosystem place.key.1 entries =
      (shownPlaces job place entries).map Place.key := by
  simp only [Forge.shownSpecifications, shownPlaces, List.map_map]
  rfl

omit hjob in
/-- What is shown passes when its places do. -/
theorem passes_shown {place : Place} {entries : List Entry}
    (hlist : forge.listing? place.key = some entries)
    (hpasses : ∀ file ∈ shownPlaces job place entries,
      (forge.read file.key.1.repo file.key.1.commit file.key.2).Passes) :
    ∀ others, forge.listing? place.key = some others →
      ∀ file ∈ Forge.shownSpecifications job.ecosystem place.key.1 others,
        (forge.read file.1.repo file.1.commit file.2).Passes := by
  intro others hothers file hfile
  obtain rfl := Option.some_inj.1 (hlist.symm.trans hothers)
  rw [shownSpecifications_eq] at hfile
  obtain ⟨shown, hshown, rfl⟩ := List.mem_map.1 hfile
  exact hpasses shown hshown

omit hjob in
/-- In a barren directory that nothing is known of, no specification can be read and all that is asked
passes. -/
theorem Barren.passes {place : Place} {entries : List Entry}
    (h : Barren forge job depths budget place.key) (hfresh : depths place.key = none)
    (hlist : forge.listing? place.key = some entries) :
    (∀ file ∈ shownPlaces job place entries, forge.content? file.key = none ∧
      (forge.read file.key.1.repo file.key.1.commit file.key.2).Passes) ∧
    ∀ less, budget = less + 1 → ∀ inner, forge.LeadsInto job.settings place.key.1 entries inner →
      Barren forge job depths less inner := by
  obtain ⟨hleast, hpassable⟩ := h
  cases hpassable with
  | known hknown => rw [hfresh] at hknown; cases hknown
  | asked _ hread hbelow =>
    refine ⟨fun file hfile => ?_, fun less hless inner hinner => ?_⟩
    · have hbare : forge.specifications job.ecosystem place.key = [] := by
        simpa using mt Forge.specifiedAt_zero.2 (hleast 0 (Nat.zero_le _))
      rw [specifications_eq hlist, List.filter_eq_nil_iff] at hbare
      refine ⟨by simpa using hbare file.key (List.mem_map_of_mem hfile), hread entries hlist file.key ?_⟩
      rw [shownSpecifications_eq]
      exact List.mem_map_of_mem hfile
    · have hinner : forge.Below job.settings place.key inner := ⟨entries, hlist, hinner⟩
      refine ⟨fun m hm hspecified => ?_, hbelow less hless inner hinner⟩
      exact hleast (m + 1) (by omega) (Forge.specifiedAt_succ.2 ⟨inner, hinner, hspecified⟩)

/-- Searching a listed directory that nothing is known of leaves the outcomes of the search behind. -/
theorem gives_searchListed_left {place : Place} {entries : List Entry}
    (hlist : forge.listing? place.key = some entries)
    (hpasses : (forge.list place.key.1.repo place.key.1.commit place.key.2).Passes)
    (hsearch : ∀ less, budget = less + 1 → ∀ inner s, Surveyed forge job s →
      Gives (search job less inner) s (Survey forge job less inner.key s)
        fun _ _ => ¬ Barren forge job s.depths less inner.key)
    (hs : Surveyed forge job s) (hfresh : s.depths place.key = none) :
    Gives (searchListed job (descent job budget) place entries) s (fun result t =>
      Left forge job (result.1 = none) s t ∧
        (result.1 = none → Passable forge job s.depths budget place.key))
      fun _ _ => ¬ Barren forge job s.depths budget place.key := by
  unfold searchListed
  rw [gives_bind]
  refine (((gives_readSpecifications_passes hjob _ hs.toTruthful).and
    (gives_readShown hjob (Forge.Mounted.root : forge.Mounted place.mount place.mount) hlist
      hs.toSound)).and ((keptByReading_searched job s.searched).readSpecifications _ s rfl)).imp
      (fun result t hafter => ?_) fun _ _ hafter hbarren => hafter.1.1 (hbarren.passes hfresh hlist).1
  obtain ⟨found, leads⟩ := result
  obtain ⟨⟨hread, ht, hfound, -, -⟩, hsearched⟩ := hafter
  have hleft : Left forge job True s t := .of_searched_eq hs ht hsearched
  cases found with
  | true => exact ⟨hleft.imp fun _ => trivial, nofun⟩
  | false =>
    have hshown := passes_shown hlist (hread rfl)
    cases budget with
    | zero => exact ⟨hleft.imp fun _ => trivial, fun _ => .asked hpasses hshown nofun⟩
    | succ budget =>
      have hentries : ∀ entry ∈ entries.filter (isSearched job),
          isSearched job entry = true ∧ entry ∈ entries :=
        fun entry hentry => (List.mem_filter.1 hentry).symm
      have hinto (inner : Key) : forge.LeadsInto job.settings place.key.1
          (entries.filter (isSearched job)) inner ↔
            forge.LeadsInto job.settings place.key.1 entries inner := Forge.leadsInto_filter
      dsimp only [descent]
      rw [if_neg Bool.false_ne_true, gives_bind]
      refine (gives_searchEntries_left hjob hlist (hsearch budget rfl) _ hentries hleft.surveyed).imp
        (fun result u hafter => ?_) fun _ _ hhalt hbarren => hhalt fun inner hinner => ?_
      · obtain ⟨depth, more⟩ := result
        obtain ⟨hmore, hbelow⟩ := hafter
        refine ⟨(hleft.trans hmore).imp fun hnone => ⟨trivial, hnone⟩, fun hnone => ?_⟩
        refine .asked hpasses hshown fun less hless inner hinner => ?_
        obtain rfl := Nat.succ.inj hless
        obtain ⟨others, hothers, hinner⟩ := hinner
        obtain rfl := Option.some_inj.1 (hlist.symm.trans hothers)
        rw [← hleft.same trivial]
        exact hbelow hnone inner ((hinto inner).2 hinner)
      · rw [hleft.same trivial]
        exact (hbarren.passes hfresh hlist).2 budget rfl inner ((hinto inner).1 hinner)

/-- Searching a listed directory finds what there is to find. -/
theorem gives_searchListed_descent {place : Place} {entries : List Entry}
    (hlist : forge.listing? place.key = some entries) (hs : Sound forge job s) :
    Gives (searchListed job (descent job budget) place entries) s
      (Finding forge job place.mount place.key budget s) fun _ _ => True := by
  have hroot : forge.Mounted place.mount place.mount := .root
  cases budget with
  | zero => exact gives_searchListed hjob (fun _ => rfl) nofun hroot hlist hs
  | succ budget =>
    refine gives_searchListed hjob nofun (fun f hf => ⟨budget, rfl, ?_⟩) hroot hlist hs
    obtain rfl := Option.mem_some_iff.1 hf
    exact fun inner s hinner hs => gives_search hjob budget hinner hs

/-- A search of one directory leaves its outcome behind, which can be relied on. -/
theorem gives_searchKept_left (place : Place)
    (hsearch : ∀ less, budget = less + 1 → ∀ inner s, Surveyed forge job s →
      Gives (search job less inner) s (Survey forge job less inner.key s)
        fun _ _ => ¬ Barren forge job s.depths less inner.key)
    (hs : Surveyed forge job s) :
    Gives (searchKept job budget (descent job budget) place) s (fun result t =>
      Left forge job (result.1 = none) s t ∧
        (result.1 = none → Passable forge job s.depths budget place.key))
      fun _ _ => ¬ Barren forge job s.depths budget place.key := by
  unfold searchKept
  rw [gives_bind, gives_get]
  dsimp only
  cases hsettled : (s.searched.lookup place.key).bind (·.answer? budget) with
  | some depth =>
    refine ⟨.of_searched_eq hs hs.toSound rfl, fun hnone => hs.settled ?_⟩
    rw [hsettled]
    exact congrArg some hnone
  | none =>
    have hfresh := depths_of_unsettled hsettled
    dsimp only
    rw [gives_bind]
    refine ((gives_list?_passes hjob place hs.toTruthful).and
      (tells_list? hjob place s hs.toTruthful)).imp (fun entries _ hafter => ?_)
      fun _ _ hafter hbarren => hafter.1 ?_
    · obtain ⟨hpasses, rfl, ht, cached, rfl⟩ := hafter
      have hasked := hs.asked ht
      cases hlist : forge.listing? place.key with
      | none =>
        refine ⟨.of_searched_eq hs hasked.toSound rfl, fun _ => .asked hpasses ?_ ?_⟩
        · intro entries hentries
          rw [hlist] at hentries
          cases hentries
        · rintro less - inner ⟨entries, hentries, -⟩
          rw [hlist] at hentries
          cases hentries
      | some entries =>
        dsimp only
        rw [gives_bind]
        refine ((gives_searchListed_left hjob hlist hpasses hsearch hasked hfresh).and
          (gives_searchListed_descent hjob hlist hasked.toSound)).imp (fun result t hafter => ?_)
          fun _ _ hafter => hafter.1
        obtain ⟨⟨hleft, hpassable⟩, hfinding⟩ := hafter
        exact ⟨(hleft.keep hfresh hfinding hpassable).asked, hpassable⟩
    · cases hbarren.passable with
      | known hknown => rw [hfresh] at hknown; cases hknown
      | asked hlist => exact hlist

/-- A search leaves outcomes behind that can be relied on, and halts only where it might find
something or something fails. -/
theorem gives_search_survey (budget : Nat) (place : Place) (hs : Surveyed forge job s) :
    Gives (search job budget place) s (Survey forge job budget place.key s)
      fun _ _ => ¬ Barren forge job s.depths budget place.key := by
  have hfinding {s : Progress (List Request)} (budget : Nat) (place : Place)
      (hs : Surveyed forge job s) := gives_search hjob budget
        (Forge.Mounted.root : forge.Mounted place.mount place.mount) hs.toSound
  induction budget generalizing place s with
  | zero =>
    refine ((gives_searchKept_left hjob place (fun _ hless => by cases hless) hs).and
      (hfinding 0 place hs)).imp (fun result t hafter => ?_) fun _ _ hafter => hafter.1
    exact ⟨hafter.1.1, hafter.2.least, hafter.1.2⟩
  | succ budget ih =>
    have hsearch : ∀ less, budget + 1 = less + 1 → ∀ inner s, Surveyed forge job s →
        Gives (search job less inner) s (Survey forge job less inner.key s)
          fun _ _ => ¬ Barren forge job s.depths less inner.key := by
      intro less hless inner s hs
      obtain rfl := Nat.succ.inj hless
      exact ih inner hs
    refine ((gives_searchKept_left hjob place hsearch hs).and (hfinding (budget + 1) place hs)).imp
      (fun result t hafter => ?_) fun _ _ hafter => hafter.1
    exact ⟨hafter.1.1, hafter.2.least, hafter.1.2⟩

end Passing

end Walk

end DependencyFiles
