import DependencyFiles.Proofs.Readings

/-!
# What searches find

A search finds the least number of levels down at which a directory has a specification,
although it goes by the outcomes of earlier searches. Kept outcomes are right whatever
directory they were kept for, and what they found is among the collected files. All files
that a search collects are specifications that no other specification hides from it.
-/

namespace DependencyFiles.Walk

variable {forge : Forge} {job : Job (List Request)} {s t : Progress (List Request)}

/-- The kept answers are the forge's, the kept outcomes are right, and the specifications that were
found are collected. -/
structure Sound (forge : Forge) (job : Job (List Request)) (s : Progress (List Request)) : Prop
    extends forge.Truthful s where
  least : ∀ kept ∈ s.searched,
    Least (forge.SpecifiedAt job.ecosystem job.settings kept.1) kept.2.budget kept.2.foundAt
  has : ∀ kept ∈ s.searched, ∀ n, kept.2.foundAt = some n →
    forge.HasAt job.ecosystem job.settings s.keys kept.1 n

/-- A collection starts without outcomes. -/
theorem sound_initial (forge : Forge) (job : Job (List Request)) (log : List Request) :
    Sound forge job { cached := { inner := log } } :=
  ⟨Forge.truthful_initial forge log, by simp, by simp⟩

/-- Outcomes stay right when files are added. -/
theorem Sound.more (h : Sound forge job s) (ht : forge.Truthful t)
    (hsearched : t.searched = s.searched) (hkeys : s.keys ⊆ t.keys) : Sound forge job t := by
  refine ⟨ht, ?_, ?_⟩
  · rw [hsearched]
    exact h.least
  · rw [hsearched]
    exact fun kept hkept n hn => (h.has kept hkept n hn).mono hkeys

/-- Asking leaves files and outcomes as they are. -/
theorem Sound.asked (h : Sound forge job s) {cached : Cached (List Request)}
    (ht : forge.Truthful { s with cached }) : Sound forge job { s with cached } :=
  h.more ht rfl fun _ hkey => hkey

/-- A file that was asked for leaves the outcomes right. -/
theorem Sound.read (h : Sound forge job s) {place : Place} {role : DependencyFile.Role}
    (hread : AfterRead forge job place role s t) : Sound forge job t :=
  h.more hread.truthful hread.searched_eq.1 hread.keys_subset

/-- The smaller of two depths is one of them. -/
theorem shallower_eq_some {a b : Option Nat} {n : Nat} (h : shallower a b = some n) :
    a = some n ∨ b = some n := by
  cases a with
  | none => exact .inr h
  | some k =>
    cases b with
    | none => exact .inl h
    | some m =>
      simp only [shallower, Option.some_inj] at h ⊢
      omega

/-- A collected file can be read. -/
theorem isSome_content? (h : forge.Truthful s) {key : Key} (hkey : key ∈ s.keys) :
    (forge.content? key).isSome = true := by
  obtain ⟨file, hfile, rfl⟩ := List.mem_map.1 hkey
  rw [h.content?_eq hfile]
  rfl

variable (hjob : job.provider = forge.provider)

include hjob

/-- Reading specifications collects all that can be read and scans those that are new. -/
theorem gives_readSpecifications (places : List Place) {P : Place → Prop} (hs : Sound forge job s)
    (hP : ∀ place ∈ places, (forge.content? place.key).isSome = true → P place) :
    Gives (readSpecifications job places) s (fun result t => Sound forge job t ∧
      (result.1 = true ↔ ∃ place ∈ places, (forge.content? place.key).isSome = true) ∧
      (∀ place ∈ places, (forge.content? place.key).isSome = true → place.key ∈ t.keys) ∧
      Gains job P result.2 s t) fun _ _ => True := by
  induction places generalizing s with
  | nil => exact ⟨hs, by simp, by simp, .none rfl rfl⟩
  | cons place rest ih =>
    have hrest : ∀ other ∈ rest, (forge.content? other.key).isSome = true → P other :=
      fun other hother => hP other (List.mem_cons_of_mem _ hother)
    unfold readSpecifications
    rw [gives_bind, gives_isCollected]
    split
    · -- A collected specification counts as found and is not scanned again.
      have hkey := isCollected_iff.1 ‹_›
      have hread := isSome_content? hs.toTruthful hkey
      rw [gives_bind]
      apply (ih hs hrest).mono
      intro result t hafter
      obtain ⟨found, leads⟩ := result
      obtain ⟨ht, -, hall, hgains⟩ := hafter
      refine ⟨ht, by simp [hread], ?_, hgains⟩
      simp only [List.mem_cons, forall_eq_or_imp]
      exact ⟨fun _ => hgains.keys_subset hkey, hall⟩
    · have hnew : place.key ∉ s.keys := fun hkey => absurd (isCollected_iff.2 hkey) ‹_›
      rw [gives_bind]
      apply (gives_readOptional hjob hs.toTruthful place .specification).mono
      intro text t hafter
      obtain ⟨rfl, hread⟩ := hafter
      cases hcontent : forge.content? place.key with
      | none =>
        apply (ih (hs.read hread) hrest).mono
        intro result u hafter
        obtain ⟨hu, hfound, hall, hgains⟩ := hafter
        refine ⟨hu, by simpa [hcontent] using hfound, by simpa [hcontent] using hall, ?_⟩
        exact (Gains.none (hread.files_of_none hcontent) hread.searched_eq.2).trans hgains
      | some content =>
        simp only [Option.map_some, gives_bind]
        apply (gives_scan place _).mono
        intro leads _ hafter
        obtain ⟨rfl, references, hscan, rfl⟩ := hafter
        apply (ih (hs.read hread) hrest).mono
        intro result u hafter
        obtain ⟨found, more⟩ := result
        obtain ⟨hu, -, hall, hgains⟩ := hafter
        refine ⟨hu, by simp [hcontent], ?_, ?_⟩
        · simp only [List.mem_cons, forall_eq_or_imp]
          refine ⟨fun _ => hgains.keys_subset ?_, hall⟩
          exact hread.mem_keys.2 (.inr ⟨rfl, by simp [hcontent]⟩)
        · have hplace : P place := hP place List.mem_cons_self (by simp [hcontent])
          have hthis : Gains job P (references.map (⟨·, place, false⟩)) s _ :=
            ⟨⟨_, hread.files_of_some hnew hcontent, by
              simpa using Scanned.cons hplace hscan .nil⟩, hread.searched_eq.2⟩
          exact hthis.trans hgains

/-- An entry leads where the forge says, and stays in mounted checkouts. -/
theorem tells_entryPlace? (place : Place) (entry : Entry) :
    Tells forge (entryPlace? job place entry) fun found =>
      found.map Place.key = forge.into? place.key.1 entry ∧
      ∀ root entries, forge.Mounted root place.mount → forge.listing? place.key = some entries →
        entry ∈ entries → ∀ inner ∈ found, forge.Mounted root inner.mount := by
  unfold entryPlace? Forge.into?
  refine .ite (fun hkind => ?_) fun hkind => ?_
  · refine (tells_enter? hjob _ _).imp ?_
    intro _ hthis
    obtain rfl := hthis
    refine ⟨?_, fun root entries hroot hlist hentry inner hinner => ?_⟩
    · rw [if_pos hkind, Option.map_map]
      rfl
    obtain ⟨checkout, hinside, rfl⟩ := Option.map_eq_some_iff.1 hinner
    exact .enter hroot hlist hentry hkind hinside
  · refine .pure ⟨by simp [hkind, Place.key, Place.moveTo], fun root entries hroot _ _ inner hinner => ?_⟩
    rw [← Option.mem_some_iff.1 hinner]
    exact hroot

omit hjob

/-- What a search in a directory comes to: the least level of a specification within the budget, one
of the specifications at that level, and new specifications that were exposed to the search. -/
structure Finding (forge : Forge) (job : Job (List Request)) (root : Mount) (key : Key) (budget : Nat)
    (s : Progress (List Request)) (result : Option Nat × List Lead) (t : Progress (List Request)) :
    Prop where
  sound : Sound forge job t
  least : Least (forge.SpecifiedAt job.ecosystem job.settings key) budget result.1
  has : ∀ n, result.1 = some n → forge.HasAt job.ecosystem job.settings t.keys key n
  gains : Gains job (fun file => forge.Mounted root file.mount ∧ ∃ n ≤ budget, ∃ target,
    forge.Exposes job.ecosystem job.settings n key target ∧
      file.key ∈ forge.specifications job.ecosystem target) result.2 s t

/-- What a search in the directories of some entries comes to, one level further down. -/
structure FindingBelow (forge : Forge) (job : Job (List Request)) (root : Mount) (checkout : Checkout)
    (entries : List Entry) (budget : Nat) (s : Progress (List Request))
    (result : Option Nat × List Lead) (t : Progress (List Request)) : Prop where
  sound : Sound forge job t
  least : Least (fun n => ∃ inner, forge.LeadsInto job.settings checkout entries inner ∧
    ∃ m, n = m + 1 ∧ forge.SpecifiedAt job.ecosystem job.settings inner m) (budget + 1) result.1
  has : ∀ n, result.1 = some n → ∃ inner, forge.LeadsInto job.settings checkout entries inner ∧
    ∃ m, n = m + 1 ∧ forge.HasAt job.ecosystem job.settings t.keys inner m
  gains : Gains job (fun file => forge.Mounted root file.mount ∧ ∃ inner,
    forge.LeadsInto job.settings checkout entries inner ∧ ∃ n ≤ budget, ∃ target,
      forge.Exposes job.ecosystem job.settings n inner target ∧
        file.key ∈ forge.specifications job.ecosystem target) result.2 s t

/-- A finding one level further down and findings behind the other entries are findings behind all
entries. -/
theorem Finding.cons {root : Mount} {checkout : Checkout} {entry : Entry} {entries : List Entry}
    {key : Key} {budget : Nat} {u : Progress (List Request)} {depth best : Option Nat}
    {leads more : List Lead} (hentry : isSearched job entry = true)
    (hinto : forge.into? checkout entry = some key)
    (hfirst : Finding forge job root key budget s (depth, leads) t)
    (hrest : FindingBelow forge job root checkout entries budget t (best, more) u) :
    FindingBelow forge job root checkout (entry :: entries) budget s
      (shallower (depth.map (· + 1)) best, leads ++ more) u := by
  have hcons (inner : Key) : forge.LeadsInto job.settings checkout (entry :: entries) inner ↔ _ :=
    Forge.leadsInto_cons hentry
  have hkey : forge.LeadsInto job.settings checkout (entry :: entries) key := (hcons key).2 (.inl hinto)
  refine ⟨hrest.sound, ?_, fun n hn => ?_, ?_⟩
  · refine (hfirst.least.succ.shallower hrest.least).congr fun n => ⟨?_, ?_⟩
    · intro hthis
      rcases hthis with ⟨m, rfl, hspecified⟩ | ⟨inner, hinner, hspecified⟩
      · exact ⟨key, hkey, m, rfl, hspecified⟩
      · exact ⟨inner, (hcons inner).2 (.inr hinner), hspecified⟩
    · intro hthis
      obtain ⟨inner, hinner, m, rfl, hspecified⟩ := hthis
      rcases (hcons inner).1 hinner with hinner | hinner
      · rw [hinto, Option.some_inj] at hinner
        exact .inl ⟨m, rfl, hinner ▸ hspecified⟩
      · exact .inr ⟨inner, hinner, m, rfl, hspecified⟩
  · rcases shallower_eq_some hn with hdepth | hbest
    · obtain ⟨m, hm, rfl⟩ := Option.map_eq_some_iff.1 hdepth
      exact ⟨key, hkey, m, rfl, (hfirst.has m hm).mono hrest.gains.keys_subset⟩
    · obtain ⟨inner, hinner, hhas⟩ := hrest.has n hbest
      exact ⟨inner, (hcons inner).2 (.inr hinner), hhas⟩
  · refine (hfirst.gains.imp fun file hfile => ?_).trans (hrest.gains.imp fun file hfile => ?_)
    · exact ⟨hfile.1, key, hkey, hfile.2⟩
    · obtain ⟨hmounted, inner, hinner, hexposed⟩ := hfile
      exact ⟨hmounted, inner, (hcons inner).2 (.inr hinner), hexposed⟩

/-- With nothing to search there is nothing to find. -/
theorem FindingBelow.nil {root : Mount} {checkout : Checkout} {budget : Nat}
    (hs : Sound forge job s) : FindingBelow forge job root checkout [] budget s (none, []) s := by
  refine ⟨hs, ?_, by simp, .none rfl rfl⟩
  intro m _ hafter
  obtain ⟨inner, ⟨entry, hentry, -⟩, -⟩ := hafter
  cases hentry

/-- An entry that leads nowhere may be left out. -/
theorem FindingBelow.skip {root : Mount} {checkout : Checkout} {entry : Entry} {entries : List Entry}
    {budget : Nat} {result : Option Nat × List Lead} (hentry : isSearched job entry = true)
    (hinto : forge.into? checkout entry = none)
    (h : FindingBelow forge job root checkout entries budget s result t) :
    FindingBelow forge job root checkout (entry :: entries) budget s result t := by
  have hcons (inner : Key) : forge.LeadsInto job.settings checkout (entry :: entries) inner ↔
      forge.LeadsInto job.settings checkout entries inner := by
    rw [Forge.leadsInto_cons hentry, hinto]
    simp
  obtain ⟨hsound, hleast, hhas, hgains⟩ := h
  refine ⟨hsound, ?_, ?_, ?_⟩
  all_goals simp only [hcons]; assumption

variable (hjob : job.provider = forge.provider) {root : Mount}

include hjob

/-- Searching the directories of entries finds what searching each of them finds. -/
theorem gives_searchEntries {place : Place} {listed : List Entry} {budget : Nat}
    {descend : Place → Walk (List Request) (Option Nat × List Lead)}
    (hdescend : ∀ inner s, forge.Mounted root inner.mount → Sound forge job s →
      Gives (descend inner) s (Finding forge job root inner.key budget s) fun _ _ => True)
    (hroot : forge.Mounted root place.mount) (hlist : forge.listing? place.key = some listed)
    (entries : List Entry) (hentries : ∀ entry ∈ entries, isSearched job entry = true ∧ entry ∈ listed)
    (hs : Sound forge job s) :
    Gives (searchEntries job place descend entries) s
      (FindingBelow forge job root place.key.1 entries budget s) fun _ _ => True := by
  induction entries generalizing s with
  | nil => exact .nil hs
  | cons entry rest ih =>
    obtain ⟨hsearched, hentry⟩ := hentries entry List.mem_cons_self
    have hrest := fun other hother => hentries other (List.mem_cons_of_mem _ hother)
    unfold searchEntries
    rw [gives_bind]
    apply (tells_entryPlace? hjob place entry s hs.toTruthful).mono
    intro found _ hafter
    obtain ⟨⟨hinto, hmounted⟩, ht, cached, rfl⟩ := hafter
    have hasked := hs.asked ht
    cases found with
    | none =>
      apply (ih hrest hasked).mono
      intro result t hafter
      obtain ⟨hsound, hleast, hhas, hfiles, hunreachable⟩ := hafter
      exact .skip hsearched hinto.symm ⟨hsound, hleast, hhas, hfiles, hunreachable⟩
    | some inner =>
      dsimp only
      rw [gives_bind]
      apply (hdescend inner _ (hmounted root listed hroot hlist hentry inner rfl) hasked).mono
      intro result t hfirst
      obtain ⟨depth, leads⟩ := result
      rw [gives_bind]
      apply (ih hrest hfirst.sound).mono
      intro result u hmore
      obtain ⟨best, more⟩ := result
      obtain ⟨hsound, hleast, hhas, hfiles, hunreachable⟩ := hfirst
      exact Finding.cons hsearched hinto.symm ⟨hsound, hleast, hhas, hfiles, hunreachable⟩ hmore

/-- The specifications that a listing shows, as places. -/
def shownPlaces (job : Job (List Request)) (place : Place) (entries : List Entry) : List Place :=
  (entries.filter fun entry => entry.isFile && job.ecosystem.isSpecification entry.name).map
    fun entry => place.moveTo entry.path

omit hjob in
/-- The specifications of a directory are the shown ones that can be read. -/
theorem specifications_eq {place : Place} {entries : List Entry}
    (hlist : forge.listing? place.key = some entries) :
    forge.specifications job.ecosystem place.key =
      ((shownPlaces job place entries).map Place.key).filter fun file => (forge.content? file).isSome := by
  simp only [Forge.specifications, hlist, Forge.shownSpecifications, shownPlaces, List.map_map]
  rfl

/-- Reading the specifications that a directory shows collects all that it has. -/
theorem gives_readShown {place : Place} {entries : List Entry}
    (hroot : forge.Mounted root place.mount) (hlist : forge.listing? place.key = some entries)
    (hs : Sound forge job s) :
    Gives (readSpecifications job (shownPlaces job place entries)) s (fun result t =>
      Sound forge job t ∧ (result.1 = true ↔ forge.specifications job.ecosystem place.key ≠ []) ∧
      forge.specifications job.ecosystem place.key ⊆ t.keys ∧
      Gains job (fun file => forge.Mounted root file.mount ∧
        file.key ∈ forge.specifications job.ecosystem place.key) result.2 s t) fun _ _ => True := by
  have hmem (file : Place) (hfile : file ∈ shownPlaces job place entries)
      (hcontent : (forge.content? file.key).isSome = true) :
      forge.Mounted root file.mount ∧ file.key ∈ forge.specifications job.ecosystem place.key := by
    rw [specifications_eq hlist]
    refine ⟨?_, List.mem_filter.2 ⟨List.mem_map_of_mem hfile, hcontent⟩⟩
    obtain ⟨entry, -, rfl⟩ := List.mem_map.1 hfile
    exact hroot
  apply (gives_readSpecifications hjob _ hs hmem).mono
  intro result t hafter
  obtain ⟨ht, hfound, hall, hgains⟩ := hafter
  refine ⟨ht, hfound.trans ?_, ?_, hgains⟩
  · rw [specifications_eq hlist, Ne, List.filter_eq_nil_iff]
    simp [Option.isSome_iff_ne_none]
  · rw [specifications_eq hlist]
    intro key hkey
    obtain ⟨hkey, hcontent⟩ := List.mem_filter.1 hkey
    obtain ⟨file, hfile, rfl⟩ := List.mem_map.1 hkey
    exact hall file hfile hcontent

omit hjob

/-- A directory with specifications is a finding by itself. -/
theorem Finding.own {key : Key} {budget : Nat} {leads : List Lead} (ht : Sound forge job t)
    (hspecified : forge.specifications job.ecosystem key ≠ [])
    (hall : forge.specifications job.ecosystem key ⊆ t.keys)
    (hgains : Gains job (fun file => forge.Mounted root file.mount ∧
      file.key ∈ forge.specifications job.ecosystem key) leads s t) :
    Finding forge job root key budget s (some 0, leads) t := by
  refine ⟨ht, ⟨Nat.zero_le _, Forge.specifiedAt_zero.2 hspecified, by simp⟩, ?_, ?_⟩
  · intro n hnone
    cases hnone
    obtain ⟨file, hfile⟩ := List.exists_mem_of_ne_nil _ hspecified
    exact ⟨key, .here key, file, hfile, hall hfile⟩
  · exact hgains.imp fun file hfile => ⟨hfile.1, 0, Nat.zero_le _, key, .here key, hfile.2⟩

/-- A directory without specifications is not specified at all when nothing is searched below. -/
theorem Finding.bare {key : Key} {leads : List Lead} (ht : Sound forge job t)
    (hbare : forge.specifications job.ecosystem key = [])
    (hgains : Gains job (fun file => forge.Mounted root file.mount ∧
      file.key ∈ forge.specifications job.ecosystem key) leads s t) :
    Finding forge job root key 0 s (none, leads) t := by
  refine ⟨ht, ?_, by simp, hgains.imp fun file hfile => ?_⟩
  · intro m hm
    obtain rfl : m = 0 := by omega
    rw [Forge.specifiedAt_zero]
    simp [hbare]
  · rw [hbare] at hfile
    cases hfile.2

/-- What is found below a directory without specifications is found in it one level further down. -/
theorem Finding.below {key : Key} {entries : List Entry} {budget : Nat} {depth : Option Nat}
    {leads more : List Lead} {u : Progress (List Request)}
    (hlist : forge.listing? key = some entries)
    (hbare : forge.specifications job.ecosystem key = [])
    (hgains : Gains job (fun file => forge.Mounted root file.mount ∧
      file.key ∈ forge.specifications job.ecosystem key) leads s t)
    (hbelow : FindingBelow forge job root key.1 (entries.filter (isSearched job)) budget t
      (depth, more) u) :
    Finding forge job root key (budget + 1) s (depth, leads ++ more) u := by
  have hinto {inner : Key}
      (h : forge.LeadsInto job.settings key.1 (entries.filter (isSearched job)) inner) :
      forge.Below job.settings key inner := ⟨entries, hlist, Forge.leadsInto_filter.1 h⟩
  refine ⟨hbelow.sound, hbelow.least.congr fun n => ⟨?_, ?_⟩, fun n hn => ?_, ?_⟩
  · intro hthis
    obtain ⟨inner, hinner, m, rfl, hspecified⟩ := hthis
    exact Forge.specifiedAt_succ.2 ⟨inner, hinto hinner, hspecified⟩
  · intro hspecified
    cases n with
    | zero => exact absurd hbare (Forge.specifiedAt_zero.1 hspecified)
    | succ n =>
      obtain ⟨inner, ⟨others, hothers, hinner⟩, hspecified⟩ := Forge.specifiedAt_succ.1 hspecified
      obtain rfl : others = entries := by simpa [hlist] using hothers.symm
      exact ⟨inner, Forge.leadsInto_filter.2 hinner, n, rfl, hspecified⟩
  · obtain ⟨inner, hinner, m, rfl, hhas⟩ := hbelow.has n hn
    exact hhas.succ (hinto hinner)
  · refine (hgains.imp fun file hfile => ?_).trans (hbelow.gains.imp fun file hfile => ?_)
    · rw [hbare] at hfile
      cases hfile.2
    · obtain ⟨hmounted, inner, hinner, n, hn, target, hexposes, hfile⟩ := hfile
      exact ⟨hmounted, n + 1, Nat.succ_le_succ hn, target, .down hbare (hinto hinner) hexposes, hfile⟩

include hjob

/-- Searching a listed directory finds its own specifications or else those further down. -/
theorem gives_searchListed {place : Place} {entries : List Entry} {budget : Nat}
    {descend : Option (Place → Walk (List Request) (Option Nat × List Lead))}
    (hstop : descend = none → budget = 0)
    (hdescend : ∀ f ∈ descend, ∃ less, budget = less + 1 ∧ ∀ inner s,
      forge.Mounted root inner.mount → Sound forge job s →
        Gives (f inner) s (Finding forge job root inner.key less s) fun _ _ => True)
    (hroot : forge.Mounted root place.mount) (hlist : forge.listing? place.key = some entries)
    (hs : Sound forge job s) :
    Gives (searchListed job descend place entries) s
      (Finding forge job root place.key budget s) fun _ _ => True := by
  unfold searchListed
  rw [gives_bind]
  apply (gives_readShown hjob hroot hlist hs).mono
  intro result t hafter
  obtain ⟨found, leads⟩ := result
  obtain ⟨ht, hfound, hall, hgains⟩ := hafter
  cases found with
  | true => exact .own ht (hfound.1 rfl) hall hgains
  | false =>
    have hbare : forge.specifications job.ecosystem place.key = [] := by simpa using hfound
    cases descend with
    | none =>
      obtain rfl := hstop rfl
      exact .bare ht hbare hgains
    | some descend =>
      obtain ⟨less, rfl, hinner⟩ := hdescend descend rfl
      have hentries : ∀ entry ∈ entries.filter (isSearched job),
          isSearched job entry = true ∧ entry ∈ entries :=
        fun entry hentry => (List.mem_filter.1 hentry).symm
      simp only [Bool.false_eq_true, if_false, gives_bind]
      apply (gives_searchEntries hjob hinner hroot hlist _ hentries ht).mono
      intro result u hbelow
      obtain ⟨depth, more⟩ := result
      exact .below hlist hbare hgains hbelow

omit hjob in
/-- An outcome that is kept from now on is as right as the finding it comes from. -/
theorem Sound.keep (h : Sound forge job s) {key : Key} {outcome : SearchOutcome}
    (hleast : Least (forge.SpecifiedAt job.ecosystem job.settings key) outcome.budget outcome.foundAt)
    (hhas : ∀ n, outcome.foundAt = some n →
      forge.HasAt job.ecosystem job.settings s.keys key n) :
    Sound forge job { s with searched := (key, outcome) :: s.searched } := by
  refine ⟨⟨h.commits, h.listings, h.contents, h.files⟩, fun kept hkept => ?_, fun kept hkept => ?_⟩
  · rcases List.mem_cons.1 hkept with rfl | hkept
    · exact hleast
    · exact h.least kept hkept
  · rcases List.mem_cons.1 hkept with rfl | hkept
    · exact hhas
    · exact h.has kept hkept

/-- A search that goes by earlier outcomes finds what there is to find. -/
theorem gives_searchKept {place : Place} {budget : Nat}
    {descend : Option (Place → Walk (List Request) (Option Nat × List Lead))}
    (hstop : descend = none → budget = 0)
    (hdescend : ∀ f ∈ descend, ∃ less, budget = less + 1 ∧ ∀ inner s,
      forge.Mounted root inner.mount → Sound forge job s →
        Gives (f inner) s (Finding forge job root inner.key less s) fun _ _ => True)
    (hroot : forge.Mounted root place.mount) (hs : Sound forge job s) :
    Gives (searchKept job budget descend place) s
      (Finding forge job root place.key budget s) fun _ _ => True := by
  unfold searchKept
  rw [gives_bind, gives_get]
  dsimp only
  split
  · rename_i depth hknown
    obtain ⟨outcome, hlookup, hanswer⟩ := Option.bind_eq_some_iff.1 hknown
    have hkept := mem_of_lookup hlookup
    refine ⟨hs, (hs.least _ hkept).answer hanswer, ?_, .none rfl rfl⟩
    intro n hthis
    obtain rfl := hthis
    exact hs.has _ hkept n (SearchOutcome.foundAt_of_answer hanswer)
  · rw [gives_bind]
    apply (tells_list? hjob place s hs.toTruthful).mono
    intro _ _ hafter
    obtain ⟨rfl, ht, cached, rfl⟩ := hafter
    have hasked := hs.asked ht
    cases hlist : forge.listing? place.key with
    | none =>
      exact ⟨hasked, fun m _ => Forge.not_specifiedAt hlist m, by simp, .none rfl rfl⟩
    | some entries =>
      dsimp only
      rw [gives_bind]
      apply (gives_searchListed hjob hstop hdescend hroot hlist hasked).mono
      intro result t hafter
      obtain ⟨depth, leads⟩ := result
      obtain ⟨ht, hleast, hhas, hfiles, hunreachable⟩ := hafter
      exact ⟨ht.keep hleast hhas, hleast, hhas, hfiles, hunreachable⟩

/-- A search finds the least level of a specification within its budget, whatever was searched
before. -/
theorem gives_search (budget : Nat) {place : Place} (hroot : forge.Mounted root place.mount)
    (hs : Sound forge job s) :
    Gives (search job budget place) s
      (Finding forge job root place.key budget s) fun _ _ => True := by
  induction budget generalizing place s with
  | zero => exact gives_searchKept hjob (fun _ => rfl) (by simp) hroot hs
  | succ budget ih =>
    refine gives_searchKept hjob (by simp) (fun descend hdescend => ⟨budget, rfl, ?_⟩) hroot hs
    rw [← Option.mem_some_iff.1 hdescend]
    exact fun inner s hinner hs => ih hinner hs

end DependencyFiles.Walk
