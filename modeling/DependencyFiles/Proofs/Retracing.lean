import DependencyFiles.Proofs.Repeats
import DependencyFiles.Proofs.Residue
import DependencyFiles.Proofs.Verdicts

/-!
# Following a lead again

A search leaves an outcome behind that settles it, and no later search replaces an outcome that
settles searches as deep as any a collection makes. Together with what is kept of questions and
files this decides all that a visit asks. So a lead that was followed without a failure gives
nothing new when it is followed again, whatever was followed in between.
-/

namespace DependencyFiles

namespace SearchOutcome

/-- An outcome settles no search as finding something beyond its budget. -/
theorem le_of_answer {budget n : Nat} (outcome : SearchOutcome)
    (h : outcome.answer? budget = some (some n)) : n ≤ budget := by
  have hfound := foundAt_of_answer h
  rw [answer?, hfound] at h
  dsimp only at h
  split at h
  · assumption
  · cases h

/-- The outcome of a search settles the same search. -/
theorem answer?_self {found : Option Nat} {budget : Nat} (h : ∀ n ∈ found, n ≤ budget) :
    answer? ⟨found, budget⟩ budget = some found := by
  cases found with
  | none => exact if_pos (Nat.le_refl budget)
  | some n => exact congrArg some (if_pos (h n rfl))

end SearchOutcome

namespace Walk

variable {σ α : Type} {budget : Nat}

/-- A step that always has a result and forgets nothing keeps what was known before. -/
theorem Repeats.keeps {x : Walk σ α} {y : Walk σ β} {goes : α → β → Prop}
    (h : Repeats budget x y goes) (hruns : ∀ s, ∃ a t, x s = .ok a t) (origin : Progress σ) :
    Keeps (origin.Recalled budget) x := by
  intro s hs
  obtain ⟨a, t, hrun⟩ := hruns s
  unfold Gives
  rw [hrun]
  exact hs.trans (h s a t hrun).1

section Searching

variable {forge : Forge} {job : Job (List Request)} (hjob : job.provider = forge.provider)

include hjob in
/-- Asking and reading forget nothing. -/
theorem recalled_keptByReading (origin : Progress (List Request)) :
    KeptByReading job (origin.Recalled budget) where
  resolve repo reference :=
    (repeats_ask (lasting_openCheckout job repo reference)).keeps (fun _ => ⟨_, _, rfl⟩) origin
  list checkout path :=
    (repeats_ask (lasting_list job checkout path)).keeps (fun _ => ⟨_, _, rfl⟩) origin
  target entry := (repeats_ask (lasting_target hjob entry)).keeps (fun _ => ⟨_, _, rfl⟩) origin
  read place role :=
    (repeats_readCollecting job place role).keeps
      (fun s => ⟨_, _, readCollecting_eq job place role s⟩) origin

/-- What settles a search also settles one that goes down less far. -/
theorem isSome_settled {s : Progress σ} {key : Key} {less : Nat} {found : Option Nat}
    (hless : less ≤ budget) (h : (s.searched.lookup key).bind (·.answer? budget) = some found) :
    (s.searched.lookup key).bind (·.answer? less) ≠ none := by
  obtain ⟨outcome, hlookup, hanswer⟩ := Option.bind_eq_some_iff.1 h
  rw [hlookup, Option.bind_some]
  unfold SearchOutcome.answer? at hanswer ⊢
  cases hfound : outcome.foundAt with
  | some depth => simp
  | none =>
    rw [hfound] at hanswer
    dsimp only at hanswer ⊢
    split at hanswer
    · rw [if_pos (Nat.le_trans hless ‹_›)]
      simp
    · cases hanswer

/-- An outcome is kept for a search that was not settled, and so nothing is forgotten. -/
theorem recalled_keep {origin s t : Progress (List Request)} {key : Key} {less : Nat} {found : Option Nat}
    (hless : less ≤ budget) (hs : origin.Recalled budget s)
    (hunsettled : (s.searched.lookup key).bind (·.answer? less) = none) (ht : origin.Recalled budget t) :
    origin.Recalled budget { t with searched := (key, ⟨found, less⟩) :: t.searched } := by
  refine ⟨ht.cached, ht.keys, fun other depth hother => ?_, ht.noted⟩
  have hne : other ≠ key := by
    rintro rfl
    exact isSome_settled hless (hs.settled _ _ hother) hunsettled
  rw [lookup_keep, if_neg hne]
  exact ht.settled other depth hother

section Search

include hjob

/-- Searching a directory forgets nothing when searching below it does not. -/
theorem recalled_searchKept (origin : Progress (List Request)) {less : Nat} (hless : less ≤ budget)
    (hdescent : ∀ f ∈ descent job less, ∀ inner, Keeps (origin.Recalled budget) (f inner))
    (place : Place) : Keeps (origin.Recalled budget) (search job less place) := by
  intro s hs
  have hkept : KeptByReading job (origin.Recalled budget) := recalled_keptByReading hjob origin
  cases hsettled : (s.searched.lookup place.key).bind (·.answer? less) with
  | some depth =>
    unfold Gives
    rw [search_of_settled hsettled]
    exact hs
  | none =>
    unfold Gives
    rw [search_of_unsettled hsettled]
    refine (gives_bind ..).2 ((hkept.list? place s hs).imp (fun entries t ht => ?_) fun _ _ h => h)
    cases entries with
    | none => exact ht
    | some entries =>
      refine (gives_bind ..).2 ((hkept.searchListed hdescent place entries t ht).imp
        (fun result u hu => ?_) fun _ _ h => h)
      exact recalled_keep hless hs hsettled hu

/-- A search forgets nothing that settles searches that go down at least as far. -/
theorem recalled_search (origin : Progress (List Request)) {less : Nat} (hless : less ≤ budget)
    (place : Place) : Keeps (origin.Recalled budget) (search job less place) := by
  induction less generalizing place with
  | zero => exact recalled_searchKept hjob origin hless nofun place
  | succ less ih =>
    refine recalled_searchKept hjob origin hless (fun f hf inner => ?_) place
    rw [← Option.mem_some_iff.1 hf]
    exact ih (Nat.le_of_succ_le hless) inner

end Search

/-- What is found below a directory is found at most one level further down than from there. -/
theorem le_of_searchEntries {place : Place} {less : Nat}
    {descend : Place → Walk (List Request) (Option Nat × List Lead)}
    (hdescend : ∀ inner s result t, descend inner s = .ok result t → ∀ n ∈ result.1, n ≤ less)
    {entries : List Entry} {s t : Progress (List Request)} {result : Option Nat × List Lead}
    (h : searchEntries job place descend entries s = .ok result t) : ∀ n ∈ result.1, n ≤ less + 1 := by
  induction entries generalizing s t result with
  | nil =>
    cases h
    exact nofun
  | cons entry rest ih =>
    obtain ⟨inner, u, -, h⟩ := bind_eq_ok.1 h
    cases inner with
    | none => exact ih h
    | some inner =>
      obtain ⟨⟨depth, leads⟩, v, hfirst, h⟩ := bind_eq_ok.1 h
      obtain ⟨⟨best, more⟩, w, hrest, h⟩ := bind_eq_ok.1 h
      cases h
      intro n hn
      rcases shallower_eq_some (Option.mem_def.1 hn) with hdepth | hbest
      · obtain ⟨m, hm, rfl⟩ := Option.map_eq_some_iff.1 hdepth
        exact Nat.succ_le_succ (hdescend inner u _ v hfirst m hm)
      · exact ih hrest n hbest

/-- What a search of a listed directory finds is within its budget. -/
theorem le_of_searchListed {place : Place} {entries : List Entry} {s t : Progress (List Request)}
    {result : Option Nat × List Lead}
    (hdescent : ∀ less, budget = less + 1 → ∀ inner s result t,
      search job less inner s = .ok result t → ∀ n ∈ result.1, n ≤ less)
    (h : searchListed job (descent job budget) place entries s = .ok result t) :
    ∀ n ∈ result.1, n ≤ budget := by
  obtain ⟨⟨found, leads⟩, u, -, h⟩ := bind_eq_ok.1 h
  cases found with
  | true =>
    cases h
    exact fun n hn => Option.mem_some_iff.1 hn ▸ Nat.zero_le _
  | false =>
    cases budget with
    | zero =>
      cases h
      exact nofun
    | succ less =>
      obtain ⟨⟨depth, more⟩, v, hbelow, h⟩ := bind_eq_ok.1 h
      cases h
      have hdepth := le_of_searchEntries (hdescent less rfl) hbelow
      exact hdepth

/-- What a search finds is within its budget. -/
theorem le_of_search {place : Place} {s t : Progress (List Request)} {result : Option Nat × List Lead}
    (h : search job budget place s = .ok result t) : ∀ n ∈ result.1, n ≤ budget := by
  induction budget using Nat.strongRecOn generalizing place s t result with
  | _ budget ih =>
    cases hsettled : (s.searched.lookup place.key).bind (·.answer? budget) with
    | some depth =>
      rw [search_of_settled hsettled] at h
      cases h
      rintro n rfl
      obtain ⟨outcome, -, hanswer⟩ := Option.bind_eq_some_iff.1 hsettled
      exact outcome.le_of_answer hanswer
    | none =>
      rw [search_of_unsettled hsettled] at h
      obtain ⟨entries, u, -, h⟩ := bind_eq_ok.1 h
      cases entries with
      | none =>
        cases h
        exact nofun
      | some entries =>
        obtain ⟨⟨depth, leads⟩, v, hlisted, h⟩ := bind_eq_ok.1 h
        cases h
        exact le_of_searchListed (fun less hless _ _ _ _ => ih less (by omega)) hlisted

/-- A search that is repeated is settled: it finds something when something was found, and gives no
leads. -/
theorem repeats_search (hjob : job.provider = forge.provider) (place : Place) :
    Repeats budget (search job budget place) (search job budget place) fun first second =>
      second.2 = [] ∧ (first.1.isSome = true → second.1.isSome = true) := by
  intro s result t hrun
  refine ⟨(recalled_search hjob s (Nat.le_refl budget) place s (.refl s)).of_ok hrun, fun u hu => ?_⟩
  have hwithin := le_of_search hrun
  cases hsettled : (s.searched.lookup place.key).bind (·.answer? budget) with
  | some depth =>
    rw [search_of_settled hsettled] at hrun
    cases hrun
    exact ⟨_, search_of_settled (hu.settled _ _ hsettled), rfl, id⟩
  | none =>
    rw [search_of_unsettled hsettled] at hrun
    obtain ⟨entries, r, hlist, hrest⟩ := bind_eq_ok.1 hrun
    cases entries with
    | none =>
      cases hrest
      cases hlater : (u.searched.lookup place.key).bind (·.answer? budget) with
      | some depth => exact ⟨_, search_of_settled hlater, rfl, nofun⟩
      | none =>
        obtain ⟨_, hagain, rfl⟩ := (repeats_list? job place s _ _ hlist).2 u hu
        refine ⟨(none, []), ?_, rfl, nofun⟩
        rw [search_of_unsettled hlater]
        exact bind_of_ok hagain
    | some entries =>
      obtain ⟨⟨depth, leads⟩, v, -, hkeep⟩ := bind_eq_ok.1 hrest
      cases hkeep
      refine ⟨_, search_of_settled (hu.settled place.key depth ?_), rfl, id⟩
      rw [lookup_keep, if_pos rfl]
      exact SearchOutcome.answer?_self hwithin

end Searching

section Visiting

variable {forge : Forge} {job : Job (List Request)}

/-- A collected file stays collected. -/
theorem repeats_isCollected (place : Place) :
    Repeats budget (isCollected place : Walk (List Request) Bool) (isCollected place)
      fun first second => first = true → second = true := by
  intro s first t hrun
  cases hrun
  refine ⟨.refl _, fun u hu => ⟨_, rfl, fun hfirst => ?_⟩⟩
  exact isCollected_iff.2 (hu.keys (isCollected_iff.1 hfirst))

/-- What is done only when a file is not collected may have to be done no longer. -/
theorem repeats_unlessCollected (place : Place) {x : Walk (List Request) α} {a : α} {goes : α → α → Prop}
    (hx : Repeats budget x x goes) (ha : ∀ first, goes first a) :
    Repeats budget (isCollected place >>= fun collected => if collected then pure a else x)
      (isCollected place >>= fun collected => if collected then pure a else x) goes := by
  refine (repeats_isCollected place).bind fun first second hcollected => ?_
  cases second with
  | true =>
    cases first with
    | true => exact .pure (ha a)
    | false => exact hx.skip ha
  | false =>
    cases first with
    | true => exact absurd (hcollected rfl) Bool.false_ne_true
    | false => exact hx

/-- A marker that was taken counts as found again. -/
theorem repeats_takeMarker (directory : Place) :
    Repeats budget (takeMarker job directory) (takeMarker job directory)
      fun first second => first = true → second = true := by
  refine repeats_unlessCollected _ ?_ fun _ _ => rfl
  refine (repeats_isListedFile job _).bind_same fun listed => .ite ?_ (.pure id)
  exact (repeats_readOptional job _ _).bind_same fun text => .pure id

/-- A package that is looked for again gives no leads, and is missing only when it was so before. -/
theorem repeats_findPackage (hjob : job.provider = forge.provider) (place : Place) :
    Repeats job.settings.maxSearchDepth (findPackage job place) (findPackage job place)
      fun first second => second.2 = [] ∧ (second.1.isSome = true → first.1.isSome = true) := by
  refine (repeats_locateWithin hjob _ place).bind_same fun directory => ?_
  cases directory with
  | none => exact .pure ⟨rfl, id⟩
  | some directory =>
    refine (repeats_search hjob directory).bind fun first second hsearch => ?_
    obtain ⟨depth, leads⟩ := first
    obtain ⟨depth', leads'⟩ := second
    obtain ⟨rfl, hfound⟩ := hsearch
    have hmarker : Repeats job.settings.maxSearchDepth
        (do
          if ← takeMarker job directory then return (none, leads)
          return (some "no specification file found", leads))
        (do
          if ← takeMarker job directory then return (none, [])
          return (some "no specification file found", []))
        fun (first second : Option String × List Lead) =>
          second.2 = [] ∧ (second.1.isSome = true → first.1.isSome = true) := by
      refine (repeats_takeMarker directory).bind fun taken taken' htaken => ?_
      cases taken' with
      | true => cases taken <;> exact .pure ⟨rfl, nofun⟩
      | false =>
        cases taken with
        | true => exact absurd (htaken rfl) Bool.false_ne_true
        | false => exact .pure ⟨rfl, id⟩
    cases depth' with
    | some _ =>
      cases depth with
      | some _ => exact .pure ⟨rfl, id⟩
      | none => exact hmarker.skip fun _ => ⟨rfl, nofun⟩
    | none =>
      cases depth with
      | some _ => exact absurd (hfound rfl) Bool.false_ne_true
      | none => exact hmarker

/-- A package whose name has been noted is not noted again. -/
theorem repeats_markUnreachable (name reason reason' : String) :
    Repeats budget (markUnreachable name reason : Walk (List Request) Unit)
      (markUnreachable name reason') fun _ _ => True := by
  intro s _ t hrun
  have hnames := unreachableNames_markUnreachable name reason hrun
  have hname : name ∈ t.unreachableNames := by
    rw [hnames]
    split
    · assumption
    · exact List.mem_append_right _ (List.mem_singleton_self name)
  refine ⟨?_, fun u hu => ⟨(), congrArg (EStateM.Result.ok ()) (if_pos ?_), trivial⟩⟩
  · have hnoted : s.unreachableNames ⊆ t.unreachableNames := by
      rw [hnames]
      split
      · exact fun _ => id
      · exact List.subset_append_left _ _
    cases hrun
    refine ⟨?_, ?_, ?_, hnoted⟩
    all_goals
      dsimp only
      split
    · exact .refl _
    · exact .refl _
    · exact fun _ => id
    · exact fun _ => id
    · exact fun _ _ => id
    · exact fun _ _ => id
  · have hlater : name ∈ u.unreachableNames := hu.noted hname
    simpa [Progress.unreachableNames] using hlater

/-- A package that is visited again gives no leads, and it is noted already when it is missing. -/
theorem repeats_visitPackage (hjob : job.provider = forge.provider) (name : String) (place : Place) :
    Repeats job.settings.maxSearchDepth (visitPackage job name place) (visitPackage job name place)
      fun _ again => again = [] := by
  refine (repeats_findPackage hjob place).bind fun first second hfind => ?_
  obtain ⟨reason, leads⟩ := first
  obtain ⟨reason', leads'⟩ := second
  obtain ⟨rfl, hmissing⟩ := hfind
  cases reason with
  | none =>
    cases reason' with
    | none => exact .pure rfl
    | some _ => exact absurd (hmissing rfl) Bool.false_ne_true
  | some reason =>
    cases reason' with
    | none =>
      have hnote : Repeats job.settings.maxSearchDepth
          (do
            markUnreachable name reason
            return leads)
          (do
            markUnreachable name reason
            return leads)
          fun _ _ => True :=
        (repeats_markUnreachable name reason reason).bind fun _ _ _ => .pure trivial
      exact hnote.skip fun _ => rfl
    | some reason' =>
      exact (repeats_markUnreachable name reason reason').bind fun _ _ _ => .pure rfl

/-- A file that had to be read is collected. -/
theorem mem_keys_of_readRequired {place : Place} {role : DependencyFile.Role}
    {s t : Progress (List Request)} {text : String} (h : readRequired job place role s = .ok text t) :
    place.key ∈ t.keys := by
  obtain ⟨answer, u, hread, h⟩ := bind_eq_ok.1 h
  rw [readCollecting_eq] at hread
  cases hanswer : (contentOf job place s.cached).1 with
  | error error =>
    rw [hanswer] at hread
    cases hread
    cases h
  | ok content =>
    rw [hanswer] at hread
    cases hread
    cases h
    exact mem_keys_collecting.2 (.inr rfl)

/-- A child manifest is collected once. -/
theorem repeats_visitChild {base : Place} {authoritative : Bool} {lead : Lead}
    (hkind : lead.reference.kind = .childManifest) :
    Repeats budget (visit job base authoritative lead) (visit job base authoritative lead)
      fun _ again => again = [] := by
  unfold visit
  rw [hkind]
  dsimp only
  intro s found t hrun
  -- Whether it was collected before or by this visit, the manifest is collected afterwards.
  have hafter : s.Recalled budget t ∧ (lead.origin.resolve lead.reference.path).key ∈ t.keys := by
    obtain ⟨collected, r, hcollected, hrest⟩ := bind_eq_ok.1 hrun
    cases hcollected
    by_cases hmem : (lead.origin.resolve lead.reference.path).key ∈ s.keys
    · rw [if_pos (isCollected_iff.2 hmem)] at hrest
      cases hrest
      exact ⟨.refl _, hmem⟩
    · rw [if_neg (mt isCollected_iff.1 hmem)] at hrest
      obtain ⟨text, r, hread, hscan⟩ := bind_eq_ok.1 hrest
      have hsr : s.Recalled budget r := (repeats_readRequired job _ _ s _ r hread).1
      have hrt : r.Recalled budget t := (repeats_scan job _ text r _ t hscan).1
      exact ⟨hsr.trans hrt, hrt.keys (mem_keys_of_readRequired hread)⟩
  refine ⟨hafter.1, fun u hu => ⟨[], ?_, rfl⟩⟩
  have hcollected : (isCollected (lead.origin.resolve lead.reference.path) : Walk (List Request) Bool) u =
      .ok true u :=
    congrArg (EStateM.Result.ok · u) (isCollected_iff.2 (hu.keys hafter.2))
  exact bind_of_ok hcollected

/-- A supporting file that was looked for is looked for again with the same answer. -/
theorem repeats_visitSupport {base : Place} {authoritative : Bool} {lead : Lead}
    (hkind : lead.reference.kind = .supportFile) :
    Repeats budget (visit job base authoritative lead) (visit job base authoritative lead)
      fun _ again => again = [] := by
  unfold visit
  rw [hkind]
  dsimp only
  refine repeats_unlessCollected _ ?_ fun _ => rfl
  refine (repeats_isListedFile job _).bind_same fun listed => .ite ?_ (.pure rfl)
  exact (repeats_readOptional job _ _).bind_same fun text => .pure rfl

/-- A lead that is followed again gives no leads and changes nothing. -/
theorem repeats_visit (hjob : job.provider = forge.provider) (base : Place) (authoritative : Bool)
    (lead : Lead) : Repeats job.settings.maxSearchDepth (visit job base authoritative lead)
      (visit job base authoritative lead) fun _ again => again = [] := by
  cases hkind : lead.reference.kind with
  | childManifest => exact repeats_visitChild hkind
  | supportFile => exact repeats_visitSupport hkind
  | pathDependency name =>
    unfold visit
    rw [hkind]
    exact .ite (.pure rfl) (repeats_visitPackage hjob name _)

end Visiting

/-- A collection on its way, with the leads that it has followed so far and those on its stack. -/
inductive Retraced (job : Job σ) (repo reference : String) (initial : Progress σ)
    (checkout : Checkout) (first : Start) : (done stack : List Lead) → Progress σ → Prop
  | begun {opened started : Progress σ}
      (hopen : askOr (Cached.openCheckout job.provider repo reference) .provider initial =
        .ok checkout opened)
      (hstart : start job ⟨checkout, .root⟩ opened = .ok first started) :
      Retraced job repo reference initial checkout first [] first.leads started
  | followed {done rest found : List Lead} {lead : Lead} {s t : Progress σ}
      (hbefore : Retraced job repo reference initial checkout first done (lead :: rest) s)
      (hvisit : visit job first.directory first.authoritative lead s = .ok found t) :
      Retraced job repo reference initial checkout first (done ++ [lead]) (found ++ rest) t

namespace Retraced

variable {job : Job σ} {repo reference : String} {initial : Progress σ} {checkout : Checkout}
  {first : Start} {done stack : List Lead} {s : Progress σ}

/-- A collection on its way that follows its leads to the end has followed them all. -/
theorem follows (h : Retraced job repo reference initial checkout first done stack s)
    {visited : List (Visited σ)} {u : Progress σ}
    (hfollows : Follows (visit job first.directory first.authoritative) stack s visited u) :
    Retraced job repo reference initial checkout first (done ++ visited.map Visited.lead) [] u := by
  induction hfollows generalizing done with
  | done s => simpa using h
  | step v hvisit _ ih => simpa using ih (h.followed hvisit)

end Retraced

/-- At the end of its course a collection has followed all the leads on it. -/
theorem Course.retraced {job : Job σ} {repo reference : String} {initial : Progress σ}
    (course : Course job repo reference initial) :
    Retraced job repo reference initial course.checkout course.start
      (course.visited.map Visited.lead) [] course.final :=
  (Retraced.begun course.open_eq course.start_eq).follows course.follows

/-- Each lead that has been followed gives nothing and changes nothing from then on. -/
theorem Retraced.spent {forge : Forge} {job : Job (List Request)} (hjob : job.provider = forge.provider)
    {repo reference : String} {initial s : Progress (List Request)} {checkout : Checkout} {first : Start}
    {done stack : List Lead} (h : Retraced job repo reference initial checkout first done stack s) :
    ∀ lead ∈ done, ∀ u, s.Recalled job.settings.maxSearchDepth u →
      visit job first.directory first.authoritative lead u = .ok [] u := by
  induction h with
  | begun => exact nofun
  | @followed done rest found last s t _ hlast ih =>
    obtain ⟨hst, hlater⟩ := repeats_visit hjob first.directory first.authoritative last s found t hlast
    intro lead hlead u hu
    rcases List.mem_append.1 hlead with hlead | hlead
    · exact ih lead hlead u (hst.trans hu)
    · obtain ⟨_, hrun, rfl⟩ := hlater u hu
      exact List.mem_singleton.1 hlead ▸ hrun

end Walk

/-- Following a lead a second time costs nothing: in every state that a collection comes to, each lead
that it has followed before gives no leads and leaves the whole state as it is, with its files, its
requests and the packages noted as unreachable. -/
theorem Collector.visit_again (forge : Forge) (ecosystem : Ecosystem) (settings : Settings)
    (extent : Extent) (source : Source) (log : List Request) {checkout : Checkout} {first : Walk.Start}
    {done stack : List Lead} {s : Progress (List Request)}
    (h : Walk.Retraced ((forge.collector ecosystem settings extent).job source) source.repo
      ((forge.collector ecosystem settings extent).reference source) { cached := { inner := log } }
      checkout first done stack s) :
    ∀ lead ∈ done, Walk.visit ((forge.collector ecosystem settings extent).job source) first.directory
      first.authoritative lead s = .ok [] s :=
  fun lead hlead => h.spent rfl lead hlead s (.refl s)

/-- When all leads in this forge have been followed, the one to the missing package may be followed
again. -/
theorem Collector.visit_again_depot :
    ∃ checkout first done s,
      Walk.Retraced ((Forge.depot.collector .bundler {} Forge.depot.extent).job
        ⟨"forge", "org/app", none, .root⟩) "org/app" "HEAD" { cached := { inner := [] } } checkout first
        done [] s ∧
      s.unreachableNames = ["c"] ∧ ∃ lead ∈ done, lead.reference.kind = .pathDependency "c" ∧
        Walk.visit ((Forge.depot.collector .bundler {} Forge.depot.extent).job
          ⟨"forge", "org/app", none, .root⟩) first.directory first.authoritative lead s = .ok [] s := by
  obtain ⟨files, unreachable, hrun, -, hnames⟩ := harvest_depot
  obtain ⟨course, -, hunreachable, -⟩ := exists_course hrun
  have hfinal : course.final.unreachableNames = ["c"] := by
    rw [Progress.unreachableNames, hunreachable, hnames]
  have hname : "c" ∈ course.final.unreachableNames := hfinal ▸ List.mem_singleton_self "c"
  rw [course.unreachableNames_final rfl, List.mem_eraseDups] at hname
  obtain ⟨visited, hvisited, hnoted⟩ := List.mem_filterMap.1 hname
  have hlead : visited.lead ∈ course.visited.map Walk.Visited.lead := List.mem_map_of_mem hvisited
  exact ⟨_, _, _, _, course.retraced, hfinal, visited.lead, hlead, (Walk.noted?_eq_some hnoted).1,
    visit_again _ _ _ _ _ _ course.retraced _ hlead⟩

end DependencyFiles
