import DependencyFiles.Proofs.Abreast
import DependencyFiles.Proofs.Packages
import DependencyFiles.Proofs.Surveys

/-!
# The residue of searches that find nothing

Two collections from one forge may have asked different questions before, noted different
packages, and searched in vain in different directories. As long as they have collected the
same files and found the same, nothing of that makes a difference: every step gives the same
result in both, and they stay alike.
-/

namespace DependencyFiles.Walk

variable {forge : Forge} {job : Job (List Request)} {s t u : Progress (List Request)}

/-- Two states with the same files, in which the same is known to be found. -/
structure Matched (forge : Forge) (job : Job (List Request)) (s t : Progress (List Request)) : Prop where
  left : Surveyed forge job s
  right : Surveyed forge job t
  files : t.files = s.files
  depths : t.depths = s.depths

/-- Two collections go on in matched states; after a halt nothing is said of them. -/
def matchedBond (forge : Forge) (job : Job (List Request)) : Bond (List Request) (List Request) where
  going := Matched forge job
  halted _ _ _ := True

namespace Matched

/-- The same files have the same keys. -/
theorem keys_eq (h : Matched forge job s t) : t.keys = s.keys := by
  unfold Progress.keys
  rw [h.files]

/-- States stay matched when both sides ask. -/
theorem asked (h : Matched forge job s t) {cached cached' : Cached (List Request)}
    (hs : forge.Truthful { s with cached }) (ht : forge.Truthful { t with cached := cached' }) :
    Matched forge job { s with cached } { t with cached := cached' } where
  left := h.left.asked hs
  right := h.right.asked ht
  files := h.files
  depths := h.depths

/-- States stay matched when one side notes a package. -/
theorem note (h : Matched forge job s t) (name reason : String) :
    Gives (markUnreachable name reason) s (fun _ u => Matched forge job u t) fun _ _ => True := by
  unfold markUnreachable
  rw [gives_modify]
  split
  · exact h
  · have htruthful : forge.Truthful
        { s with unreachable := s.unreachable ++ [⟨name, reason⟩] } :=
      ⟨h.left.commits, h.left.listings, h.left.contents, h.left.toSound.files⟩
    exact ⟨h.left.more (h.left.toSound.more htruthful rfl fun _ hkey => hkey) rfl, h.right, h.files,
      h.depths⟩

/-- States stay matched when both sides read the same file. -/
theorem read (h : Matched forge job s t) {s' t' : Progress (List Request)} {place : Place}
    {role : DependencyFile.Role} (hs : AfterRead forge job place role s s')
    (ht : AfterRead forge job place role t t') : Matched forge job s' t' := by
  have hleft := Left.of_searched_eq (p := True) h.left (h.left.toSound.read hs) hs.searched_eq.1
  have hright := Left.of_searched_eq (p := True) h.right (h.right.toSound.read ht) ht.searched_eq.1
  refine ⟨hleft.surveyed, hright.surveyed, ?_, ?_⟩
  · cases hcontent : forge.content? place.key with
    | none => rw [hs.files_of_none hcontent, ht.files_of_none hcontent, h.files]
    | some content =>
      by_cases hmem : place.key ∈ s.keys
      · rw [hs.files_of_mem hmem, ht.files_of_mem (h.keys_eq ▸ hmem), h.files]
      · rw [hs.files_of_some hmem hcontent, ht.files_of_some (h.keys_eq ▸ hmem) hcontent, h.files]
  · rw [hleft.same trivial, hright.same trivial, h.depths]

/-- States stay matched when both sides keep the same outcome, which can be relied on. -/
theorem keep (h : Matched forge job s t) {key : Key} {outcome : SearchOutcome}
    (hsound : Sound forge job { s with searched := (key, outcome) :: s.searched })
    (hknown : ∀ depth, s.depths key = some depth → outcome.foundAt = some depth)
    (hpassable : outcome.foundAt = none → Passable forge job s.depths outcome.budget key) :
    Matched forge job { s with searched := (key, outcome) :: s.searched }
      { t with searched := (key, outcome) :: t.searched } := by
  have hright : Sound forge job { t with searched := (key, outcome) :: t.searched } := by
    refine h.right.toSound.keep (hsound.least _ List.mem_cons_self) fun n hn => ?_
    rw [h.keys_eq]
    exact hsound.has _ List.mem_cons_self n hn
  refine ⟨(h.left.keep hsound hknown hpassable).1, (h.right.keep hright ?_ ?_).1, h.files, ?_⟩
  · rwa [h.depths]
  · rwa [h.depths]
  · funext other
    unfold Progress.depths
    rw [lookup_keep, lookup_keep]
    split
    · rfl
    · exact congrFun h.depths other

end Matched

/-- Questions agree when they get the same answers and leave matched states. -/
theorem agreeOnAnswer_matched {α : Type} {x : Walk (List Request) (Answer α)}
    (h : ∀ s t, Matched forge job s t →
      ∃ answer s' t', x s = .ok answer s' ∧ x t = .ok answer t' ∧ Matched forge job s' t') :
    AgreeOnAnswer (matchedBond forge job) x x := by
  intro s t hmatched
  obtain ⟨answer, s', t', hs, ht, hafter⟩ := h s t hmatched
  refine ⟨answer, s', t', hs, ht, ?_⟩
  cases answer with
  | ok a => exact hafter
  | error error =>
    dsimp only
    split
    · exact hafter
    · trivial

/-- Questions agree whose answers are told by the forge. -/
theorem Tells.agreeOnAnswer {α : Type} {query : Query (Cached (List Request)) α} {answer : Answer α}
    (h : Tells forge (ask query) (· = answer)) :
    AgreeOnAnswer (matchedBond forge job) (ask query) (ask query) := by
  refine agreeOnAnswer_matched fun s t hmatched => ?_
  obtain ⟨hs, hs', -⟩ := h s hmatched.left.toTruthful
  obtain ⟨ht, ht', -⟩ := h t hmatched.right.toTruthful
  refine ⟨answer, _, _, congrArg (EStateM.Result.ok · _) hs, congrArg (EStateM.Result.ok · _) ht, ?_⟩
  exact hmatched.asked hs' ht'

/-- A search that finds nothing collects nothing. -/
theorem Finding.quiet {root : Mount} {key : Key} {budget : Nat} {result : Option Nat × List Lead}
    (h : Finding forge job root key budget s result t) (hnone : result.1 = none) :
    result.2 = [] ∧ t.files = s.files := by
  have hleast := h.least
  rw [hnone] at hleast
  obtain ⟨files, hfiles, hscanned⟩ := h.gains.files
  obtain ⟨rfl, hleads⟩ := hscanned.eq_nil fun place hplace => by
    obtain ⟨-, n, hn, target, hexposes, hfile⟩ := hplace
    exact hleast n hn ⟨target, hexposes.levels, List.ne_nil_of_mem hfile⟩
  exact ⟨hleads, by simpa using hfiles⟩

section Steps

variable (hjob : job.provider = forge.provider)

include hjob

/-- In matched states files are read alike. -/
theorem agreeOnAnswer_read (place : Place) (role : DependencyFile.Role) :
    AgreeOnAnswer (matchedBond forge job) (readCollecting job place role)
      (readCollecting job place role) := by
  refine agreeOnAnswer_matched fun s t hmatched => ?_
  have hanswer : (contentOf job place t.cached).1 = (contentOf job place s.cached).1 := by
    unfold contentOf
    rw [hjob, hmatched.left.read_fst, hmatched.right.read_fst]
  have hs := readCollecting_eq job place role s
  have ht := readCollecting_eq job place role t
  rw [hanswer] at ht
  exact ⟨_, _, _, hs, ht, hmatched.read
    ((gives_readAnswer hjob hmatched.left.toTruthful place role).of_ok hs).2
    ((gives_readAnswer hjob hmatched.right.toTruthful place role).of_ok ht).2⟩

/-- In matched states a collection agrees with itself in all steps that ask or read. -/
theorem abreast_matched :
    AbreastInReading (matchedBond forge job) job job.provider job.extent := by
  have hasking : AbreastInAsking (matchedBond forge job) job job.provider :=
    { files := fun _ _ hmatched => hmatched.files
      fail := fun _ _ _ _ _ => trivial
      resolve := fun repo reference => (tells_askCheckout hjob repo reference).agreeOnAnswer
      list := fun checkout path => (tells_askList hjob (checkout, path)).agreeOnAnswer
      target := fun entry => (tells_askTarget hjob entry).agreeOnAnswer }
  refine ⟨hasking, agreeOnAnswer_read hjob, fun place => ?_⟩
  exact hasking.locateWithin job.extent (fun _ _ _ => .error trivial) _ place

/-- In a barren directory a search finds nothing and leaves all as it is but for what is known to be
found nowhere. -/
theorem search_barren {budget : Nat} {place : Place} (hs : Surveyed forge job s)
    (hbarren : Barren forge job s.depths budget place.key) :
    ∃ t, search job budget place s = .ok (none, []) t ∧ Surveyed forge job t ∧ t.files = s.files ∧
      t.depths = s.depths := by
  have hrun := (gives_search_survey hjob budget place hs).and
    (gives_search hjob budget (Forge.Mounted.root : forge.Mounted place.mount place.mount) hs.toSound)
  cases hsearch : search job budget place s with
  | error halt t => exact absurd hbarren (hrun.of_error hsearch).1
  | ok result t =>
    obtain ⟨hsurvey, hfinding⟩ := hrun.of_ok hsearch
    have hnone : result.1 = none := hsurvey.least.eq_none hbarren.least
    obtain ⟨hleads, hfiles⟩ := hfinding.quiet hnone
    refine ⟨t, ?_, hsurvey.left.surveyed, hfiles, hsurvey.left.same hnone⟩
    rw [← hnone, ← hleads]

omit hjob in
/-- A settled search changes nothing. -/
theorem search_of_settled {budget : Nat} {place : Place} {depth : Option Nat}
    (h : (s.searched.lookup place.key).bind (·.answer? budget) = some depth) :
    search job budget place s = .ok (depth, []) s := by
  rw [search_eq]
  refine (bind_of_ok (s := s) rfl).trans ?_
  dsimp only
  generalize (s.searched.lookup place.key).bind (·.answer? budget) = settled at h ⊢
  subst h
  rfl

omit hjob in
/-- A search that is not settled lists the directory. -/
theorem search_of_unsettled {budget : Nat} {place : Place}
    (h : (s.searched.lookup place.key).bind (·.answer? budget) = none) :
    search job budget place s = (do
      match ← list? job place with
      | none => return (none, [])
      | some entries =>
        let (depth, leads) ← searchListed job (descent job budget) place entries
        modify fun progress =>
          { progress with searched := (place.key, ⟨depth, budget⟩) :: progress.searched }
        return (depth, leads) : Walk (List Request) (Option Nat × List Lead)) s := by
  rw [search_eq]
  refine (bind_of_ok (s := s) rfl).trans ?_
  dsimp only
  generalize (s.searched.lookup place.key).bind (·.answer? budget) = settled at h ⊢
  subst h
  rfl

omit hjob in
/-- What settles a search is right. -/
theorem Sound.least_of_settled {budget : Nat} {key : Key} {depth : Option Nat} (hs : Sound forge job s)
    (h : (s.searched.lookup key).bind (·.answer? budget) = some depth) :
    Least (forge.SpecifiedAt job.ecosystem job.settings key) budget depth := by
  obtain ⟨outcome, hlookup, hanswer⟩ := Option.bind_eq_some_iff.1 h
  exact (hs.least _ (mem_of_lookup hlookup)).answer hanswer

/-- A search that is settled in one state and not in the other finds nothing in both. -/
theorem search_unsettled {budget : Nat} {place : Place} {depth : Option Nat} (hs : Surveyed forge job s)
    (ht : Surveyed forge job t) (hdepths : t.depths = s.depths)
    (hsettled : (s.searched.lookup place.key).bind (·.answer? budget) = some depth)
    (hunsettled : (t.searched.lookup place.key).bind (·.answer? budget) = none) :
    depth = none ∧ ∃ u, search job budget place t = .ok (none, []) u ∧ Surveyed forge job u ∧
      u.files = t.files ∧ u.depths = t.depths := by
  have hfresh := depths_of_unsettled hunsettled
  cases depth with
  | none =>
    refine ⟨rfl, search_barren hjob ht ⟨hs.least_of_settled hsettled, ?_⟩⟩
    rw [hdepths]
    exact hs.settled hsettled
  | some n =>
    obtain ⟨outcome, hlookup, hanswer⟩ := Option.bind_eq_some_iff.1 hsettled
    rw [hdepths, Progress.depths, hlookup] at hfresh
    exact nomatch hfresh.symm.trans (SearchOutcome.foundAt_of_answer hanswer)

/-- In matched states a search that is settled in neither comes to the same. -/
theorem sameEnd_searchKept {budget : Nat} {place : Place} (hmatched : Matched forge job s t)
    (hdescent : Option.Rel (fun f g => ∀ inner, Agree (matchedBond forge job) (f inner) (g inner))
      (descent job budget) (descent job budget))
    (hs : (s.searched.lookup place.key).bind (·.answer? budget) = none)
    (ht : (t.searched.lookup place.key).bind (·.answer? budget) = none) :
    SameEnd (matchedBond forge job) (search job budget place s) (search job budget place t) := by
  have habreast := abreast_matched hjob
  rw [search_of_unsettled hs, search_of_unsettled ht]
  refine (habreast.list? job.extent place s t hmatched).bind fun entries s' t' hlist hmatched' => ?_
  obtain ⟨hentries, -, cached, rfl⟩ := (tells_list? hjob place s hmatched.left.toTruthful).of_ok hlist
  cases entries with
  | none => exact .ok hmatched'
  | some entries =>
    have hfresh := depths_of_unsettled hs
    have hpasses := (gives_list?_passes hjob place hmatched.left.toTruthful).of_ok hlist
    have hsearch : ∀ less, budget = less + 1 → ∀ inner s, Surveyed forge job s →
        Gives (search job less inner) s (Survey forge job less inner.key s)
          fun _ _ => ¬ Barren forge job s.depths less inner.key :=
      fun less _ inner s hs => gives_search_survey hjob less inner hs
    refine (habreast.searchListed hdescent place entries _ _ hmatched').bind
      fun (depth, leads) u u' hrun hu => ?_
    obtain ⟨⟨hleft, hpassable⟩, hfinding⟩ :=
      ((gives_searchListed_left hjob hentries.symm hpasses hsearch hmatched'.left hfresh).and
        (gives_searchListed_descent hjob hentries.symm hmatched'.left.toSound)).of_ok hrun
    refine .ok (hu.keep (hfinding.sound.keep hfinding.least hfinding.has)
      (fun depth hdepth => hleft.found hfresh hfinding hdepth) fun hnone => ?_)
    rw [hleft.same hnone]
    exact hpassable hnone

/-- In matched states searches come to the same. -/
theorem agree_searchKept (budget : Nat) (place : Place)
    (hdescent : Option.Rel (fun f g => ∀ inner, Agree (matchedBond forge job) (f inner) (g inner))
      (descent job budget) (descent job budget)) :
    Agree (matchedBond forge job) (search job budget place) (search job budget place) := by
  intro s t hmatched
  obtain ⟨hleft, hright, hfiles, hdepths⟩ := hmatched
  -- Where only one state settles the search, it does so with nothing found, and the other one
  -- searches in vain.
  cases hs : (s.searched.lookup place.key).bind (·.answer? budget) with
  | some depth =>
    rw [search_of_settled hs]
    cases ht : (t.searched.lookup place.key).bind (·.answer? budget) with
    | some depth' =>
      rw [search_of_settled ht, (hleft.least_of_settled hs).eq (hright.least_of_settled ht)]
      exact .ok ⟨hleft, hright, hfiles, hdepths⟩
    | none =>
      obtain ⟨rfl, u, hrun, hu, hufiles, hudepths⟩ := search_unsettled hjob hleft hright hdepths hs ht
      rw [hrun]
      exact .ok ⟨hleft, hu, hufiles.trans hfiles, hudepths.trans hdepths⟩
  | none =>
    cases ht : (t.searched.lookup place.key).bind (·.answer? budget) with
    | some depth =>
      obtain ⟨rfl, u, hrun, hu, hufiles, hudepths⟩ :=
        search_unsettled hjob hright hleft hdepths.symm ht hs
      rw [hrun, search_of_settled ht]
      exact .ok ⟨hu, hright, hfiles.trans hufiles.symm, hdepths.trans hudepths.symm⟩
    | none => exact sameEnd_searchKept hjob ⟨hleft, hright, hfiles, hdepths⟩ hdescent hs ht

/-- In matched states searches come to the same. -/
theorem agree_search (budget : Nat) (place : Place) :
    Agree (matchedBond forge job) (search job budget place) (search job budget place) := by
  induction budget generalizing place with
  | zero => exact agree_searchKept hjob 0 place .none
  | succ budget ih => exact agree_searchKept hjob (budget + 1) place (.some ih)

/-- In matched states packages are looked for alike. -/
theorem agree_findPackage (place : Place) :
    Agree (matchedBond forge job) (findPackage job place) (findPackage job place) :=
  (abreast_matched hjob).findPackage (agree_search hjob _) place

/-- Looking for a package leaves outcomes behind, and when it is not found, only such as say that nothing
was found. -/
theorem gives_findPackage_left (place : Place) (hs : Surveyed forge job s) :
    Gives (findPackage job place) s
      (fun result t => Left forge job (result.1.isSome = true) s t) fun _ _ => True := by
  unfold findPackage
  rw [gives_bind]
  apply (tells_locate hjob place s hs.toTruthful).mono
  intro found _ hafter
  obtain ⟨-, ht, cached, rfl⟩ := hafter
  have hasked := hs.asked ht
  cases found with
  | none => exact .of_searched_eq hs hasked.toSound rfl
  | some directory =>
    dsimp only
    rw [gives_bind]
    apply (gives_search_survey hjob _ directory hasked).mono
    intro result t hsurvey
    have hleft : Left forge job (result.1 = none) s t := hsurvey.left.asked
    obtain ⟨depth, leads⟩ := result
    cases depth with
    | some n => exact hleft.imp (by simp)
    | none =>
      simp only [Option.isSome_none, Bool.false_eq_true, if_false, gives_bind]
      apply ((gives_takeMarker hjob directory hleft.surveyed.toSound).and
        ((keptByReading_searched job t.searched).takeMarker directory t rfl)).mono
      intro found u hafter
      obtain ⟨⟨hu, -⟩, hsearched⟩ := hafter
      have hboth := (hleft.trans (.of_searched_eq (p := True) hleft.surveyed hu hsearched)).imp
        fun _ : found = false => ⟨rfl, trivial⟩
      cases found with
      | true => exact hboth.imp (by simp)
      | false => exact hboth.imp fun _ => rfl

/-- A package that is not found leaves all as it is but for what is known to be found nowhere. -/
theorem findPackage_quiet {place : Place} {reason : String} {leads : List Lead}
    (hs : Surveyed forge job s) (hfind : findPackage job place s = .ok (some reason, leads) t) :
    leads = [] ∧ Surveyed forge job t ∧ t.files = s.files ∧ t.depths = s.depths := by
  have hleft := (gives_findPackage_left hjob place hs).of_ok hfind
  have hfinding := (gives_findPackage hjob place
    (Forge.Mounted.root : forge.Mounted place.mount place.mount) hs.toSound).of_ok hfind
  obtain ⟨hleads, hfiles⟩ := hfinding.nothing_of_missing (hfinding.missing rfl)
  exact ⟨hleads, hleft.surveyed, hfiles, hleft.same rfl⟩

end Steps

end DependencyFiles.Walk
