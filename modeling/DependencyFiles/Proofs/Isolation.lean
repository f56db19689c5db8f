import DependencyFiles.Proofs.Bounds
import DependencyFiles.Proofs.Fates
import DependencyFiles.Proofs.Residue

/-!
# Unreachable packages left out

A package that cannot be reached costs a collection its success, but nothing else. When the
references that were followed in vain are left out, the collection comes to the same files
in the same order, and it succeeds.
-/

namespace DependencyFiles

namespace Walk

variable {σ : Type}

/-- How many of the leads that were followed gave new leads. -/
def fruitful (visited : List (Visited σ)) : Nat := visited.countP fun v => !v.found.isEmpty

theorem fruitful_cons (v : Visited σ) (visited : List (Visited σ)) :
    fruitful (v :: visited) = fruitful visited + if v.found = [] then 0 else 1 := by
  unfold fruitful
  rw [List.countP_cons]
  cases v.found <;> simp

/-- Leads are not more fruitful when the first one gives new leads only if it did before. -/
theorem fruitful_cons_le {v v' : Visited σ} {visited visited' : List (Visited σ)}
    (hfound : v.found = [] → v'.found = []) (h : fruitful visited' ≤ fruitful visited) :
    fruitful (v' :: visited') ≤ fruitful (v :: visited) := by
  rw [fruitful_cons, fruitful_cons]
  by_cases hempty : v.found = []
  · rwa [if_pos hempty, if_pos (hfound hempty)]
  · rw [if_neg hempty]
    exact Nat.add_le_add h (by split <;> simp)

theorem fruitful_le_cons (v : Visited σ) (visited : List (Visited σ)) :
    fruitful visited ≤ fruitful (v :: visited) := by
  rw [fruitful_cons]
  exact Nat.le_add_right _ _

/-- When leads were followed until none was left, the bound allows it exactly when there is room for those
that gave new leads. -/
theorem Follows.followAll_eq {visit : Lead → Walk σ (List Lead)} {stack : List Lead}
    {visited : List (Visited σ)} {s u : Progress σ} (hfollows : Follows visit stack s visited u)
    (fuel : Nat) :
    fruitful visited ≤ fuel ∧ followAll visit fuel stack s = .ok () u ∨
      fuel < fruitful visited ∧ ∃ t, followAll visit fuel stack s = .error .exhausted t := by
  induction hfollows generalizing fuel with
  | done s =>
    rw [DependencyFiles.Walk.followAll_eq]
    exact .inl ⟨Nat.zero_le _, by cases fuel <;> rfl⟩
  | step v hvisit hrest ih =>
    rw [followAll_cons, bind_of_ok hvisit, fruitful_cons]
    cases hfound : v.found with
    | nil =>
      rw [hfound] at ih
      exact ih fuel
    | cons first found =>
      rw [hfound] at ih
      rw [if_neg (List.cons_ne_nil first found)]
      cases fuel with
      | zero => exact .inr ⟨Nat.succ_pos _, _, rfl⟩
      | succ fuel =>
        exact (ih fuel).imp (fun h => ⟨Nat.succ_le_succ h.1, h.2⟩) fun h => ⟨Nat.succ_lt_succ h.1, h.2⟩

variable {forge : Forge} {job : Job (List Request)} {rule : Rule} {base : Place} {authoritative : Bool}
  {v : Visited (List Request)} {t : Progress (List Request)}

/-- The same packages are noted when references are revised. -/
theorem noted?_revise (hjob : job.provider = forge.provider) (hs : forge.Truthful v.before) :
    noted? (job.revise rule) authoritative v = noted? job authoritative v := by
  unfold noted?
  split
  · have hstep : InStep (RevisedPair forge job rule v.before) _ _ :=
      inStep_findPackage hjob (v.lead.origin.resolve v.lead.reference.path) hs
    generalize findPackage job _ _ = r at hstep ⊢
    generalize findPackage (job.revise rule) _ _ = r' at hstep ⊢
    cases hstep with
    | ok h =>
      rename_i first second t
      obtain ⟨reason, leads⟩ := first
      obtain ⟨reason', leads'⟩ := second
      obtain rfl : reason' = reason := h.1
      cases reason' <;> rfl
    | error halt t => rfl
  · rfl

variable (hjob : job.provider = forge.provider)

include hjob

/-- Looking for a package in vain leaves all as it is but for what is known to be found nowhere. -/
theorem visit_noted {found : List Lead} {name : String}
    (hmatched : Matched forge job v.before t)
    (hvisit : visit job base authoritative v.lead v.before = .ok found v.after)
    (hnoted : noted? job authoritative v = some name) :
    found = [] ∧ Matched forge job v.after t := by
  obtain ⟨hkind, hcounted, reason, leads, u, hfind⟩ := noted?_eq_some hnoted
  obtain ⟨rfl, hu, hfiles, hdepths⟩ := findPackage_quiet hjob hmatched.left hfind
  rw [visit_of_counted hkind hcounted, visitPackage, bind_of_ok hfind] at hvisit
  obtain ⟨⟨⟩, u', hmark, hend⟩ := bind_eq_ok.1 hvisit
  cases hend
  have hquiet : Matched forge job u t :=
    ⟨hu, hmatched.right, hmatched.files.trans hfiles.symm, hmatched.depths.trans hdepths.symm⟩
  exact ⟨rfl, (hquiet.note name reason).of_ok hmark⟩

/-- A lead that is not followed in vain is followed alike in a matched state. -/
theorem visit_unmarked {found : List Lead} (hmatched : Matched forge job v.before t)
    (hvisit : visit job base authoritative v.lead v.before = .ok found v.after)
    (hnoted : noted? job authoritative v = none) :
    ∃ u, visit job base authoritative v.lead t = .ok found u ∧ Matched forge job v.after u ∧
      u.unreachable = t.unreachable := by
  have hkept := keptBySearching_unreachable job t.unreachable
  have hfile (hkind : v.lead.reference.isPathDependency = false) :
      ∃ u, visit job base authoritative v.lead t = .ok found u ∧ Matched forge job v.after u ∧
        u.unreachable = t.unreachable := by
    obtain ⟨u, hrun, hafter⟩ :=
      ((abreast_matched hjob).visitFile base authoritative hkind v.before t hmatched).of_ok hvisit
    exact ⟨u, hrun, hafter, (hkept.visitFile base authoritative hkind t rfl).of_ok hrun⟩
  cases hkind : v.lead.reference.kind with
  | childManifest => exact hfile (by simp [Reference.isPathDependency, hkind])
  | supportFile => exact hfile (by simp [Reference.isPathDependency, hkind])
  | pathDependency name =>
    cases hcounted : isCounted authoritative v.lead with
    | false =>
      rw [visit_of_not_counted hcounted] at hvisit ⊢
      obtain ⟨rfl, hafter⟩ := EStateM.Result.ok.inj hvisit
      exact ⟨t, rfl, hafter ▸ hmatched, rfl⟩
    | true =>
      rw [visit_of_counted hkind hcounted, visitPackage] at hvisit ⊢
      obtain ⟨⟨reason, leads⟩, u, hfind, hend⟩ := bind_eq_ok.1 hvisit
      cases reason with
      | some reason => simp [noted?, hkind, hcounted, hfind] at hnoted
      | none =>
        obtain ⟨rfl, rfl⟩ := EStateM.Result.ok.inj hend
        obtain ⟨u', hfind', hafter⟩ := (agree_findPackage hjob _ v.before t hmatched).of_ok hfind
        rw [bind_of_ok hfind']
        exact ⟨u', rfl, hafter, (hkept.findPackage _ t rfl).of_ok hfind'⟩

/-- A visit of a revised collection either was in vain, and then the matched state stays matched without
it, or it is made alike in the matched state. -/
theorem visit_isolated {found : List Lead} (hs : forge.Truthful v.before)
    (hmatched : Matched forge (job.revise rule) v.before t)
    (hvisit : visit (job.revise rule) base authoritative v.lead v.before = .ok found v.after) :
    (v.fate job authoritative = (v.lead, true) ∧ found = [] ∧
      Matched forge (job.revise rule) v.after t) ∨
    (v.fate job authoritative = (v.lead, false) ∧
      ∃ u, visit (job.revise rule) base authoritative v.lead t = .ok found u ∧
        Matched forge (job.revise rule) v.after u ∧ u.unreachable = t.unreachable) := by
  have hjob' : (job.revise rule).provider = forge.provider := hjob
  have hsame : noted? (job.revise rule) authoritative v = noted? job authoritative v :=
    noted?_revise hjob hs
  unfold Visited.fate
  cases hnoted : noted? job authoritative v with
  | some name => exact .inl ⟨rfl, visit_noted hjob' hmatched hvisit (hsame.trans hnoted)⟩
  | none => exact .inr ⟨rfl, visit_unmarked hjob' hmatched hvisit (hsame.trans hnoted)⟩

omit hjob

/-- The rule leaves out what is marked of the references that the file tells. -/
def LeavesOut (rule : Rule) (job : Job (List Request)) (fates : List Fate) (file : DependencyFile) :
    Prop :=
  ∀ fromLockfile references,
    job.ecosystem.told fromLockfile file.text file.path = .ok references →
      rule fromLockfile file.text file.path references =
        leaveOut ((fromSource (file.key, fromLockfile) fates).map (·.2)) references

/-- Only the leads from the file matter. -/
theorem LeavesOut.congr {fates more : List Fate} {file : DependencyFile}
    (h : LeavesOut rule job fates file) (hsame : ∀ fromLockfile,
      fromSource (file.key, fromLockfile) fates = fromSource (file.key, fromLockfile) more) :
    LeavesOut rule job more file := by
  intro fromLockfile references htold
  rw [h fromLockfile references htold, hsame]

/-- When the rule leaves out what is marked, the revised leads are those that are not. -/
theorem Reports.eq_unmarked {s : Progress (List Request)} {sections : List Section}
    {leads leads' : List Lead} {fates : List Fate} (h : Reports job rule s sections leads leads')
    (hfates : fates.map (·.1) = leads)
    (hrule : ∀ x ∈ sections, ∀ file ∈ s.files, file.key = x.place.key → LeavesOut rule job fates file) :
    leads' = unmarked fates := by
  rw [h.revised_eq, ← flatMap_leaveOut h.distinct (hfates.trans h.leads_eq)]
  refine congrArg List.flatten (List.map_congr_left fun x hx => ?_)
  obtain ⟨file, hfile, hkey, htext, hpath⟩ := h.collected x hx
  have htold := hrule x hx file hfile hkey x.fromLockfile x.references
  rw [htext, hpath, hkey] at htold
  exact congrArg (List.map (Lead.mk · x.place x.fromLockfile)) (htold (h.told x hx))

include hjob

/-- When the references that were followed in vain are left out, the other leads are followed alike from a
matched state, and no package is noted. -/
theorem Follows.isolated {stack : List Lead} {visited : List (Visited (List Request))}
    {s u : Progress (List Request)} (hfollows : Follows (visit job base authoritative) stack s visited u)
    (hs : forge.Truthful s) (hstack : ∀ lead ∈ stack, lead.origin.key ∈ s.keys)
    (hrule : ∀ file ∈ u.files, file.key ∉ s.keys →
      LeavesOut rule job (fatesOf job authoritative visited) file)
    (hmatched : Matched forge (job.revise rule) s t) :
    ∃ visited' t', Follows (visit (job.revise rule) base authoritative)
        (unmarked (stackFates job authoritative visited)) t visited' t' ∧
      Matched forge (job.revise rule) u t' ∧ t'.unreachable = t.unreachable ∧
      fruitful visited' ≤ fruitful visited := by
  induction hfollows generalizing t with
  | done s => exact ⟨[], t, .done t, hmatched, rfl, Nat.le_refl _⟩
  | @step v rest visited u hvisit hrest ih =>
    obtain ⟨found, hvisit', hrevised⟩ := revised_of_visit hjob rule hs hvisit
    obtain ⟨first, more, hfates, hthis, hfirst, hmore⟩ := hrest.stackFates_cons
    have hkeys := hrevised.onward.keys_subset
    have hstack' := hrevised.stack fun lead h => hstack lead (List.mem_cons_of_mem _ h)
    have hlater : ∀ file ∈ u.files, file.key ∉ v.after.keys →
        LeavesOut rule job (fatesOf job authoritative visited) file := fun file hfile hfresh => by
      refine (hrule file hfile (mt (@hkeys _) hfresh)).congr fun fromLockfile => ?_
      exact fromSource_cons_of_ne fun hsame =>
        hfresh (hkeys (Lead.key_of_source hsame ▸ hstack _ List.mem_cons_self))
    -- The files that the visit collected lose the references that are marked of them.
    have hunmarked : found = unmarked first := by
      obtain ⟨sections, hreports, hnew⟩ := hrevised.reports
      refine hreports.eq_unmarked hfirst fun x hx file hfile hkey => ?_
      have honward := hrest.keeps ((Onward.keptByAll hjob v.after).visit base authoritative)
        (.refl hrevised.onward.1)
      have hold : file.key ∉ v.before.keys := hkey ▸ (hnew x hx).2
      exact (hrule file (honward.2.subset hfile) hold).congr fun fromLockfile =>
        hrest.fromSource_found hjob hrevised.onward.1 hstack hstack' hfates hmore hold
          (List.mem_map_of_mem hfile)
    have hnext := fun {t'} (hafter : Matched forge (job.revise rule) v.after t') =>
      ih hrevised.onward.1 hstack' hlater hafter
    rw [hfates, unmarked_append, ← hunmarked] at hnext
    rw [hthis]
    rcases visit_isolated hjob hs hmatched hvisit' with
      ⟨hfate, rfl, hafter⟩ | ⟨hfate, t', hvisit'', hafter, hunreachable⟩
    · -- The lead is left out, and what following it in vain leaves behind does not matter.
      rw [hfate, unmarked_cons_true]
      obtain ⟨visited', t', hfollows, hend, hunreachable, hle⟩ := hnext hafter
      exact ⟨visited', t', hfollows, hend, hunreachable, Nat.le_trans hle (fruitful_le_cons v visited)⟩
    · rw [hfate, unmarked_cons_false]
      obtain ⟨visited', t'', hfollows, hend, hsame, hle⟩ := hnext hafter
      refine ⟨⟨v.lead, t, found, t'⟩ :: visited', t'', .step ⟨v.lead, t, found, t'⟩ hvisit'' hfollows,
        hend, hsame.trans hunreachable, fruitful_cons_le (fun hempty => ?_) hle⟩
      rw [hempty, List.map_eq_nil_iff] at hfirst
      rw [hunmarked, hfirst]
      rfl

omit hjob in
/-- A collection that has a course hands out its files in the end, as far as its bound allows the leads that
gave new leads. -/
theorem Course.collectSource_eq {job : Job σ} {repo reference : String} {initial : Progress σ}
    (course : Course job repo reference initial) :
    fruitful course.visited ≤ job.extent.files ∧
        collectSource job repo reference initial = handOut course.final ∨
      job.extent.files < fruitful course.visited ∧
        ∃ t, collectSource job repo reference initial = .error .exhausted t := by
  have hcollect : collectFrom job ⟨course.checkout, .root⟩ course.opened =
      followAll (visit job course.start.directory course.start.authoritative) job.extent.files
        course.start.leads course.started := bind_of_ok course.start_eq
  have hopen : collectSource job repo reference initial =
      (collectFrom job ⟨course.checkout, .root⟩ >>= fun _ => handOut) course.opened :=
    bind_of_ok course.open_eq
  rw [hopen]
  rcases course.follows.followAll_eq job.extent.files with ⟨hle, hfollow⟩ | ⟨hlt, t, hfollow⟩
  · exact .inl ⟨hle, bind_of_ok (hcollect.trans hfollow)⟩
  · exact .inr ⟨hlt, t, bind_eq_error.2 (.inl (hcollect.trans hfollow))⟩

/-- When the references that were followed in vain are left out of the files of a course, there is a course
to the same files that notes no package, with no more leads that give new ones. -/
theorem Course.isolated {repo reference : String} {log : List Request}
    (course : Course job repo reference { cached := { inner := log } })
    (hrule : ∀ file ∈ course.final.files, LeavesOut rule job course.fates file) (log' : List Request) :
    ∃ course' : Course (job.revise rule) repo reference { cached := { inner := log' } },
      course'.final.files = course.final.files ∧ course'.final.unreachable = [] ∧
        fruitful course'.visited ≤ fruitful course.visited := by
  have hjob' : (job.revise rule).provider = forge.provider := hjob
  -- The revised collection makes the same start when it begins with the same requests made before ...
  obtain ⟨first, sections, hstart, hdirectory, hauthoritative, hreports⟩ := course.start_revise hjob rule
  -- ... and hence also with others.
  have habreast := abreast_matched hjob'
  have hopen : Agree (matchedBond forge (job.revise rule)) _ _ :=
    (habreast.resolve repo reference).askOr fun _ _ _ _ => trivial
  obtain ⟨opened, hopened, hmatched⟩ := (hopen { cached := { inner := log } } { cached := { inner := log' } }
    ⟨surveyed_initial .., surveyed_initial .., rfl, rfl⟩).of_ok course.open_eq
  obtain ⟨started, hstarted, hmatched⟩ :=
    (habreast.start ⟨course.checkout, .root⟩ _ _ hmatched).of_ok hstart
  have htruthful := (course.beginning hjob).2.sound.toTruthful
  have hstack : ∀ lead ∈ course.start.leads, lead.origin.key ∈ course.started.keys :=
    fun _ => hreports.key_of_mem
  obtain ⟨visited, final, hfollows, hend, hunreachable, hle⟩ := course.follows.isolated hjob htruthful hstack
    (fun file hfile _ => hrule file hfile) hmatched
  have hleads : first.leads = unmarked (stackFates job course.start.authoritative course.visited) := by
    refine hreports.eq_unmarked course.follows.map_stackFates fun x hx file hfile _ => ?_
    exact (hrule file (course.files_subset hjob hfile)).congr fun fromLockfile =>
      (course.follows.fromSource_stackFates hjob htruthful hstack (List.mem_map_of_mem hfile)).symm
  rw [← hleads, ← hdirectory, ← hauthoritative] at hfollows
  refine ⟨⟨course.checkout, opened, hopened, first, started, hstarted, visited, final, hfollows⟩, hend.files,
    hunreachable.trans ?_, hle⟩
  exact (beginning_of_ok hjob' hopened hstarted).2.unreachable

/-- A collection that halts with unreachable packages succeeds with its files when the references that were
followed in vain are left out of them. -/
theorem Course.collectSource_isolated {repo reference : String} {log : List Request}
    (course : Course job repo reference { cached := { inner := log } }) {files : List DependencyFile}
    {unreachable : List Unreachable} {t : Progress (List Request)}
    (hend : collectSource job repo reference { cached := { inner := log } } =
      .error (.failed (.unreachable unreachable files)) t)
    (hrule : ∀ file ∈ files, LeavesOut rule job course.fates file) (log' : List Request) :
    ∃ u, collectSource (job.revise rule) repo reference { cached := { inner := log' } } = .ok files u := by
  rcases course.collectSource_eq with ⟨hroom, hcollect⟩ | ⟨-, t, hcollect⟩
  · rw [hcollect, handOut_eq] at hend
    obtain rfl : course.final.files = files := by
      split at hend
      · cases hend
      · cases hend
        rfl
    obtain ⟨course', hfiles, hunreachable, hle⟩ := course.isolated hjob hrule log'
    rcases course'.collectSource_eq with ⟨-, hcollect'⟩ | ⟨hlt, -⟩
    · rw [handOut_eq, if_pos hunreachable, hfiles] at hcollect'
      exact ⟨_, hcollect'⟩
    · exact absurd (Nat.le_trans hle hroom) (Nat.not_le_of_lt hlt)
  · rw [hcollect] at hend
    cases hend

end Walk

/-- The revised ecosystem tells the revised references. -/
theorem Ecosystem.told_revise (ecosystem : Ecosystem) (rule : Rule) (fromLockfile : Bool)
    (content origin : String) : (ecosystem.revise rule).told fromLockfile content origin =
      (ecosystem.told fromLockfile content origin).map (rule fromLockfile content origin) := by
  cases fromLockfile with
  | false => rfl
  | true => cases hscan : ecosystem.scanLockfile content origin <;> simp [told, revise, hscan, Except.map]

/-- A package that cannot be reached costs a collection its success, but nothing else. When of the
references in the collected files, lock files or not, those are left out that were followed in vain,
then the collection succeeds, whatever was asked before, with the same files in the same order. -/
theorem Collector.unreachable_isolated (forge : Forge) (ecosystem : Ecosystem) (settings : Settings)
    (extent : Extent) (source : Source) (log log' : List Request) (files : List DependencyFile)
    (unreachable : List Unreachable) (rule : Rule)
    (course : Walk.Course ((forge.collector ecosystem settings extent).job source) source.repo
      ((forge.collector ecosystem settings extent).reference source) { cached := { inner := log } })
    (hrun : ((forge.collector ecosystem settings extent).run source log).1 =
      .error (.failed (.unreachable unreachable files)))
    (hrule : ∀ file ∈ files, ∀ fromLockfile,
      (ecosystem.revise rule).told fromLockfile file.text file.path =
        (ecosystem.told fromLockfile file.text file.path).map
          (leaveOut (course.marks file.key fromLockfile))) :
    ((forge.collector (ecosystem.revise rule) settings extent).run source log').1 = .ok files := by
  have hjob : ((forge.collector ecosystem settings extent).job source).provider = forge.provider := rfl
  have hleaves : ∀ file ∈ files, Walk.LeavesOut rule
      ((forge.collector ecosystem settings extent).job source) course.fates file := by
    intro file hfile fromLockfile references htold
    change ecosystem.told fromLockfile file.text file.path = .ok references at htold
    have hrevised := hrule file hfile fromLockfile
    rw [Ecosystem.told_revise, htold] at hrevised
    exact Except.ok.inj hrevised
  unfold run at hrun ⊢
  cases hend : Walk.collectSource ((forge.collector ecosystem settings extent).job source) source.repo
      ((forge.collector ecosystem settings extent).reference source) { cached := { inner := log } } with
  | ok result t =>
    rw [hend] at hrun
    cases hrun
  | error halt t =>
    rw [hend] at hrun
    obtain rfl := Except.error.inj hrun
    obtain ⟨u, hend'⟩ := course.collectSource_isolated hjob hend hleaves log'
    have hrevised : Walk.collectSource ((forge.collector (ecosystem.revise rule) settings extent).job source)
        source.repo ((forge.collector (ecosystem.revise rule) settings extent).reference source)
        { cached := { inner := log' } } = .ok files u := hend'
    rw [hrevised]

/-- What is marked is left out of the references in the files, which are told apart by their paths. -/
def Rule.leavingOut (files : List DependencyFile) (marks : Key → Bool → List Bool) : Rule :=
  fun fromLockfile _ origin references =>
    match files.find? (·.path = origin) with
    | some file => leaveOut (marks file.key fromLockfile) references
    | none => references

/-- Files with different paths are found by their paths. -/
theorem find?_path {files : List DependencyFile} (hpaths : (files.map DependencyFile.path).Nodup)
    {file : DependencyFile} (hfile : file ∈ files) : files.find? (·.path = file.path) = some file := by
  induction files with
  | nil => cases hfile
  | cons first rest ih =>
    obtain ⟨hfirst, hrest⟩ := List.nodup_cons.1 hpaths
    rcases List.mem_cons.1 hfile with rfl | hmem
    · exact List.find?_cons_of_pos (decide_eq_true rfl)
    · have hother : ¬ first.path = file.path := fun hsame => hfirst (hsame ▸ List.mem_map_of_mem hmem)
      rw [List.find?_cons_of_neg (by simpa using hother)]
      exact ih hrest hmem

/-- What is marked can be left out of files with different paths. -/
theorem Ecosystem.told_leavingOut (ecosystem : Ecosystem) {files : List DependencyFile}
    (marks : Key → Bool → List Bool) (hpaths : (files.map DependencyFile.path).Nodup) :
    ∀ file ∈ files, ∀ fromLockfile,
      (ecosystem.revise (.leavingOut files marks)).told fromLockfile file.text file.path =
        (ecosystem.told fromLockfile file.text file.path).map (leaveOut (marks file.key fromLockfile)) := by
  intro file hfile fromLockfile
  have hrule : Rule.leavingOut files marks fromLockfile file.text file.path =
      leaveOut (marks file.key fromLockfile) := by
    funext references
    simp only [Rule.leavingOut, find?_path hpaths hfile]
  rw [Ecosystem.told_revise, hrule]

/-- A forge where the specification of one package lies too deep for another one whose directory is
above. -/
def Forge.quarry : Forge where
  name := "forge"
  repositories :=
    [{ name := "org/app", commit := ⟨"c1"⟩
       nodes :=
         [(.ofString "Gemfile", .file "gem 'x', path: 'pit'\ngem 'y', path: 'pit/1'".toUTF8.toList),
          (.ofString "pit/1/2/3/4/5/y.gemspec", .file [])] }]

/-- The package that cannot be reached leaves outcomes of its search behind, in directories where the other
one is found. Without it the collection succeeds. -/
theorem Collector.unreachable_isolated_quarry :
    ∃ (files : List DependencyFile) (unreachable : List Unreachable) (rule : Rule)
      (course : Walk.Course ((Forge.quarry.collector .bundler {} Forge.quarry.extent).job
        ⟨"forge", "org/app", none, .root⟩) "org/app" "HEAD" { cached := { inner := [] } }),
      ((Forge.quarry.collector .bundler {} Forge.quarry.extent).run
        ⟨"forge", "org/app", none, .root⟩ []).1 = .error (.failed (.unreachable unreachable files)) ∧
      files.map DependencyFile.path = ["Gemfile", "pit/1/2/3/4/5/y.gemspec"] ∧
      unreachable.map Unreachable.name = ["x"] ∧
      (∀ file ∈ files, ∀ fromLockfile,
        (Ecosystem.bundler.revise rule).told fromLockfile file.text file.path =
          (Ecosystem.bundler.told fromLockfile file.text file.path).map
            (leaveOut (course.marks file.key fromLockfile))) ∧
      ((Forge.quarry.collector (Ecosystem.bundler.revise rule) {} Forge.quarry.extent).run
        ⟨"forge", "org/app", none, .root⟩ []).1 = .ok files := by
  have hends : (harvest? ((Forge.quarry.collector .bundler {} Forge.quarry.extent).run
      ⟨"forge", "org/app", none, .root⟩ []).1).map
        (fun harvest => (harvest.1.map DependencyFile.path, harvest.2.map Unreachable.name)) =
          some (["Gemfile", "pit/1/2/3/4/5/y.gemspec"], ["x"]) := by
    decide +kernel
  obtain ⟨⟨files, unreachable⟩, hharvest, hends⟩ := Option.map_eq_some_iff.1 hends
  obtain ⟨hpaths, hnames⟩ := Prod.mk.inj hends
  obtain ⟨course, -, -, hresult⟩ := exists_course hharvest
  have hsome : unreachable ≠ [] := fun hnone => by simp [hnone] at hnames
  have hrun := congrArg Prod.fst hresult
  rw [if_neg hsome] at hrun
  have hdistinct : (files.map DependencyFile.path).Nodup := hpaths ▸ by decide
  have hrule := Ecosystem.told_leavingOut .bundler course.marks hdistinct
  exact ⟨files, unreachable, _, course, hrun, hpaths, hnames, hrule,
    unreachable_isolated _ _ _ _ _ [] [] files unreachable _ course hrun hrule⟩

end DependencyFiles
