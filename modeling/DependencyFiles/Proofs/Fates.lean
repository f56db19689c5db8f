import DependencyFiles.Proofs.Revision
import DependencyFiles.Proofs.Verdicts

/-!
# What became of the leads

When a collection has followed all its leads, each reference in the files that it scanned
has been followed, some of them in vain. The leads from one file come in the order of its
references, for what a lead gives is from other files than all that was on the stack.
-/

namespace DependencyFiles

/-- The items that are not marked; those beyond the marks are not. -/
def leaveOut {α : Type} : (marks : List Bool) → List α → List α
  | true :: marks, _ :: rest => leaveOut marks rest
  | false :: marks, a :: rest => a :: leaveOut marks rest
  | [], items => items
  | _ :: _, [] => []

/-- Items may be changed before some are left out, or after. -/
theorem leaveOut_map {α β : Type} (f : α → β) (marks : List Bool) (items : List α) :
    leaveOut marks (items.map f) = (leaveOut marks items).map f := by
  induction marks generalizing items with
  | nil => cases items <;> rfl
  | cons mark marks ih =>
    cases items with
    | nil => cases mark <;> rfl
    | cons a items => cases mark <;> simp [leaveOut, ih]

namespace Walk

/-- A lead, and whether it was followed in vain. -/
abbrev Fate := Lead × Bool

/-- The leads that are not marked. -/
def unmarked (fates : List Fate) : List Lead := leaveOut (fates.map (·.2)) (fates.map (·.1))

/-- The leads from one file, as a lock file or not. -/
def fromSource (source : Key × Bool) (fates : List Fate) : List Fate :=
  fates.filter (·.1.source = source)

section Fates

variable {source : Key × Bool} {fate : Fate} {fates more : List Fate}

@[simp] theorem unmarked_cons_true (lead : Lead) : unmarked ((lead, true) :: fates) = unmarked fates :=
  rfl

@[simp] theorem unmarked_cons_false (lead : Lead) :
    unmarked ((lead, false) :: fates) = lead :: unmarked fates := rfl

theorem unmarked_append : unmarked (fates ++ more) = unmarked fates ++ unmarked more := by
  induction fates with
  | nil => rfl
  | cons fate fates ih => obtain ⟨lead, mark⟩ := fate; cases mark <;> simp [ih]

theorem fromSource_append : fromSource source (fates ++ more) =
    fromSource source fates ++ fromSource source more := List.filter_append ..

theorem fromSource_cons_of_ne (h : fate.1.source ≠ source) :
    fromSource source (fate :: fates) = fromSource source fates :=
  List.filter_cons_of_neg (by simpa using h)

/-- Behind the same lead the same leads are from the file. -/
theorem fromSource_cons_congr (h : fromSource source fates = fromSource source more) :
    fromSource source (fate :: fates) = fromSource source (fate :: more) := by
  change fromSource source ([fate] ++ fates) = fromSource source ([fate] ++ more)
  rw [fromSource_append, fromSource_append, h]

/-- No lead is from a file that none of them is from. -/
theorem fromSource_eq_nil (h : ∀ lead ∈ fates.map (·.1), lead.source ≠ source) :
    fromSource source fates = [] :=
  List.filter_eq_nil_iff.2 fun fate hfate => by simpa using h fate.1 (List.mem_map_of_mem hfate)

/-- All leads are from the file that each of them is from. -/
theorem fromSource_eq_self (h : ∀ lead ∈ fates.map (·.1), lead.source = source) :
    fromSource source fates = fates :=
  List.filter_eq_self.2 fun fate hfate => by simpa using h fate.1 (List.mem_map_of_mem hfate)

/-- The leads of sections are apart when the sections are of different sources. -/
theorem fromSource_section {x : Section} {xs : List Section}
    (hdistinct : (x :: xs).Pairwise fun x y => x.source ≠ y.source)
    (hfates : fates.map (·.1) = (x :: xs).flatMap Section.leads) :
    ∃ first rest, fates = first ++ rest ∧ first.map (·.1) = x.leads ∧
      rest.map (·.1) = xs.flatMap Section.leads ∧ fromSource x.source fates = first ∧
      ∀ y ∈ xs, fromSource y.source fates = fromSource y.source rest := by
  obtain ⟨hx, -⟩ := List.pairwise_cons.1 hdistinct
  obtain ⟨first, rest, rfl, hfirst, hrest⟩ := List.map_eq_append_iff.1 hfates
  have hsame : ∀ lead ∈ first.map (·.1), lead.source = x.source := by
    rw [hfirst]
    exact fun lead => Section.source_of_mem
  have hnone : ∀ lead ∈ rest.map (·.1), lead.source ≠ x.source := by
    rw [hrest]
    intro lead hlead
    obtain ⟨y, hy, hlead⟩ := List.mem_flatMap.1 hlead
    exact Section.source_of_mem hlead ▸ (hx y hy).symm
  refine ⟨first, rest, rfl, hfirst, hrest, ?_, fun y hy => ?_⟩
  · rw [fromSource_append, fromSource_eq_self hsame, fromSource_eq_nil hnone, List.append_nil]
  · have hother : ∀ lead ∈ first.map (·.1), lead.source ≠ y.source :=
      fun lead hlead => hsame lead hlead ▸ hx y hy
    rw [fromSource_append, fromSource_eq_nil hother, List.nil_append]

/-- The leads from a section are its references, in their order. -/
theorem map_fromSource {x : Section} {sections : List Section} (hx : x ∈ sections)
    (hdistinct : sections.Pairwise fun x y => x.source ≠ y.source)
    (hfates : fates.map (·.1) = sections.flatMap Section.leads) :
    (fromSource x.source fates).map (·.1.reference) = x.references := by
  induction sections generalizing fates with
  | nil => cases hx
  | cons y ys ih =>
    obtain ⟨first, rest, -, hfirst, hrest, hthis, hothers⟩ := fromSource_section hdistinct hfates
    rcases List.mem_cons.1 hx with rfl | hx
    · rw [hthis]
      have hreferences := congrArg (List.map Lead.reference) hfirst
      simpa [Section.leads, Function.comp_def] using hreferences
    · rw [hothers x hx]
      exact ih hx (List.pairwise_cons.1 hdistinct).2 hrest

/-- When from the references of each section those are left out that are marked, the leads that are not
marked are left. -/
theorem flatMap_leaveOut {sections : List Section}
    (hdistinct : sections.Pairwise fun x y => x.source ≠ y.source)
    (hfates : fates.map (·.1) = sections.flatMap Section.leads) :
    (sections.flatMap fun x => (leaveOut ((fromSource x.source fates).map (·.2)) x.references).map
      (⟨·, x.place, x.fromLockfile⟩)) = unmarked fates := by
  induction sections generalizing fates with
  | nil =>
    obtain rfl := List.map_eq_nil_iff.1 hfates
    rfl
  | cons x xs ih =>
    obtain ⟨first, rest, rfl, hfirst, hrest, hthis, hothers⟩ := fromSource_section hdistinct hfates
    rw [List.flatMap_cons, unmarked_append, hthis, ← leaveOut_map,
      ← ih (List.pairwise_cons.1 hdistinct).2 hrest]
    congr 1
    · rw [unmarked, hfirst]
      rfl
    · exact congrArg List.flatten (List.map_congr_left fun y hy => by rw [hothers y hy])

end Fates

section Stack

variable {σ : Type} (job : Job σ) (authoritative : Bool)

/-- The lead that was followed, marked when its package was noted as unreachable. -/
def Visited.fate (v : Visited σ) : Fate := (v.lead, (noted? job authoritative v).isSome)

/-- What became of the leads, in the order in which they were followed. -/
def fatesOf (visited : List (Visited σ)) : List Fate := visited.map (Visited.fate job authoritative)

/-- What became of the leads on the stack. What the first one gave was followed before the others. -/
def stackFates : List (Visited σ) → List Fate
  | [] => []
  | v :: visited => v.fate job authoritative :: (stackFates visited).drop v.found.length

variable {job authoritative}

/-- Something became of each lead on the stack. -/
theorem Follows.map_stackFates {visit : Lead → Walk σ (List Lead)} {stack : List Lead}
    {visited : List (Visited σ)} {s u : Progress σ} (hfollows : Follows visit stack s visited u) :
    (stackFates job authoritative visited).map (·.1) = stack := by
  induction hfollows with
  | done s => rfl
  | step v hvisit hrest ih =>
    change v.lead :: ((stackFates job authoritative _).drop v.found.length).map (·.1) = _
    rw [List.map_drop, ih, List.drop_left]

/-- After a visit, what became of the leads that it gave comes before what became of the others. -/
theorem Follows.stackFates_cons {visit : Lead → Walk σ (List Lead)} {v : Visited σ} {rest : List Lead}
    {visited : List (Visited σ)} {u : Progress σ}
    (hrest : Follows visit (v.found ++ rest) v.after visited u) :
    ∃ first more, stackFates job authoritative visited = first ++ more ∧
      stackFates job authoritative (v :: visited) = v.fate job authoritative :: more ∧
      first.map (·.1) = v.found ∧ more.map (·.1) = rest := by
  obtain ⟨first, more, hfates, hfirst, hmore⟩ :=
    List.map_eq_append_iff.1 (hrest.map_stackFates)
  refine ⟨first, more, hfates, ?_, hfirst, hmore⟩
  rw [stackFates, hfates, ← hfirst, List.length_map, List.drop_left]

end Stack

section Follows

variable {forge : Forge} {job : Job (List Request)} {base : Place} {authoritative : Bool}
  {source : Key × Bool} {stack rest : List Lead} {v : Visited (List Request)}
  {visited : List (Visited (List Request))} {first more : List Fate} {s u : Progress (List Request)}

/-- Where leads are those of sections, the leads from the file of one of them are the references that the
file tells. -/
theorem Reports.told_of_mem {rule : Rule} {sections : List Section} {leads leads' : List Lead}
    {fates : List Fate} {fate : Fate} (h : Reports job rule s sections leads leads')
    (hfates : fates.map (·.1) = leads) (hfate : fate ∈ fates) :
    ∃ file ∈ s.files, file.key = fate.1.origin.key ∧
      job.ecosystem.told fate.1.fromLockfile file.text file.path =
        .ok ((fromSource fate.1.source fates).map (·.1.reference)) := by
  obtain ⟨x, hx, hsource⟩ := h.source_of_mem (hfates ▸ List.mem_map_of_mem hfate)
  obtain ⟨file, hfile, hkey, htext, hpath⟩ := h.collected x hx
  have hflag : fate.1.fromLockfile = x.fromLockfile := congrArg Prod.snd hsource
  refine ⟨file, hfile, hkey.trans (Lead.key_of_source hsource).symm, ?_⟩
  rw [htext, hpath, hflag, hsource, map_fromSource hx h.distinct (hfates.trans h.leads_eq)]
  exact h.told x hx

variable (hjob : job.provider = forge.provider)

include hjob

/-- The leads from a file that is collected before are those on the stack. -/
theorem Follows.fromSource_stackFates
    (hfollows : Follows (visit job base authoritative) stack s visited u) (hs : forge.Truthful s)
    (hstack : ∀ lead ∈ stack, lead.origin.key ∈ s.keys) (hsource : source.1 ∈ s.keys) :
    fromSource source (stackFates job authoritative visited) =
      fromSource source (fatesOf job authoritative visited) := by
  induction hfollows with
  | done s => rfl
  | @step v rest visited u hvisit hrest ih =>
    obtain ⟨found', -, hrevised⟩ := revised_of_visit hjob (fun _ _ _ references => references) hs hvisit
    obtain ⟨first, more, hfates, hthis, hfirst, -⟩ := hrest.stackFates_cons
    -- What the visit gave is from new files only.
    have hnone : fromSource source first = [] := fromSource_eq_nil fun lead hlead hsame =>
      (hrevised.key_of_mem (hfirst ▸ hlead)).2 (Lead.key_of_source hsame ▸ hsource)
    rw [hthis]
    refine fromSource_cons_congr ?_
    change fromSource source more = fromSource source (fatesOf job authoritative visited)
    rw [← ih hrevised.onward.1 (hrevised.stack fun lead h => hstack lead (List.mem_cons_of_mem _ h))
      (hrevised.onward.keys_subset hsource), hfates, fromSource_append, hnone, List.nil_append]

/-- The leads from a file that a visit collected are among those that the visit gave. -/
theorem Follows.fromSource_found
    (hrest : Follows (visit job base authoritative) (v.found ++ rest) v.after visited u)
    (hafter : forge.Truthful v.after) (hstack : ∀ lead ∈ v.lead :: rest, lead.origin.key ∈ v.before.keys)
    (hstack' : ∀ lead ∈ v.found ++ rest, lead.origin.key ∈ v.after.keys)
    (hfates : stackFates job authoritative visited = first ++ more) (hmore : more.map (·.1) = rest)
    (hold : source.1 ∉ v.before.keys) (hnew : source.1 ∈ v.after.keys) :
    fromSource source (fatesOf job authoritative (v :: visited)) = fromSource source first := by
  have hother : ∀ lead : Lead, lead.origin.key ∈ v.before.keys → lead.source ≠ source :=
    fun lead hlead hsame => hold (Lead.key_of_source hsame ▸ hlead)
  have hnone : fromSource source more = [] := fromSource_eq_nil fun lead hlead =>
    hother lead (hstack lead (List.mem_cons_of_mem _ (hmore ▸ hlead)))
  change fromSource source (v.fate job authoritative :: fatesOf job authoritative visited) = _
  rw [fromSource_cons_of_ne (hother v.lead (hstack _ List.mem_cons_self)),
    ← hrest.fromSource_stackFates hjob hafter hstack' hnew, hfates, fromSource_append, hnone,
    List.append_nil]

/-- The leads that were followed from a new file are the references that it tells, in their order. -/
theorem Follows.told (hfollows : Follows (visit job base authoritative) stack s visited u)
    (hs : forge.Truthful s) (hstack : ∀ lead ∈ stack, lead.origin.key ∈ s.keys) :
    ∀ v ∈ visited, v.lead.origin.key ∉ s.keys → ∃ file ∈ u.files, file.key = v.lead.origin.key ∧
      job.ecosystem.told v.lead.fromLockfile file.text file.path = .ok
        ((fromSource v.lead.source (fatesOf job authoritative visited)).map (·.1.reference)) := by
  induction hfollows with
  | done s => nofun
  | @step w rest visited u hvisit hrest ih =>
    intro v hv hold
    obtain ⟨found', -, hrevised⟩ := revised_of_visit hjob (fun _ _ _ references => references) hs hvisit
    have hstack' := hrevised.stack fun lead h => hstack lead (List.mem_cons_of_mem _ h)
    have hfresh : w.lead.source ≠ v.lead.source := fun hsame =>
      hold (Lead.key_of_source hsame ▸ hstack _ List.mem_cons_self)
    have hmem : v ∈ visited := (List.mem_cons.1 hv).resolve_left fun h => hfresh (h ▸ rfl)
    -- The file is scanned by this visit, or by a later one.
    by_cases hnew : v.lead.origin.key ∈ w.after.keys
    · obtain ⟨first, more, hfates, -, hfirst, hmore⟩ := hrest.stackFates_cons
      have hfrom : fromSource v.lead.source (fatesOf job authoritative (w :: visited)) = _ :=
        hrest.fromSource_found hjob hrevised.onward.1 hstack hstack' hfates hmore hold hnew
      have hthis : v.fate job authoritative ∈ fromSource v.lead.source first := by
        rw [← hfrom]
        exact List.mem_filter.2 ⟨List.mem_map_of_mem hv, decide_eq_true rfl⟩
      obtain ⟨sections, hreports, -⟩ := hrevised.reports
      obtain ⟨file, hfile, hkey, htold⟩ := hreports.told_of_mem hfirst (List.mem_filter.1 hthis).1
      have honward := hrest.keeps ((Onward.keptByAll hjob w.after).visit base authoritative)
        (.refl hrevised.onward.1)
      exact ⟨file, honward.2.subset hfile, hkey, hfrom ▸ htold⟩
    · obtain ⟨file, hfile, hkey, htold⟩ := ih hrevised.onward.1 hstack' v hmem hnew
      have hsame : fromSource v.lead.source (fatesOf job authoritative (w :: visited)) = _ :=
        fromSource_cons_of_ne hfresh
      refine ⟨file, hfile, hkey, ?_⟩
      rw [hsame]
      exact htold

end Follows

namespace Course

/-- What became of the leads of a course. -/
def fates {σ : Type} {job : Job σ} {repo reference : String} {initial : Progress σ}
    (course : Course job repo reference initial) : List Fate :=
  fatesOf job course.start.authoritative course.visited

/-- What was marked of the leads from a file, which are its references in their order (`Course.told`). -/
def marks {σ : Type} {job : Job σ} {repo reference : String} {initial : Progress σ}
    (course : Course job repo reference initial) (file : Key) (fromLockfile : Bool) : List Bool :=
  (fromSource (file, fromLockfile) course.fates).map (·.2)

variable {forge : Forge} {job : Job (List Request)} {repo reference : String} {log : List Request}
  (course : Course job repo reference { cached := { inner := log } })
  (hjob : job.provider = forge.provider)

include hjob

/-- A course starts in the same way when all references are revised. -/
theorem start_revise (rule : Rule) : ∃ first sections,
    Walk.start (job.revise rule) ⟨course.checkout, .root⟩ course.opened = .ok first course.started ∧
      first.directory = course.start.directory ∧ first.authoritative = course.start.authoritative ∧
      Reports job rule course.started sections course.start.leads first.leads := by
  have hlogging := Forge.logged_keptByAll hjob log
  have hlogged : forge.Logged log course.opened :=
    (Keeps.askOr (hlogging.resolve repo reference) (fun _ => rfl) _ (Forge.logged_initial forge log)).of_ok
      course.open_eq
  obtain ⟨-, hsound, hfiles, -⟩ := opening_of_ok hjob course.open_eq
  have hstep : InStep _ _ (Walk.start (job.revise rule) ⟨course.checkout, .root⟩ course.opened) :=
    inStep_start hjob course.checkout hsound hlogged hfiles
  obtain ⟨first, hstart, hdirectory, hauthoritative, sections, hreports⟩ := hstep.of_ok course.start_eq
  exact ⟨first, sections, hstart, hdirectory, hauthoritative, hreports⟩

/-- Files are only added once the leads are followed. -/
theorem files_subset : course.started.files ⊆ course.final.files := by
  have hstarted := (course.beginning hjob).2.sound.toTruthful
  exact (course.follows.keeps ((Onward.keptByAll hjob course.started).visit _ _)
    (.refl hstarted)).2.subset

/-- The leads that were followed from a file are the references that it tells, in their order. -/
theorem told : ∀ v ∈ course.visited, ∃ file ∈ course.final.files, file.key = v.lead.origin.key ∧
    job.ecosystem.told v.lead.fromLockfile file.text file.path =
      .ok ((fromSource v.lead.source course.fates).map (·.1.reference)) := by
  intro v hv
  have hstarted := (course.beginning hjob).2.sound.toTruthful
  obtain ⟨_, sections, -, -, -, hreports⟩ :=
    course.start_revise hjob fun _ _ _ references => references
  have hstack : ∀ lead ∈ course.start.leads, lead.origin.key ∈ course.started.keys :=
    fun _ => hreports.key_of_mem
  by_cases hknown : v.lead.origin.key ∈ course.started.keys
  · have hfrom : _ = fromSource v.lead.source course.fates :=
      course.follows.fromSource_stackFates hjob hstarted hstack hknown
    have hthis : v.fate job course.start.authoritative ∈ fromSource v.lead.source course.fates :=
      List.mem_filter.2 ⟨List.mem_map_of_mem hv, decide_eq_true rfl⟩
    rw [← hfrom] at hthis ⊢
    obtain ⟨file, hfile, hkey, htold⟩ :=
      hreports.told_of_mem course.follows.map_stackFates (List.mem_filter.1 hthis).1
    exact ⟨file, course.files_subset hjob hfile, hkey, htold⟩
  · exact course.follows.told hjob hstarted hstack v hv hknown

end Course

end Walk

end DependencyFiles
