import DependencyFiles.Proofs.Keeping

/-!
# The course of a collection

A collection that comes to its end has opened a checkout, collected the files that no
reference is needed for, and followed leads one after the other until none was left. It
then hands out its files, as the result or with the packages that it could not reach.
-/

namespace DependencyFiles

namespace Walk

variable {σ : Type}

/-- A lead that was followed: the leads that it gave, and the states before and after it. -/
structure Visited (σ : Type) where
  lead : Lead
  before : Progress σ
  found : List Lead
  after : Progress σ

/-- From a stack of leads and a state, leads are followed in this order, each before what it gives
and that before the rest of the stack, until no lead is left. -/
inductive Follows (visit : Lead → Walk σ (List Lead)) :
    (stack : List Lead) → Progress σ → List (Visited σ) → Progress σ → Prop
  | done (s : Progress σ) : Follows visit [] s [] s
  | step (v : Visited σ) {rest : List Lead} {visited : List (Visited σ)} {u : Progress σ}
      (hvisit : visit v.lead v.before = .ok v.found v.after)
      (hrest : Follows visit (v.found ++ rest) v.after visited u) :
      Follows visit (v.lead :: rest) v.before (v :: visited) u

/-- Leads that find nothing are followed before the stack that is left. -/
theorem follows_of_advance {visit : Lead → Walk σ (List Lead)} {stack next : List Lead}
    {s t : Progress σ} (h : advance visit stack s = .ok next t) :
    ∃ before, ∀ visited u, Follows visit next t visited u →
      Follows visit stack s (before ++ visited) u := by
  induction stack generalizing s with
  | nil =>
    obtain ⟨rfl, rfl⟩ : [] = next ∧ s = t := by cases h; exact ⟨rfl, rfl⟩
    exact ⟨[], fun visited u hvisited => hvisited⟩
  | cons lead rest ih =>
    obtain ⟨found, r, hvisit, hnext⟩ := bind_eq_ok.1 h
    cases found with
    | nil =>
      obtain ⟨before, hbefore⟩ := ih hnext
      exact ⟨⟨lead, s, [], r⟩ :: before,
        fun visited u hvisited => .step ⟨lead, s, [], r⟩ hvisit (hbefore visited u hvisited)⟩
    | cons first found =>
      obtain ⟨rfl, rfl⟩ : first :: found ++ rest = next ∧ r = t := by cases hnext; exact ⟨rfl, rfl⟩
      exact ⟨[⟨lead, s, first :: found, r⟩],
        fun visited u hvisited => .step ⟨lead, s, first :: found, r⟩ hvisit hvisited⟩

/-- When all leads have been followed, they were followed in some order. -/
theorem follows_of_followAll {visit : Lead → Walk σ (List Lead)} {fuel : Nat} {stack : List Lead}
    {s u : Progress σ} (h : followAll visit fuel stack s = .ok () u) :
    ∃ visited, Follows visit stack s visited u := by
  induction fuel generalizing stack s with
  | zero =>
    obtain ⟨next, t, hadvance, hnext⟩ := bind_eq_ok.1 h
    obtain ⟨before, hbefore⟩ := follows_of_advance hadvance
    cases next with
    | nil =>
      obtain rfl : t = u := by cases hnext; rfl
      exact ⟨_, hbefore [] _ (.done _)⟩
    | cons lead next => cases hnext
  | succ fuel ih =>
    obtain ⟨next, t, hadvance, hnext⟩ := bind_eq_ok.1 h
    obtain ⟨before, hbefore⟩ := follows_of_advance hadvance
    cases next with
    | nil =>
      obtain rfl : t = u := by cases hnext; rfl
      exact ⟨_, hbefore [] _ (.done _)⟩
    | cons lead next =>
      obtain ⟨visited, hvisited⟩ := ih hnext
      exact ⟨_, hbefore visited _ hvisited⟩

/-- An invariant that every visit keeps holds when all leads have been followed. -/
theorem Follows.keeps {visit : Lead → Walk σ (List Lead)} {stack : List Lead}
    {visited : List (Visited σ)} {s u : Progress σ} {I : Progress σ → Prop}
    (hfollows : Follows visit stack s visited u) (hvisit : ∀ lead, Keeps I (visit lead))
    (hs : I s) : I u := by
  induction hfollows with
  | done s => exact hs
  | step v hstep _ ih => exact ih ((hvisit _ _ hs).of_ok hstep)

/-- A collection that has followed all its leads, step by step. -/
structure Course (job : Job σ) (repo reference : String) (initial : Progress σ) where
  /-- The checkout of the requested repository. -/
  checkout : Checkout
  opened : Progress σ
  open_eq : askOr (Cached.openCheckout job.provider repo reference) .provider initial =
    .ok checkout opened
  start : Start
  started : Progress σ
  start_eq : Walk.start job ⟨checkout, .root⟩ opened = .ok start started
  /-- The leads in the order in which they were followed. -/
  visited : List (Visited σ)
  final : Progress σ
  follows : Follows (visit job start.directory start.authoritative) start.leads started visited final

namespace Course

variable {job : Job σ} {repo reference : String} {initial : Progress σ}

/-- An invariant that questions and readings keep holds once the start is made. -/
theorem started_of_keptByReading (course : Course job repo reference initial)
    {I : Progress σ → Prop} (h : KeptByReading job I) (hinitial : I initial) : I course.started :=
  ((h.start _) _ <| ((Keeps.askOr (h.resolve _ _) fun _ => rfl) _ hinitial).of_ok course.open_eq).of_ok
    course.start_eq

/-- An invariant of all elementary steps holds in the end. -/
theorem final_of_keptByAll (course : Course job repo reference initial)
    {I : Progress σ → Prop} (h : KeptByAll job I) (hinitial : I initial) : I course.final :=
  course.follows.keeps (h.visit _ _) (course.started_of_keptByReading h.toKeptByReading hinitial)

end Course

/-- Every state is kept. -/
theorem keptByAll_true (job : Job σ) : KeptByAll job fun _ => True where
  resolve _ _ := fun _ _ => trivial
  list _ _ := fun _ _ => trivial
  target _ := fun _ _ => trivial
  read place role := by
    refine Keeps.bind (fun _ _ => trivial) fun answer => ?_
    cases answer with
    | ok content =>
      have hcollect : Keeps (fun _ => True) (collect job place role content) :=
        (Keeps.isCollected place).bind fun _ => .ite (.pure _) fun _ _ => trivial
      exact hcollect.bind fun _ => .pure _
    | error error => exact .pure _
  note _ _ := fun _ _ => trivial
  keep _ _ := fun _ _ => trivial

/-- No halt of a step that keeps every state is the deferred one. -/
theorem Keeps.isDeferred_eq_false {α : Type} {x : Walk σ α} (hx : Keeps (fun _ => True) x)
    {s t : Progress σ} {halt : Halt} (h : x s = .error halt t) : halt.isDeferred = false :=
  ((hx s trivial).of_error h).2

/-- Collecting all files from an opened checkout is a course. -/
theorem exists_course {job : Job σ} {repo reference : String} {s opened t : Progress σ}
    {checkout : Checkout}
    (hopen : askOr (Cached.openCheckout job.provider repo reference) .provider s = .ok checkout opened)
    (h : collectFrom job ⟨checkout, .root⟩ opened = .ok () t) :
    ∃ course : Course job repo reference s, course.final = t := by
  obtain ⟨start, started, hstart, hfollow⟩ := bind_eq_ok.1 h
  obtain ⟨visited, hvisited⟩ := follows_of_followAll hfollow
  exact ⟨⟨checkout, opened, hopen, start, started, hstart, visited, t, hvisited⟩, rfl⟩

/-- The files are handed out exactly when no package was noted as unreachable. -/
theorem handOut_eq (s : Progress σ) : handOut s =
    if s.unreachable = [] then .ok s.files s
    else .error (.failed (.unreachable s.unreachable s.files)) s := by
  have hget : (handOut : Walk σ _) s = (if s.unreachable.isEmpty then pure s.files
      else fail (.unreachable s.unreachable s.files) : Walk σ _) s := rfl
  rw [hget]
  by_cases hnone : s.unreachable = []
  · rw [if_pos hnone, if_pos (by simpa using hnone)]
    rfl
  · rw [if_neg hnone, if_neg (by simpa using hnone)]
    rfl

end Walk

namespace Collector

variable {σ : Type}

/-- The files of a collection that came to its end, and the packages that it could not reach. -/
def harvest? : Except Halt (List DependencyFile) → Option (List DependencyFile × List Unreachable)
  | .ok files => some (files, [])
  | .error (.failed (.unreachable dependencies files)) => some (files, dependencies)
  | .error _ => none

/-- A collection that came to its end has followed all its leads. Its files are its result
exactly when no package was noted as unreachable. -/
theorem exists_course {collector : Collector σ} {source : Source} {state : σ}
    {files : List DependencyFile} {unreachable : List Unreachable}
    (h : harvest? (collector.run source state).1 = some (files, unreachable)) :
    ∃ course : Walk.Course (collector.job source) source.repo (collector.reference source)
        { cached := { inner := state } },
      course.final.files = files ∧ course.final.unreachable = unreachable ∧
        collector.run source state = (if unreachable = [] then .ok files
          else .error (.failed (.unreachable unreachable files)), course.final.cached.inner) := by
  unfold run at h ⊢
  cases hrun : Walk.collectSource (collector.job source) source.repo (collector.reference source)
      { cached := { inner := state } } with
  | ok result t =>
    rw [hrun] at h
    obtain ⟨rfl, rfl⟩ : result = files ∧ [] = unreachable := by simpa [harvest?] using h
    obtain ⟨checkout, opened, hopen, hrest⟩ := Walk.bind_eq_ok.1 hrun
    obtain ⟨⟨⟩, u, hcollect, hend⟩ := Walk.bind_eq_ok.1 hrest
    obtain ⟨course, rfl⟩ := Walk.exists_course hopen hcollect
    rw [Walk.handOut_eq] at hend
    split at hend
    · cases hend
      exact ⟨course, rfl, ‹_›, rfl⟩
    · cases hend
  | error halt t =>
    rw [hrun] at h
    obtain rfl : halt = .failed (.unreachable unreachable files) := by
      unfold harvest? at h
      split at h <;> simp_all
    have hdeferred : (Halt.failed (.unreachable unreachable files)).isDeferred = true := rfl
    have hkept := Walk.keptByAll_true (collector.job source)
    rcases Walk.bind_eq_error.1 hrun with hopen | ⟨checkout, opened, hopen, hrest⟩
    · have hopening : Walk.Keeps (fun _ => True)
          (Walk.askOr (Cached.openCheckout _ source.repo (collector.reference source)) .provider) :=
        .askOr (hkept.resolve _ _) fun _ => rfl
      exact absurd hdeferred (by simp [hopening.isDeferred_eq_false hopen])
    · rcases Walk.bind_eq_error.1 hrest with hcollect | ⟨⟨⟩, u, hcollect, hend⟩
      · exact absurd hdeferred (by simp [(hkept.collectFrom _).isDeferred_eq_false hcollect])
      · obtain ⟨course, rfl⟩ := Walk.exists_course hopen hcollect
        rw [Walk.handOut_eq] at hend
        split at hend
        · cases hend
        · cases hend
          exact ⟨course, rfl, rfl, by rw [if_neg ‹_›]⟩

end Collector

end DependencyFiles
