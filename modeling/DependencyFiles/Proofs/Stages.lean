import DependencyFiles.Proofs.Bounds

/-!
# Collections on their way

Also a collection that never comes to its end has stages: once it has begun, each lead that was
followed leaves a stack of leads and a state to go on from. What holds when a collection begins and
is preserved by every visit holds at each stage. A collection that halts does so while it opens its
checkout, while it begins, while it follows a lead at some stage, at the bound, or when it hands out
its files.
-/

namespace DependencyFiles.Walk

variable {σ : Type}

/-- A collection that has begun has come to a state with a stack of leads that are to be followed. -/
inductive Underway (job : Job σ) (repo reference : String) (initial : Progress σ) (checkout : Checkout)
    (first : Start) : (stack : List Lead) → Progress σ → Prop
  | begun {opened started : Progress σ}
      (hopen : askOr (Cached.openCheckout job.provider repo reference) .provider initial =
        .ok checkout opened)
      (hstart : start job ⟨checkout, .root⟩ opened = .ok first started) :
      Underway job repo reference initial checkout first first.leads started
  | followed {lead : Lead} {rest found : List Lead} {s t : Progress σ}
      (hunderway : Underway job repo reference initial checkout first (lead :: rest) s)
      (hvisit : visit job first.directory first.authoritative lead s = .ok found t) :
      Underway job repo reference initial checkout first (found ++ rest) t

/-- Where a collection that halts does so, and in which state it is then. -/
inductive Interrupted (job : Job σ) (repo reference : String) (initial : Progress σ) :
    Halt → Progress σ → Prop
  | opening {halt : Halt} {t : Progress σ}
      (hopen : askOr (Cached.openCheckout job.provider repo reference) .provider initial =
        .error halt t) : Interrupted job repo reference initial halt t
  | beginning {halt : Halt} {checkout : Checkout} {opened t : Progress σ}
      (hopen : askOr (Cached.openCheckout job.provider repo reference) .provider initial =
        .ok checkout opened)
      (hstart : start job ⟨checkout, .root⟩ opened = .error halt t) :
      Interrupted job repo reference initial halt t
  | following {halt : Halt} {checkout : Checkout} {first : Start} {lead : Lead} {rest : List Lead}
      {s t : Progress σ}
      (hunderway : Underway job repo reference initial checkout first (lead :: rest) s)
      (hvisit : visit job first.directory first.authoritative lead s = .error halt t) :
      Interrupted job repo reference initial halt t
  | bound (t : Progress σ) : Interrupted job repo reference initial .exhausted t
  | ended (t : Progress σ) : Interrupted job repo reference initial
      (.failed (.unreachable t.unreachable t.files)) t

variable {job : Job σ} {repo reference : String} {initial : Progress σ} {checkout : Checkout}
  {first : Start}

/-- Following leads halts at the bound, or in a visit at some stage. -/
theorem interrupted_of_followAll {fuel : Nat} {stack : List Lead} {s t : Progress σ} {halt : Halt}
    (h : Underway job repo reference initial checkout first stack s)
    (hhalt : followAll (visit job first.directory first.authoritative) fuel stack s = .error halt t) :
    Interrupted job repo reference initial halt t := by
  induction fuel generalizing stack s with
  | zero =>
    induction stack generalizing s with
    | nil => cases hhalt
    | cons lead rest ih =>
      rw [followAll_cons] at hhalt
      rcases bind_eq_error.1 hhalt with hvisit | ⟨found, u, hvisit, hhalt⟩
      · exact .following h hvisit
      · cases found with
        | nil => exact ih (h.followed hvisit) hhalt
        | cons _ _ =>
          cases hhalt
          exact .bound _
  | succ fuel ihfuel =>
    induction stack generalizing s with
    | nil => cases hhalt
    | cons lead rest ih =>
      rw [followAll_cons] at hhalt
      rcases bind_eq_error.1 hhalt with hvisit | ⟨found, u, hvisit, hhalt⟩
      · exact .following h hvisit
      · cases found with
        | nil => exact ih (h.followed hvisit) hhalt
        | cons next found => exact ihfuel (h.followed hvisit) hhalt

/-- A collection that halts does so in one of its stages. -/
theorem interrupted_of_collectSource {t : Progress σ} {halt : Halt}
    (hhalt : collectSource job repo reference initial = .error halt t) :
    Interrupted job repo reference initial halt t := by
  rcases bind_eq_error.1 hhalt with hopen | ⟨checkout, opened, hopen, hhalt⟩
  · exact .opening hopen
  rcases bind_eq_error.1 hhalt with hcollect | ⟨⟨⟩, u, hcollect, hend⟩
  · rcases bind_eq_error.1 hcollect with hstart | ⟨first, started, hstart, hfollow⟩
    · exact .beginning hopen hstart
    · exact interrupted_of_followAll (.begun hopen hstart) hfollow
  · rw [handOut_eq] at hend
    split at hend
    · cases hend
    · cases hend
      exact .ended _

namespace Underway

/-- An invariant of all elementary steps holds at each stage. -/
theorem of_keptByAll {I : Progress σ → Prop} (hI : KeptByAll job I) (hinitial : I initial)
    {stack : List Lead} {s : Progress σ}
    (h : Underway job repo reference initial checkout first stack s) : I s := by
  induction h with
  | begun hopen hstart =>
    exact ((hI.start _) _ (((Keeps.askOr (hI.resolve _ _) fun _ => rfl) _ hinitial).of_ok hopen)).of_ok
      hstart
  | followed _ hvisit ih => exact ((hI.visit _ _ _) _ ih).of_ok hvisit

variable {forge : Forge} {job : Job (List Request)} {log : List Request} {stack : List Lead}
  {s : Progress (List Request)} (hjob : job.provider = forge.provider)
  (h : Underway job repo reference { cached := { inner := log } } checkout first stack s)

include hjob h

/-- A collection on its way began with the files of the base directory. -/
theorem exists_beginning : forge.checkout? ⟨repo, reference⟩ = some checkout ∧
    ∃ started, Beginning forge job checkout first started := by
  induction h with
  | begun hopen hstart =>
    obtain ⟨hcheckout, hbeginning⟩ := beginning_of_ok hjob hopen hstart
    exact ⟨hcheckout, _, hbeginning⟩
  | followed _ _ ih => exact ih

/-- What holds when a collection begins and is preserved by every visit from within the forge holds at
each stage, where the collection is within the forge. -/
theorem within_and {I : List Lead → Progress (List Request) → Prop}
    (hstart : ∀ {t}, Beginning forge job checkout first t → I first.leads t)
    (hstep : ∀ {lead rest found s t}, VisitFinding forge job ⟨checkout, .root⟩ first.directory.key
      first.authoritative lead s found t → I (lead :: rest) s → I (found ++ rest) t) :
    Within forge job log ⟨checkout, .root⟩ stack s ∧ I stack s := by
  obtain ⟨-, started, hbegan⟩ := h.exists_beginning hjob
  have hshows (path : TreePath) (hshows : forge.Shows first.directory.key path) :=
    Forge.showsFile_of_base hbegan.base hshows
  induction h with
  | begun hopen hstart' =>
    obtain ⟨-, hbeginning⟩ := beginning_of_ok hjob hopen hstart'
    have hlogged := (Underway.begun hopen hstart').of_keptByAll (Forge.logged_keptByAll hjob log)
      (Forge.logged_initial forge log)
    exact ⟨hbeginning.within hlogged, hstart hbeginning⟩
  | @followed lead rest found s t _ hvisit ih =>
    obtain ⟨hwithin, hI⟩ := ih
    have hroot := hwithin.mounted lead List.mem_cons_self
    have hfinding := (gives_visit hjob hbegan.mounted hshows hroot hwithin.sound).of_ok hvisit
    exact ⟨(hwithin.step hjob hbegan.mounted hshows hvisit).1, hstep hfinding hI⟩

/-- At each stage a collection is within the forge. -/
theorem within : Within forge job log ⟨checkout, .root⟩ stack s :=
  (h.within_and hjob (I := fun _ _ => True) (fun _ => trivial) fun _ _ => trivial).1

end Underway

end DependencyFiles.Walk
