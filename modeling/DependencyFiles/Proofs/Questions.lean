import DependencyFiles.Collect.Collector
import DependencyFiles.Proofs.Reach
import DependencyFiles.Proofs.Trees

/-!
# Steps that only ask

Locating a directory, entering a submodule and looking a file up in a listing ask questions
and change nothing else. Their results are told by the forge alone, whatever has been asked
or collected before.
-/

namespace DependencyFiles.Walk

variable {forge : Forge} {job : Job (List Request)} {α β : Type}

/-- The step only asks, and of its result something holds whatever has been asked before. -/
def Tells (forge : Forge) (x : Walk (List Request) α) (P : α → Prop) : Prop :=
  ∀ s, forge.Truthful s → Gives x s
    (fun a t => P a ∧ forge.Truthful t ∧ ∃ cached, t = { s with cached }) fun _ _ => True

namespace Tells

theorem pure {P : α → Prop} {a : α} (h : P a) : Tells forge (pure a) P :=
  fun s hs => ⟨h, hs, s.cached, rfl⟩

theorem fail {P : α → Prop} (failure : Failure) : Tells forge (fail failure) P :=
  fun _ _ => trivial

theorem bind {x : Walk (List Request) α} {f : α → Walk (List Request) β} {P : α → Prop}
    {Q : β → Prop} (hx : Tells forge x P) (hf : ∀ a, P a → Tells forge (f a) Q) :
    Tells forge (x >>= f) Q := by
  intro s hs
  rw [gives_bind]
  apply (hx s hs).mono
  intro a t hafter
  obtain ⟨ha, ht, cached, rfl⟩ := hafter
  apply (hf a ha _ ht).mono
  intro b u hafter
  obtain ⟨hb, hu, cached', rfl⟩ := hafter
  exact ⟨hb, hu, cached', rfl⟩

theorem imp {x : Walk (List Request) α} {P Q : α → Prop} (hx : Tells forge x P)
    (h : ∀ a, P a → Q a) : Tells forge x Q :=
  fun s hs => (hx s hs).mono fun a _ ht => ⟨h a ht.1, ht.2⟩

theorem ite {c : Bool} {x y : Walk (List Request) α} {P : α → Prop}
    (hx : c = true → Tells forge x P) (hy : c = false → Tells forge y P) :
    Tells forge (if c then x else y) P := by
  cases c
  · exact hy rfl
  · exact hx rfl

/-- A question that may have no answer gives the answer when there is one. -/
theorem ask? {query : Query (Cached (List Request)) α} {answer : Answer α}
    (h : Tells forge (ask query) (· = answer)) :
    Tells forge (Walk.ask? query) (· = answer.toOption) := by
  refine h.bind ?_
  intro given hthis
  obtain rfl := hthis
  cases given with
  | ok a => exact .pure rfl
  | error error => exact .ite (fun _ => .pure rfl) fun _ => .fail _

/-- A question that must have an answer gives the answer. -/
theorem askOr {query : Query (Cached (List Request)) α} {answer : Answer α}
    {failure : ProviderError → Failure} (h : Tells forge (ask query) (· = answer)) :
    Tells forge (Walk.askOr query failure) (fun a => answer.toOption = some a) := by
  refine h.bind ?_
  intro given hthis
  obtain rfl := hthis
  cases given with
  | ok a => exact .pure rfl
  | error error => exact .fail _

end Tells

section Questions

variable (hjob : job.provider = forge.provider)

include hjob

/-- A listing is the forge's. -/
theorem tells_askList (key : Key) :
    Tells forge (ask (Cached.list job.provider key.1 key.2))
      (· = forge.list key.1.repo key.1.commit key.2) := by
  intro s hs
  have ht := ((Forge.truthful_keptByAll hjob).list key.1 key.2 s hs)
  rw [gives_ask] at ht ⊢
  refine ⟨?_, ht, _, rfl⟩
  rw [hjob]
  exact hs.list_fst key.1 key.2

/-- A checkout that is opened is the forge's. -/
theorem tells_askCheckout (repo reference : String) :
    Tells forge (ask (Cached.openCheckout job.provider repo reference))
      (· = (forge.resolve repo reference).map (⟨forge.name, repo, ·⟩)) := by
  intro s hs
  have ht := ((Forge.truthful_keptByAll hjob).resolve repo reference s hs)
  rw [gives_ask] at ht ⊢
  refine ⟨?_, ht, _, rfl⟩
  rw [hjob]
  exact hs.openCheckout_fst repo reference

/-- The target of a submodule is the one that its entry carries. -/
theorem tells_askTarget (entry : Entry) :
    Tells forge (ask (Cached.target job.provider entry)) (· = entry.target?) := by
  intro s hs
  have ht := ((Forge.truthful_keptByAll hjob).target entry s hs)
  rw [gives_ask] at ht ⊢
  refine ⟨?_, ht, _, rfl⟩
  rw [hjob]
  rfl

/-- A place is listed as the forge lists it. -/
theorem tells_list? (place : Place) :
    Tells forge (list? job place) (· = forge.listing? place.key) :=
  (tells_askList hjob place.key).ask?

/-- A submodule is entered at the root of the repository that it leads to. -/
theorem tells_enter? (mount : Mount) (entry : Entry) :
    Tells forge (enter? job mount entry) (· = (forge.inside? entry).map
      fun checkout => ⟨⟨checkout, mount.position ++ entry.path⟩, .root⟩) := by
  refine (tells_askTarget hjob entry).ask?.bind ?_
  intro _ hthis
  obtain rfl := hthis
  unfold Forge.inside? Entry.target?
  cases entry.submodule with
  | none => exact .pure rfl
  | some target =>
    refine (tells_askCheckout hjob target.repo target.reference).ask?.bind ?_
    intro _ hthis
    obtain rfl := hthis
    simp only [Option.bind_some, Forge.checkout?]
    cases forge.resolve target.repo target.reference with
    | ok commit => exact .pure rfl
    | error error => exact .pure rfl

/-- Whether a file is listed is read off the listing of its directory. -/
theorem tells_isListedFile (place : Place) :
    Tells forge (isListedFile job place) (· = forge.showsFile place.key) := by
  refine (tells_list? hjob _).bind ?_
  intro _ hthis
  obtain rfl := hthis
  unfold Forge.showsFile Place.key Place.moveTo
  cases forge.listing? (place.mount.checkout, place.path.up) <;> exact .pure rfl

/-- The submodule around a missing place is the one around it in the forge. -/
theorem tells_throughSubmodule? (place : Place) (ancestors : List TreePath) :
    Tells forge (throughSubmodule? job place ancestors)
      (· = (forge.around? place.key.1 place.path ancestors).bind fun entry =>
        (forge.inside? entry).map fun checkout => ⟨⟨checkout, place.mount.position ++ entry.path⟩,
          place.path.drop entry.path.segments.length⟩) := by
  induction ancestors with
  | nil => exact .pure rfl
  | cons ancestor rest ih =>
    refine (tells_list? hjob _).bind ?_
    intro _ hthis
    obtain rfl := hthis
    simp only [Forge.around?, Place.key, Place.moveTo] at ih ⊢
    cases forge.listing? (place.mount.checkout, ancestor) with
    | none => exact ih
    | some entries =>
      dsimp only
      cases entries.find? fun entry => entry.isSubmodule && place.path.isWithin entry.path with
      | none => exact .pure rfl
      | some entry =>
        refine (tells_enter? hjob _ _).bind ?_
        intro _ hthis
        obtain rfl := hthis
        simp only [Option.bind_some]
        cases forge.inside? entry <;> exact .pure rfl

end Questions

/-- The place is the directory that another one leads to, or there is none. -/
structure Located (forge : Forge) (settings : Settings) (place : Place) (found : Option Place) :
    Prop where
  leads : ∀ directory, forge.Leads settings place.key directory ↔ found.map Place.key = some directory
  mounted : ∀ root, forge.Mounted root place.mount →
    ∀ directory ∈ found, forge.Mounted root directory.mount

/-- The directory that is located is the one that the place leads to. -/
theorem tells_locateWithin (hjob : job.provider = forge.provider) (fuel : Nat) (place : Place) :
    Tells forge (locateWithin job fuel place) (Located forge job.settings place) := by
  induction fuel generalizing place with
  | zero => exact fun _ _ => trivial
  | succ fuel ih =>
    refine (tells_list? hjob place).bind ?_
    intro _ hthis
    obtain rfl := hthis
    cases hlist : forge.listing? place.key with
    | some entries =>
      dsimp only
      cases hsingle : Entry.single? entries place.path with
      | none =>
        refine .pure ⟨fun directory => ?_, fun root hroot => by simpa using hroot⟩
        rw [Forge.leads_iff_here hlist hsingle, Option.map_some, Option.some_inj]
      | some entry =>
        have hleads (directory : Key) : forge.Leads job.settings place.key directory ↔ _ :=
          Forge.leads_iff_enter hlist hsingle
        refine .ite (fun hfollow => ?_) fun hstop => ?_
        · rw [Bool.and_eq_true] at hfollow
          refine (tells_enter? hjob _ _).imp ?_
          intro _ hthis
          obtain rfl := hthis
          refine ⟨fun directory => ?_, fun root hroot directory hdirectory => ?_⟩
          · rw [hleads, Option.map_map]
            exact ⟨fun h => h.2.2, fun h => ⟨hfollow.1, hfollow.2, h⟩⟩
          · obtain ⟨checkout, hinside, rfl⟩ := Option.map_eq_some_iff.1 hdirectory
            exact .enter hroot hlist (Entry.mem_of_single? hsingle) hfollow.1 hinside
        · refine .pure ⟨fun directory => ?_, by simp⟩
          rw [hleads]
          simp_all
    | none =>
      have hleads (directory : Key) : forge.Leads job.settings place.key directory ↔ _ :=
        Forge.leads_iff_through hlist
      refine .ite (fun hfollow => ?_) fun hstop => ?_
      · refine (tells_throughSubmodule? hjob _ _).bind ?_
        intro _ hthis
        obtain rfl := hthis
        cases haround : forge.around? place.key.1 place.path place.path.ancestors with
        | none =>
          refine .pure ⟨fun directory => ?_, by simp⟩
          rw [hleads]
          simp_all [Place.key]
        | some entry =>
          rw [Option.bind_some]
          cases hinside : forge.inside? entry with
          | none =>
            refine .pure ⟨fun directory => ?_, by simp⟩
            rw [hleads]
            simp_all [Place.key]
          | some checkout =>
            refine (ih _).imp fun found hfound => ⟨fun directory => ?_, fun root hroot => ?_⟩
            · rw [← hfound.leads, hleads]
              simp_all [Place.key]
            · obtain ⟨hkind, ancestor, entries, hlist, hentry⟩ := Forge.mem_of_around? haround
              exact hfound.mounted root (.enter hroot hlist hentry hkind hinside)
      · refine .pure ⟨fun directory => ?_, by simp⟩
        rw [hleads]
        simp_all

/-- The directory that is located is the one that the place leads to. -/
theorem tells_locate (hjob : job.provider = forge.provider) (place : Place) :
    Tells forge (locate job place) (Located forge job.settings place) :=
  tells_locateWithin hjob _ place

end DependencyFiles.Walk
