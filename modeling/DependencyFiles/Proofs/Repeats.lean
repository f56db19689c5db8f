import DependencyFiles.Proofs.ProviderErrors
import DependencyFiles.Proofs.Visits

/-!
# Steps that are taken again

What a collection has come to know it goes on knowing: answers, collected files, noted packages
and the outcomes of searches. A step that only asks and reads comes to the same in any later state
and leaves that state as it is.
-/

namespace DependencyFiles

namespace Kept

variable {κ α σ : Type} [BEq κ] [LawfulBEq κ]

omit [LawfulBEq κ] in
/-- The answers in a table are found in another one under the same keys. -/
def Persists (kept later : Kept κ α) : Prop :=
  ∀ key answer, List.lookup key kept = some answer → List.lookup key later = some answer

variable (kept : Kept κ α) (key : κ) (query : Query σ α) (inner : σ)

omit [LawfulBEq κ] in
/-- Asking loses no kept answer. -/
theorem persists_ask : kept.Persists (kept.ask key query inner).2.1 := by
  intro other answer hother
  unfold ask
  split
  · exact hother
  · exact List.lookup_append.trans (by rw [hother, Option.some_or])

/-- The answer to a question is kept from then on. -/
theorem lookup_ask :
    List.lookup key (kept.ask key query inner).2.1 = some (kept.ask key query inner).1 := by
  unfold ask
  split
  · assumption
  · rw [List.lookup_append, ‹List.lookup key kept = none›, Option.none_or]
    exact List.lookup_cons_self

variable {kept key}

omit [LawfulBEq κ] in
/-- A question whose answer is kept is not put. -/
theorem ask_of_lookup {answer : Answer α} (h : List.lookup key kept = some answer) :
    kept.ask key query inner = (answer, kept, inner) := by
  unfold ask
  rw [h]

end Kept

/-- All kept answers of a provider's state are also kept in a later one. -/
structure Cached.Persists {σ : Type} (cached later : Cached σ) : Prop where
  commits : cached.commits.Persists later.commits
  listings : cached.listings.Persists later.listings
  contents : cached.contents.Persists later.contents

namespace Cached.Persists

variable {σ : Type} {first second third : Cached σ}

theorem refl (cached : Cached σ) : cached.Persists cached :=
  ⟨fun _ _ => id, fun _ _ => id, fun _ _ => id⟩

theorem trans (h : first.Persists second) (hmore : second.Persists third) : first.Persists third :=
  ⟨fun key answer hkey => hmore.commits key answer (h.commits key answer hkey),
    fun key answer hkey => hmore.listings key answer (h.listings key answer hkey),
    fun key answer hkey => hmore.contents key answer (h.contents key answer hkey)⟩

end Cached.Persists

/-- What is known in the first state is also known in the second, and what settles a search with the
given budget settles it in the same way. -/
structure Progress.Recalled {σ : Type} (budget : Nat) (s t : Progress σ) : Prop where
  cached : s.cached.Persists t.cached
  keys : s.keys ⊆ t.keys
  settled : ∀ key found, (s.searched.lookup key).bind (·.answer? budget) = some found →
    (t.searched.lookup key).bind (·.answer? budget) = some found
  noted : s.unreachableNames ⊆ t.unreachableNames

namespace Progress.Recalled

variable {σ : Type} {budget : Nat} {s t u : Progress σ}

theorem refl (s : Progress σ) : s.Recalled budget s :=
  ⟨.refl _, fun _ => id, fun _ _ => id, fun _ => id⟩

theorem trans (h : s.Recalled budget t) (hmore : t.Recalled budget u) : s.Recalled budget u :=
  ⟨h.cached.trans hmore.cached, fun _ hkey => hmore.keys (h.keys hkey),
    fun key found hkey => hmore.settled key found (h.settled key found hkey),
    fun _ hname => hmore.noted (h.noted hname)⟩

end Progress.Recalled

namespace Walk

variable {σ α β γ δ : Type} {budget : Nat}

/-- After the first step nothing is forgotten, and in any state that recalls what is known then the
second step changes nothing and has a result that goes with the first one's. -/
def Repeats (budget : Nat) (x : Walk σ α) (y : Walk σ β) (goes : α → β → Prop) : Prop :=
  ∀ s a t, x s = .ok a t →
    s.Recalled budget t ∧ ∀ u, t.Recalled budget u → ∃ b, y u = .ok b u ∧ goes a b

namespace Repeats

variable {x : Walk σ α} {y : Walk σ β} {goes : α → β → Prop}

theorem pure {a : α} {b : β} (h : goes a b) : Repeats budget (pure a : Walk σ α) (pure b) goes := by
  intro s a' t hrun
  cases hrun
  exact ⟨.refl _, fun u _ => ⟨b, rfl, h⟩⟩

theorem fail (failure : Failure) : Repeats budget (fail failure) y goes := nofun

theorem exhausted : Repeats budget (throw .exhausted) y goes := nofun

theorem bind {f : α → Walk σ γ} {g : β → Walk σ δ} {goes' : γ → δ → Prop}
    (hx : Repeats budget x y goes) (hf : ∀ a b, goes a b → Repeats budget (f a) (g b) goes') :
    Repeats budget (x >>= f) (y >>= g) goes' := by
  intro s c t hrun
  obtain ⟨a, r, hfirst, hsecond⟩ := bind_eq_ok.1 hrun
  obtain ⟨hsr, hagain⟩ := hx s a r hfirst
  obtain ⟨b, -, hab⟩ := hagain r (.refl r)
  have hrt := (hf a b hab r c t hsecond).1
  refine ⟨hsr.trans hrt, fun u hu => ?_⟩
  obtain ⟨b, hy, hab⟩ := hagain u (hrt.trans hu)
  obtain ⟨d, hg, hcd⟩ := (hf a b hab r c t hsecond).2 u hu
  exact ⟨d, (bind_of_ok hy).trans hg, hcd⟩

/-- A step with the same result again is followed by what repeats from there. -/
theorem bind_same {f : α → Walk σ γ} {g : α → Walk σ δ} {goes' : γ → δ → Prop}
    (hx : Repeats budget x x Eq) (hf : ∀ a, Repeats budget (f a) (g a) goes') :
    Repeats budget (x >>= f) (x >>= g) goes' :=
  hx.bind fun a _ hab => hab ▸ hf a

theorem ite {c : Bool} {x' : Walk σ α} {y' : Walk σ β} (htrue : Repeats budget x y goes)
    (hfalse : Repeats budget x' y' goes) :
    Repeats budget (if c then x else x') (if c then y else y') goes := by
  cases c
  · exact hfalse
  · exact htrue

/-- Instead of repeating the step, a result may be given at once. -/
theorem skip {b : γ} {goes' : α → γ → Prop} (h : Repeats budget x y goes)
    (hb : ∀ a, goes' a b) :
    Repeats budget x (Pure.pure b) goes' :=
  fun s a t hrun => ⟨(h s a t hrun).1, fun _ _ => ⟨b, rfl, hb a⟩⟩

end Repeats

/-- A question whose answer is kept, or is always the same. -/
def Lasting (query : Query (Cached σ) α) : Prop :=
  ∀ cached, cached.Persists (query cached).2 ∧
    ∀ later, (query cached).2.Persists later → query later = ((query cached).1, later)

/-- A lasting question is answered again as it was. -/
theorem repeats_ask {query : Query (Cached σ) α} (h : Lasting query) :
    Repeats budget (ask query) (ask query) Eq := by
  intro s a t hrun
  obtain ⟨hpersists, hagain⟩ := h s.cached
  cases hrun
  refine ⟨⟨hpersists, fun _ => id, fun _ _ => id, fun _ => id⟩, fun u hu => ?_⟩
  have hsame := hagain u.cached hu.cached
  refine ⟨(query s.cached).1, ?_, rfl⟩
  unfold ask
  rw [hsame]

/-- A lasting question that may have no answer is answered again as it was. -/
theorem repeats_ask? {query : Query (Cached σ) α} (h : Lasting query) :
    Repeats budget (ask? query) (ask? query) Eq := by
  refine (repeats_ask h).bind_same fun answer => ?_
  cases answer with
  | ok a => exact .pure rfl
  | error error => exact .ite (.pure rfl) (.fail _)

section Asking

variable {forge : Forge} {job : Job (List Request)} (hjob : job.provider = forge.provider)

/-- References are resolved once. -/
theorem lasting_openCheckout (job : Job σ) (repo reference : String) :
    Lasting (Cached.openCheckout job.provider repo reference) := by
  intro cached
  refine ⟨⟨Kept.persists_ask _ _ _ _, fun _ _ => id, fun _ _ => id⟩, fun later hlater => ?_⟩
  have hkept := hlater.commits _ _ (Kept.lookup_ask cached.commits (repo, reference) _ _)
  simp only [Cached.openCheckout, Cached.resolve, Kept.ask_of_lookup _ _ hkept]

/-- Paths are listed once. -/
theorem lasting_list (job : Job σ) (checkout : Checkout) (path : TreePath) :
    Lasting (Cached.list job.provider checkout path) := by
  intro cached
  refine ⟨⟨fun _ _ => id, Kept.persists_ask _ _ _ _, fun _ _ => id⟩, fun later hlater => ?_⟩
  have hkept := hlater.listings _ _ (Kept.lookup_ask cached.listings (checkout, path) _ _)
  simp only [Cached.list, Kept.ask_of_lookup _ _ hkept]

/-- Files are read once. -/
theorem lasting_contentOf (job : Job σ) (place : Place) : Lasting (contentOf job place) := by
  intro cached
  refine ⟨⟨fun _ _ => id, fun _ _ => id, Kept.persists_ask _ _ _ _⟩, fun later hlater => ?_⟩
  have hkept := hlater.contents _ _
    (Kept.lookup_ask cached.contents (place.mount.checkout, place.path) _ _)
  simp only [contentOf, Cached.read, Kept.ask_of_lookup _ _ hkept]

include hjob in
/-- A forge tells the target of a submodule without a request. -/
theorem lasting_target (entry : Entry) : Lasting (Cached.target job.provider entry) := by
  rw [hjob]
  exact fun cached => ⟨.refl _, fun later _ => rfl⟩

/-- A place is listed again as it was. -/
theorem repeats_list? (job : Job σ) (place : Place) :
    Repeats budget (list? job place) (list? job place) Eq :=
  repeats_ask? (lasting_list job _ _)

/-- A file is listed again as it was. -/
theorem repeats_isListedFile (job : Job σ) (place : Place) :
    Repeats budget (isListedFile job place) (isListedFile job place) Eq := by
  refine (repeats_list? job _).bind_same fun entries => ?_
  cases entries <;> exact .pure rfl

include hjob

/-- A submodule is entered again as it was. -/
theorem repeats_enter? (mount : Mount) (entry : Entry) :
    Repeats budget (enter? job mount entry) (enter? job mount entry) Eq := by
  refine (repeats_ask? (lasting_target hjob entry)).bind_same fun target => ?_
  cases target with
  | none => exact .pure rfl
  | some target =>
    refine (repeats_ask? (lasting_openCheckout job _ _)).bind_same fun checkout => ?_
    cases checkout <;> exact .pure rfl

/-- The submodule around a missing place is found again as it was. -/
theorem repeats_throughSubmodule? (place : Place) (ancestors : List TreePath) :
    Repeats budget (throughSubmodule? job place ancestors) (throughSubmodule? job place ancestors)
      Eq := by
  induction ancestors with
  | nil => exact .pure rfl
  | cons ancestor rest ih =>
    refine (repeats_list? job _).bind_same fun entries => ?_
    cases entries with
    | none => exact ih
    | some entries =>
      dsimp only
      split
      · exact .pure rfl
      · refine (repeats_enter? hjob _ _).bind_same fun root => ?_
        cases root <;> exact .pure rfl

/-- A directory is located again as it was. -/
theorem repeats_locateWithin (fuel : Nat) (place : Place) :
    Repeats budget (locateWithin job fuel place) (locateWithin job fuel place) Eq := by
  induction fuel generalizing place with
  | zero => exact .exhausted
  | succ fuel ih =>
    refine (repeats_list? job place).bind_same fun entries => ?_
    cases entries with
    | some entries =>
      dsimp only
      split
      · exact .pure rfl
      · exact .ite (repeats_enter? hjob _ _) (.pure rfl)
    | none =>
      refine .ite ?_ (.pure rfl)
      refine (repeats_throughSubmodule? hjob place _).bind_same fun inner => ?_
      cases inner with
      | none => exact .pure rfl
      | some inner => exact ih inner

end Asking

section Reading

variable (job : Job σ)

/-- Reading a file forgets nothing, and when it is read again the answer is the same and the file
is collected already. -/
theorem repeats_readCollecting (place : Place) (role : DependencyFile.Role) :
    Repeats budget (readCollecting job place role) (readCollecting job place role)
      Eq := by
  intro s answer t hrun
  obtain ⟨hpersists, hagain⟩ := lasting_contentOf job place s.cached
  rw [readCollecting_eq] at hrun
  cases hanswer : (contentOf job place s.cached).1 with
  | error error =>
    rw [hanswer] at hrun hagain
    cases hrun
    refine ⟨⟨hpersists, fun _ => id, fun _ _ => id, fun _ => id⟩, fun u hu => ⟨_, ?_, rfl⟩⟩
    rw [readCollecting_eq, Progress.asked, hagain u.cached hu.cached]
  | ok content =>
    rw [hanswer] at hrun hagain
    cases hrun
    have hcached := cached_collecting (s.asked (contentOf job place)) job place role content
    have hsearched : (collecting (s.asked (contentOf job place)) job place role content).searched =
        s.searched := by
      unfold collecting
      split <;> rfl
    have hnames : (collecting (s.asked (contentOf job place)) job place role content).unreachableNames =
        s.unreachableNames := by
      unfold collecting
      split <;> rfl
    refine ⟨⟨hcached ▸ hpersists, fun key hkey => mem_keys_collecting.2 (.inl hkey),
      fun _ _ h => hsearched ▸ h, hnames.symm ▸ fun _ => id⟩,
      fun u hu => ⟨_, ?_, rfl⟩⟩
    have hkey : place.key ∈ u.keys := hu.keys (mem_keys_collecting.2 (.inr rfl))
    have hlater := hu.cached
    rw [hcached] at hlater
    rw [readCollecting_eq, Progress.asked, hagain u.cached hlater]
    exact congrArg (EStateM.Result.ok _) (collecting_of_mem hkey)

/-- An optional file is read again as it was. -/
theorem repeats_readOptional (place : Place) (role : DependencyFile.Role) :
    Repeats budget (readOptional job place role) (readOptional job place role) Eq := by
  refine (repeats_readCollecting job place role).bind_same fun answer => ?_
  cases answer with
  | ok content => exact .pure rfl
  | error error => exact .ite (.pure rfl) (.fail _)

/-- A file that must be read is read again as it was. -/
theorem repeats_readRequired (place : Place) (role : DependencyFile.Role) :
    Repeats budget (readRequired job place role) (readRequired job place role) Eq := by
  refine (repeats_readCollecting job place role).bind_same fun answer => ?_
  cases answer with
  | ok content => exact .pure rfl
  | error error => exact .fail _

/-- Scanning a file looks at nothing but its text. -/
theorem repeats_scan (place : Place) (text : String) :
    Repeats budget (scan job place text) (scan job place text) Eq := by
  unfold scan
  split
  · exact .pure rfl
  · exact .fail _

end Reading

end Walk

end DependencyFiles
