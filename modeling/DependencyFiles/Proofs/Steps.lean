import DependencyFiles.Collect.Collector

/-!
# What steps come to

A step of a collection either gives a result or halts, and in both cases leaves a state.
`Gives` says what holds then, and turns into a statement about the parts of a composed
step. `Keeps` is the case of one invariant that holds before and after; it also says that
no halt is the deferred one, which only the end of a collection raises.

An invariant that the few elementary steps keep is kept by every step. The three structures
name the elementary steps: questions, questions and readings, or all of them.
-/

namespace DependencyFiles

/-- Whether a halt carries the packages that were noted during a whole collection. -/
def Halt.isDeferred : Halt → Bool
  | .failed (.unreachable _ _) => true
  | _ => false

/-- The state after a question: only the provider's side changes. -/
def Progress.asked {σ α : Type} (s : Progress σ) (query : Query (Cached σ) α) : Progress σ :=
  { s with cached := (query s.cached).2 }

namespace Walk

variable {σ α β : Type}

/-- What holds of the result of a step and the state after it, or else of its halt. -/
def Gives (x : Walk σ α) (s : Progress σ) (result : α → Progress σ → Prop)
    (halt : Halt → Progress σ → Prop) : Prop :=
  match x s with
  | .ok a t => result a t
  | .error h t => halt h t

section Gives

variable {s : Progress σ} {halt : Halt → Progress σ → Prop}

/-- A result without a step leaves the state as it is. -/
@[simp] theorem gives_pure (a : α) (result : α → Progress σ → Prop) :
    Gives (pure a) s result halt ↔ result a s := Iff.rfl

/-- A composed step gives what its second part gives after its first part. -/
@[simp] theorem gives_bind (x : Walk σ α) (f : α → Walk σ β) (result : β → Progress σ → Prop) :
    Gives (x >>= f) s result halt ↔ Gives x s (fun a t => Gives (f a) t result halt) halt := by
  simp only [Gives, bind, EStateM.bind]
  cases x s <;> rfl

/-- Reading the state gives the state. -/
@[simp] theorem gives_get (result : Progress σ → Progress σ → Prop) :
    Gives get s result halt ↔ result s s := Iff.rfl

/-- Changing the state gives the changed state. -/
@[simp] theorem gives_modify (f : Progress σ → Progress σ) (result : PUnit → Progress σ → Prop) :
    Gives (modify f) s result halt ↔ result ⟨⟩ (f s) := Iff.rfl

/-- A question gives its answer. -/
@[simp] theorem gives_ask (query : Query (Cached σ) α) (result : Answer α → Progress σ → Prop) :
    Gives (ask query) s result halt ↔
      result (query s.cached).1 (s.asked query) := Iff.rfl

/-- Whether a file is collected is read off the state. -/
@[simp] theorem gives_isCollected (place : Place) (result : Bool → Progress σ → Prop) :
    Gives (isCollected place) s result halt ↔
      result (s.files.any fun file => file.key = place.key) s := Iff.rfl

/-- What a step gives may be weakened. -/
theorem Gives.imp {x : Walk σ α} {result result' : α → Progress σ → Prop}
    {halt' : Halt → Progress σ → Prop} (h : Gives x s result halt)
    (hresult : ∀ a t, result a t → result' a t) (hhalt : ∀ e t, halt e t → halt' e t) :
    Gives x s result' halt' := by
  unfold Gives at *
  split at h
  · exact hresult _ _ h
  · exact hhalt _ _ h

/-- What a step gives may be weakened, and nothing be said of halts. -/
theorem Gives.mono {x : Walk σ α} {result result' : α → Progress σ → Prop}
    (h : Gives x s result halt) (hresult : ∀ a t, result a t → result' a t) :
    Gives x s result' fun _ _ => True :=
  h.imp hresult fun _ _ _ => trivial

/-- Two statements about a step hold together. -/
theorem Gives.and {x : Walk σ α} {result result' : α → Progress σ → Prop}
    {halt' : Halt → Progress σ → Prop} (h : Gives x s result halt) (h' : Gives x s result' halt') :
    Gives x s (fun a t => result a t ∧ result' a t) (fun e t => halt e t ∧ halt' e t) := by
  unfold Gives at *
  split at h <;> exact ⟨h, by simp_all⟩

/-- What a step gives holds of the result that it has. -/
theorem Gives.of_ok {x : Walk σ α} {result : α → Progress σ → Prop} (h : Gives x s result halt)
    {a : α} {t : Progress σ} (hrun : x s = .ok a t) : result a t := by
  unfold Gives at h
  rw [hrun] at h
  exact h

/-- What a step gives holds of the halt that it comes to. -/
theorem Gives.of_error {x : Walk σ α} {result : α → Progress σ → Prop} (h : Gives x s result halt)
    {e : Halt} {t : Progress σ} (hrun : x s = .error e t) : halt e t := by
  unfold Gives at h
  rw [hrun] at h
  exact h

end Gives

/-- A composed step goes on from the result of its first part. -/
theorem bind_of_ok {x : Walk σ α} {f : α → Walk σ β} {s t : Progress σ} {a : α}
    (h : x s = .ok a t) : (x >>= f) s = f a t := by
  simp only [bind, EStateM.bind, h]

/-- A composed step that has a result has one in both parts. -/
theorem bind_eq_ok {x : Walk σ α} {f : α → Walk σ β} {s u : Progress σ} {b : β} :
    (x >>= f) s = .ok b u ↔ ∃ a t, x s = .ok a t ∧ f a t = .ok b u := by
  simp only [bind, EStateM.bind]
  cases x s <;> simp [and_assoc]

/-- A composed step that halts does so in its first or its second part. -/
theorem bind_eq_error {x : Walk σ α} {f : α → Walk σ β} {s u : Progress σ} {e : Halt} :
    (x >>= f) s = .error e u ↔ x s = .error e u ∨ ∃ a t, x s = .ok a t ∧ f a t = .error e u := by
  simp only [bind, EStateM.bind]
  cases x s <;> simp [and_assoc]

/-- The invariant holds after the step when it holds before, and no halt is deferred. -/
def Keeps (I : Progress σ → Prop) (x : Walk σ α) : Prop :=
  ∀ s, I s → Gives x s (fun _ t => I t) fun halt t => I t ∧ halt.isDeferred = false

section Keeps

variable {I : Progress σ → Prop}

theorem Keeps.pure (a : α) : Keeps I (pure a : Walk σ α) := fun _ hs => hs

theorem Keeps.bind {x : Walk σ α} {f : α → Walk σ β} (hx : Keeps I x) (hf : ∀ a, Keeps I (f a)) :
    Keeps I (x >>= f) := fun s hs =>
  (gives_bind ..).2 ((hx s hs).imp (fun a t ht => hf a t ht) fun _ _ h => h)

theorem Keeps.fail {failure : Failure} (h : (Halt.failed failure).isDeferred = false) :
    Keeps I (Walk.fail failure : Walk σ α) := fun _ hs => ⟨hs, h⟩

theorem Keeps.isCollected (place : Place) : Keeps I (Walk.isCollected place : Walk σ Bool) :=
  fun _ hs => hs

theorem Keeps.ite {c : Bool} {x y : Walk σ α} (hx : Keeps I x) (hy : Keeps I y) :
    Keeps I (if c then x else y) := by
  cases c
  · exact hy
  · exact hx

/-- A question whose failures end the collection keeps what the question keeps. -/
theorem Keeps.askOr {query : Query (Cached σ) α} {failure : ProviderError → Failure}
    (h : Keeps I (ask query)) (hfailure : ∀ e, (Halt.failed (failure e)).isDeferred = false) :
    Keeps I (Walk.askOr query failure) :=
  h.bind fun answer => by
    cases answer with
    | ok a => exact .pure a
    | error e => exact .fail (hfailure e)

end Keeps

end Walk

/-- Failures to list a directory are not deferred. -/
theorem Failure.isDeferred_ofListing (error : ProviderError) (directory : String) :
    (Halt.failed (.ofListing error directory)).isDeferred = false := by
  unfold ofListing
  split <;> rfl

/-- Failures to read a file are not deferred. -/
theorem Failure.isDeferred_ofReading (error : ProviderError) (path : String) :
    (Halt.failed (.ofReading error path)).isDeferred = false := by
  unfold ofReading
  split <;> rfl

end DependencyFiles
