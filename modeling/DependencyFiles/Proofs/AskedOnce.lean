import DependencyFiles.Proofs.ProviderErrors

/-!
# A cache asks once

What is put to a provider through its cache is answered as the provider answers the first
question on the same topic, an error included. Opening a checkout and resolving its reference
are questions on one topic. The provider gets one request for each topic, in the order in
which the topics first come up, whatever becomes of the provider between the questions.
-/

namespace DependencyFiles

variable {σ : Type}

/-- An entry at the end is found under its key when there is none before it. -/
theorem lookup_snoc {κ α : Type} [BEq κ] [LawfulBEq κ] [DecidableEq κ] (entries : List (κ × α))
    (entry : κ × α) (key : κ) : List.lookup key (entries ++ [entry]) =
      (List.lookup key entries).or (if key = entry.1 then some entry.2 else none) := by
  rw [List.lookup_append, List.lookup_cons, List.lookup_nil]
  by_cases hkey : key = entry.1
  · simp [hkey]
  · simp [hkey, beq_false_of_ne hkey]

/-- Two lists stay matched when each gets the same value at its end, under matching keys. -/
theorem lookup_snoc_map {κ κ' α β : Type} [BEq κ] [LawfulBEq κ] [DecidableEq κ] [BEq κ']
    [LawfulBEq κ'] [DecidableEq κ'] {entries : List (κ × α)} {entries' : List (κ' × β)}
    {key last : κ} {key' last' : κ'} (f : α → β)
    (hkeys : key' = last' ↔ key = last)
    (h : entries'.lookup key' = (entries.lookup key).map f) (value : α) :
    (entries' ++ [(last', f value)]).lookup key' =
      ((entries ++ [(last, value)]).lookup key).map f := by
  rw [lookup_snoc, lookup_snoc, h, Option.map_or]
  by_cases hkey : key = last
  · rw [if_pos hkey, if_pos (hkeys.2 hkey), Option.map_some]
  · rw [if_neg hkey, if_neg (mt hkeys.1 hkey), Option.map_none]

/-- A question that can be put to a provider through its cache. -/
inductive Question where
  | resolve (repo reference : String)
  | openCheckout (repo reference : String)
  | list (checkout : Checkout) (path : TreePath)
  | read (checkout : Checkout) (path : TreePath)

/-- What a question is about; questions about the same share one answer. -/
inductive Topic where
  | commit (repo reference : String)
  | listing (checkout : Checkout) (path : TreePath)
  | content (checkout : Checkout) (path : TreePath)
  deriving DecidableEq

/-- What comes back for a question. -/
inductive Reply where
  | commit (answer : Answer CommitId)
  | checkout (answer : Answer Checkout)
  | listing (answer : Answer (List Entry))
  | content (answer : Answer Bytes)

/-- What happens to a provider behind its cache: a question is put, or it changes by itself. -/
inductive Event (σ : Type) where
  | ask (question : Question)
  | change (how : σ → σ)

/-- What a question is about. -/
def Question.topic : Question → Topic
  | resolve repo reference => .commit repo reference
  | openCheckout repo reference => .commit repo reference
  | list checkout path => .listing checkout path
  | read checkout path => .content checkout path

/-- What a question makes of the reply about its topic. -/
def Question.understand (name : String) : Question → Reply → Reply
  | openCheckout repo _, .commit answer => .checkout (answer.map fun commit => ⟨name, repo, commit⟩)
  | _, reply => reply

namespace Topic

/-- The request that a provider gets about a topic. -/
def request : Topic → Request
  | commit repo reference => .resolve repo reference
  | listing checkout path => .list checkout.repo checkout.commit path
  | content checkout path => .read checkout.repo checkout.commit path

/-- Whether the topic is a listing. -/
def isListing : Topic → Bool
  | listing _ _ => true
  | _ => false

/-- Whether the topic is the content of a file. -/
def isContent : Topic → Bool
  | content _ _ => true
  | _ => false

end Topic

namespace Event

/-- The question that is put. -/
def question? : Event σ → Option Question
  | ask question => some question
  | change _ => none

/-- The questions that are put, in order. -/
def questions (events : List (Event σ)) : List Question := events.filterMap question?

/-- The events without questions on topics that are known or have come up before. -/
def firsts (known : List Topic) : List (Event σ) → List (Event σ)
  | [] => []
  | change how :: rest => change how :: firsts known rest
  | ask question :: rest =>
    if question.topic ∈ known then firsts known rest
    else ask question :: firsts (question.topic :: known) rest

/-- The same event for a provider on record: changes leave the record alone. -/
def recorded : Event σ → Event (σ × List Exchange)
  | ask question => ask question
  | change how => change fun state => (how state.1, state.2)

/-- The same questions are put to a provider on record. -/
theorem questions_map_recorded (events : List (Event σ)) :
    questions (events.map recorded) = questions events := by
  rw [questions, questions, List.filterMap_map]
  refine congrArg (List.filterMap · events) (funext fun event => ?_)
  cases event <;> rfl

/-- The same questions are the first ones. -/
theorem firsts_map_recorded (events : List (Event σ)) : ∀ known : List Topic,
    firsts known (events.map recorded) = (firsts known events).map recorded := by
  induction events with
  | nil => exact fun _ => rfl
  | cons event rest ih =>
    intro known
    cases event with
    | change how => exact congrArg _ (ih known)
    | ask question =>
      by_cases hasked : question.topic ∈ known
      · simpa only [List.map_cons, recorded, firsts, if_pos hasked] using ih known
      · simpa only [List.map_cons, recorded, firsts, if_neg hasked] using congrArg _ (ih _)

end Event

/-- The request that was answered. -/
def Exchange.request? : Exchange → Option Request
  | resolve repo reference _ => some (.resolve repo reference)
  | list repo commit path _ => some (.list repo commit path)
  | read repo commit path _ => some (.read repo commit path)
  | target _ _ => none

namespace Provider

/-- A provider's own reply about a topic. -/
def reply (provider : Provider σ) : Topic → σ → Reply × σ
  | .commit repo reference, state =>
    let (answer, state) := provider.resolve repo reference state
    (.commit answer, state)
  | .listing checkout path, state =>
    let (answer, state) := provider.list checkout.repo checkout.commit path state
    (.listing answer, state)
  | .content checkout path, state =>
    let (answer, state) := provider.read checkout.repo checkout.commit path state
    (.content answer, state)

/-- A provider's own replies to all questions, each with its topic. -/
def attend (provider : Provider σ) : List (Event σ) → σ → List (Topic × Reply) × σ
  | [], state => ([], state)
  | .change how :: rest, state => provider.attend rest (how state)
  | .ask question :: rest, state =>
    let (reply, state) := provider.reply question.topic state
    let (replies, state) := provider.attend rest state
    ((question.topic, reply) :: replies, state)

/-- The first questions on new topics bring up each of these once, in order. -/
theorem topics_of_firsts (provider : Provider σ) (events : List (Event σ)) :
    ∀ (known : List Topic) (state : σ),
    (provider.attend (Event.firsts known events) state).1.map (·.1) =
      (((Event.questions events).map Question.topic).filter (· ∉ known)).eraseDups := by
  induction events with
  | nil => exact fun _ _ => rfl
  | cons event rest ih =>
    intro known state
    cases event with
    | change how => exact ih known (how state)
    | ask question =>
      rw [Event.questions, List.filterMap_cons_some (by rfl), List.map_cons]
      by_cases hasked : question.topic ∈ known
      · rw [Event.firsts, if_pos hasked, List.filter_cons_of_neg (by simpa using hasked)]
        exact ih known state
      · rw [Event.firsts, if_neg hasked, List.filter_cons_of_pos (by simpa using hasked),
          List.eraseDups_cons, List.filter_filter]
        refine congrArg (question.topic :: ·) ((ih _ _).trans ?_)
        simp [Event.questions, Bool.beq_eq_decide_eq]

/-- A provider on record replies the same and records the request about the topic. -/
theorem recorded_reply (provider : Provider σ) (topic : Topic) (state : σ) (record : List Exchange) :
    ∃ exchange, provider.recorded.reply topic (state, record) =
        ((provider.reply topic state).1, (provider.reply topic state).2, record ++ [exchange]) ∧
      exchange.request? = some topic.request := by
  cases topic with
  | commit repo reference => exact ⟨_, rfl, rfl⟩
  | listing checkout path => exact ⟨_, rfl, rfl⟩
  | content checkout path => exact ⟨_, rfl, rfl⟩

/-- A provider on record gives the same replies and records one request for each of them. -/
theorem recorded_attend (provider : Provider σ) (events : List (Event σ)) :
    ∀ (state : σ) (record : List Exchange), ∃ more,
      provider.recorded.attend (events.map Event.recorded) (state, record) =
        ((provider.attend events state).1, (provider.attend events state).2, record ++ more) ∧
      more.map Exchange.request? =
        (provider.attend events state).1.map fun entry => some entry.1.request := by
  induction events with
  | nil => exact fun _ record => ⟨[], by rw [List.append_nil]; rfl, rfl⟩
  | cons event rest ih =>
    intro state record
    cases event with
    | change how => exact ih (how state) record
    | ask question =>
      obtain ⟨exchange, hreply, hrequest⟩ := provider.recorded_reply question.topic state record
      obtain ⟨more, hmore, hrequests⟩ :=
        ih (provider.reply question.topic state).2 (record ++ [exchange])
      refine ⟨exchange :: more, ?_, ?_⟩
      · simp only [List.map_cons, Event.recorded, attend, hreply, hmore, List.append_assoc,
          List.singleton_append]
      · simp only [List.map_cons, attend, hrequest, hrequests]

end Provider

namespace Cached

/-- The reply that a question gets through the cache. -/
def reply (provider : Provider σ) : Question → Cached σ → Reply × Cached σ
  | .resolve repo reference, cached =>
    let (answer, cached) := resolve provider repo reference cached
    (.commit answer, cached)
  | .openCheckout repo reference, cached =>
    let (answer, cached) := openCheckout provider repo reference cached
    (.checkout answer, cached)
  | .list checkout path, cached =>
    let (answer, cached) := list provider checkout path cached
    (.listing answer, cached)
  | .read checkout path, cached =>
    let (answer, cached) := read provider checkout path cached
    (.content answer, cached)

/-- The replies that questions get through the cache. -/
def attend (provider : Provider σ) : List (Event σ) → Cached σ → List Reply × Cached σ
  | [], cached => ([], cached)
  | .change how :: rest, cached => attend provider rest { cached with inner := how cached.inner }
  | .ask question :: rest, cached =>
    let (reply, cached) := reply provider question cached
    let (replies, cached) := attend provider rest cached
    (reply :: replies, cached)

/-- The cache holds the replies of a transcript, each under its topic, and nothing else. -/
structure Holds (cached : Cached σ) (transcript : List (Topic × Reply)) : Prop where
  commits : ∀ repo reference, transcript.lookup (.commit repo reference) =
    (cached.commits.lookup (repo, reference)).map Reply.commit
  listings : ∀ checkout path, transcript.lookup (.listing checkout path) =
    (cached.listings.lookup (checkout, path)).map Reply.listing
  contents : ∀ checkout path, transcript.lookup (.content checkout path) =
    (cached.contents.lookup (checkout, path)).map Reply.content
  listingCount : cached.listingCount = (transcript.map (·.1)).countP Topic.isListing
  readCount : cached.readCount = (transcript.map (·.1)).countP Topic.isContent

variable {cached : Cached σ} {transcript : List (Topic × Reply)} {question : Question}

/-- An empty cache holds nothing. -/
theorem holds_nil (inner : σ) : Holds { inner } [] :=
  ⟨fun _ _ => rfl, fun _ _ => rfl, fun _ _ => rfl, rfl, rfl⟩

/-- What is held does not hang on the provider's state. -/
theorem Holds.change (h : cached.Holds transcript) (how : σ → σ) :
    Holds { cached with inner := how cached.inner } transcript :=
  ⟨h.commits, h.listings, h.contents, h.listingCount, h.readCount⟩

/-- A question on a topic in the transcript gets the reply there, and nothing changes. -/
theorem Holds.reply_known (h : cached.Holds transcript) (provider : Provider σ) {reply : Reply}
    (hknown : transcript.lookup question.topic = some reply) :
    Cached.reply provider question cached = (question.understand provider.name reply, cached) := by
  cases question with
  | resolve repo reference =>
    obtain ⟨answer, hkept, rfl⟩ := Option.map_eq_some_iff.1 ((h.commits ..).symm.trans hknown)
    simp [Cached.reply, Cached.resolve, Kept.ask, hkept, Question.understand]
  | openCheckout repo reference =>
    obtain ⟨answer, hkept, rfl⟩ := Option.map_eq_some_iff.1 ((h.commits ..).symm.trans hknown)
    simp [Cached.reply, Cached.openCheckout, Cached.resolve, Kept.ask, hkept, Question.understand]
  | list checkout path =>
    obtain ⟨answer, hkept, rfl⟩ := Option.map_eq_some_iff.1 ((h.listings ..).symm.trans hknown)
    simp [Cached.reply, Cached.list, Kept.ask, hkept, Question.understand]
  | read checkout path =>
    obtain ⟨answer, hkept, rfl⟩ := Option.map_eq_some_iff.1 ((h.contents ..).symm.trans hknown)
    simp [Cached.reply, Cached.read, Kept.ask, hkept, Question.understand]

/-- One more reply about a commit may be held. -/
theorem Holds.commit (h : cached.Holds transcript) (repo reference : String)
    (answer : Answer CommitId) (inner : σ) :
    Holds { cached with inner, commits := cached.commits ++ [((repo, reference), answer)] }
      (transcript ++ [(.commit repo reference, .commit answer)]) where
  commits _ _ := by
    refine lookup_snoc_map Reply.commit ?_ (h.commits ..) answer
    simp
  listings := by simp [lookup_snoc, h.listings]
  contents := by simp [lookup_snoc, h.contents]
  listingCount := h.listingCount.trans (by simp [Topic.isListing])
  readCount := h.readCount.trans (by simp [Topic.isContent])

/-- One more reply about a listing may be held. -/
theorem Holds.listing (h : cached.Holds transcript) (checkout : Checkout) (path : TreePath)
    (answer : Answer (List Entry)) (inner : σ) :
    Holds { cached with inner, listings := cached.listings ++ [((checkout, path), answer)] }
      (transcript ++ [(.listing checkout path, .listing answer)]) where
  commits := by simp [lookup_snoc, h.commits]
  listings _ _ := by
    refine lookup_snoc_map Reply.listing ?_ (h.listings ..) answer
    simp
  contents := by simp [lookup_snoc, h.contents]
  listingCount := by
    rw [List.map_append, List.countP_append, ← h.listingCount]
    exact List.length_append
  readCount := h.readCount.trans (by simp [Topic.isContent])

/-- One more reply about the content of a file may be held. -/
theorem Holds.content (h : cached.Holds transcript) (checkout : Checkout) (path : TreePath)
    (answer : Answer Bytes) (inner : σ) :
    Holds { cached with inner, contents := cached.contents ++ [((checkout, path), answer)] }
      (transcript ++ [(.content checkout path, .content answer)]) where
  commits := by simp [lookup_snoc, h.commits]
  listings := by simp [lookup_snoc, h.listings]
  contents _ _ := by
    refine lookup_snoc_map Reply.content ?_ (h.contents ..) answer
    simp
  listingCount := h.listingCount.trans (by simp [Topic.isListing])
  readCount := by
    rw [List.map_append, List.countP_append, ← h.readCount]
    exact List.length_append

/-- A question on a new topic gets the provider's own reply, which is held from now on. -/
theorem Holds.reply_new (h : cached.Holds transcript) (provider : Provider σ)
    (hnew : transcript.lookup question.topic = none) :
    ∃ cached', Cached.reply provider question cached =
        (question.understand provider.name (provider.reply question.topic cached.inner).1, cached') ∧
      cached'.inner = (provider.reply question.topic cached.inner).2 ∧
      cached'.Holds
        (transcript ++ [(question.topic, (provider.reply question.topic cached.inner).1)]) := by
  cases question with
  | resolve repo reference =>
    have hkept := Option.map_eq_none_iff.1 ((h.commits ..).symm.trans hnew)
    refine ⟨_, ?_, ?_, h.commit repo reference _ (provider.resolve repo reference cached.inner).2⟩
    · simp [Cached.reply, Cached.resolve, Kept.ask, hkept, Question.understand, Question.topic,
        Provider.reply]
    · rfl
  | openCheckout repo reference =>
    have hkept := Option.map_eq_none_iff.1 ((h.commits ..).symm.trans hnew)
    refine ⟨_, ?_, ?_, h.commit repo reference _ (provider.resolve repo reference cached.inner).2⟩
    · simp [Cached.reply, Cached.openCheckout, Cached.resolve, Kept.ask, hkept, Question.understand,
        Question.topic, Provider.reply]
    · rfl
  | list checkout path =>
    have hkept := Option.map_eq_none_iff.1 ((h.listings ..).symm.trans hnew)
    refine ⟨_, ?_, ?_, h.listing checkout path _
      (provider.list checkout.repo checkout.commit path cached.inner).2⟩
    · simp [Cached.reply, Cached.list, Kept.ask, hkept, Question.understand, Question.topic,
        Provider.reply]
    · rfl
  | read checkout path =>
    have hkept := Option.map_eq_none_iff.1 ((h.contents ..).symm.trans hnew)
    refine ⟨_, ?_, ?_, h.content checkout path _
      (provider.read checkout.repo checkout.commit path cached.inner).2⟩
    · simp [Cached.reply, Cached.read, Kept.ask, hkept, Question.understand, Question.topic,
        Provider.reply]
    · rfl

/-- The cache answers all questions from the first ones on each topic. -/
theorem Holds.attend (provider : Provider σ) (events : List (Event σ)) :
    ∀ (known : List Topic) {cached : Cached σ} {transcript : List (Topic × Reply)},
    cached.Holds transcript → (∀ topic, transcript.lookup topic = none ↔ topic ∉ known) →
    let through := Cached.attend provider events cached
    let plain := provider.attend (Event.firsts known events) cached.inner
    through.2.inner = plain.2 ∧ through.2.Holds (transcript ++ plain.1) ∧
      through.1.map some = (Event.questions events).map fun question =>
        ((transcript ++ plain.1).lookup question.topic).map (question.understand provider.name) := by
  induction events with
  | nil =>
    intro known cached transcript h _
    exact ⟨rfl, (List.append_nil transcript).symm ▸ h, rfl⟩
  | cons event rest ih =>
    intro known cached transcript h hknown
    cases event with
    | change how => exact ih known (h.change how) hknown
    | ask question =>
      by_cases hasked : question.topic ∈ known
      · -- The reply is held already, so the plain run does without the question.
        obtain ⟨reply, hreply⟩ := Option.ne_none_iff_exists'.1 fun hnone =>
          (hknown _).1 hnone hasked
        obtain ⟨hinner, hholds, hreplies⟩ := ih known h hknown
        simp only [Cached.attend, h.reply_known provider hreply, Event.firsts, if_pos hasked]
        refine ⟨hinner, hholds, ?_⟩
        rw [Event.questions, List.filterMap_cons_some (by rfl), List.map_cons, List.map_cons,
          List.lookup_append, hreply]
        exact congrArg _ hreplies
      · -- Both put the question to the provider, and from now on its reply is held.
        have hnew := (hknown _).2 hasked
        obtain ⟨cached₁, hasking, hinner₁, hholds₁⟩ := h.reply_new provider hnew
        obtain ⟨hinner, hholds, hreplies⟩ :=
          ih (question.topic :: known) hholds₁ fun topic => by
            rw [lookup_snoc, List.mem_cons, not_or, Option.or_eq_none_iff, hknown, and_comm]
            simp
        simp only [Cached.attend, hasking, Event.firsts, if_neg hasked, Provider.attend]
        rw [hinner₁, List.append_assoc] at hholds hreplies
        rw [hinner₁] at hinner
        refine ⟨hinner, hholds, ?_⟩
        rw [Event.questions, List.filterMap_cons_some (by rfl), List.map_cons, List.map_cons,
          List.lookup_append, hnew, Option.none_or, List.lookup_cons_self]
        exact congrArg _ hreplies

/-- Through an empty cache, every question gets the provider's own reply to the first question
on its topic, and the provider gets one request for each topic, in the order in which the
topics come up. The counts are those of the topics. -/
theorem replies_from_first_questions (provider : Provider σ) (events : List (Event σ)) (state : σ) :
    let topics := ((Event.questions events).map Question.topic).eraseDups
    let plain := provider.attend (Event.firsts [] events) state
    let through := attend provider events { inner := state }
    let watched := attend provider.recorded (events.map Event.recorded) { inner := (state, []) }
    through.1.map some = (Event.questions events).map (fun question =>
        (plain.1.lookup question.topic).map (question.understand provider.name)) ∧
      plain.1.map (·.1) = topics ∧ through.2.inner = plain.2 ∧
      watched.1 = through.1 ∧
      watched.2.inner.2.map Exchange.request? = topics.map (fun topic => some topic.request) ∧
      through.2.listingCount = topics.countP Topic.isListing ∧
      through.2.readCount = topics.countP Topic.isContent := by
  intro topics plain through watched
  have hknown : ∀ topic, List.lookup topic ([] : List (Topic × Reply)) = none ↔ topic ∉ [] := by simp
  have htopics : plain.1.map (·.1) = topics :=
    (provider.topics_of_firsts events [] state).trans
      (congrArg _ (List.filter_eq_self.2 (by simp)))
  obtain ⟨hinner, hholds, hreplies⟩ :=
    Holds.attend provider events [] (holds_nil state) hknown
  obtain ⟨hinner', -, hreplies'⟩ := Holds.attend provider.recorded
    (events.map Event.recorded) [] (holds_nil (state, [])) hknown
  obtain ⟨more, hmore, hrequests⟩ := provider.recorded_attend (Event.firsts [] events) state []
  rw [Event.firsts_map_recorded, hmore] at hinner' hreplies'
  rw [List.nil_append] at hholds hreplies hreplies'
  refine ⟨hreplies, htopics, hinner, ?_, ?_, ?_, ?_⟩
  · rw [Event.questions_map_recorded] at hreplies'
    exact (List.map_inj_right fun _ _ => Option.some.inj).1 (hreplies'.trans hreplies.symm)
  · rw [hinner', List.nil_append, hrequests, ← htopics, List.map_map]
    rfl
  · rw [hholds.listingCount, htopics]
  · rw [hholds.readCount, htopics]

end Cached

end DependencyFiles
