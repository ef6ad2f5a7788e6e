import AntiEntropator.Dialogue.Basic

/-!
# What the runs of a dialogue ensure

`Ensures` follows the dialogue: it says of every run from a world in what worlds
which questions are asked, and what holds at the end.  A part of a dialogue is
taken by what it ensures, and what no answer can change is kept beside it.
-/

universe u v w x y

namespace Dialogue

variable {Question : Type u} {Answer : Question → Type v} {Failure : Type w} {Result : Type x}
  {World : Type y} {answers : Answers World Answer} {asks wider : World → Question → Prop}
  {post other : Except Failure Result → World → Prop} {world : World}

def Free : World → Question → Prop := fun _ _ => True

/-- Questions are only asked as `asks` says, and every run ends as `post` says. -/
def Ensures (answers : Answers World Answer) (asks : World → Question → Prop)
    (post : Except Failure Result → World → Prop) :
    Dialogue Answer Failure Result → World → Prop
  | .done result, world => post (.ok result) world
  | .fail failure, world => post (.error failure) world
  | .ask question next, world => asks world question ∧ ∀ answer after,
      answers world question answer after → Ensures answers asks post (next answer) after

theorem Ensures.mono {dialogue : Dialogue Answer Failure Result}
    (ensures : Ensures answers asks post dialogue world)
    (asked : ∀ final question, asks final question → wider final question)
    (ends : ∀ ended final, post ended final → other ended final) :
    Ensures answers wider other dialogue world := by
  induction dialogue generalizing world with
  | done result => exact ends _ _ ensures
  | fail failure => exact ends _ _ ensures
  | ask question next inductionHypothesis =>
      exact ⟨asked _ _ ensures.1, fun answer after answered =>
        inductionHypothesis answer (ensures.2 answer after answered)⟩

theorem Ensures.runs {dialogue : Dialogue Answer Failure Result} {exchanges : List (Sigma Answer)}
    {ended : Except Failure Result} {final : World}
    (ensures : Ensures answers asks post dialogue world)
    (runs : Runs answers dialogue world exchanges (some ended) final) : post ended final := by
  generalize same : some ended = ending at runs
  induction runs with
  | cut dialogue world => cases same
  | done result world =>
      cases same
      exact ensures
  | fail failure world =>
      cases same
      exact ensures
  | ask answered remaining inductionHypothesis =>
      exact inductionHypothesis (ensures.2 _ _ answered) same

/-- What a run asks is asked as `asks` says in every world in which the dialogue can be there. -/
theorem Ensures.asks_of_reached {dialogue : Dialogue Answer Failure Result}
    {before after : List (Sigma Answer)} {exchange : Sigma Answer}
    {ending : Option (Except Failure Result)} {start middle final : World}
    (ensures : Ensures answers asks post dialogue world)
    (runs : Runs answers dialogue start (before ++ exchange :: after) ending final)
    (reached : Runs answers dialogue world before none middle) : asks middle exchange.1 := by
  induction before generalizing dialogue world start with
  | nil =>
      cases runs with
      | ask answered remaining =>
          cases reached with
          | cut => exact ensures.1
  | cons first before inductionHypothesis =>
      cases runs with
      | ask answered remaining =>
          cases reached with
          | ask met others => exact inductionHypothesis (ensures.2 _ _ met) remaining others

theorem Ensures.asked {dialogue : Dialogue Answer Failure Result}
    {before after : List (Sigma Answer)} {exchange : Sigma Answer}
    {ending : Option (Except Failure Result)} {final : World}
    (ensures : Ensures answers asks post dialogue world)
    (runs : Runs answers dialogue world (before ++ exchange :: after) ending final) :
    ∃ middle, Runs answers dialogue world before none middle ∧ asks middle exchange.1 := by
  obtain ⟨middle, reached⟩ := runs.exists_cut
  exact ⟨middle, reached, ensures.asks_of_reached runs reached⟩

theorem Ensures.reached {dialogue : Dialogue Answer Failure Result}
    {exchanges : List (Sigma Answer)} {ending : Option (Except Failure Result)} {final : World}
    (ensures : Ensures answers asks post dialogue world)
    (runs : Runs answers dialogue world exchanges ending final) :
    (exchanges = [] ∧ final = world) ∨ ∃ exchange ∈ exchanges, ∃ before, asks before exchange.1 ∧
      answers before exchange.1 exchange.2 final := by
  induction runs with
  | cut dialogue world => exact .inl ⟨rfl, rfl⟩
  | done result world => exact .inl ⟨rfl, rfl⟩
  | fail failure world => exact .inl ⟨rfl, rfl⟩
  | @ask question next answer world middle final exchanges ending answered remaining hypothesis =>
      rcases hypothesis (ensures.2 _ _ answered) with ⟨none, same⟩ | ⟨exchange, member, last⟩
      · subst same
        exact .inr ⟨_, List.mem_cons_self, world, ensures.1, answered⟩
      · exact .inr ⟨exchange, List.mem_cons_of_mem _ member, last⟩

/-! ## Parts -/

theorem ensures_continueWith {Failure' : Type*} {Result' : Type*}
    {post : Except Failure' Result' → World → Prop} {dialogue : Dialogue Answer Failure Result}
    {rest : Except Failure Result → Dialogue Answer Failure' Result'} :
    Ensures answers asks post (dialogue.continueWith rest) world ↔
      Ensures answers asks (fun ended => Ensures answers asks post (rest ended)) dialogue world := by
  induction dialogue generalizing world with
  | done result => rfl
  | fail failure => rfl
  | ask question next inductionHypothesis =>
      simp only [continueWith, Ensures, inductionHypothesis]

theorem Ensures.bind {Next : Type x} {later : Except Failure Next → World → Prop}
    {dialogue : Dialogue Answer Failure Result} {rest : Result → Dialogue Answer Failure Next}
    (first : Ensures answers asks post dialogue world)
    (second : ∀ result final, post (.ok result) final →
      Ensures answers asks later (rest result) final)
    (failed : ∀ failure final, post (.error failure) final → later (.error failure) final) :
    Ensures answers asks later (dialogue >>= rest) world := by
  refine ensures_continueWith.mpr
    (first.mono (fun _ _ asked => asked) fun ended final holds => ?_)
  cases ended with
  | ok result => exact second result final holds
  | error failure => exact failed failure final holds

theorem Ensures.mapFailure {Failure' : Type*} {change : Failure → Failure'}
    {later : Except Failure' Result → World → Prop} {dialogue : Dialogue Answer Failure Result}
    (ensures : Ensures answers asks post dialogue world)
    (ends : ∀ ended final, post ended final → later (ended.mapError change) final) :
    Ensures answers asks later (dialogue.mapFailure change) world := by
  refine ensures_continueWith.mpr
    (ensures.mono (fun _ _ asked => asked) fun ended final holds => ?_)
  cases ended with
  | ok result => exact ends _ final holds
  | error failure => exact ends _ final holds

theorem Ensures.attempt {Failure' : Type*} {dialogue : Dialogue Answer Failure Result}
    (ensures : Ensures answers asks post dialogue world) :
    Ensures answers asks (fun ended final => ∃ inner, ended = .ok inner ∧ post inner final)
      (dialogue.attempt : Dialogue Answer Failure' (Except Failure Result)) world :=
  ensures_continueWith.mpr
    (ensures.mono (fun _ _ asked => asked) fun ended _ holds => ⟨ended, rfl, holds⟩)

/-- What is said of an end: of a result, or whether a failure is allowed. -/
def Ends (failing : Prop) (post : Result → World → Prop) : Except Failure Result → World → Prop
  | .ok result, world => post result world
  | .error _, _ => failing

/-- Every result is as `post` says, and there is one unless failing is allowed. -/
def Yields (answers : Answers World Answer) (asks : World → Question → Prop) (failing : Prop)
    (post : Result → World → Prop) (dialogue : Dialogue Answer Failure Result)
    (world : World) : Prop :=
  Ensures answers asks (Ends failing post) dialogue world

variable {failing : Prop} {yielded weaker : Result → World → Prop}

@[simp]
theorem ends_ok {result : Result} :
    Ends failing yielded (.ok result : Except Failure Result) world ↔ yielded result world := .rfl

@[simp]
theorem ends_error {failure : Failure} :
    Ends failing yielded (.error failure) world ↔ failing := .rfl

theorem ends_true_iff {ended : Except Failure Result} :
    Ends True yielded ended world ↔ ∀ result, ended = .ok result → yielded result world := by
  cases ended with
  | ok result => simp
  | error failure => simp

theorem yields_pure {result : Result} :
    Yields answers asks failing yielded (pure result : Dialogue Answer Failure Result) world ↔
      yielded result world := .rfl

theorem yields_fail {failure : Failure} :
    Yields answers asks failing yielded (.fail failure : Dialogue Answer Failure Result) world ↔
      failing := .rfl

theorem yields_ofExcept {ended : Except Failure Result} :
    Yields answers asks failing yielded (ofExcept ended : Dialogue Answer Failure Result) world ↔
      Ends failing yielded ended world := by
  cases ended with
  | ok result => rfl
  | error failure => rfl

theorem yields_query {question : Question} {yielded : Answer question → World → Prop} :
    Yields answers asks failing yielded (query question : Dialogue Answer Failure _) world ↔
      asks world question ∧
        ∀ answer after, answers world question answer after → yielded answer after := .rfl

theorem yields_bind {Next : Type x} {yielded : Next → World → Prop}
    {dialogue : Dialogue Answer Failure Result} {rest : Result → Dialogue Answer Failure Next} :
    Yields answers asks failing yielded (dialogue >>= rest) world ↔
      Yields answers asks failing (fun result => Yields answers asks failing yielded (rest result))
        dialogue world := by
  induction dialogue generalizing world with
  | done result => rfl
  | fail failure => rfl
  | ask question next inductionHypothesis =>
      exact and_congr_right fun _ => forall_congr' fun answer => forall_congr' fun after =>
        forall_congr' fun _ => inductionHypothesis answer

theorem yields_mapFailure {Failure' : Type*} {change : Failure → Failure'}
    {dialogue : Dialogue Answer Failure Result} :
    Yields answers asks failing yielded (dialogue.mapFailure change) world ↔
      Yields answers asks failing yielded dialogue world := by
  have same : (fun ended : Except Failure Result =>
      Ensures answers asks (Ends failing yielded) (ofExcept (ended.mapError change))) =
      Ends failing yielded := by
    funext ended
    cases ended with
    | ok result => rfl
    | error failure => rfl
  rw [Yields, Yields, mapFailure, ensures_continueWith, same]

theorem yields_attempt {Failure' : Type*} {dialogue : Dialogue Answer Failure Result}
    {yielded : Except Failure Result → World → Prop} :
    Yields answers asks failing yielded
        (dialogue.attempt : Dialogue Answer Failure' (Except Failure Result)) world ↔
      Ensures answers asks yielded dialogue world :=
  ensures_continueWith

theorem Yields.mono {dialogue : Dialogue Answer Failure Result}
    (yields : Yields answers asks failing yielded dialogue world)
    (implies : ∀ result final, yielded result final → weaker result final) :
    Yields answers asks failing weaker dialogue world := by
  refine Ensures.mono yields (fun _ _ asked => asked) fun ended final holds => ?_
  cases ended with
  | ok result => exact implies result final holds
  | error failure => exact holds

theorem Yields.bind {Next : Type x} {later : Next → World → Prop}
    {dialogue : Dialogue Answer Failure Result} {rest : Result → Dialogue Answer Failure Next}
    (first : Yields answers asks failing yielded dialogue world)
    (second : ∀ result final, yielded result final →
      Yields answers asks failing later (rest result) final) :
    Yields answers asks failing later (dialogue >>= rest) world :=
  yields_bind.mpr (first.mono second)

theorem Yields.attempt {Failure' : Type*} {dialogue : Dialogue Answer Failure Result}
    (yields : Yields answers asks True yielded dialogue world) :
    Yields answers asks failing
      (fun ended final => ∀ result, ended = .ok result → yielded result final)
      (dialogue.attempt : Dialogue Answer Failure' (Except Failure Result)) world :=
  yields_attempt.mpr (Ensures.mono yields (fun _ _ asked => asked) fun _ _ => ends_true_iff.mp)

theorem Yields.runs {dialogue : Dialogue Answer Failure Result}
    {exchanges : List (Sigma Answer)} {ended : Except Failure Result} {final : World}
    (yields : Yields answers asks failing yielded dialogue world)
    (runs : Runs answers dialogue world exchanges (some ended) final) :
    Ends failing yielded ended final :=
  Ensures.runs yields runs

theorem Yields.runs_bind {Next : Type x} {dialogue : Dialogue Answer Failure Result}
    {rest : Result → Dialogue Answer Failure Next} {exchanges : List (Sigma Answer)}
    {ended : Except Failure Next} {final : World}
    (yields : Yields answers asks False yielded dialogue world)
    (runs : Runs answers (dialogue >>= rest) world exchanges (some ended) final) :
    ∃ result middle before after, yielded result middle ∧
      Runs answers (rest result) middle after (some ended) final ∧ exchanges = before ++ after := by
  rcases Runs.of_continueWith runs with
    ⟨-, ⟨⟩⟩ | ⟨inner, middle, before, after, whole, remaining, parts⟩
  have ends := yields.runs whole
  cases inner with
  | ok result => exact ⟨result, middle, before, after, ends, remaining, parts⟩
  | error failure => exact ends.elim

/-! ## What stays -/

/-- A relation between worlds that every answer respects. -/
structure Respected (answers : Answers World Answer) (relation : World → World → Prop) : Prop where
  refl : ∀ world, relation world world
  trans : ∀ {first second third}, relation first second → relation second third →
    relation first third
  answer : ∀ {world question answer after}, answers world question answer after →
    relation world after

theorem Respected.and {relation further : World → World → Prop}
    (first : Respected answers relation) (second : Respected answers further) :
    Respected answers fun world after => relation world after ∧ further world after where
  refl := fun world => ⟨first.refl world, second.refl world⟩
  trans := fun before after =>
    ⟨first.trans before.1 after.1, second.trans before.2 after.2⟩
  answer := fun answered => ⟨first.answer answered, second.answer answered⟩

theorem Respected.runs {relation : World → World → Prop}
    {dialogue : Dialogue Answer Failure Result} {exchanges : List (Sigma Answer)}
    {ending : Option (Except Failure Result)} {final : World}
    (respected : Respected answers relation)
    (runs : Runs answers dialogue world exchanges ending final) : relation world final :=
  runs.relation respected.refl respected.trans respected.answer

/-- The answers to questions that are asked as `asks` says. -/
def Asked (answers : Answers World Answer) (asks : World → Question → Prop) :
    Answers World Answer :=
  fun world question answer after => asks world question ∧ answers world question answer after

theorem Respected.among {relation : World → World → Prop}
    (respected : Respected answers relation) : Respected (Asked answers asks) relation where
  refl := respected.refl
  trans := respected.trans
  answer := fun answered => respected.answer answered.2

theorem Ensures.among {dialogue : Dialogue Answer Failure Result}
    {exchanges : List (Sigma Answer)} {ending : Option (Except Failure Result)} {final : World}
    (ensures : Ensures answers asks post dialogue world)
    (runs : Runs answers dialogue world exchanges ending final) :
    Runs (Asked answers asks) dialogue world exchanges ending final := by
  induction runs with
  | cut dialogue world => exact .cut dialogue world
  | done result world => exact .done result world
  | fail failure world => exact .fail failure world
  | ask answered remaining inductionHypothesis =>
      exact .ask ⟨ensures.1, answered⟩ (inductionHypothesis (ensures.2 _ _ answered))

/-- What the answers to what is asked respect relates the start of a run to its end. -/
theorem Ensures.keeping {relation : World → World → Prop}
    {dialogue : Dialogue Answer Failure Result}
    (respected : Respected (Asked answers asks) relation)
    (ensures : Ensures answers asks post dialogue world) :
    Ensures answers asks (fun ended final => post ended final ∧ relation world final) dialogue
      world := by
  induction dialogue generalizing world with
  | done result => exact ⟨ensures, respected.refl world⟩
  | fail failure => exact ⟨ensures, respected.refl world⟩
  | ask question next inductionHypothesis =>
      refine ⟨ensures.1, fun answer after answered => ?_⟩
      refine (inductionHypothesis answer (ensures.2 answer after answered)).mono
        (fun _ _ asked => asked) fun ended final holds => ?_
      exact ⟨holds.1, respected.trans (respected.answer ⟨ensures.1, answered⟩) holds.2⟩

theorem Yields.keeping {relation : World → World → Prop}
    {dialogue : Dialogue Answer Failure Result}
    (respected : Respected (Asked answers asks) relation)
    (yields : Yields answers asks failing yielded dialogue world) :
    Yields answers asks failing (fun result final => yielded result final ∧ relation world final)
      dialogue world := by
  refine (Ensures.keeping respected yields).mono (fun _ _ asked => asked) fun ended final holds => ?_
  cases ended with
  | ok result => exact holds
  | error failure => exact holds.1

theorem Ensures.since {relation : World → World → Prop}
    {dialogue : Dialogue Answer Failure Result}
    (respected : Respected (Asked answers asks) relation)
    (ensures : Ensures answers asks post dialogue world) :
    Ensures answers (fun final question => asks final question ∧ relation world final) post dialogue
      world := by
  induction dialogue generalizing world with
  | done result => exact ensures
  | fail failure => exact ensures
  | ask question next inductionHypothesis =>
      refine ⟨⟨ensures.1, respected.refl world⟩, fun answer after answered => ?_⟩
      refine (inductionHypothesis answer (ensures.2 answer after answered)).mono
        (fun final later asked => ?_) fun _ _ holds => holds
      exact ⟨asked.1, respected.trans (respected.answer ⟨ensures.1, answered⟩) asked.2⟩

theorem Yields.reaching {relation : World → World → Prop}
    {dialogue : Dialogue Answer Failure Result} (respected : Respected answers relation)
    (yields : Yields answers asks failing yielded dialogue world) :
    Yields answers asks failing (fun result final => yielded result final ∧ relation world final)
      dialogue world :=
  yields.keeping respected.among

theorem Ensures.and {dialogue : Dialogue Answer Failure Result}
    (first : Ensures answers asks post dialogue world)
    (second : Ensures answers wider other dialogue world) :
    Ensures answers (fun final question => asks final question ∧ wider final question)
      (fun ended final => post ended final ∧ other ended final) dialogue world := by
  induction dialogue generalizing world with
  | done result => exact ⟨first, second⟩
  | fail failure => exact ⟨first, second⟩
  | ask question next inductionHypothesis =>
      exact ⟨⟨first.1, second.1⟩, fun answer after answered =>
        inductionHypothesis answer (first.2 answer after answered) (second.2 answer after answered)⟩

/-- What a dialogue yields if it does, beside how it goes. -/
theorem Yields.with {dialogue : Dialogue Answer Failure Result}
    (yields : Yields answers asks failing yielded dialogue world)
    (further : Yields answers Free True weaker dialogue world) :
    Yields answers asks failing (fun result final => yielded result final ∧ weaker result final)
      dialogue world := by
  refine (Ensures.and yields further).mono (fun _ _ asked => asked.1) fun ended final holds => ?_
  cases ended with
  | ok result => exact holds
  | error failure => exact holds.1

theorem Yields.free {dialogue : Dialogue Answer Failure Result}
    (yields : Yields answers asks failing yielded dialogue world) :
    Yields answers Free failing yielded dialogue world :=
  Ensures.mono yields (fun _ _ _ => trivial) fun _ _ holds => holds

theorem yields_free (dialogue : Dialogue Answer Failure Result) (world : World) :
    Yields answers Free True (fun _ _ => True) dialogue world := by
  induction dialogue generalizing world with
  | done result => trivial
  | fail failure => trivial
  | ask question next inductionHypothesis =>
      exact ⟨trivial, fun answer after _ => inductionHypothesis answer after⟩

end Dialogue
