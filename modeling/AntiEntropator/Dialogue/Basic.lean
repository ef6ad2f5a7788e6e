import Mathlib.Logic.Basic

/-!
# Dialogues

A program that asks the world one question at a time, goes on with the answer
and ends with a result or a failure.  What the world may answer, and how it
changes by it, is a relation, so it may refuse a question, carry it out and lose
the answer, or answer at random.

A run may be cut off between any two questions.  What a cut in the middle of a
question leaves behind is what a world leaves behind that answers it as badly as
it can.
-/

universe u v w x y z

/-- Programs over questions with answers of their own types. -/
inductive Dialogue {Question : Type u} (Answer : Question → Type v) (Failure : Type w)
    (Result : Type x) where
  | done (result : Result)
  | fail (failure : Failure)
  | ask (question : Question) (next : Answer question → Dialogue Answer Failure Result)

namespace Dialogue

variable {Question : Type u} {Answer : Question → Type v} {Failure : Type w} {Result : Type x}

def continueWith {Failure' : Type y} {Result' : Type z} : Dialogue Answer Failure Result →
    (Except Failure Result → Dialogue Answer Failure' Result') → Dialogue Answer Failure' Result'
  | .done result, rest => rest (.ok result)
  | .fail failure, rest => rest (.error failure)
  | .ask question next, rest => .ask question fun answer => (next answer).continueWith rest

def ofExcept : Except Failure Result → Dialogue Answer Failure Result
  | .ok result => .done result
  | .error failure => .fail failure

/-- Go on with the result; a failure ends the whole. -/
def bind {Next : Type y} (dialogue : Dialogue Answer Failure Result)
    (rest : Result → Dialogue Answer Failure Next) : Dialogue Answer Failure Next :=
  dialogue.continueWith fun
    | .ok result => rest result
    | .error failure => .fail failure

instance : Monad (Dialogue.{u, v, w, x} Answer Failure) where
  pure := .done
  bind := bind

theorem continueWith_done (dialogue : Dialogue Answer Failure Result) :
    (dialogue.continueWith fun
      | .ok result => .done result
      | .error failure => .fail failure) = dialogue := by
  induction dialogue with
  | done result => rfl
  | fail failure => rfl
  | ask question next inductionHypothesis => exact congrArg _ (funext inductionHypothesis)

theorem continueWith_continueWith {Failure' Failure'' : Type*} {Result' Result'' : Type*}
    (dialogue : Dialogue Answer Failure Result)
    (rest : Except Failure Result → Dialogue Answer Failure' Result')
    (last : Except Failure' Result' → Dialogue Answer Failure'' Result'') :
    (dialogue.continueWith rest).continueWith last =
      dialogue.continueWith fun ended => (rest ended).continueWith last := by
  induction dialogue with
  | done result => rfl
  | fail failure => rfl
  | ask question next inductionHypothesis => exact congrArg _ (funext inductionHypothesis)

instance : LawfulMonad (Dialogue.{u, v, w, x} Answer Failure) :=
  LawfulMonad.mk' _ (fun dialogue => continueWith_done dialogue) (fun _ _ => rfl)
    fun dialogue rest last => by
      refine (continueWith_continueWith dialogue _ _).trans (congrArg _ (funext fun ended => ?_))
      cases ended with
      | ok result => rfl
      | error failure => rfl

def query (question : Question) : Dialogue Answer Failure (Answer question) := .ask question .done

def attempt {Failure' : Type y} (dialogue : Dialogue Answer Failure Result) :
    Dialogue Answer Failure' (Except Failure Result) :=
  dialogue.continueWith .done

def mapFailure {Failure' : Type y} (change : Failure → Failure')
    (dialogue : Dialogue Answer Failure Result) : Dialogue Answer Failure' Result :=
  dialogue.continueWith fun ended => ofExcept (ended.mapError change)

/-- What the world may answer to a question, and how it is afterwards. -/
abbrev Answers (World : Type y) {Question : Type u} (Answer : Question → Type v) :=
  World → (question : Question) → Answer question → World → Prop

variable {World : Type y} (answers : Answers World Answer)

/-- The runs of a dialogue from a world, with what was asked and answered and how they end;
a run that is cut off does not. -/
inductive Runs : Dialogue Answer Failure Result → World → List (Sigma Answer) →
    Option (Except Failure Result) → World → Prop where
  | cut (dialogue : Dialogue Answer Failure Result) (world : World) :
      Runs dialogue world [] none world
  | done (result : Result) (world : World) : Runs (.done result) world [] (some (.ok result)) world
  | fail (failure : Failure) (world : World) :
      Runs (.fail failure) world [] (some (.error failure)) world
  | ask {question : Question} {next : Answer question → Dialogue Answer Failure Result}
      {answer : Answer question} {world middle final : World} {exchanges : List (Sigma Answer)}
      {ending : Option (Except Failure Result)} :
      answers world question answer middle → Runs (next answer) middle exchanges ending final →
      Runs (.ask question next) world (⟨question, answer⟩ :: exchanges) ending final

variable {answers} {world final : World} {exchanges : List (Sigma Answer)}

/-- A run of two parts is cut off in the first one, or is a whole run of it and one of the
second. -/
theorem Runs.of_continueWith {Failure' : Type*} {Result' : Type*}
    {dialogue : Dialogue Answer Failure Result}
    {rest : Except Failure Result → Dialogue Answer Failure' Result'}
    {ending : Option (Except Failure' Result')}
    (runs : Runs answers (dialogue.continueWith rest) world exchanges ending final) :
    (Runs answers dialogue world exchanges none final ∧ ending = none) ∨
    ∃ ended middle first second, Runs answers dialogue world first (some ended) middle ∧
      Runs answers (rest ended) middle second ending final ∧ exchanges = first ++ second := by
  induction dialogue generalizing world exchanges with
  | done result => exact .inr ⟨.ok result, world, [], exchanges, .done _ _, runs, rfl⟩
  | fail failure => exact .inr ⟨.error failure, world, [], exchanges, .fail _ _, runs, rfl⟩
  | ask question next inductionHypothesis =>
      cases runs with
      | cut => exact .inl ⟨.cut _ _, rfl⟩
      | ask answered remaining =>
          rcases inductionHypothesis _ remaining with
            ⟨stopped, same⟩ | ⟨ended, middle, first, second, before, after, rfl⟩
          · exact .inl ⟨.ask answered stopped, same⟩
          · exact .inr ⟨ended, middle, _ :: first, second, .ask answered before, after, rfl⟩

theorem Runs.continueWith {Failure' : Type*} {Result' : Type*}
    {dialogue : Dialogue Answer Failure Result}
    {rest : Except Failure Result → Dialogue Answer Failure' Result'} {middle : World}
    {first second : List (Sigma Answer)} {ended : Except Failure Result}
    {ending : Option (Except Failure' Result')}
    (whole : Runs answers dialogue world first (some ended) middle)
    (remaining : Runs answers (rest ended) middle second ending final) :
    Runs answers (dialogue.continueWith rest) world (first ++ second) ending final := by
  induction dialogue generalizing world first with
  | done result =>
      cases whole with
      | done => exact remaining
  | fail failure =>
      cases whole with
      | fail => exact remaining
  | ask question next inductionHypothesis =>
      cases whole with
      | ask answered others => exact .ask answered (inductionHypothesis _ others)

/-- Where the first of two parts has ended once, it has ended in every run that was answered the
same until then. -/
theorem Runs.resume {Failure' : Type*} {Result' : Type*} {dialogue : Dialogue Answer Failure Result}
    {rest : Except Failure Result → Dialogue Answer Failure' Result'} {start stop : World}
    {first second : List (Sigma Answer)} {ended : Except Failure Result}
    {ending : Option (Except Failure' Result')}
    (whole : Runs answers dialogue start first (some ended) stop)
    (runs : Runs answers (dialogue.continueWith rest) world (first ++ second) ending final) :
    ∃ middle, Runs answers dialogue world first (some ended) middle ∧
      Runs answers (rest ended) middle second ending final := by
  induction dialogue generalizing start world first with
  | done result =>
      cases whole with
      | done => exact ⟨world, .done result world, runs⟩
  | fail failure =>
      cases whole with
      | fail => exact ⟨world, .fail failure world, runs⟩
  | ask question next inductionHypothesis =>
      cases whole with
      | ask answered remaining =>
          cases runs with
          | ask met others =>
              obtain ⟨middle, before, after⟩ := inductionHypothesis _ remaining others
              exact ⟨middle, .ask met before, after⟩

theorem Runs.exists_cut {dialogue : Dialogue Answer Failure Result} {before after : List (Sigma Answer)}
    {ending : Option (Except Failure Result)}
    (runs : Runs answers dialogue world (before ++ after) ending final) :
    ∃ middle, Runs answers dialogue world before none middle := by
  induction before generalizing dialogue world with
  | nil => exact ⟨world, .cut dialogue world⟩
  | cons first before inductionHypothesis =>
      cases runs with
      | ask answered remaining =>
          obtain ⟨middle, reached⟩ := inductionHypothesis remaining
          exact ⟨middle, .ask answered reached⟩

theorem Runs.relation {relation : World → World → Prop} (reflexive : ∀ world, relation world world)
    (transitive : ∀ {first second third}, relation first second → relation second third →
      relation first third)
    (stepwise : ∀ {world question answer next}, answers world question answer next →
      relation world next)
    {dialogue : Dialogue Answer Failure Result} {ending : Option (Except Failure Result)}
    (runs : Runs answers dialogue world exchanges ending final) : relation world final := by
  induction runs with
  | cut dialogue world => exact reflexive world
  | done result world => exact reflexive world
  | fail failure world => exact reflexive world
  | ask answered remaining inductionHypothesis =>
      exact transitive (stepwise answered) inductionHypothesis

theorem Runs.restrict {allowed : Question → Prop}
    {dialogue : Dialogue Answer Failure Result} {ending : Option (Except Failure Result)}
    (runs : Runs answers dialogue world exchanges ending final)
    (asked : ∀ exchange ∈ exchanges, allowed exchange.1) :
    Runs (fun world question answer after =>
      allowed question ∧ answers world question answer after) dialogue world exchanges ending
      final := by
  induction runs with
  | cut dialogue world => exact .cut dialogue world
  | done result world => exact .done result world
  | fail failure world => exact .fail failure world
  | ask answered remaining inductionHypothesis =>
      obtain ⟨first, others⟩ := List.forall_mem_cons.mp asked
      exact .ask ⟨first, answered⟩ (inductionHypothesis others)

theorem exists_runs (total : ∀ world question, ∃ answer next, answers world question answer next)
    (dialogue : Dialogue Answer Failure Result) (world : World) :
    ∃ exchanges ended final, Runs answers dialogue world exchanges (some ended) final := by
  induction dialogue generalizing world with
  | done result => exact ⟨[], _, world, .done result world⟩
  | fail failure => exact ⟨[], _, world, .fail failure world⟩
  | ask question next inductionHypothesis =>
      obtain ⟨answer, middle, answered⟩ := total world question
      obtain ⟨exchanges, ended, final, remaining⟩ := inductionHypothesis answer middle
      exact ⟨_, ended, final, .ask answered remaining⟩

end Dialogue
