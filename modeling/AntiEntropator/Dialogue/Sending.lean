import AntiEntropator.Dialogue.Contract

/-!
# What a dialogue sends

Some questions are marked, such as those that ask for a change.  Whatever the
answers, and wherever the run is cut off, the marks of what a dialogue asks are
one of the lists of a language.
-/

universe u v w x y

namespace Dialogue

variable {Question : Type u} {Answer : Question → Type v} {Failure : Type w} {Result : Type x}
  {World : Type y} {answers : Answers World Answer} {Mark : Type*}

def anything (Answer : Question → Type v) : Answers Unit Answer := fun _ _ _ _ => True

theorem Runs.anything {dialogue : Dialogue Answer Failure Result} {world final : World}
    {exchanges : List (Sigma Answer)} {ending : Option (Except Failure Result)}
    (runs : Runs answers dialogue world exchanges ending final) :
    Runs (anything Answer) dialogue () exchanges ending () := by
  induction runs with
  | cut dialogue world => exact .cut dialogue ()
  | done result world => exact .done result ()
  | fail failure world => exact .fail failure ()
  | ask answered remaining inductionHypothesis => exact .ask trivial inductionHypothesis

def marks (mark : Question → Option Mark) (exchanges : List (Sigma Answer)) : List Mark :=
  exchanges.filterMap fun exchange => mark exchange.1

@[simp]
theorem marks_append (mark : Question → Option Mark) (first second : List (Sigma Answer)) :
    marks mark (first ++ second) = marks mark first ++ marks mark second :=
  List.filterMap_append

/-- What is sent is in the language, and results are as they are known to be. -/
def Sends (mark : Question → Option Mark) (language : List Mark → Prop) (known : Result → Prop)
    (dialogue : Dialogue Answer Failure Result) : Prop :=
  ∀ exchanges ending, Runs (anything Answer) dialogue () exchanges ending () →
    language (marks mark exchanges) ∧ ∀ result, ending = some (.ok result) → known result

def Nothing (sent : List Mark) : Prop := sent = []

/-- No more than this is sent, in this order. -/
def AtMost (allowed sent : List Mark) : Prop := sent.Sublist allowed

theorem atMost_nil (allowed : List Mark) : AtMost allowed [] := List.nil_sublist allowed

variable {mark : Question → Option Mark} {language other : List Mark → Prop}
  {known certain : Result → Prop} {dialogue : Dialogue Answer Failure Result}

theorem Sends.runs {world final : World} {exchanges : List (Sigma Answer)}
    {ending : Option (Except Failure Result)} (sends : Sends mark language known dialogue)
    (runs : Runs answers dialogue world exchanges ending final) :
    language (marks mark exchanges) :=
  (sends _ _ runs.anything).1

theorem Sends.mono (sends : Sends mark language known dialogue)
    (weaker : ∀ sent, language sent → other sent)
    (results : ∀ result, known result → certain result) : Sends mark other certain dialogue :=
  fun exchanges ending runs => ⟨weaker _ (sends exchanges ending runs).1,
    fun result ended => results result ((sends exchanges ending runs).2 result ended)⟩

theorem sends_done {result : Result} (nothing : language []) (holds : known result) :
    Sends mark language known (.done result : Dialogue Answer Failure Result) := by
  rintro exchanges ending (_ | _)
  · exact ⟨nothing, nofun⟩
  · refine ⟨nothing, fun other same => ?_⟩
    cases same
    exact holds

theorem sends_fail {failure : Failure} (nothing : language []) :
    Sends mark language known (.fail failure : Dialogue Answer Failure Result) := by
  rintro exchanges ending (_ | _ | _)
  · exact ⟨nothing, nofun⟩
  · exact ⟨nothing, nofun⟩

theorem sends_ofExcept {ended : Except Failure Result} (nothing : language [])
    (holds : ∀ result, ended = .ok result → known result) :
    Sends mark language known (ofExcept ended : Dialogue Answer Failure Result) := by
  cases ended with
  | ok result => exact sends_done nothing (holds result rfl)
  | error failure => exact sends_fail nothing

theorem sends_query {question : Question} (nothing : language [])
    (asked : language (mark question).toList) :
    Sends mark language (fun _ => True) (query question : Dialogue Answer Failure _) := by
  have single : ∀ answer : Answer question,
      marks mark [(⟨question, answer⟩ : Sigma Answer)] = (mark question).toList := by
    intro answer
    cases marked : mark question <;> simp [marks, marked]
  rintro exchanges ending (_ | _ | _ | ⟨answered, remaining⟩)
  · exact ⟨nothing, nofun⟩
  · cases remaining with
    | cut => exact ⟨(single _).symm ▸ asked, nofun⟩
    | done => exact ⟨(single _).symm ▸ asked, fun _ _ => trivial⟩

theorem Sends.bind {Next : Type x} {rest : Result → Dialogue Answer Failure Next}
    {certain : Next → Prop} (first : Sends mark language known dialogue)
    (second : ∀ result, known result → Sends mark
      (fun after => ∀ before, language before → other (before ++ after)) certain (rest result))
    (cut : ∀ sent, language sent → other sent) :
    Sends mark other certain (dialogue >>= rest) := by
  intro exchanges ending runs
  rcases Runs.of_continueWith runs with
    ⟨stopped, rfl⟩ | ⟨ended, ⟨⟩, before, after, whole, remaining, rfl⟩
  · exact ⟨cut _ (first _ _ stopped).1, nofun⟩
  · obtain ⟨sent, results⟩ := first _ _ whole
    rw [marks_append]
    cases ended with
    | ok result =>
        obtain ⟨more, ends⟩ := second result (results result rfl) _ _ remaining
        exact ⟨more _ sent, ends⟩
    | error failure =>
        cases remaining with
        | cut => exact ⟨by simpa [marks] using cut _ sent, nofun⟩
        | fail => exact ⟨by simpa [marks] using cut _ sent, nofun⟩

/-- A first part that sends nothing does not show. -/
theorem Sends.then {Next : Type x} {rest : Result → Dialogue Answer Failure Next}
    {certain : Next → Prop} (first : Sends mark Nothing known dialogue)
    (second : ∀ result, known result → Sends mark other certain (rest result))
    (nothing : other []) : Sends mark other certain (dialogue >>= rest) := by
  refine first.bind (fun result holds => ?_) ?_
  · refine (second result holds).mono (fun after holds before none => ?_) fun _ holds => holds
    rw [none]
    exact holds
  · rintro sent rfl
    exact nothing

theorem Sends.mapFailure {Failure' : Type*} {change : Failure → Failure'}
    (sends : Sends mark language known dialogue) :
    Sends mark language known (dialogue.mapFailure change) := by
  intro exchanges ending runs
  rcases Runs.of_continueWith runs with
    ⟨stopped, rfl⟩ | ⟨ended, ⟨⟩, before, after, whole, remaining, rfl⟩
  · exact ⟨(sends _ _ stopped).1, nofun⟩
  · obtain ⟨sent, results⟩ := sends _ _ whole
    rw [marks_append]
    cases ended with
    | ok result =>
        cases remaining with
        | cut => exact ⟨by simpa [marks] using sent, nofun⟩
        | done =>
            refine ⟨by simpa [marks] using sent, fun other same => ?_⟩
            cases same
            exact results result rfl
    | error failure =>
        cases remaining with
        | cut => exact ⟨by simpa [marks] using sent, nofun⟩
        | fail => exact ⟨by simpa [marks] using sent, nofun⟩

theorem Sends.attempt {Failure' : Type*} (sends : Sends mark language known dialogue) :
    Sends mark language (fun ended => ∀ result, ended = .ok result → known result)
      (dialogue.attempt : Dialogue Answer Failure' (Except Failure Result)) := by
  intro exchanges ending runs
  rcases Runs.of_continueWith runs with
    ⟨stopped, rfl⟩ | ⟨ended, ⟨⟩, before, after, whole, remaining, rfl⟩
  · exact ⟨(sends _ _ stopped).1, nofun⟩
  · obtain ⟨sent, results⟩ := sends _ _ whole
    rw [marks_append]
    cases remaining with
    | cut => exact ⟨by simpa [marks] using sent, nofun⟩
    | done =>
        refine ⟨by simpa [marks] using sent, fun other same => ?_⟩
        cases same
        rintro result rfl
        exact results result rfl

/-- Where something marked is asked behind a first part that sends nothing, the first part has
brought its result. -/
theorem Sends.passed {Next : Type x} {rest : Result → Dialogue Answer Failure Next}
    {before after : List (Sigma Answer)} {exchange : Sigma Answer} {world final : World}
    {ending : Option (Except Failure Next)} (first : Sends mark Nothing known dialogue)
    (runs : Runs answers (dialogue >>= rest) world (before ++ exchange :: after) ending final)
    (marked : mark exchange.1 ≠ none) : ∃ result middle front back, before = front ++ back ∧
      Runs answers dialogue world front (some (.ok result)) middle ∧
      Runs answers (rest result) middle (back ++ exchange :: after) ending final := by
  have unmarked : ∀ {exchanges ending' stop},
      Runs answers dialogue world exchanges ending' stop → exchange ∉ exchanges := by
    intro exchanges ending' stop asked member
    have none : marks mark exchanges = [] := first.runs asked
    exact marked (List.filterMap_eq_nil_iff.mp none exchange member)
  rcases Runs.of_continueWith runs with
    ⟨stopped, -⟩ | ⟨ended, middle, front, behind, whole, remaining, parts⟩
  · exact (unmarked stopped (by simp)).elim
  · have split : ∃ back, before = front ++ back ∧ behind = back ++ exchange :: after := by
      rcases List.append_eq_append_iff.mp parts with ⟨others, same, rest⟩ | ⟨back, same, rest⟩
      · cases others with
        | nil =>
            rw [List.append_nil] at same
            exact ⟨[], by rw [same, List.append_nil], rest.symm⟩
        | cons head tail =>
            obtain ⟨rfl, -⟩ := List.cons.inj rest
            exact (unmarked whole (by rw [same]; simp)).elim
      · exact ⟨back, same, rest⟩
    obtain ⟨back, rfl, rfl⟩ := split
    cases ended with
    | ok result => exact ⟨result, middle, front, back, rfl, whole, remaining⟩
    | error failure =>
        generalize exchanges : back ++ exchange :: after = asked at remaining
        cases remaining with
        | cut => simp at exchanges
        | fail => simp at exchanges

theorem Sends.asks [inhabited : ∀ question, Nonempty (Answer question)] {allowed : Mark → Prop}
    {world : World}
    (sends : Sends mark language known dialogue)
    (within : ∀ sent, language sent → ∀ item ∈ sent, allowed item) :
    Yields answers (fun _ question => ∀ item, mark question = some item → allowed item) True
      (fun _ _ => True) dialogue world := by
  induction dialogue generalizing world language with
  | done result => trivial
  | fail failure => trivial
  | ask question next inductionHypothesis =>
      have first : ∀ (answer : Answer question) (exchanges : List (Sigma Answer)),
          marks mark (⟨question, answer⟩ :: exchanges) =
            (mark question).toList ++ marks mark exchanges := by
        intro answer exchanges
        cases marked : mark question <;> simp [marks, marked]
      refine ⟨fun item marked => ?_, fun answer after _ => ?_⟩
      · obtain ⟨answer⟩ := inhabited question
        have asked := (sends _ _ (.ask trivial (.cut (next answer) ()))).1
        rw [first answer] at asked
        exact within _ asked item (List.mem_append_left _ (by simp [marked]))
      · have behind : Sends mark (fun more => language ((mark question).toList ++ more)) known
            (next answer) := by
          intro exchanges ending runs
          have whole := sends _ _ (.ask trivial runs)
          rw [first answer] at whole
          exact whole
        exact inductionHypothesis answer behind fun sent holds item member =>
          within _ holds item (List.mem_append_right _ member)

/-- Only what may be sent is asked, beside what the dialogue yields. -/
theorem Sends.asking [inhabited : ∀ question, Nonempty (Answer question)] {allowed : Mark → Prop}
    {failing : Prop} {yielded : Result → World → Prop} {world : World}
    (sends : Sends mark language known dialogue)
    (within : ∀ sent, language sent → ∀ item ∈ sent, allowed item)
    (yields : Yields answers Free failing yielded dialogue world) :
    Yields answers (fun _ question => ∀ item, mark question = some item → allowed item) failing
      yielded dialogue world := by
  have asks : Yields answers (fun _ question => ∀ item, mark question = some item → allowed item)
      True (fun _ _ => True) dialogue world := sends.asks within
  refine (Ensures.and yields asks).mono (fun _ _ asked => asked.2) fun ended final holds => ?_
  cases ended with
  | ok result => exact holds.1
  | error failure => exact holds.1

end Dialogue
