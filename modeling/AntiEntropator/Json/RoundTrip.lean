import AntiEntropator.Json.Reader
import Mathlib.Tactic.Common

/-!
# Reading back what was written

A written value leaves the reader where the value is complete, whatever follows
it.  Literals have no end of their own, so what follows them must not go on as
a literal does.
-/

namespace Json

open Hexadecimal

mutual

def All (property : Json → Prop) : Json → Prop
  | .array items => property (.array items) ∧ AllItems property items
  | .object members => property (.object members) ∧ AllMembers property members
  | .null => property .null
  | .bool value => property (.bool value)
  | .integer value => property (.integer value)
  | .decimal literal => property (.decimal literal)
  | .string text => property (.string text)

def AllItems (property : Json → Prop) : List Json → Prop
  | [] => True
  | item :: items => All property item ∧ AllItems property items

def AllMembers (property : Json → Prop) : List (String × Json) → Prop
  | [] => True
  | (_, value) :: members => All property value ∧ AllMembers property members

end

mutual

theorem All.imp {property other : Json → Prop} (weaker : ∀ value, property value → other value) :
    ∀ {value : Json}, All property value → All other value
  | .array _, ⟨own, items⟩ => ⟨weaker _ own, AllItems.imp weaker items⟩
  | .object _, ⟨own, members⟩ => ⟨weaker _ own, AllMembers.imp weaker members⟩
  | .null, own => weaker _ own
  | .bool _, own => weaker _ own
  | .integer _, own => weaker _ own
  | .decimal _, own => weaker _ own
  | .string _, own => weaker _ own

theorem AllItems.imp {property other : Json → Prop}
    (weaker : ∀ value, property value → other value) :
    ∀ {items : List Json}, AllItems property items → AllItems other items
  | [], _ => trivial
  | _ :: _, ⟨own, others⟩ => ⟨All.imp weaker own, AllItems.imp weaker others⟩

theorem AllMembers.imp {property other : Json → Prop}
    (weaker : ∀ value, property value → other value) :
    ∀ {members : List (String × Json)}, AllMembers property members → AllMembers other members
  | [], _ => trivial
  | (_, _) :: _, ⟨own, others⟩ => ⟨All.imp weaker own, AllMembers.imp weaker others⟩

end

/-- Numbers that are not integers are literals that read as such. -/
def Literal : Json → Prop
  | .decimal literal => literal.toList ≠ [] ∧ literal.toList.all isAtomChar ∧
      readAtom literal.toList = some (.decimal literal)
  | _ => True

/-- Nothing that would extend a literal. -/
def Delimited (rest : List Char) : Prop := ∀ character ∈ rest.head?, isAtomChar character = false

theorem delimited_nil : Delimited [] := fun _ first => by cases first

namespace Reader

theorem run_nil (reader : Reader) : reader.run [] = reader.settle := rfl

theorem run_cons (reader : Reader) (character : Char) (rest : List Char) :
    reader.run (character :: rest) = (reader.step character).bind fun next => next.run rest := by
  unfold run
  rw [List.foldlM_cons, Option.bind_eq_bind, Option.bind_assoc]

/-! ## Punctuation and space -/

theorem run_idle_of_punctuate {focus next : Focus} {character : Char}
    (moved : punctuate focus character = some next)
    (mark : isAtomChar character = false ∧ isSpace character = false ∧ character ≠ '\x22')
    (rest : List Char) : run ⟨.idle, focus⟩ (character :: rest) = run ⟨.idle, next⟩ rest := by
  obtain ⟨atom, space, quote⟩ := mark
  have step : step ⟨.idle, focus⟩ character = some ⟨.idle, next⟩ := by
    simp [Reader.step, between, atom, space, quote, moved]
  rw [run_cons, step, Option.bind_some]

theorem run_idle_space {character : Char} (space : isSpace character = true)
    (atom : isAtomChar character = false) (focus : Focus) (rest : List Char) :
    run ⟨.idle, focus⟩ (character :: rest) = run ⟨.idle, focus⟩ rest := by
  have step : step ⟨.idle, focus⟩ character = some ⟨.idle, focus⟩ := by
    simp [Reader.step, between, space, atom]
  rw [run_cons, step, Option.bind_some]

theorem run_idle_newline (depth : Nat) (focus : Focus) (rest : List Char) :
    run ⟨.idle, focus⟩ (newline depth ++ rest) = run ⟨.idle, focus⟩ rest := by
  unfold newline
  rw [List.cons_append, run_idle_space (by decide) (by decide)]
  induction 2 * depth with
  | zero => rfl
  | succ count inductionHypothesis =>
      rw [List.replicate_succ, List.cons_append, run_idle_space (by decide) (by decide),
        inductionHypothesis]

/-! ## Literals -/

theorem run_atom_append {letters more : List Char} (atoms : more.all isAtomChar = true)
    (focus : Focus) (rest : List Char) :
    run ⟨.atom letters, focus⟩ (more ++ rest) = run ⟨.atom (letters ++ more), focus⟩ rest := by
  induction more generalizing letters with
  | nil => rw [List.nil_append, List.append_nil]
  | cons letter more inductionHypothesis =>
      rw [List.all_cons, Bool.and_eq_true] at atoms
      obtain ⟨atom, others⟩ := atoms
      have step : step ⟨.atom letters, focus⟩ letter = some ⟨.atom (letters ++ [letter]), focus⟩ := by
        simp [Reader.step, atom]
      rw [List.cons_append, run_cons, step, Option.bind_some, inductionHypothesis others,
        List.append_assoc, List.singleton_append]

theorem run_atom_of_delimited {rest : List Char} (delimited : Delimited rest)
    (letters : List Char) (focus : Focus) : run ⟨.atom letters, focus⟩ rest =
      (settle ⟨.atom letters, focus⟩).bind fun focus => run ⟨.idle, focus⟩ rest := by
  cases rest with
  | nil =>
      rw [run_nil]
      cases settle ⟨.atom letters, focus⟩ <;> rfl
  | cons character rest =>
      have atom : isAtomChar character = false := delimited character rfl
      have step : step ⟨.atom letters, focus⟩ character =
          (settle ⟨.atom letters, focus⟩).bind fun focus => between focus character := by
        simp [Reader.step, atom]
      rw [run_cons, step, Option.bind_assoc]
      congr 1
      funext focus
      rw [run_cons]
      rfl

theorem run_literal {letters : List Char} {value : Json} (nonempty : letters ≠ [])
    (atoms : letters.all isAtomChar = true) (reads : readAtom letters = some value)
    (frames : List Frame) {rest : List Char} (delimited : Delimited rest) :
    run ⟨.idle, .value frames⟩ (letters ++ rest) = run ⟨.idle, deliver value frames⟩ rest := by
  cases letters with
  | nil => exact absurd rfl nonempty
  | cons letter more =>
      rw [List.all_cons, Bool.and_eq_true] at atoms
      obtain ⟨atom, others⟩ := atoms
      have step : step ⟨.idle, .value frames⟩ letter = some ⟨.atom [letter], .value frames⟩ := by
        simp [Reader.step, between, atom]
      have ended : settle ⟨.atom (letter :: more), .value frames⟩ =
          some (deliver value frames) := by
        simp [settle, reads, takeScalar]
      rw [List.cons_append, run_cons, step, Option.bind_some, run_atom_append others,
        List.singleton_append, run_atom_of_delimited delimited, ended, Option.bind_some]

end Reader

/-! ## Integers -/

theorem exists_toDigits_eq_cons {value : Nat} (positive : 0 < value) :
    ∃ first rest, Nat.toDigits 10 value = first :: rest ∧ first ≠ '0' := by
  induction value using Nat.strongRecOn with
  | ind value inductionHypothesis =>
      by_cases small : value < 10
      · have nonzero : ∀ digit : Fin 10, 0 < digit.val → digit.val.digitChar ≠ '0' := by decide
        exact ⟨value.digitChar, [], Nat.toDigits_of_lt_base small, nonzero ⟨value, small⟩ positive⟩
      · have shorter := inductionHypothesis (value / 10) (by omega) (by omega)
        obtain ⟨first, rest, digits, nonzero⟩ := shorter
        refine ⟨first, rest ++ [(value % 10).digitChar], ?_, nonzero⟩
        rw [Nat.toDigits_of_base_le (by decide) (by omega), digits, List.cons_append]

theorem all_isDigit_toDigits (value : Nat) : (Nat.toDigits 10 value).all Char.isDigit = true :=
  List.all_eq_true.mpr fun _ member => Nat.isDigit_of_mem_toDigits (by decide) (by decide) member

theorem readNatural_toDigits (value : Nat) : readNatural (Nat.toDigits 10 value) = some value := by
  rcases Nat.eq_zero_or_pos value with rfl | positive
  · rfl
  · obtain ⟨first, rest, digits, nonzero⟩ := exists_toDigits_eq_cons positive
    have all := all_isDigit_toDigits value
    have back : Nat.ofDigitChars 10 (Nat.toDigits 10 value) 0 = value :=
      Nat.ofDigitChars_ten_toDigits
    rw [digits] at all back ⊢
    unfold readNatural
    split
    next empty => cases empty
    next zero => exact absurd (List.cons.inj zero).1 nonzero
    next zero => exact absurd (List.cons.inj zero).1 nonzero
    next => rw [if_pos all, back]

theorem isAtomChar_of_isDigit {character : Char} (digit : character.isDigit = true) :
    isAtomChar character = true := by
  simp [isAtomChar, Char.isAlphanum, digit]

theorem toList_repr (value : Int) : value.repr.toList =
    match value with
    | .ofNat value => Nat.toDigits 10 value
    | .negSucc value => '-' :: Nat.toDigits 10 (value + 1) := by
  cases value with
  | ofNat value => exact Nat.toList_repr
  | negSucc value => simp [Int.repr]

theorem readInteger_repr (value : Int) : readInteger value.repr.toList = some value := by
  rw [toList_repr]
  cases value with
  | ofNat value =>
      have digits := readNatural_toDigits value
      simp only
      unfold readInteger
      split
      next minus =>
        rw [minus] at digits
        have all := all_isDigit_toDigits value
        rw [minus] at all
        exact absurd all (by simp)
      next => rw [digits]; rfl
  | negSucc value =>
      simp only [readInteger]
      rw [readNatural_toDigits]

theorem readAtom_repr (value : Int) : readAtom value.repr.toList = some (.integer value) := by
  have integer := readInteger_repr value
  have other : ∀ word, readInteger word = none → value.repr.toList ≠ word := by
    intro word none same
    rw [same, none] at integer
    cases integer
  rw [readAtom, if_neg (other _ rfl), if_neg (other _ rfl), if_neg (other _ rfl), integer]

theorem isAtomChar_of_mem_repr (value : Int) : value.repr.toList.all isAtomChar = true := by
  have digits : ∀ value : Nat, (Nat.toDigits 10 value).all isAtomChar = true := fun value =>
    List.all_eq_true.mpr fun character member =>
      isAtomChar_of_isDigit (List.all_eq_true.mp (all_isDigit_toDigits value) character member)
  rw [toList_repr]
  cases value with
  | ofNat value => exact digits value
  | negSucc value => rw [List.all_cons, digits]; rfl

theorem repr_ne_nil (value : Int) : value.repr.toList ≠ [] := by
  rw [toList_repr]
  cases value with
  | ofNat value => exact Nat.toDigits_ne_nil
  | negSucc value => exact List.cons_ne_nil _ _

/-! ## Strings -/

namespace Reader

theorem run_escaped {mode next : Mode} {character : Char}
    (moved : escaped mode character = some next) (focus : Focus) (rest : List Char) :
    run ⟨mode, focus⟩ (character :: rest) = run ⟨next, focus⟩ rest := by
  have step : step ⟨mode, focus⟩ character = some ⟨next, focus⟩ := by
    cases mode with
    | idle => cases moved
    | atom letters => cases moved
    | text characters => cases moved
    | escape characters =>
        exact congrArg (Option.map fun mode => Reader.mk mode focus) moved
    | unicode characters high digits =>
        exact congrArg (Option.map fun mode => Reader.mk mode focus) moved
    | surrogate characters high backslash =>
        exact congrArg (Option.map fun mode => Reader.mk mode focus) moved
  rw [run_cons, step, Option.bind_some]

theorem run_text_backslash (characters : List Char) (focus : Focus) (rest : List Char) :
    run ⟨.text characters, focus⟩ ('\x5c' :: rest) = run ⟨.escape characters, focus⟩ rest := by
  rw [run_cons]
  rfl

theorem run_escape_short (characters : List Char) {entry : Char × Char}
    (member : entry ∈ shortEscapes) (focus : Focus) (rest : List Char) :
    run ⟨.escape characters, focus⟩ (entry.2 :: rest) =
      run ⟨.text (characters ++ [entry.1]), focus⟩ rest := by
  have moves : ∀ entry ∈ shortEscapes,
      escaped (.escape characters) entry.2 = some (.text (characters ++ [entry.1])) := by
    simp [shortEscapes, escaped]
  exact run_escaped (moves entry member) focus rest

theorem run_unicode (characters : List Char) (high : Option Nat) {digits : List Nat}
    (more : digits.length < 3) {value : Nat} (small : value < 16) (focus : Focus)
    (rest : List Char) :
    run ⟨.unicode characters high digits, focus⟩ (digit value :: rest) =
      run ⟨.unicode characters high (digits ++ [value]), focus⟩ rest := by
  apply run_escaped
  have read := value?_digit small
  match digits with
  | [] | [_] | [_, _] => simp [escaped, read]

theorem run_escape_control (characters : List Char) {character : Char}
    (control : character.toNat < 0x20) (focus : Focus) (rest : List Char) :
    run ⟨.escape characters, focus⟩ ('u' :: '0' :: '0' :: digit (character.toNat / 16) ::
      digit (character.toNat % 16) :: rest) =
      run ⟨.text (characters ++ [character]), focus⟩ rest := by
  have scalar : codeUnit characters none character.toNat =
      some (.text (characters ++ [character])) := by
    rw [codeUnit, if_neg (by omega), if_neg (by omega), Char.ofNat_toNat]
  have last : escaped (.unicode characters none [0, 0, character.toNat / 16])
      (digit (character.toNat % 16)) = some (.text (characters ++ [character])) := by
    have unit : number [0, 0, character.toNat / 16, character.toNat % 16] =
        character.toNat := by
      simp only [number, List.foldl_cons, List.foldl_nil]
      omega
    have read := value?_digit (show character.toNat % 16 < 16 by omega)
    simp only [escaped, read, Option.bind_some]
    rw [unit, scalar]
  calc run ⟨.escape characters, focus⟩ ('u' :: '0' :: '0' :: digit (character.toNat / 16) ::
        digit (character.toNat % 16) :: rest)
      = run ⟨.unicode characters none [], focus⟩ (digit 0 :: digit 0 ::
          digit (character.toNat / 16) :: digit (character.toNat % 16) :: rest) :=
        run_escaped rfl focus _
    _ = run ⟨.unicode characters none [0, 0, character.toNat / 16], focus⟩
          (digit (character.toNat % 16) :: rest) := by
        rw [run_unicode _ _ (by decide) (by decide), run_unicode _ _ (by decide) (by decide),
          run_unicode _ _ (by decide) (by omega)]
        rfl
    _ = run ⟨.text (characters ++ [character]), focus⟩ rest := run_escaped last focus rest

theorem run_text_escape (characters : List Char) (character : Char) (focus : Focus)
    (rest : List Char) : run ⟨.text characters, focus⟩ (escape character ++ rest) =
      run ⟨.text (characters ++ [character]), focus⟩ rest := by
  unfold escape
  cases short : shortEscapes.find? fun entry => entry.1 = character with
  | some entry =>
      have member := List.mem_of_find?_eq_some short
      have own : entry.1 = character := by simpa using List.find?_some short
      rw [← own]
      calc run ⟨.text characters, focus⟩ (['\x5c', entry.2] ++ rest)
          = run ⟨.escape characters, focus⟩ (entry.2 :: rest) :=
            run_text_backslash characters focus (entry.2 :: rest)
        _ = run ⟨.text (characters ++ [entry.1]), focus⟩ rest :=
            run_escape_short characters member focus rest
  | none =>
      simp only
      split
      next control =>
        exact (run_text_backslash characters focus _).trans
          (run_escape_control characters control focus rest)
      next plain =>
        have others := List.find?_eq_none.mp short
        have quote : character ≠ '\x22' := fun same =>
          others ('\x22', '\x22') (by decide) (by simp [same])
        have backslash : character ≠ '\x5c' := fun same =>
          others ('\x5c', '\x5c') (by decide) (by simp [same])
        have step : step ⟨.text characters, focus⟩ character =
            some ⟨.text (characters ++ [character]), focus⟩ := by
          simp only [Reader.step, quote, backslash, plain, if_false]
        rw [List.singleton_append, run_cons, step, Option.bind_some]

theorem run_text_flatMap (characters more : List Char) (focus : Focus) (rest : List Char) :
    run ⟨.text characters, focus⟩ (more.flatMap escape ++ rest) =
      run ⟨.text (characters ++ more), focus⟩ rest := by
  induction more generalizing characters with
  | nil => rw [List.flatMap_nil, List.nil_append, List.append_nil]
  | cons character more inductionHypothesis =>
      rw [List.flatMap_cons, List.append_assoc, run_text_escape, inductionHypothesis,
        List.append_assoc, List.singleton_append]

theorem run_quote {text : String} {focus next : Focus} (taken : takeString text focus = some next)
    (rest : List Char) : run ⟨.idle, focus⟩ (quote text ++ rest) = run ⟨.idle, next⟩ rest := by
  have opened : step ⟨.idle, focus⟩ '\x22' = some ⟨.text [], focus⟩ := rfl
  have closed : step ⟨.text text.toList, focus⟩ '\x22' = some ⟨.idle, next⟩ := by
    simp [Reader.step, taken]
  rw [quote, List.cons_append, run_cons, opened, Option.bind_some, List.append_assoc,
    run_text_flatMap, List.nil_append, List.singleton_append, run_cons, closed, Option.bind_some]

end Reader

/-! ## Values -/

theorem delimited_prettyItems (depth : Nat) (items : List Json) (rest : List Char) :
    Delimited (prettyItems depth items ++ rest) := by
  intro character first
  cases items with
  | nil => rw [← Option.some.inj first]; decide
  | cons item items => rw [← Option.some.inj first]; decide

theorem delimited_prettyMembers (depth : Nat) (members : List (String × Json)) (rest : List Char) :
    Delimited (prettyMembers depth members ++ rest) := by
  intro character first
  cases members with
  | nil => rw [← Option.some.inj first]; decide
  | cons member members => rw [← Option.some.inj first]; decide

namespace Reader

theorem run_key (members : List (String × Json)) (key : String) (frames : List Frame)
    (rest : List Char) :
    run ⟨.idle, .key members frames⟩ (quote key ++ (':' :: ' ' :: rest)) =
      run ⟨.idle, .value (.object members key :: frames)⟩ rest := by
  rw [run_quote rfl, run_idle_of_punctuate rfl (by decide),
    run_idle_space (by decide) (by decide)]

mutual

theorem run_pretty (depth : Nat) : ∀ (value : Json), value.All Literal →
    ∀ (frames : List Frame) {rest : List Char}, Delimited rest →
      run ⟨.idle, .value frames⟩ (pretty depth value ++ rest) =
        run ⟨.idle, deliver value frames⟩ rest
  | .null, _, frames, rest, delimited => by
      rw [pretty]
      exact run_literal (by decide) (by decide) rfl frames delimited
  | .bool true, _, frames, rest, delimited => by
      rw [pretty]
      exact run_literal (by decide) (by decide) rfl frames delimited
  | .bool false, _, frames, rest, delimited => by
      rw [pretty]
      exact run_literal (by decide) (by decide) rfl frames delimited
  | .integer value, _, frames, rest, delimited =>
      run_literal (repr_ne_nil value) (isAtomChar_of_mem_repr value) (readAtom_repr value) frames
        delimited
  | .decimal literal, ⟨nonempty, atoms, reads⟩, frames, rest, delimited =>
      run_literal nonempty atoms reads frames delimited
  | .string text, _, frames, rest, _ => run_quote rfl rest
  | .array [], _, frames, rest, _ => by
      rw [pretty, List.cons_append, List.singleton_append, run_idle_of_punctuate rfl (by decide),
        run_idle_of_punctuate rfl (by decide)]
  | .array (item :: items), ⟨_, own, others⟩, frames, rest, _ => by
      rw [pretty, List.cons_append, run_idle_of_punctuate rfl (by decide), List.append_assoc,
        run_idle_newline, List.append_assoc,
        run_pretty (depth + 1) item own _ (delimited_prettyItems depth items rest)]
      exact run_prettyItems depth items others [item] frames rest
  | .object [], _, frames, rest, _ => by
      rw [pretty, List.cons_append, List.singleton_append, run_idle_of_punctuate rfl (by decide),
        run_idle_of_punctuate rfl (by decide)]
  | .object ((key, value) :: members), ⟨_, own, others⟩, frames, rest, _ => by
      rw [pretty, List.cons_append, run_idle_of_punctuate rfl (by decide), List.append_assoc,
        run_idle_newline, List.append_assoc, List.cons_append, List.cons_append, run_key,
        List.append_assoc,
        run_pretty (depth + 1) value own _ (delimited_prettyMembers depth members rest)]
      exact run_prettyMembers depth members others [(key, value)] frames rest

theorem run_prettyItems (depth : Nat) : ∀ (items : List Json), AllItems Literal items →
    ∀ (before : List Json) (frames : List Frame) (rest : List Char),
      run ⟨.idle, .items before frames⟩ (prettyItems depth items ++ rest) =
        run ⟨.idle, deliver (.array (before ++ items)) frames⟩ rest
  | [], _, before, frames, rest => by
      rw [prettyItems, List.append_assoc, run_idle_newline, List.singleton_append,
        run_idle_of_punctuate rfl (by decide), List.append_nil]
  | item :: items, ⟨own, others⟩, before, frames, rest => by
      rw [prettyItems, List.cons_append, run_idle_of_punctuate rfl (by decide), List.append_assoc,
        run_idle_newline, List.append_assoc,
        run_pretty (depth + 1) item own _ (delimited_prettyItems depth items rest), deliver,
        run_prettyItems depth items others, List.append_assoc, List.singleton_append]

theorem run_prettyMembers (depth : Nat) : ∀ (members : List (String × Json)),
    AllMembers Literal members →
    ∀ (before : List (String × Json)) (frames : List Frame) (rest : List Char),
      run ⟨.idle, .members before frames⟩ (prettyMembers depth members ++ rest) =
        run ⟨.idle, deliver (.object (before ++ members)) frames⟩ rest
  | [], _, before, frames, rest => by
      rw [prettyMembers, List.append_assoc, run_idle_newline, List.singleton_append,
        run_idle_of_punctuate rfl (by decide), List.append_nil]
  | (key, value) :: members, ⟨own, others⟩, before, frames, rest => by
      rw [prettyMembers, List.cons_append, run_idle_of_punctuate rfl (by decide),
        List.append_assoc, run_idle_newline, List.append_assoc, List.cons_append,
        List.cons_append, run_key, List.append_assoc,
        run_pretty (depth + 1) value own _ (delimited_prettyMembers depth members rest), deliver,
        run_prettyMembers depth members others, List.append_assoc, List.singleton_append]

end

end Reader

/-- What was written is read back, if literals are such. -/
theorem read_pretty {value : Json} (literal : value.All Literal) :
    read (pretty 0 value) = some value := by
  have ran := Reader.run_pretty 0 value literal [] delimited_nil
  rw [List.append_nil] at ran
  rw [read, ran]
  rfl

end Json
