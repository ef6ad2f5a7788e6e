import AntiEntropator.Domain.Lexical
import AntiEntropator.Splitting
import Mathlib.Data.Option.Basic

/-!
# Timestamps of media files

The time that a tool reports becomes a file name.  What is accepted is a date,
a clock time and perhaps an offset; the components may carry a plus sign, and
whatever follows a dot or a `Z` is cut off without a look at it.
-/

namespace AntiEntropator.Scan

open Splitting

/-- `part.parse::<u32>()` succeeds. -/
def isU32 (part : List Char) : Bool := (Decimal.readUnsigned (2 ^ 32) part).isSome

/-- An offset suffix is `HH:MM`. -/
def isOffsetShape (suffix : List Char) : Bool :=
  let parts := suffix.splitOn ':'
  parts.length = 2 && parts.all fun part => !part.isEmpty && part.all Char.isDigit

/-- The time before an offset, which must have its shape. -/
def stripOffset? (timeNoTz : List Char) : Option (List Char) :=
  match cutLast? '+' timeNoTz with
  | some (timeClean, suffix) => if isOffsetShape suffix then some timeClean else none
  | none =>
    match cutLast? '-' timeNoTz with
    | some (timeClean, suffix) =>
        -- A minus in front is no offset; it fails as a number later.
        if timeClean = [] then some timeNoTz
        else if isOffsetShape suffix then some timeClean
        else none
    | none => some timeNoTz

def parseIsoDatetime (text : String) : Option String := do
  let (date, timePart) ← cutFirst? 'T' (trim text).toList
  let dateParts := date.splitOn '-'
  guard (dateParts.length = 3)
  guard (dateParts.all isU32)
  let timeNoMillis := upTo '.' timePart
  let timeNoTz := upTo 'Z' timeNoMillis
  let timeClean ← stripOffset? timeNoTz
  let timeParts := timeClean.splitOn ':'
  guard (2 ≤ timeParts.length ∧ timeParts.length ≤ 3)
  guard (timeParts.all isU32)
  let formattedTime := timeClean.map fun character => if character = ':' then '-' else character
  return String.ofList (date ++ '_' :: formattedTime)

example : parseIsoDatetime "2024-01-15T14:30:45.123456-05:00" = some "2024-01-15_14-30-45" := by
  decide

/-! ## Timestamps as they are meant -/

/-- Fractional seconds, or nothing. -/
def IsFraction (text : List Char) : Prop :=
  text = [] ∨ ∃ digits, text = '.' :: digits ∧ Decimal.IsNumeral digits

def IsOffset (text : List Char) : Prop :=
  ∃ sign hours minutes, text = sign :: hours ++ ':' :: minutes ∧ (sign = '+' ∨ sign = '-') ∧
    Decimal.IsNumeral hours ∧ Decimal.IsNumeral minutes

def IsZone (text : List Char) : Prop := text = [] ∨ text = ['Z'] ∨ IsOffset text

def IsEnding (text : List Char) : Prop :=
  ∃ fraction zone, text = fraction ++ zone ∧ IsFraction fraction ∧ IsZone zone

/-- Three parts of a date, and hours, minutes and perhaps seconds. -/
def IsWallClock (date time : List (List Char)) : Prop :=
  date.length = 3 ∧ (time.length = 2 ∨ time.length = 3)

def written (date time : List (List Char)) : List Char :=
  ['-'].intercalate date ++ 'T' :: [':'].intercalate time

def formatted (date time : List (List Char)) : String :=
  String.ofList (['-'].intercalate date ++ '_' :: ['-'].intercalate time)

/-- A timestamp with the components of its date and time. -/
structure IsTimestamp (text : List Char) (date time : List (List Char)) : Prop where
  wallClock : IsWallClock date time
  numerals : ∀ part ∈ date ++ time, Decimal.IsNumeral part
  whole : ∃ ending, text = written date time ++ ending ∧ IsEnding ending

/-! ## Timestamps as they are accepted -/

/-- A component with its sign, if it has one. -/
def IsComponent (part : List Char) : Prop :=
  ∃ number, Decimal.Unsigned part number ∧ number < 2 ^ 32

def IsTail (text : List Char) : Prop :=
  text = [] ∨ text.head? = some '.' ∨ text.head? = some 'Z'

/-- Text that is accepted, in its parts.  The last plus sign starts the offset, so a
component of the time can only carry one before such an offset. -/
structure IsAccepted (text : List Char) (date time : List (List Char))
    (offset tail : List Char) : Prop where
  wallClock : IsWallClock date time
  components : ∀ part ∈ date ++ time, IsComponent part
  offsetShape : offset = [] ∨ IsOffset offset
  tailShape : IsTail tail
  signed : (∃ part ∈ time, '+' ∈ part) → offset.head? = some '+'
  whole : text = written date time ++ offset ++ tail

/-! ## Components -/

theorem isU32_iff {part : List Char} : isU32 part = true ↔ IsComponent part := by
  rw [isU32, Option.isSome_iff_exists]
  exact exists_congr fun number => Decimal.readUnsigned_eq_some_iff (by decide)

theorem IsComponent.notMem {part : List Char} (component : IsComponent part) {mark : Char}
    (other : ¬ (mark = '+' ∨ 48 ≤ mark.toNat ∧ mark.toNat ≤ 57)) : mark ∉ part := by
  obtain ⟨number, reading, -⟩ := component
  intro member
  exact other (toNat_of_mem_unsigned reading member)

theorem IsComponent.ne_nil {part : List Char} (component : IsComponent part) : part ≠ [] := by
  obtain ⟨number, reading, -⟩ := component
  exact ne_nil_of_unsigned reading

theorem numeral_notMem {digits : List Char} (numeral : Decimal.IsNumeral digits) {mark : Char}
    (other : mark.isDigit = false) : mark ∉ digits := by
  intro member
  rw [numeral.2 mark member] at other
  cases other

theorem numeral_of_component {part : List Char} (component : IsComponent part)
    (plain : '+' ∉ part) : Decimal.IsNumeral part ∧ Decimal.value part < 2 ^ 32 := by
  obtain ⟨number, reading, small⟩ := component
  cases reading with
  | plain numeral => exact ⟨numeral, small⟩
  | plus numeral => exact absurd List.mem_cons_self plain

theorem component_of_numeral {part : List Char} (numeral : Decimal.IsNumeral part)
    (small : Decimal.value part < 2 ^ 32) : IsComponent part := ⟨_, .plain numeral, small⟩

theorem notMem_joined {separator mark : Char} {parts : List (List Char)}
    (components : ∀ part ∈ parts, IsComponent part) (different : mark ≠ separator)
    (other : ¬ (mark = '+' ∨ 48 ≤ mark.toNat ∧ mark.toNat ≤ 57)) :
    mark ∉ [separator].intercalate parts := by
  intro member
  rcases mem_intercalate member with between | ⟨part, inside, found⟩
  · exact different (List.mem_singleton.mp between)
  · exact (components part inside).notMem other found

theorem splitOn_joined {separator : Char} {parts : List (List Char)}
    (components : ∀ part ∈ parts, IsComponent part) (nonempty : parts ≠ [])
    (other : ¬ (separator = '+' ∨ 48 ≤ separator.toNat ∧ separator.toNat ≤ 57)) :
    ([separator].intercalate parts).splitOn separator = parts :=
  List.splitOn_intercalate separator (fun part inside => (components part inside).notMem other)
    nonempty

/-! ## Offsets -/

theorem isOffsetShape_iff {suffix : List Char} : isOffsetShape suffix = true ↔
    ∃ hours minutes, suffix = hours ++ ':' :: minutes ∧ Decimal.IsNumeral hours ∧
      Decimal.IsNumeral minutes := by
  simp only [isOffsetShape, Bool.and_eq_true, decide_eq_true_eq]
  constructor
  · rintro ⟨two, shaped⟩
    obtain ⟨hours, minutes, parts⟩ := List.length_eq_two.mp two
    have joined : [':'].intercalate (suffix.splitOn ':') = suffix := List.intercalate_splitOn ':'
    rw [parts, List.intercalate_cons_cons, List.intercalate_singleton, List.append_assoc] at joined
    rw [parts] at shaped
    simp only [List.all_cons, List.all_nil, Bool.and_true, Bool.and_eq_true, List.all_eq_true,
      Bool.not_eq_true', List.isEmpty_eq_false_iff] at shaped
    exact ⟨hours, minutes, joined.symm, shaped.1, shaped.2⟩
  · rintro ⟨hours, minutes, rfl, hoursShape, minutesShape⟩
    rw [List.splitOn_append_cons_self_of_not_mem (numeral_notMem hoursShape (by decide)),
      List.splitOn_eq_singleton (numeral_notMem minutesShape (by decide))]
    refine ⟨rfl, ?_⟩
    simp only [List.all_cons, List.all_nil, Bool.and_true, Bool.and_eq_true, List.all_eq_true,
      Bool.not_eq_true', List.isEmpty_eq_false_iff]
    exact ⟨hoursShape, minutesShape⟩

theorem offset_of_stripOffset? {time clean : List Char} (found : stripOffset? time = some clean) :
    ∃ offset, time = clean ++ offset ∧ (offset = [] ∨ IsOffset offset) ∧
      ('+' ∈ clean → offset.head? = some '+') := by
  unfold stripOffset? at found
  split at found
  next front suffix cut =>
    split at found
    next shape =>
      cases found
      obtain ⟨hours, minutes, rfl, numerals⟩ := isOffsetShape_iff.mp shape
      exact ⟨_, (append_of_cutLast? cut).1,
        .inr ⟨'+', hours, minutes, rfl, .inl rfl, numerals⟩, fun _ => rfl⟩
    next => cases found
  next noPlus =>
    have unsigned := notMem_of_cutLast? noPlus
    split at found
    next front suffix cut =>
      split at found
      next =>
        cases found
        exact ⟨[], (List.append_nil _).symm, .inl rfl, fun member => absurd member unsigned⟩
      next =>
        split at found
        next shape =>
          cases found
          obtain ⟨hours, minutes, rfl, numerals⟩ := isOffsetShape_iff.mp shape
          obtain ⟨whole, -⟩ := append_of_cutLast? cut
          refine ⟨_, whole, .inr ⟨'-', hours, minutes, rfl, .inr rfl, numerals⟩, fun member => ?_⟩
          rw [whole] at unsigned
          exact absurd (List.mem_append_left _ member) unsigned
        next => cases found
    next =>
      cases found
      exact ⟨[], (List.append_nil _).symm, .inl rfl, fun member => absurd member unsigned⟩

theorem notMem_clock {hours minutes : List Char} (hoursShape : Decimal.IsNumeral hours)
    (minutesShape : Decimal.IsNumeral minutes) {mark : Char} (other : mark.isDigit = false)
    (different : mark ≠ ':') : mark ∉ hours ++ ':' :: minutes := by
  rw [List.mem_append, List.mem_cons, not_or, not_or]
  exact ⟨numeral_notMem hoursShape other, different, numeral_notMem minutesShape other⟩

theorem stripOffset?_append {clean offset : List Char} (nonempty : clean ≠ [])
    (plain : '-' ∉ clean) (shape : offset = [] ∨ IsOffset offset)
    (signed : '+' ∈ clean → offset.head? = some '+') :
    stripOffset? (clean ++ offset) = some clean := by
  unfold stripOffset?
  rcases shape with rfl | ⟨sign, hours, minutes, rfl, rfl | rfl, hoursShape, minutesShape⟩
  · have unsigned : '+' ∉ clean := fun member => by cases signed member
    rw [List.append_nil, cutLast?_of_notMem unsigned, cutLast?_of_notMem plain]
  · rw [List.cons_append, cutLast?_append (notMem_clock hoursShape minutesShape (by decide)
      (by decide))]
    exact if_pos (isOffsetShape_iff.mpr ⟨hours, minutes, rfl, hoursShape, minutesShape⟩)
  · have unsigned : '+' ∉ clean := fun member => by cases signed member
    have clear : '+' ∉ clean ++ '-' :: (hours ++ ':' :: minutes) := by
      rw [List.mem_append, List.mem_cons, not_or, not_or]
      exact ⟨unsigned, by decide, notMem_clock hoursShape minutesShape (by decide) (by decide)⟩
    rw [List.cons_append, cutLast?_of_notMem clear, cutLast?_append (notMem_clock hoursShape
      minutesShape (by decide) (by decide))]
    simp only [nonempty, if_false]
    exact if_pos (isOffsetShape_iff.mpr ⟨hours, minutes, rfl, hoursShape, minutesShape⟩)

/-! ## What is cut off -/

/-- The time part up to the first dot and the first `Z`. -/
def timed (timePart : List Char) : List Char := upTo 'Z' (upTo '.' timePart)

theorem tail_of_timed (timePart : List Char) :
    ∃ tail, timePart = timed timePart ++ tail ∧ IsTail tail := by
  obtain ⟨fraction, whole, -, dot⟩ := upTo_append '.' timePart
  obtain ⟨zone, front, -, letter⟩ := upTo_append 'Z' (upTo '.' timePart)
  refine ⟨zone ++ fraction, ?_, ?_⟩
  · rw [timed, ← List.append_assoc, ← front]
    exact whole
  · rcases letter with rfl | letter
    · rw [List.nil_append]
      exact dot.imp_right Or.inl
    · right
      right
      rw [List.head?_append, letter]
      rfl

theorem timed_append {clock tail : List Char} (noDot : '.' ∉ clock) (noLetter : 'Z' ∉ clock)
    (shape : IsTail tail) : timed (clock ++ tail) = clock := by
  rw [timed, upTo_append_of_notMem noDot, upTo_append_of_notMem noLetter]
  suffices cut : upTo 'Z' (upTo '.' tail) = [] by rw [cut, List.append_nil]
  rcases shape with rfl | dot | letter
  · rfl
  · rw [upTo_of_head dot]
    rfl
  · apply upTo_of_head
    obtain ⟨rest, rfl⟩ := List.head?_eq_some_iff.mp letter
    rfl

theorem notMem_offset {offset : List Char} (shape : offset = [] ∨ IsOffset offset) {mark : Char}
    (other : mark.isDigit = false) (different : mark ≠ ':') (unsigned : mark ≠ '+' ∧ mark ≠ '-') :
    mark ∉ offset := by
  rcases shape with rfl | ⟨sign, hours, minutes, rfl, isSign, hoursShape, minutesShape⟩
  · exact List.not_mem_nil
  · rw [List.cons_append, List.mem_cons, not_or]
    refine ⟨?_, notMem_clock hoursShape minutesShape other different⟩
    rcases isSign with rfl | rfl
    · exact unsigned.1
    · exact unsigned.2

/-! ## The parts of accepted text -/

namespace IsAccepted

variable {text : List Char} {date time : List (List Char)} {offset tail : List Char}

theorem dateComponents (accepted : IsAccepted text date time offset tail) :
    ∀ part ∈ date, IsComponent part :=
  fun part inside => accepted.components part (List.mem_append_left _ inside)

theorem timeComponents (accepted : IsAccepted text date time offset tail) :
    ∀ part ∈ time, IsComponent part :=
  fun part inside => accepted.components part (List.mem_append_right _ inside)

theorem date_ne_nil (accepted : IsAccepted text date time offset tail) : date ≠ [] := by
  rintro rfl
  exact absurd accepted.wallClock.1 (by decide)

theorem time_ne_nil (accepted : IsAccepted text date time offset tail) : time ≠ [] := by
  rintro rfl
  exact absurd accepted.wallClock.2 (by decide)

theorem cutFirst (accepted : IsAccepted text date time offset tail) :
    cutFirst? 'T' text =
      some (['-'].intercalate date, [':'].intercalate time ++ offset ++ tail) := by
  rw [accepted.whole, written, List.append_assoc, List.append_assoc, List.cons_append,
    ← List.append_assoc _ offset]
  exact cutFirst?_append (notMem_joined accepted.dateComponents (by decide) (by decide)) _

theorem splitOn_date (accepted : IsAccepted text date time offset tail) :
    (['-'].intercalate date).splitOn '-' = date :=
  splitOn_joined accepted.dateComponents accepted.date_ne_nil (by decide)

theorem splitOn_time (accepted : IsAccepted text date time offset tail) :
    ([':'].intercalate time).splitOn ':' = time :=
  splitOn_joined accepted.timeComponents accepted.time_ne_nil (by decide)

theorem timed_time (accepted : IsAccepted text date time offset tail) :
    timed ([':'].intercalate time ++ offset ++ tail) = [':'].intercalate time ++ offset := by
  apply timed_append
  · rw [List.mem_append, not_or]
    exact ⟨notMem_joined accepted.timeComponents (by decide) (by decide),
      notMem_offset accepted.offsetShape (by decide) (by decide) (by decide)⟩
  · rw [List.mem_append, not_or]
    exact ⟨notMem_joined accepted.timeComponents (by decide) (by decide),
      notMem_offset accepted.offsetShape (by decide) (by decide) (by decide)⟩
  · exact accepted.tailShape

theorem stripOffset (accepted : IsAccepted text date time offset tail) :
    stripOffset? ([':'].intercalate time ++ offset) = some ([':'].intercalate time) := by
  apply stripOffset?_append
  · obtain ⟨part, inside⟩ := List.exists_mem_of_ne_nil time accepted.time_ne_nil
    obtain ⟨character, found⟩ :=
      List.exists_mem_of_ne_nil part (accepted.timeComponents part inside).ne_nil
    exact List.ne_nil_of_mem (mem_intercalate_of_mem inside found)
  · exact notMem_joined accepted.timeComponents (by decide) (by decide)
  · exact accepted.offsetShape
  · intro member
    rcases mem_intercalate member with between | signed
    · exact absurd (List.mem_singleton.mp between) (by decide)
    · exact accepted.signed signed

theorem replaced (accepted : IsAccepted text date time offset tail) :
    ([':'].intercalate time).map (fun character => if character = ':' then '-' else character) =
      ['-'].intercalate time := by
  rw [map_intercalate]
  congr 1
  calc time.map (List.map fun character => if character = ':' then '-' else character)
      = time.map id := by
        apply List.map_congr_left
        intro part inside
        have clear : ':' ∉ part := (accepted.timeComponents part inside).notMem (by decide)
        calc part.map (fun character => if character = ':' then '-' else character)
            = part.map id := List.map_congr_left fun character member =>
              if_neg (ne_of_mem_of_not_mem member clear)
          _ = part := List.map_id part
    _ = time := List.map_id time

/-- The parts are determined by the text. -/
theorem unique {otherDate otherTime : List (List Char)} {otherOffset otherTail : List Char}
    (accepted : IsAccepted text date time offset tail)
    (other : IsAccepted text otherDate otherTime otherOffset otherTail) :
    date = otherDate ∧ time = otherTime ∧ offset ++ tail = otherOffset ++ otherTail := by
  have cuts := accepted.cutFirst.symm.trans other.cutFirst
  obtain ⟨dates, rests⟩ := Prod.mk.inj (Option.some.inj cuts)
  have clocks : [':'].intercalate time ++ offset = [':'].intercalate otherTime ++ otherOffset := by
    rw [← accepted.timed_time, rests, other.timed_time]
  have times : [':'].intercalate time = [':'].intercalate otherTime := by
    apply Option.some.inj
    rw [← accepted.stripOffset, clocks, other.stripOffset]
  refine ⟨?_, ?_, ?_⟩
  · rw [← accepted.splitOn_date, dates, other.splitOn_date]
  · rw [← accepted.splitOn_time, times, other.splitOn_time]
  · rw [times, List.append_assoc, List.append_assoc] at rests
    exact List.append_cancel_left rests

end IsAccepted

/-! ## What is accepted -/

theorem parseIsoDatetime_of_accepted {text : String} {date time : List (List Char)}
    {offset tail : List Char}
    (accepted : IsAccepted (trim text).toList date time offset tail) :
    parseIsoDatetime text = some (formatted date time) := by
  have dateParts : date.all isU32 = true :=
    List.all_eq_true.mpr fun part inside => isU32_iff.mpr (accepted.dateComponents part inside)
  have timeParts : time.all isU32 = true :=
    List.all_eq_true.mpr fun part inside => isU32_iff.mpr (accepted.timeComponents part inside)
  have timed_eq := accepted.timed_time
  rw [timed] at timed_eq
  have lengths : 2 ≤ time.length ∧ time.length ≤ 3 := by
    have two_or_three := accepted.wallClock.2
    omega
  simp only [parseIsoDatetime, accepted.cutFirst, Option.bind_eq_bind, Option.bind_some,
    accepted.splitOn_date, accepted.wallClock.1, dateParts, timed_eq, accepted.stripOffset,
    accepted.splitOn_time, lengths, timeParts, accepted.replaced, formatted]
  rfl

theorem accepted_of_parseIsoDatetime {text out : String}
    (parsed : parseIsoDatetime text = some out) : ∃ date time offset tail,
      IsAccepted (trim text).toList date time offset tail ∧ out = formatted date time := by
  simp only [parseIsoDatetime, Option.bind_eq_bind, Option.bind_eq_some_iff,
    Option.guard_eq_some', exists_const] at parsed
  obtain ⟨⟨date, timePart⟩, cut, three, numbers, clean, stripped, lengths, times, result⟩ := parsed
  obtain ⟨whole, -⟩ := cutFirst?_eq_some_iff.mp cut
  obtain ⟨tail, cutOff, tailShape⟩ := tail_of_timed timePart
  obtain ⟨offset, clock, offsetShape, signed⟩ := offset_of_stripOffset? stripped
  have joinedDate : ['-'].intercalate (date.splitOn '-') = date := List.intercalate_splitOn '-'
  have joinedTime : [':'].intercalate (clean.splitOn ':') = clean := List.intercalate_splitOn ':'
  have accepted : IsAccepted (trim text).toList (date.splitOn '-') (clean.splitOn ':') offset
      tail := by
    refine ⟨⟨three, by omega⟩, ?_, offsetShape, tailShape, ?_, ?_⟩
    · intro part inside
      rcases List.mem_append.mp inside with ofDate | ofTime
      · exact isU32_iff.mp (List.all_eq_true.mp numbers part ofDate)
      · exact isU32_iff.mp (List.all_eq_true.mp times part ofTime)
    · rintro ⟨part, inside, found⟩
      exact signed (joinedTime ▸ mem_intercalate_of_mem inside found)
    · calc (trim text).toList
          = date ++ 'T' :: timePart := whole
        _ = date ++ 'T' :: (clean ++ offset ++ tail) := by rw [cutOff, timed, clock]
        _ = written (date.splitOn '-') (clean.splitOn ':') ++ offset ++ tail := by
          simp [written, joinedDate, joinedTime]
  refine ⟨_, _, offset, tail, accepted, ?_⟩
  have replaced := accepted.replaced
  rw [joinedTime] at replaced
  rw [formatted, joinedDate, ← replaced]
  exact (Option.some.inj result).symm

theorem parseIsoDatetime_eq_some_iff {text out : String} :
    parseIsoDatetime text = some out ↔ ∃ date time offset tail,
      IsAccepted (trim text).toList date time offset tail ∧ out = formatted date time := by
  constructor
  · exact accepted_of_parseIsoDatetime
  · rintro ⟨date, time, offset, tail, accepted, rfl⟩
    exact parseIsoDatetime_of_accepted accepted

/-! ## Timestamps are accepted -/

theorem offset_of_ending {ending : List Char} (shape : IsEnding ending) : ∃ offset tail,
    ending = offset ++ tail ∧ (offset = [] ∨ IsOffset offset) ∧ IsTail tail := by
  obtain ⟨fraction, zone, rfl, fractionShape, zoneShape⟩ := shape
  rcases fractionShape with rfl | ⟨digits, rfl, -⟩
  · rcases zoneShape with rfl | rfl | offset
    · exact ⟨[], [], rfl, .inl rfl, .inl rfl⟩
    · exact ⟨[], ['Z'], rfl, .inl rfl, .inr (.inr rfl)⟩
    · exact ⟨zone, [], by simp, .inr offset, .inl rfl⟩
  · exact ⟨[], '.' :: digits ++ zone, rfl, .inl rfl, .inr (.inl rfl)⟩

theorem IsTimestamp.accepted {text : List Char} {date time : List (List Char)}
    (timestamp : IsTimestamp text date time)
    (small : ∀ part ∈ date ++ time, Decimal.value part < 2 ^ 32) :
    ∃ offset tail, IsAccepted text date time offset tail ∧ IsEnding (offset ++ tail) := by
  obtain ⟨ending, whole, shape⟩ := timestamp.whole
  obtain ⟨offset, tail, rfl, offsetShape, tailShape⟩ := offset_of_ending shape
  refine ⟨offset, tail, ⟨timestamp.wallClock, ?_, offsetShape, tailShape, ?_, ?_⟩, shape⟩
  · intro part inside
    exact component_of_numeral (timestamp.numerals part inside) (small part inside)
  · rintro ⟨part, inside, sign⟩
    have numeral := timestamp.numerals part (List.mem_append_right _ inside)
    exact absurd sign numeral.plus_notMem
  · rw [List.append_assoc]
    exact whole

/-- Text that is accepted although it is no timestamp: a component has a sign, or
something else than a fraction and a zone is cut off. -/
def IsLax (text : List Char) : Prop :=
  ∃ date time offset tail, IsAccepted text date time offset tail ∧
    ((∃ part ∈ date ++ time, '+' ∈ part) ∨ ¬ IsEnding (offset ++ tail))

/-- Timestamps are accepted, and nothing else is, exactly where the text is none of the
lax ones; then the name has the components of the date and time. -/
theorem only_timestamps_are_accepted_iff (text : String) :
    (∀ out, parseIsoDatetime text = some out ↔ ∃ date time,
      IsTimestamp (trim text).toList date time ∧
        (∀ part ∈ date ++ time, Decimal.value part < 2 ^ 32) ∧ out = formatted date time) ↔
    ¬ IsLax (trim text).toList := by
  constructor
  · rintro exactly ⟨date, time, offset, tail, accepted, lax⟩
    obtain ⟨otherDate, otherTime, timestamp, small, -⟩ :=
      (exactly _).mp (parseIsoDatetime_of_accepted accepted)
    obtain ⟨otherOffset, otherTail, other, ending⟩ := timestamp.accepted small
    obtain ⟨rfl, rfl, same⟩ := accepted.unique other
    rcases lax with ⟨part, inside, sign⟩ | open_
    · exact absurd sign (timestamp.numerals part inside).plus_notMem
    · rw [same] at open_
      exact open_ ending
  · intro strict out
    rw [parseIsoDatetime_eq_some_iff]
    constructor
    · rintro ⟨date, time, offset, tail, accepted, rfl⟩
      have plain : ∀ part ∈ date ++ time, Decimal.IsNumeral part ∧ Decimal.value part < 2 ^ 32 := by
        intro part inside
        apply numeral_of_component (accepted.components part inside)
        exact fun sign => strict ⟨date, time, offset, tail, accepted, .inl ⟨part, inside, sign⟩⟩
      have ending : IsEnding (offset ++ tail) := by
        by_contra other
        exact strict ⟨date, time, offset, tail, accepted, .inr other⟩
      refine ⟨date, time, ⟨accepted.wallClock, fun part inside => (plain part inside).1, ?_⟩,
        fun part inside => (plain part inside).2, rfl⟩
      exact ⟨offset ++ tail, by rw [accepted.whole, List.append_assoc], ending⟩
    · rintro ⟨date, time, timestamp, small, rfl⟩
      obtain ⟨offset, tail, accepted, -⟩ := timestamp.accepted small
      exact ⟨date, time, offset, tail, accepted, rfl⟩

/-! ## The characters of a timestamp -/

theorem notMem_numerals {parts : List (List Char)} {separator mark : Char}
    (numerals : ∀ part ∈ parts, Decimal.IsNumeral part) (other : mark.isDigit = false)
    (different : mark ≠ separator) : mark ∉ [separator].intercalate parts := by
  intro member
  rcases mem_intercalate member with between | ⟨part, inside, found⟩
  · exact different (List.mem_singleton.mp between)
  · exact numeral_notMem (numerals part inside) other found

theorem notMem_ending {ending : List Char} (shape : IsEnding ending) {mark : Char}
    (other : mark.isDigit = false) (unused : mark ∉ ['-', 'T', ':', '.', 'Z', '+']) :
    mark ∉ ending := by
  simp only [List.mem_cons, List.not_mem_nil, or_false, not_or] at unused
  obtain ⟨minus, -, colon, dot, letter, plus⟩ := unused
  obtain ⟨fraction, zone, rfl, fractionShape, zoneShape⟩ := shape
  rw [List.mem_append, not_or]
  constructor
  · rcases fractionShape with rfl | ⟨digits, rfl, numeral⟩
    · exact List.not_mem_nil
    · exact List.not_mem_cons_of_ne_of_not_mem dot (numeral_notMem numeral other)
  · rcases zoneShape with rfl | rfl | offset
    · exact List.not_mem_nil
    · exact List.not_mem_cons_of_ne_of_not_mem letter List.not_mem_nil
    · exact notMem_offset (.inr offset) other colon ⟨plus, minus⟩

/-- Timestamps are written with digits and six other characters. -/
theorem IsTimestamp.notMem {text : List Char} {date time : List (List Char)}
    (timestamp : IsTimestamp text date time) {mark : Char} (other : mark.isDigit = false)
    (unused : mark ∉ ['-', 'T', ':', '.', 'Z', '+']) : mark ∉ text := by
  obtain ⟨ending, rfl, shape⟩ := timestamp.whole
  have clear := notMem_ending shape other unused
  simp only [List.mem_cons, List.not_mem_nil, or_false, not_or] at unused
  rw [written, List.append_assoc, List.mem_append, List.cons_append, List.mem_cons,
    List.mem_append, not_or, not_or, not_or]
  refine ⟨?_, unused.2.1, ?_, clear⟩
  · exact notMem_numerals (fun part inside => timestamp.numerals part
      (List.mem_append_left _ inside)) other unused.1
  · exact notMem_numerals (fun part inside => timestamp.numerals part
      (List.mem_append_right _ inside)) other unused.2.2.1

/-- Whatever follows a `Z` passes. -/
theorem text_after_z_is_accepted :
    parseIsoDatetime "2024-01-15T14:30:45Zgarbage" = some "2024-01-15_14-30-45" ∧
      ¬ ∀ text out, parseIsoDatetime text = some out →
        ∃ date time, IsTimestamp (trim text).toList date time := by
  have accepted : parseIsoDatetime "2024-01-15T14:30:45Zgarbage" = some "2024-01-15_14-30-45" := by
    decide
  refine ⟨accepted, fun onlyTimestamps => ?_⟩
  obtain ⟨date, time, timestamp⟩ := onlyTimestamps _ _ accepted
  exact timestamp.notMem (by decide : 'g'.isDigit = false) (by decide) (by decide)

end AntiEntropator.Scan
