import AntiEntropator.Domain.Lexical
import Mathlib.Data.List.Forall2

/-!
# Sizes on the command line

A size is a number with a unit.  Every unit ends in `B`, so the longer endings
are tried first; the number and its product with the unit have bounds of their
own.
-/

namespace AntiEntropator.Cli

def kibibyte : UInt64 := 1024
def mebibyte : UInt64 := kibibyte * 1024
def gibibyte : UInt64 := mebibyte * 1024

def checkedMul (first second : UInt64) : Option UInt64 :=
  if first.toNat * second.toNat < 2 ^ 64 then some (first * second) else none

/-- The text before the unit, and the unit's size. -/
def sizeParts? (normalized : String) : Option (String × UInt64) :=
  match stripSuffix? "GB" normalized with
  | some number => some (number, gibibyte)
  | none =>
    match stripSuffix? "MB" normalized with
    | some number => some (number, mebibyte)
    | none =>
      match stripSuffix? "KB" normalized with
      | some number => some (number, kibibyte)
      | none =>
        match stripSuffix? "B" normalized with
        | some number => some (number, 1)
        | none => none

def invalidSize (value : String) : String :=
  "invalid size '" ++ value ++
    "': expected a non-negative integer followed by B, KB, MB, or GB"

def excessiveSize (value : String) : String :=
  "invalid size '" ++ value ++ "': value exceeds the supported byte range"

def parseByteSize (value : String) : Except String UInt64 := do
  let normalized := toAsciiUppercase (trim value)
  let (number, multiplier) ←
    match sizeParts? normalized with
    | some parts => .ok parts
    | none => .error (invalidSize value)
  let number ←
    match parseUnsigned? (2 ^ 64) (trim number) with
    | some number => .ok (UInt64.ofNat number)
    | none => .error (invalidSize value)
  match checkedMul number multiplier with
  | some size => .ok size
  | none => .error (excessiveSize value)

example : parseByteSize " 2 mB " = .ok 2097152 := by decide

/-! ## The grammar of sizes -/

inductive SizeUnit where
  | byte
  | kilobyte
  | megabyte
  | gigabyte

def SizeUnit.name : SizeUnit → List Char
  | .byte => ['B']
  | .kilobyte => ['K', 'B']
  | .megabyte => ['M', 'B']
  | .gigabyte => ['G', 'B']

/-- A unit is this power of 1024 bytes. -/
def SizeUnit.power : SizeUnit → Nat
  | .byte => 0
  | .kilobyte => 1
  | .megabyte => 2
  | .gigabyte => 3

/-- A number, white space, and a unit in letters of any case. -/
def IsSize (text : List Char) (number : Nat) (unit : SizeUnit) : Prop :=
  ∃ digits spaces letters, text = digits ++ spaces ++ letters ∧
    Decimal.Unsigned digits number ∧ (∀ space ∈ spaces, isWhitespace space = true) ∧
    List.Forall₂ IsCaseOf unit.name letters

def SizeUnit.multiplier : SizeUnit → UInt64
  | .byte => 1
  | .kilobyte => kibibyte
  | .megabyte => mebibyte
  | .gigabyte => gibibyte

theorem toNat_multiplier (unit : SizeUnit) : unit.multiplier.toNat = 1024 ^ unit.power := by
  cases unit with
  | byte => rfl
  | kilobyte => rfl
  | megabyte => rfl
  | gigabyte => rfl

theorem map_toUpper_iff (unit : SizeUnit) (letters : List Char) :
    letters.map Char.toUpper = unit.name ↔ List.Forall₂ IsCaseOf unit.name letters := by
  have capitals : ∀ letter ∈ unit.name, letter.isUpper = true := by
    apply List.all_eq_true.mp
    cases unit <;> decide
  generalize unit.name = name at capitals
  induction letters generalizing name with
  | nil =>
      cases name with
      | nil => simp
      | cons capital rest => simp [List.forall₂_nil_right_iff]
  | cons letter letters inductionHypothesis =>
      cases name with
      | nil => simp [List.forall₂_nil_left_iff]
      | cons capital rest =>
          rw [List.forall_mem_cons] at capitals
          rw [List.map_cons, List.cons.injEq, List.forall₂_cons,
            toUpper_eq_capital_iff capitals.1]
          exact and_congr_right fun _ => inductionHypothesis rest capitals.2

/-! ## Units are told apart -/

/-- Text that ends in no letter, so the letters after it are the whole unit. -/
def EndsPlain (text : List Char) : Prop := ∀ letter ∈ text.getLast?, letter.isUpper = false

theorem stripSuffix?_eq_none {body : List Char} (plain : EndsPlain body) {capital : Char}
    (upper : capital.isUpper = true) (rest : List Char) :
    stripSuffix? (String.ofList (capital :: rest)) (String.ofList (body ++ rest)) = none := by
  refine if_neg ?_
  rw [String.toList_ofList, String.toList_ofList]
  rintro ⟨front, whole⟩
  rw [List.append_cons] at whole
  have start : front ++ [capital] = body := List.append_cancel_right whole
  rw [plain capital (by simp [← start])] at upper
  cases upper

theorem stripSuffix?_other {first second : Char} (different : first ≠ second)
    (body rest : List Char) :
    stripSuffix? (String.ofList (first :: rest)) (String.ofList (body ++ second :: rest)) =
      none := by
  refine if_neg ?_
  rw [String.toList_ofList, String.toList_ofList]
  rintro ⟨front, whole⟩
  rw [List.append_cons, List.append_cons body] at whole
  have start : front ++ [first] = body ++ [second] := List.append_cancel_right whole
  exact different (List.append_inj_right' start rfl |> List.cons.inj |>.1)

theorem stripSuffix?_self (body suffix : List Char) :
    stripSuffix? (String.ofList suffix) (String.ofList (body ++ suffix)) =
      some (String.ofList body) := by
  rw [String.ofList_append, stripSuffix?_append]

theorem sizeParts?_append (unit : SizeUnit) {body : List Char} (plain : EndsPlain body) :
    sizeParts? (String.ofList (body ++ unit.name)) =
      some (String.ofList body, unit.multiplier) := by
  have giga : "GB" = String.ofList ['G', 'B'] := rfl
  have mega : "MB" = String.ofList ['M', 'B'] := rfl
  have kilo : "KB" = String.ofList ['K', 'B'] := rfl
  have one : "B" = String.ofList ['B'] := rfl
  rw [sizeParts?, giga, mega, kilo, one]
  cases unit with
  | gigabyte => rw [SizeUnit.name, stripSuffix?_self]; rfl
  | megabyte =>
      rw [SizeUnit.name, stripSuffix?_other (by decide), stripSuffix?_self]
      rfl
  | kilobyte =>
      rw [SizeUnit.name, stripSuffix?_other (by decide), stripSuffix?_other (by decide),
        stripSuffix?_self]
      rfl
  | byte =>
      rw [SizeUnit.name, stripSuffix?_eq_none plain (by decide),
        stripSuffix?_eq_none plain (by decide), stripSuffix?_eq_none plain (by decide),
        stripSuffix?_self]
      rfl

theorem toList_of_stripSuffix? {suffix normalized stem : String} {name : List Char}
    (named : suffix.toList = name) (stripped : stripSuffix? suffix normalized = some stem) :
    normalized.toList = stem.toList ++ name := by
  rw [eq_append_of_stripSuffix? stripped, String.toList_append, named]

theorem unit_of_sizeParts? {normalized number : String} {multiplier : UInt64}
    (found : sizeParts? normalized = some (number, multiplier)) :
    ∃ unit : SizeUnit, normalized.toList = number.toList ++ unit.name ∧
      multiplier = unit.multiplier := by
  unfold sizeParts? at found
  split at found
  next stem stripped =>
    cases found
    exact ⟨.gigabyte, toList_of_stripSuffix? rfl stripped, rfl⟩
  next =>
    split at found
    next stem stripped =>
      cases found
      exact ⟨.megabyte, toList_of_stripSuffix? rfl stripped, rfl⟩
    next =>
      split at found
      next stem stripped =>
        cases found
        exact ⟨.kilobyte, toList_of_stripSuffix? rfl stripped, rfl⟩
      next =>
        split at found
        next stem stripped =>
          cases found
          exact ⟨.byte, toList_of_stripSuffix? rfl stripped, rfl⟩
        next => cases found

/-! ## Reading a size -/

/-- The number and the unit's size, before they are multiplied. -/
def readSize? (value : String) : Option (Nat × UInt64) :=
  (sizeParts? (toAsciiUppercase (trim value))).bind fun parts =>
    (parseUnsigned? (2 ^ 64) (trim parts.1)).map fun number => (number, parts.2)

theorem parseByteSize_eq (value : String) :
    parseByteSize value = match readSize? value with
      | none => .error (invalidSize value)
      | some (number, multiplier) =>
        match checkedMul (UInt64.ofNat number) multiplier with
        | some size => .ok size
        | none => .error (excessiveSize value) := by
  delta parseByteSize readSize?
  dsimp only
  generalize sizeParts? (toAsciiUppercase (trim value)) = parts
  rcases parts with - | ⟨number, multiplier⟩
  · rfl
  · simp only [bind, Except.bind, Option.bind_some]
    generalize parseUnsigned? (2 ^ 64) (trim number) = read
    rcases read with - | number
    · rfl
    · rfl

theorem isUpper_eq_false {character : Char}
    (other : ¬ (65 ≤ character.toNat ∧ character.toNat ≤ 90)) : character.isUpper = false :=
  eq_false_of_ne_true fun upper => other (isUpper_iff.mp upper)

theorem not_letter_of_mem {digits spaces : List Char} {number : Nat}
    (reading : Decimal.Unsigned digits number)
    (blank : ∀ space ∈ spaces, isWhitespace space = true) {character : Char}
    (member : character ∈ digits ++ spaces) :
    ¬ (97 ≤ character.toNat ∧ character.toNat ≤ 122) ∧
      ¬ (65 ≤ character.toNat ∧ character.toNat ≤ 90) := by
  rcases List.mem_append.mp member with digit | space
  · exact not_small_of_mem_unsigned reading digit
  · exact not_small_of_isWhitespace (blank character space)

theorem bare_of_unsigned {digits : List Char} {number : Nat}
    (reading : Decimal.Unsigned digits number) : Trimming.Bare isWhitespace digits where
  head _ found := isWhitespace_of_mem_unsigned reading (List.mem_of_head? found)
  last _ found := isWhitespace_of_mem_unsigned reading (List.mem_of_getLast? found)

theorem readSize?_of_isSize {value : String} {number : Nat} {unit : SizeUnit}
    (size : IsSize (trim value).toList number unit) (small : number < 2 ^ 64) :
    readSize? value = some (number, unit.multiplier) := by
  obtain ⟨digits, spaces, letters, whole, reading, blank, named⟩ := size
  have unchanged : (digits ++ spaces).map Char.toUpper = digits ++ spaces := by
    calc (digits ++ spaces).map Char.toUpper
        = (digits ++ spaces).map id := List.map_congr_left fun character member =>
          toUpper_of_not_small (not_letter_of_mem reading blank member).1
      _ = digits ++ spaces := List.map_id _
  have normalized : toAsciiUppercase (trim value) =
      String.ofList (digits ++ spaces ++ unit.name) := by
    rw [toAsciiUppercase, whole, List.map_append, unchanged,
      (map_toUpper_iff unit letters).mpr named]
  have plain : EndsPlain (digits ++ spaces) := by
    intro letter found
    exact isUpper_eq_false (not_letter_of_mem reading blank (List.mem_of_getLast? found)).2
  have trimmed : trim (String.ofList (digits ++ spaces)) = String.ofList digits := by
    rw [trim, String.toList_ofList, Trimming.trim_append (bare_of_unsigned reading) blank]
  rw [readSize?, normalized, sizeParts?_append unit plain, Option.bind_some, trimmed,
    parseUnsigned?, String.toList_ofList,
    (Decimal.readUnsigned_eq_some_iff (by decide)).mpr ⟨reading, small⟩]
  rfl

theorem isSize_of_readSize? {value : String} {number : Nat} {multiplier : UInt64}
    (read : readSize? value = some (number, multiplier)) :
    ∃ unit : SizeUnit, IsSize (trim value).toList number unit ∧ number < 2 ^ 64 ∧
      multiplier = unit.multiplier := by
  obtain ⟨⟨body, factor⟩, parts, parsed⟩ := Option.bind_eq_some_iff.mp read
  obtain ⟨found, digits, same⟩ := Option.map_eq_some_iff.mp parsed
  cases same
  obtain ⟨unit, normalized, rfl⟩ := unit_of_sizeParts? parts
  obtain ⟨reading, small⟩ := (Decimal.readUnsigned_eq_some_iff (by decide)).mp digits
  refine ⟨unit, ?_, small, rfl⟩
  -- The text before the unit is white space around the number.
  rw [toAsciiUppercase, String.toList_ofList, List.map_eq_append_iff] at normalized
  obtain ⟨front, letters, whole, upper, named⟩ := normalized
  obtain ⟨before, after, split, blankBefore, blankAfter⟩ :=
    Trimming.trim_between isWhitespace body.toList
  rw [← toList_trim] at split
  have plain : ∀ character ∈ body.toList, character.isUpper = false := by
    intro character member
    rw [split, List.append_assoc] at member
    rcases List.mem_append.mp member with space | later
    · exact isUpper_eq_false (not_small_of_isWhitespace (blankBefore character space)).2
    · exact isUpper_eq_false (not_letter_of_mem reading blankAfter later).2
  rw [eq_of_map_toUpper upper plain, split] at whole
  cases before with
  | nil =>
      rw [List.nil_append] at whole
      exact ⟨(trim body).toList, after, letters, whole, reading, blankAfter,
        (map_toUpper_iff unit letters).mp named⟩
  | cons space rest =>
      have bare := Trimming.bare_trim isWhitespace value.toList
      rw [← toList_trim, whole] at bare
      have kept := bare.head space (by simp)
      rw [blankBefore space (by simp)] at kept
      cases kept

theorem readSize?_eq_some_iff {value : String} {number : Nat} {multiplier : UInt64} :
    readSize? value = some (number, multiplier) ↔ ∃ unit : SizeUnit,
      IsSize (trim value).toList number unit ∧ number < 2 ^ 64 ∧
        multiplier = unit.multiplier := by
  constructor
  · exact isSize_of_readSize?
  · rintro ⟨unit, size, small, rfl⟩
    exact readSize?_of_isSize size small

theorem checkedMul_eq_some_iff {first second product : UInt64} :
    checkedMul first second = some product ↔ first.toNat * second.toNat < 2 ^ 64 ∧
      product.toNat = first.toNat * second.toNat := by
  unfold checkedMul
  constructor
  · intro found
    split at found
    next fits =>
      cases found
      exact ⟨fits, by rw [UInt64.toNat_mul, Nat.mod_eq_of_lt fits]⟩
    next => cases found
  · rintro ⟨fits, exactly⟩
    rw [if_pos fits]
    congr 1
    apply UInt64.toNat_inj.mp
    rw [exactly, UInt64.toNat_mul, Nat.mod_eq_of_lt fits]

theorem parseByteSize_eq_ok_iff {value : String} {size : UInt64} :
    parseByteSize value = .ok size ↔ ∃ number multiplier,
      readSize? value = some (number, multiplier) ∧
        checkedMul (UInt64.ofNat number) multiplier = some size := by
  rw [parseByteSize_eq]
  rcases readSize? value with - | ⟨number, multiplier⟩
  · simp
  · cases product : checkedMul (UInt64.ofNat number) multiplier with
    | none => simp [product]
    | some bytes => simp [product]

theorem checkedMul_multiplier {number : Nat} (small : number < 2 ^ 64) (unit : SizeUnit)
    (size : UInt64) : checkedMul (UInt64.ofNat number) unit.multiplier = some size ↔
      number * 1024 ^ unit.power < 2 ^ 64 ∧ size.toNat = number * 1024 ^ unit.power := by
  rw [checkedMul_eq_some_iff, toNat_multiplier, UInt64.toNat_ofNat_of_lt' small]

/-- A size is accepted exactly when it is written as the grammar has it and both its
number and its bytes fit, and the bytes are exact.  Other text is an error, which
tells text that is no size from a size beyond the range. -/
theorem byte_sizes_are_exact (value : String) :
    (∀ size : UInt64, parseByteSize value = .ok size ↔ ∃ number unit,
      IsSize (trim value).toList number unit ∧ number < 2 ^ 64 ∧
        number * 1024 ^ unit.power < 2 ^ 64 ∧ size.toNat = number * 1024 ^ unit.power) ∧
    ((∀ number unit, IsSize (trim value).toList number unit → 2 ^ 64 ≤ number) →
      parseByteSize value = .error (invalidSize value)) ∧
    ∀ number unit, IsSize (trim value).toList number unit → number < 2 ^ 64 →
      2 ^ 64 ≤ number * 1024 ^ unit.power →
        parseByteSize value = .error (excessiveSize value) := by
  refine ⟨fun size => ?_, fun unread => ?_, fun number unit written small large => ?_⟩
  · rw [parseByteSize_eq_ok_iff]
    constructor
    · rintro ⟨number, multiplier, read, product⟩
      obtain ⟨unit, written, small, rfl⟩ := readSize?_eq_some_iff.mp read
      exact ⟨number, unit, written, small, (checkedMul_multiplier small unit size).mp product⟩
    · rintro ⟨number, unit, written, small, product⟩
      exact ⟨number, unit.multiplier, readSize?_eq_some_iff.mpr ⟨unit, written, small, rfl⟩,
        (checkedMul_multiplier small unit size).mpr product⟩
  · rw [parseByteSize_eq]
    rcases read : readSize? value with - | ⟨number, multiplier⟩
    · rfl
    · obtain ⟨unit, written, small, -⟩ := readSize?_eq_some_iff.mp read
      exact absurd (unread number unit written) (Nat.not_le.mpr small)
  · rw [parseByteSize_eq, readSize?_eq_some_iff.mpr ⟨unit, written, small, rfl⟩]
    cases product : checkedMul (UInt64.ofNat number) unit.multiplier with
    | none => simp [product]
    | some size =>
        have fits := ((checkedMul_multiplier small unit size).mp product).1
        exact absurd fits (Nat.not_lt.mpr large)

end AntiEntropator.Cli
