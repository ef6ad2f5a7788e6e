import AntiEntropator.Domain.Decoding
import AntiEntropator.Domain.Walk
import AntiEntropator.Splitting

/-!
# File names and their extensions

A file name is a normal component of its path.  Its extension is what follows
its last dot, unless nothing precedes that dot; in text this is the same as in
bytes.
-/

namespace AntiEntropator

open Splitting

namespace Path

theorem eq_of_parse {piece : List UInt8} {name : OsString}
    (parsed : parseSingleComponent piece = some (.normal name)) :
    piece = name ∧ name ≠ [] ∧ name ≠ [0x2E] ∧ name ≠ [0x2E, 0x2E] := by
  unfold parseSingleComponent at parsed
  split at parsed
  next => cases parsed
  next kept =>
    split at parsed
    next => cases parsed
    next other =>
      cases parsed
      rw [not_or] at kept
      exact ⟨rfl, kept.1, kept.2, other⟩

theorem normal_notMem_start (path : List UInt8) (name : OsString) :
    .normal name ∉ start path := by
  unfold start
  split
  next => simp
  next =>
    split
    next => simp
    next => exact List.not_mem_nil

theorem piece_of_fileName {path : List UInt8} {name : OsString}
    (named : fileName path = some name) : name ∈ path.splitOn 0x2F ∧
      name ≠ [] ∧ name ≠ [0x2E] ∧ name ≠ [0x2E, 0x2E] := by
  unfold fileName at named
  split at named
  next component last =>
    cases named
    have member := List.mem_of_getLast? last
    rw [components, List.mem_append] at member
    obtain ⟨piece, inside, parsed⟩ := List.mem_filterMap.mp
      (member.resolve_left (normal_notMem_start path name))
    obtain ⟨rfl, shape⟩ := eq_of_parse parsed
    exact ⟨inside, shape⟩
  next => cases named

theorem normal_of_fileName {path : List UInt8} {name : OsString}
    (named : fileName path = some name) : NormalComponent name := by
  obtain ⟨inside, nonempty, current, parent⟩ := piece_of_fileName named
  exact ⟨nonempty, notMem_of_mem_splitOn inside, current, parent⟩

theorem mem_of_fileName {path : List UInt8} {name : OsString} (named : fileName path = some name)
    {byte : UInt8} (member : byte ∈ name) : byte ∈ path := by
  have joined : byte ∈ [0x2F].intercalate (path.splitOn 0x2F) :=
    mem_intercalate_of_mem (piece_of_fileName named).1 member
  rwa [List.intercalate_splitOn] at joined

theorem fileName_of_normal {name : OsString} (normal : NormalComponent name) :
    fileName name = some name := by
  rw [fileName, components, start_of_normal normal, splitOn_of_plain normal.2.1,
    List.filterMap_cons_some (parse_of_normal normal)]
  rfl

theorem rsplitFileAtDot_append {before after : List UInt8} (clear : (0x2E : UInt8) ∉ after)
    (nonempty : before ≠ []) (other : before ++ 0x2E :: after ≠ [0x2E, 0x2E]) :
    rsplitFileAtDot (before ++ 0x2E :: after) = (some before, some after) := by
  have reversed : (before ++ 0x2E :: after).reverse = after.reverse ++ 0x2E :: before.reverse := by
    simp
  have kept : ∀ byte ∈ after.reverse, decide (byte ≠ (0x2E : UInt8)) = true := by
    intro byte member
    exact decide_eq_true (ne_of_mem_of_not_mem (List.mem_reverse.mp member) clear)
  have front : (before ++ 0x2E :: after).reverse.takeWhile (· ≠ 0x2E) = after.reverse := by
    rw [reversed, List.takeWhile_append_of_pos kept, List.takeWhile_cons_of_neg (by simp),
      List.append_nil]
  have back : (before ++ 0x2E :: after).reverse.dropWhile (· ≠ 0x2E) = 0x2E :: before.reverse := by
    rw [reversed, List.dropWhile_append_of_pos kept, List.dropWhile_cons_of_neg (by simp)]
  rw [rsplitFileAtDot, if_neg other, front, back, List.tail?_cons, List.reverse_reverse]
  obtain ⟨byte, rest, split⟩ := List.exists_cons_of_ne_nil (List.reverse_ne_nil_iff.mpr nonempty)
  rw [split]
  simp only [← split, List.reverse_reverse]

theorem rsplitFileAtDot_of_notMem {file : List UInt8} (clear : (0x2E : UInt8) ∉ file) :
    (rsplitFileAtDot file).1 = none := by
  have gone : file.reverse.dropWhile (· ≠ 0x2E) = [] := by
    rw [List.dropWhile_eq_nil_iff]
    intro byte member
    exact decide_eq_true (ne_of_mem_of_not_mem (List.mem_reverse.mp member) clear)
  have other : file ≠ [0x2E, 0x2E] := by
    rintro rfl
    exact clear List.mem_cons_self
  rw [rsplitFileAtDot, if_neg other, gone]
  rfl

theorem rsplitFileAtDot_leading {after : List UInt8} (clear : (0x2E : UInt8) ∉ after) :
    (rsplitFileAtDot (0x2E :: after)).2 = none := by
  have kept : ∀ byte ∈ after.reverse, decide (byte ≠ (0x2E : UInt8)) = true := by
    intro byte member
    exact decide_eq_true (ne_of_mem_of_not_mem (List.mem_reverse.mp member) clear)
  have back : (0x2E :: after).reverse.dropWhile (· ≠ 0x2E) = [0x2E] := by
    rw [List.reverse_cons, List.dropWhile_append_of_pos kept, List.dropWhile_cons_of_neg (by simp)]
  unfold rsplitFileAtDot
  split
  next => rfl
  next =>
    rw [back]
    rfl

/-- What follows the last mark, unless nothing precedes it. -/
def afterLast? {Item : Type} [DecidableEq Item] (mark : Item) (items : List Item) :
    Option (List Item) :=
  (cutLast? mark items).bind fun (before, after) => if before = [] then none else some after

theorem afterLast?_eq_some_iff {Item : Type} [DecidableEq Item] {mark : Item}
    {items after : List Item} : afterLast? mark items = some after ↔
      ∃ before, before ≠ [] ∧ items = before ++ mark :: after ∧ mark ∉ after := by
  unfold afterLast?
  constructor
  · intro found
    obtain ⟨⟨before, rest⟩, cut, kept⟩ := Option.bind_eq_some_iff.mp found
    dsimp only at kept
    split at kept
    next => cases kept
    next nonempty =>
      cases kept
      exact ⟨before, nonempty, append_of_cutLast? cut⟩
  · rintro ⟨before, nonempty, rfl, clear⟩
    rw [cutLast?_append clear, Option.bind_some]
    exact if_neg nonempty

theorem extension_of_fileName {path : List UInt8} {name : OsString}
    (named : fileName path = some name) : extension path = afterLast? 0x2E name := by
  have normal := normal_of_fileName named
  rw [extension, named, Option.map_some, afterLast?]
  cases cut : cutLast? 0x2E name with
  | none =>
      have missing := rsplitFileAtDot_of_notMem (notMem_of_cutLast? cut)
      generalize rsplitFileAtDot name = parts at missing
      obtain ⟨before, after⟩ := parts
      cases missing
      rfl
  | some parts =>
      obtain ⟨before, after⟩ := parts
      obtain ⟨rfl, clear⟩ := append_of_cutLast? cut
      rw [Option.bind_some]
      by_cases empty : before = []
      · subst empty
        have missing := rsplitFileAtDot_leading clear
        rw [List.nil_append]
        generalize rsplitFileAtDot (0x2E :: after) = parts at missing
        obtain ⟨first, second⟩ := parts
        cases missing
        cases first with
        | none => rfl
        | some stem => rfl
      · rw [rsplitFileAtDot_append clear empty normal.2.2.2]
        exact (if_neg empty).symm

theorem mem_of_extension {path : List UInt8} {after : OsString}
    (found : extension path = some after) {byte : UInt8} (member : byte ∈ after) :
    byte ∈ path ∧ byte ≠ 0x2F := by
  cases named : fileName path with
  | none =>
      rw [extension, named] at found
      cases found
  | some name =>
      rw [extension_of_fileName named] at found
      obtain ⟨before, -, rfl, -⟩ := afterLast?_eq_some_iff.mp found
      have inside : byte ∈ before ++ 0x2E :: after :=
        List.mem_append_right _ (List.mem_cons_of_mem _ member)
      exact ⟨mem_of_fileName named inside,
        ne_of_mem_of_not_mem inside (normal_of_fileName named).2.1⟩

end Path

/-! ## Names in text -/

theorem cutLast?_encode (text : List Char) : cutLast? 0x2E (Utf8.encode text) =
    (cutLast? '.' text).map fun parts => (Utf8.encode parts.1, Utf8.encode parts.2) := by
  have dot : ∀ characters : List Char, (0x2E : UInt8) ∈ Utf8.encode characters ↔ '.' ∈ characters :=
    fun characters => Utf8.mem_encode_iff (show '.'.toNat < 0x80 by decide) characters
  cases cut : cutLast? '.' text with
  | none =>
      rw [cutLast?_of_notMem fun member => notMem_of_cutLast? cut ((dot text).mp member)]
      rfl
  | some parts =>
      obtain ⟨before, after⟩ := parts
      obtain ⟨rfl, clear⟩ := append_of_cutLast? cut
      rw [Utf8.encode_append, Utf8.encode_cons]
      exact cutLast?_append (fun member => clear ((dot after).mp member)) _

theorem afterLast?_utf8Bytes (text : String) : Path.afterLast? 0x2E (utf8Bytes text) =
    (Path.afterLast? '.' text.toList).map Utf8.encode := by
  rw [utf8Bytes_eq, Path.afterLast?, Path.afterLast?, cutLast?_encode]
  rcases cutLast? '.' text.toList with - | ⟨before, after⟩
  · rfl
  · cases before with
    | nil => rfl
    | cons character rest =>
        have nonempty : Utf8.encode (character :: rest) ≠ [] := by
          rw [Utf8.encode_cons]
          exact List.append_ne_nil_of_left_ne_nil String.utf8EncodeChar_ne_nil _
        rw [Option.map_some, Option.bind_some, Option.bind_some]
        exact if_neg nonempty

end AntiEntropator
