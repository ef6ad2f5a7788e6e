import AntiEntropator.Domain.ContentHash
import AntiEntropator.Domain.Decoding

/-!
# Slicing text by bytes

Text is sliced at byte offsets, which panics inside a character.  The object key
is cut from the hash text this way; hash texts are hex digits, where every
offset is a boundary.
-/

namespace AntiEntropator

/-- `str::is_char_boundary`: the start, the end, or a byte that continues nothing. -/
def isCharBoundary (text : String) (index : Nat) : Bool :=
  index = 0 ∨ index = (utf8Bytes text).length ∨
    (utf8Bytes text)[index]?.any fun byte => byte < 0x80 ∨ 0xC0 ≤ byte

/-- `&text[start..stop]`, which panics at other offsets. -/
def slice? (text : String) (start stop : Nat) : Option String :=
  if start ≤ stop ∧ isCharBoundary text start ∧ isCharBoundary text stop then
    OsString.toStr? (((utf8Bytes text).drop start).take (stop - start))
  else none

def IsAscii (text : String) : Prop := ∀ character ∈ text.toList, character.toNat < 0x80

theorem utf8Bytes_of_ascii {text : String} (ascii : IsAscii text) :
    utf8Bytes text = text.toList.map fun character => UInt8.ofNat character.toNat := by
  rw [utf8Bytes_eq, Utf8.encode_of_ascii ascii]

theorem isCharBoundary_of_ascii {text : String} (ascii : IsAscii text) {index : Nat}
    (inside : index ≤ text.toList.length) : isCharBoundary text index = true := by
  have bytes := utf8Bytes_of_ascii ascii
  rcases Nat.lt_or_eq_of_le inside with before | last
  · have small := ascii text.toList[index] (List.getElem_mem before)
    have byte : (utf8Bytes text)[index]? = some (UInt8.ofNat text.toList[index].toNat) := by
      rw [bytes, List.getElem?_map, List.getElem?_eq_getElem before]
      rfl
    have own : UInt8.ofNat text.toList[index].toNat < 0x80 := by
      rw [UInt8.lt_iff_toNat_lt, Utf8.toNat_ofNat (by omega)]
      exact small
    simp [isCharBoundary, byte, own]
  · simp [isCharBoundary, bytes, last]

theorem slice?_of_ascii {text : String} (ascii : IsAscii text) {start stop : Nat}
    (ordered : start ≤ stop) (inside : stop ≤ text.toList.length) :
    slice? text start stop =
      some (String.ofList ((text.toList.drop start).take (stop - start))) := by
  have part : ∀ character ∈ (text.toList.drop start).take (stop - start),
      character.toNat < 0x80 :=
    fun character member => ascii character (List.mem_of_mem_drop (List.mem_of_mem_take member))
  have first := isCharBoundary_of_ascii ascii (Nat.le_trans ordered inside)
  have last := isCharBoundary_of_ascii ascii inside
  rw [slice?, if_pos ⟨ordered, first, last⟩, utf8Bytes_of_ascii ascii, ← List.map_drop,
    ← List.map_take, ← Utf8.encode_of_ascii part, ← utf8Bytes_ofList]
  exact OsString.toStr?_utf8Bytes _

example : slice? "aéb" 0 2 = none := by decide

theorem isAscii_toLowerHex (bytes : List UInt8) : IsAscii (toLowerHex bytes) := by
  have digit : ∀ value, (hexDigits.getD value '0').toNat < 0x80 := by
    intro value
    by_cases small : value < 16
    · have digits : ∀ value : Fin 16, (hexDigits.getD value.val '0').toNat < 0x80 := by decide
      exact digits ⟨value, small⟩
    · rw [List.getD_eq_getElem?_getD, List.getElem?_eq_none (Nat.le_of_not_lt small)]
      decide
  intro character member
  rw [toLowerHex, String.toList_ofList, List.mem_flatMap] at member
  obtain ⟨byte, -, inside⟩ := member
  simp only [List.mem_cons, List.not_mem_nil, or_false] at inside
  rcases inside with rfl | rfl <;> exact digit _

theorem length_toLowerHex (bytes : List UInt8) :
    (toLowerHex bytes).toList.length = 2 * bytes.length := by
  rw [toLowerHex, String.toList_ofList]
  induction bytes with
  | nil => rfl
  | cons byte rest inductionHypothesis =>
      rw [List.flatMap_cons, List.length_append, inductionHypothesis, List.length_cons]
      simp only [List.length_cons, List.length_nil]
      omega

/-- `ContentHash::to_object_key`, with its slices. -/
def ContentHash.toObjectKey? (hash : ContentHash) : Option String :=
  if 4 ≤ (utf8Bytes hash.text).length then do
    let first ← slice? hash.text 0 2
    let second ← slice? hash.text 2 4
    return "sha256/" ++ first ++ "/" ++ second ++ "/" ++ hash.text
  else some ("sha256/" ++ hash.text)

theorem length_utf8Bytes (text : String) : (utf8Bytes text).length = text.utf8ByteSize := rfl

theorem toObjectKey?_toLowerHex (bytes : List UInt8) :
    ContentHash.toObjectKey? ⟨toLowerHex bytes⟩ =
      some (ContentHash.toObjectKey ⟨toLowerHex bytes⟩) := by
  have ascii := isAscii_toLowerHex bytes
  have long : (utf8Bytes (toLowerHex bytes)).length = (toLowerHex bytes).toList.length := by
    rw [utf8Bytes_of_ascii ascii, List.length_map]
  unfold ContentHash.toObjectKey? ContentHash.toObjectKey
  dsimp only
  rw [← length_utf8Bytes]
  split
  next sliced =>
    rw [long] at sliced
    rw [slice?_of_ascii ascii (by omega) (by omega), slice?_of_ascii ascii (by omega) (by omega)]
    rfl
  next => rfl

end AntiEntropator
