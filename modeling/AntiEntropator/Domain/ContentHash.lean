import AntiEntropator.Domain.Text
import Mathlib.Data.BitVec
import Mathlib.Data.Set.Function

/-!
# Content hashes and object keys

SHA-256 and UUIDv5 are library functions: they are parameters, and nothing
here depends on what they compute.  Hash texts are the lowercase hex digits of
a digest.
-/

namespace AntiEntropator

abbrev Uuid := BitVec 128

/-- The cryptographic functions of third-party crates. -/
structure Crypto where
  /-- SHA-256 of a byte string, as digest bytes. -/
  sha256 : List UInt8 → List UInt8
  /-- UUIDv5 of a name in a namespace. -/
  newV5 : Uuid → List UInt8 → Uuid

def hexDigits : List Char :=
  ['0', '1', '2', '3', '4', '5', '6', '7', '8', '9', 'a', 'b', 'c', 'd', 'e', 'f']

def toLowerHex (bytes : List UInt8) : String :=
  String.ofList (bytes.flatMap fun byte =>
    [hexDigits.getD (byte.toNat / 16) '0', hexDigits.getD (byte.toNat % 16) '0'])

/-- The hyphenated form of a UUID. -/
def Uuid.display (uuid : Uuid) : String :=
  let digits := ((List.range 32).map fun index =>
    hexDigits.getD ((uuid >>> (4 * (31 - index))).toNat % 16) '0')
  String.ofList (digits.take 8 ++ '-' :: ((digits.drop 8).take 4 ++ '-' ::
    ((digits.drop 12).take 4 ++ '-' :: ((digits.drop 16).take 4 ++ '-' :: digits.drop 20))))

example : Uuid.display 0x5ee4a915ef585dd495c6932e6411c918 =
    "5ee4a915-ef58-5dd4-95c6-932e6411c918" := by decide

theorem toLowerHex_injective : Function.Injective toLowerHex := by
  intro first second same
  have digits : ∀ byte other : UInt8,
      hexDigits.getD (byte.toNat / 16) '0' = hexDigits.getD (other.toNat / 16) '0' →
      hexDigits.getD (byte.toNat % 16) '0' = hexDigits.getD (other.toNat % 16) '0' →
      byte = other := by
    have read : ∀ high low : Fin 16,
        hexDigits.getD high.val '0' = hexDigits.getD low.val '0' → high = low := by decide
    intro byte other high low
    have bound := byte.toNat_lt
    have otherBound := other.toNat_lt
    have highs :=
      congrArg Fin.val (read ⟨byte.toNat / 16, by omega⟩ ⟨other.toNat / 16, by omega⟩ high)
    have lows :=
      congrArg Fin.val (read ⟨byte.toNat % 16, by omega⟩ ⟨other.toNat % 16, by omega⟩ low)
    simp only at highs lows
    exact UInt8.toNat_inj.mp (by omega)
  unfold toLowerHex at same
  replace same := String.ofList_injective same
  induction first generalizing second with
  | nil =>
      cases second with
      | nil => rfl
      | cons other rest => simp at same
  | cons byte rest inductionHypothesis =>
      cases second with
      | nil => simp at same
      | cons other others =>
          simp only [List.flatMap_cons, List.cons_append, List.nil_append, List.cons.injEq] at same
          obtain ⟨high, low, tails⟩ := same
          rw [digits byte other high low, inductionHypothesis tails]

/-- Lowercase hex SHA-256, as both the scanner and the uploader compute it. -/
def Crypto.hexDigest (crypto : Crypto) (bytes : List UInt8) : String :=
  toLowerHex (crypto.sha256 bytes)

theorem Crypto.hexDigest_injOn {crypto : Crypto} {involved : Set (List UInt8)}
    (collisionFree : Set.InjOn crypto.sha256 involved) : Set.InjOn crypto.hexDigest involved :=
  fun _ first _ second same => collisionFree first second (toLowerHex_injective same)

structure ContentHash where
  text : String
  deriving DecidableEq

namespace ContentHash

/-- The object key for content-addressed storage, `sha256/ab/cd/<full_hash>`.
Hash texts are ASCII, so byte slices and character slices agree. -/
def toObjectKey (hash : ContentHash) : String :=
  if 4 ≤ hash.text.utf8ByteSize then
    "sha256/" ++ String.ofList (hash.text.toList.take 2) ++ "/" ++
      String.ofList ((hash.text.toList.drop 2).take 2) ++ "/" ++ hash.text
  else "sha256/" ++ hash.text

example : toObjectKey ⟨"abcdef"⟩ = "sha256/ab/cd/abcdef" := by decide

/-- The part of the key in front of the full hash. -/
def keyPrefix (hash : ContentHash) : List Char :=
  if 4 ≤ hash.text.utf8ByteSize then
    "sha256/".toList ++ (hash.text.toList.take 2 ++ '/' ::
      ((hash.text.toList.drop 2).take 2 ++ ['/']))
  else "sha256/".toList

theorem toList_toObjectKey (hash : ContentHash) :
    hash.toObjectKey.toList = hash.keyPrefix ++ hash.text.toList := by
  have slash : ("/" : String).toList = ['/'] := by decide
  unfold toObjectKey keyPrefix
  split <;> simp [String.toList_append, slash]

theorem length_keyPrefix (hash : ContentHash) :
    hash.keyPrefix.length =
      if 4 ≤ hash.text.utf8ByteSize then 9 + min 4 hash.text.toList.length else 7 := by
  have scheme : ("sha256/" : String).toList.length = 7 := by decide
  unfold keyPrefix
  split
  · simp only [List.length_append, List.length_cons, List.length_take, List.length_drop,
      List.length_nil, scheme]
    omega
  · exact scheme

theorem length_toList_le_utf8ByteSize (text : String) :
    text.toList.length ≤ text.utf8ByteSize := by
  rw [← String.ofList_toList (s := text)]
  generalize text.toList = characters
  induction characters with
  | nil => simp
  | cons character rest inductionHypothesis =>
      rw [String.toList_ofList] at inductionHypothesis ⊢
      have split : String.ofList (character :: rest) =
          String.singleton character ++ String.ofList rest := by simp
      have positive := character.utf8Size_pos
      rw [split, String.utf8ByteSize_append, String.utf8ByteSize_singleton, List.length_cons]
      omega

theorem toObjectKey_injective : Function.Injective toObjectKey := by
  intro first second same
  have characters : first.keyPrefix ++ first.text.toList =
      second.keyPrefix ++ second.text.toList := by
    rw [← toList_toObjectKey, same, toList_toObjectKey]
  have lengths := congrArg List.length characters
  have firstBound := length_toList_le_utf8ByteSize first.text
  have secondBound := length_toList_le_utf8ByteSize second.text
  have nonempty : ∀ text : String, 4 ≤ text.utf8ByteSize → 0 < text.toList.length := by
    intro text long
    by_contra none
    have empty : text = "" := by
      have : text.toList = [] := List.length_eq_zero_iff.mp (by omega)
      simpa using this
    rw [empty] at long
    simp at long
  have equal : first.text.toList.length = second.text.toList.length := by
    simp only [List.length_append, length_keyPrefix] at lengths
    by_cases firstLong : 4 ≤ first.text.utf8ByteSize <;>
      by_cases secondLong : 4 ≤ second.text.utf8ByteSize
    · simp only [firstLong, secondLong, if_true] at lengths
      omega
    · have := nonempty first.text firstLong
      simp only [firstLong, secondLong, if_true, if_false] at lengths
      omega
    · have := nonempty second.text secondLong
      simp only [firstLong, secondLong, if_true, if_false] at lengths
      omega
    · simp only [firstLong, secondLong, if_false] at lengths
      omega
  have texts : first.text = second.text :=
    String.toList_inj.mp (List.append_inj_right' characters equal)
  cases first
  cases second
  exact congrArg ContentHash.mk texts

end ContentHash

end AntiEntropator
