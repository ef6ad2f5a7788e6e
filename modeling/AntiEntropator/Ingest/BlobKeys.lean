import AntiEntropator.Domain.Slices
import AntiEntropator.Ingest.Journal.Storage

/-!
# Keys of blobs

Blobs are stored under the hex text of their digest, journals under a prefix of
their own.
-/

namespace AntiEntropator.Ingest

theorem not_journalPrefix_toObjectKey (hash : ContentHash) :
    ¬ journalPrefix.toList <+: hash.toObjectKey.toList := by
  rintro ⟨rest, whole⟩
  have blob : hash.toObjectKey.toList.head? = some 's' := by
    rw [ContentHash.toList_toObjectKey]
    unfold ContentHash.keyPrefix
    split <;> rfl
  rw [← whole] at blob
  exact absurd (Option.some.inj blob) (by decide)

theorem toObjectKey_ne_journalKey (hash : ContentHash) (runId : Uuid) :
    hash.toObjectKey ≠ journalKey runId := by
  intro same
  apply not_journalPrefix_toObjectKey hash
  rw [same, journalKey, String.toList_append, String.toList_append, List.append_assoc]
  exact List.prefix_append _ _

/-- The key of a digest of two or more bytes is built without a panic from its hex text,
determines the bytes, and is no journal's key. -/
theorem blob_keys_are_distinct {bytes : List UInt8} (long : 2 ≤ bytes.length) :
    ∃ key, ContentHash.toObjectKey? ⟨toLowerHex bytes⟩ = some key ∧
      key = "sha256/" ++ String.ofList ((toLowerHex bytes).toList.take 2) ++ "/" ++
        String.ofList (((toLowerHex bytes).toList.drop 2).take 2) ++ "/" ++ toLowerHex bytes ∧
      (∀ others : List UInt8, 2 ≤ others.length →
        ContentHash.toObjectKey? ⟨toLowerHex others⟩ = some key → others = bytes) ∧
      ∀ runId, key ≠ journalKey runId := by
  refine ⟨_, toObjectKey?_toLowerHex bytes, ?_, ?_, toObjectKey_ne_journalKey _⟩
  · have size : 4 ≤ (toLowerHex bytes).utf8ByteSize := by
      rw [← length_utf8Bytes, utf8Bytes_of_ascii (isAscii_toLowerHex bytes), List.length_map,
        length_toLowerHex]
      omega
    exact if_pos size
  · intro others _ same
    rw [toObjectKey?_toLowerHex] at same
    have hashes := ContentHash.toObjectKey_injective (Option.some.inj same)
    exact toLowerHex_injective (congrArg ContentHash.text hashes)

theorem blob_keys_are_distinct_short :
    ∃ key, ContentHash.toObjectKey? ⟨toLowerHex [0xAB, 0xCD]⟩ = some key ∧
      ∀ runId, key ≠ journalKey runId := by
  have long : 2 ≤ [(0xAB : UInt8), 0xCD].length := Nat.le_refl 2
  obtain ⟨key, built, -, -, journals⟩ := blob_keys_are_distinct long
  exact ⟨key, built, journals⟩

end AntiEntropator.Ingest
