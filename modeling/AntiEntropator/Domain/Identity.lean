import AntiEntropator.Domain.FileInfo
import AntiEntropator.LengthPrefixed

/-!
# What a row identifier identifies

The name hashed into a row identifier is the length-prefixed concatenation of
source, path, content hash and status.  Two rows share it exactly when they
agree on all four, so they share an identifier only through a UUIDv5 collision.
-/

namespace AntiEntropator

open LengthPrefixed

theorem toBeBytes_fixedWidth : FixedWidth toBeBytes (2 ^ 64) where
  nonempty length := by simp [toBeBytes]
  width length other := by simp [toBeBytes]
  injective length short other otherShort same := by
    have digit : ∀ index < 8, length / 256 ^ (7 - index) % 256 =
        other / 256 ^ (7 - index) % 256 := by
      intro index inside
      have code := List.map_inj_left.mp same index (List.mem_range.mpr inside)
      simpa using congrArg UInt8.toNat code
    -- the leading digits agree, whatever their number
    have leading : ∀ count ≤ 8, length / 256 ^ (8 - count) = other / 256 ^ (8 - count) := by
      intro count
      induction count with
      | zero =>
          intro _
          rw [Nat.div_eq_of_lt (by simpa using short), Nat.div_eq_of_lt (by simpa using otherShort)]
      | succ count inductionHypothesis =>
          intro inside
          have next := digit count (by omega)
          have before := inductionHypothesis (by omega)
          have power : 256 ^ (8 - count) = 256 ^ (7 - count) * 256 := by
            rw [← Nat.pow_succ]
            congr 1
            omega
          rw [power, ← Nat.div_div_eq_div_mul, ← Nat.div_div_eq_div_mul] at before
          have index : 8 - (count + 1) = 7 - count := by omega
          rw [index]
          omega
    simpa using leading 8 (by omega)

/-- What distinguishes one row identifier from another. -/
structure RowIdentity where
  sourceId : String
  relativePath : String
  contentHash : Option String
  status : ObservationStatus
  deriving DecidableEq

namespace RowIdentity

/-- The byte string `observation_id` feeds to UUIDv5. -/
def name (identity : RowIdentity) : List UInt8 :=
  observationName identity.sourceId identity.relativePath identity.contentHash identity.status

def id (crypto : Crypto) (identity : RowIdentity) : Uuid :=
  observationId crypto identity.sourceId identity.relativePath identity.contentHash
    identity.status

/-- Every text is shorter than 2^64 bytes. -/
structure Sized (identity : RowIdentity) : Prop where
  sourceId : identity.sourceId.utf8ByteSize < 2 ^ 64
  relativePath : identity.relativePath.utf8ByteSize < 2 ^ 64
  contentHash : (identity.contentHash.getD "").utf8ByteSize < 2 ^ 64

instance (identity : RowIdentity) : Decidable identity.Sized :=
  decidable_of_iff (identity.sourceId.utf8ByteSize < 2 ^ 64 ∧
      identity.relativePath.utf8ByteSize < 2 ^ 64 ∧
      (identity.contentHash.getD "").utf8ByteSize < 2 ^ 64)
    ⟨fun sized => ⟨sized.1, sized.2.1, sized.2.2⟩,
      fun sized => ⟨sized.sourceId, sized.relativePath, sized.contentHash⟩⟩

def texts (identity : RowIdentity) : List String :=
  [identity.sourceId, identity.relativePath, identity.contentHash.getD "", identity.status.asStr]

theorem name_eq_frames (identity : RowIdentity) :
    identity.name = frames toBeBytes (identity.texts.map utf8Bytes) := by
  simp only [name, observationName, frames, List.flatMap_map]
  rfl

theorem Sized.texts {identity : RowIdentity} (sized : identity.Sized) :
    ∀ part ∈ identity.texts.map utf8Bytes, part.length < 2 ^ 64 := by
  obtain ⟨source, path, hash⟩ := sized
  have status : identity.status.asStr.utf8ByteSize < 2 ^ 64 := by
    cases identity.status <;> decide
  simpa [RowIdentity.texts] using ⟨source, path, hash, status⟩

theorem asStr_injective : Function.Injective ObservationStatus.asStr := by
  intro first second same
  cases first <;> cases second <;> first | rfl | exact absurd same (by decide)

theorem name_eq_iff {first second : RowIdentity} (firstSized : first.Sized)
    (secondSized : second.Sized) : first.name = second.name ↔
      first.sourceId = second.sourceId ∧ first.relativePath = second.relativePath ∧
        first.status = second.status ∧
          first.contentHash.getD "" = second.contentHash.getD "" := by
  constructor
  · intro same
    rw [name_eq_frames, name_eq_frames] at same
    have parts := toBeBytes_fixedWidth.frames_injective firstSized.texts secondSized.texts same
    have texts := List.map_injective_iff.mpr utf8Bytes_injective parts
    simp only [RowIdentity.texts, List.cons.injEq, and_true] at texts
    obtain ⟨source, path, hash, status⟩ := texts
    exact ⟨source, path, asStr_injective status, hash⟩
  · rintro ⟨source, path, status, hash⟩
    simp only [name, observationName, source, path, status, hash]

/-- Apart from the empty text, a content hash is what the name holds of it. -/
theorem eq_of_name_eq {first second : RowIdentity} (firstSized : first.Sized)
    (secondSized : second.Sized) (firstHash : first.contentHash ≠ some "")
    (secondHash : second.contentHash ≠ some "") (same : first.name = second.name) :
    first = second := by
  obtain ⟨source, path, status, hash⟩ := (name_eq_iff firstSized secondSized).mp same
  obtain ⟨firstSource, firstPath, firstContent, firstStatus⟩ := first
  obtain ⟨secondSource, secondPath, secondContent, secondStatus⟩ := second
  have contents : firstContent = secondContent := by
    cases firstContent <;> cases secondContent <;> simp_all
  simp_all

end RowIdentity

/-- The identity encoding is injective, an identifier is shared only through a
UUIDv5 collision, and neither the run nor a timestamp enters it. -/
theorem observation_identity_is_injective (crypto : Crypto) {first second : RowIdentity}
    (firstSized : first.Sized) (secondSized : second.Sized) :
    (first.name = second.name ↔
      first.sourceId = second.sourceId ∧ first.relativePath = second.relativePath ∧
        first.status = second.status ∧
          first.contentHash.getD "" = second.contentHash.getD "") ∧
    (first.contentHash ≠ some "" → second.contentHash ≠ some "" →
      first.id crypto = second.id crypto → first = second ∨
        first.name ≠ second.name ∧ crypto.newV5 observationNamespace first.name =
          crypto.newV5 observationNamespace second.name) ∧
    ∀ (info : FileInfo) (runId : Uuid) (observedAt : DateTime),
      info.contentHash.map ContentHash.text = first.contentHash →
        (info.withObservation crypto first.sourceId first.relativePath runId first.status
          observedAt).id = first.id crypto := by
  refine ⟨RowIdentity.name_eq_iff firstSized secondSized, ?_, ?_⟩
  · intro firstHash secondHash shared
    by_cases same : first.name = second.name
    · exact .inl (RowIdentity.eq_of_name_eq firstSized secondSized firstHash secondHash same)
    · exact .inr ⟨same, shared⟩
  · intro info runId observedAt hash
    simp only [FileInfo.withObservation, RowIdentity.id, hash]

/-- Moving a byte across the boundary of two parts changes the name. -/
theorem observation_identity_is_injective_boundary :
    RowIdentity.name ⟨"ab", "c", some "h", .present⟩ ≠
      RowIdentity.name ⟨"a", "bc", some "h", .present⟩ := by
  intro same
  have sized : RowIdentity.Sized ⟨"ab", "c", some "h", .present⟩ := by decide
  have shifted : RowIdentity.Sized ⟨"a", "bc", some "h", .present⟩ := by decide
  have parts := (observation_identity_is_injective sampleCrypto sized shifted).1.mp same
  exact absurd parts.1 (by decide)

end AntiEntropator
