import AntiEntropator.ChunkedReads
import AntiEntropator.Domain.Observation

/-!
# File hashes

The hash of a whole file and the hash of its first block (src/file_hash.rs).
How the bytes arrive is up to the file system: an open file is its content and
what the read calls on it return.
-/

namespace AntiEntropator

structure OpenFile where
  content : List UInt8
  reads : Reads String

/-- The state of a SHA-256 computation: the bytes it was fed. -/
structure Hasher where
  fed : List UInt8

namespace Hasher

def new : Hasher := ⟨[]⟩

def update (hasher : Hasher) (bytes : List UInt8) : Hasher := ⟨hasher.fed ++ bytes⟩

def finalize (crypto : Crypto) (hasher : Hasher) : List UInt8 := crypto.sha256 hasher.fed

@[simp]
theorem update_nil (hasher : Hasher) : hasher.update [] = hasher := by
  rw [update, List.append_nil]

@[simp]
theorem update_update (hasher : Hasher) (first second : List UInt8) :
    (hasher.update first).update second = hasher.update (first ++ second) := by
  rw [update, update, update, List.append_assoc]

end Hasher

def fullSha256 (crypto : Crypto) (opened : Except String OpenFile) : Except String String := do
  let file ← opened
  let hasher ← file.reads.readAll Hasher.update 8192 0 .new file.content
  return toLowerHex (hasher.finalize crypto)

/-- SHA-256 of what one read of at most `blockSize` bytes returns. -/
def quickSha256 (crypto : Crypto) (opened : Except String OpenFile) (blockSize : Nat) :
    Except String String := do
  let file ← opened
  let buffer ← file.reads.readOnce blockSize file.content
  return toLowerHex ((Hasher.new.update buffer).finalize crypto)

/-- Whatever the chunks, a full hash is that of the whole content. -/
theorem fullSha256_eq (crypto : Crypto) (file : OpenFile) (succeed : file.reads.Succeed) :
    fullSha256 crypto (.ok file) = .ok (crypto.hexDigest file.content) := by
  have streamed := Reads.readAll_eq Hasher.update_nil Hasher.update_update file.reads succeed
    (by decide : 0 < 8192) 0 .new file.content
  calc fullSha256 crypto (.ok file)
      = (file.reads.readAll Hasher.update 8192 0 .new file.content).map
          fun hasher => toLowerHex (hasher.finalize crypto) := rfl
    _ = .ok (crypto.hexDigest file.content) := by rw [streamed]; rfl

theorem eq_hexDigest_of_fullSha256 {crypto : Crypto} {file : OpenFile} {hash : String}
    (hashed : fullSha256 crypto (.ok file) = .ok hash) : hash = crypto.hexDigest file.content := by
  have unfolded : fullSha256 crypto (.ok file) =
      (file.reads.readAll Hasher.update 8192 0 .new file.content).map
        fun hasher => toLowerHex (hasher.finalize crypto) := rfl
  cases streamed : file.reads.readAll Hasher.update 8192 0 .new file.content with
  | error error =>
      rw [unfolded, streamed] at hashed
      cases hashed
  | ok hasher =>
      have whole := Reads.readAll_eq_of_ok Hasher.update_nil Hasher.update_update file.reads
        (by decide : 0 < 8192) 0 streamed
      rw [unfolded, streamed, whole] at hashed
      exact (Except.ok.inj hashed).symm

theorem quickSha256_eq (crypto : Crypto) (file : OpenFile) (blockSize : Nat) :
    quickSha256 crypto (.ok file) blockSize =
      (file.reads.readOnce blockSize file.content).map crypto.hexDigest := rfl

/-- The quick hash is that of the first block exactly if the one read is not short. -/
theorem quickSha256_eq_iff {crypto : Crypto} (file : OpenFile) {blockSize : Nat}
    (collisionFree : ∀ buffer, file.reads.readOnce blockSize file.content = .ok buffer →
      crypto.sha256 buffer = crypto.sha256 (file.content.take blockSize) →
        buffer = file.content.take blockSize) :
    quickSha256 crypto (.ok file) blockSize =
        .ok (crypto.hexDigest (file.content.take blockSize)) ↔
      file.reads.outcome 0 blockSize file.content.length =
        .ok (min blockSize file.content.length) := by
  rw [quickSha256_eq, ← Reads.readOnce_eq_iff]
  constructor
  · intro same
    cases read : file.reads.readOnce blockSize file.content with
    | error error =>
        rw [read] at same
        cases same
    | ok buffer =>
        rw [read] at same
        have digests := toLowerHex_injective (Except.ok.inj same)
        exact congrArg Except.ok (collisionFree buffer read digests)
  · intro read
    rw [read]
    rfl

/-- The hashes do not depend on how the reads are cut exactly if the read of the
first block is not short. -/
theorem hashes_do_not_depend_on_chunks_iff (crypto : Crypto) (content : List UInt8)
    (blockSize : Nat) (quickReads fullReads : Reads String) (succeed : fullReads.Succeed)
    (collisionFree : ∀ buffer, quickReads.readOnce blockSize content = .ok buffer →
      crypto.sha256 buffer = crypto.sha256 (content.take blockSize) →
        buffer = content.take blockSize) :
    (quickSha256 crypto (.ok ⟨content, quickReads⟩) blockSize =
        .ok (crypto.hexDigest (content.take blockSize)) ∧
      fullSha256 crypto (.ok ⟨content, fullReads⟩) = .ok (crypto.hexDigest content) ∧
      (content.length ≤ blockSize → quickSha256 crypto (.ok ⟨content, quickReads⟩) blockSize =
        fullSha256 crypto (.ok ⟨content, fullReads⟩))) ↔
    quickReads.outcome 0 blockSize content.length = .ok (min blockSize content.length) := by
  have full := fullSha256_eq crypto ⟨content, fullReads⟩ succeed
  have quick := quickSha256_eq_iff ⟨content, quickReads⟩ collisionFree
  rw [← quick, full]
  constructor
  · exact fun exact => exact.1
  · intro exact
    refine ⟨exact, rfl, fun short => ?_⟩
    rw [exact, List.take_of_length_le short]

def fiveAtATime : Reads String where
  outcome _ requested remaining := .ok (min 5 (min requested remaining))
  bounded := by
    intro call requested remaining count read
    have := Except.ok.inj read
    omega
  positive := by
    intro call requested remaining count asked more read
    have := Except.ok.inj read
    omega

def greetingCrypto : Crypto where
  sha256 bytes :=
    if bytes = utf8Bytes "hello" then
      [0x2c, 0xf2, 0x4d, 0xba, 0x5f, 0xb0, 0xa3, 0x0e, 0x26, 0xe8, 0x3b, 0x2a, 0xc5, 0xb9, 0xe2, 0x9e,
        0x1b, 0x16, 0x1e, 0x5c, 0x1f, 0xa7, 0x42, 0x5e, 0x73, 0x04, 0x33, 0x62, 0x93, 0x8b, 0x98, 0x24]
    else sampleCrypto.sha256 bytes
  newV5 := sampleCrypto.newV5

theorem hashes_do_not_depend_on_chunks_iff_short :
    ¬ (quickSha256 greetingCrypto (.ok ⟨utf8Bytes "hello world", fiveAtATime⟩) 65536 =
        .ok (greetingCrypto.hexDigest ((utf8Bytes "hello world").take 65536)) ∧
      fullSha256 greetingCrypto (.ok ⟨utf8Bytes "hello world", fiveAtATime⟩) =
        .ok (greetingCrypto.hexDigest (utf8Bytes "hello world")) ∧
      ((utf8Bytes "hello world").length ≤ 65536 →
        quickSha256 greetingCrypto (.ok ⟨utf8Bytes "hello world", fiveAtATime⟩) 65536 =
          fullSha256 greetingCrypto (.ok ⟨utf8Bytes "hello world", fiveAtATime⟩))) := by
  rw [hashes_do_not_depend_on_chunks_iff greetingCrypto (utf8Bytes "hello world") 65536
    fiveAtATime fiveAtATime (fun _ _ _ => ⟨_, rfl⟩)]
  · intro whole
    exact absurd (Except.ok.inj whole) (by decide)
  · intro buffer read same
    rw [← Except.ok.inj read] at same ⊢
    exact absurd same (by decide)

/-- Five of eleven bytes were read, and the hash of the block is that of the five. -/
theorem quick_hash_depends_on_chunks :
    quickSha256 greetingCrypto (.ok ⟨utf8Bytes "hello world", fiveAtATime⟩) (64 * 1024) =
        .ok "2cf24dba5fb0a30e26e83b2ac5b9e29e1b161e5c1fa7425e73043362938b9824" ∧
      ∃ content : List UInt8, ∃ blockSize ≥ 1, ∃ reads : Reads String, reads.Succeed ∧
        quickSha256 greetingCrypto (.ok ⟨content, reads⟩) blockSize ≠
          .ok (greetingCrypto.hexDigest (content.take blockSize)) := by
  have five : quickSha256 greetingCrypto (.ok ⟨utf8Bytes "hello world", fiveAtATime⟩)
      (64 * 1024) = .ok "2cf24dba5fb0a30e26e83b2ac5b9e29e1b161e5c1fa7425e73043362938b9824" :=
    congrArg Except.ok (by decide)
  refine ⟨five, utf8Bytes "hello world", 64 * 1024, by decide, fiveAtATime,
    fun _ _ _ => ⟨_, rfl⟩, ?_⟩
  rw [five]
  intro same
  exact absurd (Except.ok.inj same) (by decide)

end AntiEntropator
