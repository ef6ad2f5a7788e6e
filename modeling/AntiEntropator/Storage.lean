import AntiEntropator.Domain.Text
import AntiEntropator.WriteOnce.Basic

/-!
# Source files and stored objects

A source file may be rewritten at any time, so it is read in chunks, each from
the bytes the path holds at that moment.  Blobs live in a write-once object
store: a conditional close creates an object or finds the key taken.
-/

namespace AntiEntropator

/-- A file's bytes.  File offsets are signed 64-bit integers. -/
structure Contents where
  bytes : List UInt8
  length_lt : bytes.length < 2 ^ 63
  deriving DecidableEq

theorem helloWorld_length_lt : (utf8Bytes "hello world").length < 2 ^ 63 := by decide

theorem helloThere_length_lt : (utf8Bytes "hello there").length < 2 ^ 63 := by decide

abbrev SourceFiles := PathBuf → Option Contents

/-- One `read` at `offset` that returns at most `n` bytes; empty at the end. -/
def Contents.chunk (contents : Contents) (offset n : Nat) : List UInt8 :=
  (contents.bytes.drop offset).take n

theorem Contents.chunk_eq_nil {contents : Contents} {offset n : Nat} (positive : 0 < n)
    (ended : contents.chunk offset n = []) : contents.bytes.length ≤ offset := by
  unfold Contents.chunk at ended
  rw [List.take_eq_nil_iff] at ended
  rcases ended with zero | done
  · omega
  · simpa using done

theorem Contents.prefix_append_chunk {contents : Contents} {read : List UInt8} (n : Nat)
    (start : read <+: contents.bytes) :
    read ++ contents.chunk read.length n <+: contents.bytes := by
  obtain ⟨rest, split⟩ := start
  refine ⟨rest.drop n, ?_⟩
  simp [Contents.chunk, ← split]

theorem Contents.eq_of_chunk_eq_nil {contents : Contents} {read : List UInt8} {n : Nat}
    (positive : 0 < n) (start : read <+: contents.bytes)
    (ended : contents.chunk read.length n = []) : read = contents.bytes :=
  start.eq_of_length_le (Contents.chunk_eq_nil positive ended)

/-- A stored object with its user metadata, if the service keeps any. -/
structure Object where
  bytes : List UInt8
  userMetadata : Option (List (String × String))
  deriving DecidableEq

abbrev ObjectStore := WriteOnce String Object

end AntiEntropator
