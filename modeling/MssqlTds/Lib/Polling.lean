import Mathlib.Data.Stream.Defs

/-!
# Polled byte streams

A polled stream answers each read or write at once: not now, a failure, or as many bytes as it
likes, at least one.  The answers are an infinite sequence that the stream consumes, one for every
poll, so a statement about all sequences is one about every way to cut the bytes and to suspend in
between.
-/

namespace Polling

inductive Polled (α : Type) where
  | ready (a : α)
  | pending
  deriving DecidableEq, Repr

/-- What a stream does when it is polled. -/
inductive Answer where
  | pending
  /-- It handles at most `n + 1` bytes. -/
  | upTo (n : ℕ)
  | failed (message : String)
  deriving DecidableEq, Repr

/-- The stream suspends or makes progress, but never fails. -/
def NeverFails (answers : Stream' Answer) : Prop := ∀ k e, answers.get k ≠ .failed e

/-- The bytes that can be read from a stream before it ends. -/
structure Source where
  bytes : List UInt8
  answers : Stream' Answer

/-- Read into a buffer of `cap` bytes. -/
def Source.pollRead (s : Source) (cap : ℕ) : Polled (Except String (List UInt8)) × Source :=
  match s.answers.head with
  | .pending => (.pending, ⟨s.bytes, s.answers.tail⟩)
  | .failed e => (.ready (.error e), ⟨s.bytes, s.answers.tail⟩)
  | .upTo n =>
    let k := min (n + 1) cap
    (.ready (.ok (s.bytes.take k)), ⟨s.bytes.drop k, s.answers.tail⟩)

/-- The bytes a stream has accepted. -/
structure Sink where
  written : List UInt8
  answers : Stream' Answer

/-- Offer bytes to the stream, which says how many of them it took. -/
def Sink.pollWrite (s : Sink) (bytes : List UInt8) : Polled (Except String ℕ) × Sink :=
  match s.answers.head with
  | .pending => (.pending, ⟨s.written, s.answers.tail⟩)
  | .failed e => (.ready (.error e), ⟨s.written, s.answers.tail⟩)
  | .upTo n =>
    let k := min (n + 1) bytes.length
    (.ready (.ok k), ⟨s.written ++ bytes.take k, s.answers.tail⟩)

variable {answers : Stream' Answer}

theorem NeverFails.tail (h : NeverFails answers) :
    NeverFails answers.tail :=
  fun k e => h (k + 1) e

/-- A stream that does not fail suspends or makes progress. -/
theorem NeverFails.head_cases (h : NeverFails answers) :
    answers.head = .pending ∨ ∃ n, answers.head = .upTo n := by
  cases hhead : answers.head with
  | pending => exact .inl rfl
  | upTo n => exact .inr ⟨n, rfl⟩
  | failed e => exact absurd hhead (h 0 e)

section Source

variable {s : Source} {cap n : ℕ}

theorem Source.pollRead_pending (h : s.answers.head = .pending) :
    s.pollRead cap = (.pending, ⟨s.bytes, s.answers.tail⟩) := by
  rw [pollRead, h]

theorem Source.pollRead_upTo (h : s.answers.head = .upTo n) :
    s.pollRead cap = (.ready (.ok (s.bytes.take (min (n + 1) cap))),
      ⟨s.bytes.drop (min (n + 1) cap), s.answers.tail⟩) := by
  rw [pollRead, h]

end Source

section Sink

variable {s : Sink} {bytes : List UInt8} {n : ℕ}

theorem Sink.pollWrite_pending (h : s.answers.head = .pending) :
    s.pollWrite bytes = (.pending, ⟨s.written, s.answers.tail⟩) := by
  rw [pollWrite, h]

theorem Sink.pollWrite_upTo (h : s.answers.head = .upTo n) :
    s.pollWrite bytes = (.ready (.ok (min (n + 1) bytes.length)),
      ⟨s.written ++ bytes.take (min (n + 1) bytes.length), s.answers.tail⟩) := by
  rw [pollWrite, h]

end Sink

end Polling
