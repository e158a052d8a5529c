import Mathlib.Data.List.Basic

/-!
# Three-symbol packets in a stream

A decoder looks at three symbols at a time.  If they are a packet it goes on after them,
otherwise it skips one symbol.  At the end of the stream at most two symbols are left over,
and decoding can go on from them when more of the stream arrives.
-/

namespace Ece391.Library

universe u

/-- Three successive symbols of a stream. -/
structure Triple (Symbol : Type u) where
  first : Symbol
  second : Symbol
  third : Symbol
  deriving DecidableEq, Repr

variable {Symbol : Type u}

/-- The packets of a stream, and the symbols left over at its end. -/
def packets (accept : Triple Symbol → Bool) : List Symbol → List (Triple Symbol) × List Symbol
  | first :: second :: third :: rest =>
      if accept ⟨first, second, third⟩ then
        let (found, left) := packets accept rest
        (⟨first, second, third⟩ :: found, left)
      else packets accept (second :: third :: rest)
  | short => ([], short)
  termination_by stream => stream.length

section

variable {accept : Triple Symbol → Bool} {first second third : Symbol} {stream rest : List Symbol}

theorem packets_accepted (accepted : accept ⟨first, second, third⟩) :
    packets accept (first :: second :: third :: rest) =
      (⟨first, second, third⟩ :: (packets accept rest).1, (packets accept rest).2) := by
  rw [packets, if_pos accepted]

theorem packets_skipped (rejected : ¬accept ⟨first, second, third⟩) :
    packets accept (first :: second :: third :: rest) =
      packets accept (second :: third :: rest) := by
  rw [packets, if_neg rejected]

theorem packets_short (short : stream.length ≤ 2) : packets accept stream = ([], stream) := by
  match stream with
  | [] | [_] | [_, _] => rw [packets]; simp
  | _ :: _ :: _ :: _ => simp at short

/-- A property of streams that holds of the short ones, and of a longer one when it holds
where the decoder goes on. -/
theorem packets_induction (accept : Triple Symbol → Bool) (holds : List Symbol → Prop)
    (short : ∀ stream : List Symbol, stream.length ≤ 2 → holds stream)
    (accepted : ∀ first second third rest, accept ⟨first, second, third⟩ → holds rest →
      holds (first :: second :: third :: rest))
    (skipped : ∀ first second third rest, ¬accept ⟨first, second, third⟩ →
      holds (second :: third :: rest) → holds (first :: second :: third :: rest))
    (stream : List Symbol) : holds stream := by
  induction stream using packets.induct accept with
  | case1 first second third rest accepts _ _ _ ih => exact accepted _ _ _ _ accepts ih
  | case2 first second third rest rejects ih => exact skipped _ _ _ _ rejects ih
  | case3 stream other =>
      apply short
      match stream with
      | [] | [_] | [_, _] => simp
      | first :: second :: third :: rest => exact absurd rfl (other first second third rest)

/-- At most two symbols are left over. -/
theorem packets_left_length (accept : Triple Symbol → Bool) (stream : List Symbol) :
    (packets accept stream).2.length ≤ 2 := by
  induction stream using packets_induction accept with
  | short stream short => rw [packets_short short]; exact short
  | accepted first second third rest accepts ih => rw [packets_accepted accepts]; exact ih
  | skipped first second third rest rejects ih => rw [packets_skipped rejects]; exact ih

/-- Decoding can stop anywhere: it goes on from what was left over. -/
theorem packets_append (accept : Triple Symbol → Bool) (stream more : List Symbol) :
    packets accept (stream ++ more) =
      ((packets accept stream).1 ++ (packets accept ((packets accept stream).2 ++ more)).1,
        (packets accept ((packets accept stream).2 ++ more)).2) := by
  induction stream using packets_induction accept with
  | short stream short => rw [packets_short short]; simp
  | accepted first second third rest accepts ih =>
      rw [packets_accepted accepts, List.cons_append, List.cons_append, List.cons_append,
        packets_accepted accepts, ih]
      simp
  | skipped first second third rest rejects ih =>
      rw [packets_skipped rejects, List.cons_append, List.cons_append, List.cons_append,
        packets_skipped rejects]
      simpa using ih

end

end Ece391.Library
