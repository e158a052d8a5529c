import Ece391.ModeX.Board
import Ece391.ModeX.StatusBar

/-!
# The arrow keys

`keyboard_thread` reads the non-blocking standard input one `getc` at a time.  An arrow key
arrives as the three bytes ESC, `[` and a letter, and the thread remembers in `state` how many
of them it has seen.  A `getc` that finds nothing to read returns `EOF`, which goes through
the same comparisons as a byte.
-/

namespace Ece391.ModeX

/-! ## The thread -/

def backquote : Int := 96

/-- The letters `UP` to `LEFT`. -/
def keyUp : Int := 65

def keyDown : Int := 66

def keyRight : Int := 67

def keyLeft : Int := 68

/-- `(char) getc(stdin)`, where `none` is `EOF`. -/
def getcChar : Option UInt8 → Int
  | some byte => charValue byte
  | none => -1

/-- The `switch` over the key. -/
def switchKey (key : Int) : Option Direction :=
  if key = keyUp then some .up
  else if key = keyDown then some .down
  else if key = keyRight then some .right
  else if key = keyLeft then some .left
  else none

/-- `keyboard_thread` from a state on, over the results of `getc` until `winner` is set: the
values it stores in `next_dir`, and whether it sets `quit_flag`. -/
def keyboardThread (state : Nat) : List (Option UInt8) → List Direction × Bool
  | [] => ([], false)
  | result :: results =>
      let key := getcChar result
      if key = backquote then ([], true)
      else if key = 27 then keyboardThread 1 results
      else if key = 91 ∧ state = 1 then keyboardThread 2 results
      else
        let stored := if keyUp ≤ key ∧ key ≤ keyLeft ∧ state = 2 then switchKey key else none
        let rest := keyboardThread 0 results
        (stored.toList ++ rest.1, rest.2)

/-! ## What was typed -/

/-- The bytes among the results of `getc`. -/
def typed (results : List (Option UInt8)) : List UInt8 :=
  results.filterMap id

/-- The direction of the last byte of an arrow key. -/
def arrowLetter (byte : UInt8) : Option Direction :=
  if byte = 0x41 then some .up
  else if byte = 0x42 then some .down
  else if byte = 0x43 then some .right
  else if byte = 0x44 then some .left
  else none

/-- The arrow key that some bytes begin with. -/
def arrowKey : List UInt8 → Option Direction
  | escape :: bracket :: letter :: _ =>
      if escape = 0x1B ∧ bracket = 0x5B then arrowLetter letter else none
  | _ => none

/-- The arrow keys among some bytes, in order. -/
def arrowKeys (bytes : List UInt8) : List Direction :=
  bytes.tails.filterMap arrowKey

/-- The bytes before the backquote. -/
def beforeQuit (bytes : List UInt8) : List UInt8 :=
  bytes.takeWhile (· ≠ 0x60)

/-- The results begin with an arrow key, with empty polls between its bytes. -/
def BeginsSplit (results : List (Option UInt8)) : Prop :=
  ∃ first second letter after, 0 < first + second ∧ (arrowLetter letter).isSome ∧
    results = some 0x1B :: (List.replicate first none ++
      some 0x5B :: (List.replicate second none ++ some letter :: after))

/-- Before the backquote, an empty poll lies between the bytes of an arrow key. -/
def SplitsArrow (results : List (Option UInt8)) : Prop :=
  ∃ before after, 0x60 ∉ typed before ∧ BeginsSplit after ∧ results = before ++ after

/-! ## The state of the thread -/

section

variable {byte : UInt8} {bytes : List UInt8} {results : List (Option UInt8)}

theorem arrowKeys_cons (byte : UInt8) (bytes : List UInt8) :
    arrowKeys (byte :: bytes) = (arrowKey (byte :: bytes)).toList ++ arrowKeys bytes := by
  rw [arrowKeys, List.tails, List.filterMap_cons, arrowKeys]
  cases arrowKey (byte :: bytes) <;> rfl

theorem charValue_eq_iff (char : UInt8) (ascii : char.toNat < 128) :
    charValue byte = char.toNat ↔ byte = char := by
  have small := byte.toNat_lt
  have half : byte < 128 ↔ byte.toNat < 128 := UInt8.lt_iff_toNat_lt
  rw [charValue, ← UInt8.toNat_inj]
  split
  next low =>
    have below := half.mp low
    omega
  next high =>
    have above : ¬byte.toNat < 128 := fun below => high (half.mpr below)
    omega

/-- The letters are compared as signed characters. -/
theorem switchKey_charValue (byte : UInt8) :
    (if keyUp ≤ charValue byte ∧ charValue byte ≤ keyLeft then switchKey (charValue byte)
      else none) = arrowLetter byte := by
  have up : charValue byte = keyUp ↔ byte = 0x41 := charValue_eq_iff 0x41 (by decide)
  have down : charValue byte = keyDown ↔ byte = 0x42 := charValue_eq_iff 0x42 (by decide)
  have right : charValue byte = keyRight ↔ byte = 0x43 := charValue_eq_iff 0x43 (by decide)
  have left : charValue byte = keyLeft ↔ byte = 0x44 := charValue_eq_iff 0x44 (by decide)
  split
  next => simp only [switchKey, arrowLetter, up, down, right, left]
  next outside =>
    have other (letter : UInt8)
        (inside : keyUp ≤ charValue letter ∧ charValue letter ≤ keyLeft) : byte ≠ letter :=
      fun same => outside (same ▸ inside)
    simp only [arrowLetter, other 0x41 (by decide), other 0x42 (by decide),
      other 0x43 (by decide), other 0x44 (by decide), if_false]

/-- The step of `keyboard_thread` for a byte. -/
theorem keyboardThread_some (state : Nat) (byte : UInt8) (results : List (Option UInt8)) :
    keyboardThread state (some byte :: results) =
      if byte = 0x60 then ([], true)
      else if byte = 0x1B then keyboardThread 1 results
      else if byte = 0x5B ∧ state = 1 then keyboardThread 2 results
      else
        ((if state = 2 then arrowLetter byte else none).toList ++ (keyboardThread 0 results).1,
          (keyboardThread 0 results).2) := by
  have quit : charValue byte = backquote ↔ byte = 0x60 := charValue_eq_iff 0x60 (by decide)
  have escape : charValue byte = 27 ↔ byte = 0x1B := charValue_eq_iff 0x1B (by decide)
  have bracket : charValue byte = 91 ↔ byte = 0x5B := charValue_eq_iff 0x5B (by decide)
  rw [keyboardThread]
  simp only [getcChar, quit, escape, bracket, ← switchKey_charValue, ← and_assoc]
  by_cases second : state = 2
  · simp only [second, and_true, if_true]
  · simp only [second, and_false, if_false]

theorem arrowKeys_of_ne (other : byte ≠ 0x1B) : arrowKeys (byte :: bytes) = arrowKeys bytes := by
  rw [arrowKeys_cons]
  have none : arrowKey (byte :: bytes) = none := by
    rw [arrowKey.eq_def]
    split
    next escape bracket letter rest same =>
      obtain ⟨rfl, rfl⟩ := List.cons.inj same
      exact if_neg fun arrow => other arrow.1
    next => rfl
  rw [none]
  rfl

theorem arrowKeys_escape_of_ne (other : byte ≠ 0x5B) :
    arrowKeys (0x1B :: byte :: bytes) = arrowKeys (byte :: bytes) := by
  rw [arrowKeys_cons]
  have none : arrowKey (0x1B :: byte :: bytes) = none := by
    cases bytes with
    | nil => rfl
    | cons letter rest => exact if_neg fun arrow => other arrow.2
  rw [none]
  rfl

theorem arrowKeys_bracket :
    arrowKeys (0x1B :: 0x5B :: byte :: bytes) =
      (arrowLetter byte).toList ++ arrowKeys (byte :: bytes) := by
  rw [arrowKeys_cons, arrowKeys_of_ne (by decide)]
  rfl

/-- The bytes that a state stands for. -/
def seenBytes (state : Nat) : List UInt8 :=
  if state = 1 then [0x1B] else if state = 2 then [0x1B, 0x5B] else []

theorem beforeQuit_quit : beforeQuit (0x60 :: bytes) = [] :=
  List.takeWhile_cons_of_neg (by decide)

theorem beforeQuit_cons (quit : byte ≠ 0x60) :
    beforeQuit (byte :: bytes) = byte :: beforeQuit bytes :=
  List.takeWhile_cons_of_pos (decide_eq_true quit)

theorem arrowKeys_seenBytes {state : Nat} (known : state ≤ 2) :
    arrowKeys (seenBytes state) = [] := by
  obtain rfl | rfl | rfl : state = 0 ∨ state = 1 ∨ state = 2 := by omega
  · rfl
  · rfl
  · rfl

/-- An ESC begins an arrow key whatever came before. -/
theorem arrowKeys_seenBytes_escape {state : Nat} (known : state ≤ 2) :
    arrowKeys (seenBytes state ++ 0x1B :: bytes) = arrowKeys (0x1B :: bytes) := by
  obtain rfl | rfl | rfl : state = 0 ∨ state = 1 ∨ state = 2 := by omega
  · rfl
  · exact arrowKeys_escape_of_ne (by decide)
  · exact arrowKeys_bracket

/-- Another byte completes an arrow key or is skipped, unless it is the `[` after an ESC. -/
theorem arrowKeys_seenBytes_other {state : Nat} (known : state ≤ 2) (escape : byte ≠ 0x1B)
    (bracket : ¬(byte = 0x5B ∧ state = 1)) :
    arrowKeys (seenBytes state ++ byte :: bytes) =
      (if state = 2 then arrowLetter byte else none).toList ++ arrowKeys bytes := by
  obtain rfl | rfl | rfl : state = 0 ∨ state = 1 ∨ state = 2 := by omega
  · exact arrowKeys_of_ne escape
  · have skipped : byte ≠ 0x5B := fun same => bracket ⟨same, rfl⟩
    exact (arrowKeys_escape_of_ne skipped).trans (arrowKeys_of_ne escape)
  · rw [← @arrowKeys_of_ne byte bytes escape]
    exact arrowKeys_bracket

/-- Without empty polls the thread stores one direction for each arrow key.  The induction
puts back the bytes that the state stands for. -/
theorem keyboardThread_typed (bytes : List UInt8) {state : Nat} (known : state ≤ 2) :
    (keyboardThread state (bytes.map some)).1 =
      arrowKeys (seenBytes state ++ beforeQuit bytes) := by
  induction bytes generalizing state with
  | nil => exact (arrowKeys_seenBytes known).symm.trans (by simp [beforeQuit])
  | cons byte bytes ih =>
      rw [List.map_cons, keyboardThread_some]
      by_cases quit : byte = 0x60
      · rw [if_pos quit, quit, beforeQuit_quit, List.append_nil, arrowKeys_seenBytes known]
      · rw [if_neg quit, beforeQuit_cons quit]
        by_cases escape : byte = 0x1B
        · rw [if_pos escape, escape, arrowKeys_seenBytes_escape known]
          exact ih (by decide)
        · rw [if_neg escape]
          by_cases bracket : byte = 0x5B ∧ state = 1
          · rw [if_pos bracket, bracket.1, bracket.2]
            exact ih (by decide)
          · rw [if_neg bracket, arrowKeys_seenBytes_other known escape bracket]
            exact congrArg _ (@ih 0 (by decide))

/-! ## Empty polls -/

/-- The bytes that the thread sees, with a byte of no arrow key for an empty poll. -/
def polled (results : List (Option UInt8)) : List UInt8 :=
  results.map fun result => result.getD 0xFF

@[simp]
theorem polled_none : polled (none :: results) = 0xFF :: polled results := rfl

@[simp]
theorem polled_some : polled (some byte :: results) = byte :: polled results := rfl

@[simp]
theorem typed_none : typed (none :: results) = typed results := rfl

@[simp]
theorem typed_some : typed (some byte :: results) = byte :: typed results := rfl

theorem keyboardThread_polled (state : Nat) (results : List (Option UInt8)) :
    keyboardThread state results = keyboardThread state ((polled results).map some) := by
  induction results generalizing state with
  | nil => rfl
  | cons result results ih =>
      simp only [polled, List.map_cons, keyboardThread, ih]
      cases result <;> rfl

theorem arrowKey_isSome_iff :
    (arrowKey bytes).isSome ↔
      ∃ letter rest, (arrowLetter letter).isSome ∧ bytes = 0x1B :: 0x5B :: letter :: rest := by
  constructor
  · intro some
    rw [arrowKey.eq_def] at some
    split at some
    next escape bracket letter rest =>
      split at some
      next arrow => exact ⟨letter, rest, some, by rw [arrow.1, arrow.2]⟩
      next => cases some
    next => cases some
  · rintro ⟨letter, rest, arrow, rfl⟩
    exact arrow

/-- No byte of an arrow key is the backquote. -/
theorem arrowKey_beforeQuit (bytes : List UInt8) :
    arrowKey (beforeQuit bytes) = arrowKey bytes := by
  by_cases whole : (arrowKey bytes).isSome
  · obtain ⟨letter, rest, arrow, rfl⟩ := arrowKey_isSome_iff.mp whole
    have quit : letter ≠ 0x60 := fun same => absurd arrow (same ▸ by decide)
    rw [beforeQuit_cons (by decide), beforeQuit_cons (by decide), beforeQuit_cons quit]
    rfl
  · have cut : ¬(arrowKey (beforeQuit bytes)).isSome := by
      intro some
      obtain ⟨letter, rest, arrow, begins⟩ := arrowKey_isSome_iff.mp some
      obtain ⟨more, same⟩ : beforeQuit bytes <+: bytes := List.takeWhile_prefix _
      rw [begins] at same
      exact whole (arrowKey_isSome_iff.mpr ⟨letter, rest ++ more, arrow, same.symm⟩)
    rw [Option.not_isSome_iff_eq_none.mp whole, Option.not_isSome_iff_eq_none.mp cut]

/-- The first byte typed comes after some empty polls. -/
theorem typed_eq_cons (first : typed results = byte :: bytes) :
    ∃ count after, results = List.replicate count none ++ some byte :: after ∧
      typed after = bytes := by
  induction results with
  | nil => cases first
  | cons result results ih =>
      cases result with
      | none =>
          obtain ⟨count, after, split, rest⟩ := ih first
          exact ⟨count + 1, after, congrArg _ split, rest⟩
      | some head =>
          obtain ⟨rfl, rest⟩ := List.cons.inj first
          exact ⟨0, results, rfl, rest⟩

theorem typed_replicate_none (count : Nat) (results : List (Option UInt8)) :
    typed (List.replicate count none ++ results) = typed results := by
  induction count with
  | zero => rfl
  | succ count ih => exact ih

/-- The thread misses an arrow key that is split. -/
theorem BeginsSplit.missed (split : BeginsSplit results) :
    arrowKey (polled results) = none ∧ (arrowKey (typed results)).isSome := by
  obtain ⟨first, second, letter, after, positive, arrow, rfl⟩ := split
  refine ⟨?_, ?_⟩
  · cases first with
    | zero =>
        cases second with
        | zero => exact absurd positive (by decide)
        | succ second => rfl
    | succ first =>
        rw [polled, List.replicate_succ, List.cons_append, List.map_cons, List.map_cons]
        cases first with
        | zero => rfl
        | succ first => rfl
  · have whole : typed (some 0x1B :: (List.replicate first none ++
        some 0x5B :: (List.replicate second none ++ some letter :: after))) =
        0x1B :: 0x5B :: letter :: typed after := by
      change 0x1B :: typed _ = _
      rw [typed_replicate_none]
      change 0x1B :: 0x5B :: typed _ = _
      rw [typed_replicate_none]
      rfl
    rw [whole]
    exact arrow

/-- Where no arrow key is split at the start, the thread sees what was typed there. -/
theorem arrowKey_polled_eq (started : ¬BeginsSplit (some byte :: results)) :
    arrowKey (polled (some byte :: results)) = arrowKey (typed (some byte :: results)) := by
  by_cases whole : (arrowKey (typed (some byte :: results))).isSome
  · obtain ⟨letter, rest, arrow, begins⟩ := arrowKey_isSome_iff.mp whole
    obtain ⟨rfl, later⟩ := List.cons.inj (show byte :: typed results = _ from begins)
    obtain ⟨first, middle, rfl, latest⟩ := typed_eq_cons later
    obtain ⟨second, after, rfl, -⟩ := typed_eq_cons latest
    have joined : ¬0 < first + second := fun positive =>
      started ⟨first, second, letter, after, positive, arrow, rfl⟩
    obtain ⟨rfl, rfl⟩ : first = 0 ∧ second = 0 := by omega
    rw [begins]
    rfl
  · have unseen : ¬(arrowKey (polled (some byte :: results))).isSome := by
      intro seen
      obtain ⟨letter, rest, arrow, begins⟩ := arrowKey_isSome_iff.mp seen
      refine whole (arrowKey_isSome_iff.mpr ?_)
      match results, begins with
      | some bracket :: some last :: results, begins =>
          have same : byte :: bracket :: last :: polled results =
            0x1B :: 0x5B :: letter :: rest := begins
          injection same with escape same
          injection same with bracket same
          injection same with last same
          exact ⟨letter, typed results, arrow, by rw [escape, bracket, last]; rfl⟩
      | some bracket :: none :: results, begins =>
          have same : byte :: bracket :: 0xFF :: polled results =
            0x1B :: 0x5B :: letter :: rest := begins
          injection same with escape same
          injection same with bracket same
          injection same with last same
          exact absurd arrow (last ▸ by decide)
    rw [Option.not_isSome_iff_eq_none.mp whole, Option.not_isSome_iff_eq_none.mp unseen]

theorem splitsArrow_none : SplitsArrow (none :: results) ↔ SplitsArrow results := by
  constructor
  · rintro ⟨before, after, quit, split, same⟩
    cases before with
    | nil =>
        obtain ⟨first, second, letter, rest, -, -, rfl⟩ := split
        cases same
    | cons result before =>
        obtain ⟨rfl, rfl⟩ := List.cons.inj same
        exact ⟨before, after, quit, split, rfl⟩
  · rintro ⟨before, after, quit, split, rfl⟩
    exact ⟨none :: before, after, quit, split, rfl⟩

theorem splitsArrow_some (quit : byte ≠ 0x60) :
    SplitsArrow (some byte :: results) ↔
      BeginsSplit (some byte :: results) ∨ SplitsArrow results := by
  constructor
  · rintro ⟨before, after, typedBefore, split, same⟩
    cases before with
    | nil => exact .inl (same ▸ split)
    | cons result before =>
        obtain ⟨rfl, rfl⟩ := List.cons.inj same
        exact .inr ⟨before, after, fun member => typedBefore (List.mem_cons_of_mem _ member),
          split, rfl⟩
  · rintro (split | ⟨before, after, typedBefore, split, rfl⟩)
    · exact ⟨[], _, List.not_mem_nil, split, rfl⟩
    · refine ⟨some byte :: before, after, fun member => ?_, split, rfl⟩
      rcases List.mem_cons.mp (show _ ∈ byte :: typed before from member) with same | later
      · exact quit same.symm
      · exact typedBefore later

theorem not_splitsArrow_quit : ¬SplitsArrow (some 0x60 :: results) := by
  rintro ⟨before, after, typedBefore, split, same⟩
  cases before with
  | nil =>
      obtain ⟨first, second, letter, rest, -, -, rfl⟩ := split
      cases same
  | cons result before =>
      obtain ⟨rfl, rfl⟩ := List.cons.inj same
      exact typedBefore List.mem_cons_self

/-- The thread never sees more arrow keys than were typed, and fewer when one was split. -/
theorem arrowKeys_polled (results : List (Option UInt8)) :
    (arrowKeys (beforeQuit (polled results))).length ≤
        (arrowKeys (beforeQuit (typed results))).length ∧
      (arrowKeys (beforeQuit (polled results)) = arrowKeys (beforeQuit (typed results)) ↔
        ¬SplitsArrow results) := by
  induction results with
  | nil =>
      refine ⟨Nat.le_refl _, fun _ => ?_, fun _ => rfl⟩
      rintro ⟨before, after, -, ⟨first, second, letter, rest, -, -, rfl⟩, same⟩
      simp at same
  | cons result results ih =>
      cases result with
      | none =>
          rw [splitsArrow_none, polled_none, typed_none, beforeQuit_cons (by decide),
            arrowKeys_of_ne (by decide)]
          exact ih
      | some byte =>
          by_cases quit : byte = 0x60
          · rw [quit, polled_some, typed_some, beforeQuit_quit, beforeQuit_quit]
            exact ⟨Nat.le_refl _, fun _ => not_splitsArrow_quit, fun _ => rfl⟩
          · have seen : arrowKey (byte :: beforeQuit (polled results)) =
                arrowKey (polled (some byte :: results)) := by
              rw [← beforeQuit_cons quit, ← polled_some, arrowKey_beforeQuit]
            have whole : arrowKey (byte :: beforeQuit (typed results)) =
                arrowKey (typed (some byte :: results)) := by
              rw [← beforeQuit_cons quit, ← typed_some, arrowKey_beforeQuit]
            rw [splitsArrow_some quit, polled_some, typed_some, beforeQuit_cons quit,
              beforeQuit_cons quit, arrowKeys_cons, arrowKeys_cons, seen, whole]
            by_cases split : BeginsSplit (some byte :: results)
            · obtain ⟨direction, arrow⟩ := Option.isSome_iff_exists.mp split.missed.2
              have fewer := ih.1
              rw [split.missed.1, arrow, Option.toList_none, Option.toList_some, List.nil_append,
                List.singleton_append, List.length_cons]
              refine ⟨Nat.le_succ_of_le fewer, fun same => ?_, fun joined => ?_⟩
              · rw [same, List.length_cons] at fewer
                omega
              · exact absurd (.inl split) joined
            · rw [arrowKey_polled_eq split, List.length_append, List.length_append,
                List.append_right_inj, ih.2]
              exact ⟨Nat.add_le_add_left ih.1 _, by simp [split]⟩

/-- With empty polls the thread stores the directions of the arrow keys that were typed
exactly when no arrow key is split. -/
theorem keyboard_thread_stores (results : List (Option UInt8)) :
    ((keyboardThread 0 results).1 = (keyboardThread 0 ((typed results).map some)).1 ∧
        (keyboardThread 0 results).1 = arrowKeys (beforeQuit (typed results))) ↔
      ¬SplitsArrow results := by
  have same := keyboardThread_typed (typed results) (Nat.zero_le 2)
  have seen := keyboardThread_typed (polled results) (Nat.zero_le 2)
  rw [keyboardThread_polled, seen, same]
  exact and_self_iff.trans (arrowKeys_polled results).2

/-- An empty poll after the ESC of an arrow key loses its direction. -/
theorem keyboard_thread_misses :
    (keyboardThread 0 [some 0x1B, none, some 0x5B, some 0x41]).1 = [] ∧
      (keyboardThread 0 ((typed [some 0x1B, none, some 0x5B, some 0x41]).map some)).1 = [.up] ∧
      arrowKeys (beforeQuit (typed [some 0x1B, none, some 0x5B, some 0x41])) = [.up] := by
  decide

end

end Ece391.ModeX
