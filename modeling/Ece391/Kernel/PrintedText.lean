import Ece391.Kernel.ScreenCells
import Ece391.Library.PaperRoll

/-!
# Text printed to the screen

A console that stores every byte before it moves its cursor is a printer on a paper roll of
80 columns, seen through a window of 25 rows.  `putc` moves the cursor of that console, but
in the last column of a row it moves without storing: it is the printer that skips every
80th place.
-/

namespace Ece391.Kernel

open Ece391.Library

namespace Console

/-- The console with a character stored at its cursor. -/
def stored (c : UInt8) (console : Console) : Console :=
  let place := cellAddress console.screenX console.screenY
  { console with memory := (console.memory.store place c).store (place + 1) 7 }

/-- The cursor moves to the next cell; from the last one the screen scrolls. -/
def moveOn (console : Console) : Console :=
  if console.screenX < 79 then console.setCursor (console.screenX + 1) console.screenY
  else if console.screenY < 24 then console.setCursor 0 (console.screenY + 1)
  else console.scrolling

/-- The reference for a byte that is no newline: store it, then move on. -/
def referencePutc (c : UInt8) (console : Console) : Console :=
  (console.stored c).moveOn

/-- `putc` moves on like the reference, but does not store in the last column. -/
theorem putc_moveOn {c : UInt8} {console : Console}
    (cursor : OnScreen console.screenX console.screenY) (shown : ¬ (c = 10 ∨ c = 13)) :
    console.putc c =
      if console.screenX = 79 then console.moveOn else (console.stored c).moveOn := by
  obtain ⟨left, right, top, bottom⟩ := cursor
  by_cases edge : console.screenX = 79
  · have full : ¬ console.screenX < 79 := by omega
    rw [if_pos edge, putc, moveOn, if_neg full]
    by_cases last : console.screenY = 24
    · rw [if_pos ⟨edge, last⟩, if_neg (by omega)]
    · rw [if_neg (fun corner => last corner.2), if_neg (fun newline => shown newline.2),
        if_pos edge, if_pos (by omega)]
  · have column : (console.screenX + 1).tmod 80 = console.screenX + 1 :=
      Int.tmod_eq_of_lt (by omega) (by omega)
    have row : (console.screenY + (console.screenX + 1).tdiv 80).tmod 25 = console.screenY := by
      rw [Int.tdiv_eq_zero_of_lt (by omega) (by omega), Int.add_zero]
      exact Int.tmod_eq_of_lt top bottom
    have before : (console.stored c).screenX < 79 := by
      change console.screenX < 79
      omega
    rw [if_neg edge, putc, moveOn, if_pos before, if_neg (fun corner => edge corner.1),
      if_neg (fun newline => shown newline.2), if_neg edge, if_neg shown]
    simp only [column, row]
    rfl

end Console

/-! ## The console as a paper roll -/

/-- What scrolling does to the attribute of a cell. -/
def recolor (value : UInt8 × UInt8) : UInt8 × UInt8 :=
  (value.1, 7)

/-- The last column. -/
def LastColumn (place : Nat) : Prop :=
  place % 80 = 79

instance : DecidablePred LastColumn :=
  fun place => inferInstanceAs (Decidable (place % 80 = 79))

/-- The rows that have left the top of the screen. -/
abbrev scrolledRows (place : Nat) : Nat :=
  PaperRoll.rowsAbove 80 25 place

/-- The screen is the window on a roll, which is blank below, and the cursor is at the
place printed next. -/
structure OnPaper (console : Console) (roll : PaperRoll (UInt8 × UInt8)) : Prop where
  column : console.screenX = (roll.place % 80 : Nat)
  row : console.screenY = (roll.place / 80 - scrolledRows roll.place : Nat)
  shows : ∀ k < 2000, cell console.memory k = roll.content (80 * scrolledRows roll.place + k)
  below : ∀ q, 80 * (scrolledRows roll.place + 25) ≤ q → roll.content q = blank

/-- The screen as the start of a roll. -/
def paperOf (console : Console) : PaperRoll (UInt8 × UInt8) where
  content q := if q < 2000 then cell console.memory q else blank
  place := (80 * console.screenY + console.screenX).toNat

section

variable {console : Console} {roll : PaperRoll (UInt8 × UInt8)} {c : UInt8}

theorem scrolledRows_eq (place : Nat) : scrolledRows place = place / 80 - 24 := by
  rw [scrolledRows, PaperRoll.rowsAbove]
  omega

theorem onPaper_paperOf (cursor : OnScreen console.screenX console.screenY) :
    OnPaper console (paperOf console) := by
  obtain ⟨left, right, top, bottom⟩ := cursor
  have place : ((paperOf console).place : Int) = 80 * console.screenY + console.screenX :=
    Int.toNat_of_nonneg (by omega)
  have still : scrolledRows (paperOf console).place = 0 := by
    rw [scrolledRows_eq]
    omega
  refine ⟨by omega, by omega, ?_, ?_⟩
  · intro k inside
    rw [still, Nat.mul_zero, Nat.zero_add]
    exact (if_pos inside).symm
  · intro q outside
    rw [still] at outside
    exact if_neg (by omega)

theorem OnPaper.onScreen (paper : OnPaper console roll) :
    OnScreen console.screenX console.screenY := by
  have column := paper.column
  have row := paper.row
  rw [scrolledRows_eq] at row
  exact ⟨by omega, by omega, by omega, by omega⟩

/-- Storing at the cursor prints at the place. -/
theorem OnPaper.stored (paper : OnPaper console roll) (c : UInt8) :
    OnPaper (console.stored c)
      { roll with content := Function.update roll.content roll.place (c, 7) } where
  column := paper.column
  row := paper.row
  shows k inside := by
    have rows := scrolledRows_eq roll.place
    obtain ⟨offset, place⟩ : ∃ offset, roll.place = 80 * scrolledRows roll.place + offset :=
      ⟨roll.place - 80 * scrolledRows roll.place, by omega⟩
    have address : Console.cellAddress console.screenX console.screenY =
        video + 2 * (offset : Nat) := by
      rw [Console.cellAddress, paper.column, paper.row]
      omega
    simp only [Console.stored, address, cell_store]
    by_cases here : k = offset
    · rw [if_pos here, here, ← place, Function.update_self]
    · have apart : 80 * scrolledRows roll.place + k ≠ roll.place := by omega
      rw [if_neg here, Function.update_of_ne apart]
      exact paper.shows k inside
  below q outside := by
    have rows := scrolledRows_eq roll.place
    simp only at outside
    have apart : q ≠ roll.place := by omega
    exact (Function.update_of_ne apart ..).trans (paper.below q outside)

/-- Moving the cursor on moves to the next place. -/
theorem OnPaper.moveOn (paper : OnPaper console roll) :
    OnPaper console.moveOn (roll.advance 80 25 recolor) := by
  have column := paper.column
  have row := paper.row
  have rows := scrolledRows_eq roll.place
  have rows' := scrolledRows_eq (roll.place + 1)
  rw [Console.moveOn]
  by_cases scrolls : scrolledRows (roll.place + 1) = scrolledRows roll.place
  · have content : (roll.advance 80 25 recolor).content = roll.content := if_pos scrolls
    have place : (roll.advance 80 25 recolor).place = roll.place + 1 := rfl
    have moved {x y : Int} (toColumn : x = ((roll.place + 1) % 80 : Nat))
        (toRow : y = ((roll.place + 1) / 80 - scrolledRows (roll.place + 1) : Nat)) :
        OnPaper (console.setCursor x y) (roll.advance 80 25 recolor) := by
      refine ⟨toColumn, toRow, ?_, ?_⟩
      · rw [content, place, scrolls]
        exact paper.shows
      · rw [content, place, scrolls]
        exact paper.below
    split_ifs
    · exact moved (by omega) (by omega)
    · exact moved (by omega) (by omega)
    · omega
  · have content (q : Nat) :
        (roll.advance 80 25 recolor).content q = recolor (roll.content q) :=
      congrFun (if_neg scrolls) q
    have place : (roll.advance 80 25 recolor).place = roll.place + 1 := rfl
    have next : scrolledRows (roll.place + 1) = scrolledRows roll.place + 1 := by omega
    rw [if_neg (by omega), if_neg (by omega)]
    refine ⟨?_, ?_, ?_, ?_⟩
    · change (0 : Int) = _
      rw [place]
      omega
    · change (24 : Int) = _
      rw [place]
      omega
    · intro k inside
      rw [content, place, next, cell_scrolling]
      by_cases last : 1920 ≤ k
      · rw [if_pos ⟨last, inside⟩, paper.below _ (by omega)]
        rfl
      · have source : 80 * (scrolledRows roll.place + 1) + k =
            80 * scrolledRows roll.place + (k + 80) := by omega
        rw [if_neg (fun both => last both.1), if_pos (by omega), source,
          paper.shows (k + 80) (by omega)]
        rfl
    · intro q outside
      rw [place, next] at outside
      rw [content, paper.below q (by omega)]
      rfl

/-- The reference prints at every place. -/
theorem OnPaper.referencePutc (paper : OnPaper console roll) (c : UInt8) :
    OnPaper (console.referencePutc c)
      (roll.print 80 25 recolor (fun _ => False) (c, 7)) := by
  rw [Console.referencePutc, PaperRoll.print, if_neg not_false]
  exact (paper.stored c).moveOn

/-- `putc` skips the last column. -/
theorem OnPaper.putc (paper : OnPaper console roll) (shown : ¬ (c = 10 ∨ c = 13)) :
    OnPaper (console.putc c) (roll.print 80 25 recolor LastColumn (c, 7)) := by
  have column := paper.column
  have edge : console.screenX = 79 ↔ LastColumn roll.place := by
    rw [LastColumn]
    omega
  rw [Console.putc_moveOn paper.onScreen shown, PaperRoll.print]
  by_cases last : LastColumn roll.place
  · rw [if_pos (edge.mpr last), if_pos last]
    exact paper.moveOn
  · rw [if_neg (fun same => last (edge.mp same)), if_neg last]
    exact (paper.stored c).moveOn

end

/-! ## Texts -/

/-- The reference prints a text. -/
def Console.referencePuts (text : List UInt8) (console : Console) : Console :=
  text.foldl (fun console c => console.referencePutc c) console

/-- Every byte that arrives in the last column, in a row that is still on the screen in the
end, is what its cell shows anyway: the character that was there, in the attribute of
output unless the screen has scrolled. -/
def LastColumnKept (console : Console) (text : List UInt8) : Prop :=
  ∀ i byte, text[i]? = some byte → LastColumn ((paperOf console).place + i) →
    80 * scrolledRows ((paperOf console).place + text.length) ≤ (paperOf console).place + i →
    PaperRoll.shown 80 25 recolor (paperOf console).place
      ((paperOf console).place + text.length)
      ((paperOf console).content ((paperOf console).place + i)) = (byte, 7)

section

variable {console other : Console} {roll roll' : PaperRoll (UInt8 × UInt8)}
variable {text : List UInt8}

theorem OnPaper.puts (paper : OnPaper console roll)
    (shown : ∀ c ∈ text, ¬ (c = 10 ∨ c = 13)) :
    OnPaper (console.puts text)
      ((text.map fun c => (c, 7)).foldl (PaperRoll.print 80 25 recolor LastColumn) roll) := by
  induction text generalizing console roll with
  | nil => exact paper
  | cons c text ih =>
      exact ih (paper.putc (shown c (by simp))) fun c listed => shown c (by simp [listed])

theorem OnPaper.referencePuts (paper : OnPaper console roll) :
    OnPaper (console.referencePuts text)
      ((text.map fun c => (c, 7)).foldl
        (PaperRoll.print 80 25 recolor fun _ => False) roll) := by
  induction text generalizing console roll with
  | nil => exact paper
  | cons c text ih => exact ih (paper.referencePutc c)

/-- Consoles at the same place show the same screen if their rolls show the same window. -/
theorem OnPaper.sameScreen (paper : OnPaper console roll) (paper' : OnPaper other roll') :
    SameScreen console other ↔
      ∀ k < 80 * 25, PaperRoll.window 80 25 roll k = PaperRoll.window 80 25 roll' k := by
  constructor
  · intro same k inside
    have shows := paper.shows k inside
    have shows' := paper'.shows k inside
    exact shows.symm.trans ((same k inside).trans shows')
  · intro same k inside
    exact (paper.shows k inside).trans ((same k inside).trans (paper'.shows k inside).symm)

end

/-- From any cursor on the screen, a text without newlines leaves the screen of the
reference exactly if every byte of its last column was there before. -/
theorem puts_sameScreen {console : Console} (cursor : OnScreen console.screenX console.screenY)
    {text : List UInt8} (shown : ∀ c ∈ text, ¬ (c = 10 ∨ c = 13)) :
    SameScreen (console.puts text) (console.referencePuts text) ↔
      LastColumnKept console text := by
  have paper := onPaper_paperOf cursor
  have idempotent (value : UInt8 × UInt8) : recolor (recolor value) = recolor value := rfl
  have fixed : ∀ value ∈ text.map fun c => (c, (7 : UInt8)), recolor value = value := by
    intro value listed
    obtain ⟨c, -, rfl⟩ := List.mem_map.mp listed
    rfl
  rw [(paper.puts shown).sameScreen paper.referencePuts,
    PaperRoll.window_eq_iff (by decide) idempotent (paperOf console) _ fixed, LastColumnKept,
    List.length_map]
  constructor
  · intro kept i byte listed last visible
    exact kept i (byte, 7) (by simp [listed]) last visible
  · intro kept i value listed last visible
    rw [List.getElem?_map, Option.map_eq_some_iff] at listed
    obtain ⟨byte, listed, rfl⟩ := listed
    exact kept i byte listed last visible

/-- An empty screen with the cursor at the start of the first row. -/
def emptyScreen : Console :=
  Console.bss fun _ => 0

/-- A blank screen with the cursor one column before the last. -/
def edgeScreen : Console :=
  (Console.bss fun address => if address % 2 = 0 then 0x20 else 7).setCursor 78 0

/-- A text whose second byte goes to the last column, and is the blank that was there. -/
theorem puts_sameScreen_blank :
    SameScreen (edgeScreen.puts [0x41, 0x20, 0x42])
      (edgeScreen.referencePuts [0x41, 0x20, 0x42]) := by
  have shown : ∀ c ∈ [(0x41 : UInt8), 0x20, 0x42], ¬ (c = 10 ∨ c = 13) := by simp
  have cursor : OnScreen edgeScreen.screenX edgeScreen.screenY :=
    ⟨by decide, by decide, by decide, by decide⟩
  refine (puts_sameScreen cursor shown).mpr ?_
  intro i byte listed last _
  have inside : i < 3 := (List.getElem?_eq_some_iff.mp listed).1
  have start : (paperOf edgeScreen).place = 78 := rfl
  rw [LastColumn, start] at last
  obtain rfl : i = 1 := by omega
  obtain rfl : (0x20 : UInt8) = byte := Option.some.inj listed
  decide

/-- A letter in the last column is dropped. -/
theorem puts_sameScreen_edge :
    ¬ SameScreen ((emptyScreen.setCursor 79 0).puts [0x41])
      ((emptyScreen.setCursor 79 0).referencePuts [0x41]) := by
  intro same
  have last := same 79 (by decide)
  revert last
  decide

end Ece391.Kernel
