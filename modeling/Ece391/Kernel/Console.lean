import Ece391.Kernel.Drivers
import Ece391.Library.Copy
import Ece391.Library.Footprint
import Ece391.Library.Run

/-!
# The console: screen, keyboard and terminals

The keyboard handler, the output of single characters and the switch between the three
terminals work on one state: the line buffer, the modifier keys, the cursor, the video
memory and the table of terminals.  Memory is total: an access outside the mapped pages
faults on the machine, and the logs below show such accesses to a reader.

The cursor is kept as the `int` that `screen_x` and `screen_y` hold; `set_cursor` and
`get_screen_x` convert it to `uint32_t` and back, which changes nothing, and so does the
`uint32_t` in which a terminal saves it.  Port output is left out.
-/

namespace Ece391.Kernel

open Ece391.Library

/-- The live video page. -/
def video : Int := 0xB8000

/-- The cases of the switch in `keyboard_handler`. -/
inductive Key where
  | backspace
  | tab
  | ctrl
  | ctrlReleased
  | letterL
  | shift
  | shiftReleased
  | alt
  | altReleased
  | function (id : Fin 3)
  | capslock
  | enter
  | other
  deriving DecidableEq, Repr

def keyOf (code : UInt8) : Key :=
  if code = 0x0E then .backspace
  else if code = 0x0F then .tab
  else if code = 0x1D then .ctrl
  else if code = 0x9D then .ctrlReleased
  else if code = 0x26 then .letterL
  else if code = 0x2A then .shift
  else if code = 0x36 then .shift
  else if code = 0xAA then .shiftReleased
  else if code = 0xB6 then .shiftReleased
  else if code = 0x38 then .alt
  else if code = 0xB8 then .altReleased
  else if code = 0x3B then .function 0
  else if code = 0x3C then .function 1
  else if code = 0x3D then .function 2
  else if code = 0x3A then .capslock
  else if code = 0x1C then .enter
  else .other

/-- `terminal_t`.  The buffer is `keyboard_buffer[128]`. -/
structure Terminal where
  videoMemAddr : Nat
  active : Bool
  keyboardBuffer : Bytes
  screenX : Int
  screenY : Int

/-- The globals of `keyboard.c`, `lib.c` and `terminal_driver.c`.  Three logs record what
the event being handled has done: `memory.writes` the stores through `video_mem`,
`bufferStores` the indices stored to in `keyboard_buffer`, and `pageCopies` the target and
source of every page copied. -/
structure Console extends Devices where
  ctrlPressed : Bool
  shiftPressed : Bool
  capslockPressed : Bool
  altPressed : Bool
  screenX : Int
  screenY : Int
  memory : Tracked Int UInt8
  terminals : Fin 3 → Terminal
  currTerminalId : Fin 3
  bufferStores : List Nat
  pageCopies : List (Int × Int)

namespace Console

/-- The console with empty logs, as it is when an event arrives. -/
def quiet (console : Console) : Console :=
  { console with memory := console.memory.quiet, bufferStores := [], pageCopies := [] }

/-! ## Screen -/

def setCursor (x y : Int) (console : Console) : Console :=
  { console with screenX := x, screenY := y }

/-- One pass of the loop of `clear` and `clear_terminal_vidmem`. -/
def blankCell (base : Int) (memory : Tracked Int UInt8) (i : Nat) : Tracked Int UInt8 :=
  (memory.store (base + 2 * i) 0x20).store (base + 2 * i + 1) 7

@[irreducible] def blankCells (base : Int) (memory : Tracked Int UInt8) : Tracked Int UInt8 :=
  (List.range 2000).foldl (blankCell base) memory

def clear (console : Console) : Console :=
  { console with memory := blankCells video console.memory }

/-- The inner body of `scrolling`: row `j + 1` moves to row `j`, and the last row is
blanked as it is moved. -/
def scrollCell (j : Nat) (memory : Tracked Int UInt8) (i : Nat) : Tracked Int UInt8 :=
  let target := video + 2 * (80 * j + i)
  let source := video + 2 * (80 * (j + 1) + i)
  let moved := (memory.store target (memory.cells source)).store (target + 1) 7
  if j + 1 = 24 then (moved.store source 0x20).store (source + 1) 7 else moved

def scrollRow (memory : Tracked Int UInt8) (j : Nat) : Tracked Int UInt8 :=
  (List.range 80).foldl (scrollCell j) memory

def scrolling (console : Console) : Console :=
  { console with memory := (List.range 24).foldl scrollRow console.memory }.setCursor 0 24

/-- The address of the cell at a cursor position. -/
def cellAddress (x y : Int) : Int :=
  video + 2 * (80 * y + x)

def putc (c : UInt8) (console : Console) : Console :=
  if console.screenX = 79 ∧ console.screenY = 24 then console.scrolling
  else if console.screenY = 24 ∧ (c = 10 ∨ c = 13) then console.scrolling
  else if console.screenX = 79 then console.setCursor 0 (console.screenY + 1)
  else if c = 10 ∨ c = 13 then console.setCursor 0 (console.screenY + 1)
  else
    let cell := cellAddress console.screenX console.screenY
    let stored := { console with memory := (console.memory.store cell c).store (cell + 1) 7 }
    let x := (console.screenX + 1).tmod 80
    stored.setCursor x ((console.screenY + x.tdiv 80).tmod 25)

/-! ## Line buffer -/

/-- `keyboard_buffer[index] = char`. -/
def storeChar (index : Nat) (char : UInt8) (console : Console) : Console :=
  { console with
    keyboard.keyboardBuffer := Function.update console.keyboard.keyboardBuffer index char
    bufferStores := index :: console.bufferStores }

/-- `clear_keyboard_buff`, with its stores. -/
def clearLine (console : Console) : Console :=
  { console with
    keyboard := clearKeyboardBuff console.keyboard
    bufferStores := List.range 128 ++ console.bufferStores }

/-- A copy of 128 bytes. -/
def copyLine (target source : Bytes) : Bytes :=
  fun i => if i < 128 then source i else target i

def asciiLookupTable : List UInt8 :=
  [0x00, 0x00, 0x31, 0x32, 0x33, 0x34, 0x35, 0x36, 0x37, 0x38, 0x39, 0x30,
   0x2D, 0x3D, 0x08, 0x09, 0x71, 0x77, 0x65, 0x72, 0x74, 0x79, 0x75,
   0x69, 0x6F, 0x70, 0x5B, 0x5D, 0x00, 0x00, 0x61, 0x73, 0x64, 0x66,
   0x67, 0x68, 0x6A, 0x6B, 0x6C, 0x3B, 0x27, 0x60, 0x0F,
   0x5C, 0x7A, 0x78, 0x63, 0x76, 0x62, 0x6E, 0x6D, 0x2C, 0x2E,
   0x2F, 0x0F, 0x00, 0x00, 0x20, 0x00]

def asciiCapsLookupTable : List UInt8 :=
  [0x00, 0x00, 0x21, 0x40, 0x23, 0x24, 0x25, 0x5E, 0x26, 0x2A, 0x28, 0x29,
   0x5F, 0x2B, 0x08, 0x09, 0x51, 0x57, 0x45, 0x52, 0x54, 0x59, 0x55,
   0x49, 0x4F, 0x50, 0x7B, 0x7D, 0x00, 0x00, 0x41, 0x53, 0x44, 0x46,
   0x47, 0x48, 0x4A, 0x4B, 0x4C, 0x3A, 0x22, 0x7E, 0x0F,
   0x7C, 0x5A, 0x58, 0x43, 0x56, 0x42, 0x4E, 0x4D, 0x3C, 0x3E,
   0x3F, 0x0F, 0x00, 0x00, 0x20, 0x00]

/-- The keys that Caps Lock does not affect. -/
def nonAlphabetical (code : UInt8) : Bool :=
  (0x02 ≤ code && code ≤ 0x0F) || (0x1A ≤ code && code ≤ 0x1D) ||
    (0x27 ≤ code && code ≤ 0x2B) || (0x33 ≤ code && code ≤ 0x3A)

/-- The choice of table in `print_to_screen`. -/
def usesCaps (shiftPressed capslockPressed : Bool) (code : UInt8) : Bool :=
  if shiftPressed && !capslockPressed then true
  else if shiftPressed && capslockPressed then nonAlphabetical code
  else if !shiftPressed && capslockPressed then !nonAlphabetical code
  else false

/-- The character of a key, with the modifiers as they are. -/
def keyChar (shiftPressed capslockPressed : Bool) (code : UInt8) : UInt8 :=
  if usesCaps shiftPressed capslockPressed code then asciiCapsLookupTable.getD code.toNat 0
  else asciiLookupTable.getD code.toNat 0

/-- The three lines that append a character to the line and show it. -/
def typeChar (char : UInt8) (console : Console) : Console :=
  let n := console.keyboard.numCharsTyped
  putc char { console.storeChar n char with keyboard.numCharsTyped := n + 1 }

def printToScreen (code : UInt8) (console : Console) : Console :=
  if code ≤ 0x3A then
    console.typeChar (keyChar console.shiftPressed console.capslockPressed code)
  else console

/-! ## Terminals -/

/-- `memcpy` of one page. -/
def copyPage (target source : Int) (console : Console) : Console :=
  { console with
    memory.cells := copyUp console.memory.cells source target 4096
    pageCopies := (target, source) :: console.pageCopies }

/-- `clear_terminal_vidmem`: the stores do not go through `video_mem`. -/
def clearTerminalVidmem (address : Int) (console : Console) : Console :=
  { console with memory.cells := (blankCells address console.memory).cells }

/-- The page that `terminal_init` gives a terminal. -/
def backingPage (id : Fin 3) : Nat :=
  0xB8000 + (id.val + 1) * 4096

/-- `terminal_init`.  Identifiers are in range, so its check passes.  The shell it then
executes is not part of the console: what it prints arrives as output. -/
def terminalInit (id : Fin 3) (console : Console) : Console :=
  let fresh : Terminal :=
    { videoMemAddr := backingPage id
      active := true
      keyboardBuffer :=
        copyLine (console.terminals id).keyboardBuffer console.keyboard.keyboardBuffer
      screenX := 0
      screenY := 0 }
  { console with
    currTerminalId := id
    terminals := Function.update console.terminals id fresh }.clearTerminalVidmem
      (backingPage id)

/-- The cursor and the line of the current terminal are saved, and the line cleared. -/
def recordTerminal (console : Console) : Console :=
  let current := console.terminals console.currTerminalId
  let saved : Terminal :=
    { current with
      screenX := console.screenX
      screenY := console.screenY
      keyboardBuffer := copyLine current.keyboardBuffer console.keyboard.keyboardBuffer }
  { console with
    terminals := Function.update console.terminals console.currTerminalId saved }.clearLine

/-- The first half of `terminal_switch`: the current terminal is saved and the screen
cleared. -/
def saveTerminal (console : Console) : Console :=
  let address := (console.terminals console.currTerminalId).videoMemAddr
  (console.recordTerminal.copyPage address video).clear.setCursor 0 0

/-- The second half, for a terminal that is active. -/
def restoreTerminal (id : Fin 3) (console : Console) : Console :=
  let terminal := console.terminals id
  let shown := (console.copyPage video terminal.videoMemAddr).setCursor
    terminal.screenX terminal.screenY
  { shown with
    keyboard.keyboardBuffer := copyLine shown.keyboard.keyboardBuffer terminal.keyboardBuffer
    bufferStores := List.range 128 ++ shown.bufferStores
    currTerminalId := id }

def terminalSwitch (id : Fin 3) (console : Console) : Console :=
  if id = console.currTerminalId then console
  else
    let saved := console.saveTerminal
    if (saved.terminals id).active then saved.restoreTerminal id else saved.terminalInit id

/-! ## Keyboard handler -/

/-- Backspace: a space is put over the previous cell. -/
def backspace (console : Console) : Console :=
  let n := console.keyboard.numCharsTyped
  if n > 0 then
    let moved := { console with keyboard.numCharsTyped := n - 1 }.setCursor
      (console.screenX - 1) console.screenY
    let erased := moved.putc 0x20
    erased.setCursor (erased.screenX - 1) erased.screenY
  else console

/-- Tab: the count is raised before the store. -/
def tab (console : Console) : Console :=
  let n := console.keyboard.numCharsTyped + 1
  { console with keyboard.numCharsTyped := n }.storeChar n 9

/-- The output loop of Ctrl-L. -/
def showLine (indices : List Nat) (console : Console) : Console :=
  indices.foldl (fun console i => console.putc (console.keyboard.keyboardBuffer i)) console

/-- Ctrl-L: the line is shown again at the top of a cleared screen, one byte more than
was typed. -/
def redraw (console : Console) : Console :=
  let n := console.keyboard.numCharsTyped
  let shown := (console.clear.setCursor 0 0).showLine (List.range (n + 1))
  if n > 80 then shown.setCursor ((n : Int) - 80) 1 else shown.setCursor n 0

def enter (console : Console) : Console :=
  { console with keyboard.enterPressedFlag := 1 }.typeChar 10

def keyboardHandler (code : UInt8) (console : Console) : Console :=
  match keyOf code with
  | .backspace => console.backspace
  | .tab => console.tab
  | .ctrl => { console with ctrlPressed := true }
  | .ctrlReleased => { console with ctrlPressed := false }
  | .letterL => if console.ctrlPressed then console.redraw else console.printToScreen code
  | .shift => { console with shiftPressed := true }
  | .shiftReleased => { console with shiftPressed := false }
  | .alt => { console with altPressed := true }
  | .altReleased => { console with altPressed := false }
  | .function id => if console.altPressed then console.terminalSwitch id else console
  | .capslock => { console with capslockPressed := !console.capslockPressed }
  | .enter => console.enter
  | .other => console.printToScreen code

/-- `terminal_read` on the console, with the stores of its call to
`clear_keyboard_buff`. -/
def read (nbytes : Int) (console : Console) : Option (Int × List UInt8 × Console) :=
  (terminalRead console.toDevices nbytes).map fun result =>
    (result.1, result.2.1,
      { console with
        toDevices := result.2.2
        bufferStores :=
          if nbytes = 0 then console.bufferStores else List.range 128 ++ console.bufferStores })

/-! ## Boot -/

/-- The globals before the kernel runs: zeros, over whatever the video memory holds. -/
def bss (cells : Int → UInt8) : Console where
  keyboard := ⟨fun _ => 0, 0, 0⟩
  inCount := 0
  regA := 0
  ctrlPressed := false
  shiftPressed := false
  capslockPressed := false
  altPressed := false
  screenX := 0
  screenY := 0
  memory := ⟨cells, []⟩
  terminals := fun _ => ⟨0, false, fun _ => 0, 0, 0⟩
  currTerminalId := 0
  bufferStores := []
  pageCopies := []

def puts (text : List UInt8) (console : Console) : Console :=
  text.foldl (fun console c => console.putc c) console

/-- `keyboard_initialize`. -/
def keyboardInitialize (console : Console) : Console :=
  { console.clearLine with keyboard.enterPressedFlag := 0 }

/-- The console part of `entry`.  `report` is what it prints about the boot loader; the
call to `terminal_init` is commented out, and `launch_tests` runs nothing. -/
def entry (cells : Int → UInt8) (report : List UInt8) : Console :=
  let reported := (bss cells).clear.puts report
  reported.keyboardInitialize.clear.setCursor 0 0 |>.puts
    [69, 110, 97, 98, 108, 105, 110, 103, 32, 73, 110, 116, 101, 114, 114, 117, 112, 116, 115, 10]

/-! ## What the operations change -/

/-- Everything but the screen: the cursor and the video memory are masked. -/
def rest (console : Console) : Console :=
  { console with screenX := 0, screenY := 0, memory := ⟨fun _ => 0, []⟩ }

@[simp] theorem setCursor_rest (x y : Int) (console : Console) :
    (console.setCursor x y).rest = console.rest := rfl

theorem memory_rest (console : Console) (memory : Tracked Int UInt8) :
    { console with memory := memory }.rest = console.rest := rfl

@[simp] theorem clear_rest (console : Console) : console.clear.rest = console.rest :=
  memory_rest ..

@[simp] theorem scrolling_rest (console : Console) : console.scrolling.rest = console.rest :=
  (setCursor_rest ..).trans (memory_rest ..)

/-- Output changes nothing but the screen. -/
@[simp] theorem putc_rest (c : UInt8) (console : Console) :
    (console.putc c).rest = console.rest := by
  unfold putc
  split_ifs
  · exact scrolling_rest console
  · exact scrolling_rest console
  · exact setCursor_rest ..
  · exact setCursor_rest ..
  · exact (setCursor_rest ..).trans (memory_rest ..)

@[simp] theorem showLine_rest (indices : List Nat) (console : Console) :
    (console.showLine indices).rest = console.rest := by
  induction indices generalizing console with
  | nil => rfl
  | cons i indices ih => exact (ih _).trans (putc_rest _ console)

/-- Nor does showing the line again. -/
@[simp] theorem redraw_rest (console : Console) : console.redraw.rest = console.rest := by
  simp only [redraw]
  split_ifs
  all_goals rw [setCursor_rest, showLine_rest, setCursor_rest, clear_rest]

@[simp] theorem puts_rest (text : List UInt8) (console : Console) :
    (console.puts text).rest = console.rest := by
  induction text generalizing console with
  | nil => rfl
  | cons c text ih => exact (ih _).trans (putc_rest c console)

section

variable {before after : Console}

theorem keyboard_of_rest (same : after.rest = before.rest) : after.keyboard = before.keyboard :=
  congrArg (fun console => console.keyboard) same

theorem terminals_of_rest (same : after.rest = before.rest) :
    after.terminals = before.terminals :=
  congrArg (fun console => console.terminals) same

theorem currTerminalId_of_rest (same : after.rest = before.rest) :
    after.currTerminalId = before.currTerminalId :=
  congrArg (fun console => console.currTerminalId) same

theorem bufferStores_of_rest (same : after.rest = before.rest) :
    after.bufferStores = before.bufferStores :=
  congrArg (fun console => console.bufferStores) same

theorem pageCopies_of_rest (same : after.rest = before.rest) :
    after.pageCopies = before.pageCopies :=
  congrArg (fun console => console.pageCopies) same

end

theorem keyboardInitialize_of_rest {before after : Console} (same : after.rest = before.rest) :
    after.keyboardInitialize.rest = before.keyboardInitialize.rest :=
  congrArg (fun console => console.keyboardInitialize) same

/-- At boot only the screen differs from the initialised globals. -/
theorem entry_rest (cells : Int → UInt8) (report : List UInt8) :
    (entry cells report).rest = (bss cells).keyboardInitialize.rest := by
  simp only [entry]
  rw [puts_rest, setCursor_rest, clear_rest]
  refine keyboardInitialize_of_rest ?_
  rw [puts_rest, clear_rest]

/-! ## Switching -/

section

variable {console : Console} {id : Fin 3}

theorem terminalSwitch_same (same : id = console.currTerminalId) :
    console.terminalSwitch id = console :=
  if_pos same

/-- Switching to another terminal saves the current one, then starts or restores. -/
theorem terminalSwitch_other (other : id ≠ console.currTerminalId) :
    console.terminalSwitch id =
      if (console.terminals id).active then console.saveTerminal.restoreTerminal id
      else console.saveTerminal.terminalInit id := by
  have untouched : console.saveTerminal.terminals id = console.terminals id :=
    Function.update_of_ne other ..
  rw [← untouched]
  exact if_neg other

theorem terminalSwitch_ready (other : id ≠ console.currTerminalId)
    (active : (console.terminals id).active) :
    console.terminalSwitch id = console.saveTerminal.restoreTerminal id := by
  rw [terminalSwitch_other other, if_pos active]

theorem terminalSwitch_fresh (other : id ≠ console.currTerminalId)
    (inactive : (console.terminals id).active = false) :
    console.terminalSwitch id = console.saveTerminal.terminalInit id := by
  rw [terminalSwitch_other other, inactive]
  rfl

/-- The record of a terminal that is neither left nor entered stays as it is. -/
theorem terminalSwitch_terminals_of_ne {other : Fin 3} (left : other ≠ console.currTerminalId)
    (entered : other ≠ id) : (console.terminalSwitch id).terminals other =
      console.terminals other := by
  have saved : console.saveTerminal.terminals other = console.terminals other :=
    Function.update_of_ne left ..
  by_cases same : id = console.currTerminalId
  · rw [terminalSwitch_same same]
  · rw [terminalSwitch_other same]
    split_ifs
    · exact saved
    · exact (Function.update_of_ne entered ..).trans saved

@[simp] theorem terminalSwitch_currTerminalId (console : Console) (id : Fin 3) :
    (console.terminalSwitch id).currTerminalId = id := by
  by_cases same : id = console.currTerminalId
  · rw [terminalSwitch_same same, same]
  · rw [terminalSwitch_other same]
    split_ifs <;> rfl

/-- A switch to another terminal forgets how many characters were typed. -/
theorem terminalSwitch_numCharsTyped (other : id ≠ console.currTerminalId) :
    (console.terminalSwitch id).keyboard.numCharsTyped = 0 := by
  rw [terminalSwitch_other other]
  split_ifs <;> rfl

/-- No switch changes the flag that Enter sets. -/
theorem terminalSwitch_enterPressedFlag (console : Console) (id : Fin 3) :
    (console.terminalSwitch id).keyboard.enterPressedFlag =
      console.keyboard.enterPressedFlag := by
  by_cases same : id = console.currTerminalId
  · rw [terminalSwitch_same same]
  · rw [terminalSwitch_other same]
    split_ifs <;> rfl

/-- Nor the modifier keys. -/
theorem terminalSwitch_flags (console : Console) (id : Fin 3) :
    (console.terminalSwitch id).ctrlPressed = console.ctrlPressed ∧
      (console.terminalSwitch id).shiftPressed = console.shiftPressed ∧
      (console.terminalSwitch id).capslockPressed = console.capslockPressed := by
  by_cases same : id = console.currTerminalId
  · rw [terminalSwitch_same same]
    exact ⟨rfl, rfl, rfl⟩
  · rw [terminalSwitch_other same]
    split_ifs
    · exact ⟨rfl, rfl, rfl⟩
    · exact ⟨rfl, rfl, rfl⟩

/-- Its stores to the line buffer are two passes over the 128 bytes. -/
theorem terminalSwitch_bufferStores (other : id ≠ console.currTerminalId) {i : Nat}
    (stored : i ∈ (console.terminalSwitch id).bufferStores) :
    i < 128 ∨ i ∈ console.bufferStores := by
  rw [terminalSwitch_other other] at stored
  split_ifs at stored
  · have split : i ∈ List.range 128 ++ (List.range 128 ++ console.bufferStores) := stored
    simp only [List.mem_append, List.mem_range] at split
    cases split with
    | inl restored => exact .inl restored
    | inr earlier => exact earlier
  · have split : i ∈ List.range 128 ++ console.bufferStores := stored
    simp only [List.mem_append, List.mem_range] at split
    exact split

end

/-- A read of no bytes does nothing; any other read waits for Enter and takes the whole
line. -/
theorem read_cases {console : Console} {nbytes : Int} {result : Int × List UInt8 × Console}
    (completed : console.read nbytes = some result) :
    (nbytes = 0 ∧ result.2.2 = console) ∨
      (nbytes ≠ 0 ∧ console.keyboard.enterPressedFlag = 1 ∧
        result.2.2 = { console with
          keyboard := { clearKeyboardBuff console.keyboard with enterPressedFlag := 0 }
          bufferStores := List.range 128 ++ console.bufferStores }) := by
  simp only [read, terminalRead] at completed
  split_ifs at completed with zero waiting
  · cases completed
    exact .inl ⟨zero, rfl⟩
  · cases completed
  · cases completed
    exact .inr ⟨zero, not_not.mp waiting, rfl⟩
  · cases completed
    exact .inr ⟨zero, not_not.mp waiting, rfl⟩

/-! ## Events -/

end Console

/-- What happens to the console. -/
inductive ConsoleEvent where
  | key (code : UInt8)
  | output (char : UInt8)
  | read (nbytes : Int)
  | switchTo (id : Fin 3)
  deriving DecidableEq, Repr

namespace Console

/-- The state after an event; a read happens only when it can complete. -/
def react (console : Console) : ConsoleEvent → Option Console
  | .key code => some (console.quiet.keyboardHandler code)
  | .output char => some (console.quiet.putc char)
  | .read nbytes => (console.quiet.read nbytes).map fun result => result.2.2
  | .switchTo id => some (console.quiet.terminalSwitch id)

end Console

/-- One event at a console. -/
def ConsoleStep (before : Console) (event : ConsoleEvent) (after : Console) : Prop :=
  before.react event = some after

end Ece391.Kernel
