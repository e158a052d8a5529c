import Ece391.ModeX.DrawLines

/-!
# Panning over the maze

`prepare_maze_level` draws the whole window once.  After that the four moves of the player
pan it by one pixel at a time and draw only the row or column that comes into view.  The
main result is that the window always shows what drawing it from scratch would show.

The player's coordinates are `int`s that the pan conditions compare with the `unsigned`
position of the window.
-/

namespace Ece391.ModeX

open Ece391.Library

/-- Conversion to `unsigned int`. -/
def unsigned (value : Int) : Nat :=
  (value % 4294967296).toNat

/-- The fields of `game_info` that place the window, the window, and what is drawn. -/
structure Game where
  mazeXDim : Int
  mazeYDim : Int
  mapX : Nat
  mapY : Nat
  scene : Scene
  view : View

/-- The test of the requested size in `make_maze`. -/
def ValidSize (xDim yDim : Int) : Prop :=
  ¬ (xDim < 14 ∨ xDim > 50 ∨ yDim < 8 ∨ yDim > 30)

instance (xDim yDim : Int) : Decidable (ValidSize xDim yDim) :=
  inferInstanceAs (Decidable (¬ _))

/-- The loop that draws the initial window, up to a row. -/
def drawRows (scene : Scene) (count : Nat) (view : View) : View :=
  (List.range count).foldl (fun view (i : Nat) => (drawHorizLine scene i view).2) view

/-- A dimension of the maze at a level, counted from 0. -/
def levelDim (least most level : Int) : Int :=
  if least + 2 * level > most then most else least + 2 * level

/-- `prepare_maze_level`, where `make_maze` leaves some cells and fruits.  The result is
missing when `make_maze` fails. -/
def prepareMazeLevel (level : Int) (cells : Int → UInt8) (nFruits : Int)
    (blocks : Int → UInt8) (stack : Nat → UInt8) (view : View) : Option Game :=
  let level := level - 1
  let mazeXDim := levelDim 14 50 level
  let mazeYDim := levelDim 8 30 level
  if ValidSize mazeXDim mazeYDim then
    let scene : Scene := ⟨⟨cells, mazeXDim, mazeYDim, nFruits⟩, blocks, stack⟩
    some
      { mazeXDim := mazeXDim
        mazeYDim := mazeYDim
        mapX := 6
        mapY := 6
        scene := scene
        view := drawRows scene 182 (setViewWindow view 6 6) }
  else none

namespace Game

/-- `move_up`: the new vertical position of the player, and the game. -/
def moveUp (ypos : Int) (game : Game) : Int × Game :=
  let ypos := ypos - 1
  if unsigned ypos < unsigned (game.mapY + 12 * 5) ∧ game.mapY > 6 then
    let mapY := unsigned (game.mapY - 1)
    let view := setViewWindow game.view game.mapX mapY
    (ypos, { game with mapY := mapY, view := (drawHorizLine game.scene 0 view).2 })
  else (ypos, game)

/-- `move_right`. -/
def moveRight (xpos : Int) (game : Game) : Int × Game :=
  let xpos := xpos + 1
  if unsigned xpos > unsigned (game.mapX + 320 - 12 * (5 + 1)) ∧
      unsigned (game.mapX + 320) < unsigned ((2 * game.mazeXDim + 1) * 12 - 6) then
    let mapX := unsigned (game.mapX + 1)
    let view := setViewWindow game.view mapX game.mapY
    (xpos, { game with mapX := mapX, view := (drawVertLine game.scene (320 - 1) view).2 })
  else (xpos, game)

/-- `move_down`. -/
def moveDown (ypos : Int) (game : Game) : Int × Game :=
  let ypos := ypos + 1
  if unsigned ypos > unsigned (game.mapY + 182 - 12 * (5 + 1)) ∧
      unsigned (game.mapY + 182) < unsigned ((2 * game.mazeYDim + 1) * 12 - 6) then
    let mapY := unsigned (game.mapY + 1)
    let view := setViewWindow game.view game.mapX mapY
    (ypos, { game with mapY := mapY, view := (drawHorizLine game.scene (182 - 1) view).2 })
  else (ypos, game)

/-- `move_left`. -/
def moveLeft (xpos : Int) (game : Game) : Int × Game :=
  let xpos := xpos - 1
  if unsigned xpos < unsigned (game.mapX + 12 * 5) ∧ game.mapX > 6 then
    let mapX := unsigned (game.mapX - 1)
    let view := setViewWindow game.view mapX game.mapY
    (xpos, { game with mapX := mapX, view := (drawVertLine game.scene 0 view).2 })
  else (xpos, game)

end Game

/-- A move, with the player's coordinate before it. -/
inductive Move where
  | up (ypos : Int)
  | right (xpos : Int)
  | down (ypos : Int)
  | left (xpos : Int)
  deriving DecidableEq, Repr

/-- The game after a move. -/
def Game.move (game : Game) : Move → Game
  | .up ypos => (game.moveUp ypos).2
  | .right xpos => (game.moveRight xpos).2
  | .down ypos => (game.moveDown ypos).2
  | .left xpos => (game.moveLeft xpos).2

def MoveStep (before : Game) (move : Move) (after : Game) : Prop :=
  after = before.move move

/-! ## The invariant -/

/-- The window shows the picture at each of its pixels. -/
def View.Current (scene : Scene) (view : View) : Prop :=
  ∀ x y, view.InWindow x y → view.Shows scene x y

/-- The window is at the position of the game, within the maze, and shows the picture. -/
structure Game.Displayed (game : Game) : Prop where
  width : 14 ≤ game.mazeXDim ∧ game.mazeXDim ≤ 50
  height : 8 ≤ game.mazeYDim ∧ game.mazeYDim ≤ 30
  showX : game.view.showX = game.mapX
  showY : game.view.showY = game.mapY
  columns : 6 ≤ game.mapX ∧ game.mapX + 320 ≤ (2 * game.mazeXDim + 1) * 12 - 6
  rows : 6 ≤ game.mapY ∧ game.mapY + 182 ≤ (2 * game.mazeYDim + 1) * 12 - 6
  current : game.view.Current game.scene

section

variable {scene : Scene} {view after : View} {game : Game} {x y : Int}

/-- A window that has moved shows the picture again once the pixels that came into view
have been drawn. -/
theorem View.Current.moved {onLine : Int → Int → Prop} (current : view.Current scene)
    {scrX scrY : Int} (drawn : Drawn scene onLine (setViewWindow view scrX scrY) after)
    (seen : ∀ x y, (setViewWindow view scrX scrY).InWindow x y → ¬ onLine x y →
      view.InWindow x y) : after.Current scene := by
  intro x y pixel
  have inside : (setViewWindow view scrX scrY).InWindow x y := by
    simpa only [View.InWindow, drawn.showX, drawn.showY] using pixel
  by_cases on : onLine x y
  · exact drawn.line x y inside on
  · have before := seen x y inside on
    calc after.build (after.address x y)
        = (setViewWindow view scrX scrY).build ((setViewWindow view scrX scrY).address x y) :=
          drawn.rest x y inside on
      _ = view.build (view.address x y) := setViewWindow_keeps before inside
      _ = scene.pixel x y := current x y before

/-- Drawing rows leaves them as in the picture, and the window where it is. -/
theorem drawRows_shows (scene : Scene) (right : 0 ≤ view.showX) (below : 0 ≤ view.showY)
    {count : Nat} (bound : count ≤ 182) :
    (drawRows scene count view).showX = view.showX ∧
      (drawRows scene count view).showY = view.showY ∧
      ∀ x y, view.InWindow x y → y < view.showY + count →
        (drawRows scene count view).Shows scene x y := by
  induction count with
  | zero =>
      refine ⟨rfl, rfl, ?_⟩
      intro x y pixel above
      simp only [View.InWindow] at pixel
      omega
  | succ count ih =>
      obtain ⟨showX, showY, shows⟩ := ih (by omega)
      have drawn := drawHorizLine_drawn (y := count) scene (drawRows scene count view)
        (by omega) (by omega) (by omega) (by omega)
      have next : drawRows scene (count + 1) view =
          (drawHorizLine scene count (drawRows scene count view)).2 := by
        simp [drawRows, List.range_succ]
      rw [next]
      refine ⟨drawn.showX.trans showX, drawn.showY.trans showY, ?_⟩
      intro x y pixel above
      have inside : (drawRows scene count view).InWindow x y := by
        simpa only [View.InWindow, showX, showY] using pixel
      by_cases on : y = count + (drawRows scene count view).showY
      · exact drawn.line x y inside on
      · exact (drawn.rest x y inside on).trans (shows x y pixel (by omega))

/-- Drawing every row shows the picture in the whole window. -/
theorem drawRows_current (scene : Scene) (right : 0 ≤ view.showX) (below : 0 ≤ view.showY) :
    (drawRows scene 182 view).Current scene := by
  obtain ⟨showX, showY, shows⟩ := drawRows_shows scene right below (Nat.le_refl 182)
  intro x y pixel
  rw [View.InWindow, showX, showY] at pixel
  exact shows x y pixel pixel.2.2.2

/-- A level starts with the picture displayed. -/
theorem prepareMazeLevel_displayed {level nFruits : Int} {cells blocks : Int → UInt8}
    {stack : Nat → UInt8}
    (prepared : prepareMazeLevel level cells nFruits blocks stack view = some game) :
    game.Displayed := by
  simp only [prepareMazeLevel] at prepared
  split at prepared
  next valid =>
    obtain rfl := Option.some.inj prepared
    simp only [ValidSize] at valid
    have right : (setViewWindow view 6 6).showX = 6 := setViewWindow_showX ..
    have below : (setViewWindow view 6 6).showY = 6 := setViewWindow_showY ..
    let scene : Scene := ⟨⟨cells, levelDim 14 50 (level - 1), levelDim 8 30 (level - 1), nFruits⟩,
      blocks, stack⟩
    have nonneg : 0 ≤ (setViewWindow view 6 6).showX := by omega
    have nonneg' : 0 ≤ (setViewWindow view 6 6).showY := by omega
    obtain ⟨showX, showY, -⟩ := drawRows_shows scene nonneg nonneg' (Nat.le_refl 182)
    constructor
    case width | height | columns | rows =>
      simp only
      omega
    case showX => exact showX.trans right
    case showY => exact showY.trans below
    case current =>
      have drawn := drawRows_current scene nonneg nonneg'
      simpa only using drawn
  · cases prepared

/-! ## One move -/

/-- Within the maze no conversion to `unsigned` changes a value. -/
theorem unsigned_of_small {value : Int} (low : 0 ≤ value) (high : value < 4294967296) :
    (unsigned value : Int) = value := by
  simp only [unsigned]
  omega

/-- A pan to another place in the maze that draws all that was not seen before keeps the
picture displayed. -/
theorem Game.Displayed.panned (displayed : game.Displayed) {mapX mapY : Nat}
    {onLine : Int → Int → Prop}
    (drawn : Drawn game.scene onLine (setViewWindow game.view mapX mapY) after)
    (columns : 6 ≤ mapX ∧ mapX + 320 ≤ (2 * game.mazeXDim + 1) * 12 - 6)
    (rows : 6 ≤ mapY ∧ mapY + 182 ≤ (2 * game.mazeYDim + 1) * 12 - 6)
    (seen : ∀ x y : Int, mapX ≤ x ∧ x < mapX + 320 ∧ mapY ≤ y ∧ y < mapY + 182 →
      ¬ onLine x y → game.mapX ≤ x ∧ x < game.mapX + 320 ∧ game.mapY ≤ y ∧
        y < game.mapY + 182) :
    Game.Displayed { game with mapX := mapX, mapY := mapY, view := after } where
  width := displayed.width
  height := displayed.height
  showX := drawn.showX.trans (setViewWindow_showX ..)
  showY := drawn.showY.trans (setViewWindow_showY ..)
  columns := columns
  rows := rows
  current := by
    apply displayed.current.moved drawn
    intro x y pixel off
    rw [View.InWindow, setViewWindow_showX, setViewWindow_showY] at pixel
    rw [View.InWindow, displayed.showX, displayed.showY]
    exact seen x y pixel off

/-- Every move keeps the picture displayed. -/
theorem Game.Displayed.move (displayed : game.Displayed) (move : Move) :
    (game.move move).Displayed := by
  have width := displayed.width
  have height := displayed.height
  have columns := displayed.columns
  have rows := displayed.rows
  cases move with
  | up ypos =>
      simp only [Game.move, Game.moveUp]
      split
      next pans =>
        have above : (unsigned (game.mapY - 1) : Int) = game.mapY - 1 :=
          unsigned_of_small (by omega) (by omega)
        have drawn := drawHorizLine_drawn (y := 0) game.scene
          (setViewWindow game.view game.mapX (unsigned (game.mapY - 1)))
        rw [setViewWindow_showX, setViewWindow_showY] at drawn
        refine displayed.panned (drawn (by omega) (by omega) (by omega) (by omega)) columns
          (by omega) ?_
        intro x y pixel off
        omega
      · exact displayed
  | right xpos =>
      simp only [Game.move, Game.moveRight]
      split
      next pans =>
        have right : (unsigned (game.mapX + 1) : Int) = game.mapX + 1 :=
          unsigned_of_small (by omega) (by omega)
        have edge : (unsigned (game.mapX + 320) : Int) = game.mapX + 320 :=
          unsigned_of_small (by omega) (by omega)
        have limit : (unsigned ((2 * game.mazeXDim + 1) * 12 - 6) : Int) =
            (2 * game.mazeXDim + 1) * 12 - 6 := unsigned_of_small (by omega) (by omega)
        have drawn := drawVertLine_drawn (x := 320 - 1) game.scene
          (setViewWindow game.view (unsigned (game.mapX + 1)) game.mapY)
        rw [setViewWindow_showX, setViewWindow_showY] at drawn
        refine displayed.panned (drawn (by omega) (by omega) (by omega) (by omega)) (by omega)
          rows ?_
        intro x y pixel off
        omega
      · exact displayed
  | down ypos =>
      simp only [Game.move, Game.moveDown]
      split
      next pans =>
        have below : (unsigned (game.mapY + 1) : Int) = game.mapY + 1 :=
          unsigned_of_small (by omega) (by omega)
        have edge : (unsigned (game.mapY + 182) : Int) = game.mapY + 182 :=
          unsigned_of_small (by omega) (by omega)
        have limit : (unsigned ((2 * game.mazeYDim + 1) * 12 - 6) : Int) =
            (2 * game.mazeYDim + 1) * 12 - 6 := unsigned_of_small (by omega) (by omega)
        have drawn := drawHorizLine_drawn (y := 182 - 1) game.scene
          (setViewWindow game.view game.mapX (unsigned (game.mapY + 1)))
        rw [setViewWindow_showX, setViewWindow_showY] at drawn
        refine displayed.panned (drawn (by omega) (by omega) (by omega) (by omega)) columns
          (by omega) ?_
        intro x y pixel off
        omega
      · exact displayed
  | left xpos =>
      simp only [Game.move, Game.moveLeft]
      split
      next pans =>
        have left : (unsigned (game.mapX - 1) : Int) = game.mapX - 1 :=
          unsigned_of_small (by omega) (by omega)
        have drawn := drawVertLine_drawn (x := 0) game.scene
          (setViewWindow game.view (unsigned (game.mapX - 1)) game.mapY)
        rw [setViewWindow_showX, setViewWindow_showY] at drawn
        refine displayed.panned (drawn (by omega) (by omega) (by omega) (by omega)) (by omega)
          rows ?_
        intro x y pixel off
        omega
      · exact displayed

theorem MoveStep.displayed {before after : Game} {move : Move} (step : MoveStep before move after)
    (displayed : before.Displayed) : after.Displayed := by
  rw [step]
  exact displayed.move move

/-- So the picture is displayed after any moves. -/
theorem Game.Displayed.run {moves : List Move} {last : Game} (displayed : game.Displayed)
    (run : Run MoveStep game moves last) : last.Displayed :=
  run.invariant Game.Displayed (fun _ _ _ displayed step => step.displayed displayed) displayed

end

section

variable {game last : Game}

/-- The maze and the images are fixed while the player moves. -/
theorem Game.move_scene (game : Game) (move : Move) : (game.move move).scene = game.scene := by
  cases move with
  | up ypos =>
      simp only [Game.move, moveUp]
      split <;> rfl
  | right xpos =>
      simp only [Game.move, moveRight]
      split <;> rfl
  | down ypos =>
      simp only [Game.move, moveDown]
      split <;> rfl
  | left xpos =>
      simp only [Game.move, moveLeft]
      split <;> rfl

theorem scene_of_run {moves : List Move} (run : Run MoveStep game moves last) :
    last.scene = game.scene := by
  refine run.invariant (fun last => last.scene = game.scene) ?_ rfl
  intro before move after same step
  rw [step, Game.move_scene, same]

theorem prepareMazeLevel_blocks {level nFruits : Int} {cells blocks : Int → UInt8}
    {stack : Nat → UInt8} {view : View}
    (prepared : prepareMazeLevel level cells nFruits blocks stack view = some game) :
    game.scene.maze.cells = cells ∧ game.scene.blocks = blocks := by
  simp only [prepareMazeLevel] at prepared
  split at prepared
  · rw [← Option.some.inj prepared]
    exact ⟨rfl, rfl⟩
  · cases prepared

end

/-- After the initial drawing of a level and any moves each byte of the window is the pixel
of the block that `find_block` chooses there, as it is after drawing the window again. -/
theorem pans_match_redraw {level nFruits : Int} {cells blocks : Int → UInt8}
    {stack : Nat → UInt8} {view : View} {game last : Game} {moves : List Move}
    (prepared : prepareMazeLevel level cells nFruits blocks stack view = some game)
    (run : Run MoveStep game moves last) {x y : Int} (pixel : last.view.InWindow x y) :
    game.scene.maze.cells = cells ∧
      last.view.build (last.view.address x y) =
        blocks (findBlock game.scene.maze (x / 12) (y / 12) + y % 12 * 12 + x % 12) ∧
      (drawRows last.scene 182 last.view).build
          ((drawRows last.scene 182 last.view).address x y) =
        last.view.build (last.view.address x y) := by
  have displayed := (prepareMazeLevel_displayed prepared).run run
  obtain ⟨cells_eq, blocks_eq⟩ := prepareMazeLevel_blocks prepared
  have shown : last.view.Shows last.scene x y := displayed.current x y pixel
  have nonneg : 0 ≤ last.view.showX := by
    rw [displayed.showX]
    omega
  have nonneg' : 0 ≤ last.view.showY := by
    rw [displayed.showY]
    omega
  have redrawn := (drawRows_shows last.scene nonneg nonneg' (Nat.le_refl 182)).2.2 x y pixel
    pixel.2.2.2
  refine ⟨cells_eq, ?_, redrawn.trans shown.symm⟩
  rw [shown, scene_of_run run, Scene.pixel, blocks_eq]

/-- The player goes right past the pan border of the first level. -/
theorem pans_match_redraw_right :
    ∃ game, prepareMazeLevel 1 (fun _ => 1) 0 (fun _ => 7) (fun _ => 0) (setModeX fun _ => 0) =
        some game ∧
      game.mapX = 6 ∧ (game.move (.right 300)).mapX = 7 ∧
      (game.move (.right 300)).view.build ((game.move (.right 300)).view.address 326 20) = 7 := by
  obtain ⟨game, prepared, mapX, mapY, width⟩ : ∃ game,
      prepareMazeLevel 1 (fun _ => 1) 0 (fun _ => 7) (fun _ => 0) (setModeX fun _ => 0) =
        some game ∧ game.mapX = 6 ∧ game.mapY = 6 ∧ game.mazeXDim = 14 :=
    ⟨_, rfl, rfl, rfl, rfl⟩
  have run : Run MoveStep game [.right 300] (game.move (.right 300)) := .single rfl
  have displayed := (prepareMazeLevel_displayed prepared).run run
  have moved : (game.move (.right 300)).mapX = 7 ∧ (game.move (.right 300)).mapY = 6 := by
    simp [Game.move, Game.moveRight, mapX, mapY, width, unsigned]
  have pixel : (game.move (.right 300)).view.InWindow 326 20 := by
    rw [View.InWindow, displayed.showX, displayed.showY, moved.1, moved.2]
    omega
  exact ⟨game, prepared, mapX, moved.1, (pans_match_redraw prepared run pixel).2.1⟩

end Ece391.ModeX
