import Ece391.ModeX.Level

/-!
# The player in the view window

The four moves pan the window when the player comes within five squares of an edge that is
not at the edge of the maze.  Along each axis the window then stays inside the maze, and the
player is either away from the border on the side it pans to or the window is at its limit.
The player's block, which cannot leave the maze, is therefore always inside the window.
-/

namespace Ece391.ModeX

open Ece391.Library

/-! ## One axis -/

/-- A window of some size that follows a position, up to a limit. -/
structure Tracked (size limit map pos : Int) : Prop where
  low : 6 ≤ map
  high : map + size ≤ limit
  near : map = 6 ∨ map + 60 ≤ pos
  far : pos ≤ map + size - 72 ∨ limit ≤ map + size

section

variable {size limit map pos : Int}

/-- A move towards 0.  The code compares unsigned integers. -/
theorem Tracked.back (tracked : Tracked size limit map pos) (roomy : 132 ≤ size)
    (small : limit < 4294967296) (inside : 12 ≤ pos ∧ pos < 4294967296) :
    Tracked size limit
      (if unsigned (pos - 1) < unsigned (map + 12 * 5) ∧ map > 6 then (unsigned (map - 1) : Int)
        else map)
      (pos - 1) := by
  obtain ⟨low, high, near, far⟩ := tracked
  have next : (unsigned (pos - 1) : Int) = pos - 1 := unsigned_of_small (by omega) (by omega)
  have border : (unsigned (map + 12 * 5) : Int) = map + 12 * 5 :=
    unsigned_of_small (by omega) (by omega)
  have moved : (unsigned (map - 1) : Int) = map - 1 := unsigned_of_small (by omega) (by omega)
  split <;> constructor <;> omega

/-- A move towards the limit. -/
theorem Tracked.forth (tracked : Tracked size limit map pos) (roomy : 132 ≤ size)
    (small : limit < 4294967296) (inside : 12 ≤ pos ∧ pos + 1 < 4294967296) :
    Tracked size limit
      (if unsigned (pos + 1) > unsigned (map + size - 12 * (5 + 1)) ∧
          unsigned (map + size) < unsigned limit then (unsigned (map + 1) : Int)
        else map)
      (pos + 1) := by
  obtain ⟨low, high, near, far⟩ := tracked
  have next : (unsigned (pos + 1) : Int) = pos + 1 := unsigned_of_small (by omega) (by omega)
  have border : (unsigned (map + size - 12 * (5 + 1)) : Int) = map + size - 12 * (5 + 1) :=
    unsigned_of_small (by omega) (by omega)
  have edge : (unsigned (map + size) : Int) = map + size :=
    unsigned_of_small (by omega) (by omega)
  have last : (unsigned limit : Int) = limit := unsigned_of_small (by omega) (by omega)
  have moved : (unsigned (map + 1) : Int) = map + 1 := unsigned_of_small (by omega) (by omega)
  split <;> constructor <;> omega

/-- A block inside the limits is inside the window. -/
theorem Tracked.visible (tracked : Tracked size limit map pos) (left : 12 ≤ pos)
    (right : pos + 18 ≤ limit) : map ≤ pos ∧ pos + 12 ≤ map + size := by
  obtain ⟨low, high, near, far⟩ := tracked
  omega

end

/-! ## The four moves -/

/-- A player in a game. -/
structure Walk where
  game : Game
  playX : Int
  playY : Int

/-- The move in a direction. -/
def Walk.move (walk : Walk) : Direction → Walk
  | .up =>
      let moved := walk.game.moveUp walk.playY
      { walk with playY := moved.1, game := moved.2 }
  | .right =>
      let moved := walk.game.moveRight walk.playX
      { walk with playX := moved.1, game := moved.2 }
  | .down =>
      let moved := walk.game.moveDown walk.playY
      { walk with playY := moved.1, game := moved.2 }
  | .left =>
      let moved := walk.game.moveLeft walk.playX
      { walk with playX := moved.1, game := moved.2 }
  | .stop => walk

/-- The player's block does not overlap a wall. -/
def Walk.Clear (walk : Walk) : Prop :=
  ∀ i j, 0 ≤ i → i < 12 → 0 ≤ j → j < 12 →
    walk.game.scene.maze.point ((walk.playX + i) / 12) ((walk.playY + j) / 12) &&& mazeWall = 0

/-- A legal move. -/
def WalkStep (before : Walk) (dir : Direction) (after : Walk) : Prop :=
  after = before.move dir ∧ after.Clear

/-- The window follows the player, who is inside the boundary of the maze. -/
structure Walk.Followed (walk : Walk) : Prop where
  width : 14 ≤ walk.game.mazeXDim ∧ walk.game.mazeXDim ≤ 50
  height : 8 ≤ walk.game.mazeYDim ∧ walk.game.mazeYDim ≤ 30
  showX : walk.game.view.showX = walk.game.mapX
  showY : walk.game.view.showY = walk.game.mapY
  horizontal : Tracked 320 ((2 * walk.game.mazeXDim + 1) * 12 - 6) walk.game.mapX walk.playX
  vertical : Tracked 182 ((2 * walk.game.mazeYDim + 1) * 12 - 6) walk.game.mapY walk.playY
  insideX : 12 ≤ walk.playX ∧ walk.playX ≤ (2 * walk.game.mazeXDim - 1) * 12
  insideY : 12 ≤ walk.playY ∧ walk.playY ≤ (2 * walk.game.mazeYDim - 1) * 12

section

variable {game : Game} {walk : Walk} {scene : Scene} {x y : Int} {view : View}

@[simp] theorem drawHorizLine_showX : (drawHorizLine scene y view).2.showX = view.showX := by
  rw [drawHorizLine]
  split <;> rfl

@[simp] theorem drawHorizLine_showY : (drawHorizLine scene y view).2.showY = view.showY := by
  rw [drawHorizLine]
  split <;> rfl

@[simp] theorem drawVertLine_showX : (drawVertLine scene x view).2.showX = view.showX := by
  rw [drawVertLine]
  split <;> rfl

@[simp] theorem drawVertLine_showY : (drawVertLine scene x view).2.showY = view.showY := by
  rw [drawVertLine]
  split <;> rfl

/-- What a move does to the window and the player. -/
structure Walk.Moved (before after : Walk) : Prop where
  mazeXDim : after.game.mazeXDim = before.game.mazeXDim
  mazeYDim : after.game.mazeYDim = before.game.mazeYDim
  scene : after.game.scene = before.game.scene
  showX : after.game.view.showX = after.game.mapX
  showY : after.game.view.showY = after.game.mapY
  horizontal : Tracked 320 ((2 * before.game.mazeXDim + 1) * 12 - 6) after.game.mapX after.playX
  vertical : Tracked 182 ((2 * before.game.mazeYDim + 1) * 12 - 6) after.game.mapY after.playY

theorem Walk.Followed.move (followed : walk.Followed) (dir : Direction) :
    walk.Moved (walk.move dir) := by
  obtain ⟨width, height, showX, showY, horizontal, vertical, insideX, insideY⟩ := followed
  cases dir with
  | stop => exact ⟨rfl, rfl, rfl, showX, showY, horizontal, vertical⟩
  | up =>
      have tracked := vertical.back (by decide) (by omega) (by omega)
      simp only [Walk.move, Game.moveUp]
      split
      next pans =>
        rw [if_pos (by omega)] at tracked
        exact ⟨rfl, rfl, rfl, by simp, by simp, horizontal, tracked⟩
      next stays =>
        rw [if_neg (by omega)] at tracked
        exact ⟨rfl, rfl, rfl, showX, showY, horizontal, tracked⟩
  | right =>
      have tracked := horizontal.forth (by decide) (by omega) (by omega)
      simp only [Walk.move, Game.moveRight]
      split
      next pans =>
        rw [if_pos pans] at tracked
        exact ⟨rfl, rfl, rfl, by simp, by simp, tracked, vertical⟩
      next stays =>
        rw [if_neg stays] at tracked
        exact ⟨rfl, rfl, rfl, showX, showY, tracked, vertical⟩
  | down =>
      have tracked := vertical.forth (by decide) (by omega) (by omega)
      simp only [Walk.move, Game.moveDown]
      split
      next pans =>
        rw [if_pos pans] at tracked
        exact ⟨rfl, rfl, rfl, by simp, by simp, horizontal, tracked⟩
      next stays =>
        rw [if_neg stays] at tracked
        exact ⟨rfl, rfl, rfl, showX, showY, horizontal, tracked⟩
  | left =>
      have tracked := horizontal.back (by decide) (by omega) (by omega)
      simp only [Walk.move, Game.moveLeft]
      split
      next pans =>
        rw [if_pos (by omega)] at tracked
        exact ⟨rfl, rfl, rfl, by simp, by simp, tracked, vertical⟩
      next stays =>
        rw [if_neg (by omega)] at tracked
        exact ⟨rfl, rfl, rfl, showX, showY, tracked, vertical⟩

theorem Walk.move_coordinates (walk : Walk) (dir : Direction) :
    (walk.move dir).playX = walk.playX + dir.dx ∧ (walk.move dir).playY = walk.playY + dir.dy := by
  obtain ⟨up, -, down, -⟩ := walk.game.moves_coordinate walk.playY
  obtain ⟨-, right, -, left⟩ := walk.game.moves_coordinate walk.playX
  cases dir with
  | stop => simp [Walk.move, Direction.dx, Direction.dy]
  | up => exact ⟨(Int.add_zero _).symm, up⟩
  | down => exact ⟨(Int.add_zero _).symm, down⟩
  | left => exact ⟨left, (Int.add_zero _).symm⟩
  | right => exact ⟨right, (Int.add_zero _).symm⟩

/-- A legal move does not take the player over the boundary. -/
theorem Walk.Followed.step {dir : Direction} {after : Walk} (followed : walk.Followed)
    (columns : walk.game.scene.maze.xDim = walk.game.mazeXDim)
    (rows : walk.game.scene.maze.yDim = walk.game.mazeYDim)
    (fenced : walk.game.scene.maze.Fenced) (step : WalkStep walk dir after) :
    after.Followed := by
  obtain ⟨rfl, clear⟩ := step
  obtain ⟨mazeXDim, mazeYDim, scene, showX, showY, horizontal, vertical⟩ := followed.move dir
  obtain ⟨playX, playY⟩ := walk.move_coordinates dir
  have width := followed.width
  have height := followed.height
  have insideX := followed.insideX
  have insideY := followed.insideY
  have axis := dir.axis
  rw [Walk.Clear, scene] at clear
  have first := fenced.inside (by omega) (by omega) (by omega) (by omega) (by omega)
    (clear 0 0 (by decide) (by decide) (by decide) (by decide))
  have last := fenced.inside (by omega) (by omega) (by omega) (by omega) (by omega)
    (clear 11 11 (by decide) (by decide) (by decide) (by decide))
  have firstColumn := first.column
  have firstRow := first.row
  have lastColumn := last.column
  have lastRow := last.row
  constructor
  case width => exact mazeXDim.symm ▸ width
  case height => exact mazeYDim.symm ▸ height
  case showX => exact showX
  case showY => exact showY
  case horizontal => exact mazeXDim.symm ▸ horizontal
  case vertical => exact mazeYDim.symm ▸ vertical
  case insideX =>
    rw [mazeXDim]
    omega
  case insideY =>
    rw [mazeYDim]
    omega

/-- The player's block is inside the window. -/
theorem Walk.Followed.visible (followed : walk.Followed) :
    (walk.game.mapX ≤ walk.playX ∧ walk.playX + 12 ≤ walk.game.mapX + 320) ∧
      walk.game.mapY ≤ walk.playY ∧ walk.playY + 12 ≤ walk.game.mapY + 182 := by
  have insideX := followed.insideX
  have insideY := followed.insideY
  exact ⟨followed.horizontal.visible insideX.1 (by omega),
    followed.vertical.visible insideY.1 (by omega)⟩

/-- A prepared level is followed from (12, 12). -/
theorem prepareMazeLevel_followed {level nFruits : Int} {cells blocks : Int → UInt8}
    {stack : Nat → UInt8}
    (prepared : prepareMazeLevel level cells nFruits blocks stack view = some game) :
    (⟨game, 12, 12⟩ : Walk).Followed ∧ game.scene.maze.xDim = game.mazeXDim ∧
      game.scene.maze.yDim = game.mazeYDim := by
  have displayed := prepareMazeLevel_displayed prepared
  have width := displayed.width
  have height := displayed.height
  simp only [prepareMazeLevel] at prepared
  split at prepared
  · obtain rfl := Option.some.inj prepared
    refine ⟨⟨width, height, displayed.showX, displayed.showY, ?_, ?_, ?_, ?_⟩, rfl, rfl⟩
    · constructor <;> simp only at width ⊢ <;> omega
    · constructor <;> simp only at height ⊢ <;> omega
    · simp only at width ⊢
      omega
    · simp only at height ⊢
      omega
  · cases prepared

end

theorem openRoom_clear {x y : Int} (left : 0 < x) (right : x < 28) (above : 0 < y)
    (below : y < 16) : openRoom.point x y &&& mazeWall = 0 := by
  have open' : openRoom.point x y = 0 := by
    simp only [Maze.point, openRoom]
    rw [if_neg (by omega)]
  rw [open']
  decide

/-- After any legal moves from (12, 12) in a prepared level with its boundary the window is in
the maze and contains the player's block, so that nothing is clipped when the block is
drawn. -/
theorem player_stays_in_window {level nFruits : Int} {cells blocks : Int → UInt8}
    {stack : Nat → UInt8} {view : View} {game : Game} {dirs : List Direction} {last : Walk}
    (prepared : prepareMazeLevel level cells nFruits blocks stack view = some game)
    (fenced : game.scene.maze.Fenced) (run : Run WalkStep ⟨game, 12, 12⟩ dirs last) :
    (6 ≤ last.game.mapX ∧ last.game.mapX + 320 ≤ (2 * game.mazeXDim + 1) * 12 - 6) ∧
    (6 ≤ last.game.mapY ∧ last.game.mapY + 182 ≤ (2 * game.mazeYDim + 1) * 12 - 6) ∧
    (last.game.view.showX = last.game.mapX ∧ last.game.view.showY = last.game.mapY) ∧
    (last.game.mapX ≤ last.playX ∧ last.playX + 12 ≤ last.game.mapX + 320) ∧
    (last.game.mapY ≤ last.playY ∧ last.playY + 12 ≤ last.game.mapY + 182) ∧
    clip last.game.view last.playX last.playY = some ⟨last.playX, last.playY, 0, 12, 12, 0⟩ := by
  obtain ⟨initial, columns, rows⟩ := prepareMazeLevel_followed prepared
  have holds := run.invariant
    (fun walk => walk.Followed ∧ walk.game.scene = game.scene ∧
      walk.game.mazeXDim = game.mazeXDim ∧ walk.game.mazeYDim = game.mazeYDim)
    (fun before dir after holds step => by
      obtain ⟨followed, scene, mazeXDim, mazeYDim⟩ := holds
      have moved := followed.move dir
      rw [← step.1] at moved
      refine ⟨followed.step ?_ ?_ (scene ▸ fenced) step, moved.scene.trans scene,
        moved.mazeXDim.trans mazeXDim, moved.mazeYDim.trans mazeYDim⟩
      · rw [scene, columns, mazeXDim]
      · rw [scene, rows, mazeYDim])
    ⟨initial, rfl, rfl, rfl⟩
  obtain ⟨followed, -, mazeXDim, mazeYDim⟩ := holds
  have horizontal := followed.horizontal
  have vertical := followed.vertical
  rw [mazeXDim] at horizontal
  rw [mazeYDim] at vertical
  obtain ⟨visibleX, visibleY⟩ := followed.visible
  have showX := followed.showX
  have showY := followed.showY
  refine ⟨⟨?_, horizontal.high⟩, ⟨?_, vertical.high⟩, ⟨showX, showY⟩, visibleX, visibleY, ?_⟩
  · have low := horizontal.low
    omega
  · have low := vertical.low
    omega
  · exact clip_inside (by omega) (by omega) (by omega) (by omega)

/-- The player goes right in the room. -/
theorem player_stays_in_window_right :
    ∃ game last, prepareMazeLevel 1 openRoom.cells 0 (fun _ => 7) (fun _ => 0)
        (setModeX fun _ => 0) = some game ∧
      Run WalkStep ⟨game, 12, 12⟩ [.right] last ∧
      clip last.game.view last.playX last.playY =
        some ⟨last.playX, last.playY, 0, 12, 12, 0⟩ := by
  obtain ⟨game, prepared, maze⟩ : ∃ game, prepareMazeLevel 1 openRoom.cells 0 (fun _ => 7)
      (fun _ => 0) (setModeX fun _ => 0) = some game ∧ game.scene.maze = openRoom :=
    ⟨_, rfl, rfl⟩
  have start : (⟨game, 12, 12⟩ : Walk).Followed := (prepareMazeLevel_followed prepared).1
  have step : WalkStep ⟨game, 12, 12⟩ .right (Walk.move ⟨game, 12, 12⟩ .right) := by
    refine ⟨rfl, fun i j left right above below => ?_⟩
    obtain ⟨playX, playY⟩ := Walk.move_coordinates ⟨game, 12, 12⟩ .right
    simp only [Direction.dx, Direction.dy] at playX playY
    rw [(start.move .right).scene, maze]
    exact openRoom_clear (by omega) (by omega) (by omega) (by omega)
  refine ⟨game, _, prepared, .single step, ?_⟩
  exact (player_stays_in_window prepared (maze ▸ openRoom_fenced) (.single step)).2.2.2.2.2

/-! ## The level loop -/

section

variable {level : Level} {board : Board} {x y : Int}

theorem unveilSpace_window (board : Board) (x y : Int) :
    (board.unveilSpace x y).view.showX = board.view.showX ∧
      (board.unveilSpace x y).view.showY = board.view.showY := by
  simp only [Board.unveilSpace]
  split
  · exact ⟨rfl, rfl⟩
  · split
    · exact ⟨rfl, rfl⟩
    · exact ⟨drawFullBlock_showX, drawFullBlock_showY⟩

theorem checkForFruit_window (board : Board) (x y : Int) :
    (board.checkForFruit x y).2.view.showX = board.view.showX ∧
      (board.checkForFruit x y).2.view.showY = board.view.showY := by
  simp only [Board.checkForFruit]
  split
  · exact ⟨rfl, rfl⟩
  · split
    · split <;> simp [Board.drawPoint, Board.withMaze]
    · exact ⟨rfl, rfl⟩

theorem unveilAroundPlayer_window (board : Board) (playX playY : Int) :
    (board.unveilAroundPlayer playX playY).2.view.showX = board.view.showX ∧
      (board.unveilAroundPlayer playX playY).2.view.showY = board.view.showY := by
  have unveiled (spaces : List (Int × Int)) (board : Board) :
      (spaces.foldl (fun board space => board.unveilSpace space.1 space.2) board).view.showX =
          board.view.showX ∧
        (spaces.foldl (fun board space => board.unveilSpace space.1 space.2) board).view.showY =
          board.view.showY := by
    induction spaces generalizing board with
    | nil => exact ⟨rfl, rfl⟩
    | cons space rest ih =>
        obtain ⟨showX, showY⟩ := unveilSpace_window board space.1 space.2
        exact ⟨(ih _).1.trans showX, (ih _).2.trans showY⟩
  obtain ⟨showX, showY⟩ := checkForFruit_window board (playX.tdiv 12) (playY.tdiv 12)
  exact ⟨(unveiled _ _).1.trans showX, (unveiled _ _).2.trans showY⟩

/-- The player of the level loop. -/
def Level.walk (level : Level) : Walk :=
  ⟨level.game, level.playX, level.playY⟩

/-- Two levels whose window and player are at the same place. -/
structure Level.SamePlace (before after : Level) : Prop where
  mazeXDim : after.game.mazeXDim = before.game.mazeXDim
  mazeYDim : after.game.mazeYDim = before.game.mazeYDim
  mapX : after.game.mapX = before.game.mapX
  mapY : after.game.mapY = before.game.mapY
  showX : after.game.view.showX = before.game.view.showX
  showY : after.game.view.showY = before.game.view.showY
  playX : after.playX = before.playX
  playY : after.playY = before.playY
  xDim : after.maze.xDim = before.maze.xDim
  yDim : after.maze.yDim = before.maze.yDim

theorem Level.SamePlace.refl (level : Level) : level.SamePlace level :=
  ⟨rfl, rfl, rfl, rfl, rfl, rfl, rfl, rfl, rfl, rfl⟩

theorem Level.turnBack_place (level : Level) (nextDir : Direction) :
    level.SamePlace (level.turnBack nextDir) := by
  simp only [Level.turnBack]
  split
  · exact ⟨rfl, rfl, rfl, rfl, rfl, rfl, rfl, rfl, rfl, rfl⟩
  · exact .refl level

theorem Level.unveiled_place (level : Level) : level.SamePlace level.unveiled := by
  have window := unveilAroundPlayer_window level.board level.playX level.playY
  exact ⟨rfl, rfl, rfl, rfl, window.1, window.2, rfl, rfl, level.unveiled_same.xDim,
    level.unveiled_same.yDim⟩

theorem Level.arrive_place (level : Level) (nextDir : Direction) (behind : Bool) :
    level.SamePlace (level.arrive nextDir behind) := by
  obtain ⟨mazeXDim, mazeYDim, mapX, mapY, showX, showY, playX, playY, xDim, yDim⟩ :=
    level.unveiled_place
  rcases level.arrive_cases nextDir behind with
    ⟨-, stays⟩ | ⟨-, ⟨screen, won⟩ | stays | ⟨dir, -, -, leaves⟩⟩
  · rw [stays]
    exact .refl level
  · rw [won]
    exact ⟨mazeXDim, mazeYDim, mapX, mapY, showX, showY, playX, playY, xDim, yDim⟩
  · rw [stays]
    exact ⟨mazeXDim, mazeYDim, mapX, mapY, showX, showY, playX, playY, xDim, yDim⟩
  · rw [leaves]
    exact ⟨mazeXDim, mazeYDim, mapX, mapY, showX, showY, playX, playY, xDim, yDim⟩

theorem Level.showPlayer_place (level : Level) : level.SamePlace level.showPlayer :=
  ⟨rfl, rfl, rfl, rfl, drawFullBlock_showX.trans drawMaskBlock_showX,
    drawFullBlock_showY.trans drawMaskBlock_showY, rfl, rfl, rfl, rfl⟩

/-- The window follows the player of the level loop. -/
structure Level.Followed (level : Level) : Prop where
  followed : level.walk.Followed
  columns : level.maze.xDim = level.game.mazeXDim
  rows : level.maze.yDim = level.game.mazeYDim

theorem Level.Followed.same {after : Level} (followed : level.Followed)
    (same : level.SamePlace after) : after.Followed := by
  obtain ⟨⟨width, height, showX, showY, horizontal, vertical, insideX, insideY⟩, columns, rows⟩ :=
    followed
  simp only [Level.walk] at width height showX showY horizontal vertical insideX insideY
  refine ⟨?_, ?_, ?_⟩
  · constructor <;> simp only [Level.walk, same.mazeXDim, same.mazeYDim, same.mapX, same.mapY,
      same.showX, same.showY, same.playX, same.playY] <;> assumption
  · rw [same.xDim, columns, same.mazeXDim]
  · rw [same.yDim, rows, same.mazeYDim]

/-- The move of a tick is a legal one. -/
theorem Level.Followed.advance (followed : level.Followed) (fenced : level.maze.Fenced)
    (moving : level.dir ≠ .stop) (advanced : level.advance.Approaches x y) :
    level.advance.Followed := by
  have moved : level.advance.walk = level.walk.move level.dir := by
    cases way : level.dir <;> simp only [Level.advance, Level.walk, Walk.move, way]
  have step : WalkStep level.walk level.dir level.advance.walk :=
    ⟨moved, fun i j left right above below => (advanced.block left right above below).clear⟩
  have kept := followed.followed.move level.dir
  rw [← moved] at kept
  have maze := (level.advance_spec moving).2.2.2.2
  refine ⟨followed.followed.step followed.columns followed.rows fenced step, ?_, ?_⟩
  · rw [maze, followed.columns]
    exact kept.mazeXDim.symm
  · rw [maze, followed.rows]
    exact kept.mazeYDim.symm

theorem Level.Followed.during (followed : level.Followed) (walks : level.Walks) (tick : Tick) :
    ∀ state ∈ level.during tick, state.Followed := by
  obtain ⟨fenced, x, y, approaches⟩ := walks
  obtain ⟨x', y', turned⟩ := approaches.turnBack tick.nextDir
  have fenced' : (level.turnBack tick.nextDir).maze.Fenced :=
    (level.turnBack_maze tick.nextDir).symm ▸ fenced
  obtain ⟨x'', y'', arrived⟩ := turned.arrive fenced' tick.nextDir tick.behind
  have fenced'' := (Level.arrive_same _ tick.nextDir tick.behind).fenced fenced'
  have onTurn := followed.same (level.turnBack_place tick.nextDir)
  have onArrival := onTurn.same (Level.arrive_place _ tick.nextDir tick.behind)
  simp only [Level.during, List.mem_cons, List.not_mem_nil, or_false]
  rintro state (rfl | rfl | rfl | rfl)
  · exact followed
  · exact onTurn
  · exact onArrival
  · simp only [Level.tick]
    split
    · exact onArrival
    next playing =>
      have shown := onArrival.same (Level.showPlayer_place _)
      split
      next moving =>
        have left := turned.arrive_moving (by simpa using playing) moving
        have advanced := arrived.showPlayer.advance moving left
        exact (shown.advance fenced'' moving advanced).same (Level.showPlayer_place _)
      · exact shown

end

/-- The level loop never draws a part of the player only: in all its states the player's block
is inside the window. -/
theorem level_player_unclipped {number nFruits exitX exitY : Int} {cells blocks : Int → UInt8}
    {stack : Nat → UInt8} {view : View} {game : Game} {screen : Screen}
    {oldValueBuf : Int → UInt8} {ticks : List Tick} {level state : Level} {tick : Tick}
    (prepared : prepareMazeLevel number cells nFruits blocks stack view = some game)
    (fenced : game.scene.maze.Fenced) (square : game.scene.maze.Square 1 1)
    (run : Run TickStep (Level.start game exitX exitY screen oldValueBuf) ticks level)
    (visited : state ∈ level.during tick) :
    clip state.game.view state.playX state.playY =
      some ⟨state.playX, state.playY, 0, 12, 12, 0⟩ := by
  obtain ⟨initial, columns, rows⟩ := prepareMazeLevel_followed prepared
  have entered : (Level.entered game exitX exitY screen oldValueBuf).Followed :=
    ⟨initial, columns, rows⟩
  have start := (entered.same (Level.unveiled_place _)).same (Level.showPlayer_place _)
  have holds := run.invariant (fun level => level.Walks ∧ level.Followed)
    (fun before tick after holds step => by
      have member : after ∈ before.during tick := by
        rw [step.2]
        simp [Level.during]
      exact ⟨holds.1.during tick after member, holds.2.during holds.1 tick after member⟩)
    ⟨Level.start_walks fenced square exitX exitY screen oldValueBuf, start⟩
  have followed := (holds.2.during holds.1 tick state visited).followed
  obtain ⟨visibleX, visibleY⟩ := followed.visible
  have showX := followed.showX
  have showY := followed.showY
  simp only [Level.walk] at visibleX visibleY showX showY
  exact clip_inside (by omega) (by omega) (by omega) (by omega)

end Ece391.ModeX
