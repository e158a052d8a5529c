import Ece391.Library.Sweep
import Ece391.ModeX.DrawBlocks

/-!
# The pixels of a block

Both drawing functions visit the visible pixels of a block, row by row.  `draw_full_block`
takes each pixel's image byte from the pixel's own place in the block.  `draw_mask_block`
counts the bytes of the mask and of the saved pixels from 0 instead, so that they fall out of
step with the image as soon as pixels are clipped on the left, above, or on the right before
another row.
-/

namespace Ece391.ModeX

open Ece391.Library

/-! ## Clipping -/

/-- The pixels of a block that lie in the window, by column and row of the block. -/
structure VisiblePixel (view : View) (posX posY column row : Int) : Prop where
  left : 0 ≤ column
  right : column < 12
  top : 0 ≤ row
  bottom : row < 12
  window : view.InWindow (posX + column) (posY + row)

/-- The clipped block is the part of the block in the window. -/
structure Clip.Spec (block : Clip) (view : View) (posX posY : Int) : Prop where
  startX : block.posX = max posX view.showX
  startY : block.posY = max posY view.showY
  image : block.blk = 12 * (block.posY - posY) + (block.posX - posX)
  width : block.xRight = min (posX + 12) (view.showX + 320) - block.posX
  height : block.yBottom = min (posY + 12) (view.showY + 182) - block.posY
  skip : block.xLeft = 12 - block.xRight
  columns : 0 < block.xRight
  rows : 0 < block.yBottom

section

variable {view : View} {posX posY : Int} {block : Clip}

theorem clip_spec (clipped : clip view posX posY = some block) : block.Spec view posX posY := by
  rw [clip] at clipped
  split at clipped
  · cases clipped
  next shown =>
    have xLeft : (if view.showX - posX < 0 then 0 else view.showX - posX) =
        max posX view.showX - posX := by
      split <;> omega
    have yTop : (if view.showY - posY < 0 then 0 else view.showY - posY) =
        max posY view.showY - posY := by
      split <;> omega
    have xRight : (if view.showX + 320 - posX > 12 then 12 else view.showX + 320 - posX) =
        min (posX + 12) (view.showX + 320) - posX := by
      split <;> omega
    have yBottom : (if view.showY + 182 - posY > 12 then 12 else view.showY + 182 - posY) =
        min (posY + 12) (view.showY + 182) - posY := by
      split <;> omega
    simp only [xLeft, yTop, xRight, yBottom] at clipped
    obtain rfl := Option.some.inj clipped
    constructor <;> simp only <;> omega

theorem clip_none (clipped : clip view posX posY = none) {column row : Int} :
    ¬ VisiblePixel view posX posY column row := by
  rintro ⟨left, right, top, bottom, window⟩
  simp only [View.InWindow] at window
  rw [clip] at clipped
  split at clipped
  · omega
  · cases clipped

/-! ## The cells of the loops -/

/-- The cells of a clipped block, by row and column. -/
def Clip.cells (block : Clip) : List (Nat × Nat) :=
  List.range block.yBottom.toNat ×ˢ List.range block.xRight.toNat

/-- The loop variables at a cell, counted from a cursor. -/
def BlockCursor.cell (cursor : BlockCursor) (xRight : Int) (cell : Nat × Nat) : BlockCursor where
  posX := cursor.posX + cell.2
  posY := cursor.posY + cell.1
  blk := cursor.blk + (12 * cell.1 + cell.2)
  maskBlock := cursor.maskBlock + (xRight * cell.1 + cell.2)
  oldValueBuf := cursor.oldValueBuf + (xRight * cell.1 + cell.2)

section

variable {Memory : Type} (pixel : BlockCursor → Memory → Memory)

/-- The inner loop visits the cells of a row. -/
theorem drawColumns_eq (xRight : Int) (n : Nat) (cursor : BlockCursor) (memory : Memory) :
    drawColumns pixel n cursor memory =
      (cursor.cell xRight (0, n),
        (List.range n).foldl (fun memory dx => pixel (cursor.cell xRight (0, dx)) memory)
          memory) := by
  induction n generalizing cursor memory with
  | zero => simp [drawColumns, BlockCursor.cell]
  | succ n ih =>
      have start : cursor.cell xRight (0, 0) = cursor := by simp [BlockCursor.cell]
      have next (dx : Nat) : BlockCursor.cell
          { cursor with
            posX := cursor.posX + 1
            blk := cursor.blk + 1
            maskBlock := cursor.maskBlock + 1
            oldValueBuf := cursor.oldValueBuf + 1 } xRight (0, dx) =
          cursor.cell xRight (0, dx + 1) := by
        simp only [BlockCursor.cell, BlockCursor.mk.injEq, Nat.cast_zero, Int.mul_zero,
          Int.zero_add, true_and, Nat.cast_add, Nat.cast_one]
        omega
      rw [drawColumns, ih, List.range_succ_eq_map, List.foldl_cons, List.foldl_map, start]
      simp only [next]

/-- The outer loop visits the rows. -/
theorem drawRowsOf_eq {xRight xLeft : Int} (nonneg : 0 ≤ xRight) (sides : xRight + xLeft = 12)
    (n : Nat) (cursor : BlockCursor) (memory : Memory) :
    drawRowsOf pixel xRight xLeft n cursor memory =
      (List.range n).foldl
        (fun memory dy => (List.range xRight.toNat).foldl
          (fun memory dx => pixel (cursor.cell xRight (dy, dx)) memory) memory) memory := by
  induction n generalizing cursor memory with
  | zero => rfl
  | succ n ih =>
      have width : (xRight.toNat : Int) = xRight := Int.toNat_of_nonneg nonneg
      have next (dy dx : Nat) : BlockCursor.cell
          { cursor.cell xRight (0, xRight.toNat) with
            posX := (cursor.cell xRight (0, xRight.toNat)).posX - xRight
            posY := (cursor.cell xRight (0, xRight.toNat)).posY + 1
            blk := (cursor.cell xRight (0, xRight.toNat)).blk + xLeft } xRight (dy, dx) =
          cursor.cell xRight (dy + 1, dx) := by
        have step : xRight * ((dy : Int) + 1) = xRight * dy + xRight := by
          rw [Int.mul_add, Int.mul_one]
        simp only [BlockCursor.cell, BlockCursor.mk.injEq, width]
        push_cast
        rw [step]
        omega
      rw [drawRowsOf, drawColumns_eq pixel xRight, ih, List.range_succ_eq_map, List.foldl_cons,
        List.foldl_map]
      simp only [next]

/-- The loops visit the cells of the clipped block. -/
theorem drawClipped_cells (spec : block.Spec view posX posY) (memory : Memory) :
    drawClipped pixel block memory =
      block.cells.foldl
        (fun memory cell => pixel
          (BlockCursor.cell ⟨block.posX, block.posY, block.blk, 0, 0⟩ block.xRight cell) memory)
        memory := by
  have columns := spec.columns
  have skip := spec.skip
  rw [drawClipped, drawRowsOf_eq pixel (by omega) (by omega), Clip.cells, foldl_product]

end

theorem Clip.mem_cells {cell : Nat × Nat} :
    cell ∈ block.cells ↔ (cell.1 : Int) < block.yBottom ∧ (cell.2 : Int) < block.xRight := by
  obtain ⟨dy, dx⟩ := cell
  rw [Clip.cells, List.mem_product, List.mem_range, List.mem_range]
  omega

theorem Clip.cells_nodup (block : Clip) : block.cells.Nodup :=
  List.nodup_range.product List.nodup_range

/-- The byte of a cell in the build buffer. -/
def Clip.place (block : Clip) (view : View) (cell : Nat × Nat) : Int :=
  view.address (block.posX + cell.2) (block.posY + cell.1)

/-- The place of a cell in the image. -/
def Clip.imagePlace (block : Clip) (cell : Nat × Nat) : Int :=
  block.blk + (12 * cell.1 + cell.2)

/-- Its place in the mask and among the saved pixels. -/
def Clip.maskPlace (block : Clip) (cell : Nat × Nat) : Int :=
  block.xRight * cell.1 + cell.2

section

variable {build blk maskBlock oldValueBuf : Int → UInt8} {cell : Nat × Nat}

/-- The cells are the visible pixels. -/
theorem Clip.Spec.visible_iff (spec : block.Spec view posX posY) {column row : Int} :
    VisiblePixel view posX posY column row ↔
      ∃ cell ∈ block.cells, posX + column = block.posX + cell.2 ∧
        posY + row = block.posY + cell.1 := by
  obtain ⟨startX, startY, -, width, height, -, -, -⟩ := spec
  constructor
  · rintro ⟨left, right, top, bottom, window⟩
    simp only [View.InWindow] at window
    refine ⟨((posY + row - block.posY).toNat, (posX + column - block.posX).toNat), ?_, ?_, ?_⟩
    · rw [Clip.mem_cells]
      simp only
      omega
    · simp only
      omega
    · simp only
      omega
  · rintro ⟨cell, listed, atColumn, atRow⟩
    rw [Clip.mem_cells] at listed
    constructor
    case window =>
      simp only [View.InWindow]
      omega
    all_goals omega

/-- The image byte of a visible pixel is that of its place in the block. -/
theorem Clip.Spec.imagePlace (spec : block.Spec view posX posY) {column row : Int}
    (atColumn : posX + column = block.posX + cell.2) (atRow : posY + row = block.posY + cell.1) :
    block.imagePlace cell = 12 * row + column := by
  have image := spec.image
  rw [Clip.imagePlace]
  omega

/-- A byte of no visible pixel is the byte of no cell. -/
theorem Clip.Spec.elsewhere (spec : block.Spec view posX posY) {address : Int}
    (outside : ∀ column row, VisiblePixel view posX posY column row →
      view.address (posX + column) (posY + row) ≠ address) :
    ∀ cell ∈ block.cells, block.place view cell ≠ address := by
  intro cell listed
  have visible : VisiblePixel view posX posY (block.posX + cell.2 - posX)
      (block.posY + cell.1 - posY) :=
    spec.visible_iff.mpr ⟨cell, listed, by omega, by omega⟩
  have apart := outside _ _ visible
  have column : posX + (block.posX + cell.2 - posX) = block.posX + cell.2 := by omega
  have row : posY + (block.posY + cell.1 - posY) = block.posY + cell.1 := by omega
  rwa [column, row] at apart

/-- Distinct cells have distinct bytes. -/
theorem Clip.Spec.places_nodup (spec : block.Spec view posX posY) :
    (block.cells.map (block.place view)).Nodup := by
  obtain ⟨startX, startY, -, width, height, -, -, -⟩ := spec
  have pixel {cell : Nat × Nat} (listed : cell ∈ block.cells) :
      view.InWindow (block.posX + cell.2) (block.posY + cell.1) := by
    rw [Clip.mem_cells] at listed
    simp only [View.InWindow]
    omega
  refine List.Nodup.map_on ?_ block.cells_nodup
  intro cell listed other listed' same
  obtain ⟨column, row⟩ := address_injective (pixel listed) (pixel listed') same
  exact Prod.ext (by omega) (by omega)

/-- So do the places in the mask. -/
theorem Clip.maskPlaces_nodup (block : Clip) : (block.cells.map block.maskPlace).Nodup := by
  refine List.Nodup.map_on ?_ block.cells_nodup
  intro cell listed other listed' same
  rw [Clip.mem_cells] at listed listed'
  simp only [Clip.maskPlace] at same
  have row : cell.1 = other.1 := by
    rcases Nat.lt_trichotomy cell.1 other.1 with before | equal | behind
    · have product : block.xRight * ((cell.1 : Int) + 1) ≤ block.xRight * other.1 :=
        Int.mul_le_mul_of_nonneg_left (by omega) (by omega)
      rw [Int.mul_add] at product
      omega
    · exact equal
    · have product : block.xRight * ((other.1 : Int) + 1) ≤ block.xRight * cell.1 :=
        Int.mul_le_mul_of_nonneg_left (by omega) (by omega)
      rw [Int.mul_add] at product
      omega
  rw [row] at same
  exact Prod.ext row (by omega)

/-! ## Full blocks -/

/-- `draw_full_block` sweeps over the cells. -/
theorem drawFullBlock_sweep (clipped : clip view posX posY = some block) :
    (drawFullBlock posX posY blk view).build =
      sweep (block.place view) (fun cell _ => blk (block.imagePlace cell)) block.cells
        view.build := by
  simp only [drawFullBlock, clipped, drawClipped_cells _ (clip_spec clipped)]
  rfl

end

end

/-- `draw_full_block` gives every visible pixel the image byte of its own place in the block,
and changes no other byte of the build buffer. -/
theorem drawFullBlock_pixels (view : View) (posX posY : Int) (blk : Int → UInt8) :
    (∀ column row, VisiblePixel view posX posY column row →
      (drawFullBlock posX posY blk view).build (view.address (posX + column) (posY + row)) =
        blk (12 * row + column)) ∧
    ∀ address, (∀ column row, VisiblePixel view posX posY column row →
        view.address (posX + column) (posY + row) ≠ address) →
      (drawFullBlock posX posY blk view).build address = view.build address := by
  cases clipped : clip view posX posY with
  | none =>
      have same : drawFullBlock posX posY blk view = view := by rw [drawFullBlock, clipped]
      exact ⟨fun column row visible => absurd visible (clip_none clipped),
        fun address _ => by rw [same]⟩
  | some block =>
      have spec := clip_spec clipped
      rw [drawFullBlock_sweep clipped]
      constructor
      · intro column row visible
        obtain ⟨cell, listed, atColumn, atRow⟩ := spec.visible_iff.mp visible
        rw [atColumn, atRow, ← spec.imagePlace atColumn atRow]
        exact sweep_visited spec.places_nodup listed
      · intro address outside
        exact sweep_elsewhere (spec.elsewhere outside)

/-! ## Masked blocks -/

/-- What `draw_mask_block` is to do: the visible pixels whose mask byte at the same place of
the block is 1 show the image, nothing else changes, and drawing the saved pixels as a full
block restores the build buffer. -/
structure MaskedBlock (view : View) (posX posY : Int) (blk maskBlock oldValueBuf : Int → UInt8) :
    Prop where
  shown : ∀ column row, VisiblePixel view posX posY column row →
    (drawMaskBlock posX posY blk maskBlock oldValueBuf view).1.build
        (view.address (posX + column) (posY + row)) =
      if maskBlock (12 * row + column) = 1 then blk (12 * row + column)
      else view.build (view.address (posX + column) (posY + row))
  kept : ∀ address, (∀ column row, VisiblePixel view posX posY column row →
      view.address (posX + column) (posY + row) ≠ address) →
    (drawMaskBlock posX posY blk maskBlock oldValueBuf view).1.build address =
      view.build address
  restored :
    (drawFullBlock posX posY (drawMaskBlock posX posY blk maskBlock oldValueBuf view).2
      (drawMaskBlock posX posY blk maskBlock oldValueBuf view).1).build = view.build

/-- The mask and the saved pixels are counted in step with the image: the block is outside
the window, or it is clipped neither on the left nor above, and on the right only if no row
but its first is visible. -/
def MaskInStep (view : View) (posX posY : Int) : Prop :=
  (posX + 12 ≤ view.showX ∨ posX ≥ view.showX + 320 ∨ posY + 12 ≤ view.showY ∨
    posY ≥ view.showY + 182) ∨
  view.showX ≤ posX ∧ view.showY ≤ posY ∧
    (posX + 12 ≤ view.showX + 320 ∨ posY = view.showY + 181)

section

variable {view : View} {posX posY : Int} {block : Clip}
variable {blk maskBlock oldValueBuf : Int → UInt8}

/-- What `draw_mask_block` stores for a cell that held some byte. -/
def Clip.masked (block : Clip) (blk maskBlock : Int → UInt8) (cell : Nat × Nat) (old : UInt8) :
    UInt8 :=
  if maskBlock (block.maskPlace cell) = 1 then blk (block.imagePlace cell) else old

/-- `draw_mask_block` sweeps over the cells and saves what it covers. -/
theorem drawMaskBlock_sweep (clipped : clip view posX posY = some block) :
    drawMaskBlock posX posY blk maskBlock oldValueBuf view =
      let drawn := savingSweep (block.place view) (block.masked blk maskBlock) block.maskPlace
        block.cells (view.build, oldValueBuf)
      ({ view with build := drawn.1 }, drawn.2) := by
  rw [drawMaskBlock, clipped]
  refine congrArg (fun drawn : (Int → UInt8) × (Int → UInt8) =>
    (({ view with build := drawn.1 } : View), drawn.2)) ?_
  rw [drawClipped_cells _ (clip_spec clipped)]
  refine List.foldl_ext _ _ _ fun memory cell _ => ?_
  simp only [BlockCursor.cell, Int.zero_add]
  by_cases shown : maskBlock (block.maskPlace cell) = 1
  · rw [Clip.masked, if_pos shown]
    exact if_pos shown
  · rw [Clip.masked, if_neg shown, Function.update_eq_self]
    exact if_neg shown

theorem drawMaskBlock_build (clipped : clip view posX posY = some block) :
    (drawMaskBlock posX posY blk maskBlock oldValueBuf view).1.build =
      sweep (block.place view) (block.masked blk maskBlock) block.cells view.build := by
  rw [drawMaskBlock_sweep clipped]
  exact savingSweep_memory

/-- Each visible cell shows the image where the byte of the mask that the loop has reached
is 1. -/
theorem drawMaskBlock_cell (clipped : clip view posX posY = some block) {cell : Nat × Nat}
    (listed : cell ∈ block.cells) :
    (drawMaskBlock posX posY blk maskBlock oldValueBuf view).1.build (block.place view cell) =
      block.masked blk maskBlock cell (view.build (block.place view cell)) := by
  rw [drawMaskBlock_build clipped]
  exact sweep_visited (clip_spec clipped).places_nodup listed

/-- What it covered is where the loop's index of the saved pixels was. -/
theorem drawMaskBlock_saved (clipped : clip view posX posY = some block) {cell : Nat × Nat}
    (listed : cell ∈ block.cells) :
    (drawMaskBlock posX posY blk maskBlock oldValueBuf view).2 (block.maskPlace cell) =
      view.build (block.place view cell) := by
  rw [drawMaskBlock_sweep clipped]
  exact savingSweep_visited (clip_spec clipped).places_nodup block.maskPlaces_nodup listed

theorem clip_drawMaskBlock :
    clip (drawMaskBlock posX posY blk maskBlock oldValueBuf view).1 posX posY =
      clip view posX posY := by
  simp only [clip, drawMaskBlock_showX, drawMaskBlock_showY]

theorem place_drawMaskBlock (clipped : clip view posX posY = some block) :
    block.place (drawMaskBlock posX posY blk maskBlock oldValueBuf view).1 =
      block.place view := by
  rw [drawMaskBlock_sweep clipped]
  rfl

/-- The place of every cell in the mask is its place in the image. -/
def Clip.InStep (block : Clip) : Prop :=
  ∀ cell ∈ block.cells, block.maskPlace cell = block.imagePlace cell

/-- Drawing the saved pixels as a full block restores the build buffer. -/
theorem Clip.InStep.restored (inStep : block.InStep) (clipped : clip view posX posY = some block) :
    (drawFullBlock posX posY (drawMaskBlock posX posY blk maskBlock oldValueBuf view).2
      (drawMaskBlock posX posY blk maskBlock oldValueBuf view).1).build = view.build := by
  have spec := clip_spec clipped
  funext address
  rw [drawFullBlock_sweep (clip_drawMaskBlock.trans clipped), place_drawMaskBlock clipped]
  by_cases visited : ∃ cell ∈ block.cells, block.place view cell = address
  · obtain ⟨cell, listed, rfl⟩ := visited
    rw [sweep_visited spec.places_nodup listed, ← inStep cell listed,
      drawMaskBlock_saved clipped listed]
  · have elsewhere : ∀ cell ∈ block.cells, block.place view cell ≠ address :=
      fun cell listed same => visited ⟨cell, listed, same⟩
    rw [sweep_elsewhere elsewhere, drawMaskBlock_build clipped, sweep_elsewhere elsewhere]

theorem Clip.InStep.masked (inStep : block.InStep) (clipped : clip view posX posY = some block) :
    MaskedBlock view posX posY blk maskBlock oldValueBuf where
  shown := by
    intro column row visible
    have spec := clip_spec clipped
    obtain ⟨cell, listed, atColumn, atRow⟩ := spec.visible_iff.mp visible
    have cellShown :=
      @drawMaskBlock_cell _ _ _ _ blk maskBlock oldValueBuf clipped cell listed
    rw [Clip.masked, inStep cell listed, spec.imagePlace atColumn atRow] at cellShown
    rw [atColumn, atRow]
    exact cellShown
  kept := by
    intro address outside
    rw [drawMaskBlock_build clipped]
    exact sweep_elsewhere ((clip_spec clipped).elsewhere outside)
  restored := inStep.restored clipped

/-- A mask that is set for one cell only tells whether it is read where it should be. -/
theorem Clip.inStep_of_masked (clipped : clip view posX posY = some block)
    (masked : ∀ blk maskBlock, MaskedBlock view posX posY blk maskBlock oldValueBuf) :
    block.InStep := by
  intro cell listed
  by_contra apart
  obtain ⟨mask, only⟩ : ∃ mask : Int → UInt8, ∀ place, mask place = 1 ↔
      place = block.maskPlace cell :=
    ⟨fun place => if place = block.maskPlace cell then 1 else 0, by simp⟩
  have spec := clip_spec clipped
  have column : posX + (block.posX + cell.2 - posX) = block.posX + cell.2 := by omega
  have row : posY + (block.posY + cell.1 - posY) = block.posY + cell.1 := by omega
  -- The image differs everywhere from what the cell covers.
  have shown := (masked (fun _ => view.build (block.place view cell) + 1) mask).shown _ _
    (spec.visible_iff.mpr ⟨cell, listed, column, row⟩)
  have unset : mask (block.imagePlace cell) ≠ 1 := fun set => apart ((only _).mp set).symm
  rw [← spec.imagePlace column row, if_neg unset, column, row] at shown
  have cellShown := @drawMaskBlock_cell _ _ _ _ (fun _ => view.build (block.place view cell) + 1)
    mask oldValueBuf clipped cell listed
  rw [Clip.masked, if_pos ((only _).mpr rfl)] at cellShown
  have same : view.build (block.place view cell) + 1 = view.build (block.place view cell) :=
    cellShown.symm.trans shown
  simp at same

theorem Clip.Spec.inStep_iff (spec : block.Spec view posX posY) :
    block.InStep ↔ MaskInStep view posX posY := by
  obtain ⟨startX, startY, image, width, height, -, columns, rows⟩ := spec
  constructor
  · intro inStep
    have first := inStep (0, 0) (Clip.mem_cells.mpr ⟨rows, columns⟩)
    simp only [Clip.maskPlace, Clip.imagePlace] at first
    by_cases second : 1 < block.yBottom
    · have below := inStep (1, 0) (Clip.mem_cells.mpr ⟨second, columns⟩)
      simp only [Clip.maskPlace, Clip.imagePlace] at below
      simp only [MaskInStep]
      omega
    · simp only [MaskInStep]
      omega
  · intro inStep cell listed
    rw [Clip.mem_cells] at listed
    simp only [MaskInStep] at inStep
    simp only [Clip.maskPlace, Clip.imagePlace]
    by_cases whole : block.xRight = 12
    · rw [whole]
      omega
    · have top : cell.1 = 0 := by omega
      rw [top]
      omega

/-- Of a block outside the window nothing is drawn. -/
theorem masked_outside (clipped : clip view posX posY = none) :
    MaskedBlock view posX posY blk maskBlock oldValueBuf := by
  have same : drawMaskBlock posX posY blk maskBlock oldValueBuf view = (view, oldValueBuf) := by
    rw [drawMaskBlock, clipped]
  constructor
  · exact fun column row visible => absurd visible (clip_none clipped)
  · intro address _
    rw [same]
  · rw [same, drawFullBlock, clipped]

theorem maskInStep_outside (clipped : clip view posX posY = none) :
    MaskInStep view posX posY := by
  rw [clip] at clipped
  split at clipped
  next outside => exact .inl outside
  · cases clipped

end

/-- `draw_mask_block` shows every image by its mask, and leaves what restores the build
buffer, exactly at the positions where the mask stays in step with the image. -/
theorem drawMaskBlock_inStep (view : View) (posX posY : Int) (oldValueBuf : Int → UInt8) :
    (∀ blk maskBlock, MaskedBlock view posX posY blk maskBlock oldValueBuf) ↔
      MaskInStep view posX posY := by
  cases clipped : clip view posX posY with
  | none =>
      exact ⟨fun _ => maskInStep_outside clipped, fun _ _ _ => masked_outside clipped⟩
  | some block =>
      rw [← (clip_spec clipped).inStep_iff]
      exact ⟨Clip.inStep_of_masked clipped, fun inStep _ _ => inStep.masked clipped⟩

/-- A player whose left column is outside the window, with a mask that is set at one visible
pixel only: the pixel does not show it. -/
theorem drawMaskBlock_clipped_left :
    ¬ MaskedBlock ⟨13, 0, 10000, fun _ => 0⟩ 12 12 (fun _ => 1)
      (fun place => if place = 1 then 1 else 0) (fun _ => 0) := by
  intro masked
  have clipped : clip ⟨13, 0, 10000, fun _ => 0⟩ 12 12 = some ⟨13, 12, 1, 11, 12, 1⟩ := by
    simp [clip]
  have listed : (0, 0) ∈ Clip.cells ⟨13, 12, 1, 11, 12, 1⟩ := Clip.mem_cells.mpr (by simp)
  have shown := masked.shown 1 0
    ((clip_spec clipped).visible_iff.mpr ⟨(0, 0), listed, by simp, by simp⟩)
  have place : View.address ⟨13, 0, 10000, fun _ => 0⟩ (12 + 1) (12 + 0) =
      Clip.place ⟨13, 12, 1, 11, 12, 1⟩ ⟨13, 0, 10000, fun _ => 0⟩ (0, 0) := by
    simp [Clip.place]
  rw [place, drawMaskBlock_cell clipped listed] at shown
  simp [Clip.masked, Clip.maskPlace] at shown

end Ece391.ModeX
