import Adas.BoundedLoop

/-!
# Arrays in row-major order

A flat buffer holds an array of two or three dimensions with the last index
running fastest.  This file defines the flat position of a cell and the flat
buffer of an array independently of each other, the first with products and
sums and the second with quotients and remainders, and shows that they agree.
-/

namespace RowMajor

variable {Cell : Type*}

/-- The position of a cell of an array with three dimensions. -/
def index3 (columns planes row column plane : Nat) : Nat :=
  (row * columns + column) * planes + plane

/-- The position of a cell of an array with two dimensions. -/
def index2 (columns row column : Nat) : Nat :=
  row * columns + column

/-- The position of a cell of an array with four dimensions. -/
def index4 (columns planes cells row column plane cell : Nat) : Nat :=
  index2 cells (index3 columns planes row column plane) cell

/-- The flat buffer of an array with three dimensions. -/
def flatten3 (columns planes : Nat) (array : Nat → Nat → Nat → Cell) :
    Nat → Cell :=
  fun index =>
    array (index / planes / columns) (index / planes % columns) (index % planes)

/-- The flat buffer of an array with four dimensions. -/
def flatten4 (columns planes cells : Nat) (array : Nat → Nat → Nat → Nat → Cell) :
    Nat → Cell :=
  fun index =>
    flatten3 columns planes (fun row column plane => array row column plane
      (index % cells)) (index / cells)

/-- The flat buffer of an array with two dimensions. -/
def flatten2 (columns : Nat) (array : Nat → Nat → Cell) : Nat → Cell :=
  fun index => array (index / columns) (index % columns)

variable {rows columns planes row column plane : Nat}

/-- A position names its row and its column. -/
theorem index2_div_mod (row : Nat) (columnIn : column < columns) :
    index2 columns row column / columns = row ∧
      index2 columns row column % columns = column := by
  have positive : 0 < columns := by omega
  rw [index2, Nat.mul_comm]
  constructor
  · rw [Nat.mul_add_div positive, Nat.div_eq_of_lt columnIn, Nat.add_zero]
  · rw [Nat.mul_add_mod, Nat.mod_eq_of_lt columnIn]

theorem index3_eq_index2 :
    index3 columns planes row column plane =
      index2 planes (index2 columns row column) plane :=
  rfl

theorem index2_lt (rowIn : row < rows) (columnIn : column < columns) :
    index2 columns row column < rows * columns :=
  BoundedLoop.block_lane_lt rowIn columnIn

theorem index3_lt (rowIn : row < rows) (columnIn : column < columns)
    (planeIn : plane < planes) :
    index3 columns planes row column plane < rows * columns * planes :=
  index2_lt (index2_lt rowIn columnIn) planeIn

theorem index2_injective {otherRow otherColumn : Nat} (columnIn : column < columns)
    (otherIn : otherColumn < columns)
    (same : index2 columns row column = index2 columns otherRow otherColumn) :
    row = otherRow ∧ column = otherColumn :=
  BoundedLoop.block_lane_unique columnIn otherIn same

/-- Cells at different places have different positions. -/
theorem index3_injective {otherRow otherColumn otherPlane : Nat}
    (columnIn : column < columns) (planeIn : plane < planes)
    (otherColumnIn : otherColumn < columns) (otherPlaneIn : otherPlane < planes)
    (same : index3 columns planes row column plane =
      index3 columns planes otherRow otherColumn otherPlane) :
    row = otherRow ∧ column = otherColumn ∧ plane = otherPlane := by
  obtain ⟨samePixel, samePlane⟩ := index2_injective planeIn otherPlaneIn same
  obtain ⟨sameRow, sameColumn⟩ :=
    index2_injective columnIn otherColumnIn samePixel
  exact ⟨sameRow, sameColumn, samePlane⟩

/-- Every position is the one of the row and the column that it names. -/
theorem index2_of_div_mod (columns index : Nat) :
    index2 columns (index / columns) (index % columns) = index :=
  Nat.div_add_mod' index columns

theorem index3_of_div_mod (columns planes index : Nat) :
    index3 columns planes (index / planes / columns) (index / planes % columns)
      (index % planes) = index := by
  rw [index3_eq_index2, index2_of_div_mod, index2_of_div_mod]

theorem row_lt {index : Nat} (inRange : index < rows * columns * planes) :
    index / planes / columns < rows := by
  rw [Nat.div_div_eq_div_mul]
  apply Nat.div_lt_of_lt_mul
  rwa [Nat.mul_comm, Nat.mul_comm planes, ← Nat.mul_assoc]

@[simp]
theorem flatten2_index2 (array : Nat → Nat → Cell) (columnIn : column < columns) :
    flatten2 columns array (index2 columns row column) = array row column := by
  obtain ⟨rowEq, columnEq⟩ := index2_div_mod row columnIn
  rw [flatten2, rowEq, columnEq]

@[simp]
theorem flatten3_index3 (array : Nat → Nat → Nat → Cell)
    (columnIn : column < columns) (planeIn : plane < planes) :
    flatten3 columns planes array (index3 columns planes row column plane) =
      array row column plane := by
  obtain ⟨pixelEq, planeEq⟩ :=
    index2_div_mod (index2 columns row column) planeIn
  obtain ⟨rowEq, columnEq⟩ := index2_div_mod row columnIn
  rw [flatten3, index3_eq_index2, pixelEq, planeEq, rowEq, columnEq]

variable {cells cell : Nat}

theorem index4_lt (rowIn : row < rows) (columnIn : column < columns)
    (planeIn : plane < planes) (cellIn : cell < cells) :
    index4 columns planes cells row column plane cell < rows * columns * planes * cells :=
  index2_lt (index3_lt rowIn columnIn planeIn) cellIn

@[simp]
theorem flatten4_index4 (array : Nat → Nat → Nat → Nat → Cell)
    (columnIn : column < columns) (planeIn : plane < planes) (cellIn : cell < cells) :
    flatten4 columns planes cells array
      (index4 columns planes cells row column plane cell) = array row column plane cell := by
  obtain ⟨placeEq, cellEq⟩ :=
    index2_div_mod (index3 columns planes row column plane) cellIn
  rw [flatten4, index4, placeEq, cellEq, flatten3_index3 _ columnIn planeIn]

end RowMajor
