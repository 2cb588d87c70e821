import ImageCartridge.Snake.Board
import Mathlib.Order.Bounds.Defs

/-! How a board lies in the framebuffer. The cells are as large as both axes allow. On each
axis that can hold the board, what is left over is shared out on both sides of it. -/
namespace ImageCartridge.Snake.BoardGeometry

/-- The board fits on both axes with cells of this side. -/
def Fits (width height columns rows side : Nat) : Prop :=
  side * columns ≤ width ∧ side * rows ≤ height

/-- A stretch lies within an extent, and behind it is as much left as before it, or one more. -/
def Centred (extent before stretch : Nat) : Prop :=
  ∃ behind, before + stretch + behind = extent ∧ (behind = before ∨ behind = before + 1)

/-- Half of what is left is the margin, and an odd pixel goes behind. -/
theorem centred_half_of_le {extent stretch : Nat} (h : stretch ≤ extent) :
    Centred extent ((extent - stretch) / 2) stretch :=
  ⟨extent - stretch - (extent - stretch) / 2, by omega, by omega⟩

/-- Where nothing is left there is no margin, since the subtraction stops at zero. -/
theorem half_leftover_eq_zero {extent stretch : Nat} (h : extent ≤ stretch) :
    (extent - stretch) / 2 = 0 := by
  rw [Nat.sub_eq_zero_of_le h, Nat.zero_div]

variable {width height columns rows side : Nat}

theorem fits_one_iff : Fits width height columns rows 1 ↔ columns ≤ width ∧ rows ≤ height := by
  rw [Fits, Nat.one_mul, Nat.one_mul]

theorem fits_iff_le_min (hColumns : 0 < columns) (hRows : 0 < rows) :
    Fits width height columns rows side ↔ side ≤ min (width / columns) (height / rows) := by
  rw [Fits, Nat.le_min, Nat.le_div_iff_mul_le hColumns, Nat.le_div_iff_mul_le hRows]

theorem cellSize_fit_of_fits (hColumns : 0 < columns) (hRows : 0 < rows)
    (h : Fits width height columns rows 1) :
    (fit width height columns rows).cellSize = min (width / columns) (height / rows) :=
  Nat.max_eq_left ((fits_iff_le_min hColumns hRows).mp h)

/-- A board that does not fit has the smallest cells there are. -/
theorem cellSize_fit_of_not_fits (hColumns : 0 < columns) (hRows : 0 < rows)
    (h : ¬Fits width height columns rows 1) :
    (fit width height columns rows).cellSize = 1 := by
  rw [fits_iff_le_min hColumns hRows, Nat.not_le] at h
  exact Nat.max_eq_right (Nat.le_of_lt h)

/-- No larger cell would fit, if any does. -/
theorem isGreatest_cellSize_fit (hColumns : 0 < columns) (hRows : 0 < rows)
    (h : Fits width height columns rows 1) :
    IsGreatest {side | Fits width height columns rows side}
      (fit width height columns rows).cellSize := by
  rw [cellSize_fit_of_fits hColumns hRows h]
  constructor
  · exact (fits_iff_le_min hColumns hRows).mpr (Nat.le_refl _)
  · exact fun side hSide => (fits_iff_le_min hColumns hRows).mp hSide

/-- The board is no larger than the framebuffer, or it is as large as its cells are many. -/
theorem cellSize_fit_mul_le (width height : Nat) (hColumns : 0 < columns) (hRows : 0 < rows) :
    (fit width height columns rows).cellSize * columns ≤ max width columns ∧
      (fit width height columns rows).cellSize * rows ≤ max height rows := by
  by_cases h : Fits width height columns rows 1
  · obtain ⟨hWidth, hHeight⟩ := (isGreatest_cellSize_fit hColumns hRows h).1
    exact ⟨Nat.le_trans hWidth (Nat.le_max_left _ _), Nat.le_trans hHeight (Nat.le_max_left _ _)⟩
  · rw [cellSize_fit_of_not_fits hColumns hRows h, Nat.one_mul, Nat.one_mul]
    exact ⟨Nat.le_max_right _ _, Nat.le_max_right _ _⟩

/-- Every number on the way to the place of a board is bounded by a measure of the framebuffer
or of the board, so all of them fit a word if these do. -/
theorem fit_lt {bound : Nat} (hColumns : 0 < columns) (hRows : 0 < rows)
    (hWidth : max width columns < bound) (hHeight : max height rows < bound)
    {g : BoardGeometry} (hFit : g = fit width height columns rows) :
    ∀ n ∈ [g.cellSize, g.cellSize * columns, g.cellSize * rows, g.originX, g.originY],
      n < bound := by
  subst hFit
  obtain ⟨hBoardWidth, hBoardHeight⟩ :=
    cellSize_fit_mul_le width height hColumns hRows
  have hSide := Nat.le_mul_of_pos_right (fit width height columns rows).cellSize hColumns
  have hLeft : (fit width height columns rows).originX ≤ width :=
    Nat.le_trans (Nat.div_le_self _ _) (Nat.sub_le _ _)
  have hTop : (fit width height columns rows).originY ≤ height :=
    Nat.le_trans (Nat.div_le_self _ _) (Nat.sub_le _ _)
  simp only [List.forall_mem_cons, List.not_mem_nil, false_implies, implies_true, and_true]
  omega

/-- For a board of at least one cell every number on the way to its place fits a word. If the
framebuffer has a pixel for each cell, the cells are the largest with which the board fits,
and it is centred on both axes. Otherwise the cells have one pixel, and the board begins at
the edge on an axis that is too short and is centred on the other. -/
theorem fit_maximal_centred (width height columns rows : UInt16)
    (hColumns : 1 ≤ columns) (hRows : 1 ≤ rows) {g : BoardGeometry}
    (hFit : g = fit width.toNat height.toNat columns.toNat rows.toNat) :
    (∀ n ∈ [g.cellSize, g.cellSize * columns.toNat, g.cellSize * rows.toNat, g.originX, g.originY],
        n < UInt16.size) ∧
      (columns ≤ width ∧ rows ≤ height →
        IsGreatest {side | Fits width.toNat height.toNat columns.toNat rows.toNat side}
            g.cellSize ∧
          Centred width.toNat g.originX (g.cellSize * columns.toNat) ∧
          Centred height.toNat g.originY (g.cellSize * rows.toNat)) ∧
      (¬(columns ≤ width ∧ rows ≤ height) →
        g.cellSize = 1 ∧
          (width < columns → g.originX = 0) ∧ (height < rows → g.originY = 0) ∧
          (columns ≤ width → Centred width.toNat g.originX (g.cellSize * columns.toNat)) ∧
          (rows ≤ height → Centred height.toNat g.originY (g.cellSize * rows.toNat))) := by
  simp only [UInt16.le_iff_toNat_le, UInt16.lt_iff_toNat_lt, UInt16.toNat_one, ← fits_one_iff]
    at hColumns hRows ⊢
  have hWidth : max width.toNat columns.toNat < UInt16.size :=
    Nat.max_lt.mpr ⟨width.toNat_lt, columns.toNat_lt⟩
  have hHeight : max height.toNat rows.toNat < UInt16.size :=
    Nat.max_lt.mpr ⟨height.toNat_lt, rows.toNat_lt⟩
  refine ⟨fit_lt hColumns hRows hWidth hHeight hFit, ?_, ?_⟩
  · intro hFits
    have hGreatest := isGreatest_cellSize_fit hColumns hRows hFits
    rw [hFit]
    exact ⟨hGreatest, centred_half_of_le hGreatest.1.1, centred_half_of_le hGreatest.1.2⟩
  · intro hSmall
    have hSide := cellSize_fit_of_not_fits hColumns hRows hSmall
    obtain ⟨hBoardWidth, hBoardHeight⟩ :
        g.cellSize * columns.toNat = columns.toNat ∧ g.cellSize * rows.toNat = rows.toNat := by
      rw [hFit, hSide, Nat.one_mul, Nat.one_mul]
      exact ⟨rfl, rfl⟩
    subst hFit
    exact ⟨hSide, fun h => half_leftover_eq_zero (hBoardWidth.symm ▸ Nat.le_of_lt h),
      fun h => half_leftover_eq_zero (hBoardHeight.symm ▸ Nat.le_of_lt h),
      fun h => centred_half_of_le (hBoardWidth.symm ▸ h),
      fun h => centred_half_of_le (hBoardHeight.symm ▸ h)⟩

/-- On the largest framebuffer the heights stop the cells from growing, and their product
with the rows is close to the end of a word. A framebuffer that is too narrow still has the
board in the middle of its height. -/
theorem fit_maximal_centred_largest :
    ((1 : UInt16) ≤ 20 ∧ (1 : UInt16) ≤ 24) ∧
      IsGreatest {side | Fits 65535 65535 20 24 side} 2730 ∧
      Centred 65535 5467 (2730 * 20) ∧ Centred 65535 7 (2730 * 24) ∧
      fit 10 65535 20 24 = ⟨1, 0, 32755, 10, 65535⟩ ∧ Centred 65535 32755 24 := by
  obtain ⟨-, hFits, -⟩ :=
    fit_maximal_centred 65535 65535 20 24 (by decide) (by decide) rfl
  obtain ⟨-, -, hSmall⟩ :=
    fit_maximal_centred 10 65535 20 24 (by decide) (by decide) rfl
  obtain ⟨hGreatest, hX, hY⟩ := hFits (by decide)
  obtain ⟨-, -, -, -, hMiddle⟩ := hSmall (by decide)
  exact ⟨by decide, hGreatest, hX, hY, rfl, hMiddle (by decide)⟩

end ImageCartridge.Snake.BoardGeometry
