import ImageCartridge.Manifest
import ImageCartridge.Proofs.Cartridge.File
import ImageCartridge.Proofs.Input.Coverage
import Mathlib.Algebra.Group.Action.Defs
import Mathlib.Algebra.Order.BigOperators.Group.List
import Mathlib.Algebra.Order.Ring.Nat

/-! What becomes of a cartridge that was built from a manifest. The builder looks
at the grid only when it lays out buttons; the reader looks at it always. -/
namespace ImageCartridge

open Fallible

/-- The grid of a manifest is taken over unchecked. -/
theorem HeaderSpec.grid_of_toHeader {spec : HeaderSpec} {h : Header}
    (hHeader : spec.toHeader = .ok h) :
    h.gridColumns = spec.gridColumns ∧ h.gridRows = spec.gridRows := by
  unfold toHeader at hHeader
  dsimp only at hHeader
  split at hHeader
  · cases hHeader
    exact ⟨rfl, rfl⟩
  · cases hHeader

namespace Manifest

open Cartridge

/-- What the builder leaves to the loader: no extra blocks, the grid of the
manifest, and a table only of an accepted grid. -/
theorem toCartridge_eq_ok {m : Manifest} {c : Cartridge} (h : m.toCartridge = .ok c) :
    c.inputGrid = InputGrid.ofSize m.header.gridColumns m.header.gridRows ∧ c.extra = [] ∧
      ((m.buttons = [] ∧ c.truthTable = none) ∨ ∃ grid, c.inputGrid = .ok grid ∧
        c.truthTable = some (.ofButtons grid m.buttons)) := by
  unfold toCartridge at h
  obtain ⟨header, hHeader, h⟩ := bind_eq_ok_iff.mp h
  obtain ⟨hColumns, hRows⟩ := HeaderSpec.grid_of_toHeader hHeader
  dsimp only at h
  split at h
  · next hEmpty =>
      cases h
      exact ⟨by rw [inputGrid, hColumns, hRows], rfl, Or.inl ⟨List.isEmpty_iff.mp hEmpty, rfl⟩⟩
  · obtain ⟨grid, hGrid, h⟩ := bind_eq_ok_iff.mp h
    cases h
    exact ⟨by rw [inputGrid, hColumns, hRows], rfl,
      Or.inr ⟨grid, mapError_eq_ok_iff.mp hGrid, rfl⟩⟩

/-- A built cartridge has four blocks at most. What could be written is far from
the ceiling. -/
theorem sum_encodedLength_le {c : Cartridge} {blocks : List Block} (hExtra : c.extra = [])
    (hBlocks : c.toBlocks = .ok blocks)
    (hSize : ∀ b ∈ blocks, b.encodedLength ≤ Marker.payloadLimit) :
    (blocks.map Block.encodedLength).sum ≤ defaultCeiling := by
  have hCount : blocks.length ≤ 4 := by
    obtain ⟨texts, -, rfl⟩ := toBlocks_eq_ok_iff.mp hBlocks
    rw [tableBlocks, hExtra, List.append_nil]
    cases c.truthTable <;> cases texts <;> simp
  have hSum := List.sum_le_card_nsmul (blocks.map Block.encodedLength) Marker.payloadLimit
    (List.forall_mem_map.mpr hSize)
  rw [List.length_map, smul_eq_mul] at hSum
  calc (blocks.map Block.encodedLength).sum
      ≤ blocks.length * Marker.payloadLimit := hSum
    _ ≤ 4 * Marker.payloadLimit := Nat.mul_le_mul_right _ hCount
    _ ≤ defaultCeiling := by decide

/-- A table that fits a segment has a number of records that fits its field. -/
theorem tableFits_of_toCartridge {m : Manifest} {c : Cartridge} {blocks : List Block}
    {grid : InputGrid} (hBuild : m.toCartridge = .ok c) (hBlocks : c.toBlocks = .ok blocks)
    (hSize : ∀ b ∈ blocks, b.encodedLength ≤ Marker.payloadLimit)
    (hGrid : c.inputGrid = .ok grid) : c.TableFits grid := by
  intro table hTable
  constructor
  · obtain ⟨_, _, ⟨_, hNone⟩ | ⟨used, hUsed, hSome⟩⟩ := toCartridge_eq_ok hBuild
    · rw [hNone] at hTable
      cases hTable
    · rw [hSome] at hTable
      cases hTable
      rw [TruthTable.grid_ofButtons]
      exact Except.ok.inj (hUsed.symm.trans hGrid)
  · have hMem : Block.new .truthTable table.toBytes ∈ blocks := by
      obtain ⟨texts, -, rfl⟩ := toBlocks_eq_ok_iff.mp hBlocks
      simp [tableBlocks, hTable]
    have hFits := hSize _ hMem
    have hPayload : (Block.new .truthTable table.toBytes).payload.length
        = 4 + 9 * table.size := table.length_toBytes
    rw [Block.encodedLength, hPayload] at hFits
    unfold Marker.payloadLimit at hFits
    unfold UInt32.size
    omega

/-- A written cartridge comes back whole if its grid is accepted, and is refused
for its grid if not. Nothing else can go wrong. -/
theorem readFrom_eq {m : Manifest} {c : Cartridge} {jpeg out : Bytes}
    (hBuild : m.toCartridge = .ok c) (hWrite : c.writeInto jpeg = .ok out) :
    readFrom out defaultCeiling = c.inputGrid.mapError .schema >>= fun _ => .ok c := by
  obtain ⟨blocks, hBlocks, hSplice⟩ := writeInto_eq_ok_iff.mp hWrite
  obtain ⟨_, hExtra, _⟩ := toCartridge_eq_ok hBuild
  have hSize := Marker.encodedLength_le_of_splice hSplice
  have hKind : ∀ b ∈ blocks, b.kind.IsCanonical :=
    isCanonical_of_toBlocks hBlocks (by simp [hExtra])
  have hUnread : ∀ b ∈ c.extra, b.kind.hasSchema = false := by simp [hExtra]
  rw [readFrom_of_splice hSplice hKind (sum_encodedLength_le hExtra hBlocks hSize)]
  cases hGrid : c.inputGrid with
  | error cause => exact ofBlocks_badGrid hBlocks hUnread hGrid
  | ok grid =>
      exact ofBlocks_of_toBlocks hBlocks hUnread hGrid
        (tableFits_of_toCartridge hBuild hBlocks hSize hGrid)

/-- The loader takes a built cartridge back exactly if the grid of the manifest
is one. Where it does not, there were no buttons, or else the builder would have
refused the manifest itself. -/
theorem readFrom_toCartridge {m : Manifest} {c : Cartridge} {jpeg out : Bytes}
    (hBuild : m.toCartridge = .ok c) (hWrite : c.writeInto jpeg = .ok out) :
    (readFrom out defaultCeiling = .ok c ↔
        ∃ grid, InputGrid.ofSize m.header.gridColumns m.header.gridRows = .ok grid) ∧
      ∀ cause, InputGrid.ofSize m.header.gridColumns m.header.gridRows = .error cause →
        readFrom out defaultCeiling = .error (.schema cause) ∧ m.buttons = [] := by
  obtain ⟨hGrid, _, hTable⟩ := toCartridge_eq_ok hBuild
  rw [readFrom_eq hBuild hWrite, ← hGrid]
  constructor
  · cases c.inputGrid with
    | error cause => simp
    | ok grid => simp
  · intro cause hRefused
    rcases hTable with ⟨hNone, _⟩ | ⟨grid, hTaken, _⟩
    · rw [hRefused]
      exact ⟨rfl, hNone⟩
    · rw [hRefused] at hTaken
      cases hTaken

/-- A manifest that says nothing but the size of the grid. -/
def gridManifest (columns rows : UInt16) : Manifest where
  header := { gridColumns := columns, gridRows := rows }

/-- Without buttons any grid can be built and written, also one that no loader takes. -/
theorem exists_writeInto_gridManifest (columns rows : UInt16) :
    ∃ c out, (gridManifest columns rows).toCartridge = .ok c ∧ c.inputGrid =
      InputGrid.ofSize columns rows ∧ c.writeInto Marker.busyJpeg = .ok out := by
  have hSize : ∀ h : Header, ∀ b ∈ [Block.new .header h.toBytes,
      .new .bytecode Machine.snakeProgram], b.encodedLength ≤ Marker.payloadLimit := by
    intro h b hMem
    rcases List.mem_pair.mp hMem with rfl | rfl
    · simp [Block.encodedLength, Block.new, h.length_toBytes, Block.headLength,
        Block.trailerLength, BlockFlags.withCrc, Block.crcLength, Marker.payloadLimit]
    · decide
  obtain ⟨out, hSplice⟩ := Marker.exists_splice_eq_ok Marker.locate_busyJpeg (hSize
    { entryPoint := Machine.snakeEntry, gridColumns := columns, gridRows := rows })
  exact ⟨_, out, rfl, rfl, writeInto_eq_ok_iff.mpr ⟨_, rfl, hSplice⟩⟩

/-- A manifest with a proper grid goes the whole way to a cartridge that is read. -/
theorem readFrom_toCartridge_gridManifest :
    ∃ c out, (gridManifest 4 3).toCartridge = .ok c ∧ c.writeInto Marker.busyJpeg = .ok out ∧
      readFrom out defaultCeiling = .ok c := by
  obtain ⟨c, out, hBuild, _, hWrite⟩ := exists_writeInto_gridManifest 4 3
  exact ⟨c, out, hBuild, hWrite, (readFrom_toCartridge hBuild hWrite).1.mpr ⟨_, rfl⟩⟩

/-- Without columns there are no cells. The builder does not mind as long as no
button has to be laid out, and the loader does. -/
theorem readFrom_gridManifest_zero :
    ∃ c out, (gridManifest 0 64).toCartridge = .ok c ∧ c.writeInto Marker.busyJpeg = .ok out ∧
      readFrom out defaultCeiling = .error (.schema (.badGrid 0 64)) := by
  obtain ⟨c, out, hBuild, hGrid, hWrite⟩ := exists_writeInto_gridManifest 0 64
  refine ⟨c, out, hBuild, hWrite, ?_⟩
  rw [readFrom_eq hBuild hWrite, hGrid]
  rfl

end Manifest

end ImageCartridge
