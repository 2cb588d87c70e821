import ImageCartridge.Cartridge.File
import ImageCartridge.Proofs.Marker.Extract

/-! A file cut short. Whatever stands behind the scan marker makes no difference, and a
file that ends before or in that marker is refused as truncated. -/
namespace ImageCartridge.Marker

open Fallible

/-- A reading that fails for want of bytes at a place. Half a length field counts as
none, so the place reported may be one byte short of it. -/
def LacksBytes {α : Type} (place : Nat) (outcome : Except StructuralError α) : Prop :=
  ∃ stop, outcome = .error (.truncated stop) ∧ stop ≤ place ∧ place ≤ stop + 1

theorem lacksBytes_error {α : Type} {place stop : Nat} (h : stop = place) :
    LacksBytes place (.error (.truncated stop) : Except StructuralError α) :=
  ⟨stop, rfl, by omega, by omega⟩

/-- A segment is not read from less than its length field and its payload. -/
theorem lacksBytes_readSegment (marker : UInt8) (start : Nat) {payload : Bytes} {n : Nat}
    (hLimit : payload.length ≤ payloadLimit) (hCut : n < payload.length + 2) :
    LacksBytes (start + 2 + n) (readSegment marker start
      ((BigEndian.encode 2 (payload.length + 2) ++ payload).take n)) := by
  obtain ⟨hi, lo, hField, hValue⟩ := exists_lengthField hLimit
  rw [hField]
  match n with
  | 0 => exact lacksBytes_error rfl
  | 1 => exact ⟨start + 2, rfl, by omega, by omega⟩
  | n + 2 =>
      have hTake : (payload.take n).take payload.length = payload.take n := by
        simp [List.take_take]; omega
      have hShort : (payload.take n).length = n := by
        simp; omega
      have hLess : n < payload.length := by omega
      have hRead : readSegment marker start (hi :: lo :: payload.take n) =
          .error (.truncated (start + 4 + n)) := by
        simp [readSegment, hValue, hTake, hShort, hLess]
      simp only [List.cons_append, List.nil_append, List.take_succ_cons, hRead]
      exact lacksBytes_error (by omega)

/-- An item of which a part is missing is not read. -/
theorem exists_step_take (offset : Nat) {item : Item} (hValid : item.IsValid) {n : Nat}
    (hCut : n < item.toBytes.length) :
    ∃ outcome, step offset (item.toBytes.take n) = .stop outcome ∧
      LacksBytes (offset + n) outcome := by
  match n with
  | 0 => exact ⟨_, rfl, lacksBytes_error rfl⟩
  | 1 =>
      obtain ⟨rest, hItem⟩ := item.exists_toBytes_eq_cons
      have hLead : item.toBytes.take 1 = List.replicate 1 lead := by
        rw [hItem]
        rfl
      exact ⟨_, by rw [hLead, step_replicate], lacksBytes_error rfl⟩
  | n + 2 =>
      cases item with
      | fill => simp [Item.toBytes] at hCut
      | standalone marker => simp [Item.toBytes] at hCut
      | segment marker payload =>
          obtain ⟨hLead, hSos, hEoi, hAlone, hLimit⟩ := hValid
          have hRest : n < payload.length + 2 := by
            simp [Item.toBytes] at hCut
            omega
          have hRead := lacksBytes_readSegment marker offset hLimit hRest
          obtain ⟨stop, hStop, hBounds⟩ := hRead
          refine ⟨.error (.truncated stop), ?_, stop, rfl, by omega⟩
          have hStep := step_replicate_append offset 0
            ((BigEndian.encode 2 (payload.length + 2) ++ payload).take n) hLead
          simp only [if_neg hSos, if_neg hEoi, hAlone, Bool.false_eq_true, if_false, Nat.add_zero,
            hStop] at hStep
          exact hStep

/-- A fill byte in front of an introducer, or of nothing, changes the offset only. -/
theorem walkFrom_fill_take (seen : List Segment) (offset : Nat) (items : List Item)
    (tail : Bytes) (n : Nat) :
    walkFrom seen offset (lead :: (itemBytes items ++ lead :: tail).take n) =
      walkFrom seen (offset + 1) ((itemBytes items ++ lead :: tail).take n) := by
  cases n with
  | zero =>
      have hStep : step offset [lead] = step (offset + 1) [] := rfl
      rw [List.take_zero, walkFrom, walkFrom, hStep]
  | succ n =>
      obtain ⟨rest, hRest⟩ := exists_itemBytes_append_eq_cons items tail
      rw [hRest, List.take_succ_cons, walkFrom_fill]

/-- A walk that comes to the end of the file before the end of the scan marker. -/
theorem lacksBytes_walkFrom_take (seen : List Segment) (offset : Nat) {items : List Item}
    (hValid : ∀ item ∈ items, item.IsValid) (scan : Bytes) {n : Nat}
    (hCut : n < (itemBytes items).length + 2) :
    LacksBytes (offset + n)
      (walkFrom seen offset ((itemBytes items ++ lead :: sos :: scan).take n)).outcome := by
  induction items generalizing seen offset n with
  | nil =>
      have hLead : (lead :: sos :: scan).take n = List.replicate n lead := by
        match n, hCut with
        | 0, _ => rfl
        | 1, _ => rfl
      rw [itemBytes_nil, List.nil_append, hLead, walkFrom_of_step_stop (step_replicate offset n)]
      exact lacksBytes_error rfl
  | cons item items ih =>
      obtain ⟨hItem, hRest⟩ := List.forall_mem_cons.mp hValid
      rw [itemBytes_cons, List.append_assoc]
      rcases Nat.lt_or_ge n item.toBytes.length with hInside | hBehind
      · obtain ⟨outcome, hStep, hLacks⟩ := exists_step_take offset hItem hInside
        rw [List.take_append_of_le_length (Nat.le_of_lt hInside), walkFrom_of_step_stop hStep]
        exact hLacks
      -- The item is whole, so the cut lies among those behind it.
      · obtain ⟨m, rfl⟩ := Nat.exists_eq_add_of_le hBehind
        have hLater : m < (itemBytes items).length + 2 := by
          simp at hCut
          omega
        rw [List.take_length_add_append, ← Nat.add_assoc]
        cases item with
        | fill =>
            have hWalk := ih seen (offset + 1) hRest hLater
            rw [← walkFrom_fill_take] at hWalk
            exact hWalk
        | standalone marker =>
            rw [walkFrom_of_step_standalone (step_standalone_append offset _ hItem)]
            exact ih seen (offset + 2) hRest hLater
        | segment marker payload =>
            rw [walkFrom_of_step_segment (step_segment_append offset _ hItem),
              Item.stop_eq_add_length]
            exact ih _ _ hRest hLater

namespace Stream

variable (s : Stream)

theorem locate_take_of_lt_two {n : Nat} (h : n < 2) :
    locate (s.toBytes.take n) = .error .notJpeg := by
  match n, h with
  | 0, _ => rfl
  | 1, _ => rfl

/-- A cut behind the image marker shows at the place of the cut. -/
theorem lacksBytes_locate_take {n : Nat} (hImage : 2 ≤ n) (hCut : n < s.front.length + 2) :
    LacksBytes n (locate (s.toBytes.take n)) := by
  obtain ⟨m, rfl⟩ := Nat.exists_eq_add_of_le hImage
  have hLess : m < (itemBytes s.items).length + 2 := by
    simp [front] at hCut
    omega
  have hWalk := lacksBytes_walkFrom_take [] 2 s.valid s.scan hLess
  rw [Nat.add_comm 2 m] at hWalk ⊢
  simpa [toBytes, front, locate, walk] using hWalk

/-- The same stream with something else behind its scan marker. -/
theorem take_append (tail : Bytes) :
    s.toBytes.take (s.front.length + 2) ++ tail = { s with scan := tail }.toBytes := by
  have hFront : s.toBytes = (s.front ++ [lead, sos]) ++ s.scan := by
    simp [toBytes]
  have hLength : s.front.length + 2 = (s.front ++ [lead, sos]).length := by
    simp
  rw [hFront, hLength, List.take_left]
  simp [toBytes, front]

end Stream

/-- A file whose markers cannot be walked is refused under every ceiling. -/
theorem exists_readFrom_eq_error {jpeg : Bytes} {cause : StructuralError}
    (h : locate jpeg = .error cause) (limit : Nat) :
    ∃ cause, Cartridge.readFrom jpeg limit = .error cause := by
  cases hRead : Cartridge.readFrom jpeg limit with
  | error cause => exact ⟨cause, rfl⟩
  | ok c =>
      obtain ⟨blocks, hExtract, -⟩ := bind_eq_ok_iff.mp hRead
      obtain ⟨s, rfl, -⟩ := exists_stream_of_extract hExtract
      rw [locate_toBytes] at h
      cases h

/-- The bytes up to the scan marker, that marker included, decide what a file carries.
Whatever follows them makes no difference, and none of them can be missing: a file cut
short among them has no scan marker and does not load. -/
theorem front_decides {jpeg : Bytes} {point : Nat} (h : locate jpeg = .ok point) :
    point + 2 ≤ jpeg.length ∧
      (∀ tail, walk (jpeg.take (point + 2) ++ tail) = ⟨(walk jpeg).segments, .ok point⟩ ∧
        ∀ limit, extract (jpeg.take (point + 2) ++ tail) limit = extract jpeg limit ∧
          Cartridge.readFrom (jpeg.take (point + 2) ++ tail) limit =
            Cartridge.readFrom jpeg limit) ∧
      ∀ n, n < point + 2 →
        (n < 2 → locate (jpeg.take n) = .error .notJpeg) ∧
        (2 ≤ n → LacksBytes n (locate (jpeg.take n))) ∧
        ∀ limit, ∃ cause, Cartridge.readFrom (jpeg.take n) limit = .error cause := by
  obtain ⟨s, rfl, rfl⟩ := exists_stream_of_locate h
  refine ⟨by simp [Stream.toBytes], fun tail => ?_, fun n hCut => ⟨?_, ?_, fun limit => ?_⟩⟩
  · have hExtract (limit : Nat) : extract { s with scan := tail }.toBytes limit =
        extract s.toBytes limit := by
      rw [extract_toBytes, extract_toBytes]
      rfl
    rw [s.take_append, walk_toBytes, walk_toBytes]
    refine ⟨rfl, fun limit => ⟨hExtract limit, ?_⟩⟩
    rw [Cartridge.readFrom, hExtract, Cartridge.readFrom]
  · exact s.locate_take_of_lt_two
  · exact fun hImage => s.lacksBytes_locate_take hImage hCut
  · rcases Nat.lt_or_ge n 2 with hImage | hImage
    · exact exists_readFrom_eq_error (s.locate_take_of_lt_two hImage) limit
    · obtain ⟨stop, hStop, -⟩ := s.lacksBytes_locate_take hImage hCut
      exact exists_readFrom_eq_error hStop limit

/-- The scan is replaced, and the front is cut behind its first byte and inside a segment. -/
theorem front_decides_busyJpeg :
    locate busyJpeg = .ok 20 ∧
      (∀ limit, extract (busyJpeg.take 22 ++ [0xFF, 0xD9]) limit = extract busyJpeg limit) ∧
      locate (busyJpeg.take 1) = .error .notJpeg ∧ LacksBytes 16 (locate (busyJpeg.take 16)) := by
  obtain ⟨-, hTail, hCut⟩ := front_decides locate_busyJpeg
  exact ⟨locate_busyJpeg, fun limit => ((hTail [0xFF, 0xD9]).2 limit).1,
    (hCut 1 (by decide)).1 (by decide), (hCut 16 (by decide)).2.1 (by decide)⟩

end ImageCartridge.Marker
