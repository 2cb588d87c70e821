import ImageCartridge.Proofs.Marker.Stream

/-! Where the segments of a stream lie in its bytes: in file order, apart from each
other, before the scan marker, and each at its own offset. -/
namespace ImageCartridge.Marker

/-- A segment is an item, and begins behind the items before it. -/
theorem exists_split_of_mem_segmentsFrom {offset : Nat} {items : List Item} {t : Segment}
    (h : t ∈ segmentsFrom offset items) :
    ∃ before after, items = before ++ .segment t.marker t.payload :: after ∧
      t.start = offset + (itemBytes before).length := by
  induction items generalizing offset with
  | nil => cases h
  | cons item items ih =>
      rw [segmentsFrom, List.mem_append, Option.mem_toList] at h
      rcases h with hHere | hLater
      · cases item with
        | fill => cases hHere
        | standalone marker => cases hHere
        | segment marker payload =>
            cases hHere
            exact ⟨[], items, rfl, rfl⟩
      · obtain ⟨before, after, rfl, hStart⟩ := ih hLater
        refine ⟨item :: before, after, rfl, ?_⟩
        rw [hStart, itemBytes_cons, List.length_append, Nat.add_assoc]

theorem le_start_of_mem_segmentsFrom {offset : Nat} {items : List Item} {t : Segment}
    (h : t ∈ segmentsFrom offset items) : offset ≤ t.start := by
  obtain ⟨before, _, _, hStart⟩ := exists_split_of_mem_segmentsFrom h
  omega

/-- Each segment ends before the next one begins. -/
theorem pairwise_segmentsFrom (offset : Nat) (items : List Item) :
    (segmentsFrom offset items).Pairwise fun s t => s.stop ≤ t.start := by
  induction items generalizing offset with
  | nil => exact List.Pairwise.nil
  | cons item items ih =>
      rw [segmentsFrom, List.pairwise_append]
      refine ⟨?_, ih _, ?_⟩
      · cases item.segmentAt offset <;> simp
      · intro s hs t ht
        have hBehind := le_start_of_mem_segmentsFrom ht
        cases item with
        | fill => cases hs
        | standalone marker => cases hs
        | segment marker payload =>
            rw [List.mem_singleton.mp hs, Item.stop_eq_add_length]
            exact hBehind

/-- A segment is where it says in a file: its marker behind an `FF` at its start, its
length behind the marker, and its payload from there up to its stop. -/
structure Segment.LiesIn (jpeg : Bytes) (t : Segment) : Prop where
  introducer : jpeg[t.start]? = some 0xFF
  marker : jpeg[t.start + 1]? = some t.marker
  stop : t.stop = t.start + 2 + BigEndian.value (jpeg.extract (t.start + 2) (t.start + 4))
  payload : t.payload = jpeg.extract (t.start + 4) t.stop
  inside : t.stop ≤ jpeg.length

section

variable {head : Bytes} {items : List Item} {t : Segment}

/-- The bytes of a segment stand at its offset. -/
theorem exists_append_eq_of_mem_segmentsFrom (h : t ∈ segmentsFrom head.length items) :
    ∃ before after,
      head ++ itemBytes items = before ++ (Item.segment t.marker t.payload).toBytes ++ after ∧
      before.length = t.start := by
  obtain ⟨before, after, rfl, hStart⟩ := exists_split_of_mem_segmentsFrom h
  refine ⟨head ++ itemBytes before, itemBytes after, by simp, ?_⟩
  rw [hStart, List.length_append]

theorem stop_le_of_mem_segmentsFrom (h : t ∈ segmentsFrom head.length items) :
    t.stop ≤ (head ++ itemBytes items).length := by
  obtain ⟨before, after, hBytes, hStart⟩ := exists_append_eq_of_mem_segmentsFrom h
  have hStop := Item.stop_eq_add_length t.marker t.payload t.start
  change t.stop = _ at hStop
  simp only [hBytes, List.length_append, hStart, hStop]
  omega

/-- The length field of a segment bounds its payload. -/
theorem payload_length_le_of_mem_segmentsFrom {offset : Nat}
    (hValid : ∀ item ∈ items, item.IsValid) (h : t ∈ segmentsFrom offset items) :
    t.payload.length ≤ payloadLimit := by
  obtain ⟨before, after, rfl, -⟩ := exists_split_of_mem_segmentsFrom h
  obtain ⟨-, -, -, -, hLimit⟩ := hValid _ List.mem_append_cons_self
  exact hLimit

/-- Segments are where they say, whatever comes behind their items. -/
theorem liesIn_of_mem_segmentsFrom (hValid : ∀ item ∈ items, item.IsValid)
    (h : t ∈ segmentsFrom head.length items) (rest : Bytes) :
    t.LiesIn (head ++ itemBytes items ++ rest) := by
  obtain ⟨before, after, hBytes, hStart⟩ := exists_append_eq_of_mem_segmentsFrom h
  obtain ⟨hi, lo, hField, hValue⟩ :=
    exists_lengthField (payload_length_le_of_mem_segmentsFrom hValid h)
  have hStop := stop_le_of_mem_segmentsFrom h
  generalize hFile : head ++ itemBytes items ++ rest = file
  obtain ⟨tail, hTail⟩ : ∃ tail, file
      = before ++ lead :: t.marker :: hi :: lo :: (t.payload ++ tail) :=
    ⟨after ++ rest, by simp [← hFile, hBytes, Item.toBytes, hField]⟩
  have hDrop (n : Nat) : file.drop (t.start + n)
      = (lead :: t.marker :: hi :: lo :: (t.payload ++ tail)).drop n := by
    rw [hTail, ← hStart, List.drop_length_add_append]
  have hAt (n : Nat) : file[t.start + n]?
      = (lead :: t.marker :: hi :: lo :: (t.payload ++ tail))[n]? := by
    rw [← Nat.add_zero (t.start + n), ← List.getElem?_drop, hDrop, List.getElem?_drop, Nat.add_zero]
  refine ⟨hAt 0, hAt 1, ?_, ?_, ?_⟩
  · have hLength : file.extract (t.start + 2) (t.start + 4) = [hi, lo] := by
      rw [List.extract_eq_take_drop, hDrop, Nat.add_sub_add_left]
      rfl
    rw [hLength, hValue, Segment.stop]
    omega
  · rw [List.extract_eq_take_drop, hDrop, Segment.stop, Nat.add_sub_cancel_left]
    exact List.take_left.symm
  · rw [← hFile, List.length_append]
    omega

end

namespace Stream

variable {s : Stream} {t : Segment}

/-- A payload can be exchanged in the file for one of its size. The other segments
stay as they are. -/
theorem exists_around_payload (h : t ∈ s.segments) :
    ∃ head tail, head.length = t.start + 4 ∧ s.toBytes = head ++ (t.payload ++ tail) ∧
      ∀ payload, payload.length = t.payload.length → ∃ other : Stream,
        other.toBytes = head ++ (payload ++ tail) ∧ { t with payload } ∈ other.segments := by
  obtain ⟨before, after, hItems, hStart⟩ := exists_split_of_mem_segmentsFrom h
  have hValid := s.valid
  rw [hItems, List.forall_mem_append, List.forall_mem_cons] at hValid
  obtain ⟨hBefore, hSegment, hAfter⟩ := hValid
  refine ⟨[lead, soi] ++ itemBytes before ++ [lead, t.marker]
    ++ BigEndian.encode 2 (t.payload.length + 2), itemBytes after ++ lead :: sos :: s.scan, ?_, ?_,
    fun payload hLength => ?_⟩
  · simp only [hStart, List.length_append, List.length_cons, List.length_nil,
      BigEndian.encode_length]
  · simp [toBytes, front, hItems, Item.toBytes]
  · have hOther : (Item.segment t.marker payload).IsValid := by
      simpa only [Item.IsValid, hLength] using hSegment
    refine ⟨⟨before ++ .segment t.marker payload :: after, s.scan, ?_⟩, ?_, ?_⟩
    · rw [List.forall_mem_append, List.forall_mem_cons]
      exact ⟨hBefore, hOther, hAfter⟩
    · simp [toBytes, front, Item.toBytes, hLength]
    · have hHere : t.start = 2 + (itemBytes before).length := hStart
      simp [segments, segmentsFrom_append, segmentsFrom, Item.segmentAt, hHere]

end Stream

/-- Every segment that a walk sees lies in the file, however the walk ends. -/
theorem liesIn_of_mem_walk {jpeg : Bytes} {t : Segment} (h : t ∈ (walk jpeg).segments) :
    t.LiesIn jpeg := by
  rcases walk_cases jpeg with hWalk | ⟨items, rest, hValid, hBytes, hSeen, -⟩
  · rw [hWalk] at h
    cases h
  · rw [hSeen] at h
    rw [hBytes]
    exact liesIn_of_mem_segmentsFrom hValid h rest

/-- The segments of a file are in order and do not overlap. -/
theorem pairwise_walk (jpeg : Bytes) :
    (walk jpeg).segments.Pairwise fun s t => s.stop ≤ t.start := by
  rcases walk_cases jpeg with hWalk | ⟨items, rest, -, -, hSeen, -⟩
  · rw [hWalk]
    exact List.Pairwise.nil
  · rw [hSeen]
    exact pairwise_segmentsFrom 2 items

end ImageCartridge.Marker
