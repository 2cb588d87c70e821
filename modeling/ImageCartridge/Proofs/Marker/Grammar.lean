import ImageCartridge.Proofs.Marker.Splice

/-! The grammar of the bytes before the scan, with each item written out, and the
walk as its reader. -/
namespace ImageCartridge.Marker

/-- `Items offset bytes segments`: the bytes, which begin at an offset, are items one
after the other, and the segments are those of them that have a length. Each item is
introduced by one `FF` or more. A length counts its own two bytes. -/
inductive Items : Nat → Bytes → List Segment → Prop where
  | nil (offset : Nat) : Items offset [] []
  | standalone {offset : Nat} {bytes : Bytes} {segments : List Segment} (fill : Nat)
      {marker : UInt8} (hMarker : marker = 0x01 ∨ 0xD0 ≤ marker ∧ marker ≤ 0xD7)
      (rest : Items (offset + fill + 2) bytes segments) :
      Items offset (List.replicate (fill + 1) 0xFF ++ marker :: bytes) segments
  | segment {offset : Nat} {bytes : Bytes} {segments : List Segment} (fill : Nat)
      {marker hi lo : UInt8} {payload : Bytes}
      (hMarker : marker ∉ [0x01, 0xD9, 0xDA, 0xFF]) (hRestart : marker < 0xD0 ∨ 0xD7 < marker)
      (hLength : 2 ≤ BigEndian.value [hi, lo])
      (hPayload : payload.length = BigEndian.value [hi, lo] - 2)
      (rest : Items (offset + fill + 2 + BigEndian.value [hi, lo]) bytes segments) :
      Items offset (List.replicate (fill + 1) 0xFF ++ marker :: hi :: lo :: (payload ++ bytes))
        ({ marker, start := offset + fill, payload } :: segments)

/-- A file of the grammar, with its segments and the place of its scan marker: the image
marker, items, one `FF` or more and the scan marker, then anything. -/
def InGrammar (jpeg : Bytes) (segments : List Segment) (point : Nat) : Prop :=
  ∃ items fill scan, Items 2 items segments ∧ point = 2 + items.length + fill ∧
    jpeg = 0xFF :: 0xD8 :: (items ++ List.replicate (fill + 1) 0xFF ++ 0xDA :: scan)

theorem standsAlone_iff (marker : UInt8) :
    standsAlone marker = true ↔ marker = 0x01 ∨ 0xD0 ≤ marker ∧ marker ≤ 0xD7 := by
  simp [standsAlone]

theorem Item.isValid_segment_iff {marker : UInt8} {payload : Bytes} :
    (Item.segment marker payload).IsValid ↔ marker ∉ [0x01, 0xD9, 0xDA, 0xFF] ∧
      (marker < 0xD0 ∨ 0xD7 < marker) ∧ payload.length ≤ payloadLimit := by
  have hAlone : standsAlone marker = false ↔
      marker ≠ 0x01 ∧ (marker < 0xD0 ∨ 0xD7 < marker) := by
    rw [← Bool.not_eq_true, standsAlone_iff, not_or, Decidable.not_and_iff_or_not, UInt8.not_le,
      UInt8.not_le]
  simp only [IsValid, hAlone, List.mem_cons, List.not_mem_nil, or_false, not_or, lead, sos, eoi]
  constructor
  · rintro ⟨hLead, hSos, hEoi, ⟨hTem, hRestart⟩, hPayload⟩
    exact ⟨⟨hTem, hEoi, hSos, hLead⟩, hRestart, hPayload⟩
  · rintro ⟨⟨hTem, hEoi, hSos, hLead⟩, hRestart, hPayload⟩
    exact ⟨hLead, hSos, hEoi, ⟨hTem, hRestart⟩, hPayload⟩

namespace Items

variable {offset : Nat} {bytes : Bytes} {segments : List Segment}

/-- The items of the grammar are those of a stream, with the fill in front of each
counted as items of their own. -/
theorem exists_items (h : Items offset bytes segments) :
    ∃ items : List Item, (∀ item ∈ items, item.IsValid) ∧ itemBytes items = bytes ∧
      segmentsFrom offset items = segments := by
  induction h with
  | nil offset => exact ⟨[], List.forall_mem_nil _, rfl, rfl⟩
  | @standalone offset bytes segments fill marker hMarker rest ih =>
      obtain ⟨items, hValid, rfl, rfl⟩ := ih
      have hItem : (Item.standalone marker).IsValid := (standsAlone_iff marker).mpr hMarker
      obtain ⟨all, hAll, hBytes, hSegments⟩ :=
        exists_items_replicate_append fill (List.forall_mem_cons.mpr ⟨hItem, hValid⟩)
      refine ⟨all, hAll, ?_, ?_⟩
      · rw [hBytes, itemBytes_cons]
        exact (replicate_succ_append fill _).symm
      · rw [hSegments]
        rfl
  | @segment offset bytes segments fill marker hi lo payload hMarker hRestart hLength hPayload
      rest ih =>
      obtain ⟨items, hValid, rfl, rfl⟩ := ih
      have hSum : payload.length + 2 = BigEndian.value [hi, lo] := by omega
      obtain ⟨hLimit, hField⟩ := lengthField_eq hSum
      have hItem : (Item.segment marker payload).IsValid :=
        Item.isValid_segment_iff.mpr ⟨hMarker, hRestart, hLimit⟩
      obtain ⟨all, hAll, hBytes, hSegments⟩ :=
        exists_items_replicate_append fill (List.forall_mem_cons.mpr ⟨hItem, hValid⟩)
      refine ⟨all, hAll, ?_, ?_⟩
      · rw [hBytes, itemBytes_cons, Item.toBytes, hField, List.append_assoc]
        exact (replicate_succ_append fill _).symm
      · rw [hSegments, segmentsFrom, ← Item.stop_eq_add_length, Segment.stop]
        simp only [Item.segmentAt, Option.toList_some, List.cons_append, List.nil_append]
        congr 2
        omega

theorem segments_eq_nil (h : Items offset [] segments) : segments = [] := by
  cases h
  rfl

/-- Fill before the first item makes its fill longer. -/
theorem fill (h : Items (offset + 1) bytes segments) (hBytes : bytes ≠ []) :
    Items offset (0xFF :: bytes) segments := by
  have hOffset : ∀ n, offset + 1 + n = offset + (n + 1) := by omega
  cases h with
  | nil => exact absurd rfl hBytes
  | standalone fill hMarker rest =>
      rw [hOffset] at rest
      exact .standalone (fill + 1) hMarker rest
  | segment fill hMarker hRestart hLength hPayload rest =>
      rw [hOffset] at rest ⊢
      exact .segment (fill + 1) hMarker hRestart hLength hPayload rest

end Items

/-- The items of a stream are items of the grammar, except for fill behind the last. -/
theorem exists_items_eq (offset : Nat) {items : List Item}
    (hValid : ∀ item ∈ items, item.IsValid) :
    ∃ bytes fill, Items offset bytes (segmentsFrom offset items) ∧
      itemBytes items = bytes ++ List.replicate fill 0xFF := by
  induction items generalizing offset with
  | nil => exact ⟨[], 0, .nil offset, rfl⟩
  | cons item items ih =>
      obtain ⟨hItem, hRest⟩ := List.forall_mem_cons.mp hValid
      obtain ⟨bytes, fill, hItems, hBytes⟩ := ih (offset + item.toBytes.length) hRest
      rw [itemBytes_cons, hBytes]
      cases item with
      | fill =>
          by_cases hEmpty : bytes = []
          -- No item stands behind this fill byte.
          · subst hEmpty
            refine ⟨[], fill + 1, ?_, rfl⟩
            change Items offset [] (segmentsFrom (offset + Item.fill.toBytes.length) items)
            rw [hItems.segments_eq_nil]
            exact .nil offset
          · exact ⟨0xFF :: bytes, fill, hItems.fill hEmpty, rfl⟩
      | standalone marker =>
          exact ⟨_, fill, .standalone 0 ((standsAlone_iff marker).mp hItem) hItems, rfl⟩
      | segment marker payload =>
          obtain ⟨hMarker, hRestart, hLimit⟩ := Item.isValid_segment_iff.mp hItem
          obtain ⟨hi, lo, hField, hValue⟩ := exists_lengthField hLimit
          have hOffset : offset + (Item.segment marker payload).toBytes.length
              = offset + 0 + 2 + BigEndian.value [hi, lo] := by
            rw [← Item.stop_eq_add_length, hValue]
            change offset + 4 + payload.length = _
            omega
          have hSegments : segmentsFrom offset (.segment marker payload :: items)
              = { marker, start := offset + 0, payload }
                :: segmentsFrom (offset + 0 + 2 + BigEndian.value [hi, lo]) items := by
            rw [segmentsFrom, hOffset]
            rfl
          rw [hOffset] at hItems
          rw [hSegments]
          refine ⟨_, fill, .segment 0 hMarker hRestart (by omega) (by omega) hItems, ?_⟩
          rw [Item.toBytes, hField]
          simp [lead]

/-- The walk reads the grammar. -/
theorem walk_eq_iff_inGrammar {jpeg : Bytes} {segments : List Segment} {point : Nat} :
    walk jpeg = ⟨segments, .ok point⟩ ↔ InGrammar jpeg segments point := by
  constructor
  · intro h
    have hPoint : locate jpeg = .ok point := by rw [locate, h]
    obtain ⟨s, rfl, rfl⟩ := exists_stream_of_locate hPoint
    rw [walk_toBytes, Walk.mk.injEq] at h
    obtain ⟨rfl, -⟩ := h
    obtain ⟨bytes, fill, hItems, hBytes⟩ := exists_items_eq 2 s.valid
    refine ⟨bytes, fill, s.scan, hItems, ?_, ?_⟩
    · simp only [Stream.front, hBytes, List.length_append, List.length_cons, List.length_nil,
        List.length_replicate]
      omega
    · have hFill : List.replicate (fill + 1) 0xFF ++ 0xDA :: s.scan
          = List.replicate fill 0xFF ++ lead :: sos :: s.scan := replicate_succ_append fill _
      simp only [Stream.toBytes, Stream.front, hBytes, List.append_assoc, hFill]
      rfl
  · rintro ⟨bytes, fill, scan, hItems, rfl, rfl⟩
    obtain ⟨items, hValid, rfl, rfl⟩ := hItems.exists_items
    obtain ⟨all, hAll, hBytes, hSegments⟩ := exists_items_append_replicate fill hValid
    have hFill := replicate_succ_append fill (sos :: scan)
    have hWalk := walk_toBytes ⟨all, scan, hAll⟩
    simp only [Stream.toBytes, Stream.front, Stream.segments, hBytes, hSegments, List.append_assoc,
      ← hFill, List.length_append, List.length_replicate, ← Nat.add_assoc] at hWalk
    rw [List.append_assoc]
    exact hWalk

/-- A walk reads the grammar and nothing else, and says where it has found the scan
marker and the segments. -/
theorem walk_reads_grammar (jpeg : Bytes) :
    (∀ segments point,
      walk jpeg = ⟨segments, .ok point⟩ ↔ InGrammar jpeg segments point) ∧
    ((∃ cause, (walk jpeg).outcome = .error cause) ↔
      ∀ segments point, ¬ InGrammar jpeg segments point) ∧
    (∀ t ∈ (walk jpeg).segments, t.LiesIn jpeg) ∧
    (walk jpeg).segments.Pairwise (fun s t => s.stop ≤ t.start) ∧
    ∀ point, (walk jpeg).outcome = .ok point →
      jpeg[point]? = some 0xFF ∧ jpeg[point + 1]? = some 0xDA ∧
        ∀ t ∈ (walk jpeg).segments, t.stop ≤ point := by
  refine ⟨fun _ _ => walk_eq_iff_inGrammar, ?_, fun _ => liesIn_of_mem_walk, pairwise_walk jpeg,
    fun point h => ?_⟩
  · constructor
    · rintro ⟨cause, hCause⟩ segments point hGrammar
      rw [walk_eq_iff_inGrammar.mpr hGrammar] at hCause
      cases hCause
    · intro hNone
      cases hOutcome : (walk jpeg).outcome with
      | error cause => exact ⟨cause, rfl⟩
      | ok point => exact absurd (walk_eq_iff_inGrammar.mp (by rw [← hOutcome])) (hNone _ point)
  · obtain ⟨s, rfl, rfl⟩ := exists_stream_of_locate h
    refine ⟨by simp [Stream.toBytes, lead], by simp [Stream.toBytes, sos], fun t hMem => ?_⟩
    rw [walk_toBytes] at hMem
    exact @stop_le_of_mem_segmentsFrom [lead, soi] _ _ hMem

/-- Two segments stand before the scan marker, the first of them behind fill. -/
theorem walk_reads_grammar_busyJpeg :
    ∃ segments : List Segment,
      segments = [⟨0xEB, 3, [0x4A, 0x43, 0x52, 0x54]⟩, ⟨0xEB, 13, [0x4A, 0x50]⟩] ∧
      walk busyJpeg = ⟨segments, .ok 20⟩ ∧ InGrammar busyJpeg segments 20 ∧
      Segment.LiesIn busyJpeg ⟨0xEB, 13, [0x4A, 0x50]⟩ ∧
      busyJpeg[20]? = some 0xFF ∧ busyJpeg[21]? = some 0xDA ∧ ∀ t ∈ segments, t.stop ≤ 20 := by
  have hWalk : walk busyJpeg =
      ⟨[⟨0xEB, 3, [0x4A, 0x43, 0x52, 0x54]⟩, ⟨0xEB, 13, [0x4A, 0x50]⟩], .ok 20⟩ := by cbv
  obtain ⟨hGrammar, -, hPlace, -, hScan⟩ := walk_reads_grammar busyJpeg
  rw [hWalk] at hPlace hScan
  obtain ⟨hIntroducer, hMarker, hBefore⟩ := hScan 20 rfl
  exact ⟨_, rfl, hWalk, (hGrammar _ 20).mp hWalk, hPlace _ (by simp), hIntroducer, hMarker,
    hBefore⟩

end ImageCartridge.Marker
