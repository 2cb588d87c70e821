import ImageCartridge.Proofs.Block.Codec
import ImageCartridge.Proofs.Fallible
import ImageCartridge.Proofs.Marker.Layout
import Mathlib.Algebra.Order.Ring.Nat

/-! Splicing as an operation on items. It drops the cartridge segments, keeps
every other item where it is, and puts one segment a block behind the last of
them. What is read back from the result are those blocks. -/
namespace ImageCartridge.Marker

open Fallible

def foreign (items : List Item) : List Item :=
  items.filter fun item => !item.isCartridge

/-- The cartridge segments among items, the first of which begins at an offset. -/
def cartridgesFrom (offset : Nat) (items : List Item) : List Segment :=
  (segmentsFrom offset items).filter Segment.isCartridge

/-- What is left of a stretch that begins at an offset when all bytes that lie
inside some segments are deleted. -/
def outside (offset : Nat) (segments : List Segment) (bytes : Bytes) : Bytes :=
  ((bytes.zipIdx offset).filter fun entry =>
    segments.all fun s => entry.2 < s.start || s.stop ≤ entry.2).map Prod.fst

/-- Cartridge segments of two stretches are those of the first and those of the second, farther on
by the length of the first. -/
theorem cartridgesFrom_append (offset : Nat) (first second : List Item) :
    cartridgesFrom offset (first ++ second) =
      cartridgesFrom offset first ++ cartridgesFrom (offset + (itemBytes first).length) second := by
  rw [cartridgesFrom, segmentsFrom_append, List.filter_append]
  rfl

theorem cartridgesFrom_cons_of_foreign (offset : Nat) {item : Item} (items : List Item)
    (h : item.isCartridge = false) :
    cartridgesFrom offset (item :: items) =
      cartridgesFrom (offset + item.toBytes.length) items := by
  rw [cartridgesFrom, segmentsFrom, List.filter_append]
  cases item with
  | fill => rfl
  | standalone marker => rfl
  | segment marker payload =>
      have hSegment : Segment.isCartridge { marker, start := offset, payload } = false := h
      simp only [Item.segmentAt, Option.toList_some, List.filter_cons, hSegment,
        Bool.false_eq_true, if_false, List.filter_nil, List.nil_append]
      rfl

/-- A cartridge item takes up exactly the bytes of its segment. -/
theorem cartridgesFrom_cons_of_isCartridge (offset : Nat) {item : Item} (items : List Item)
    (h : item.isCartridge = true) :
    ∃ s : Segment, item = .segment s.marker s.payload ∧ s.start = offset ∧
      s.stop = offset + item.toBytes.length ∧ cartridgesFrom offset (item :: items) =
        s :: cartridgesFrom (offset + item.toBytes.length) items := by
  cases item with
  | fill => cases h
  | standalone marker => cases h
  | segment marker payload =>
      refine ⟨{ marker, start := offset, payload }, rfl, rfl,
        Item.stop_eq_add_length marker payload offset, ?_⟩
      have hSegment : Segment.isCartridge { marker, start := offset, payload } = true := h
      simp only [cartridgesFrom, segmentsFrom, Item.segmentAt, Option.toList_some,
        List.cons_append, List.nil_append, List.filter_cons, hSegment, if_true]

theorem foreign_cons_of_foreign {item : Item} (items : List Item) (h : item.isCartridge = false) :
    foreign (item :: items) = item :: foreign items := by
  simp [foreign, h]

theorem foreign_cons_of_isCartridge {item : Item} (items : List Item)
    (h : item.isCartridge = true) : foreign (item :: items) = foreign items := by
  simp [foreign, h]

theorem cartridgesFrom_foreign (offset : Nat) (items : List Item) :
    cartridgesFrom offset (foreign items) = [] := by
  induction items generalizing offset with
  | nil => rfl
  | cons item items ih =>
      cases hItem : item.isCartridge with
      | false =>
          rw [foreign_cons_of_foreign items hItem, cartridgesFrom_cons_of_foreign _ _ hItem]
          exact ih _
      | true =>
          rw [foreign_cons_of_isCartridge items hItem]
          exact ih _

theorem le_start_of_mem_cartridgesFrom {offset : Nat} {items : List Item} {s : Segment}
    (h : s ∈ cartridgesFrom offset items) : offset ≤ s.start :=
  le_start_of_mem_segmentsFrom (List.mem_filter.mp h).1

/-- Cutting deletes the cartridge items and nothing else. The bytes in front are
those since the last cut. -/
theorem cut_append_itemBytes (offset : Nat) (before : Bytes) (items : List Item) :
    cut offset (cartridgesFrom (offset + before.length) items) (before ++ itemBytes items) =
      before ++ itemBytes (foreign items) := by
  induction items generalizing offset before with
  | nil => rfl
  | cons item items ih =>
      cases hItem : item.isCartridge with
      | false =>
          have hRest := ih offset (before ++ item.toBytes)
          rw [cartridgesFrom_cons_of_foreign _ _ hItem, foreign_cons_of_foreign _ hItem]
          simpa only [List.length_append, itemBytes_cons, List.append_assoc, Nat.add_assoc]
            using hRest
      | true =>
          obtain ⟨s, _, hStart, hStop, hCons⟩ :=
            cartridgesFrom_cons_of_isCartridge (offset + before.length) items hItem
          -- What was kept is complete here, and nothing is kept yet behind the segment.
          have hRest := ih s.stop []
          rw [List.length_nil, Nat.add_zero, List.nil_append, List.nil_append] at hRest
          have hDrop : s.stop - offset = (before ++ item.toBytes).length := by
            rw [List.length_append]
            omega
          rw [hCons, foreign_cons_of_isCartridge _ hItem, cut, hStart, Nat.add_sub_cancel_left,
            List.take_left, hDrop, itemBytes_cons, ← List.append_assoc, List.drop_left, ← hStop,
            hRest]

theorem outside_append (offset : Nat) (segments : List Segment) (first second : Bytes) :
    outside offset segments (first ++ second) =
      outside offset segments first ++ outside (offset + first.length) segments second := by
  simp only [outside, List.zipIdx_append, List.filter_append, List.map_append]

/-- Segments that end before a stretch or begin behind it take nothing from it. -/
theorem outside_of_apart {offset : Nat} {segments : List Segment} {bytes : Bytes}
    (h : ∀ s ∈ segments, s.stop ≤ offset ∨ offset + bytes.length ≤ s.start) :
    outside offset segments bytes = bytes := by
  have hKeep : ∀ entry ∈ bytes.zipIdx offset,
      (segments.all fun s => entry.2 < s.start || s.stop ≤ entry.2) = true := by
    rintro ⟨b, place⟩ hMem
    have hLow := List.le_snd_of_mem_zipIdx hMem
    have hHigh := List.snd_lt_add_of_mem_zipIdx hMem
    rw [List.all_eq_true]
    intro s hs
    simp only [Bool.or_eq_true, decide_eq_true_eq] at hLow hHigh ⊢
    have hApart := h s hs
    omega
  rw [outside, List.filter_eq_self.mpr hKeep, List.zipIdx_map_fst]

/-- A stretch inside a segment is deleted as a whole. -/
theorem outside_of_covered {offset : Nat} {segments : List Segment} {bytes : Bytes} {s : Segment}
    (hs : s ∈ segments) (hStart : s.start ≤ offset) (hStop : offset + bytes.length ≤ s.stop) :
    outside offset segments bytes = [] := by
  have hDrop : ∀ entry ∈ bytes.zipIdx offset,
      ¬ (segments.all fun s => entry.2 < s.start || s.stop ≤ entry.2) = true := by
    rintro ⟨b, place⟩ hMem hAll
    have hLow := List.le_snd_of_mem_zipIdx hMem
    have hHigh := List.snd_lt_add_of_mem_zipIdx hMem
    have hOut := List.all_eq_true.mp hAll s hs
    simp only [Bool.or_eq_true, decide_eq_true_eq] at hLow hHigh hOut
    omega
  rw [outside, List.filter_eq_nil_iff.mpr hDrop, List.map_nil]

/-- Deleting the cartridge segments of items byte by byte leaves the other items.
Segments that end before the items make no difference. -/
theorem outside_itemBytes (offset : Nat) (items : List Item) {segments : List Segment}
    (hHere : ∀ s ∈ cartridgesFrom offset items, s ∈ segments)
    (hOnly : ∀ s ∈ segments, s.stop ≤ offset ∨ s ∈ cartridgesFrom offset items) :
    outside offset segments (itemBytes items) = itemBytes (foreign items) := by
  induction items generalizing offset with
  | nil => rfl
  | cons item items ih =>
      rw [itemBytes_cons, outside_append]
      cases hItem : item.isCartridge with
      | false =>
          rw [cartridgesFrom_cons_of_foreign _ _ hItem] at hHere hOnly
          rw [foreign_cons_of_foreign _ hItem, itemBytes_cons, outside_of_apart, ih _ hHere]
          · intro s hs
            exact (hOnly s hs).imp_left fun hBefore => by omega
          · intro s hs
            exact (hOnly s hs).imp_right le_start_of_mem_cartridgesFrom
      | true =>
          obtain ⟨t, _, hStart, hStop, hCons⟩ :=
            cartridgesFrom_cons_of_isCartridge offset items hItem
          rw [hCons] at hHere hOnly
          rw [foreign_cons_of_isCartridge _ hItem,
            outside_of_covered (hHere t List.mem_cons_self) (by omega) (by omega),
            List.nil_append]
          apply ih
          · exact fun s hs => hHere s (List.mem_cons_of_mem _ hs)
          · intro s hs
            rcases hOnly s hs with hBefore | hMem
            · exact Or.inl (by omega)
            · rcases List.mem_cons.mp hMem with rfl | hLater
              · exact Or.inl (Nat.le_of_eq hStop)
              · exact Or.inr hLater

/-- A block makes a segment if it can be encoded and its encoding is not too long. -/
theorem segmentPayload_eq_ok_iff {b : Block} {payload : Bytes} :
    segmentPayload b = .ok payload ↔ b.encode = .ok payload ∧ payload.length ≤ payloadLimit := by
  unfold segmentPayload
  rw [bind_eq_ok_iff]
  simp only [mapError_eq_ok_iff]
  constructor
  · rintro ⟨bytes, hEncode, h⟩
    split at h
    · cases h
    · next hLimit =>
        cases h
        exact ⟨hEncode, Nat.le_of_not_lt hLimit⟩
  · rintro ⟨hEncode, hLimit⟩
    refine ⟨payload, hEncode, ?_⟩
    rw [if_neg (Nat.not_lt.mpr hLimit)]
    rfl

/-- A block fits a segment as soon as its encoding does. -/
theorem exists_segmentPayload {b : Block} (h : b.encodedLength ≤ payloadLimit) :
    ∃ payload, segmentPayload b = .ok payload := by
  have hLength : b.payload.length < UInt32.size := by
    unfold Block.encodedLength payloadLimit at h
    unfold UInt32.size
    omega
  have hEncode := Block.encode_eq_ok_iff.mpr ⟨hLength, rfl⟩
  refine ⟨_, segmentPayload_eq_ok_iff.mpr ⟨hEncode, ?_⟩⟩
  rw [Block.length_of_encode hEncode]
  exact h

/-- Put cartridge segments behind the items of a stream, in place of those that
are there. -/
def Stream.withCartridge (s : Stream) (payloads : List Bytes)
    (h : ∀ payload ∈ payloads, payload.length ≤ payloadLimit) : Stream where
  items := foreign s.items ++ payloads.map (Item.segment app11)
  scan := s.scan
  valid := by
    intro item hMem
    rcases List.mem_append.mp hMem with hOld | hNew
    · exact s.valid item (List.mem_filter.mp hOld).1
    · obtain ⟨payload, hPayload, rfl⟩ := List.mem_map.mp hNew
      exact ⟨by decide, by decide, by decide, by decide, h payload hPayload⟩

theorem itemBytes_map_segment (payloads : List Bytes) :
    itemBytes (payloads.map (Item.segment app11)) = payloads.flatMap frame := by
  rw [itemBytes, List.flatMap_map]
  rfl

/-- The cartridge ends right before the scan marker, and all that is foreign comes before it. -/
theorem Stream.withCartridge_front (s : Stream) (payloads : List Bytes)
    (h : ∀ payload ∈ payloads, payload.length ≤ payloadLimit) :
    (s.withCartridge payloads h).front =
      [lead, soi] ++ itemBytes (foreign s.items) ++ payloads.flatMap frame := by
  simp only [front, withCartridge, itemBytes_append, itemBytes_map_segment, List.append_assoc]

/-- Splicing replaces the cartridge items of a stream by one segment a block. -/
theorem splice_toBytes (s : Stream) {blocks : List Block} {payloads : List Bytes}
    (hPayloads : List.Forall₂ (fun b payload => segmentPayload b = .ok payload) blocks payloads)
    (hLimit : ∀ payload ∈ payloads, payload.length ≤ payloadLimit) :
    splice s.toBytes blocks = .ok (s.withCartridge payloads hLimit).toBytes := by
  have hCut := cut_append_itemBytes 0 [lead, soi] s.items
  have hTake : s.toBytes.take s.front.length = s.front := List.take_left
  have hDrop : s.toBytes.drop s.front.length = lead :: sos :: s.scan := List.drop_left
  have hBytes : (s.withCartridge payloads hLimit).toBytes =
      cut 0 (s.segments.filter Segment.isCartridge) s.front
        ++ payloads.flatMap frame ++ lead :: sos :: s.scan := by
    rw [Stream.toBytes, Stream.withCartridge_front, ← hCut]
    rfl
  rw [hBytes, ← hTake, ← hDrop]
  simp only [splice, bind_eq_ok_iff, mapError_eq_ok_iff, walk_toBytes]
  exact ⟨payloads, mapM_eq_ok_iff.mpr hPayloads, s.front.length, rfl, rfl⟩

/-- Items that open with the block magic are seen again as cartridge segments,
and in order. -/
theorem payload_cartridgesFrom_map (offset : Nat) {payloads : List Bytes}
    (h : ∀ payload ∈ payloads, Block.magic.isPrefixOf payload = true) :
    (cartridgesFrom offset (payloads.map (Item.segment app11))).map Segment.payload
      = payloads := by
  induction payloads generalizing offset with
  | nil => rfl
  | cons payload payloads ih =>
      have hItem : (Item.segment app11 payload).isCartridge = true := h payload List.mem_cons_self
      obtain ⟨s, hSegment, _, _, hCons⟩ := cartridgesFrom_cons_of_isCartridge offset
        (payloads.map (Item.segment app11)) hItem
      have hPayload : payload = s.payload := (Item.segment.inj hSegment).2
      rw [List.map_cons, hCons, List.map_cons, ← hPayload, ih]
      exact fun other hMem => h other (List.mem_cons_of_mem _ hMem)

/-- What was put in as a cartridge is found as the cartridge. -/
theorem payload_cartridges_withCartridge (s : Stream) {payloads : List Bytes}
    (hLimit : ∀ payload ∈ payloads, payload.length ≤ payloadLimit)
    (hMagic : ∀ payload ∈ payloads, Block.magic.isPrefixOf payload = true) :
    ((s.withCartridge payloads hLimit).segments.filter Segment.isCartridge).map Segment.payload
      = payloads := by
  change (cartridgesFrom 2 (foreign s.items ++ _)).map Segment.payload = payloads
  rw [cartridgesFrom_append, cartridgesFrom_foreign, List.nil_append,
    payload_cartridgesFrom_map _ hMagic]

theorem foreign_foreign_append_map (items : List Item) {payloads : List Bytes}
    (hMagic : ∀ payload ∈ payloads, Block.magic.isPrefixOf payload = true) :
    foreign (foreign items ++ payloads.map (Item.segment app11)) = foreign items := by
  have hNone : foreign (payloads.map (Item.segment app11)) = [] := by
    rw [foreign, List.filter_eq_nil_iff]
    intro item hMem
    obtain ⟨payload, hPayload, rfl⟩ := List.mem_map.mp hMem
    have hCartridge : (Item.segment app11 payload).isCartridge = true := hMagic payload hPayload
    simp [hCartridge]
  rw [foreign, List.filter_append]
  change foreign (foreign items) ++ foreign (payloads.map (Item.segment app11)) = foreign items
  rw [hNone, List.append_nil, foreign, foreign, List.filter_filter]
  simp only [Bool.and_self]

/-- Marker and payload of each segment that belongs to no cartridge, in file
order. -/
def foreignContents (segments : List Segment) : List (UInt8 × Bytes) :=
  (segments.filter fun s => !s.isCartridge).map fun s => (s.marker, s.payload)

def Item.content? : Item → Option (UInt8 × Bytes)
  | segment marker payload => some (marker, payload)
  | _ => none

/-- Marker and payload of foreign segments do not depend on where they stand. -/
theorem foreignContents_segmentsFrom (offset : Nat) (items : List Item) :
    foreignContents (segmentsFrom offset items) = (foreign items).filterMap Item.content? := by
  induction items generalizing offset with
  | nil => rfl
  | cons item items ih =>
      have hRest := ih (offset + item.toBytes.length)
      simp only [foreignContents] at hRest
      simp only [foreignContents, segmentsFrom, List.filter_append, List.map_append, hRest]
      cases item with
      | fill => rfl
      | standalone marker => rfl
      | segment marker payload =>
          have hSegment : Segment.isCartridge { marker, start := offset, payload }
              = (Item.segment marker payload).isCartridge := rfl
          cases hItem : (Item.segment marker payload).isCartridge with
          | false => simp [foreign, Item.segmentAt, hSegment, hItem, Item.content?]
          | true => simp [foreign, Item.segmentAt, hSegment, hItem]

/-- Segments whose payloads decode are collected, provided that they fit the
ceiling together with what was read before them. -/
theorem collect_eq_ok {limit total : Nat} {segments : List Segment} {blocks : List Block}
    (hDecode : List.Forall₂ (fun payload b => Block.decode payload = .ok b)
      (segments.map Segment.payload) blocks)
    (hTotal : total + (segments.map fun s => s.payload.length).sum ≤ limit) :
    collect limit total segments = .ok blocks := by
  induction segments generalizing total blocks with
  | nil =>
      cases hDecode
      rfl
  | cons s segments ih =>
      rw [List.map_cons, List.sum_cons, ← Nat.add_assoc] at hTotal
      obtain ⟨b, rest, hHead, hRest, rfl⟩ := List.forall₂_cons_left_iff.mp hDecode
      have hFits : ¬ limit < total + s.payload.length := by omega
      simp only [collect, hFits, if_false, hHead, ih hRest hTotal]
      rfl

/-- Deleting the cartridge segments from a front leaves its foreign items. -/
theorem outside_front (s : Stream) :
    outside 0 (s.segments.filter Segment.isCartridge) s.front =
      [lead, soi] ++ itemBytes (foreign s.items) := by
  have hImage : outside 0 (s.segments.filter Segment.isCartridge) [lead, soi] = [lead, soi] :=
    outside_of_apart fun t ht => Or.inr (le_start_of_mem_cartridgesFrom ht)
  have hItems : outside 2 (s.segments.filter Segment.isCartridge) (itemBytes s.items) =
      itemBytes (foreign s.items) :=
    outside_itemBytes 2 s.items (fun _ ht => ht) fun _ ht => Or.inr ht
  rw [Stream.front, outside_append, hImage]
  exact congrArg _ hItems

/-- Reading a file comes down to collecting the cartridge segments of its stream. -/
theorem extract_toBytes (s : Stream) (limit : Nat) :
    extract s.toBytes limit = collect limit 0 (s.segments.filter Segment.isCartridge) := by
  simp only [extract, walk_toBytes]
  cases collect limit 0 (s.segments.filter Segment.isCartridge) <;> rfl

theorem exists_segmentPayloads {blocks : List Block}
    (hSize : ∀ b ∈ blocks, b.encodedLength ≤ payloadLimit) :
    ∃ payloads, List.Forall₂ (fun b payload => segmentPayload b = .ok payload) blocks payloads := by
  obtain ⟨payloads, h⟩ := exists_mapM_eq_ok fun b hMem => exists_segmentPayload (hSize b hMem)
  exact ⟨payloads, mapM_eq_ok_iff.mp h⟩

/-- The payloads of blocks fit their segments, are marked as cartridge payloads,
and are together as long as the blocks say. -/
theorem segmentPayloads_facts {blocks : List Block} {payloads : List Bytes}
    (h : List.Forall₂ (fun b payload => segmentPayload b = .ok payload) blocks payloads) :
    (∀ payload ∈ payloads, payload.length ≤ payloadLimit) ∧
      (∀ payload ∈ payloads, Block.magic.isPrefixOf payload = true) ∧
      (payloads.map List.length).sum = (blocks.map Block.encodedLength).sum := by
  induction h with
  | nil => simp
  | @cons b payload blocks payloads hHead hRest ih =>
      obtain ⟨hLimits, hMagics, hSum⟩ := ih
      obtain ⟨hEncode, hLimit⟩ := segmentPayload_eq_ok_iff.mp hHead
      have hMagic := Block.magic_isPrefixOf_of_encode hEncode
      refine ⟨List.forall_mem_cons.mpr ⟨hLimit, hLimits⟩,
        List.forall_mem_cons.mpr ⟨hMagic, hMagics⟩, ?_⟩
      rw [List.map_cons, List.map_cons, List.sum_cons, List.sum_cons, hSum,
        Block.length_of_encode hEncode]

theorem encodedLength_le_of_segmentPayloads {blocks : List Block} {payloads : List Bytes}
    (h : List.Forall₂ (fun b payload => segmentPayload b = .ok payload) blocks payloads) :
    ∀ b ∈ blocks, b.encodedLength ≤ payloadLimit := by
  induction h with
  | nil => simp
  | cons hHead _ ih =>
      obtain ⟨hEncode, hLimit⟩ := segmentPayload_eq_ok_iff.mp hHead
      rw [Block.length_of_encode hEncode] at hLimit
      exact List.forall_mem_cons.mpr ⟨hLimit, ih⟩

/-- Blocks that went into payloads come out of them, kind by kind as they were. -/
theorem decode_segmentPayloads {blocks : List Block} {payloads : List Bytes}
    (h : List.Forall₂ (fun b payload => segmentPayload b = .ok payload) blocks payloads)
    (hKind : ∀ b ∈ blocks, b.kind.IsCanonical) :
    List.Forall₂ (fun payload b => Block.decode payload = .ok b) payloads blocks := by
  induction h with
  | nil => exact .nil
  | @cons b payload blocks payloads hHead hRest ih =>
      obtain ⟨hFirst, hLater⟩ := List.forall_mem_cons.mp hKind
      obtain ⟨hEncode, _⟩ := segmentPayload_eq_ok_iff.mp hHead
      exact .cons (Block.decode_of_encode hFirst hEncode) (ih hLater)

/-- A stream with the payloads of blocks in it gives the blocks back. -/
theorem extract_withCartridge (s : Stream) {blocks : List Block} {payloads : List Bytes}
    (hPayloads : List.Forall₂ (fun b payload => segmentPayload b = .ok payload) blocks payloads)
    (hLimit : ∀ payload ∈ payloads, payload.length ≤ payloadLimit)
    (hKind : ∀ b ∈ blocks, b.kind.IsCanonical) {limit : Nat}
    (hTotal : (blocks.map Block.encodedLength).sum ≤ limit) :
    extract (s.withCartridge payloads hLimit).toBytes limit = .ok blocks := by
  obtain ⟨_, hMagic, hSum⟩ := segmentPayloads_facts hPayloads
  have hSeen := payload_cartridges_withCartridge s hLimit hMagic
  rw [extract_toBytes]
  apply collect_eq_ok
  · rw [hSeen]
    exact decode_segmentPayloads hPayloads hKind
  · rw [← hSum, ← hSeen, List.map_map] at hTotal
    rw [Nat.zero_add]
    exact hTotal

/-- A file with a scan marker can take in any blocks that fit their segments. -/
theorem exists_splice_eq_ok {jpeg : Bytes} {point : Nat} {blocks : List Block}
    (hPoint : locate jpeg = .ok point)
    (hSize : ∀ b ∈ blocks, b.encodedLength ≤ payloadLimit) :
    ∃ out, splice jpeg blocks = .ok out := by
  obtain ⟨s, rfl, rfl⟩ := exists_stream_of_locate hPoint
  obtain ⟨payloads, hPayloads⟩ := exists_segmentPayloads hSize
  exact ⟨_, splice_toBytes s hPayloads (segmentPayloads_facts hPayloads).1⟩

/-- A block that is too long is refused with both lengths, its own and the longest one. -/
theorem segmentPayload_eq_error {b : Block} (h : payloadLimit < b.encodedLength)
    (hLength : b.payload.length < UInt32.size) :
    segmentPayload b = .error (.capacity (.segmentTooLarge b.encodedLength payloadLimit)) := by
  have hEncode := Block.encode_eq_ok_iff.mpr ⟨hLength, rfl⟩
  have hSize := Block.length_of_encode hEncode
  rw [← hSize] at h ⊢
  rw [segmentPayload, hEncode, mapError_ok, ok_bind, if_pos h]
  rfl

/-- The first block that is too large for a segment is why nothing is written. -/
theorem splice_eq_error (jpeg : Bytes) {blocks : List Block} {b : Block}
    (hFirst : blocks.find? (fun b => payloadLimit < b.encodedLength) = some b)
    (hLength : b.payload.length < UInt32.size) :
    splice jpeg blocks = .error (.capacity (.segmentTooLarge b.encodedLength payloadLimit)) := by
  have hMap : blocks.mapM segmentPayload
      = .error (.capacity (.segmentTooLarge b.encodedLength payloadLimit)) := by
    induction blocks with
    | nil => cases hFirst
    | cons head blocks ih =>
        rw [List.find?_cons] at hFirst
        rw [List.mapM_cons]
        split at hFirst
        · next hHead =>
            cases hFirst
            rw [segmentPayload_eq_error (of_decide_eq_true hHead) hLength, error_bind]
        · next hHead =>
            obtain ⟨payload, hPayload⟩ :=
              exists_segmentPayload (Nat.le_of_not_lt (of_decide_eq_false hHead))
            rw [hPayload, ok_bind, ih hFirst, error_bind]
  rw [splice, hMap, error_bind]

/-- A spliced file is a stream with the payloads of the blocks in it. -/
theorem exists_withCartridge_of_splice {jpeg out : Bytes} {blocks : List Block}
    (h : splice jpeg blocks = .ok out) :
    ∃ (s : Stream) (payloads : List Bytes)
      (hLimit : ∀ payload ∈ payloads, payload.length ≤ payloadLimit), s.toBytes = jpeg ∧
      List.Forall₂ (fun b payload => segmentPayload b = .ok payload) blocks payloads ∧
      out = (s.withCartridge payloads hLimit).toBytes := by
  have hSplice := h
  unfold splice at h
  simp only [bind_eq_ok_iff, mapError_eq_ok_iff] at h
  obtain ⟨payloads, hMap, point, hPoint, _⟩ := h
  have hPayloads := mapM_eq_ok_iff.mp hMap
  have hLimit := (segmentPayloads_facts hPayloads).1
  obtain ⟨s, rfl, _⟩ := exists_stream_of_locate hPoint
  rw [splice_toBytes s hPayloads hLimit] at hSplice
  exact ⟨s, payloads, hLimit, rfl, hPayloads, (Except.ok.inj hSplice).symm⟩

/-- A file that has been written holds only blocks that fit their segments. -/
theorem encodedLength_le_of_splice {jpeg out : Bytes} {blocks : List Block}
    (h : splice jpeg blocks = .ok out) : ∀ b ∈ blocks, b.encodedLength ≤ payloadLimit := by
  obtain ⟨_, payloads, _, _, hPayloads, _⟩ := exists_withCartridge_of_splice h
  exact encodedLength_le_of_segmentPayloads hPayloads

/-- Whatever is spliced into a file can be extracted from it. -/
theorem extract_of_splice {jpeg out : Bytes} {blocks : List Block} {limit : Nat}
    (h : splice jpeg blocks = .ok out) (hKind : ∀ b ∈ blocks, b.kind.IsCanonical)
    (hTotal : (blocks.map Block.encodedLength).sum ≤ limit) :
    extract out limit = .ok blocks := by
  obtain ⟨s, payloads, hLimit, _, hPayloads, rfl⟩ := exists_withCartridge_of_splice h
  exact extract_withCartridge s hPayloads hLimit hKind hTotal

def cartridges (jpeg : Bytes) : List Segment :=
  (walk jpeg).segments.filter Segment.isCartridge

theorem cartridges_toBytes (s : Stream) :
    cartridges s.toBytes = s.segments.filter Segment.isCartridge := by
  rw [cartridges, walk_toBytes]

/-- The cartridge segments of a spliced file hold its blocks, one each and in order. -/
theorem forall₂_encode_cartridges {jpeg out : Bytes} {blocks : List Block}
    (h : splice jpeg blocks = .ok out) :
    List.Forall₂ (fun b t => b.encode = .ok t.payload) blocks (cartridges out) := by
  obtain ⟨s, payloads, hLimit, -, hPayloads, rfl⟩ := exists_withCartridge_of_splice h
  have hSeen := payload_cartridges_withCartridge s hLimit (segmentPayloads_facts hPayloads).2.1
  rw [← hSeen, List.forall₂_map_right_iff] at hPayloads
  rw [cartridges_toBytes]
  exact hPayloads.imp fun _ _ hSegment => (segmentPayload_eq_ok_iff.mp hSegment).1

/-- Splicing changes nothing but the cartridge segments. -/
theorem frame_of_splice {jpeg out : Bytes} {blocks : List Block} {point : Nat}
    (h : splice jpeg blocks = .ok out) (hPoint : locate jpeg = .ok point) :
    ∃ point', locate out = .ok point' ∧ out.drop point' = jpeg.drop point ∧
      outside 0 (cartridges out) (out.take point') =
        outside 0 (cartridges jpeg) (jpeg.take point) ∧
      foreignContents (walk out).segments = foreignContents (walk jpeg).segments := by
  obtain ⟨s, payloads, hLimit, rfl, hPayloads, rfl⟩ := exists_withCartridge_of_splice h
  have hForeign : foreign (s.withCartridge payloads hLimit).items = foreign s.items :=
    foreign_foreign_append_map s.items (segmentPayloads_facts hPayloads).2.1
  rw [locate_toBytes] at hPoint
  cases hPoint
  refine ⟨_, locate_toBytes _, ?_, ?_, ?_⟩
  · rw [Stream.toBytes, Stream.toBytes, List.drop_left, List.drop_left]
    rfl
  · rw [cartridges_toBytes, cartridges_toBytes]
    simp only [Stream.toBytes, List.take_left, outside_front, hForeign]
  · rw [walk_toBytes, walk_toBytes, Stream.segments, Stream.segments,
      foreignContents_segmentsFrom, foreignContents_segmentsFrom, hForeign]

/-- Whatever a file carries already, splicing blocks into it and extracting them
gives the same blocks. The scan is not touched, and the bytes before it are the
old ones as soon as the cartridge segments of both files are deleted. -/
theorem splice_roundTrip {jpeg : Bytes} {point limit : Nat} {blocks : List Block}
    (hPoint : locate jpeg = .ok point)
    (hKind : ∀ b ∈ blocks, b.kind.IsCanonical)
    (hSize : ∀ b ∈ blocks, b.encodedLength ≤ payloadLimit)
    (hTotal : (blocks.map Block.encodedLength).sum ≤ limit) :
    ∃ out point', splice jpeg blocks = .ok out ∧
      extract out limit = .ok blocks ∧
      locate out = .ok point' ∧
      out.drop point' = jpeg.drop point ∧
      outside 0 (cartridges out) (out.take point') =
        outside 0 (cartridges jpeg) (jpeg.take point) ∧
      foreignContents (walk out).segments = foreignContents (walk jpeg).segments := by
  obtain ⟨out, hSplice⟩ := exists_splice_eq_ok hPoint hSize
  obtain ⟨point', hFrame⟩ := frame_of_splice hSplice hPoint
  exact ⟨out, point', hSplice, extract_of_splice hSplice hKind hTotal, hFrame⟩

/-- A file with a leftover cartridge segment behind fill, a standalone marker,
an application segment of another program, and fill before the scan marker. -/
def busyJpeg : Bytes :=
  [0xFF, 0xD8, 0xFF, 0xFF, 0xEB, 0x00, 0x06, 0x4A, 0x43, 0x52, 0x54, 0xFF, 0x01,
    0xFF, 0xEB, 0x00, 0x04, 0x4A, 0x50, 0xFF, 0xFF, 0xDA, 0x07]

/-- The scan marker stands behind a byte of fill, which counts as its start. -/
theorem locate_busyJpeg : locate busyJpeg = .ok 20 := by cbv

/-- Two blocks, one of them of an unassigned kind, go into a file that has a stale cartridge and a
foreign segment. -/
theorem splice_roundTrip_busyJpeg :
    ∃ blocks : List Block,
      blocks = [.new .bytecode [0x40, 0x01], ⟨2, .unknown 0x30, ⟨false, true⟩, []⟩] ∧
      locate busyJpeg = .ok 20 ∧
      (∀ b ∈ blocks, b.kind.IsCanonical) ∧
      (∀ b ∈ blocks, b.encodedLength ≤ payloadLimit) ∧
      (blocks.map Block.encodedLength).sum ≤ 28 ∧
      ∃ out point', splice busyJpeg blocks = .ok out ∧
        extract out 28 = .ok blocks ∧
        locate out = .ok point' ∧
        out.drop point' = busyJpeg.drop 20 ∧
        outside 0 (cartridges out) (out.take point') =
          outside 0 (cartridges busyJpeg) (busyJpeg.take 20) ∧
        foreignContents (walk out).segments = foreignContents (walk busyJpeg).segments := by
  refine ⟨_, rfl, locate_busyJpeg, by decide, by decide, by decide, ?_⟩
  exact splice_roundTrip locate_busyJpeg (by decide) (by decide) (by decide)

end ImageCartridge.Marker
