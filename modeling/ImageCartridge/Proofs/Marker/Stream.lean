import ImageCartridge.Marker.Splice

/-! The grammar of the marker stream. A file that has a scan marker is a list of
items between the image marker and the scan marker. A fill byte counts as an
item of its own, so that an item can be put in or taken out anywhere without
changing how the others are read. -/
namespace ImageCartridge.Marker

/-- What stands between two markers or before one. -/
inductive Item where
  | fill
  | standalone (marker : UInt8)
  | segment (marker : UInt8) (payload : Bytes)
  deriving DecidableEq, Repr

namespace Item

/-- A marker must not be taken for one of another kind, and the length of a
payload must fit its field. -/
def IsValid : Item → Prop
  | fill => True
  | standalone marker => standsAlone marker = true
  | segment marker payload =>
      marker ≠ lead ∧ marker ≠ sos ∧ marker ≠ eoi ∧ standsAlone marker = false
        ∧ payload.length ≤ payloadLimit

def toBytes : Item → Bytes
  | fill => [lead]
  | standalone marker => [lead, marker]
  | segment marker payload =>
      [lead, marker] ++ BigEndian.encode 2 (payload.length + 2) ++ payload

def segmentAt (offset : Nat) : Item → Option Segment
  | segment marker payload => some { marker, start := offset, payload }
  | _ => none

def isCartridge : Item → Bool
  | segment marker payload => marker = app11 && Block.magic.isPrefixOf payload
  | _ => false

end Item

def itemBytes (items : List Item) : Bytes :=
  items.flatMap Item.toBytes

/-- The segments among items, the first of which begins at an offset. -/
def segmentsFrom : Nat → List Item → List Segment
  | _, [] => []
  | offset, item :: rest =>
      (item.segmentAt offset).toList ++ segmentsFrom (offset + item.toBytes.length) rest

/-- A file up to its scan marker, and whatever follows that marker. -/
structure Stream where
  items : List Item
  scan : Bytes
  valid : ∀ item ∈ items, item.IsValid

namespace Stream

def front (s : Stream) : Bytes :=
  [lead, soi] ++ itemBytes s.items

def toBytes (s : Stream) : Bytes :=
  s.front ++ lead :: sos :: s.scan

def segments (s : Stream) : List Segment :=
  segmentsFrom 2 s.items

end Stream

@[simp] theorem itemBytes_nil : itemBytes [] = [] := rfl

@[simp] theorem itemBytes_cons (item : Item) (items : List Item) :
    itemBytes (item :: items) = item.toBytes ++ itemBytes items := rfl

@[simp] theorem itemBytes_append (first second : List Item) :
    itemBytes (first ++ second) = itemBytes first ++ itemBytes second := by
  simp [itemBytes]

theorem itemBytes_replicate_fill (n : Nat) :
    itemBytes (List.replicate n .fill) = List.replicate n lead := by
  induction n with
  | zero => rfl
  | succ n ih => rw [List.replicate_succ, itemBytes_cons, ih]; rfl

/-- Segments of two stretches are those of the first and those of the second, farther on by the
length of the first. -/
theorem segmentsFrom_append (offset : Nat) (first second : List Item) :
    segmentsFrom offset (first ++ second) =
      segmentsFrom offset first ++ segmentsFrom (offset + (itemBytes first).length) second := by
  induction first generalizing offset with
  | nil => rfl
  | cons item rest ih =>
      simp only [List.cons_append, segmentsFrom, ih, itemBytes_cons, List.length_append,
        List.append_assoc, Nat.add_assoc]

/-- Every item begins with the byte that introduces markers. -/
theorem Item.exists_toBytes_eq_cons (item : Item) : ∃ rest, item.toBytes = lead :: rest := by
  cases item with
  | fill => exact ⟨_, rfl⟩
  | standalone marker => exact ⟨_, rfl⟩
  | segment marker payload => exact ⟨_, rfl⟩

/-- Items in front of an introducer begin with one. -/
theorem exists_itemBytes_append_eq_cons (items : List Item) (tail : Bytes) :
    ∃ rest, itemBytes items ++ lead :: tail = lead :: rest := by
  cases items with
  | nil => exact ⟨tail, rfl⟩
  | cons item items =>
      obtain ⟨rest, hItem⟩ := item.exists_toBytes_eq_cons
      exact ⟨rest ++ itemBytes items ++ lead :: tail, by simp [hItem]⟩

theorem ne_of_standsAlone {marker : UInt8} (h : standsAlone marker = true) :
    marker ≠ lead ∧ marker ≠ sos ∧ marker ≠ eoi := by
  refine ⟨?_, ?_, ?_⟩ <;> (rintro rfl; exact absurd h (by decide))

/-- Every byte string is a run of fill before something else. -/
theorem exists_fill_run (bytes : Bytes) :
    ∃ n rest, bytes = List.replicate n lead ++ rest ∧ rest.head? ≠ some lead := by
  induction bytes with
  | nil => exact ⟨0, [], rfl, by simp⟩
  | cons b rest ih =>
      by_cases hLead : b = lead
      · obtain ⟨n, tail, hRest, hHead⟩ := ih
        exact ⟨n + 1, tail, by rw [hLead, hRest]; rfl, hHead⟩
      · exact ⟨0, b :: rest, rfl, by simpa using hLead⟩

/-- A run of fill is passed over as a whole, and the offset counts it. -/
theorem skipFill_replicate_append (offset n : Nat) {rest : Bytes} (h : rest.head? ≠ some lead) :
    skipFill offset (List.replicate n lead ++ rest) = (offset + n, rest) := by
  induction n generalizing offset with
  | zero =>
      cases rest with
      | nil => rfl
      | cons b rest =>
          have hLead : b ≠ lead := by simpa using h
          simp [skipFill, hLead]
  | succ n ih =>
      rw [List.replicate_succ, List.cons_append, skipFill, if_pos rfl, ih]
      congr 1
      omega

/-- Behind its fill, an item is read by its marker. -/
theorem step_replicate_append (offset n : Nat) {marker : UInt8} (rest : Bytes)
    (h : marker ≠ lead) :
    step offset (List.replicate (n + 1) lead ++ marker :: rest) =
      if marker = sos then .stop (.ok (offset + n))
      else if marker = eoi then .stop (.error (.endBeforeScan (offset + n)))
      else if standsAlone marker then .standalone (offset + n + 2) rest
      else
        match readSegment marker (offset + n) rest with
        | .error cause => .stop (.error cause)
        | .ok (s, rest) => .segment s rest := by
  have hSkip : skipFill (offset + 1) (List.replicate n lead ++ marker :: rest)
      = (offset + n + 1, marker :: rest) := by
    rw [skipFill_replicate_append _ _ (by simpa using h)]
    congr 1
    omega
  rw [List.replicate_succ, List.cons_append, step, if_neg (not_not_intro rfl), hSkip]
  rfl

/-- Without a marker there is no item to read. -/
theorem step_replicate (offset n : Nat) :
    step offset (List.replicate n lead) = .stop (.error (.truncated (offset + n))) := by
  cases n with
  | zero => rfl
  | succ n =>
      have hSkip : skipFill (offset + 1) (List.replicate n lead ++ []) = _ :=
        skipFill_replicate_append (offset + 1) n (by simp)
      rw [List.append_nil] at hSkip
      simp only [List.replicate_succ, step, hSkip, ne_eq, not_true_eq_false, if_false]
      congr 3
      omega

/-- Anything but an introducing byte is an error at its own offset. -/
theorem step_of_ne_lead (offset : Nat) {b : UInt8} (rest : Bytes) (h : b ≠ lead) :
    step offset (b :: rest) = .stop (.error (.expectedMarker offset b)) := by
  simp [step, h]

/-- The length of a payload that fits its segment fits the length field. -/
theorem exists_lengthField {payload : Bytes} (h : payload.length ≤ payloadLimit) :
    ∃ hi lo, BigEndian.encode 2 (payload.length + 2) = [hi, lo] ∧
      BigEndian.value [hi, lo] = payload.length + 2 := by
  have hLess : payload.length + 2 < BigEndian.capacity 2 := by
    unfold payloadLimit at h
    simp only [BigEndian.capacity]
    omega
  exact ⟨_, _, rfl, BigEndian.value_encode hLess⟩

/-- Two bytes that spell a length are those the length is written as. -/
theorem lengthField_eq {payload : Bytes} {hi lo : UInt8}
    (h : payload.length + 2 = BigEndian.value [hi, lo]) :
    payload.length ≤ payloadLimit ∧ BigEndian.encode 2 (payload.length + 2) = [hi, lo] := by
  have hLess := BigEndian.value_lt [hi, lo]
  have hField := BigEndian.encode_value [hi, lo]
  simp only [List.length_cons, List.length_nil, Nat.zero_add, Nat.reduceAdd,
    BigEndian.capacity] at hLess hField
  refine ⟨?_, by rw [h, hField]⟩
  unfold payloadLimit
  omega

/-- A segment is read from its length and its payload. -/
theorem readSegment_append (marker : UInt8) (start : Nat) {payload : Bytes} (rest : Bytes)
    (h : payload.length ≤ payloadLimit) :
    readSegment marker start (BigEndian.encode 2 (payload.length + 2) ++ payload ++ rest) =
      .ok ({ marker, start, payload }, rest) := by
  obtain ⟨hi, lo, hField, hValue⟩ := exists_lengthField h
  have hLength : ¬ payload.length + 2 < 2 := by omega
  simp only [hField, List.cons_append, List.nil_append, readSegment, hValue, hLength, if_false,
    List.splitAt_eq, Nat.add_sub_cancel, List.take_left, List.drop_left, Nat.lt_irrefl]

/-- A segment that is read accounts for all bytes that are gone. -/
theorem readSegment_eq_ok {marker : UInt8} {start : Nat} {bytes rest : Bytes} {s : Segment}
    (h : readSegment marker start bytes = .ok (s, rest)) :
    s.marker = marker ∧ s.start = start ∧ s.payload.length ≤ payloadLimit ∧
      bytes = BigEndian.encode 2 (s.payload.length + 2) ++ s.payload ++ rest := by
  unfold readSegment at h
  split at h
  · next hi lo tail =>
      simp only [List.splitAt_eq] at h
      split at h
      · cases h
      · next hLength =>
          split at h
          · cases h
          · next hPayload =>
              cases h
              have hSize : (tail.take (BigEndian.value [hi, lo] - 2)).length + 2
                  = BigEndian.value [hi, lo] := by
                have hTake := List.length_take_le (BigEndian.value [hi, lo] - 2) tail
                omega
              obtain ⟨hLimit, hField⟩ := lengthField_eq hSize
              refine ⟨rfl, rfl, hLimit, ?_⟩
              rw [hField, List.append_assoc, List.take_append_drop]
              rfl
  · cases h

theorem step_standalone_append (offset : Nat) {marker : UInt8} (rest : Bytes)
    (h : standsAlone marker = true) :
    step offset ((Item.standalone marker).toBytes ++ rest) = .standalone (offset + 2) rest := by
  obtain ⟨hLead, hSos, hEoi⟩ := ne_of_standsAlone h
  have hStep := step_replicate_append offset 0 rest hLead
  rw [if_neg hSos, if_neg hEoi, if_pos h] at hStep
  exact hStep

theorem step_segment_append (offset : Nat) {marker : UInt8} {payload : Bytes} (rest : Bytes)
    (h : (Item.segment marker payload).IsValid) :
    step offset ((Item.segment marker payload).toBytes ++ rest) =
      .segment { marker, start := offset, payload } rest := by
  obtain ⟨hLead, hSos, hEoi, hAlone, hPayload⟩ := h
  have hStep := step_replicate_append offset 0
    (BigEndian.encode 2 (payload.length + 2) ++ payload ++ rest) hLead
  rw [if_neg hSos, if_neg hEoi, hAlone, if_neg Bool.false_ne_true,
    readSegment_append marker _ _ hPayload] at hStep
  exact hStep

/-- A step that is no failure has read an introducer and a marker, perhaps
behind some fill. -/
theorem exists_marker_of_step {offset : Nat} {bytes : Bytes} {result : Step}
    (h : step offset bytes = result) (hResult : ∀ cause, result ≠ .stop (.error cause)) :
    ∃ n marker rest, marker ≠ lead ∧ bytes = List.replicate (n + 1) lead ++ marker :: rest := by
  obtain ⟨n, rest, rfl, hHead⟩ := exists_fill_run bytes
  cases rest with
  | nil =>
      rw [List.append_nil, step_replicate] at h
      exact absurd h.symm (hResult _)
  | cons marker rest =>
      have hMarker : marker ≠ lead := by simpa using hHead
      cases n with
      | zero => exact absurd (h.symm.trans (step_of_ne_lead offset rest hMarker)) (hResult _)
      | succ n => exact ⟨n, marker, rest, hMarker, rfl⟩

theorem replicate_succ_append (n : Nat) (rest : Bytes) :
    List.replicate (n + 1) lead ++ rest = List.replicate n lead ++ lead :: rest := by
  rw [List.replicate_succ', List.append_assoc]
  rfl

/-- A walk that ends well has met a scan marker behind some fill. -/
theorem step_eq_stop_ok {offset point : Nat} {bytes : Bytes}
    (h : step offset bytes = .stop (.ok point)) :
    ∃ n scan, point = offset + n ∧ bytes = List.replicate n lead ++ lead :: sos :: scan := by
  obtain ⟨n, marker, rest, hMarker, rfl⟩ := exists_marker_of_step h (by simp)
  rw [step_replicate_append offset n rest hMarker] at h
  split at h
  · next hSos =>
      cases h
      exact ⟨n, rest, rfl, by rw [hSos, replicate_succ_append]⟩
  · repeat' split at h
    all_goals cases h

/-- A marker that stands alone was introduced by fill and has no payload. -/
theorem step_eq_standalone {offset next : Nat} {bytes rest : Bytes}
    (h : step offset bytes = .standalone next rest) :
    ∃ n marker, standsAlone marker = true ∧ next = offset + n + 2 ∧
      bytes = List.replicate n lead ++ (Item.standalone marker).toBytes ++ rest := by
  obtain ⟨n, marker, tail, hMarker, rfl⟩ := exists_marker_of_step h (by simp)
  rw [step_replicate_append offset n tail hMarker] at h
  split at h
  · cases h
  · split at h
    · cases h
    · split at h
      · next hAlone =>
          cases h
          refine ⟨n, marker, hAlone, rfl, ?_⟩
          rw [replicate_succ_append, List.append_assoc]
          rfl
      · split at h <;> cases h

/-- A segment that was read is an item of the stream: written out again, it gives the bytes it was
read from. -/
theorem step_eq_segment {offset : Nat} {bytes rest : Bytes} {s : Segment}
    (h : step offset bytes = .segment s rest) :
    ∃ n, (Item.segment s.marker s.payload).IsValid ∧ s.start = offset + n ∧
      bytes = List.replicate n lead ++ (Item.segment s.marker s.payload).toBytes ++ rest := by
  obtain ⟨n, marker, tail, hMarker, rfl⟩ := exists_marker_of_step h (by simp)
  rw [step_replicate_append offset n tail hMarker] at h
  split at h
  · cases h
  · next hSos =>
      split at h
      · cases h
      · next hEoi =>
          split at h
          · cases h
          · next hAlone =>
              split at h
              · cases h
              · next hRead =>
                  cases h
                  obtain ⟨rfl, hStart, hPayload, rfl⟩ := readSegment_eq_ok hRead
                  have hAlone : standsAlone s.marker = false := by simpa using hAlone
                  refine ⟨n, ⟨hMarker, hSos, hEoi, hAlone, hPayload⟩, hStart, ?_⟩
                  simp only [replicate_succ_append, Item.toBytes, List.append_assoc,
                    List.cons_append, List.nil_append]

theorem walkFrom_of_step_stop {seen : List Segment} {offset : Nat} {bytes : Bytes}
    {outcome : Except StructuralError Nat} (h : step offset bytes = .stop outcome) :
    walkFrom seen offset bytes = ⟨seen.reverse, outcome⟩ := by
  rw [walkFrom]
  split <;> simp_all

theorem walkFrom_of_step_standalone {seen : List Segment} {offset next : Nat} {bytes rest : Bytes}
    (h : step offset bytes = .standalone next rest) :
    walkFrom seen offset bytes = walkFrom seen next rest := by
  rw [walkFrom]
  split <;> simp_all

theorem walkFrom_of_step_segment {seen : List Segment} {offset : Nat} {bytes rest : Bytes}
    {s : Segment} (h : step offset bytes = .segment s rest) :
    walkFrom seen offset bytes = walkFrom (s :: seen) s.stop rest := by
  rw [walkFrom]
  split <;> simp_all

/-- A fill byte in front of an introducer changes the offset only. -/
theorem walkFrom_fill (seen : List Segment) (offset : Nat) (rest : Bytes) :
    walkFrom seen offset (lead :: lead :: rest) = walkFrom seen (offset + 1) (lead :: rest) := by
  have hStep : step offset (lead :: lead :: rest) = step (offset + 1) (lead :: rest) := rfl
  rw [walkFrom, walkFrom, hStep]

theorem Item.stop_eq_add_length (marker : UInt8) (payload : Bytes) (offset : Nat) :
    Segment.stop { marker, start := offset, payload }
      = offset + (Item.segment marker payload).toBytes.length := by
  simp only [Item.toBytes, Segment.stop, List.length_append, List.length_cons,
    List.length_nil, BigEndian.encode_length]
  omega

/-- Valid items are passed over whatever stands behind them, as long as it
begins with an introducer. Every segment among them is seen. -/
theorem walkFrom_itemBytes_append (seen : List Segment) (offset : Nat) {items : List Item}
    (hValid : ∀ item ∈ items, item.IsValid) (tail : Bytes) :
    walkFrom seen offset (itemBytes items ++ lead :: tail) =
      walkFrom ((segmentsFrom offset items).reverse ++ seen)
        (offset + (itemBytes items).length) (lead :: tail) := by
  induction items generalizing seen offset with
  | nil => rfl
  | cons item items ih =>
      have hItem := hValid item List.mem_cons_self
      have ih := fun seen offset =>
        ih seen offset fun other hMem => hValid other (List.mem_cons_of_mem _ hMem)
      simp only [segmentsFrom, itemBytes_cons, List.length_append, List.reverse_append,
        List.append_assoc, ← Nat.add_assoc]
      -- With the rest of the walk folded back, one step over `item` remains.
      rw [← ih]
      cases item with
      | fill =>
          obtain ⟨rest, hRest⟩ := exists_itemBytes_append_eq_cons items tail
          rw [hRest]
          exact walkFrom_fill seen offset rest
      | standalone marker =>
          exact walkFrom_of_step_standalone (step_standalone_append offset _ hItem)
      | segment marker payload =>
          rw [walkFrom_of_step_segment (step_segment_append offset _ hItem),
            Item.stop_eq_add_length]
          rfl

/-- The scan marker ends the walk. -/
theorem walkFrom_scan (seen : List Segment) (offset : Nat) (scan : Bytes) :
    walkFrom seen offset (lead :: sos :: scan) = ⟨seen.reverse, .ok offset⟩ :=
  walkFrom_of_step_stop (step_replicate_append offset 0 scan (by decide))

/-- A walk over a stream sees its segments and ends at its scan marker. -/
theorem walk_toBytes (s : Stream) : walk s.toBytes = ⟨s.segments, .ok s.front.length⟩ := by
  have hWalk := walkFrom_itemBytes_append [] 2 s.valid (sos :: s.scan)
  rw [walkFrom_scan] at hWalk
  simp only [List.append_nil, List.reverse_reverse] at hWalk
  simp only [Stream.toBytes, Stream.front, Stream.segments, walk, List.cons_append,
    List.nil_append, and_self, if_true, hWalk, List.length_cons]
  congr 2
  omega

theorem locate_toBytes (s : Stream) : locate s.toBytes = .ok s.front.length := by
  rw [locate, walk_toBytes]

/-- Fill has no segments of its own and moves those behind it. -/
theorem segmentsFrom_replicate_fill_append (offset n : Nat) (items : List Item) :
    segmentsFrom offset (List.replicate n .fill ++ items) = segmentsFrom (offset + n) items := by
  induction n generalizing offset with
  | zero => rfl
  | succ n ih =>
      rw [List.replicate_succ, List.cons_append, segmentsFrom, ih, Nat.add_right_comm]
      rfl

/-- Fill in front of items is made of items itself, none of which is a segment. -/
theorem exists_items_replicate_append (n : Nat) {items : List Item}
    (hValid : ∀ item ∈ items, item.IsValid) :
    ∃ all : List Item, (∀ item ∈ all, item.IsValid) ∧
      itemBytes all = List.replicate n lead ++ itemBytes items ∧
      ∀ offset, segmentsFrom offset all = segmentsFrom (offset + n) items := by
  refine ⟨List.replicate n .fill ++ items, ?_, by simp [itemBytes_replicate_fill],
    fun offset => segmentsFrom_replicate_fill_append offset n items⟩
  intro item hMem
  rcases List.mem_append.mp hMem with hFill | hItem
  · rw [List.eq_of_mem_replicate hFill]
    trivial
  · exact hValid item hItem

/-- Fill behind items is made of items itself, none of which is a segment. -/
theorem exists_items_append_replicate (n : Nat) {items : List Item}
    (hValid : ∀ item ∈ items, item.IsValid) :
    ∃ all : List Item, (∀ item ∈ all, item.IsValid) ∧
      itemBytes all = itemBytes items ++ List.replicate n lead ∧
      ∀ offset, segmentsFrom offset all = segmentsFrom offset items := by
  obtain ⟨fill, hFill, hBytes, hSegments⟩ :=
    exists_items_replicate_append n (List.forall_mem_nil Item.IsValid)
  refine ⟨items ++ fill, List.forall_mem_append.mpr ⟨hValid, hFill⟩, ?_, fun offset => ?_⟩
  · rw [itemBytes_append, hBytes, itemBytes_nil, List.append_nil]
  · rw [segmentsFrom_append, hSegments, segmentsFrom, List.append_nil]

/-- A walk passes over valid items, whose segments it has seen, and ends well at a
scan marker only. -/
theorem exists_items_of_walkFrom (seen : List Segment) (offset : Nat) (bytes : Bytes) :
    ∃ items rest, (∀ item ∈ items, Item.IsValid item) ∧ bytes = itemBytes items ++ rest ∧
      (walkFrom seen offset bytes).segments = seen.reverse ++ segmentsFrom offset items ∧
      ∀ point, (walkFrom seen offset bytes).outcome = .ok point →
        ∃ scan, rest = lead :: sos :: scan := by
  fun_induction walkFrom seen offset bytes with
  | case1 seen offset bytes outcome hStep =>
      cases outcome with
      | error cause =>
          refine ⟨[], bytes, List.forall_mem_nil _, rfl, (List.append_nil _).symm, ?_⟩
          intro point h
          cases h
      | ok point =>
          obtain ⟨n, scan, _, rfl⟩ := step_eq_stop_ok hStep
          obtain ⟨items, hValid, hItems, hSegments⟩ :=
            exists_items_replicate_append n (List.forall_mem_nil Item.IsValid)
          refine ⟨items, _, hValid, ?_, ?_, fun _ _ => ⟨scan, rfl⟩⟩
          · rw [hItems, itemBytes_nil, List.append_nil]
          · rw [hSegments, segmentsFrom, List.append_nil]
  | case2 seen offset bytes next rest hStep ih =>
      obtain ⟨items, tail, hValid, rfl, hSeen, hEnd⟩ := ih
      obtain ⟨n, marker, hAlone, rfl, rfl⟩ := step_eq_standalone hStep
      -- The fill that the step skipped becomes items of its own.
      obtain ⟨all, hAll, hItems, hSegments⟩ := exists_items_replicate_append n
        (List.forall_mem_cons.mpr ⟨show (Item.standalone marker).IsValid from hAlone, hValid⟩)
      refine ⟨all, tail, hAll, ?_, ?_, hEnd⟩
      · simp only [hItems, itemBytes_cons, List.append_assoc]
      · rw [hSeen, hSegments]
        rfl
  | case3 seen offset bytes s rest hStep ih =>
      obtain ⟨items, tail, hValid, rfl, hSeen, hEnd⟩ := ih
      obtain ⟨n, hSegment, hStart, rfl⟩ := step_eq_segment hStep
      obtain ⟨all, hAll, hItems, hSegments⟩ := exists_items_replicate_append n
        (List.forall_mem_cons.mpr ⟨hSegment, hValid⟩)
      refine ⟨all, tail, hAll, ?_, ?_, hEnd⟩
      · simp only [hItems, itemBytes_cons, List.append_assoc]
      · rw [hSeen, hSegments, segmentsFrom, ← Item.stop_eq_add_length, ← hStart]
        simp [Item.segmentAt]

/-- A walk sees the segments of the items behind the image marker. -/
theorem walk_cases (jpeg : Bytes) :
    walk jpeg = ⟨[], .error .notJpeg⟩ ∨
      ∃ items rest, (∀ item ∈ items, Item.IsValid item) ∧
        jpeg = [lead, soi] ++ itemBytes items ++ rest ∧
        (walk jpeg).segments = segmentsFrom 2 items ∧
        ∀ point, (walk jpeg).outcome = .ok point → ∃ scan, rest = lead :: sos :: scan := by
  fun_cases walk jpeg with
  | case1 b c bytes hImage =>
      obtain ⟨rfl, rfl⟩ := hImage
      obtain ⟨items, rest, hValid, rfl, hSeen, hEnd⟩ := exists_items_of_walkFrom [] 2 bytes
      exact .inr ⟨items, rest, hValid, rfl, hSeen, hEnd⟩
  | case2 => exact .inl rfl
  | case3 => exact .inl rfl

/-- Every file with a scan marker is a stream. -/
theorem exists_stream_of_locate {jpeg : Bytes} {point : Nat} (h : locate jpeg = .ok point) :
    ∃ s : Stream, s.toBytes = jpeg ∧ s.front.length = point := by
  have hStream : ∃ s : Stream, s.toBytes = jpeg := by
    rcases walk_cases jpeg with hWalk | ⟨items, rest, hValid, rfl, -, hEnd⟩
    · rw [locate, hWalk] at h
      cases h
    · obtain ⟨scan, rfl⟩ := hEnd point h
      exact ⟨⟨items, scan, hValid⟩, rfl⟩
  obtain ⟨s, rfl⟩ := hStream
  rw [locate_toBytes] at h
  exact ⟨s, rfl, Except.ok.inj h⟩

end ImageCartridge.Marker
