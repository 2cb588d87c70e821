import ImageCartridge.Proofs.OrderedMap
import ImageCartridge.Proofs.Payload.Decoded

/-! The bytes of a truth table, with each record written out, and the codec as a
bijection between these bytes and the tables that fit the count field. -/
namespace ImageCartridge.TruthTable

/-- The bytes are records one after the other: the key length, which is six, the bytes
of a key and those of a command. -/
inductive Records : Bytes → List (TouchKey × UInt16) → Prop where
  | nil : Records [] []
  | cons {bytes : Bytes} {entries : List (TouchKey × UInt16)} (key : TouchKey)
      (command : UInt16) {regionHigh regionLow high low : UInt8}
      (hRegion : BigEndian.value [regionHigh, regionLow] = key.region.toNat)
      (hCommand : BigEndian.value [high, low] = command.toNat)
      (rest : Records bytes entries) :
      Records (6 :: key.modeBits :: key.touchType :: regionHigh :: regionLow :: key.gesture ::
        key.timeBucket :: high :: low :: bytes) ((key, command) :: entries)

/-- A payload of the format, with its records: their number in four bytes, then the
records, of which no two have one key. Nothing stands behind them. -/
def InFormat (bytes : Bytes) (entries : List (TouchKey × UInt16)) : Prop :=
  ∃ count records, bytes = count ++ records ∧ count.length = 4 ∧
    BigEndian.value count = entries.length ∧ Records records entries ∧
    (entries.map Prod.fst).Nodup

theorem encode_word_eq_iff {word : UInt16} {high low : UInt8} :
    BigEndian.encode 2 word.toNat = [high, low] ↔
      BigEndian.value [high, low] = word.toNat := by
  have hWidth : [high, low].length = 2 := rfl
  have hLess : word.toNat < BigEndian.capacity 2 := word.toNat_lt
  rw [BigEndian.value_eq_iff, hWidth, and_iff_right hLess]

theorem records_iff {bytes : Bytes} {entries : List (TouchKey × UInt16)} :
    Records bytes entries ↔ bytes = entries.flatMap recordBytes := by
  constructor
  · intro h
    induction h with
    | nil => rfl
    | @cons bytes entries key command _ _ _ _ hRegion hCommand rest ih =>
        rw [List.flatMap_cons, recordBytes, TouchKey.toBytes, encode_word_eq_iff.mpr hRegion,
          encode_word_eq_iff.mpr hCommand, ← ih]
        rfl
  · rintro rfl
    induction entries with
    | nil => exact .nil
    | cons entry entries ih =>
        obtain ⟨key, command⟩ := entry
        exact .cons key command (encode_word_eq_iff.mp rfl) (encode_word_eq_iff.mp rfl) ih

/-- A payload of the format is what the encoder makes of its records. -/
theorem inFormat_iff {bytes : Bytes} {entries : List (TouchKey × UInt16)} :
    InFormat bytes entries ↔ entries.length < UInt32.size ∧ (entries.map Prod.fst).Nodup ∧
      bytes = BigEndian.encode 4 entries.length ++ entries.flatMap recordBytes := by
  constructor
  · rintro ⟨count, records, rfl, hWidth, hCount, hRecords, hKeys⟩
    rw [BigEndian.value_eq_iff, hWidth] at hCount
    obtain ⟨hLess, hField⟩ := hCount
    rw [records_iff.mp hRecords, hField]
    exact ⟨hLess, hKeys, rfl⟩
  · rintro ⟨hLess, hKeys, rfl⟩
    exact ⟨_, _, rfl, BigEndian.encode_length 4 _, BigEndian.value_encode hLess,
      records_iff.mpr rfl, hKeys⟩

/-- What a table is written as is of the format, with the entries as its records. -/
theorem inFormat_toList_iff {bytes : Bytes} {table : TruthTable} :
    InFormat bytes table.toList ↔ table.size < UInt32.size ∧ bytes = table.toBytes := by
  rw [inFormat_iff, toBytes, size, OrderedMap.size_eq_length]
  exact ⟨fun h => ⟨h.1, h.2.2⟩, fun h => ⟨h.1, table.commands.nodup_keys, h.2⟩⟩

/-- The decoder accepts just the payloads of the format, and gives their records. -/
theorem ofBytes_eq_ok_iff {bytes : Bytes} {grid : InputGrid} {table : TruthTable} :
    ofBytes bytes grid = .ok table ↔ table.grid = grid ∧ InFormat bytes table.toList := by
  rw [inFormat_toList_iff]
  constructor
  · intro h
    obtain ⟨hBytes, hGrid, hSize⟩ := toBytes_of_ofBytes h
    exact ⟨hGrid, hSize, hBytes.symm⟩
  · rintro ⟨rfl, hSize, rfl⟩
    exact ofBytes_toBytes hSize

/-- Entries of which no two have one key are the entries of a table. -/
theorem exists_toList_eq (grid : InputGrid) {entries : List (TouchKey × UInt16)}
    (h : (entries.map Prod.fst).Nodup) :
    ∃ table : TruthTable, table.grid = grid ∧ table.toList = entries :=
  ⟨⟨grid, .ofList entries⟩, rfl, OrderedMap.toList_foldl_insert h⟩

/-- A payload decodes exactly if it is of the format, to the table that has its records as
entries in their order, and the table is written as the same bytes. Every table that fits
the count field, however it came about, is read back with its order. -/
theorem ofBytes_toBytes_bijective (grid : InputGrid) (bytes : Bytes) :
    (∀ table, ofBytes bytes grid = .ok table ↔
        table.grid = grid ∧ InFormat bytes table.toList) ∧
      (∀ entries, InFormat bytes entries →
        ∃ table, ofBytes bytes grid = .ok table ∧ table.toList = entries) ∧
      (∀ table, ofBytes bytes grid = .ok table → table.toBytes = bytes) ∧
      ∀ table : TruthTable, table.size < UInt32.size →
        ofBytes table.toBytes table.grid = .ok table := by
  refine ⟨fun _ => ofBytes_eq_ok_iff, ?_, fun _ h => (toBytes_of_ofBytes h).1,
    fun _ => ofBytes_toBytes⟩
  intro entries hFormat
  obtain ⟨-, hKeys, -⟩ := inFormat_iff.mp hFormat
  obtain ⟨table, hGrid, rfl⟩ := exists_toList_eq grid hKeys
  exact ⟨table, ofBytes_eq_ok_iff.mpr ⟨hGrid, hFormat⟩, rfl⟩

/-- A table with a key that was put in twice. -/
def overwrittenTable : TruthTable :=
  ⟨.standard, .ofList [(.ofRegion 0x0102, 5), (.ofRegion 7, 6), (.ofRegion 0x0102, 8)]⟩

theorem toList_overwrittenTable :
    overwrittenTable.toList = [(.ofRegion 0x0102, 8), (.ofRegion 7, 6)] := by
  rw [toList, overwrittenTable, OrderedMap.toList_ofList]
  decide

/-- A key that was put in twice is written once, at its first place and with its last value. -/
theorem ofBytes_toBytes_bijective_overwrittenTable :
    InFormat [0, 0, 0, 2, 6, 0, 0, 1, 2, 0, 0, 0, 8, 6, 0, 0, 0, 7, 0, 0, 0, 6]
        [(.ofRegion 0x0102, 8), (.ofRegion 7, 6)] ∧
      overwrittenTable.toBytes =
        [0, 0, 0, 2, 6, 0, 0, 1, 2, 0, 0, 0, 8, 6, 0, 0, 0, 7, 0, 0, 0, 6] ∧
      ofBytes [0, 0, 0, 2, 6, 0, 0, 1, 2, 0, 0, 0, 8, 6, 0, 0, 0, 7, 0, 0, 0, 6] .standard =
        .ok overwrittenTable := by
  have hSize : overwrittenTable.size = 2 := by
    rw [size, OrderedMap.size_eq_length]
    exact congrArg List.length toList_overwrittenTable
  have hBytes : overwrittenTable.toBytes =
      [0, 0, 0, 2, 6, 0, 0, 1, 2, 0, 0, 0, 8, 6, 0, 0, 0, 7, 0, 0, 0, 6] := by
    rw [toBytes, hSize, toList_overwrittenTable]
    decide
  obtain ⟨hFormat, -, -, hRead⟩ := ofBytes_toBytes_bijective .standard overwrittenTable.toBytes
  have hLess : overwrittenTable.size < UInt32.size := by
    rw [hSize]
    decide
  have hTable := hRead overwrittenTable hLess
  have hRecords := ((hFormat overwrittenTable).mp hTable).2
  rw [hBytes] at hTable hRecords
  rw [toList_overwrittenTable] at hRecords
  exact ⟨hRecords, hBytes, hTable⟩

end ImageCartridge.TruthTable
