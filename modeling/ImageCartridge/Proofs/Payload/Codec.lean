import ImageCartridge.Header
import ImageCartridge.Input.TruthTable
import ImageCartridge.StringTable
import ImageCartridge.Proofs.Payload.Reader

/-! The payloads whose layout is known are read back as they were written. -/
namespace ImageCartridge

open Payload Reader Fallible

namespace Header

/-- The header is read from thirty bytes, field by field as it is written. -/
theorem reads_read (h : Header) : Reads read h.toBytes h := by
  unfold read toBytes
  simp only [List.append_assoc]
  refine (reads_word32 _).bind ?_
  refine (reads_word16 _).bind ?_
  refine (reads_word16 _).bind ?_
  refine (reads_word16 _).bind ?_
  refine (reads_word16 _).bind ?_
  refine (reads_word16 _).bind ?_
  refine (reads_word32 _).bind ?_
  refine (reads_word32 0).bind ?_
  refine (reads_word16 _).bind ?_
  refine (reads_word16 0).bind ?_
  exact (reads_word32 _).map _

theorem length_toBytes (h : Header) : h.toBytes.length = 30 := by
  simp only [toBytes, List.length_append, BigEndian.encode_length]

/-- A header that is written is read back with all its fields. -/
theorem ofBytes_toBytes (h : Header) : ofBytes h.toBytes = .ok h :=
  h.reads_read.decode_eq_ok "header"

end Header

theorem TouchKey.length_toBytes (key : TouchKey) : key.toBytes.length = byteLength := rfl

/-- A touch key survives its six bytes. -/
theorem TouchKey.ofBytes_toBytes (key : TouchKey) : ofBytes key.toBytes = key := by
  obtain ⟨modeBits, touchType, region, gesture, timeBucket⟩ := key
  obtain ⟨high, low, hRegion⟩ : ∃ high low, BigEndian.encode 2 region.toNat = [high, low] :=
    ⟨_, _, rfl⟩
  have hValue : UInt16.ofNat (BigEndian.value [high, low]) = region := by
    rw [← hRegion, BigEndian.value_encode region.toNat_lt, UInt16.ofNat_toNat]
  simp only [toBytes, ofBytes, hRegion, List.cons_append, List.nil_append, List.getD_cons_zero,
    List.getD_cons_succ, hValue]

namespace TruthTable

theorem length_recordBytes (entry : TouchKey × UInt16) : (recordBytes entry).length = 9 := by
  rw [recordBytes, List.length_append, List.length_cons, TouchKey.length_toBytes,
    BigEndian.encode_length]
  rfl

/-- The length of a payload tells how many records it has. -/
theorem length_toBytes (table : TruthTable) : table.toBytes.length = 4 + 9 * table.size := by
  have hRecords : ∀ entries : List (TouchKey × UInt16),
      (entries.flatMap recordBytes).length = 9 * entries.length := by
    intro entries
    induction entries with
    | nil => rfl
    | cons entry entries ih =>
        rw [List.flatMap_cons, List.length_append, length_recordBytes, ih, List.length_cons]
        omega
  rw [toBytes, List.length_append, BigEndian.encode_length, hRecords, toList,
    ← OrderedMap.size_eq_length]
  rfl

/-- A record with a new key is read and put in last. -/
theorem reads_readRecord {table : TruthTable} {entry : TouchKey × UInt16}
    (hNew : entry.1 ∉ table.toList.map Prod.fst) :
    Reads (readRecord table) (recordBytes entry) (table.insert entry.1 entry.2) := by
  have hAbsent : ¬ table.commands.contains entry.1 = true := by
    rw [OrderedMap.contains_iff]
    exact hNew
  have hLength : ¬ (UInt8.ofNat TouchKey.byteLength).toNat ≠ TouchKey.byteLength := by decide
  have hBytes : recordBytes entry = [UInt8.ofNat TouchKey.byteLength] ++
      (entry.1.toBytes ++ BigEndian.encode 2 entry.2.toNat) := by
    simp only [recordBytes, List.cons_append, List.nil_append]
  unfold readRecord
  rw [hBytes]
  refine (reads_byte _).bind ?_
  rw [if_neg hLength]
  refine (reads_take entry.1.toBytes).bind ?_
  rw [TouchKey.ofBytes_toBytes]
  refine (reads_word16 _).last ?_
  rw [if_neg hAbsent]
  exact .pure _

/-- The loop reads records with distinct new keys, in their order. -/
theorem reads_readRecords {entries : List (TouchKey × UInt16)} {table : TruthTable}
    (hKeys : ((table.toList ++ entries).map Prod.fst).Nodup) :
    Reads (readRecords entries.length table) (entries.flatMap recordBytes)
      ⟨table.grid, entries.foldl (fun m entry => m.insert entry.1 entry.2) table.commands⟩ := by
  induction entries generalizing table with
  | nil => exact .pure table
  | cons entry entries ih =>
      have hNew := OrderedMap.not_mem_keys_of_nodup hKeys
      have hList : (table.insert entry.1 entry.2).toList = table.toList ++ [entry] :=
        OrderedMap.toList_insert_of_not_mem entry.2 hNew
      rw [List.flatMap_cons, List.length_cons, List.foldl_cons]
      refine (reads_readRecord hNew).bind (ih ?_)
      rw [hList, List.append_assoc, List.singleton_append]
      exact hKeys

/-- A truth table whose size fits its field is read back entry by entry. -/
theorem ofBytes_toBytes {table : TruthTable} (hSize : table.size < UInt32.size) :
    ofBytes table.toBytes table.grid = .ok table := by
  have hKeys : (((empty table.grid).toList ++ table.toList).map Prod.fst).Nodup :=
    table.commands.nodup_keys
  have hEntries : table.toList.foldl (fun m entry => m.insert entry.1 entry.2)
      (empty table.grid).commands = table.commands := OrderedMap.ofList_toList table.commands
  have hRecords := reads_readRecords hKeys
  rw [hEntries, toList, ← OrderedMap.size_eq_length] at hRecords
  obtain ⟨word, hWord, hReads⟩ := exists_reads_word32 hSize
  have hTable : Reads (do readRecords (← Reader.word32).toNat (empty table.grid)) table.toBytes
      table := by
    refine hReads.bind ?_
    rw [hWord]
    exact hRecords
  exact hTable.decode_eq_ok "truth table"

end TruthTable

/-- Every text is well formed once it is spelled in bytes. -/
theorem Text.Utf8.decode?_encode (s : String) : decode? (encode s) = some s := by
  have hBytes : (⟨(encode s).toArray⟩ : ByteArray) = s.toByteArray := rfl
  rw [decode?, hBytes, String.fromUTF8?, dif_pos s.isValidUTF8]
  rfl

/-- Texts that are spelled alike are alike. -/
theorem Text.Utf8.encode_injective : Function.Injective encode := by
  intro s t h
  have hText := decode?_encode s
  rw [h, decode?_encode] at hText
  exact (Option.some.inj hText).symm

namespace StringTable

open Text

/-- A text can be written if its bytes can be counted in two bytes. -/
theorem textBytes_eq_ok_iff {s : String} {bytes : Bytes} :
    textBytes s = .ok bytes ↔ (Utf8.encode s).length ≤ fieldLimit ∧
      bytes = BigEndian.encode 2 (Utf8.encode s).length ++ Utf8.encode s := by
  unfold textBytes
  dsimp only
  constructor
  · intro h
    split at h
    · next hLimit =>
        cases h
        exact ⟨hLimit, rfl⟩
    · cases h
  · rintro ⟨hLimit, rfl⟩
    exact if_pos hLimit

theorem entryBytes_eq_ok_iff {entry : String × String} {bytes : Bytes} :
    entryBytes entry = .ok bytes ↔
      (Utf8.encode entry.1).length ≤ fieldLimit ∧ (Utf8.encode entry.2).length ≤ fieldLimit ∧
        bytes = BigEndian.encode 2 (Utf8.encode entry.1).length ++ (Utf8.encode entry.1 ++
          (BigEndian.encode 2 (Utf8.encode entry.2).length ++ Utf8.encode entry.2)) := by
  unfold entryBytes
  constructor
  · intro h
    obtain ⟨key, hKey, h⟩ := bind_eq_ok_iff.mp h
    obtain ⟨value, hValue, h⟩ := bind_eq_ok_iff.mp h
    cases h
    obtain ⟨hKeyFits, rfl⟩ := textBytes_eq_ok_iff.mp hKey
    obtain ⟨hValueFits, rfl⟩ := textBytes_eq_ok_iff.mp hValue
    exact ⟨hKeyFits, hValueFits, List.append_assoc _ _ _⟩
  · rintro ⟨hKeyFits, hValueFits, rfl⟩
    refine bind_eq_ok_iff.mpr ⟨_, textBytes_eq_ok_iff.mpr ⟨hKeyFits, rfl⟩, ?_⟩
    refine bind_eq_ok_iff.mpr ⟨_, textBytes_eq_ok_iff.mpr ⟨hValueFits, rfl⟩, ?_⟩
    exact congrArg Except.ok (List.append_assoc _ _ _)

theorem reads_readText {s : String} {bytes : Bytes} (h : textBytes s = .ok bytes) :
    Reads readText bytes s := by
  obtain ⟨hLimit, rfl⟩ := textBytes_eq_ok_iff.mp h
  obtain ⟨word, hWord, hReads⟩ := exists_reads_word16 (Nat.lt_succ_of_le hLimit)
  unfold readText
  refine hReads.bind ?_
  rw [hWord]
  refine (reads_take (Utf8.encode s)).last ?_
  rw [Utf8.decode?_encode]
  exact .pure s

/-- The loop reads entries in their order. A repeated key would be no failure. -/
theorem reads_readEntries {entries : List (String × String)} {records : List Bytes}
    (h : List.Forall₂ (fun entry bytes => entryBytes entry = .ok bytes) entries records)
    (table : StringTable) :
    Reads (readEntries entries.length table) records.flatten
      ⟨entries.foldl (fun m entry => m.insert entry.1 entry.2) table.texts⟩ := by
  induction h generalizing table with
  | nil => exact .pure table
  | @cons entry bytes entries records hHead hRest ih =>
      obtain ⟨key, hKey, hThen⟩ := bind_eq_ok_iff.mp hHead
      obtain ⟨value, hValue, hBytes⟩ := bind_eq_ok_iff.mp hThen
      cases hBytes
      rw [List.flatten_cons, List.append_assoc]
      refine (reads_readText hKey).bind ?_
      refine (reads_readText hValue).bind ?_
      exact ih (table.insert entry.1 entry.2)

/-- A string table can be written if its entries can be counted and each of its texts can be
written. -/
theorem toBytes_eq_ok_iff {table : StringTable} {bytes : Bytes} :
    table.toBytes = .ok bytes ↔ table.size ≤ fieldLimit ∧ ∃ records,
      List.Forall₂ (fun entry bytes => entryBytes entry = .ok bytes) table.toList records ∧
      bytes = BigEndian.encode 2 table.size ++ records.flatten := by
  unfold toBytes
  constructor
  · intro h
    split at h
    · next hLimit =>
        obtain ⟨records, hRecords, hBytes⟩ := bind_eq_ok_iff.mp h
        cases hBytes
        exact ⟨hLimit, records, mapM_eq_ok_iff.mp hRecords, rfl⟩
    · cases h
  · rintro ⟨hLimit, records, hRecords, rfl⟩
    rw [if_pos hLimit]
    exact bind_eq_ok_iff.mpr ⟨records, mapM_eq_ok_iff.mpr hRecords, rfl⟩

/-- Records decode to the table they make when they are put in one after the other. -/
theorem ofBytes_records {entries : List (String × String)} {records : List Bytes}
    (hLimit : entries.length ≤ fieldLimit)
    (h : List.Forall₂ (fun entry bytes => entryBytes entry = .ok bytes) entries records) :
    ofBytes (BigEndian.encode 2 entries.length ++ records.flatten) = .ok (ofList entries) := by
  obtain ⟨word, hWord, hReads⟩ := exists_reads_word16 (Nat.lt_succ_of_le hLimit)
  have hTable : Reads (do readEntries (← Reader.word16).toNat empty)
      (BigEndian.encode 2 entries.length ++ records.flatten) (ofList entries) := by
    refine hReads.bind ?_
    rw [hWord]
    exact reads_readEntries h empty
  exact hTable.decode_eq_ok "string table"

/-- A string table that could be written is read back. -/
theorem ofBytes_of_toBytes {table : StringTable} {bytes : Bytes} (h : table.toBytes = .ok bytes) :
    ofBytes bytes = .ok table := by
  obtain ⟨hLimit, records, hRecords, rfl⟩ := toBytes_eq_ok_iff.mp h
  have hSize : table.size = table.toList.length := OrderedMap.size_eq_length table.texts
  have hTable : ofList table.toList = table :=
    congrArg StringTable.mk (OrderedMap.ofList_toList table.texts)
  rw [hSize] at hLimit ⊢
  rw [ofBytes_records hLimit hRecords, hTable]

/-- A table whose number of entries and whose texts fit their length fields can
be written. -/
theorem exists_toBytes {table : StringTable} (hSize : table.size ≤ fieldLimit)
    (hTexts : ∀ entry ∈ table.toList, (Utf8.encode entry.1).length ≤ fieldLimit ∧
      (Utf8.encode entry.2).length ≤ fieldLimit) :
    ∃ bytes, table.toBytes = .ok bytes := by
  have hEntries : ∀ entry ∈ table.toList, ∃ bytes, entryBytes entry = .ok bytes := by
    intro entry hMem
    obtain ⟨hKey, hValue⟩ := hTexts entry hMem
    exact ⟨_, entryBytes_eq_ok_iff.mpr ⟨hKey, hValue, rfl⟩⟩
  obtain ⟨records, hRecords⟩ := exists_mapM_eq_ok hEntries
  exact ⟨_, toBytes_eq_ok_iff.mpr ⟨hSize, records, mapM_eq_ok_iff.mp hRecords, rfl⟩⟩

end StringTable

end ImageCartridge
