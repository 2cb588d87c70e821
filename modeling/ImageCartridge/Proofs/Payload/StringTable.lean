import ImageCartridge.Proofs.OrderedMap
import ImageCartridge.Proofs.Payload.Decoded

/-! The bytes of a string table, with each record written out. Records with one key are
merged when they are read, so a payload is written back as it was only if its keys are
distinct. -/
namespace ImageCartridge.StringTable

open Text Fallible

/-- The bytes are records one after the other: a key and a value, each behind its length
in two bytes. -/
inductive Records : Bytes → List (String × String) → Prop where
  | nil : Records [] []
  | cons {bytes : Bytes} {entries : List (String × String)} (key value : String)
      {keyHigh keyLow valueHigh valueLow : UInt8}
      (hKey : BigEndian.value [keyHigh, keyLow] = (Utf8.encode key).length)
      (hValue : BigEndian.value [valueHigh, valueLow] = (Utf8.encode value).length)
      (rest : Records bytes entries) :
      Records (keyHigh :: keyLow :: (Utf8.encode key ++
        valueHigh :: valueLow :: (Utf8.encode value ++ bytes))) ((key, value) :: entries)

/-- A payload of the format, with its records: their number in two bytes, then the records.
Nothing stands behind them. -/
def InFormat (bytes : Bytes) (entries : List (String × String)) : Prop :=
  ∃ high low records, bytes = high :: low :: records ∧
    BigEndian.value [high, low] = entries.length ∧ Records records entries

/-- Bytes hold one list of records only. The length before a text tells where it ends. -/
theorem Records.unique {bytes : Bytes} {entries others : List (String × String)}
    (h : Records bytes entries) (hOther : Records bytes others) : entries = others := by
  induction h generalizing others with
  | nil =>
      cases hOther
      rfl
  | @cons bytes entries key value keyHigh keyLow valueHigh valueLow hKey hValue rest ih =>
      generalize hBytes : keyHigh :: keyLow :: (Utf8.encode key ++
        valueHigh :: valueLow :: (Utf8.encode value ++ bytes)) = all at hOther
      cases hOther with
      | nil => cases hBytes
      | cons key' value' hKey' hValue' rest' =>
          simp only [List.cons.injEq] at hBytes
          obtain ⟨rfl, rfl, hText⟩ := hBytes
          obtain ⟨hSameKey, hBehind⟩ := List.append_inj hText (hKey.symm.trans hKey')
          simp only [List.cons.injEq] at hBehind
          obtain ⟨rfl, rfl, hLast⟩ := hBehind
          obtain ⟨hSameValue, rfl⟩ := List.append_inj hLast (hValue.symm.trans hValue')
          rw [Utf8.encode_injective hSameKey, Utf8.encode_injective hSameValue, ih rest']

/-- A payload has one list of records. The lengths before the texts leave no choice where to cut. -/
theorem InFormat.unique {bytes : Bytes} {entries others : List (String × String)}
    (h : InFormat bytes entries) (hOther : InFormat bytes others) : entries = others := by
  obtain ⟨high, low, records, rfl, -, hRecords⟩ := h
  obtain ⟨_, _, _, hBytes, -, hOthers⟩ := hOther
  cases hBytes
  exact hRecords.unique hOthers

/-- A length of two bytes is one that fits its field. -/
theorem encode_length_eq_iff {n : Nat} {high low : UInt8} :
    n ≤ fieldLimit ∧ BigEndian.encode 2 n = [high, low] ↔ BigEndian.value [high, low] = n := by
  have hWidth : [high, low].length = 2 := rfl
  have hCapacity : BigEndian.capacity 2 = fieldLimit + 1 := rfl
  rw [BigEndian.value_eq_iff, hWidth, hCapacity, Nat.lt_succ_iff]

theorem records_iff {bytes : Bytes} {entries : List (String × String)} :
    Records bytes entries ↔ ∃ parts,
      List.Forall₂ (fun entry part => entryBytes entry = .ok part) entries parts ∧
        bytes = parts.flatten := by
  constructor
  · intro h
    induction h with
    | nil => exact ⟨[], .nil, rfl⟩
    | @cons bytes entries key value _ _ _ _ hKey hValue rest ih =>
        obtain ⟨parts, hParts, rfl⟩ := ih
        obtain ⟨hKeyFits, hKeyField⟩ := encode_length_eq_iff.mpr hKey
        obtain ⟨hValueFits, hValueField⟩ := encode_length_eq_iff.mpr hValue
        refine ⟨_ :: parts, .cons (entryBytes_eq_ok_iff.mpr ⟨hKeyFits, hValueFits, rfl⟩) hParts, ?_⟩
        simp [hKeyField, hValueField]
  · rintro ⟨parts, hParts, rfl⟩
    induction hParts with
    | nil => exact .nil
    | @cons entry part entries parts hHead _ ih =>
        obtain ⟨hKeyFits, hValueFits, rfl⟩ := entryBytes_eq_ok_iff.mp hHead
        obtain ⟨keyHigh, keyLow, hKey⟩ : ∃ high low,
            BigEndian.encode 2 (Utf8.encode entry.1).length = [high, low] := ⟨_, _, rfl⟩
        obtain ⟨valueHigh, valueLow, hValue⟩ : ∃ high low,
            BigEndian.encode 2 (Utf8.encode entry.2).length = [high, low] := ⟨_, _, rfl⟩
        have hRecords := Records.cons entry.1 entry.2
          (encode_length_eq_iff.mp ⟨hKeyFits, hKey⟩) (encode_length_eq_iff.mp ⟨hValueFits, hValue⟩) ih
        rw [hKey, hValue]
        simpa using hRecords

theorem inFormat_iff {bytes : Bytes} {entries : List (String × String)} :
    InFormat bytes entries ↔ entries.length ≤ fieldLimit ∧ ∃ parts,
      List.Forall₂ (fun entry part => entryBytes entry = .ok part) entries parts ∧
        bytes = BigEndian.encode 2 entries.length ++ parts.flatten := by
  constructor
  · rintro ⟨high, low, records, rfl, hCount, hRecords⟩
    obtain ⟨parts, hParts, rfl⟩ := records_iff.mp hRecords
    obtain ⟨hFits, hField⟩ := encode_length_eq_iff.mpr hCount
    exact ⟨hFits, parts, hParts, by rw [hField]; rfl⟩
  · rintro ⟨hFits, parts, hParts, rfl⟩
    exact ⟨_, _, _, rfl, encode_length_eq_iff.mp ⟨hFits, rfl⟩, records_iff.mpr ⟨parts, hParts, rfl⟩⟩

/-- What a table is written as is of the format, with the entries as its records. -/
theorem toBytes_eq_ok_iff_inFormat {table : StringTable} {bytes : Bytes} :
    table.toBytes = .ok bytes ↔ InFormat bytes table.toList := by
  rw [toBytes_eq_ok_iff, inFormat_iff, size, OrderedMap.size_eq_length]
  rfl

/-- Every payload of the format is accepted, and repeated keys merge. -/
theorem ofBytes_of_inFormat {bytes : Bytes} {entries : List (String × String)}
    (h : InFormat bytes entries) : ofBytes bytes = .ok (ofList entries) := by
  obtain ⟨hFits, parts, hParts, rfl⟩ := inFormat_iff.mp h
  exact ofBytes_records hFits hParts

/-- A payload decodes exactly if it is of the format, to the table its records make when they
are put in one after the other. -/
theorem ofBytes_eq_ok_iff {bytes : Bytes} {table : StringTable} :
    ofBytes bytes = .ok table ↔ ∃ entries, InFormat bytes entries ∧ table = ofList entries := by
  constructor
  · intro h
    obtain ⟨entries, parts, hFits, hParts, hBytes, hTable⟩ := exists_records_of_ofBytes h
    exact ⟨entries, inFormat_iff.mpr ⟨hFits, parts, hParts, hBytes⟩, hTable⟩
  · rintro ⟨entries, hFormat, rfl⟩
    exact ofBytes_of_inFormat hFormat

/-- Which tables can be written, in terms of their lengths alone. -/
theorem exists_toBytes_iff (table : StringTable) :
    (∃ bytes, table.toBytes = .ok bytes) ↔ table.size ≤ fieldLimit ∧
      ∀ entry ∈ table.toList, (Utf8.encode entry.1).length ≤ fieldLimit ∧
        (Utf8.encode entry.2).length ≤ fieldLimit := by
  constructor
  · rintro ⟨bytes, h⟩
    obtain ⟨hSize, parts, hParts, -⟩ := toBytes_eq_ok_iff.mp h
    refine ⟨hSize, fun entry hMem => ?_⟩
    obtain ⟨part, -, hPart⟩ := exists_mem_of_forall₂ hParts.flip hMem
    obtain ⟨hKey, hValue, -⟩ := entryBytes_eq_ok_iff.mp hPart
    exact ⟨hKey, hValue⟩
  · exact fun h => exists_toBytes h.1 h.2

/-- Records are read back as they are exactly if no key comes twice among them. -/
theorem toBytes_ofList_eq_iff {bytes : Bytes} {entries : List (String × String)}
    (h : InFormat bytes entries) :
    (ofList entries).toBytes = .ok bytes ↔ (entries.map Prod.fst).Nodup := by
  rw [toBytes_eq_ok_iff_inFormat, ← OrderedMap.toList_ofList_eq_self_iff]
  constructor
  · exact fun hSame => hSame.unique h
  · intro hSame
    change InFormat bytes (OrderedMap.ofList entries).toList
    rw [hSame]
    exact h

/-- A table can be written exactly if the number of its entries and the length of each text
fit their fields, and it is read back with its order. A payload that is read has one list of
records. The table has the last of each key, in the order in which the keys first came, and
is written back, to the same bytes exactly if no key came twice. -/
theorem ofBytes_merges_records (table : StringTable) :
    ((∃ bytes, table.toBytes = .ok bytes) ↔ table.size ≤ 65535 ∧
        ∀ entry ∈ table.toList, (Utf8.encode entry.1).length ≤ 65535 ∧
          (Utf8.encode entry.2).length ≤ 65535) ∧
      (∀ bytes, table.toBytes = .ok bytes → ofBytes bytes = .ok table) ∧
      ∀ bytes, ofBytes bytes = .ok table →
        ∃ entries, (∀ others, InFormat bytes others ↔ others = entries) ∧
          table.toList = OrderedMap.lastOfEach entries ∧
          ∃ written, table.toBytes = .ok written ∧ ofBytes written = .ok table ∧
            (written = bytes ↔ (entries.map Prod.fst).Nodup) := by
  refine ⟨exists_toBytes_iff table, fun _ => ofBytes_of_toBytes, ?_⟩
  intro bytes h
  obtain ⟨entries, hFormat, rfl⟩ := ofBytes_eq_ok_iff.mp h
  obtain ⟨written, hWritten, -⟩ := exists_toBytes_of_ofBytes h
  have hOnly : ∀ others, InFormat bytes others ↔ others = entries :=
    fun others => ⟨fun hOther => hOther.unique hFormat, fun hSame => hSame ▸ hFormat⟩
  refine ⟨entries, hOnly, OrderedMap.toList_ofList entries, written, hWritten,
    ofBytes_of_toBytes hWritten, ?_⟩
  rw [← toBytes_ofList_eq_iff hFormat, hWritten, Except.ok.injEq]

/-- Three records. The last has the key of the first, and its value counts. -/
def repeatedKey : List (String × String) := [("by", "x"), ("\u00fc", ""), ("by", "\u00e9")]

/-- Three records, two of them with one key. -/
theorem inFormat_repeatedKey :
    InFormat [0, 3, 0, 2, 98, 121, 0, 1, 120, 0, 2, 195, 188, 0, 0, 0, 2, 98, 121, 0, 2, 195, 169]
      repeatedKey :=
  ⟨0, 3, _, rfl, rfl, .cons "by" "x" rfl rfl (.cons "\u00fc" "" rfl rfl
    (.cons "by" "\u00e9" rfl rfl .nil))⟩

/-- The table has two entries, and it is not written as the bytes it was read from. -/
theorem ofBytes_merges_records_repeatedKey :
    ∃ table : StringTable,
      ofBytes [0, 3, 0, 2, 98, 121, 0, 1, 120, 0, 2, 195, 188, 0, 0, 0, 2, 98, 121, 0, 2, 195, 169] =
        .ok table ∧ table.toList = [("by", "\u00e9"), ("\u00fc", "")] ∧
      ∃ written, table.toBytes = .ok written ∧
        written ≠ [0, 3, 0, 2, 98, 121, 0, 1, 120, 0, 2, 195, 188, 0, 0, 0, 2, 98, 121, 0, 2,
          195, 169] := by
  have hRead := ofBytes_of_inFormat inFormat_repeatedKey
  obtain ⟨-, -, hMerged⟩ := ofBytes_merges_records (ofList repeatedKey)
  obtain ⟨entries, hOnly, hList, written, hWritten, -, hSame⟩ := hMerged _ hRead
  obtain rfl := (hOnly _).mp inFormat_repeatedKey
  exact ⟨_, hRead, hList.trans (by decide), written, hWritten, mt hSame.mp (by decide)⟩

end ImageCartridge.StringTable
