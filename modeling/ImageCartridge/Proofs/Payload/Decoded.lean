import ImageCartridge.Proofs.OrderedMap
import ImageCartridge.Proofs.Payload.Codec
import Mathlib.Algebra.Order.BigOperators.Group.List
import Mathlib.Algebra.Order.Ring.Nat

/-! What a payload that was decoded looks like. A truth table accounts for every
byte of its payload; a string table may have merged records with one key, and then
its own payload is shorter than the one it was read from. -/
namespace ImageCartridge

open Payload Fallible

namespace Payload.Reader

variable {α β : Type}

/-- Whenever the action succeeds, it has taken a front of the payload that stands
in a relation to its value. -/
def Takes (action : Read α) (law : Bytes → α → Prop) : Prop :=
  ∀ (r r' : Reader) (value : α), r.apply action = (.ok value, r') →
    ∃ bytes, r.rest = bytes ++ r'.rest ∧ law bytes value

/-- The first action of a sequence that succeeds can be looked at on its own. -/
theorem Takes.of_bind {action : Read α} {next : α → Read β} {law : Bytes → α → Prop}
    (h : Takes action law) {r r' : Reader} {b : β}
    (hRun : r.apply (action >>= next) = (.ok b, r')) :
    ∃ (a : α) (middle : Reader) (front : Bytes), law front a ∧ r.rest = front ++ middle.rest ∧
      middle.apply (next a) = (.ok b, r') := by
  obtain ⟨a, middle, hFirst, hNext⟩ := exists_of_apply_bind_eq_ok hRun
  obtain ⟨front, hFront, hLaw⟩ := h r middle a hFirst
  exact ⟨a, middle, front, hLaw, hFront, hNext⟩

/-- A field that was read can be written again byte by byte. -/
theorem encode_value_of_length {bytes : Bytes} {width : Nat} (h : bytes.length = width) :
    BigEndian.value bytes < BigEndian.capacity width ∧
      BigEndian.encode width (BigEndian.value bytes) = bytes := by
  subst h
  exact ⟨BigEndian.value_lt bytes, BigEndian.encode_value bytes⟩

theorem takes_take (n : Nat) : Takes (take n) fun bytes value => value = bytes ∧ bytes.length = n := by
  intro r r' value h
  rcases Nat.lt_or_ge r.rest.length n with hShort | hFits
  · rw [apply_take_of_lt hShort] at h
    cases h
  · rw [apply_take_of_le hFits] at h
    cases h
    exact ⟨_, (List.take_append_drop n r.rest).symm, rfl, List.length_take_of_le hFits⟩

theorem takes_byte : Takes byte fun bytes value => bytes = [value] := by
  intro r r' value h
  obtain ⟨_, middle, bytes, ⟨rfl, hLength⟩, hRest, h⟩ := (takes_take 1).of_bind h
  cases h
  obtain ⟨b, rfl⟩ := List.length_eq_one_iff.mp hLength
  exact ⟨[b], hRest, by simp [BigEndian.value]⟩

theorem takes_word16 : Takes word16 fun bytes word => bytes = BigEndian.encode 2 word.toNat := by
  intro r r' value h
  obtain ⟨_, middle, bytes, ⟨rfl, hLength⟩, hRest, h⟩ := (takes_take 2).of_bind h
  cases h
  obtain ⟨hLess, hField⟩ := encode_value_of_length hLength
  rw [← UInt16.toNat_ofNat_of_lt' hLess] at hField
  exact ⟨_, hRest, hField.symm⟩

theorem takes_word32 : Takes word32 fun bytes word => bytes = BigEndian.encode 4 word.toNat := by
  intro r r' value h
  obtain ⟨_, middle, bytes, ⟨rfl, hLength⟩, hRest, h⟩ := (takes_take 4).of_bind h
  cases h
  obtain ⟨hLess, hField⟩ := encode_value_of_length hLength
  rw [← UInt32.toNat_ofNat_of_lt' hLess] at hField
  exact ⟨_, hRest, hField.symm⟩

/-- A payload that decodes was taken to its last byte. -/
theorem Takes.of_decode {action : Read α} {law : Bytes → α → Prop} (h : Takes action law)
    {kind : String} {bytes : Bytes} {value : α} (hDecode : decode kind action bytes = .ok value) :
    law bytes value := by
  obtain ⟨r, hRun, hEmpty⟩ := exists_of_decode_eq_ok hDecode
  obtain ⟨taken, hRest, hLaw⟩ := h _ _ _ hRun
  rw [hEmpty, List.append_nil] at hRest
  change bytes = taken at hRest
  rw [hRest]
  exact hLaw

end Payload.Reader

open Reader

/-- Six bytes survive being read as a touch key. -/
theorem TouchKey.toBytes_ofBytes {bytes : Bytes} (h : bytes.length = byteLength) :
    (ofBytes bytes).toBytes = bytes := by
  match bytes, h with
  | [modeBits, touchType, high, low, gesture, timeBucket], _ =>
      obtain ⟨hLess, hField⟩ := encode_value_of_length (show [high, low].length = 2 from rfl)
      rw [← UInt16.toNat_ofNat_of_lt' hLess] at hField
      simp only [ofBytes, toBytes, List.getD_cons_zero, List.getD_cons_succ, hField,
        List.cons_append, List.nil_append]

namespace TruthTable

/-- A record is read only under a new key. -/
theorem takes_readRecord (table : TruthTable) :
    Takes (readRecord table) fun bytes result => ∃ entry : TouchKey × UInt16,
      entry.1 ∉ table.toList.map Prod.fst ∧ bytes = recordBytes entry ∧
        result = table.insert entry.1 entry.2 := by
  intro r r' result h
  unfold readRecord at h
  obtain ⟨keyLength, first, _, rfl, hFirst, h⟩ := takes_byte.of_bind h
  split at h
  · cases h
  · next hLength =>
      obtain ⟨key, second, _, ⟨rfl, hKey⟩, hSecond, h⟩ := (takes_take _).of_bind h
      obtain ⟨command, third, _, rfl, hThird, h⟩ := takes_word16.of_bind h
      split at h
      · cases h
      · next hAbsent =>
          cases h
          rw [OrderedMap.contains_iff] at hAbsent
          rw [Decidable.not_not] at hLength
          have hBytes : recordBytes (.ofBytes key, command) =
              [keyLength] ++ (key ++ BigEndian.encode 2 command.toNat) := by
            rw [recordBytes, TouchKey.toBytes_ofBytes hKey, ← hLength, UInt8.ofNat_toNat]
            rfl
          refine ⟨_, ?_, ⟨.ofBytes key, command⟩, hAbsent, hBytes.symm, rfl⟩
          rw [hFirst, hSecond, hThird, List.append_assoc, List.append_assoc]

/-- The loop puts the records it reads behind the entries that are there. -/
theorem takes_readRecords (count : Nat) (table : TruthTable) :
    Takes (readRecords count table) fun bytes result => ∃ entries : List (TouchKey × UInt16),
      entries.length = count ∧ bytes = entries.flatMap recordBytes ∧
        result.grid = table.grid ∧ result.toList = table.toList ++ entries := by
  induction count generalizing table with
  | zero =>
      intro r r' result h
      cases h
      exact ⟨[], rfl, [], rfl, rfl, rfl, (List.append_nil _).symm⟩
  | succ count ih =>
      intro r r' result h
      unfold readRecords at h
      obtain ⟨_, middle, front, ⟨entry, hNew, rfl, rfl⟩, hFront, h⟩ :=
        (takes_readRecord table).of_bind h
      obtain ⟨back, hBack, entries, hCount, rfl, hGrid, hList⟩ := ih _ _ _ _ h
      have hInsert : (table.insert entry.1 entry.2).toList = table.toList ++ [entry] :=
        OrderedMap.toList_insert_of_not_mem entry.2 hNew
      refine ⟨_, ?_, entry :: entries, congrArg Nat.succ hCount, rfl, hGrid, ?_⟩
      · rw [hFront, hBack, List.flatMap_cons, List.append_assoc]
      · rw [hList, hInsert, List.append_assoc, List.singleton_append]

/-- A table that was read is written as the bytes it was read from. -/
theorem toBytes_of_ofBytes {bytes : Bytes} {grid : InputGrid} {table : TruthTable}
    (h : ofBytes bytes grid = .ok table) :
    table.toBytes = bytes ∧ table.grid = grid ∧ table.size < UInt32.size := by
  have hTakes : Takes (do readRecords (← Reader.word32).toNat (empty grid)) fun bytes result =>
      result.toBytes = bytes ∧ result.grid = grid ∧ result.size < UInt32.size := by
    intro r r' result h
    obtain ⟨count, middle, _, rfl, hFront, h⟩ := takes_word32.of_bind h
    obtain ⟨back, hBack, entries, hCount, rfl, hGrid, hList⟩ := takes_readRecords _ _ _ _ _ h
    have hEntries : result.toList = entries := hList
    have hSize : result.size = count.toNat := by
      rw [← hCount, ← hEntries]
      exact OrderedMap.size_eq_length result.commands
    refine ⟨BigEndian.encode 4 count.toNat ++ entries.flatMap recordBytes, ?_, ?_, hGrid,
      hSize ▸ count.toNat_lt⟩
    · rw [hFront, hBack, List.append_assoc]
    · rw [toBytes, hSize, hEntries]
  exact hTakes.of_decode h

end TruthTable

/-- A well-formed byte string is the only spelling of its text. -/
theorem Text.Utf8.encode_of_decode? {bytes : Bytes} {s : String} (h : decode? bytes = some s) :
    encode s = bytes := by
  unfold decode? String.fromUTF8? at h
  split at h
  · cases h
    rfl
  · cases h

namespace StringTable

open Text

/-- A text that is read stands in the payload as it would be written. -/
theorem takes_readText : Takes readText fun bytes s => textBytes s = .ok bytes := by
  intro r r' s h
  unfold readText at h
  obtain ⟨length, first, _, rfl, hFirst, h⟩ := takes_word16.of_bind h
  obtain ⟨raw, second, _, ⟨rfl, hLength⟩, hSecond, h⟩ := (takes_take _).of_bind h
  split at h
  · next s' hText =>
      cases h
      have hRaw := Utf8.encode_of_decode? hText
      refine ⟨BigEndian.encode 2 length.toNat ++ raw, ?_, ?_⟩
      · rw [hFirst, hSecond, List.append_assoc]
      · rw [← hLength, ← hRaw]
        refine textBytes_eq_ok_iff.mpr ⟨?_, rfl⟩
        rw [hRaw, hLength]
        exact Nat.le_of_lt_succ length.toNat_lt
  · cases h

/-- The loop puts the entries it reads in one after the other. -/
theorem takes_readEntries (count : Nat) (table : StringTable) :
    Takes (readEntries count table) fun bytes result =>
      ∃ (entries : List (String × String)) (records : List Bytes), entries.length = count ∧
        List.Forall₂ (fun entry bytes => entryBytes entry = .ok bytes) entries records ∧
        bytes = records.flatten ∧
        result.texts = entries.foldl (fun m entry => m.insert entry.1 entry.2) table.texts := by
  induction count generalizing table with
  | zero =>
      intro r r' result h
      cases h
      exact ⟨[], rfl, [], [], rfl, .nil, rfl, rfl⟩
  | succ count ih =>
      intro r r' result h
      unfold readEntries at h
      obtain ⟨key, first, keyBytes, hKey, hFirst, h⟩ := takes_readText.of_bind h
      obtain ⟨value, second, valueBytes, hValue, hSecond, h⟩ := takes_readText.of_bind h
      obtain ⟨back, hBack, entries, records, hCount, hRecords, rfl, hTexts⟩ := ih _ _ _ _ h
      have hEntry : entryBytes (key, value) = .ok (keyBytes ++ valueBytes) :=
        bind_eq_ok_iff.mpr ⟨keyBytes, hKey, bind_eq_ok_iff.mpr ⟨valueBytes, hValue, rfl⟩⟩
      refine ⟨_, ?_, (key, value) :: entries, (keyBytes ++ valueBytes) :: records,
        congrArg Nat.succ hCount, .cons hEntry hRecords, rfl, hTexts⟩
      rw [hFirst, hSecond, hBack, List.flatten_cons]
      simp only [List.append_assoc]

/-- A payload that is read holds one record an entry, as they are written. -/
theorem exists_records_of_ofBytes {bytes : Bytes} {table : StringTable}
    (h : ofBytes bytes = .ok table) :
    ∃ (entries : List (String × String)) (records : List Bytes), entries.length ≤ fieldLimit ∧
      List.Forall₂ (fun entry bytes => entryBytes entry = .ok bytes) entries records ∧
      bytes = BigEndian.encode 2 entries.length ++ records.flatten ∧ table = ofList entries := by
  have hTakes : Takes (do readEntries (← Reader.word16).toNat empty) fun bytes result =>
      ∃ (entries : List (String × String)) (records : List Bytes), entries.length ≤ fieldLimit ∧
        List.Forall₂ (fun entry bytes => entryBytes entry = .ok bytes) entries records ∧
        bytes = BigEndian.encode 2 entries.length ++ records.flatten ∧
        result = ofList entries := by
    intro r r' result h
    obtain ⟨count, middle, _, rfl, hFront, h⟩ := takes_word16.of_bind h
    obtain ⟨back, hBack, entries, records, hCount, hRecords, rfl, hTexts⟩ :=
      takes_readEntries _ _ _ _ _ h
    refine ⟨BigEndian.encode 2 count.toNat ++ records.flatten, ?_, entries, records, ?_, hRecords,
      by rw [hCount], congrArg StringTable.mk hTexts⟩
    · rw [hFront, hBack, List.append_assoc]
    · rw [hCount]
      exact Nat.le_of_lt_succ count.toNat_lt
  exact hTakes.of_decode h

/-- The bytes an entry takes: its two texts, with a length of two bytes before each. -/
def entryLength (entry : String × String) : Nat :=
  2 + (Utf8.encode entry.1).length + (2 + (Utf8.encode entry.2).length)

theorem length_of_entryBytes {entry : String × String} {bytes : Bytes}
    (h : entryBytes entry = .ok bytes) : bytes.length = entryLength entry := by
  obtain ⟨-, -, rfl⟩ := entryBytes_eq_ok_iff.mp h
  simp only [List.length_append, BigEndian.encode_length, entryLength, Nat.add_assoc]

/-- The bytes of all entries together, counted without writing them. -/
theorem length_flatten_of_entryBytes {entries : List (String × String)} {records : List Bytes}
    (h : List.Forall₂ (fun entry bytes => entryBytes entry = .ok bytes) entries records) :
    records.flatten.length = (entries.map entryLength).sum := by
  induction h with
  | nil => rfl
  | cons hHead _ ih =>
      rw [List.flatten_cons, List.length_append, ih, length_of_entryBytes hHead, List.map_cons,
        List.sum_cons]

/-- A table that was read can be written, in no more bytes than it was read from.
They are fewer when a key came twice. -/
theorem exists_toBytes_of_ofBytes {bytes : Bytes} {table : StringTable}
    (h : ofBytes bytes = .ok table) :
    ∃ written, table.toBytes = .ok written ∧ written.length ≤ bytes.length := by
  obtain ⟨entries, records, hCount, hRecords, rfl, rfl⟩ := exists_records_of_ofBytes h
  have hKept : (ofList entries).toList.Subperm entries := OrderedMap.toList_ofList_subperm entries
  have hSize : (ofList entries).size ≤ fieldLimit := by
    refine le_trans ?_ hCount
    rw [size, OrderedMap.size_eq_length]
    exact hKept.length_le
  have hEntries : ∀ entry ∈ (ofList entries).toList, ∃ bytes, entryBytes entry = .ok bytes :=
    fun entry hMem => by
      obtain ⟨bytes, -, hBytes⟩ := exists_mem_of_forall₂ hRecords.flip (hKept.subset hMem)
      exact ⟨bytes, hBytes⟩
  obtain ⟨kept, hMap⟩ := exists_mapM_eq_ok hEntries
  have hForall := mapM_eq_ok_iff.mp hMap
  refine ⟨_, toBytes_eq_ok_iff.mpr ⟨hSize, kept, hForall, rfl⟩, ?_⟩
  simp only [List.length_append, BigEndian.encode_length, length_flatten_of_entryBytes hForall,
    length_flatten_of_entryBytes hRecords]
  obtain ⟨front, hPerm, hSub⟩ := hKept
  rw [← (hPerm.map entryLength).sum_eq]
  exact Nat.add_le_add_left ((hSub.map entryLength).sum_le_sum fun _ _ => Nat.zero_le _) _

end StringTable

end ImageCartridge
