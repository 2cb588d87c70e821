import ImageCartridge.OrderedMap
import Mathlib.Data.List.Basic
import Mathlib.Data.List.Induction
import Mathlib.Data.List.Nodup
import Mathlib.Data.List.Perm.Subperm

/-! What an ordered map shows after it was written to. Of entries put in one after the
other it keeps, for each key, the last one, and puts it where the key first came. -/
namespace ImageCartridge

theorem getLast?_filter_concat {α : Type} (p : α → Bool) (xs : List α) (x : α) :
    ((xs ++ [x]).filter p).getLast? = if p x then some x else (xs.filter p).getLast? := by
  rw [List.filter_append, List.getLast?_append]
  by_cases h : p x = true <;> simp [h]

namespace OrderedMap

variable {α β : Type} [DecidableEq α] [Hashable α]

/-- A key keeps its place when its value changes. -/
theorem keys_insert (m : OrderedMap α β) (key : α) (value : β) :
    (m.insert key value).toList.map Prod.fst =
      if key ∈ m.toList.map Prod.fst then m.toList.map Prod.fst
      else m.toList.map Prod.fst ++ [key] := by
  split
  · next hKey =>
      rw [toList_insert_of_mem value hKey, List.map_map]
      apply List.map_congr_left
      intro entry _
      by_cases hEntry : entry.1 = key <;> simp [hEntry]
  · next hKey => simp [toList_insert_of_not_mem value hKey]

theorem get?_insert_self (m : OrderedMap α β) (key : α) (value : β) :
    (m.insert key value).get? key = some value := by
  rw [get?_eq_some_iff]
  by_cases hKey : key ∈ m.toList.map Prod.fst
  · rw [toList_insert_of_mem value hKey]
    obtain ⟨entry, hMem, hEntry⟩ := List.mem_map.mp hKey
    exact List.mem_map.mpr ⟨entry, hMem, if_pos hEntry⟩
  · simp [toList_insert_of_not_mem value hKey]

theorem get?_insert_of_ne (m : OrderedMap α β) {key other : α} (value : β) (h : other ≠ key) :
    (m.insert key value).get? other = m.get? other := by
  apply Option.ext
  intro found
  simp only [get?_eq_some_iff]
  by_cases hKey : key ∈ m.toList.map Prod.fst
  · rw [toList_insert_of_mem value hKey, List.mem_map]
    constructor
    · rintro ⟨entry, hMem, hEntry⟩
      split at hEntry
      · cases hEntry
        exact absurd rfl h
      · exact hEntry ▸ hMem
    · exact fun hMem => ⟨(other, found), hMem, if_neg h⟩
  · simp [toList_insert_of_not_mem value hKey, h]

/-- Writing changes what the one key gives. -/
theorem get?_insert (m : OrderedMap α β) (key other : α) (value : β) :
    (m.insert key value).get? other = if other = key then some value else m.get? other := by
  split
  · next hOther => rw [hOther, get?_insert_self]
  · next hOther => exact get?_insert_of_ne m value hOther

@[simp] theorem get?_empty (key : α) : (empty : OrderedMap α β).get? key = none := by
  apply Option.eq_none_iff_forall_ne_some.mpr
  intro value hSome
  simp [get?_eq_some_iff] at hSome

theorem ofList_concat (entries : List (α × β)) (entry : α × β) :
    ofList (entries ++ [entry]) = (ofList entries).insert entry.1 entry.2 := by
  simp [ofList]

def last? (entries : List (α × β)) (key : α) : Option (α × β) :=
  (entries.filter fun entry => entry.1 = key).getLast?

/-- The last entry of each key, in the order in which the keys first came. -/
def lastOfEach (entries : List (α × β)) : List (α × β) :=
  (entries.map Prod.fst).eraseDups.filterMap (last? entries)

omit [Hashable α] in
theorem last?_concat (entries : List (α × β)) (entry : α × β) (key : α) :
    last? (entries ++ [entry]) key = if key = entry.1 then some entry else last? entries key := by
  rw [last?, getLast?_filter_concat]
  simp [last?, eq_comm]

omit [Hashable α] in
theorem fst_of_last? {entries : List (α × β)} {key : α} {entry : α × β}
    (h : last? entries key = some entry) : entry.1 = key := by
  have hMem := List.mem_of_getLast? h
  simpa using (List.mem_filter.mp hMem).2

/-- Keys stand in the order in which they first came. -/
theorem keys_ofList (entries : List (α × β)) :
    (ofList entries).toList.map Prod.fst = (entries.map Prod.fst).eraseDups := by
  induction entries using List.reverseRecOn with
  | nil => rfl
  | append_singleton entries entry ih =>
      rw [ofList_concat, keys_insert, ih, List.map_append, List.eraseDups_append]
      by_cases hOld : entry.1 ∈ (entries.map Prod.fst).eraseDups
      · have hMem := List.mem_eraseDups.mp hOld
        rw [if_pos hOld]
        simp [List.removeAll, hMem]
      · have hNew := mt List.mem_eraseDups.mpr hOld
        rw [if_neg hOld]
        simp [List.removeAll, hNew, List.eraseDups_cons]

/-- The last entry of a key decides. -/
theorem get?_ofList (entries : List (α × β)) (key : α) :
    (ofList entries).get? key = (last? entries key).map Prod.snd := by
  induction entries using List.reverseRecOn with
  | nil => simp [ofList, last?]
  | append_singleton entries entry ih =>
      rw [ofList_concat, get?_insert, ih, last?_concat]
      split <;> rfl

/-- The entries of a map are its keys in their order, each with the value it gives. -/
theorem toList_eq_filterMap_keys (m : OrderedMap α β) :
    m.toList = (m.toList.map Prod.fst).filterMap fun key => (m.get? key).map (Prod.mk key) := by
  rw [List.filterMap_map]
  have hEach : ∀ entry ∈ m.toList, some entry =
      ((fun key => (m.get? key).map (Prod.mk key)) ∘ Prod.fst) entry := by
    intro entry hMem
    rw [Function.comp_apply, (get?_eq_some_iff m entry.1 entry.2).mpr hMem]
    rfl
  rw [← List.filterMap_congr hEach, List.filterMap_some]

/-- A list becomes the last entry of each key, in the order of the first ones. -/
theorem toList_ofList (entries : List (α × β)) :
    (ofList entries).toList = lastOfEach entries := by
  rw [toList_eq_filterMap_keys, keys_ofList]
  apply List.filterMap_congr
  intro key _
  rw [get?_ofList]
  cases hLast : last? entries key with
  | none => rfl
  | some entry =>
      rw [← fst_of_last? hLast]
      rfl

omit [Hashable α] in
theorem mem_of_mem_lastOfEach {entries : List (α × β)} {entry : α × β}
    (h : entry ∈ lastOfEach entries) : entry ∈ entries := by
  obtain ⟨key, -, hLast⟩ := List.mem_filterMap.mp h
  exact (List.mem_filter.mp (List.mem_of_getLast? hLast)).1

/-- A map holds some of the entries that were put in, each of them once. -/
theorem toList_ofList_subperm (entries : List (α × β)) :
    (ofList entries).toList.Subperm entries := by
  apply List.subperm_of_subset
  · exact List.Nodup.of_map Prod.fst (ofList entries).nodup_keys
  · rw [toList_ofList]
    intro entry
    exact mem_of_mem_lastOfEach

/-- Entries are kept as they are exactly if no key comes twice. -/
theorem toList_ofList_eq_self_iff (entries : List (α × β)) :
    (ofList entries).toList = entries ↔ (entries.map Prod.fst).Nodup := by
  constructor
  · intro hSame
    rw [← hSame]
    exact (ofList entries).nodup_keys
  · intro hKeys
    exact toList_foldl_insert hKeys

end OrderedMap

end ImageCartridge
