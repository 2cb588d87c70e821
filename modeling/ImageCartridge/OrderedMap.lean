import Std.Data.HashMap

/-! A finite map that remembers the order in which its keys were first put in.
Writing to a key that is present keeps its place. The list of entries is the
whole content: the index beside it is a function of the keys, so two maps with
the same entries are equal. -/
namespace ImageCartridge

/-- Where each key stands in a list of distinct keys. -/
def positions {α : Type} [DecidableEq α] [Hashable α] (keys : List α) : Std.HashMap α Nat :=
  keys.foldl (fun index key => index.insert key index.size) ∅

theorem positions_concat {α : Type} [DecidableEq α] [Hashable α] (keys : List α) (key : α) :
    positions (keys ++ [key]) = (positions keys).insert key (positions keys).size := by
  simp [positions]

/-- The index knows exactly the keys that have been put in. -/
theorem mem_positions {α : Type} [DecidableEq α] [Hashable α] (keys : List α) (key : α) :
    key ∈ positions keys ↔ key ∈ keys := by
  rw [← List.reverse_reverse keys]
  induction keys.reverse with
  | nil => simp [positions]
  | cons last before ih =>
      rw [List.reverse_cons, positions_concat, Std.HashMap.mem_insert]
      simp only [ih, List.mem_append, List.mem_reverse, List.mem_singleton, beq_iff_eq]
      constructor
      · rintro (h | h)
        · exact Or.inr h.symm
        · exact Or.inl h
      · rintro (h | h)
        · exact Or.inr h
        · exact Or.inl h.symm

theorem size_positions {α : Type} [DecidableEq α] [Hashable α] {keys : List α}
    (h : keys.Nodup) : (positions keys).size = keys.length := by
  revert h
  rw [← List.reverse_reverse keys]
  induction keys.reverse with
  | nil => simp [positions]
  | cons last before ih =>
      intro h
      rw [List.reverse_cons] at h ⊢
      have hBefore := (List.nodup_append.mp h).1
      have hFresh : last ∉ positions before.reverse := by
        rw [mem_positions]
        intro hMem
        exact (List.nodup_append.mp h).2.2 last hMem last (by simp) rfl
      rw [positions_concat, Std.HashMap.size_insert, if_neg hFresh, ih hBefore]
      simp

/-- The last element of a list stands behind all places of the others. -/
theorem getElem?_concat_eq_some_iff {α : Type} {before : List α} {last key : α} {place : Nat} :
    (before ++ [last])[place]? = some key ↔
      before[place]? = some key ∨ (place = before.length ∧ last = key) := by
  rcases Nat.lt_or_ge place before.length with hLess | hMore
  · rw [List.getElem?_append_left hLess]
    exact ⟨Or.inl, fun h => h.elim id fun hEnd => absurd hEnd.1 (Nat.ne_of_lt hLess)⟩
  · rw [List.getElem?_append_right hMore, List.getElem?_eq_none hMore]
    rcases hPast : place - before.length with _ | past
    · have hEnd : place = before.length := by omega
      simp [hEnd]
    · have hFar : place ≠ before.length := by omega
      simp [hFar]

/-- Among distinct keys, the index tells for each key the one place it stands at. -/
theorem getElem?_positions_eq_some_iff {α : Type} [DecidableEq α] [Hashable α] {keys : List α}
    (h : keys.Nodup) (key : α) (place : Nat) :
    (positions keys)[key]? = some place ↔ keys[place]? = some key := by
  revert h
  rw [← List.reverse_reverse keys]
  induction keys.reverse generalizing place with
  | nil => simp [positions]
  | cons last before ih =>
      intro h
      rw [List.reverse_cons] at h ⊢
      have hBefore := (List.nodup_append.mp h).1
      have hFresh : last ∉ before.reverse := fun hMem =>
        (List.nodup_append.mp h).2.2 last hMem last (by simp) rfl
      rw [positions_concat, Std.HashMap.getElem?_insert, size_positions hBefore,
        getElem?_concat_eq_some_iff]
      by_cases hLast : last = key
      · subst hLast
        rw [if_pos (beq_self_eq_true last)]
        constructor
        · intro hPlace
          exact Or.inr ⟨(Option.some.inj hPlace).symm, rfl⟩
        · rintro (hAt | hEnd)
          · exact absurd (List.mem_of_getElem? hAt) hFresh
          · rw [hEnd.1]
      · rw [if_neg (by simpa using hLast), ih place hBefore]
        exact ⟨Or.inl, fun hAt => hAt.elim id fun hEnd => absurd hEnd.2 hLast⟩

/-- An insertion-ordered map with look-up in constant time. -/
structure OrderedMap (α β : Type) [DecidableEq α] [Hashable α] where
  entries : Array (α × β)
  index : Std.HashMap α Nat
  nodup_keys : (entries.toList.map Prod.fst).Nodup
  index_eq : index = positions (entries.toList.map Prod.fst)

namespace OrderedMap

variable {α β : Type} [DecidableEq α] [Hashable α]

def toList (m : OrderedMap α β) : List (α × β) :=
  m.entries.toList

/-- Maps with the same entries in the same order are equal. -/
theorem ext_toList {m n : OrderedMap α β} (h : m.toList = n.toList) : m = n := by
  rcases m with ⟨entries, index, hNodup, hIndex⟩
  rcases n with ⟨others, otherIndex, hNodup', hIndex'⟩
  have hEntries : entries = others := Array.toList_inj.mp h
  subst hEntries
  subst hIndex
  subst hIndex'
  rfl

instance [DecidableEq β] : DecidableEq (OrderedMap α β) := fun m n =>
  if h : m.toList = n.toList then isTrue (ext_toList h)
  else isFalse fun hEq => h (congrArg toList hEq)

def empty : OrderedMap α β where
  entries := #[]
  index := positions []
  nodup_keys := by simp
  index_eq := rfl

def size (m : OrderedMap α β) : Nat :=
  m.entries.size

def isEmpty (m : OrderedMap α β) : Bool :=
  m.entries.isEmpty

def contains (m : OrderedMap α β) (key : α) : Bool :=
  m.index.contains key

def get? (m : OrderedMap α β) (key : α) : Option β := do
  let place ← m.index[key]?
  let entry ← m.entries[place]?
  return entry.2

/-- Set the value of a key. A new key goes last. -/
def insert (m : OrderedMap α β) (key : α) (value : β) : OrderedMap α β :=
  let ⟨entries, index, hNodup, hIndex⟩ := m
  match h : index[key]? with
  | some place =>
      { entries := entries.modify place fun entry => (entry.1, value)
        index
        nodup_keys := by
          rw [Array.toList_modify, modify_keys]
          exact hNodup
        index_eq := by
          rw [Array.toList_modify, modify_keys]
          exact hIndex }
  | none =>
      { entries := entries.push (key, value)
        index := index.insert key index.size
        nodup_keys := by
          have hAbsent : key ∉ entries.toList.map Prod.fst := by
            rw [← mem_positions, ← hIndex]
            simpa using h
          simp only [Array.toList_push, List.map_append, List.map_cons, List.map_nil]
          refine List.nodup_append.mpr ⟨hNodup, by simp, ?_⟩
          intro a ha b hb hEq
          simp only [List.mem_singleton] at hb
          exact hAbsent (hb ▸ hEq ▸ ha)
        index_eq := by
          simp only [Array.toList_push, List.map_append, List.map_cons, List.map_nil,
            positions_concat, ← hIndex] }
where
  modify_keys {entries : List (α × β)} {place : Nat} :
      (entries.modify place fun entry => (entry.1, value)).map Prod.fst
        = entries.map Prod.fst := by
    apply List.ext_getElem?
    intro i
    simp only [List.getElem?_map, List.getElem?_modify]
    split <;> cases entries[i]? <;> rfl

def ofList (entries : List (α × β)) : OrderedMap α β :=
  entries.foldl (fun m entry => m.insert entry.1 entry.2) empty

@[simp] theorem toList_empty : (empty : OrderedMap α β).toList = [] := rfl

theorem size_eq_length (m : OrderedMap α β) : m.size = m.toList.length := by
  simp [size, toList]

/-- Look-up by the index agrees with a search through the entries. -/
theorem contains_iff (m : OrderedMap α β) (key : α) :
    m.contains key = true ↔ key ∈ m.toList.map Prod.fst := by
  rw [contains, Std.HashMap.contains_iff_mem, m.index_eq, mem_positions, toList]

/-- Each key has the one value its entry shows. -/
theorem get?_eq_some_iff (m : OrderedMap α β) (key : α) (value : β) :
    m.get? key = some value ↔ (key, value) ∈ m.toList := by
  have hPlace := getElem?_positions_eq_some_iff m.nodup_keys key
  rw [← m.index_eq] at hPlace
  simp only [get?, bind, Option.bind_eq_some_iff, pure, Option.some.injEq]
  constructor
  · rintro ⟨place, hIndex, entry, hEntry, rfl⟩
    have hKey := (hPlace place).mp hIndex
    rw [List.getElem?_map, Array.getElem?_toList, hEntry] at hKey
    have hEq : (key, entry.2) = entry := Prod.ext (Option.some.inj hKey).symm rfl
    rw [hEq]
    exact Array.mem_toList_iff.mpr (Array.mem_of_getElem? hEntry)
  · intro hMem
    obtain ⟨place, hEntry⟩ := List.mem_iff_getElem?.mp hMem
    refine ⟨place, (hPlace place).mpr ?_, (key, value), ?_, rfl⟩
    · rw [List.getElem?_map]
      exact congrArg (Option.map Prod.fst) hEntry
    · rw [← Array.getElem?_toList]
      exact hEntry

/-- Writing to a key that is present changes the value of its entry only. -/
theorem toList_insert_of_mem {m : OrderedMap α β} {key : α} (value : β)
    (h : key ∈ m.toList.map Prod.fst) :
    (m.insert key value).toList
      = m.toList.map fun entry => if entry.1 = key then (key, value) else entry := by
  obtain ⟨entries, index, hNodup, hIndex⟩ := m
  have hPlace := getElem?_positions_eq_some_iff hNodup key
  rw [← hIndex] at hPlace
  obtain ⟨place, hAt⟩ := List.mem_iff_getElem?.mp h
  have hFound := (hPlace place).mpr hAt
  simp only [insert]
  split
  · next found hEq =>
      rw [hFound] at hEq
      cases hEq
      simp only [toList, Array.toList_modify]
      apply List.ext_getElem?
      intro i
      rw [List.getElem?_modify, List.getElem?_map]
      have hOther := hPlace i
      rw [hFound, List.getElem?_map] at hOther
      cases hEntry : entries.toList[i]? with
      | none => rfl
      | some entry =>
          rw [hEntry] at hOther
          simp only [Option.map_some, Option.some.injEq] at hOther ⊢
          by_cases hi : place = i
          · have hKey := hOther.mp hi
            simp [hi, hKey]
          · have hKey : entry.1 ≠ key := fun hKey => hi (hOther.mpr hKey)
            simp only [if_neg hi, if_neg hKey]
            rfl
  · next hEq =>
      rw [hFound] at hEq
      cases hEq

/-- A new key goes last. -/
theorem toList_insert_of_not_mem {m : OrderedMap α β} {key : α} (value : β)
    (h : key ∉ m.toList.map Prod.fst) :
    (m.insert key value).toList = m.toList ++ [(key, value)] := by
  obtain ⟨entries, index, hNodup, hIndex⟩ := m
  simp only [insert]
  split
  · next place hEq =>
      rw [hIndex] at hEq
      have hAt := (getElem?_positions_eq_some_iff hNodup key place).mp hEq
      exact absurd (List.mem_of_getElem? hAt) h
  · simp [toList]

omit [DecidableEq α] [Hashable α] in
/-- Among entries with distinct keys, none has the key of an earlier one. -/
theorem not_mem_keys_of_nodup {before after : List (α × β)} {entry : α × β}
    (h : ((before ++ entry :: after).map Prod.fst).Nodup) : entry.1 ∉ before.map Prod.fst := by
  intro hMem
  rw [List.map_append] at h
  exact (List.nodup_append.mp h).2.2 _ hMem _ List.mem_cons_self rfl

/-- Entries with new keys go last one after the other. -/
theorem toList_foldl_insert {entries : List (α × β)} {m : OrderedMap α β}
    (h : ((m.toList ++ entries).map Prod.fst).Nodup) :
    (entries.foldl (fun m entry => m.insert entry.1 entry.2) m).toList = m.toList ++ entries := by
  induction entries generalizing m with
  | nil => rw [List.foldl_nil, List.append_nil]
  | cons entry entries ih =>
      have hList := toList_insert_of_not_mem entry.2 (not_mem_keys_of_nodup h)
      rw [List.foldl_cons, ih, hList, List.append_assoc, List.singleton_append]
      rw [hList, List.append_assoc, List.singleton_append]
      exact h

/-- Putting the entries of a map in again gives the map. -/
theorem ofList_toList (m : OrderedMap α β) : ofList m.toList = m := by
  apply ext_toList
  rw [ofList, toList_foldl_insert, toList_empty, List.nil_append]
  exact m.nodup_keys

end OrderedMap

end ImageCartridge
