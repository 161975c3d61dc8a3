import PluginKit.Wire.KeyMap

/-!
# Maps by what their keys stand for

Two maps are equal when each key stands for the same in both. So it does not matter in which order
the entries of a map, whose keys are all different, are put into another.
-/

namespace PluginKit

namespace Wire

namespace KeyMap

variable {α β : Type} {m m' : KeyMap α} {key other : String} {value : α}

def mapValues (f : α → β) (m : KeyMap α) : KeyMap β :=
  ⟨m.entries.map fun entry => (entry.1, f entry.2), by
    rw [List.pairwise_map]
    exact m.ascending⟩

/-- The first map with the entries of the second put in, which win. -/
def override (m m' : KeyMap α) : KeyMap α :=
  m'.entries.foldl (fun m entry => m.insert entry.1 entry.2) m

theorem mapValues_eq_self {f : α → α} (h : ∀ entry ∈ m.entries, f entry.2 = entry.2) :
    m.mapValues f = m := by
  obtain ⟨entries, hasc⟩ := m
  simp only [mapValues, KeyMap.mk.injEq]
  rw [List.map_congr_left (g := id) fun entry hmem => by rw [h entry hmem]; rfl, List.map_id]

theorem mapValues_of_isEmpty {f : α → β} (h : m.isEmpty = true) : m.mapValues f = empty := by
  obtain ⟨entries, hasc⟩ := m
  have hnil : entries = [] := List.isEmpty_iff.mp h
  subst hnil
  rfl

/-! ## Looking up -/

theorem find?_insertEntry_self (entries : List (String × α)) :
    ((insertEntry key value entries).find? fun entry => entry.1 == key) = some (key, value) := by
  induction entries with
  | nil => simp [insertEntry]
  | cons head rest ih =>
      obtain ⟨k, v⟩ := head
      simp only [insertEntry]
      by_cases hlt : key < k
      · simp [hlt]
      · by_cases heq : key = k
        · simp [heq]
        · have hne : k ≠ key := fun h => heq h.symm
          simp [hlt, heq, hne, ih]

theorem find?_insertEntry_of_ne (h : other ≠ key) (entries : List (String × α)) :
    ((insertEntry key value entries).find? fun entry => entry.1 == other) =
      entries.find? fun entry => entry.1 == other := by
  have hkey : key ≠ other := fun heq => h heq.symm
  induction entries with
  | nil => simp [insertEntry, hkey]
  | cons head rest ih =>
      obtain ⟨k, v⟩ := head
      simp only [insertEntry]
      by_cases hlt : key < k
      · simp [hlt, hkey]
      · by_cases heq : key = k
        · subst heq
          simp [hkey]
        · rw [if_neg hlt, if_neg heq, List.find?_cons, List.find?_cons, ih]

theorem get?_insert (m : KeyMap α) (key other : String) (value : α) :
    (m.insert key value).get? other = if other = key then some value else m.get? other := by
  by_cases h : other = key
  · subst h
    simp [get?, insert, find?_insertEntry_self]
  · simp [get?, insert, find?_insertEntry_of_ne h, h]

theorem get?_empty (key : String) : (empty : KeyMap α).get? key = none := rfl

theorem different_keys (m : KeyMap α) : m.entries.Pairwise fun a b => a.1 ≠ b.1 := by
  refine m.ascending.imp ?_
  intro a b hlt heq
  rw [heq] at hlt
  exact String.lt_irrefl _ hlt

/-- Among entries with different keys, an entry is found under its key. -/
theorem find?_eq_some_iff {entries : List (String × α)}
    (h : entries.Pairwise fun a b => a.1 ≠ b.1) :
    (entries.find? fun entry => entry.1 == key) = some (key, value) ↔
      (key, value) ∈ entries := by
  constructor
  · exact List.mem_of_find?_eq_some
  · intro hmem
    induction entries with
    | nil => simp at hmem
    | cons head rest ih =>
        obtain ⟨hhead, hrest⟩ := List.pairwise_cons.mp h
        rcases List.mem_cons.mp hmem with rfl | hmem
        · simp
        · have hne : head.1 ≠ key := hhead _ hmem
          simp [hne, ih hrest hmem]

theorem get?_eq_some_iff : m.get? key = some value ↔ (key, value) ∈ m.entries := by
  rw [← find?_eq_some_iff m.different_keys, get?, Option.map_eq_some_iff]
  constructor
  · rintro ⟨⟨k, v⟩, hfound, rfl⟩
    have hkey : k = key := by simpa using List.find?_some hfound
    exact hkey ▸ hfound
  · intro hfound
    exact ⟨_, hfound, rfl⟩

theorem nodup_entries (m : KeyMap α) : m.entries.Nodup :=
  m.different_keys.imp fun hne heq => hne (congrArg Prod.fst heq)

theorem ext_get? (h : ∀ key, m.get? key = m'.get? key) : m = m' := by
  have hmem : ∀ entry, entry ∈ m.entries ↔ entry ∈ m'.entries := by
    rintro ⟨key, value⟩
    rw [← get?_eq_some_iff, ← get?_eq_some_iff, h]
  have hperm : m.entries.Perm m'.entries :=
    (List.perm_ext_iff_of_nodup m.nodup_entries m'.nodup_entries).mpr hmem
  have hentries : m.entries = m'.entries :=
    hperm.eq_of_pairwise (fun a b _ _ hab hba => absurd (String.lt_trans hab hba)
      (String.lt_irrefl _)) m.ascending m'.ascending
  obtain ⟨entries, hasc⟩ := m
  obtain ⟨entries', hasc'⟩ := m'
  simp only at hentries
  subst hentries
  rfl

/-! ## Putting entries in -/

theorem get?_foldl_insert {entries : List (String × α)}
    (h : entries.Pairwise fun a b => a.1 ≠ b.1) (m : KeyMap α) (key : String) :
    (entries.foldl (fun m entry => m.insert entry.1 entry.2) m).get? key =
      ((entries.find? fun entry => entry.1 == key).map Prod.snd).or (m.get? key) := by
  induction entries generalizing m with
  | nil => simp
  | cons head rest ih =>
      obtain ⟨hhead, hrest⟩ := List.pairwise_cons.mp h
      rw [List.foldl_cons, ih hrest, get?_insert]
      by_cases hkey : head.1 = key
      · -- No later entry has the key of the first one.
        have hnone : (rest.find? fun entry => entry.1 == key) = none := by
          rw [List.find?_eq_none]
          intro entry hmem
          have hne := hhead entry hmem
          simp [← hkey, Ne.symm hne]
        simp [hkey, hnone]
      · simp [hkey, Ne.symm hkey]

/-- The second map decides where it has a key, and the first map elsewhere. -/
theorem get?_override (m m' : KeyMap α) (key : String) :
    (m.override m').get? key = (m'.get? key).or (m.get? key) :=
  get?_foldl_insert m'.different_keys m key

theorem empty_override (m : KeyMap α) : empty.override m = m :=
  ext_get? fun key => by rw [get?_override, get?_empty, Option.or_none]

theorem find?_perm {entries entries' : List (String × α)} (h : entries.Perm entries')
    (hkeys : entries.Pairwise fun a b => a.1 ≠ b.1) (key : String) :
    (entries.find? fun entry => entry.1 == key) = entries'.find? fun entry => entry.1 == key := by
  have hkeys' : entries'.Pairwise fun a b => a.1 ≠ b.1 :=
    (h.pairwise_iff fun hne => Ne.symm hne).mp hkeys
  apply Option.ext
  rintro ⟨k, value⟩
  by_cases hk : k = key
  · subst hk
    rw [find?_eq_some_iff hkeys, find?_eq_some_iff hkeys', h.mem_iff]
  · have hnone : ∀ l : List (String × α),
        (l.find? fun entry => entry.1 == key) ≠ some (k, value) := fun l hfound =>
      hk (by simpa using List.find?_some hfound)
    simp [hnone]

/-- The order in which the entries of a map are put into another does not matter. -/
theorem foldl_insert_perm {entries : List (String × α)} (h : entries.Perm m'.entries)
    (m : KeyMap α) :
    entries.foldl (fun m entry => m.insert entry.1 entry.2) m = m.override m' := by
  have hkeys : entries.Pairwise fun a b => a.1 ≠ b.1 :=
    (h.pairwise_iff fun hne => Ne.symm hne).mpr m'.different_keys
  refine ext_get? fun key => ?_
  rw [get?_foldl_insert hkeys, get?_override, find?_perm h hkeys]
  rfl

end KeyMap

end Wire

end PluginKit
