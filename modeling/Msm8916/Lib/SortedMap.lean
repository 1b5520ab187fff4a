import Mathlib.Data.List.Dedup
import Mathlib.Data.List.Lex
import Mathlib.Order.Lattice

/-!
Finite maps kept as lists of entries in the strict order of their keys.
-/

namespace Msm8916.SortedMap

variable {κ ν : Type*} [LinearOrder κ]

/-- The value of a key in a list of entries. -/
def find (key : κ) : List (κ × ν) → Option ν
  | [] => none
  | entry :: entries => if key = entry.1 then some entry.2 else find key entries

/-- An entry in its place, instead of the one with its key. -/
def insert (key : κ) (value : ν) : List (κ × ν) → List (κ × ν)
  | [] => [(key, value)]
  | entry :: entries =>
      if key < entry.1 then
        (key, value) :: entry :: entries
      else if key = entry.1 then
        (key, value) :: entries
      else
        entry :: insert key value entries

/-- The keys are in strict order. -/
def Sorted (entries : List (κ × ν)) : Prop := entries.Pairwise fun a b => a.1 < b.1

theorem mem_insert {key : κ} {value : ν} {entry : κ × ν} {entries : List (κ × ν)}
    (h : entry ∈ insert key value entries) : entry = (key, value) ∨ entry ∈ entries := by
  induction entries with
  | nil => exact .inl (List.mem_singleton.mp h)
  | cons first entries ih =>
      rw [insert] at h
      split at h
      · exact List.mem_cons.mp h
      · split at h
        · exact (List.mem_cons.mp h).imp_right (List.mem_cons_of_mem first)
        · rcases List.mem_cons.mp h with rfl | hrest
          · exact .inr List.mem_cons_self
          · exact (ih hrest).imp_right (List.mem_cons_of_mem first)

theorem sorted_insert (key : κ) (value : ν) {entries : List (κ × ν)} (h : Sorted entries) :
    Sorted (insert key value entries) := by
  induction entries with
  | nil => exact List.pairwise_singleton _ _
  | cons first entries ih =>
      obtain ⟨hfirst, hrest⟩ := List.pairwise_cons.mp h
      rw [insert]
      split
      · rename_i hlt
        refine List.pairwise_cons.mpr ⟨fun entry hentry => ?_, h⟩
        rcases List.mem_cons.mp hentry with rfl | hmem
        · exact hlt
        · exact hlt.trans (hfirst entry hmem)
      · split
        · rename_i heq
          subst heq
          exact List.pairwise_cons.mpr ⟨hfirst, hrest⟩
        · rename_i hnlt hne
          refine List.pairwise_cons.mpr ⟨fun entry hentry => ?_, ih hrest⟩
          rcases mem_insert hentry with rfl | hmem
          · exact lt_of_le_of_ne (not_lt.mp hnlt) (Ne.symm hne)
          · exact hfirst entry hmem

theorem find_insert (key other : κ) (value : ν) (entries : List (κ × ν)) :
    find other (insert key value entries) =
      if other = key then some value else find other entries := by
  induction entries with
  | nil => rfl
  | cons first entries ih =>
      rw [insert]
      split
      · rfl
      · split
        · rename_i heq
          subst heq
          by_cases hother : other = first.1
          · simp [find, hother]
          · simp [find, hother]
        · rename_i hne
          rw [find, ih]
          by_cases hother : other = first.1
          · subst hother
            rw [if_pos rfl, if_neg (Ne.symm hne), find, if_pos rfl]
          · rw [if_neg hother, find, if_neg hother]

/-- An entry above all others comes last. -/
theorem insert_above {key : κ} {value : ν} {entries : List (κ × ν)}
    (h : ∀ entry ∈ entries, entry.1 < key) :
    insert key value entries = entries ++ [(key, value)] := by
  induction entries with
  | nil => rfl
  | cons first entries ih =>
      have hfirst := h first List.mem_cons_self
      rw [insert, if_neg hfirst.not_gt, if_neg hfirst.ne', List.cons_append,
        ih fun entry hentry => h entry (List.mem_cons_of_mem _ hentry)]

theorem find_filter (key other : κ) (entries : List (κ × ν)) :
    find other (entries.filter fun entry => entry.1 ≠ key) =
      if other = key then none else find other entries := by
  induction entries with
  | nil => simp [find]
  | cons first entries ih =>
      by_cases hfirst : first.1 = key
      · rw [List.filter_cons_of_neg (by simpa using hfirst), ih, find, hfirst]
        by_cases hother : other = key
        · rw [if_pos hother, if_pos hother]
        · rw [if_neg hother, if_neg hother, if_neg hother]
      · rw [List.filter_cons_of_pos (by simpa using hfirst), find, ih, find]
        by_cases hother : other = first.1
        · subst hother
          rw [if_pos rfl, if_neg hfirst, if_pos rfl]
        · rw [if_neg hother, if_neg hother]

end Msm8916.SortedMap

namespace Msm8916

/-- A map whose entries are in the order of their keys. -/
structure SortedMap (κ ν : Type*) [LinearOrder κ] where
  entries : List (κ × ν)
  sorted : SortedMap.Sorted entries

namespace SortedMap

variable {κ ν : Type*} [LinearOrder κ]

@[ext]
theorem ext {m m' : SortedMap κ ν} (h : m.entries = m'.entries) : m = m' := by
  obtain ⟨entries, sorted⟩ := m
  obtain ⟨entries', sorted'⟩ := m'
  obtain rfl : entries = entries' := h
  rfl

def empty : SortedMap κ ν where
  entries := []
  sorted := .nil

def lookup (m : SortedMap κ ν) (key : κ) : Option ν := find key m.entries

/-- Add a key, or replace its value. -/
def add (m : SortedMap κ ν) (key : κ) (value : ν) : SortedMap κ ν where
  entries := insert key value m.entries
  sorted := sorted_insert key value m.sorted

def remove (m : SortedMap κ ν) (key : κ) : SortedMap κ ν where
  entries := m.entries.filter fun entry => entry.1 ≠ key
  sorted := m.sorted.filter _

@[simp]
theorem lookup_add (m : SortedMap κ ν) (key other : κ) (value : ν) :
    (m.add key value).lookup other = if other = key then some value else m.lookup other :=
  find_insert key other value m.entries

@[simp]
theorem lookup_remove (m : SortedMap κ ν) (key other : κ) :
    (m.remove key).lookup other = if other = key then none else m.lookup other :=
  find_filter key other m.entries

/-- The entries of a sorted map, added one after the other, make up the map. -/
theorem foldl_add_entries (m : SortedMap κ ν) :
    m.entries.foldl (fun m entry => m.add entry.1 entry.2) empty = m := by
  have hfrom : ∀ (rest : List (κ × ν)) (before : SortedMap κ ν),
      Sorted (before.entries ++ rest) →
        (rest.foldl (fun m entry => m.add entry.1 entry.2) before).entries =
          before.entries ++ rest := by
    intro rest
    induction rest with
    | nil => exact fun before _ => (List.append_nil _).symm
    | cons entry rest ih =>
        intro before hsorted
        have hlast : ∀ other ∈ before.entries, other.1 < entry.1 := fun other hother =>
          (List.pairwise_append.mp hsorted).2.2 other hother entry List.mem_cons_self
        have hadd : (before.add entry.1 entry.2).entries = before.entries ++ [entry] :=
          insert_above hlast
        have hsplit : before.entries ++ entry :: rest =
            (before.add entry.1 entry.2).entries ++ rest := by
          rw [hadd, List.append_assoc, List.singleton_append]
        rw [List.foldl_cons, hsplit]
        exact ih _ (hsplit ▸ hsorted)
  exact ext (hfrom m.entries empty m.sorted)

/-! ## Keys -/

def keys (m : SortedMap κ ν) : List κ := m.entries.map Prod.fst

theorem sorted_keys (m : SortedMap κ ν) : m.keys.Pairwise (· < ·) :=
  List.pairwise_map.mpr m.sorted

theorem nodup_keys (m : SortedMap κ ν) : m.keys.Nodup :=
  m.sorted_keys.imp fun h => ne_of_lt h

/-- The last of a sorted list is its greatest. -/
theorem getLast?_eq_some_iff {sorted : List κ} (h : sorted.Pairwise (· < ·)) {last : κ} :
    sorted.getLast? = some last ↔ last ∈ sorted ∧ ∀ key ∈ sorted, key ≤ last := by
  have hle : ∀ other, sorted.getLast? = some other → ∀ key ∈ sorted, key ≤ other := by
    intro other hother key hkey
    obtain ⟨before, rfl⟩ := List.getLast?_eq_some_iff.mp hother
    rcases List.mem_append.mp hkey with hbefore | hlast
    · exact ((List.pairwise_append.mp h).2.2 key hbefore other List.mem_cons_self).le
    · exact (List.mem_singleton.mp hlast).le
  constructor
  · exact fun hlast => ⟨List.mem_of_getLast? hlast, hle last hlast⟩
  · rintro ⟨hmem, hgreatest⟩
    cases hother : sorted.getLast? with
    | none => simp [List.getLast?_eq_none_iff.mp hother] at hmem
    | some other =>
        have hother' := hgreatest other (List.mem_of_getLast? hother)
        rw [le_antisymm hother' (hle other hother last hmem)]

theorem find_eq_some_iff {key : κ} {value : ν} {entries : List (κ × ν)} (h : Sorted entries) :
    find key entries = some value ↔ (key, value) ∈ entries := by
  induction entries with
  | nil => simp [find]
  | cons first entries ih =>
      obtain ⟨hfirst, hrest⟩ := List.pairwise_cons.mp h
      rw [find, List.mem_cons]
      split
      · next heq =>
        subst heq
        constructor
        · intro hvalue
          exact .inl (Prod.ext rfl (Option.some.inj hvalue).symm)
        · rintro (heq | hmem)
          · rw [← heq]
          · exact absurd (hfirst _ hmem) (lt_irrefl _)
      · next hne =>
        rw [ih hrest]
        constructor
        · exact .inr
        · rintro (rfl | hmem)
          · exact absurd rfl hne
          · exact hmem

theorem lookup_eq_some_iff (m : SortedMap κ ν) {key : κ} {value : ν} :
    m.lookup key = some value ↔ (key, value) ∈ m.entries := find_eq_some_iff m.sorted

theorem mem_keys_iff (m : SortedMap κ ν) {key : κ} : key ∈ m.keys ↔ (m.lookup key).isSome := by
  simp [keys, Option.isSome_iff_exists, lookup_eq_some_iff]

/-- Maps with the same values for all keys are the same. -/
theorem ext_lookup {m m' : SortedMap κ ν} (h : ∀ key, m.lookup key = m'.lookup key) : m = m' := by
  apply ext
  have hmem : ∀ entry, entry ∈ m.entries ↔ entry ∈ m'.entries := by
    rintro ⟨key, value⟩
    rw [← lookup_eq_some_iff, ← lookup_eq_some_iff, h]
  have hnodup : ∀ m : SortedMap κ ν, m.entries.Nodup := fun m => m.nodup_keys.of_map
  have hperm := (List.perm_ext_iff_of_nodup (hnodup m) (hnodup m')).mpr hmem
  exact hperm.eq_of_pairwise (fun a b _ _ hab hba => absurd hab hba.asymm) m.sorted m'.sorted

/-- The entries of a map, from its keys and its values. -/
theorem entries_eq_map_keys (m : SortedMap κ ν) {value : κ → ν}
    (h : ∀ key ∈ m.keys, m.lookup key = some (value key)) :
    m.entries = m.keys.map fun key => (key, value key) := by
  rw [keys, List.map_map]
  refine (List.map_id _).symm.trans (List.map_congr_left fun entry hmem => ?_)
  have hentry : m.lookup entry.1 = some entry.2 := m.lookup_eq_some_iff.mpr hmem
  have hvalue := hentry.symm.trans (h entry.1 (List.mem_map_of_mem hmem))
  exact Prod.ext rfl (Option.some.inj hvalue)

/-- A map made of keys, each with the value that goes with it. -/
def ofKeys (value : κ → ν) (keys : List κ) : SortedMap κ ν :=
  keys.foldl (fun m key => m.add key (value key)) empty

theorem lookup_foldl_add (value : κ → ν) (keys : List κ) (m : SortedMap κ ν) (key : κ) :
    (keys.foldl (fun m key => m.add key (value key)) m).lookup key =
      if key ∈ keys then some (value key) else m.lookup key := by
  induction keys generalizing m with
  | nil => simp
  | cons first keys ih =>
      rw [List.foldl_cons, ih, lookup_add]
      by_cases hrest : key ∈ keys
      · rw [if_pos hrest, if_pos (List.mem_cons_of_mem first hrest)]
      · rw [if_neg hrest]
        by_cases hfirst : key = first
        · subst hfirst
          rw [if_pos rfl, if_pos List.mem_cons_self]
        · rw [if_neg hfirst, if_neg (by simp [hfirst, hrest])]

theorem lookup_ofKeys (value : κ → ν) (keys : List κ) (key : κ) :
    (ofKeys value keys).lookup key = if key ∈ keys then some (value key) else none :=
  lookup_foldl_add value keys empty key

theorem mem_keys_ofKeys (value : κ → ν) (keys : List κ) {key : κ} :
    key ∈ (ofKeys value keys).keys ↔ key ∈ keys := by
  rw [mem_keys_iff, lookup_ofKeys]
  split <;> simp_all

theorem ofKeys_congr {value value' : κ → ν} {keys keys' : List κ}
    (hkeys : ∀ key, key ∈ keys ↔ key ∈ keys') (hvalue : ∀ key ∈ keys, value key = value' key) :
    ofKeys value keys = ofKeys value' keys' := by
  apply ext_lookup
  intro key
  rw [lookup_ofKeys, lookup_ofKeys]
  by_cases hmem : key ∈ keys
  · rw [if_pos hmem, if_pos ((hkeys key).mp hmem), hvalue key hmem]
  · rw [if_neg hmem, if_neg (mt (hkeys key).mpr hmem)]

/-- There are as many keys as were given exactly if none was given twice. -/
theorem length_keys_ofKeys_le (value : κ → ν) (keys : List κ) :
    (ofKeys value keys).keys.length ≤ keys.length ∧
      ((ofKeys value keys).keys.length = keys.length ↔ keys.Nodup) := by
  have hperm : (ofKeys value keys).keys.Perm keys.dedup := by
    apply (List.perm_ext_iff_of_nodup (nodup_keys _) (List.nodup_dedup keys)).mpr
    intro key
    rw [mem_keys_ofKeys, List.mem_dedup]
  rw [hperm.length_eq]
  have hsublist := List.dedup_sublist keys
  refine ⟨hsublist.length_le, fun hlength => ?_, fun hnodup => by rw [hnodup.dedup]⟩
  exact (hsublist.eq_of_length hlength) ▸ List.nodup_dedup keys

end SortedMap

end Msm8916
