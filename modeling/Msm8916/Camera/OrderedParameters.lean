import Mathlib.Data.List.Dedup
import Mathlib.Data.List.Duplicate
import Mathlib.Data.Set.Defs
import Msm8916.Camera.Fixups
import Msm8916.Lib.Transition

/-!
`CameraParameters2`, a copy of `CameraParameters` that also keeps the order in which the
keys were set: next to it in every run, and through its own text.
-/

namespace Msm8916.Camera

open CString Transition

/-- `OrderedKeyedVector`, a map that keeps the order of its insertions. -/
structure OrderedKeyedVector (κ ν : Type*) where
  mList : List (κ × ν)
deriving DecidableEq, Repr

namespace OrderedKeyedVector

variable {κ ν : Type*} [DecidableEq κ] (m : OrderedKeyedVector κ ν)

def empty : OrderedKeyedVector κ ν := ⟨[]⟩

def keys : List κ := m.mList.map Prod.fst

/-- `add`, which does not look for the key. -/
def add (key : κ) (value : ν) : OrderedKeyedVector κ ν := ⟨m.mList ++ [(key, value)]⟩

def indexOfKey (key : κ) : Option Nat := m.mList.findIdx? fun pair => pair.1 = key

/-- `removeItem`. `NAME_NOT_FOUND` as a `size_t` is past the end of any vector, which removes
nothing there. -/
def removeItem (key : κ) : OrderedKeyedVector κ ν :=
  match m.indexOfKey key with
  | none => m
  | some vectorIdx => ⟨m.mList.eraseIdx vectorIdx⟩

def replaceValueFor (key : κ) (value : ν) : OrderedKeyedVector κ ν :=
  (m.removeItem key).add key value

def valueFor (key : κ) : Option ν :=
  (m.indexOfKey key).bind fun idx => m.mList[idx]?.map Prod.snd

end OrderedKeyedVector

/-- The `mMap` of `CameraParameters2`. -/
abbrev CameraParameters2 := OrderedKeyedVector String String

namespace CameraParameters2

/-- The loop of `unflatten`, for a number of rounds. -/
def unflattenFrom : Nat → List Char → CameraParameters2 → CameraParameters2
  | 0, _, mMap => mMap
  | rounds + 1, a, mMap =>
      match strchr '=' a with
      | none => mMap
      | some (k, a) =>
          match strchr ';' a with
          | none => mMap.add (String.ofList k) (String.ofList a)
          | some (v, a) => unflattenFrom rounds a (mMap.add (String.ofList k) (String.ofList v))

/-- Every round takes a character at least. -/
def unflatten (params : String) : CameraParameters2 :=
  unflattenFrom params.toList.length params.toList .empty

/-- `flatten`, whose loop is the one of `CameraParameters`. -/
def flatten (mMap : CameraParameters2) : String :=
  String.ofList (Parameters.flattenEntries mMap.mList)

/-- `set`, which refuses a separator in the key or in the value. -/
def set (mMap : CameraParameters2) (key value : String) : CameraParameters2 :=
  if '=' ∈ key.toList ∨ ';' ∈ key.toList then mMap
  else if '=' ∈ value.toList ∨ ';' ∈ value.toList then mMap
  else mMap.replaceValueFor key value

def get (mMap : CameraParameters2) (key : String) : Option String := mMap.valueFor key

def remove (mMap : CameraParameters2) (key : String) : CameraParameters2 := mMap.removeItem key

/-- `compareSetOrder`, with `none` for `NAME_NOT_FOUND`. -/
def compareSetOrder (mMap : CameraParameters2) (key1 key2 : String) : Option Int :=
  match mMap.indexOfKey key1, mMap.indexOfKey key2 with
  | some index1, some index2 =>
      some (if index1 = index2 then 0 else if index1 < index2 then -1 else 1)
  | _, _ => none

end CameraParameters2

/-! ## Lists of pairs -/

namespace OrderedKeyedVector

variable {κ ν : Type*} [DecidableEq κ] {m : OrderedKeyedVector κ ν}

theorem valueFor_eq (m : OrderedKeyedVector κ ν) (key : κ) :
    m.valueFor key = (m.mList.find? fun pair => pair.1 = key).map Prod.snd := by
  obtain ⟨mList⟩ := m
  rw [valueFor, indexOfKey]
  induction mList with
  | nil => rfl
  | cons first rest ih =>
      by_cases h : first.1 = key
      · simp [List.findIdx?_cons, h]
      · rw [List.findIdx?_cons, if_neg (by simpa using h),
          List.find?_cons_of_neg (by simpa using h), ← ih, Option.bind_map]
        rfl

theorem valueFor_add (m : OrderedKeyedVector κ ν) (key other : κ) (value : ν) :
    (m.add key value).valueFor other =
      (m.valueFor other).or (if other = key then some value else none) := by
  rw [valueFor_eq, valueFor_eq, add, List.find?_append, Option.map_or]
  by_cases h : other = key
  · simp [h]
  · simp [h, Ne.symm h]

theorem removeItem_eq_eraseP (m : OrderedKeyedVector κ ν) (key : κ) :
    m.removeItem key = ⟨m.mList.eraseP fun pair => pair.1 = key⟩ := by
  rw [removeItem, indexOfKey, List.eraseP_eq_eraseIdx]
  cases m.mList.findIdx? fun pair => pair.1 = key <;> rfl

/-- With different keys, the item that is removed is the only one of its key. -/
theorem removeItem_eq_filter (h : m.keys.Nodup) (key : κ) :
    m.removeItem key = ⟨m.mList.filter fun pair => pair.1 ≠ key⟩ := by
  obtain ⟨mList⟩ := m
  rw [removeItem_eq_eraseP]
  congr 1
  induction mList with
  | nil => rfl
  | cons first rest ih =>
      obtain ⟨hfirst, hrest⟩ := List.nodup_cons.mp h
      by_cases hkey : first.1 = key
      · have hall : ∀ pair ∈ rest, pair.1 ≠ key := by
          rintro pair hmem rfl
          exact hfirst (hkey ▸ List.mem_map_of_mem hmem)
        rw [List.eraseP_cons_of_pos (by simpa using hkey),
          List.filter_cons_of_neg (by simpa using hkey)]
        exact (List.filter_eq_self.mpr (by simpa using hall)).symm
      · rw [List.eraseP_cons_of_neg (by simpa using hkey),
          List.filter_cons_of_pos (by simpa using hkey), ih hrest]

theorem keys_removeItem (h : m.keys.Nodup) (key : κ) :
    (m.removeItem key).keys = m.keys.filter (· ≠ key) := by
  rw [removeItem_eq_filter h, keys, keys, List.filter_map]
  rfl

theorem valueFor_removeItem (h : m.keys.Nodup) (key other : κ) :
    (m.removeItem key).valueFor other = if other = key then none else m.valueFor other := by
  rw [removeItem_eq_filter h, valueFor_eq, valueFor_eq, List.find?_filter]
  by_cases hother : other = key
  · subst hother
    rw [if_pos rfl, List.find?_eq_none.mpr (by simp)]
    rfl
  · rw [if_neg hother]
    congr 2
    funext pair
    by_cases hpair : pair.1 = other
    · simp [hpair, hother]
    · simp [hpair]

theorem valueFor_replaceValueFor (h : m.keys.Nodup) (key other : κ) (value : ν) :
    (m.replaceValueFor key value).valueFor other =
      if other = key then some value else m.valueFor other := by
  rw [replaceValueFor, valueFor_add, valueFor_removeItem h]
  by_cases hother : other = key
  · rw [if_pos hother, if_pos hother, if_pos hother, Option.none_or]
  · rw [if_neg hother, if_neg hother, if_neg hother, Option.or_none]

omit [DecidableEq κ] in
theorem keys_add (m : OrderedKeyedVector κ ν) (key : κ) (value : ν) :
    (m.add key value).keys = m.keys ++ [key] := List.map_append

/-- With different keys, an index is the one of its key. -/
theorem indexOfKey_eq_some_iff (h : m.keys.Nodup) {key : κ} {idx : Nat} :
    m.indexOfKey key = some idx ↔ m.keys[idx]? = some key := by
  have hindex : m.indexOfKey key = m.keys.findIdx? (· = key) := by
    rw [keys, List.findIdx?_map]
    rfl
  rw [hindex, List.findIdx?_eq_some_iff_getElem]
  constructor
  · rintro ⟨hlt, hkey, -⟩
    rw [List.getElem?_eq_getElem hlt, of_decide_eq_true hkey]
  · intro hkey
    obtain ⟨hlt, hat⟩ := List.getElem?_eq_some_iff.mp hkey
    refine ⟨hlt, decide_eq_true hat, fun j hj heq => ?_⟩
    have hsame : m.keys[j] = m.keys[idx] := (of_decide_eq_true heq).trans hat.symm
    exact Nat.ne_of_lt hj ((h.getElem_inj_iff).mp hsame)

end OrderedKeyedVector

/-- A second key stands behind the last place of the first. -/
def SetLater (setOrder : List String) (key1 key2 : String) : Prop :=
  ∃ before after, setOrder = before ++ key1 :: after ∧ key1 ∉ after ∧ key2 ∈ after

theorem setLater_cons_of_mem {first key1 key2 : String} {setOrder : List String}
    (h : first ∈ setOrder) :
    SetLater (first :: setOrder) key1 key2 ↔ SetLater setOrder key1 key2 := by
  constructor
  · rintro ⟨before, after, heq, hlast, hlater⟩
    cases before with
    | nil =>
        obtain ⟨rfl, rfl⟩ := List.cons.inj heq
        exact absurd h hlast
    | cons other before =>
        obtain ⟨-, rfl⟩ := List.cons.inj heq
        exact ⟨before, after, rfl, hlast, hlater⟩
  · rintro ⟨before, after, rfl, hlast, hlater⟩
    exact ⟨first :: before, after, rfl, hlast, hlater⟩

theorem setLater_cons_of_notMem {first key1 key2 : String} {setOrder : List String}
    (h : first ∉ setOrder) :
    SetLater (first :: setOrder) key1 key2 ↔
      first = key1 ∧ key2 ∈ setOrder ∨ SetLater setOrder key1 key2 := by
  constructor
  · rintro ⟨before, after, heq, hlast, hlater⟩
    cases before with
    | nil =>
        obtain ⟨rfl, rfl⟩ := List.cons.inj heq
        exact .inl ⟨rfl, hlater⟩
    | cons other before =>
        obtain ⟨-, rfl⟩ := List.cons.inj heq
        exact .inr ⟨before, after, rfl, hlast, hlater⟩
  · rintro (⟨rfl, hlater⟩ | ⟨before, after, rfl, hlast, hlater⟩)
    · exact ⟨[], setOrder, rfl, h, hlater⟩
    · exact ⟨first :: before, after, rfl, hlast, hlater⟩

theorem setLater_dedup_iff (setOrder : List String) (key1 key2 : String) :
    SetLater setOrder.dedup key1 key2 ↔ SetLater setOrder key1 key2 := by
  induction setOrder with
  | nil => rfl
  | cons first setOrder ih =>
      by_cases h : first ∈ setOrder
      · rw [List.dedup_cons_of_mem h, ih, setLater_cons_of_mem h]
      · rw [List.dedup_cons_of_notMem h, setLater_cons_of_notMem (by simpa using h),
          setLater_cons_of_notMem h, ih, List.mem_dedup]

/-- With different keys, places are compared by what stands behind. -/
theorem setLater_iff_of_nodup {keys : List String} (h : keys.Nodup) {key1 key2 : String} :
    SetLater keys key1 key2 ↔
      ∃ i j : Nat, i < j ∧ keys[i]? = some key1 ∧ keys[j]? = some key2 := by
  constructor
  · rintro ⟨before, after, rfl, -, hlater⟩
    obtain ⟨k, hk⟩ := List.mem_iff_getElem?.mp hlater
    refine ⟨before.length, before.length + 1 + k, by omega, by simp, ?_⟩
    rw [List.getElem?_append_right (by omega)]
    have hshift : before.length + 1 + k - before.length = k + 1 := by omega
    rw [hshift, List.getElem?_cons_succ, hk]
  · rintro ⟨i, j, hij, hi, hj⟩
    obtain ⟨hlt, hat⟩ := List.getElem?_eq_some_iff.mp hi
    have hsplit : keys = keys.take i ++ key1 :: keys.drop (i + 1) := by
      rw [← hat, ← List.drop_eq_getElem_cons hlt, List.take_append_drop]
    refine ⟨_, _, hsplit, ?_, ?_⟩
    · rw [hsplit] at h
      exact (List.nodup_cons.mp (List.nodup_append.mp h).2.1).1
    · apply List.mem_iff_getElem?.mpr
      refine ⟨j - (i + 1), ?_⟩
      rw [List.getElem?_drop, Nat.add_sub_cancel' hij, hj]

theorem CameraParameters2.compareSetOrder_eq_neg_one_iff {mMap : CameraParameters2}
    (h : mMap.keys.Nodup) (key1 key2 : String) :
    mMap.compareSetOrder key1 key2 = some (-1) ↔ SetLater mMap.keys key1 key2 := by
  rw [setLater_iff_of_nodup h, CameraParameters2.compareSetOrder]
  constructor
  · intro heq
    cases h1 : mMap.indexOfKey key1 with
    | none => simp [h1] at heq
    | some index1 =>
        cases h2 : mMap.indexOfKey key2 with
        | none => simp [h1, h2] at heq
        | some index2 =>
            rw [h1, h2] at heq
            dsimp only at heq
            refine ⟨index1, index2, ?_, (OrderedKeyedVector.indexOfKey_eq_some_iff h).mp h1,
              (OrderedKeyedVector.indexOfKey_eq_some_iff h).mp h2⟩
            by_contra hnot
            by_cases hsame : index1 = index2
            · simp [hsame] at heq
            · simp [hsame, hnot] at heq
  · rintro ⟨i, j, hij, hi, hj⟩
    rw [(OrderedKeyedVector.indexOfKey_eq_some_iff h).mpr hi,
      (OrderedKeyedVector.indexOfKey_eq_some_iff h).mpr hj]
    simp [Nat.ne_of_lt hij, hij]

/-- Of equal items the last is kept. -/
theorem dedup_append_singleton {α : Type*} [DecidableEq α] (items : List α) (a : α) :
    (items ++ [a]).dedup = items.dedup.filter (· ≠ a) ++ [a] := by
  induction items with
  | nil => rfl
  | cons first items ih =>
      by_cases hmem : first ∈ items
      · rw [List.cons_append, List.dedup_cons_of_mem (List.mem_append_left _ hmem), ih,
          List.dedup_cons_of_mem hmem]
      · by_cases heq : first = a
        · subst heq
          rw [List.cons_append, List.dedup_cons_of_mem (by simp), ih,
            List.dedup_cons_of_notMem hmem, List.filter_cons_of_neg (by simp)]
        · rw [List.cons_append, List.dedup_cons_of_notMem (by simp [hmem, heq]), ih,
            List.dedup_cons_of_notMem hmem, List.filter_cons_of_pos (by simpa using heq),
            List.cons_append]

theorem dedup_filter_ne {α : Type*} [DecidableEq α] (items : List α) (a : α) :
    (items.filter (· ≠ a)).dedup = items.dedup.filter (· ≠ a) := by
  induction items with
  | nil => rfl
  | cons first items ih =>
      by_cases heq : first = a
      · rw [List.filter_cons_of_neg (by simpa using heq), ih]
        by_cases hmem : first ∈ items
        · rw [List.dedup_cons_of_mem hmem]
        · rw [List.dedup_cons_of_notMem hmem, List.filter_cons_of_neg (by simpa using heq)]
      · rw [List.filter_cons_of_pos (by simpa using heq)]
        by_cases hmem : first ∈ items
        · rw [List.dedup_cons_of_mem hmem, List.dedup_cons_of_mem (by simp [hmem, heq]), ih]
        · rw [List.dedup_cons_of_notMem hmem, List.dedup_cons_of_notMem (by simp [hmem]), ih,
            List.filter_cons_of_pos (by simpa using heq)]

/-! ## Next to `CameraParameters` -/

namespace CameraParameters2

/-- Reading puts the pairs of the text behind those that are there. -/
theorem unflattenFrom_eq (rounds : Nat) (a : List Char) (mMap : CameraParameters2) :
    unflattenFrom rounds a mMap = ⟨mMap.mList ++ textPairs rounds a⟩ := by
  induction rounds generalizing a mMap with
  | zero => rw [unflattenFrom, textPairs, List.append_nil]
  | succ rounds ih =>
      rw [unflattenFrom, textPairs]
      cases strchr '=' a with
      | none => simp
      | some parts =>
          dsimp only
          cases strchr ';' parts.2 with
          | none => rfl
          | some values =>
              dsimp only
              rw [ih, OrderedKeyedVector.add, List.append_assoc, List.singleton_append]

theorem unflatten_eq (text : String) :
    unflatten text = ⟨textPairs text.toList.length text.toList⟩ := by
  rw [unflatten, unflattenFrom_eq]
  rfl

/-- Pairs with different keys are found in the sorted map as in the list. -/
theorem lookup_foldl_add {pairs : List (String × String)} (h : (pairs.map Prod.fst).Nodup)
    (params : Parameters) (key : String) :
    (pairs.foldl (fun params pair => params.add pair.1 pair.2) params).lookup key =
      ((⟨pairs⟩ : CameraParameters2).valueFor key).or (params.lookup key) := by
  induction pairs generalizing params with
  | nil => rfl
  | cons first pairs ih =>
      obtain ⟨hfirst, hrest⟩ := List.nodup_cons.mp h
      rw [List.foldl_cons, ih hrest, SortedMap.lookup_add, OrderedKeyedVector.valueFor_eq,
        OrderedKeyedVector.valueFor_eq]
      by_cases hkey : key = first.1
      · subst hkey
        have hnone : pairs.find? (fun pair => pair.1 = first.1) = none := by
          apply List.find?_eq_none.mpr
          intro pair hmem heq
          exact hfirst (decide_eq_true_iff.mp heq ▸ List.mem_map_of_mem hmem)
        rw [List.find?_cons_of_pos (by simp), hnone]
        simp
      · rw [if_neg hkey, List.find?_cons_of_neg (by simpa using Ne.symm hkey)]

end CameraParameters2

/-- The calls that change the parameters. -/
inductive ParametersCall where
  | set (key value : String)
  | remove (key : String)
  | unflatten (params : String)
deriving DecidableEq, Repr

/-- Parameters of both classes, and the keys in the order of the calls that have set them
since they were removed. -/
structure BothParameters where
  params : Parameters
  params2 : CameraParameters2
  setOrder : List String

namespace BothParameters

/-- Whether `set` takes the key and the value. -/
def Accepted (key value : String) : Prop := Parameters.Plain key ∧ Parameters.Plain value

instance (key value : String) : Decidable (Accepted key value) :=
  inferInstanceAs (Decidable (_ ∧ _))

def step (both : BothParameters) : ParametersCall → Option BothParameters
  | .set key value =>
      some
        { params := both.params.set key value
          params2 := both.params2.set key value
          setOrder :=
            if Accepted key value then both.setOrder ++ [key] else both.setOrder }
  | .remove key =>
      some
        { params := both.params.remove key
          params2 := both.params2.remove key
          setOrder := both.setOrder.filter (· ≠ key) }
  | .unflatten text =>
      some
        { params := Parameters.unflatten text
          params2 := CameraParameters2.unflatten text
          setOrder := (CameraParameters2.unflatten text).keys }

def init : BothParameters := ⟨.empty, .empty, []⟩

/-- Both have the same values, and the order is that of the last calls of `set`. -/
structure InStep (both : BothParameters) : Prop where
  values : ∀ key, both.params2.get key = both.params.lookup key
  order : both.params2.keys = both.setOrder.dedup

/-- No text that is read names a key twice. -/
def Distinct : ParametersCall → Prop
  | .unflatten text => (CameraParameters2.unflatten text).keys.Nodup
  | _ => True

variable {both next : BothParameters}

theorem InStep.nodup (h : both.InStep) : both.params2.keys.Nodup :=
  h.order ▸ List.nodup_dedup _

theorem set_params (params : Parameters) (key value : String) :
    params.set key value = if Accepted key value then params.add key value else params := by
  rw [Parameters.set]
  by_cases hkey : '=' ∈ key.toList ∨ ';' ∈ key.toList
  · rw [if_pos hkey, if_neg fun h => not_or.mpr h.1 hkey]
  · rw [if_neg hkey]
    by_cases hvalue : '=' ∈ value.toList ∨ ';' ∈ value.toList
    · rw [if_pos hvalue, if_neg fun h => not_or.mpr h.2 hvalue]
    · rw [if_neg hvalue, if_pos ⟨not_or.mp hkey, not_or.mp hvalue⟩]

theorem set_params2 (mMap : CameraParameters2) (key value : String) :
    mMap.set key value =
      if Accepted key value then mMap.replaceValueFor key value else mMap := by
  rw [CameraParameters2.set]
  by_cases hkey : '=' ∈ key.toList ∨ ';' ∈ key.toList
  · rw [if_pos hkey, if_neg fun h => not_or.mpr h.1 hkey]
  · rw [if_neg hkey]
    by_cases hvalue : '=' ∈ value.toList ∨ ';' ∈ value.toList
    · rw [if_pos hvalue, if_neg fun h => not_or.mpr h.2 hvalue]
    · rw [if_neg hvalue, if_pos ⟨not_or.mp hkey, not_or.mp hvalue⟩]

theorem InStep.set (h : both.InStep) (key value : String) :
    InStep ⟨both.params.set key value, both.params2.set key value,
      if Accepted key value then both.setOrder ++ [key] else both.setOrder⟩ := by
  rw [set_params, set_params2]
  by_cases haccepted : Accepted key value
  · rw [if_pos haccepted, if_pos haccepted, if_pos haccepted]
    constructor
    · intro other
      dsimp only
      rw [CameraParameters2.get, OrderedKeyedVector.valueFor_replaceValueFor h.nodup,
        SortedMap.lookup_add, ← h.values other]
      rfl
    · dsimp only
      rw [OrderedKeyedVector.replaceValueFor, OrderedKeyedVector.keys_add,
        OrderedKeyedVector.keys_removeItem h.nodup, h.order, dedup_append_singleton]
  · rw [if_neg haccepted, if_neg haccepted, if_neg haccepted]
    exact h

theorem InStep.remove (h : both.InStep) (key : String) :
    InStep ⟨both.params.remove key, both.params2.remove key,
      both.setOrder.filter (· ≠ key)⟩ := by
  constructor
  · intro other
    dsimp only
    rw [CameraParameters2.get, CameraParameters2.remove,
      OrderedKeyedVector.valueFor_removeItem h.nodup, SortedMap.lookup_remove]
    by_cases hother : other = key
    · rw [if_pos hother, if_pos hother]
    · rw [if_neg hother, if_neg hother]
      exact h.values other
  · dsimp only
    rw [CameraParameters2.remove, OrderedKeyedVector.keys_removeItem h.nodup, h.order,
      dedup_filter_ne]

theorem inStep_unflatten {text : String} (h : (CameraParameters2.unflatten text).keys.Nodup) :
    InStep ⟨Parameters.unflatten text, CameraParameters2.unflatten text,
      (CameraParameters2.unflatten text).keys⟩ := by
  refine ⟨fun key => ?_, h.dedup.symm⟩
  dsimp only
  rw [CameraParameters2.unflatten_eq] at h ⊢
  rw [Parameters.unflatten, Parameters.unflattenFrom_eq]
  exact ((CameraParameters2.lookup_foldl_add h .empty key).trans (Option.or_none ..)).symm

theorem InStep.step {call : ParametersCall} (h : both.InStep) (hdistinct : Distinct call)
    (hstep : BothParameters.step both call = some next) : next.InStep := by
  cases call with
  | set key value =>
      obtain rfl := Option.some.inj hstep
      exact h.set key value
  | remove key =>
      obtain rfl := Option.some.inj hstep
      exact h.remove key
  | unflatten text =>
      obtain rfl := Option.some.inj hstep
      exact inStep_unflatten hdistinct

/-- `compareSetOrder` tells which key was set later. -/
theorem InStep.compare (h : both.InStep) (key1 key2 : String) :
    both.params2.compareSetOrder key1 key2 = some (-1) ↔
      SetLater both.setOrder key1 key2 := by
  rw [CameraParameters2.compareSetOrder_eq_neg_one_iff h.nodup, h.order, setLater_dedup_iff]

/-- A key that a text names twice cannot be set: the value found is the other one. -/
example : ((CameraParameters2.unflatten "a=1;a=2").set "a" "3").get "a" = some "2" := by decide

end BothParameters

/-! ## Through a text -/

namespace CameraParameters2

/-- The keys and values are clean. -/
def Clean (mMap : CameraParameters2) : Prop := CleanPairs mMap.mList

theorem Clean.set {mMap : CameraParameters2} (h : Clean mMap) (key value : String) :
    Clean (mMap.set key value) := by
  rw [BothParameters.set_params2]
  split
  · next haccepted =>
    refine CleanPairs.add h haccepted.1.1 haccepted.2.2 fun pair hpair => ?_
    rw [OrderedKeyedVector.replaceValueFor, OrderedKeyedVector.removeItem_eq_eraseP] at hpair
    rcases List.mem_append.mp hpair with hin | hnew
    · exact .inr (List.mem_of_mem_eraseP hin)
    · exact .inl (List.mem_singleton.mp hnew)
  · exact h

theorem Clean.remove {mMap : CameraParameters2} (h : Clean mMap) (key : String) :
    Clean (mMap.removeItem key) := by
  rw [OrderedKeyedVector.removeItem_eq_eraseP]
  exact fun pair hmem => h pair (List.mem_of_mem_eraseP hmem)

theorem unflatten_clean (text : String) : Clean (unflatten text) := by
  rw [unflatten_eq]
  exact cleanPairs_textPairs _ _

/-- What changes the parameters. -/
def call (mMap : CameraParameters2) : ParametersCall → CameraParameters2
  | .set key value => mMap.set key value
  | .remove key => mMap.remove key
  | .unflatten text => unflatten text

theorem foldl_call_clean (calls : List ParametersCall) {mMap : CameraParameters2}
    (h : Clean mMap) : Clean (calls.foldl call mMap) := by
  induction calls generalizing mMap with
  | nil => exact h
  | cons first calls ih =>
      cases first with
      | set key value => exact ih (h.set key value)
      | remove key => exact ih (h.remove key)
      | unflatten text => exact ih (unflatten_clean text)

theorem nodup_set {mMap : CameraParameters2} (h : mMap.keys.Nodup) (key value : String) :
    (mMap.set key value).keys.Nodup := by
  rw [BothParameters.set_params2]
  split
  · rw [OrderedKeyedVector.replaceValueFor, OrderedKeyedVector.keys_add,
      OrderedKeyedVector.keys_removeItem h]
    exact (h.filter _).append (List.nodup_singleton key) (by simp)
  · exact h

/-- What is set is found, and nothing else changes. -/
theorem get_set {mMap : CameraParameters2} (h : mMap.keys.Nodup) {key value : String}
    (haccepted : BothParameters.Accepted key value) (other : String) :
    (mMap.set key value).get other = if other = key then some value else mMap.get other := by
  rw [BothParameters.set_params2, if_pos haccepted, get,
    OrderedKeyedVector.valueFor_replaceValueFor h]
  rfl

/-- After any calls, also with keys that a text has twice, printing and reading again gives
the same pairs in the same order. -/
theorem unflatten_flatten_calls (calls : List ParametersCall) :
    unflatten (flatten (calls.foldl call .empty)) = calls.foldl call .empty := by
  have hclean : Clean (calls.foldl call .empty) :=
    foldl_call_clean calls (List.forall_mem_nil _)
  rw [unflatten_eq, flatten, String.toList_ofList, textPairs_flattenEntries hclean le_rfl]

end CameraParameters2

end Msm8916.Camera
