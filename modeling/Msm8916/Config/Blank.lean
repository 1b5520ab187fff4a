import Msm8916.Config.Reading
import Msm8916.Utils.Trim

/-!
Strings of blanks, and lines that give a parameter a blank value.
-/

namespace Msm8916.Config

open Buffer CString Utils

variable {V S : Type*} {F : Type}

/-- What a blank value stores in a variable of a type. -/
def blankValue (reader : FloatReader F) (value : List Char) : ParamType → ParamValue F
  | .num => .num 0
  | .str => .str (value.take locMaxParamString)
  | .dbl => .dbl (reader.atof value)

theorem ConfMemory.ext_read {first second : ConfMemory V S F}
    (hread : ∀ v type, first.read v type = second.read v type)
    (hset : ∀ s, first.set s = second.set s) : first = second := by
  have hnum : first.num = second.num := funext fun v => ParamValue.num.inj (hread v .num)
  have hstr : first.str = second.str := funext fun v => ParamValue.str.inj (hread v .str)
  have hdbl : first.dbl = second.dbl := funext fun v => ParamValue.dbl.inj (hread v .dbl)
  have hflags : first.set = second.set := funext hset
  cases first
  cases second
  simp only at hnum hstr hdbl hflags
  rw [hnum, hstr, hdbl, hflags]

variable [DecidableEq V] [DecidableEq S]

section Lines

variable {name value : List Char}

theorem notMem_blank (hvalue : ∀ c ∈ value, isspace c = true) : '=' ∉ value :=
  fun h => absurd (hvalue '=' h) (by decide)

theorem atoi_blank (hvalue : ∀ c ∈ value, isspace c = true) : atoi value = 0 := by
  unfold atoi strtol
  rw [List.dropWhile_eq_nil_iff.mpr hvalue]
  rfl

/-- A name and a blank value make an item. -/
theorem parseConfItem_blank (reader : FloatReader F) {c d : Char} (hname : '=' ∉ c :: name)
    (hvalue : ∀ e ∈ d :: value, isspace e = true) :
    parseConfItem reader (c :: name ++ '=' :: d :: value) =
      some ⟨locUtilTrimSpace (c :: name), d :: value, 0, reader.atof (d :: value)⟩ := by
  have hd : isspace d = true := hvalue d List.mem_cons_self
  unfold parseConfItem
  rw [strtok_token hname]
  simp only [Option.bind_eq_bind, Option.bind_some, strtok_last (notMem_blank hvalue),
    trimSpace_blank hvalue]
  split
  · rename_i heq
    obtain ⟨rfl, -⟩ := List.cons.inj heq
    exact absurd hd (by decide)
  · rw [atoi_blank hvalue]

/-- Without a name or without a value there is none. -/
theorem parseConfItem_nil (reader : FloatReader F) (hname : '=' ∉ name)
    (hvalue : ∀ c ∈ value, isspace c = true) (h : value = [] ∨ name = []) :
    parseConfItem reader (name ++ '=' :: value) = none := by
  unfold parseConfItem
  cases name with
  | nil =>
      have hskip : strtok '=' ([] ++ '=' :: value) = strtok '=' value := by
        rw [strtok, strtok, List.nil_append, List.dropWhile_cons_of_pos (by simp)]
      rw [hskip]
      cases value with
      | nil => rfl
      | cons d value =>
          rw [strtok_last (notMem_blank hvalue)]
          rfl
  | cons c name =>
      obtain rfl := h.resolve_right (List.cons_ne_nil c name)
      rw [strtok_token hname]
      rfl

end Lines

/-- An item leaves the memory as it is exactly if every entry that stores it finds its
variable with the value and its flag set. -/
theorem fillTable_eq_self_iff (value : LocParamValue F) (config_table : List (LocParam V S))
    (mem : ConfMemory V S F) :
    (fillTable value config_table mem).1 = mem ↔
      ∀ entry ∈ config_table, entry.param_name = value.param_name → ∀ v type,
        entry.Stores v type → mem.read v type = value.typed type ∧
          ∀ s, entry.param_set = some s → mem.set s = 1 := by
  constructor
  · intro heq entry hentry hname v type hstores
    constructor
    · have hread := fillTable_read value config_table mem v type
      rw [heq, itemWrite, if_pos ⟨entry, hentry, hstores, hname⟩] at hread
      exact hread
    · intro s hflag
      have hset := fillTable_set value config_table mem s
      have htakes := (hstores.takes_iff value).mpr hname
      rw [heq, itemMark, if_pos ⟨entry, hentry, hflag, htakes⟩] at hset
      exact hset
  · intro hall
    apply ConfMemory.ext_read
    · intro v type
      rw [fillTable_read, itemWrite]
      split
      · rename_i hwrites
        obtain ⟨entry, hentry, hstores, hname⟩ := hwrites
        exact (hall entry hentry hname v type hstores).1.symm
      · rfl
    · intro s
      rw [fillTable_set, itemMark]
      split
      · rename_i hmarks
        obtain ⟨entry, hentry, hflag, hname, hptr, htype⟩ := hmarks
        obtain ⟨v, hv⟩ := Option.isSome_iff_exists.mp hptr
        obtain ⟨type, htype⟩ := Option.isSome_iff_exists.mp htype
        exact ((hall entry hentry hname v type ⟨hv, htype⟩).2 s hflag).symm
      · rfl

/-- The typed values of an item with a blank value. -/
theorem typed_blank (reader : FloatReader F) (param_name : List Char) {value : List Char}
    (hvalue : ∀ c ∈ value, isspace c = true) (type : ParamType) :
    (⟨param_name, value, 0, reader.atof value⟩ : LocParamValue F).typed type =
      blankValue reader value type := by
  cases type with
  | num => rfl
  | dbl => rfl
  | str =>
      have hNULL : value ≠ "NULL".toList := by
        rintro rfl
        exact absurd (hvalue 'N' (by decide)) (by decide)
      rw [LocParamValue.typed, storedString, if_neg hNULL]
      rfl

/-- `loc_util_trim_space` strips a string exactly if it is empty or not all blank, and
a line with a blank value leaves the table unchanged exactly if the value is empty, or there
is no name, or every entry of the name holds already what blanks store and has its flag
set. -/
theorem trimming_iff (reader : FloatReader F) (config_table : List (LocParam V S))
    (mem : ConfMemory V S F) {s rest name value : List Char} (hs : NUL ∉ s) (hname : '=' ∉ name)
    (hvalue : ∀ c ∈ value, isspace c = true) :
    ((∃ buf, Utils.locUtilTrimSpace (s ++ NUL :: rest) = some buf ∧
        stringAt buf 0 = some (strip s)) ↔ s = [] ∨ ∃ c ∈ s, isspace c = false) ∧
    ((locFillConfItem reader (name ++ '=' :: value) config_table mem).1 = mem ↔
      value = [] ∨ name = [] ∨
        ∀ entry ∈ config_table, entry.param_name = locUtilTrimSpace name → ∀ v type,
          entry.Stores v type → mem.read v type = blankValue reader value type ∧
            ∀ flag, entry.param_set = some flag → mem.set flag = 1) := by
  constructor
  · obtain ⟨head, -, hbuf, hstring⟩ := locUtilTrimSpace_eq hs rest
    constructor
    · rintro ⟨buf, hsome, hstrip⟩
      obtain rfl := Option.some.inj (hbuf.symm.trans hsome)
      have heq : locUtilTrimSpace s = strip s := Option.some.inj (hstring.symm.trans hstrip)
      by_cases hblank : ∀ c ∈ s, isspace c = true
      · rw [trimSpace_blank hblank, strip_eq_nil hblank] at heq
        exact .inl heq
      · push Not at hblank
        obtain ⟨c, hc, hspace⟩ := hblank
        exact .inr ⟨c, hc, Bool.eq_false_iff.mpr hspace⟩
    · intro h
      refine ⟨head ++ NUL :: rest, hbuf, ?_⟩
      rcases h with rfl | ⟨c, hc, hspace⟩
      · exact hstring
      · rw [hstring, trimSpace_eq_strip hc hspace]
  · by_cases hempty : value = [] ∨ name = []
    · have hnone := parseConfItem_nil reader hname hvalue hempty
      have hkept : (locFillConfItem reader (name ++ '=' :: value) config_table mem).1 = mem := by
        rw [locFillConfItem, hnone]
      exact iff_of_true hkept (hempty.imp_right .inl)
    · obtain ⟨hvne, hnne⟩ := not_or.mp hempty
      obtain ⟨d, value, rfl⟩ := List.exists_cons_of_ne_nil hvne
      obtain ⟨c, name, rfl⟩ := List.exists_cons_of_ne_nil hnne
      rw [locFillConfItem, parseConfItem_blank reader hname hvalue]
      refine (fillTable_eq_self_iff _ config_table mem).trans ?_
      simp only [typed_blank reader _ hvalue, hvne, hnne, false_or]

theorem trimming_iff_tab :
    ((∃ buf, Utils.locUtilTrimSpace (" A\t".toList ++ NUL :: ['x']) = some buf ∧
        stringAt buf 0 = some (strip " A\t".toList)) ↔
      " A\t".toList = [] ∨ ∃ c ∈ " A\t".toList, isspace c = false) ∧
    ((locFillConfItem intReader ("A ".toList ++ '=' :: "\t\n".toList) pairTable pairMemory).1 =
        pairMemory ↔
      "\t\n".toList = [] ∨ "A ".toList = [] ∨
        ∀ entry ∈ pairTable, entry.param_name = locUtilTrimSpace "A ".toList → ∀ v type,
          entry.Stores v type → pairMemory.read v type = blankValue intReader "\t\n".toList type ∧
            ∀ flag, entry.param_set = some flag → pairMemory.set flag = 1) :=
  trimming_iff intReader pairTable pairMemory (by decide) (by decide) (by
    intro c hc
    have hblank : c = '\t' ∨ c = '\n' := by simpa using hc
    rcases hblank with rfl | rfl
    all_goals rfl)

/-- A blank string is left blank, and a parameter without a value is set. -/
theorem blank_value_stored :
    (¬ ∃ buf, Utils.locUtilTrimSpace (" ".toList ++ [NUL]) = some buf ∧
        stringAt buf 0 = some (strip " ".toList)) ∧
      (locFillConfItem intReader ("A".toList ++ '=' :: "\n".toList) pairTable pairMemory).1 ≠
        pairMemory := by
  constructor
  · rintro ⟨buf, hsome, hstrip⟩
    have hblank : Utils.locUtilTrimSpace (" ".toList ++ [NUL]) = some [' ', NUL] := by decide
    obtain rfl := Option.some.inj (hblank.symm.trans hsome)
    exact absurd hstrip (by decide)
  · intro hline
    have hflag := congrArg (fun mem : ConfMemory (Fin 2) (Fin 2) Int => mem.set 0) hline
    exact absurd hflag (by decide)

end Msm8916.Config
