import Mathlib.Algebra.Ring.Nat
import Msm8916.Config.Table

/-!
The assignments that a text makes to the entries of a table, and which of its lines a reader
comes to before its count of parameters is used up.
-/

namespace Msm8916.Config

open CString

variable {V S : Type*} {F : Type}

section Text

variable (reader : FloatReader F) (config_table : List (LocParam V S))

/-- The name in the item of a line. -/
def lineName (line : List Char) : Option (List Char) :=
  (parseConfItem reader line).map LocParamValue.param_name

/-- The entry takes the item of a line. -/
def takesLine (line : List Char) (entry : LocParam V S) : Bool :=
  (parseConfItem reader line).any fun value => entry.Takes value

/-- The lines of a buffer that are not empty. -/
def textLines (text : List Char) : List (List Char) := (text.splitOn '\n').filter (· ≠ [])

/-- The items of lines, but for those that no entry takes. -/
def assignments (lines : List (List Char)) : List (LocParamValue F) :=
  (lines.filterMap (parseConfItem reader)).filter fun value =>
    config_table.any fun entry => entry.Takes value

/-- The number of entries that the first lines fill. -/
def entriesFilled (lines : List (List Char)) (count : Nat) : Nat :=
  ((lines.take count).map (lineCount reader config_table)).sum

/-- The lines before this one have not used up the count, which starts with `spare` less than
the table has entries. -/
def Reached (spare : Nat) (lines : List (List Char)) (i : Nat) : Prop :=
  ∀ j ≤ i, (entriesFilled reader config_table lines j + spare) % 2 ^ 32 ≠
    config_table.length % 2 ^ 32

variable [DecidableEq V]

/-- The last line reached that assigns to a variable gives it the value. -/
def LastAssigned (spare : Nat) (lines : List (List Char)) (v : V) (type : ParamType)
    (x : ParamValue F) : Prop :=
  ∃ (i : Nat) (line : List Char), lines[i]? = some line ∧
    Reached reader config_table spare lines i ∧ lineWrite reader config_table v type line = some x ∧
    ∀ (j : Nat) (later : List Char), i < j → lines[j]? = some later →
      Reached reader config_table spare lines j →
        lineWrite reader config_table v type later = none

/-- The last of these assignments to a variable gives it the value. -/
def LastStored (values : List (LocParamValue F)) (v : V) (type : ParamType) (x : ParamValue F) :
    Prop :=
  ∃ (i : Nat) (value : LocParamValue F), values[i]? = some value ∧
    itemWrite config_table v type value = some x ∧
    ∀ (j : Nat) (later : LocParamValue F), i < j → values[j]? = some later →
      itemWrite config_table v type later = none

end Text

section Lines

variable {reader : FloatReader F} {config_table : List (LocParam V S)} {line : List Char}
  {entry : LocParam V S}

theorem takesLine_iff :
    takesLine reader line entry = true ↔
      lineName reader line = some entry.param_name ∧ entry.param_ptr.isSome ∧
        (paramType entry.param_type).isSome := by
  unfold takesLine lineName
  cases parseConfItem reader line with
  | none => simp
  | some value =>
      simp only [Option.any_some, Option.map_some, decide_eq_true_eq, Option.some.injEq]
      exact and_congr_left' eq_comm

theorem lineCount_eq (line : List Char) :
    lineCount reader config_table line = config_table.countP (takesLine reader line) := by
  unfold lineCount takesLine
  cases parseConfItem reader line with
  | none => simp
  | some value => rfl

/-- In a table of distinct names a line is counted once if an entry takes it. -/
theorem lineCount_eq_one_iff (hnames : (config_table.map LocParam.param_name).Nodup) :
    lineCount reader config_table line = 1 ↔
      ∃ entry ∈ config_table, takesLine reader line entry := by
  rw [lineCount_eq]
  constructor
  · intro h
    exact List.countP_pos_iff.mp (by omega)
  · intro h
    induction config_table with
    | nil => simp at h
    | cons first rest ih =>
        rw [List.map_cons, List.nodup_cons] at hnames
        rw [List.countP_cons]
        by_cases hfirst : takesLine reader line first = true
        · have hnone : rest.countP (takesLine reader line) = 0 := by
            rw [List.countP_eq_zero]
            intro other hother htakes
            have hsame := (takesLine_iff.mp hfirst).1.symm.trans (takesLine_iff.mp htakes).1
            apply hnames.1
            rw [Option.some.inj hsame]
            exact List.mem_map_of_mem hother
          rw [hnone, if_pos hfirst]
        · have hrest : ∃ entry ∈ rest, takesLine reader line entry = true := by
            obtain ⟨other, hmem, htakes⟩ := h
            rcases List.mem_cons.mp hmem with rfl | hin
            · exact absurd htakes hfirst
            · exact ⟨other, hin, htakes⟩
          rw [ih hnames.2 hrest, if_neg hfirst]

/-! ## The lines that are taken -/

theorem ofNat_succ_ne_zero {count : Nat} (hcount : count + 1 < 2 ^ 32) :
    UInt32.ofNat (count + 1) ≠ 0 := by
  intro h
  have hzero := congrArg UInt32.toNat h
  rw [UInt32.toNat_ofNat_of_lt' hcount] at hzero
  exact Nat.succ_ne_zero _ hzero

/-- While every line is counted once, the count says how many are taken. -/
theorem takenLines_step {lines : List (List Char)} {count : Nat} (hcount : count + 1 < 2 ^ 32)
    (hone : lineCount reader config_table line = 1) :
    takenLines reader config_table (line :: lines) (UInt32.ofNat (count + 1)) =
      line :: takenLines reader config_table lines (UInt32.ofNat count) := by
  have hnext : UInt32.ofNat (count + 1) - UInt32.ofNat 1 = UInt32.ofNat count := by
    rw [UInt32.ofNat_add]
    exact UInt32.add_sub_cancel _ _
  rw [takenLines, if_neg (ofNat_succ_ne_zero hcount), hone, hnext]

theorem takenLines_zero (lines : List (List Char)) :
    takenLines reader config_table lines 0 = [] := by
  cases lines with
  | nil => rfl
  | cons line lines => rw [takenLines, if_pos rfl]

theorem takenLines_isPrefixOf (lines : List (List Char)) (num_params : UInt32) :
    takenLines reader config_table lines num_params <+: lines := by
  induction lines generalizing num_params with
  | nil => exact List.prefix_rfl
  | cons line lines ih =>
      rw [takenLines]
      split
      · exact List.nil_prefix
      · exact List.cons_prefix_cons.mpr ⟨rfl, ih _⟩

/-- A line is taken unless those before it have used the count up. -/
theorem lt_length_takenLines_iff {lines : List (List Char)} {num_params : UInt32} {i : Nat} :
    i < (takenLines reader config_table lines num_params).length ↔
      i < lines.length ∧ ∀ j ≤ i,
        UInt32.ofNat ((lines.take j).map (lineCount reader config_table)).sum ≠ num_params := by
  induction lines generalizing num_params i with
  | nil => simp [takenLines]
  | cons line lines ih =>
      rw [takenLines]
      by_cases hzero : num_params = 0
      · subst hzero
        rw [if_pos rfl]
        constructor
        · exact fun h => absurd h (Nat.not_lt_zero _)
        · exact fun h => absurd rfl (h.2 0 (Nat.zero_le _))
      · rw [if_neg hzero, List.length_cons, List.length_cons]
        have hnext : ∀ sum : Nat,
            UInt32.ofNat (lineCount reader config_table line + sum) = num_params ↔
              UInt32.ofNat sum =
                num_params - UInt32.ofNat (lineCount reader config_table line) := by
          intro sum
          rw [UInt32.ofNat_add]
          constructor
          · intro h
            rw [← h, UInt32.add_comm, UInt32.add_sub_cancel]
          · intro h
            rw [h, UInt32.add_comm, UInt32.sub_add_cancel]
        cases i with
        | zero =>
            refine iff_of_true (Nat.succ_pos _) ⟨Nat.succ_pos _, ?_⟩
            intro j hj
            obtain rfl := Nat.le_zero.mp hj
            exact Ne.symm hzero
        | succ i =>
            rw [Nat.succ_lt_succ_iff, Nat.succ_lt_succ_iff, ih]
            apply and_congr_right'
            constructor
            · intro h j hj
              cases j with
              | zero => exact Ne.symm hzero
              | succ j =>
                  rw [List.take_succ_cons, List.map_cons, List.sum_cons]
                  exact fun heq => h j (Nat.le_of_succ_le_succ hj) ((hnext _).mp heq)
            · intro h j hj heq
              have hsucc := h (j + 1) (Nat.succ_le_succ hj)
              rw [List.take_succ_cons, List.map_cons, List.sum_cons] at hsucc
              exact hsucc ((hnext _).mpr heq)

theorem ofNat_eq_iff (a b : Nat) :
    UInt32.ofNat a = UInt32.ofNat b ↔ a % 2 ^ 32 = b % 2 ^ 32 := by
  rw [← UInt32.toNat_inj, UInt32.toNat_ofNat', UInt32.toNat_ofNat']

/-- The lines that are taken are those reached. -/
theorem getElem?_takenLines {spare : Nat} {lines : List (List Char)} {i : Nat} :
    (takenLines reader config_table lines
        (UInt32.ofNat config_table.length - UInt32.ofNat spare))[i]? = some line ↔
      lines[i]? = some line ∧ Reached reader config_table spare lines i := by
  have hcount : ∀ sum : Nat,
      UInt32.ofNat sum = UInt32.ofNat config_table.length - UInt32.ofNat spare ↔
        (sum + spare) % 2 ^ 32 = config_table.length % 2 ^ 32 := by
    intro sum
    rw [← ofNat_eq_iff, UInt32.ofNat_add]
    constructor
    · intro h
      rw [h, UInt32.sub_add_cancel]
    · intro h
      rw [← h, UInt32.add_sub_cancel]
  rw [List.prefix_iff_eq_take.mp (takenLines_isPrefixOf lines _), List.getElem?_take]
  constructor
  · intro h
    split at h
    · rename_i hlt
      refine ⟨h, fun j hj => ?_⟩
      exact fun heq => (lt_length_takenLines_iff.mp hlt).2 j hj ((hcount _).mpr heq)
    · cases h
  · rintro ⟨hline, hreached⟩
    rw [if_pos]
    · exact hline
    · refine lt_length_takenLines_iff.mpr ⟨(List.getElem?_eq_some_iff.mp hline).1, fun j hj => ?_⟩
      exact fun heq => hreached j hj ((hcount _).mp heq)

/-- In a table of distinct names a line makes one assignment or none. -/
theorem assignments_cons (hnames : (config_table.map LocParam.param_name).Nodup)
    (line : List Char) :
    (lineCount reader config_table line = 0 ∧ ∀ lines,
        assignments reader config_table (line :: lines) = assignments reader config_table lines) ∨
      lineCount reader config_table line = 1 ∧ ∃ value, ∀ lines,
        assignments reader config_table (line :: lines) =
          value :: assignments reader config_table lines := by
  by_cases htaken : ∃ entry ∈ config_table, takesLine reader line entry = true
  · refine .inr ⟨(lineCount_eq_one_iff hnames).mpr htaken, ?_⟩
    obtain ⟨entry, hentry, htakes⟩ := htaken
    obtain ⟨value, hparse, htakes⟩ := (Option.any_eq_true _ _).mp htakes
    refine ⟨value, fun lines => ?_⟩
    rw [assignments, List.filterMap_cons_some hparse, List.filter_cons_of_pos]
    · rfl
    · exact List.any_eq_true.mpr ⟨entry, hentry, htakes⟩
  · push Not at htaken
    refine .inl ⟨?_, fun lines => ?_⟩
    · rw [lineCount_eq, List.countP_eq_zero]
      exact htaken
    · cases hparse : parseConfItem reader line with
      | none => rw [assignments, List.filterMap_cons_none hparse, assignments]
      | some value =>
          rw [assignments, List.filterMap_cons_some hparse, List.filter_cons_of_neg]
          · rfl
          · intro hany
            obtain ⟨entry, hentry, htakes⟩ := List.any_eq_true.mp hany
            exact htaken entry hentry (by rw [takesLine, hparse]; exact htakes)

/-- In a table of distinct names the count says how many assignments are taken. -/
theorem assignments_takenLines (hnames : (config_table.map LocParam.param_name).Nodup)
    (lines : List (List Char)) {count : Nat} (hcount : count < 2 ^ 32) :
    assignments reader config_table (takenLines reader config_table lines (UInt32.ofNat count)) =
      (assignments reader config_table lines).take count := by
  induction lines generalizing count with
  | nil => exact (List.take_nil).symm
  | cons line lines ih =>
      cases count with
      | zero =>
          rw [List.take_zero]
          exact congrArg (assignments reader config_table) (takenLines_zero _)
      | succ count =>
          rcases assignments_cons hnames line with ⟨hzero, hnone⟩ | ⟨hone, value, hvalue⟩
          · have hkept : UInt32.ofNat (count + 1) - UInt32.ofNat 0 = UInt32.ofNat (count + 1) :=
              UInt32.sub_zero _
            rw [takenLines, if_neg (ofNat_succ_ne_zero hcount), hzero, hkept, hnone, hnone,
              ih hcount]
          · rw [takenLines_step hcount hone, hvalue, hvalue, List.take_succ_cons,
              ih (Nat.lt_of_succ_lt hcount)]

variable [DecidableEq V] {v : V} {type : ParamType} {x : ParamValue F}

theorem lastWrite_takenLines {spare : Nat} {lines : List (List Char)} :
    lastWrite (lineWrite reader config_table v type) (takenLines reader config_table lines
        (UInt32.ofNat config_table.length - UInt32.ofNat spare)) = some x ↔
      LastAssigned reader config_table spare lines v type x := by
  simp only [lastWrite_eq_some, getElem?_takenLines, and_assoc, and_imp, LastAssigned]

theorem lastWrite_itemWrite {values : List (LocParamValue F)} :
    lastWrite (itemWrite config_table v type) values = some x ↔
      LastStored config_table values v type x :=
  lastWrite_eq_some

/-- Lines write what their assignments store. -/
theorem lastWrite_assignments (lines : List (List Char)) :
    lastWrite (itemWrite config_table v type) (assignments reader config_table lines) =
      lastWrite (lineWrite reader config_table v type) lines := by
  rw [assignments, lastWrite_filter, lastWrite_filterMap]
  · rfl
  · intro value _ htakes
    rw [itemWrite, if_neg]
    rintro ⟨entry, hentry, hstores, hname⟩
    have hnone := List.any_eq_false.mp htakes entry hentry
    exact hnone (decide_eq_true ((hstores.takes_iff value).mpr hname))

end Lines

/-! ## Lines with and without their newlines -/

section Newline

variable (reader : FloatReader F)

theorem locUtilTrimSpace_newline {value : List Char} (h : value.all isspace = false) :
    locUtilTrimSpace (value ++ ['\n']) = locUtilTrimSpace value := by
  unfold locUtilTrimSpace
  rw [List.dropWhile_append]
  cases hdrop : value.dropWhile isspace with
  | nil =>
      have hall := List.all_eq_true.mpr (List.dropWhile_eq_nil_iff.mp hdrop)
      rw [hall] at h
      cases h
  | cons first rest =>
      rw [List.isEmpty_cons, if_neg Bool.false_ne_true, List.cons_append]
      dsimp only
      rw [← List.cons_append, List.reverse_append]
      rfl

theorem trimSpace_blank {value : List Char} (hvalue : ∀ c ∈ value, isspace c = true) :
    locUtilTrimSpace value = value := by
  unfold locUtilTrimSpace
  rw [List.dropWhile_eq_nil_iff.mpr hvalue]

/-- The item of a line is that of its first two tokens. -/
theorem parseConfItem_tokens {line name lasts value rest : List Char}
    (hname : strtok '=' line = some (name, lasts))
    (hvalue : strtok '=' lasts = some (value, rest)) :
    ∃ item, parseConfItem reader line = some item ∧ item.param_name = locUtilTrimSpace name ∧
      item.param_str_value = locUtilTrimSpace value := by
  unfold parseConfItem
  simp only [hname, Option.bind_eq_bind, Option.bind_some, hvalue]
  split
  · split
    · exact ⟨_, rfl, rfl, rfl⟩
    · exact ⟨_, rfl, rfl, rfl⟩
  · exact ⟨_, rfl, rfl, rfl⟩

/-- Lines with the same two tokens, but for blanks around the second, have the same item. -/
theorem parseConfItem_congr {line line' name lasts lasts' value value' rest rest' : List Char}
    (hname : strtok '=' line = some (name, lasts)) (hvalue : strtok '=' lasts = some (value, rest))
    (hname' : strtok '=' line' = some (name, lasts'))
    (hvalue' : strtok '=' lasts' = some (value', rest'))
    (htrim : locUtilTrimSpace value = locUtilTrimSpace value') :
    parseConfItem reader line = parseConfItem reader line' := by
  unfold parseConfItem
  simp only [hname, hname', Option.bind_eq_bind, Option.bind_some, hvalue, hvalue', htrim]

theorem parseConfItem_none {line name lasts : List Char}
    (hname : strtok '=' line = some (name, lasts)) (hvalue : strtok '=' lasts = none) :
    parseConfItem reader line = none := by
  unfold parseConfItem
  simp only [hname, Option.bind_eq_bind, Option.bind_some, hvalue, Option.bind_none]

/-- A newline behind a line changes its item only if it is, or is part of, a blank value. -/
theorem parseConfItem_newline (line : List Char) :
    parseConfItem reader (line ++ ['\n']) = parseConfItem reader line ∨
      ∃ item, parseConfItem reader (line ++ ['\n']) = some item ∧
        item.param_str_value.all isspace = true ∧
        ∀ other, parseConfItem reader line = some other → other.param_name = item.param_name := by
  have hnewline : '\n' ≠ '=' := by decide
  rcases strtok_append hnewline line with
    ⟨hend, hline⟩ | ⟨name, hend, hline⟩ | ⟨name, rest, hend, hline⟩
  · refine .inl ((parseConfItem_none reader hline rfl).trans ?_)
    unfold parseConfItem
    rw [hend]
    rfl
  · have hnone := parseConfItem_none reader hend rfl
    exact .inl ((parseConfItem_none reader hline rfl).trans hnone.symm)
  · rcases strtok_append hnewline rest with
      ⟨hlast, hvalue⟩ | ⟨value, hlast, hvalue⟩ | ⟨value, _, hlast, hvalue⟩
    · obtain ⟨item, hitem, -, hblank⟩ := parseConfItem_tokens reader hline hvalue
      refine .inr ⟨item, hitem, by rw [hblank]; rfl, fun other hother => ?_⟩
      rw [parseConfItem_none reader hend hlast] at hother
      cases hother
    · cases hblank : value.all isspace with
      | true =>
          obtain ⟨item, hitem, hname, hitemValue⟩ := parseConfItem_tokens reader hline hvalue
          obtain ⟨before, hbefore, hsame, -⟩ := parseConfItem_tokens reader hend hlast
          have hspaces : (value ++ ['\n']).all isspace = true := by
            rw [List.all_append, hblank]
            rfl
          refine .inr ⟨item, hitem, ?_, fun other hother => ?_⟩
          · rw [hitemValue, trimSpace_blank (List.all_eq_true.mp hspaces), hspaces]
          · rw [← Option.some.inj (hbefore.symm.trans hother), hname, hsame]
      | false =>
          have htrim := locUtilTrimSpace_newline hblank
          exact .inl (parseConfItem_congr reader hline hvalue hend hlast htrim)
    · exact .inl (parseConfItem_congr reader hline hvalue hend hlast rfl)

end Newline

end Msm8916.Config
