import Mathlib.Data.List.Nodup
import Msm8916.Config.Agreement

/-!
What `loc_read_conf` makes of a file: which parameters it sets, and to what.
-/

namespace Msm8916.Config

open CString

variable {V S : Type*} {F : Type} [DecidableEq V] [DecidableEq S]

/-! ## The two passes -/

/-- The variables of the log, which only this file knows. -/
inductive LogParam
  | DEBUG_LEVEL
  | TIMESTAMP
deriving DecidableEq, Repr

def locParamTable : List (LocParam LogParam Empty) :=
  [⟨"DEBUG_LEVEL".toList, some .DEBUG_LEVEL, none, 'n'⟩,
    ⟨"TIMESTAMP".toList, some .TIMESTAMP, none, 'n'⟩]

/-- `loc_read_conf`; there is no file if it cannot be opened. The file is read from
its start for the table and again for the variables of the log. -/
def locReadConf (reader : FloatReader F) (file : Option (List Char))
    (config_table : List (LocParam V S)) (mem : ConfMemory V S F)
    (log : ConfMemory LogParam Empty F) : ConfMemory V S F × ConfMemory LogParam Empty F :=
  match file with
  | none => (mem, log)
  | some file =>
      let mem := if config_table = [] then mem else locReadConfR reader file config_table mem
      (mem, locReadConfR reader file locParamTable log)

/-- Every entry has a name, a variable and a flag, if any, of its own, and one of the
three types. -/
structure WellFormed (config_table : List (LocParam V S)) : Prop where
  names : (config_table.map LocParam.param_name).Nodup
  pointers : (config_table.map LocParam.param_ptr).Nodup
  flags : ∀ first ∈ config_table, ∀ second ∈ config_table, ∀ s,
    first.param_set = some s → second.param_set = some s → first = second
  stores : ∀ entry ∈ config_table, ∃ v type, entry.Stores v type

/-! ## Flags and well-formed tables -/

section Entry

variable {reader : FloatReader F} {config_table : List (LocParam V S)} {text : List Char}
  {entry : LocParam V S} {v : V} {type : ParamType}

theorem WellFormed.entry_eq (h : WellFormed config_table) {other : LocParam V S}
    (hentry : entry ∈ config_table) (hother : other ∈ config_table)
    (hptr : other.param_ptr = entry.param_ptr) : other = entry :=
  List.inj_on_of_nodup_map h.pointers hother hentry hptr

/-- An item is stored in the variable of an entry exactly if it has the entry's name. -/
theorem WellFormed.itemWrite_eq (h : WellFormed config_table) (hentry : entry ∈ config_table)
    (hstores : entry.Stores v type) (value : LocParamValue F) :
    itemWrite config_table v type value =
      if entry.param_name = value.param_name then some (value.typed type) else none := by
  rw [itemWrite]
  apply if_congr _ rfl rfl
  constructor
  · rintro ⟨other, hmem, hother, hname⟩
    rw [← h.entry_eq hentry hmem (hother.1.trans hstores.1.symm)]
    exact hname
  · exact fun hname => ⟨entry, hentry, hstores, hname⟩

/-- A line sets the flag of an entry exactly if it writes its variable. -/
theorem WellFormed.lineMark_eq (h : WellFormed config_table) (hentry : entry ∈ config_table)
    (hstores : entry.Stores v type) {s : S} (hflag : entry.param_set = some s)
    (line : List Char) :
    lineMark reader config_table s line =
      (lineWrite reader config_table v type line).map fun _ => 1 := by
  unfold lineMark lineWrite
  cases parseConfItem reader line with
  | none => rfl
  | some value =>
      simp only [Option.bind_some, itemMark, h.itemWrite_eq hentry hstores]
      have hiff : (∃ other ∈ config_table, other.param_set = some s ∧ other.Takes value) ↔
          entry.param_name = value.param_name := by
        constructor
        · rintro ⟨other, hmem, hset, htakes⟩
          rw [← h.flags other hmem entry hentry s hset hflag]
          exact htakes.1
        · exact fun hname => ⟨entry, hentry, hflag, (hstores.takes_iff value).mpr hname⟩
      rw [if_congr hiff rfl rfl]
      split
      · rfl
      · rfl

/-- The flag of an entry is what the last line among those taken that sets it
leaves. -/
theorem locReadConfR_set (hshort : ∀ line ∈ physicalLines text, line.length < locMaxParamLine)
    (mem : ConfMemory V S F) (hentry : entry ∈ config_table) {s : S}
    (hflag : entry.param_set = some s) :
    (locReadConfR reader text config_table mem).set s =
      (lastWrite (lineMark reader config_table s)
        (fileLines reader config_table text)).getD 0 := by
  rw [locReadConfR, fgetsAll_of_short hshort, fillLoop_set, clearFlags_set,
    if_pos ⟨entry, hentry, hflag⟩]
  rfl

end Entry

/-! ## What the file ought to do -/

section Right

variable (reader : FloatReader F) (text : List Char) (entry : LocParam V S) (type : ParamType)

/-- A line of the file assigns the entry's name a value that is not blank. -/
def Named : Prop :=
  ∃ line ∈ physicalLines text, ∃ value, parseConfItem reader line = some value ∧
    entry.param_name = value.param_name ∧ value.param_str_value.all isspace = false

/-- A line of the file assigns the entry's name the value. -/
def Gives (x : ParamValue F) : Prop :=
  ∃ line ∈ physicalLines text, ∃ value, parseConfItem reader line = some value ∧
    entry.param_name = value.param_name ∧ value.typed type = x

/-- A named entry holds a value that the file assigns to it and has its flag set; any
other keeps its value and has its flag cleared. -/
structure SetRight (mem final : ConfMemory V S F) (v : V) : Prop where
  named : Named reader text entry → Gives reader text entry type (final.read v type) ∧
    ∀ s, entry.param_set = some s → final.set s = 1
  other : ¬ Named reader text entry → final.read v type = mem.read v type ∧
    ∀ s, entry.param_set = some s → final.set s = 0

/-- What has to hold of the lines reached before the count of entries is used up. If the entry
is named, one of them sets its flag, and the last that writes its variable, or, without one,
what the variable holds before, is a value that the file assigns to it. Else none of them
sets its flag, and none changes its variable. -/
structure TakenRight (config_table : List (LocParam V S)) (mem : ConfMemory V S F)
    (v : V) : Prop where
  named : Named reader text entry →
    ((∃ x, LastAssigned reader config_table 0 (physicalLines text) v type x ∧
        Gives reader text entry type x) ∨
      (∀ (i : Nat) (line : List Char), (physicalLines text)[i]? = some line →
        Reached reader config_table 0 (physicalLines text) i →
          lineWrite reader config_table v type line = none) ∧
        Gives reader text entry type (mem.read v type)) ∧
    ∀ s, entry.param_set = some s → ∃ (i : Nat) (line : List Char),
      (physicalLines text)[i]? = some line ∧
        Reached reader config_table 0 (physicalLines text) i ∧
        (lineMark reader config_table s line).isSome
  other : ¬ Named reader text entry →
    ((∀ (i : Nat) (line : List Char), (physicalLines text)[i]? = some line →
        Reached reader config_table 0 (physicalLines text) i →
          lineWrite reader config_table v type line = none) ∨
      LastAssigned reader config_table 0 (physicalLines text) v type (mem.read v type)) ∧
    ∀ s, entry.param_set = some s → ∀ (i : Nat) (line : List Char),
      (physicalLines text)[i]? = some line →
        Reached reader config_table 0 (physicalLines text) i →
          lineMark reader config_table s line = none

/-- One of the first assignments of the file, as many as the table has entries, is to the
entry. -/
def NamedEarly (config_table : List (LocParam V S)) : Prop :=
  ∃ value ∈ (assignments reader config_table (physicalLines text)).take config_table.length,
    value.param_name = entry.param_name

/-- A named entry is among the first assignments, and any other is not. If the entry has no flag,
its variable may instead hold from the start, or be given last, what it ought to hold. -/
structure NamedRight (config_table : List (LocParam V S)) (mem : ConfMemory V S F)
    (v : V) : Prop where
  named : Named reader text entry → NamedEarly reader text entry config_table ∨
    entry.param_set = none ∧ Gives reader text entry type (mem.read v type)
  other : ¬ Named reader text entry → ¬ NamedEarly reader text entry config_table ∨
    entry.param_set = none ∧ LastStored config_table
      ((assignments reader config_table (physicalLines text)).take config_table.length) v type
      (mem.read v type)

end Right

section Final

variable {reader : FloatReader F} {config_table : List (LocParam V S)} {text : List Char}
  {entry : LocParam V S} {v : V} {type : ParamType}

theorem lineMark_eq_one {s : S} {line : List Char} {flag : UInt8}
    (h : lineMark reader config_table s line = some flag) : flag = 1 := by
  obtain ⟨value, -, hmark⟩ := Option.bind_eq_some_iff.mp h
  unfold itemMark at hmark
  split at hmark
  · exact (Option.some.inj hmark).symm
  · cases hmark

/-- A flag is set in the end exactly if a line among those taken sets it. -/
theorem lastMark_eq_one {s : S} {lines : List (List Char)} :
    (lastWrite (lineMark reader config_table s) lines).getD 0 = 1 ↔
      ∃ line ∈ lines, (lineMark reader config_table s line).isSome := by
  cases hlast : lastWrite (lineMark reader config_table s) lines with
  | none =>
      have hnone := lastWrite_eq_none.mp hlast
      constructor
      · intro hone
        cases hone
      · rintro ⟨line, hline, hmark⟩
        rw [hnone line hline] at hmark
        cases hmark
  | some flag =>
      obtain ⟨line, hline, hmark⟩ := mem_of_lastWrite hlast
      rw [Option.getD_some, lineMark_eq_one hmark]
      exact iff_of_true rfl ⟨line, hline, by rw [hmark]; rfl⟩

theorem lastMark_eq_zero {s : S} {lines : List (List Char)} :
    (lastWrite (lineMark reader config_table s) lines).getD 0 = 0 ↔
      ∀ line ∈ lines, lineMark reader config_table s line = none := by
  rw [← lastWrite_eq_none]
  cases hlast : lastWrite (lineMark reader config_table s) lines with
  | none => exact iff_of_true rfl rfl
  | some flag =>
      obtain ⟨line, hline, hmark⟩ := mem_of_lastWrite hlast
      rw [Option.getD_some, lineMark_eq_one hmark]
      exact iff_of_false (by decide) nofun

/-! ### The lines reached -/

theorem mem_fileLines {line : List Char} :
    line ∈ fileLines reader config_table text ↔
      ∃ i : Nat, (physicalLines text)[i]? = some line ∧
        Reached reader config_table 0 (physicalLines text) i := by
  rw [fileLines_eq, List.mem_iff_getElem?]
  exact exists_congr fun i => getElem?_takenLines

theorem forall_mem_fileLines {p : List Char → Prop} :
    (∀ line ∈ fileLines reader config_table text, p line) ↔
      ∀ (i : Nat) (line : List Char), (physicalLines text)[i]? = some line →
        Reached reader config_table 0 (physicalLines text) i → p line := by
  constructor
  · exact fun hall i line hline hreached => hall line (mem_fileLines.mpr ⟨i, hline, hreached⟩)
  · intro hall line hmem
    obtain ⟨i, hline, hreached⟩ := mem_fileLines.mp hmem
    exact hall i line hline hreached

theorem exists_mem_fileLines {p : List Char → Prop} :
    (∃ line ∈ fileLines reader config_table text, p line) ↔
      ∃ (i : Nat) (line : List Char), (physicalLines text)[i]? = some line ∧
        Reached reader config_table 0 (physicalLines text) i ∧ p line := by
  constructor
  · rintro ⟨line, hmem, hp⟩
    obtain ⟨i, hline, hreached⟩ := mem_fileLines.mp hmem
    exact ⟨i, line, hline, hreached, hp⟩
  · rintro ⟨i, line, hline, hreached, hp⟩
    exact ⟨line, mem_fileLines.mpr ⟨i, hline, hreached⟩, hp⟩

theorem lastWrite_fileLines {x : ParamValue F} :
    lastWrite (lineWrite reader config_table v type) (fileLines reader config_table text) = some x ↔
      LastAssigned reader config_table 0 (physicalLines text) v type x := by
  rw [fileLines_eq, lastWrite_takenLines]

theorem setRight_iff (hshort : ∀ line ∈ physicalLines text, line.length < locMaxParamLine)
    (hentry : entry ∈ config_table) (mem : ConfMemory V S F) :
    SetRight reader text entry type mem (locReadConfR reader text config_table mem) v ↔
      TakenRight reader text entry type config_table mem v := by
  have hread : (locReadConfR reader text config_table mem).read v type =
      (lastWrite (lineWrite reader config_table v type)
        (fileLines reader config_table text)).getD (mem.read v type) :=
    locReadConfR_read hshort mem v type
  have hgives : Gives reader text entry type
        ((locReadConfR reader text config_table mem).read v type) ↔
      (∃ x, LastAssigned reader config_table 0 (physicalLines text) v type x ∧
          Gives reader text entry type x) ∨
        (∀ (i : Nat) (line : List Char), (physicalLines text)[i]? = some line →
          Reached reader config_table 0 (physicalLines text) i →
            lineWrite reader config_table v type line = none) ∧
          Gives reader text entry type (mem.read v type) := by
    rw [hread, lastWrite_getD_iff (Gives reader text entry type), forall_mem_fileLines]
    simp only [lastWrite_fileLines]
  have hkept : (locReadConfR reader text config_table mem).read v type = mem.read v type ↔
      (∀ (i : Nat) (line : List Char), (physicalLines text)[i]? = some line →
        Reached reader config_table 0 (physicalLines text) i →
          lineWrite reader config_table v type line = none) ∨
        LastAssigned reader config_table 0 (physicalLines text) v type (mem.read v type) := by
    rw [hread, lastWrite_getD_eq, forall_mem_fileLines, lastWrite_fileLines]
  have hone : ∀ s, entry.param_set = some s →
      ((locReadConfR reader text config_table mem).set s = 1 ↔
        ∃ (i : Nat) (line : List Char), (physicalLines text)[i]? = some line ∧
          Reached reader config_table 0 (physicalLines text) i ∧
          (lineMark reader config_table s line).isSome) := by
    intro s hflag
    rw [locReadConfR_set hshort mem hentry hflag, lastMark_eq_one, exists_mem_fileLines]
  have hzero : ∀ s, entry.param_set = some s →
      ((locReadConfR reader text config_table mem).set s = 0 ↔
        ∀ (i : Nat) (line : List Char), (physicalLines text)[i]? = some line →
          Reached reader config_table 0 (physicalLines text) i →
            lineMark reader config_table s line = none) := by
    intro s hflag
    rw [locReadConfR_set hshort mem hentry hflag, lastMark_eq_zero, forall_mem_fileLines]
  constructor
  · rintro ⟨hnamed, hother⟩
    constructor
    · intro h
      obtain ⟨hvalue, hflags⟩ := hnamed h
      exact ⟨hgives.mp hvalue, fun s hflag => (hone s hflag).mp (hflags s hflag)⟩
    · intro h
      obtain ⟨hvalue, hflags⟩ := hother h
      exact ⟨hkept.mp hvalue, fun s hflag => (hzero s hflag).mp (hflags s hflag)⟩
  · rintro ⟨hnamed, hother⟩
    constructor
    · intro h
      obtain ⟨hvalue, hflags⟩ := hnamed h
      exact ⟨hgives.mpr hvalue, fun s hflag => (hone s hflag).mpr (hflags s hflag)⟩
    · intro h
      obtain ⟨hvalue, hflags⟩ := hother h
      exact ⟨hkept.mpr hvalue, fun s hflag => (hzero s hflag).mpr (hflags s hflag)⟩

/-! ### Well-formed tables -/

section Table

variable (h : WellFormed config_table) (hlength : config_table.length < 2 ^ 32)
  (hentry : entry ∈ config_table) (hstores : entry.Stores v type)

include h hlength

/-- What the lines reached store is what the first assignments of the file store. -/
theorem WellFormed.lastWrite_fileLines :
    lastWrite (lineWrite reader config_table v type) (fileLines reader config_table text) =
      lastWrite (itemWrite config_table v type)
        ((assignments reader config_table (physicalLines text)).take config_table.length) := by
  rw [← lastWrite_assignments, fileLines, assignments_takenLines h.names _ hlength]

include hentry hstores

/-- No line reached writes the variable of an entry exactly if none of the first assignments is
to it. -/
theorem WellFormed.not_namedEarly_iff :
    ¬ NamedEarly reader text entry config_table ↔
      ∀ line ∈ fileLines reader config_table text,
        lineWrite reader config_table v type line = none := by
  rw [← lastWrite_eq_none, h.lastWrite_fileLines hlength, lastWrite_eq_none, NamedEarly]
  simp only [h.itemWrite_eq hentry hstores, ite_eq_right_iff, reduceCtorEq, not_exists, not_and]
  exact forall₂_congr fun value _ => not_congr eq_comm

/-- The value that the first assignments give a variable last is one that the file gives its
entry. -/
theorem WellFormed.gives_of_lastWrite {x : ParamValue F}
    (hlast : lastWrite (lineWrite reader config_table v type)
      (fileLines reader config_table text) = some x) : Gives reader text entry type x := by
  rw [h.lastWrite_fileLines hlength] at hlast
  obtain ⟨value, hvalue, hx⟩ := mem_of_lastWrite hlast
  rw [h.itemWrite_eq hentry hstores] at hx
  split at hx
  · rename_i hname
    have hitem := (List.mem_filter.mp (List.mem_of_mem_take hvalue)).1
    obtain ⟨line, hline, hparse⟩ := List.mem_filterMap.mp hitem
    exact ⟨line, hline, value, hparse, hname, Option.some.inj hx⟩
  · cases hx

/-- An entry of a well-formed table is treated right exactly if it is named in the file just when
it is named by one of the first assignments, as many as there are entries, unless it has no flag
and its variable holds the right value all the same. -/
theorem WellFormed.takenRight_iff (mem : ConfMemory V S F) :
    TakenRight reader text entry type config_table mem v ↔
      NamedRight reader text entry type config_table mem v := by
  have hearly : ¬ NamedEarly reader text entry config_table ↔
      ∀ line ∈ fileLines reader config_table text,
        lineWrite reader config_table v type line = none :=
    h.not_namedEarly_iff hlength hentry hstores
  have hnone := hearly.trans forall_mem_fileLines
  have hmark : ∀ s, entry.param_set = some s →
      ((∃ (i : Nat) (line : List Char), (physicalLines text)[i]? = some line ∧
          Reached reader config_table 0 (physicalLines text) i ∧
          (lineMark reader config_table s line).isSome) ↔
        NamedEarly reader text entry config_table) := by
    intro s hflag
    rw [← exists_mem_fileLines, ← not_iff_not, hearly]
    simp only [h.lineMark_eq hentry hstores hflag, Option.isSome_map, not_exists, not_and,
      Option.not_isSome_iff_eq_none]
  have hunmarked : ∀ s, entry.param_set = some s →
      ((∀ (i : Nat) (line : List Char), (physicalLines text)[i]? = some line →
          Reached reader config_table 0 (physicalLines text) i →
            lineMark reader config_table s line = none) ↔
        ¬ NamedEarly reader text entry config_table) := by
    intro s hflag
    rw [← forall_mem_fileLines, hearly]
    simp only [h.lineMark_eq hentry hstores hflag, Option.map_eq_none_iff]
  have hstored : ∀ x, LastAssigned reader config_table 0 (physicalLines text) v type x ↔
      LastStored config_table
        ((assignments reader config_table (physicalLines text)).take config_table.length)
        v type x := by
    intro x
    rw [← Config.lastWrite_fileLines, h.lastWrite_fileLines hlength, lastWrite_itemWrite]
  have hgiven : NamedEarly reader text entry config_table →
      ∃ x, LastAssigned reader config_table 0 (physicalLines text) v type x ∧
        Gives reader text entry type x := by
    intro hnamed
    cases hlast : lastWrite (lineWrite reader config_table v type)
        (fileLines reader config_table text) with
    | none => exact absurd hnamed (hearly.mpr (lastWrite_eq_none.mp hlast))
    | some x =>
        exact ⟨x, Config.lastWrite_fileLines.mp hlast,
          h.gives_of_lastWrite hlength hentry hstores hlast⟩
  constructor
  · rintro ⟨hnamed, hother⟩
    constructor
    · intro hname
      obtain ⟨hvalue, hflags⟩ := hnamed hname
      cases hflag : entry.param_set with
      | some s => exact .inl ((hmark s hflag).mp (hflags s hflag))
      | none =>
          by_cases hin : NamedEarly reader text entry config_table
          · exact .inl hin
          · refine .inr ⟨rfl, ?_⟩
            rcases hvalue with ⟨x, hlast, -⟩ | ⟨-, hbefore⟩
            · have hsome := Config.lastWrite_fileLines.mpr hlast
              rw [lastWrite_eq_none.mpr (hearly.mp hin)] at hsome
              cases hsome
            · exact hbefore
    · intro hname
      obtain ⟨hvalue, hflags⟩ := hother hname
      cases hflag : entry.param_set with
      | some s => exact .inl ((hunmarked s hflag).mp (hflags s hflag))
      | none => exact hvalue.imp hnone.mpr fun hlast => ⟨rfl, (hstored _).mp hlast⟩
  · rintro ⟨hnamed, hother⟩
    constructor
    · intro hname
      rcases hnamed hname with hin | ⟨hflag, hbefore⟩
      · exact ⟨.inl (hgiven hin), fun s hs => (hmark s hs).mpr hin⟩
      · refine ⟨?_, fun s hs => by cases hflag.symm.trans hs⟩
        by_cases hin : NamedEarly reader text entry config_table
        · exact .inl (hgiven hin)
        · exact .inr ⟨hnone.mp hin, hbefore⟩
    · intro hname
      rcases hother hname with hout | ⟨hflag, hlast⟩
      · exact ⟨.inl (hnone.mp hout), fun s hs => (hunmarked s hs).mpr hout⟩
      · exact ⟨.inr ((hstored _).mpr hlast), fun s hs => by cases hflag.symm.trans hs⟩

end Table

theorem locReadConf_fst {file : List Char} (hne : config_table ≠ []) (mem : ConfMemory V S F)
    (log : ConfMemory LogParam Empty F) :
    (locReadConf reader (some file) config_table mem log).1 =
      locReadConfR reader file config_table mem := by
  rw [locReadConf]
  exact if_neg hne

end Final

/-- `loc_read_conf` treats every entry of the table right. -/
def ReadsRight (reader : FloatReader F) (config_table : List (LocParam V S)) (text : List Char)
    (mem : ConfMemory V S F) (log : ConfMemory LogParam Empty F) : Prop :=
  ∀ entry ∈ config_table, ∀ v type, entry.Stores v type →
    SetRight reader text entry type mem
      (locReadConf reader (some text) config_table mem log).1 v

/-- `loc_read_conf` treats every entry of the table right exactly if the lines do that it comes
to before its count of entries is used up. If each entry has a name, a variable and a flag of
its own, that is so exactly if a value that is not blank is assigned to an entry just when one of
the first assignments of the file, as many as there are entries, is to it. An entry without a
flag may instead hold the right value by chance. -/
theorem reads_every_parameter_iff {reader : FloatReader F} {config_table : List (LocParam V S)}
    {text : List Char} (hshort : ∀ line ∈ physicalLines text, line.length < locMaxParamLine)
    (mem : ConfMemory V S F) (log : ConfMemory LogParam Empty F) :
    (ReadsRight reader config_table text mem log ↔
      ∀ entry ∈ config_table, ∀ v type, entry.Stores v type →
        TakenRight reader text entry type config_table mem v) ∧
    (WellFormed config_table → config_table.length < 2 ^ 32 →
      (ReadsRight reader config_table text mem log ↔
        ∀ entry ∈ config_table, ∀ v type, entry.Stores v type →
          NamedRight reader text entry type config_table mem v)) := by
  have hright : ReadsRight reader config_table text mem log ↔
      ∀ entry ∈ config_table, ∀ v type, entry.Stores v type →
        TakenRight reader text entry type config_table mem v := by
    apply forall₅_congr
    intro entry hentry v type _
    rw [locReadConf_fst (List.ne_nil_of_mem hentry)]
    exact setRight_iff hshort hentry mem
  refine ⟨hright, fun h hlength => hright.trans ?_⟩
  apply forall₅_congr
  intro entry hentry v type hstores
  exact h.takenRight_iff hlength hentry hstores mem

/-- Two parameters with a flag each. -/
def pairTable : List (LocParam (Fin 2) (Fin 2)) :=
  [⟨"A".toList, some 0, some 0, 'n'⟩, ⟨"B".toList, some 1, some 1, 'n'⟩]

def pairMemory : ConfMemory (Fin 2) (Fin 2) Int :=
  ⟨fun _ => 0, fun _ => [], fun _ => 0, fun _ => 0⟩

def logMemory : ConfMemory LogParam Empty Int := ⟨fun _ => 0, fun _ => [], fun _ => 0, nofun⟩

theorem pairTable_wellFormed : WellFormed pairTable where
  names := by decide
  pointers := by decide
  flags := by
    intro first hfirst second hsecond s hs hs'
    have hpair : ∀ entry ∈ pairTable, entry =
        if entry.param_set = some 0 then ⟨"A".toList, some 0, some 0, 'n'⟩
        else ⟨"B".toList, some 1, some 1, 'n'⟩ := by
      intro entry hentry
      rcases List.mem_pair.mp hentry with rfl | rfl
      · rfl
      · rfl
    rw [hpair first hfirst, hpair second hsecond, hs, hs']
  stores := by
    intro entry hentry
    rcases List.mem_pair.mp hentry with rfl | rfl
    · exact ⟨0, .num, rfl, rfl⟩
    · exact ⟨1, .num, rfl, rfl⟩

theorem reads_every_parameter_iff_pair :
    let text : List Char := "B = 2\n# none\nA=1\n".toList
    (ReadsRight intReader pairTable text pairMemory logMemory ↔
      ∀ entry ∈ pairTable, ∀ v type, entry.Stores v type →
        TakenRight intReader text entry type pairTable pairMemory v) ∧
    (ReadsRight intReader pairTable text pairMemory logMemory ↔
      ∀ entry ∈ pairTable, ∀ v type, entry.Stores v type →
        NamedRight intReader text entry type pairTable pairMemory v) := by
  intro text
  obtain ⟨hgeneral, hwellFormed⟩ :=
    @reads_every_parameter_iff _ _ _ _ _ intReader pairTable text (by decide) pairMemory logMemory
  exact ⟨hgeneral, hwellFormed pairTable_wellFormed (by decide)⟩

/-- A parameter that is given twice uses up the count of the one after it. -/
theorem duplicate_hides_parameter :
    ¬ ∀ text : List Char, (∀ line ∈ physicalLines text, line.length < locMaxParamLine - 1) →
      ∀ entry ∈ pairTable, ∀ v type, entry.Stores v type →
        SetRight intReader text entry type pairMemory
          (locReadConf intReader (some text) pairTable pairMemory logMemory).1 v := by
  intro hall
  have hright := hall "A=1\nA=2\nB=3\n".toList (by decide) ⟨"B".toList, some 1, some 1, 'n'⟩
    (List.mem_cons_of_mem _ List.mem_cons_self) 1 .num ⟨rfl, rfl⟩
  have hnamed : Named intReader "A=1\nA=2\nB=3\n".toList
      (⟨"B".toList, some 1, some 1, 'n'⟩ : LocParam (Fin 2) (Fin 2)) :=
    ⟨"B=3\n".toList, by decide, ⟨"B".toList, "3".toList, 3, 3⟩, rfl, rfl, by decide⟩
  have hset := (hright.named hnamed).2 1 rfl
  exact absurd hset (by decide)

end Msm8916.Config
