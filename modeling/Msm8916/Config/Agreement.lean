import Mathlib.Data.Int.Basic
import Msm8916.Config.Assignments

/-!
When a file and a buffer of the same text configure the same.
-/

namespace Msm8916.Config

open CString

variable {V S : Type*} {F : Type} [DecidableEq V] [DecidableEq S]

section Readers

variable (reader : FloatReader F) (config_table : List (LocParam V S)) (text : List Char)

/-- The lines of a file, with their newlines, that `loc_read_conf_r` takes. -/
def fileLines : List (List Char) :=
  takenLines reader config_table (physicalLines text) (UInt32.ofNat config_table.length)

/-- The lines of a buffer, without newlines and without the empty ones, that
`loc_update_conf` takes; its count starts with one record less. -/
def bufferLines : List (List Char) :=
  if text = [] ∨ config_table = [] then []
  else takenLines reader config_table (tokens '\n' text) (UInt32.ofNat config_table.length - 1)

variable {reader config_table text}

theorem locReadConfR_read (hshort : ∀ line ∈ physicalLines text, line.length < locMaxParamLine)
    (mem : ConfMemory V S F) (v : V) (type : ParamType) :
    (locReadConfR reader text config_table mem).read v type =
      (lastWrite (lineWrite reader config_table v type)
        (fileLines reader config_table text)).getD (mem.read v type) := by
  rw [locReadConfR, fgetsAll_of_short hshort, fillLoop_read, clearFlags_read]
  rfl

theorem locUpdateConf_read (mem : ConfMemory V S F) (v : V) (type : ParamType) :
    (locUpdateConf reader text config_table mem).1.read v type =
      (lastWrite (lineWrite reader config_table v type)
        (bufferLines reader config_table text)).getD (mem.read v type) := by
  unfold locUpdateConf bufferLines
  split
  · rfl
  · exact fillLoop_read _ _ mem v type

end Readers

omit [DecidableEq S] in
/-- A variable of a type may hold two different values at least. -/
theorem exists_read_ne [Nontrivial F] (mem : ConfMemory V S F) (v : V) (type : ParamType)
    (value : ParamValue F) : ∃ other : ConfMemory V S F, other.read v type ≠ value := by
  cases type with
  | num =>
      cases value with
      | num n =>
          by_cases hn : n = 0
          · exact ⟨mem.setNum v 1, by simp [ConfMemory.read, ConfMemory.setNum, hn]⟩
          · exact ⟨mem.setNum v 0, by simp [ConfMemory.read, ConfMemory.setNum, Ne.symm hn]⟩
      | str str => exact ⟨mem, fun h => by cases h⟩
      | dbl value => exact ⟨mem, fun h => by cases h⟩
  | str =>
      cases value with
      | num n => exact ⟨mem, fun h => by cases h⟩
      | str str =>
          exact ⟨mem.setStr v ('a' :: str), by simp [ConfMemory.read, ConfMemory.setStr]⟩
      | dbl value => exact ⟨mem, fun h => by cases h⟩
  | dbl =>
      cases value with
      | num n => exact ⟨mem, fun h => by cases h⟩
      | str str => exact ⟨mem, fun h => by cases h⟩
      | dbl value =>
          obtain ⟨other, hother⟩ := exists_ne value
          exact ⟨mem.setDbl v other, by simp [ConfMemory.read, ConfMemory.setDbl, hother]⟩

omit [DecidableEq S] in
/-- Two last writes leave the same value whatever was there before exactly if they
are the same. -/
theorem getD_read_iff [Nontrivial F] (v : V) (type : ParamType)
    (first second : Option (ParamValue F)) :
    (∀ mem : ConfMemory V S F, first.getD (mem.read v type) = second.getD (mem.read v type)) ↔
      first = second := by
  constructor
  · intro hall
    obtain ⟨x, -, -⟩ := exists_pair_ne F
    let mem : ConfMemory V S F := ⟨fun _ => 0, fun _ => [], fun _ => x, fun _ => 0⟩
    cases first with
    | none =>
        cases second with
        | none => rfl
        | some value =>
            obtain ⟨other, hother⟩ := exists_read_ne mem v type value
            exact absurd (hall other) hother
    | some value =>
        cases second with
        | none =>
            obtain ⟨other, hother⟩ := exists_read_ne mem v type value
            exact absurd (hall other).symm hother
        | some other => exact congrArg some (hall mem)
  · rintro rfl mem
    rfl

/-! ## The assignments of the text -/

section Text

variable (reader : FloatReader F) (config_table : List (LocParam V S)) (text : List Char)

/-- No line of a file assigns an entry of the table a blank value. -/
def NoBlank : Prop :=
  ∀ value ∈ assignments reader config_table (physicalLines text),
    value.param_str_value.all isspace = false

/-- A file and a buffer of the text leave the variables of the table equal, whatever they held
before. -/
def FileEqBuffer : Prop :=
  ∀ mem : ConfMemory V S F, ∀ entry ∈ config_table, ∀ v type, entry.Stores v type →
    (locReadConfR reader text config_table mem).read v type =
      (locUpdateConf reader text config_table mem).1.read v type

/-- If the text makes as many assignments as the table has entries, that one stores what the
last before it does, in every variable that it is stored in. -/
def LastRepeats : Prop :=
  ∀ value,
    (assignments reader config_table (physicalLines text))[config_table.length - 1]? = some value →
    ∀ entry ∈ config_table, entry.param_name = value.param_name → ∀ v type,
      entry.Stores v type →
        LastStored config_table
          ((assignments reader config_table (physicalLines text)).take (config_table.length - 1))
          v type (value.typed type)

variable {reader config_table text}

omit [DecidableEq V] [DecidableEq S] in
/-- Without blank values a text makes the same assignments as a file and as a buffer. -/
theorem NoBlank.assignments_eq (h : NoBlank reader config_table text) :
    assignments reader config_table (physicalLines text) =
      assignments reader config_table (textLines text) := by
  let taken (value : LocParamValue F) : Bool := config_table.any fun entry => entry.Takes value
  have hsame : ∀ {first second : LocParamValue F}, first.param_name = second.param_name →
      taken first = taken second := by
    intro first second hname
    have htakes : ∀ entry : LocParam V S, entry.Takes first ↔ entry.Takes second := by
      intro entry
      rw [LocParam.Takes, LocParam.Takes, hname]
    simp only [taken, htakes]
  have hmake : ∀ line, line ++ ['\n'] ∈ physicalLines text →
      (parseConfItem reader (line ++ ['\n'])).filter taken =
        (parseConfItem reader line).filter taken := by
    intro line hline
    rcases parseConfItem_newline reader line with heq | ⟨item, hitem, hblank, hname⟩
    · rw [heq]
    · have hnone : taken item = false := by
        by_contra htaken
        have hmem : item ∈ assignments reader config_table (physicalLines text) :=
          List.mem_filter.mpr
            ⟨List.mem_filterMap.mpr ⟨_, hline, hitem⟩, eq_true_of_ne_false htaken⟩
        rw [h item hmem] at hblank
        cases hblank
      rw [hitem, Option.filter_some_neg hnone]
      cases hother : parseConfItem reader line with
      | none => rfl
      | some other =>
          have hdropped : taken other = false := (hsame (hname other hother)).trans hnone
          rw [Option.filter_some_neg hdropped]
  have hempty : (textLines text).filterMap (fun line => (parseConfItem reader line).filter taken) =
      (text.splitOn '\n').filterMap fun line => (parseConfItem reader line).filter taken := by
    rw [textLines, List.filterMap_filter]
    apply List.filterMap_congr
    intro line _
    by_cases hline : line = []
    · subst hline
      rfl
    · simp [hline]
  rw [assignments, assignments, List.filter_filterMap, List.filter_filterMap]
  exact (filterMap_physicalLines rfl hmake).trans hempty.symm

theorem fileEqBuffer_iff [Nontrivial F]
    (hshort : ∀ line ∈ physicalLines text, line.length < locMaxParamLine) :
    FileEqBuffer reader config_table text ↔
      ∀ entry ∈ config_table, ∀ v type, entry.Stores v type →
        lastWrite (lineWrite reader config_table v type) (fileLines reader config_table text) =
          lastWrite (lineWrite reader config_table v type)
            (bufferLines reader config_table text) := by
  constructor
  · intro hall entry hentry v type hstores
    apply (getD_read_iff (S := S) v type _ _).mp
    intro mem
    rw [← locReadConfR_read hshort, ← locUpdateConf_read]
    exact hall mem entry hentry v type hstores
  · intro hall mem entry hentry v type hstores
    rw [locReadConfR_read hshort, locUpdateConf_read, hall entry hentry v type hstores]

omit [DecidableEq V] [DecidableEq S] in
theorem fileLines_eq :
    fileLines reader config_table text =
      takenLines reader config_table (physicalLines text)
        (UInt32.ofNat config_table.length - UInt32.ofNat 0) :=
  congrArg (takenLines reader config_table _) (UInt32.sub_zero _).symm

omit [DecidableEq V] [DecidableEq S] in
theorem bufferLines_eq (htable : config_table ≠ []) :
    bufferLines reader config_table text =
      takenLines reader config_table (textLines text)
        (UInt32.ofNat config_table.length - UInt32.ofNat 1) := by
  unfold bufferLines
  split
  · rename_i hempty
    obtain rfl := hempty.resolve_right htable
    rfl
  · rw [tokens_eq]
    rfl

omit [DecidableEq S] in
/-- Reading the last assignment too makes no difference exactly if it stores what is stored
already. -/
theorem lastWrite_take_succ {values : List (LocParamValue F)} {count : Nat} {v : V}
    {type : ParamType} :
    lastWrite (itemWrite config_table v type) (values.take (count + 1)) =
        lastWrite (itemWrite config_table v type) (values.take count) ↔
      ∀ value, values[count]? = some value → ∀ x, itemWrite config_table v type value = some x →
        LastStored config_table (values.take count) v type x := by
  rw [List.take_add_one, lastWrite_append]
  cases hvalue : values[count]? with
  | none => simp [lastWrite]
  | some value =>
      have hone : lastWrite (itemWrite config_table v type) (some value).toList =
          itemWrite config_table v type value := by
        rw [Option.toList_some, lastWrite_cons]
        rfl
      rw [hone]
      cases hwrite : itemWrite config_table v type value with
      | none => simp [hwrite]
      | some x =>
          rw [Option.some_or, eq_comm, lastWrite_itemWrite]
          constructor
          · intro hstored other hother y hy
            obtain rfl := Option.some.inj hother
            obtain rfl := Option.some.inj (hwrite.symm.trans hy)
            exact hstored
          · exact fun hall => hall value rfl x hwrite

/-- Without blank values and with distinct names the readers agree exactly if the assignment that
uses up the count of the file's reader changes nothing. -/
theorem NoBlank.fileEqBuffer_iff [Nontrivial F] (h : NoBlank reader config_table text)
    (hnames : (config_table.map LocParam.param_name).Nodup) (hlength : config_table.length < 2 ^ 32)
    (hshort : ∀ line ∈ physicalLines text, line.length < locMaxParamLine) :
    FileEqBuffer reader config_table text ↔ LastRepeats reader config_table text := by
  have hone : ∀ entry ∈ config_table, ∀ v type, entry.Stores v type →
      (lastWrite (lineWrite reader config_table v type) (fileLines reader config_table text) =
          lastWrite (lineWrite reader config_table v type)
            (bufferLines reader config_table text) ↔
        ∀ value, (assignments reader config_table
            (physicalLines text))[config_table.length - 1]? = some value → ∀ x,
          itemWrite config_table v type value = some x → LastStored config_table
            ((assignments reader config_table (physicalLines text)).take
              (config_table.length - 1)) v type x) := by
    intro entry hentry v type _
    have hne := List.ne_nil_of_mem hentry
    obtain ⟨count, hcount⟩ : ∃ count, config_table.length = count + 1 :=
      Nat.exists_eq_succ_of_ne_zero (List.length_pos_iff.mpr hne).ne'
    have hspare : UInt32.ofNat (count + 1) - UInt32.ofNat 1 = UInt32.ofNat count := by
      rw [UInt32.ofNat_add]
      exact UInt32.add_sub_cancel _ _
    rw [← lastWrite_assignments, ← lastWrite_assignments, fileLines,
      assignments_takenLines hnames _ hlength, bufferLines_eq hne, hcount, hspare,
      assignments_takenLines hnames _ (by omega), ← h.assignments_eq, Nat.add_sub_cancel]
    exact lastWrite_take_succ
  rw [Config.fileEqBuffer_iff hshort]
  constructor
  · intro hall value hvalue entry hentry hname v type hstores
    have hequal := hall entry hentry v type hstores
    refine (hone entry hentry v type hstores).mp hequal value hvalue _ ?_
    exact if_pos ⟨entry, hentry, hstores, hname⟩
  · intro hlast entry hentry v type hstores
    refine (hone entry hentry v type hstores).mpr fun value hvalue x hx => ?_
    rw [itemWrite] at hx
    split at hx
    · rename_i hwrites
      obtain ⟨other, hother, hsame, hname⟩ := hwrites
      rw [← Option.some.inj hx]
      exact hlast value hvalue other hother hname v type hsame
    · cases hx

end Text

/-- A file and a buffer of the same text leave the variables of the table equal exactly if every
variable gets the same value, or none, from the last assignment to it before which the lines of
the file have filled fewer entries than the table has, and from the last before which those of
the buffer have filled one less. With distinct names and without blank values that is so exactly
if the assignment whose number is that of the entries repeats what its variable was given last. -/
theorem file_eq_buffer_iff [Nontrivial F] {reader : FloatReader F}
    {config_table : List (LocParam V S)} {text : List Char}
    (hshort : ∀ line ∈ physicalLines text, line.length < locMaxParamLine) :
    (FileEqBuffer reader config_table text ↔
      ∀ entry ∈ config_table, ∀ v type, entry.Stores v type → ∀ x,
        LastAssigned reader config_table 0 (physicalLines text) v type x ↔
          LastAssigned reader config_table 1 (textLines text) v type x) ∧
    ((config_table.map LocParam.param_name).Nodup → config_table.length < 2 ^ 32 →
      NoBlank reader config_table text →
        (FileEqBuffer reader config_table text ↔ LastRepeats reader config_table text)) := by
  constructor
  · rw [fileEqBuffer_iff hshort]
    apply forall₅_congr
    intro entry hentry v type hstores
    rw [fileLines_eq, bufferLines_eq (List.ne_nil_of_mem hentry), Option.ext_iff]
    simp only [lastWrite_takenLines]
  · exact fun hnames hlength hblank => hblank.fileEqBuffer_iff hnames hlength hshort

/-- `atof` on integers. -/
def intReader : FloatReader Int := ⟨0, strtol 10⟩

/-- A number and a string. -/
def numberAndString : List (LocParam Bool Empty) :=
  [⟨"A".toList, some false, none, 'n'⟩, ⟨"B".toList, some true, none, 's'⟩]

theorem file_eq_buffer_iff_two :
    let text : List Char := "# first\nA = 0x10\n".toList
    (FileEqBuffer intReader numberAndString text ↔
      ∀ entry ∈ numberAndString, ∀ v type, entry.Stores v type → ∀ x,
        LastAssigned intReader numberAndString 0 (physicalLines text) v type x ↔
          LastAssigned intReader numberAndString 1 (textLines text) v type x) ∧
    (FileEqBuffer intReader numberAndString text ↔
      LastRepeats intReader numberAndString text) := by
  intro text
  have hblank : NoBlank intReader numberAndString text := by
    unfold NoBlank
    decide
  obtain ⟨hgeneral, hdistinct⟩ :=
    @file_eq_buffer_iff Bool Empty Int _ _ _ intReader numberAndString text (by decide)
  exact ⟨hgeneral, hdistinct (by decide) (by decide) hblank⟩

/-- A table of one entry is filled from a file but not from a buffer. -/
theorem single_entry_not_updated :
    ¬ ∀ (config_table : List (LocParam Unit Empty)) (text : List Char),
      (∀ line ∈ physicalLines text, line.length < locMaxParamLine - 1) →
      ∀ mem : ConfMemory Unit Empty Int, ∀ entry ∈ config_table, ∀ v type, entry.Stores v type →
        (locReadConfR intReader text config_table mem).read v type =
          (locUpdateConf intReader text config_table mem).1.read v type := by
  intro hall
  have hread := hall [⟨"A".toList, some (), none, 'n'⟩] "A=5\n".toList (by decide)
    ⟨fun _ => 0, fun _ => [], fun _ => 0, nofun⟩ _ List.mem_cons_self () .num ⟨rfl, rfl⟩
  have hnum := congrArg (fun value : ParamValue Int =>
    match value with
    | .num value => value
    | _ => 0) hread
  exact absurd hnum (by decide)

end Msm8916.Config
