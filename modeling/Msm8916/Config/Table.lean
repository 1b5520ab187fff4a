import Msm8916.Lib.CString
import Msm8916.Lib.LastWrite

/-!
The configuration parser of `gps/utils/loc_cfg.cpp`: a table of parameters, each
with the variable its value goes to, filled from a file or from a buffer.
-/

namespace Msm8916.Config

open CString

variable {V S : Type*} {F : Type}

def locMaxParamString : Nat := 80

def locMaxParamLine : Nat := 80 + 80

/-- `loc_param_s_type`. Variables and flags are known by their addresses. -/
structure LocParam (V S : Type*) where
  param_name : List Char
  param_ptr : Option V
  param_set : Option S
  param_type : Char

/-- `loc_param_v_type`; of the `int` we keep the bits. -/
structure LocParamValue (F : Type) where
  param_name : List Char
  param_str_value : List Char
  param_int_value : UInt32
  param_double_value : F

/-- What is at the addresses: numbers, strings, floating-point numbers and flags. -/
structure ConfMemory (V S : Type*) (F : Type) where
  num : V → UInt32
  str : V → List Char
  dbl : V → F
  set : S → UInt8

/-- `atof`, and the zero that `memset` leaves in a `double`. -/
structure FloatReader (F : Type) where
  zero : F
  atof : List Char → F

variable [DecidableEq V] [DecidableEq S]

namespace ConfMemory

def setNum (mem : ConfMemory V S F) (v : V) (value : UInt32) : ConfMemory V S F :=
  { mem with num := Function.update mem.num v value }

def setStr (mem : ConfMemory V S F) (v : V) (value : List Char) : ConfMemory V S F :=
  { mem with str := Function.update mem.str v value }

def setDbl (mem : ConfMemory V S F) (v : V) (value : F) : ConfMemory V S F :=
  { mem with dbl := Function.update mem.dbl v value }

/-- A flag is written if there is one. -/
def mark (mem : ConfMemory V S F) (flag : Option S) (value : UInt8) : ConfMemory V S F :=
  match flag with
  | none => mem
  | some s => { mem with set := Function.update mem.set s value }

end ConfMemory

/-- `loc_util_trim_space`: from the first to the last character that is no space. A
string without one stays as it is. -/
def locUtilTrimSpace (org_string : List Char) : List Char :=
  match org_string.dropWhile isspace with
  | [] => org_string
  | first :: rest => ((first :: rest).reverse.dropWhile isspace).reverse

/-- The string that a value stores in a variable. -/
def storedString (param_str_value : List Char) : List Char :=
  if param_str_value = "NULL".toList then []
  else strlcpy param_str_value (locMaxParamString + 1)

def locSetConfigEntry (entry : LocParam V S) (value : LocParamValue F)
    (mem : ConfMemory V S F) : ConfMemory V S F × Int :=
  if entry.param_name = value.param_name then
    match entry.param_ptr with
    | none => (mem, -1)
    | some v =>
        match entry.param_type with
        | 's' => ((mem.setStr v (storedString value.param_str_value)).mark entry.param_set 1, 0)
        | 'n' => ((mem.setNum v value.param_int_value).mark entry.param_set 1, 0)
        | 'f' => ((mem.setDbl v value.param_double_value).mark entry.param_set 1, 0)
        | _ => (mem, -1)
  else
    (mem, -1)

/-- The first half of `loc_fill_conf_item`: the item that a line holds, unless it
lacks one of its two parts. -/
def parseConfItem (reader : FloatReader F) (input_buf : List Char) :
    Option (LocParamValue F) := do
  let (name, lasts) ← strtok '=' input_buf
  let (value, _) ← strtok '=' lasts
  let name := locUtilTrimSpace name
  let value := locUtilTrimSpace value
  match value with
  | '0' :: x :: digit :: rest =>
      if x.toLower = 'x' then
        some ⟨name, value, toInt32Bits (strtol 16 (digit :: rest)), reader.zero⟩
      else
        some ⟨name, value, atoi value, reader.atof value⟩
  | _ => some ⟨name, value, atoi value, reader.atof value⟩

/-- The item is offered to an entry, which is counted if it takes it. -/
def offerItem (value : LocParamValue F) :
    ConfMemory V S F × UInt32 → LocParam V S → ConfMemory V S F × UInt32
  | (mem, ret), entry =>
      let (mem, result) := locSetConfigEntry entry value mem
      (mem, if result = 0 then ret + 1 else ret)

/-- The second half: the item is offered to every entry of the table. -/
def fillTable (value : LocParamValue F) (config_table : List (LocParam V S))
    (mem : ConfMemory V S F) : ConfMemory V S F × UInt32 :=
  config_table.foldl (offerItem value) (mem, 0)

def locFillConfItem (reader : FloatReader F) (input_buf : List Char)
    (config_table : List (LocParam V S)) (mem : ConfMemory V S F) : ConfMemory V S F × UInt32 :=
  match parseConfItem reader input_buf with
  | none => (mem, 0)
  | some value => fillTable value config_table mem

/-- The loop of both readers: line after line, until the count of parameters is
used up. It also counts the lines. -/
def fillLoop (reader : FloatReader F) (config_table : List (LocParam V S)) :
    List (List Char) → UInt32 → ConfMemory V S F → ConfMemory V S F × Nat
  | [], _, mem => (mem, 0)
  | line :: lines, num_params, mem =>
      if num_params = 0 then
        (mem, 0)
      else
        let (mem, filled) := locFillConfItem reader line config_table mem
        let (mem, ret) := fillLoop reader config_table lines (num_params - filled) mem
        (mem, ret + 1)

/-- The validity flags of a table are cleared. -/
def clearFlags (config_table : List (LocParam V S)) (mem : ConfMemory V S F) :
    ConfMemory V S F :=
  config_table.foldl (fun mem entry => mem.mark entry.param_set 0) mem

/-- `loc_read_conf_r` on a file with the given contents. -/
def locReadConfR (reader : FloatReader F) (file : List Char)
    (config_table : List (LocParam V S)) (mem : ConfMemory V S F) : ConfMemory V S F :=
  (fillLoop reader config_table (fgetsAll locMaxParamLine file)
    (UInt32.ofNat config_table.length) (clearFlags config_table mem)).1

/-- `loc_update_conf` on a buffer of the given contents, with what it returns. -/
def locUpdateConf (reader : FloatReader F) (conf_data : List Char)
    (config_table : List (LocParam V S)) (mem : ConfMemory V S F) : ConfMemory V S F × Int :=
  if conf_data = [] ∨ config_table = [] then
    (mem, -1)
  else
    -- start with one record off
    let (mem, ret) := fillLoop reader config_table (tokens '\n' conf_data)
      (UInt32.ofNat config_table.length - 1) mem
    (mem, ret)

/-! ## What an item does to the memory -/

/-- The types of which a table may be. -/
inductive ParamType
  | num
  | str
  | dbl
deriving DecidableEq, Repr

def paramType : Char → Option ParamType
  | 'n' => some .num
  | 's' => some .str
  | 'f' => some .dbl
  | _ => none

inductive ParamValue (F : Type)
  | num (value : UInt32)
  | str (value : List Char)
  | dbl (value : F)

/-- What an item means for an entry of a type. -/
def LocParamValue.typed (value : LocParamValue F) : ParamType → ParamValue F
  | .num => .num value.param_int_value
  | .str => .str (storedString value.param_str_value)
  | .dbl => .dbl value.param_double_value

/-- What a variable of a type holds. -/
def ConfMemory.read (mem : ConfMemory V S F) (v : V) : ParamType → ParamValue F
  | .num => .num (mem.num v)
  | .str => .str (mem.str v)
  | .dbl => .dbl (mem.dbl v)

/-- The entry stores items under its name in a variable of the type. -/
def LocParam.Stores (entry : LocParam V S) (v : V) (type : ParamType) : Prop :=
  entry.param_ptr = some v ∧ paramType entry.param_type = some type

instance (entry : LocParam V S) (v : V) (type : ParamType) : Decidable (entry.Stores v type) :=
  inferInstanceAs (Decidable (_ ∧ _))

/-- The entry takes the item. -/
def LocParam.Takes (entry : LocParam V S) (value : LocParamValue F) : Prop :=
  entry.param_name = value.param_name ∧ entry.param_ptr.isSome ∧
    (paramType entry.param_type).isSome

instance (entry : LocParam V S) (value : LocParamValue F) : Decidable (entry.Takes value) :=
  inferInstanceAs (Decidable (_ ∧ _ ∧ _))

omit [DecidableEq V] [DecidableEq S] in
theorem LocParam.Stores.takes_iff {entry : LocParam V S} {v : V} {type : ParamType}
    (h : entry.Stores v type) (value : LocParamValue F) :
    entry.Takes value ↔ entry.param_name = value.param_name := by
  simp [LocParam.Takes, h.1, h.2]

section Memory

variable (mem : ConfMemory V S F)

@[simp]
theorem ConfMemory.read_mark (flag : Option S) (value : UInt8) (v : V) (type : ParamType) :
    (mem.mark flag value).read v type = mem.read v type := by
  cases flag <;> cases type <;> rfl

/-- A variable keeps its value unless it is written under the same type. -/
theorem ConfMemory.read_set (v other : V) (type otherType : ParamType)
    (value : LocParamValue F) :
    (match type with
      | .num => mem.setNum v value.param_int_value
      | .str => mem.setStr v (storedString value.param_str_value)
      | .dbl => mem.setDbl v value.param_double_value).read other otherType =
      if v = other ∧ type = otherType then value.typed otherType else mem.read other otherType := by
  by_cases hv : v = other
  · subst hv
    cases type <;> cases otherType <;>
      simp [ConfMemory.setNum, ConfMemory.setStr, ConfMemory.setDbl, ConfMemory.read,
        LocParamValue.typed]
  · cases type <;> cases otherType <;>
      simp [ConfMemory.setNum, ConfMemory.setStr, ConfMemory.setDbl, ConfMemory.read, hv,
        Function.update_of_ne (Ne.symm hv)]

/-- An entry that does not take the item leaves the memory alone; one that does
writes its variable and its flag. -/
theorem locSetConfigEntry_cases (entry : LocParam V S) (value : LocParamValue F) :
    ¬ entry.Takes value ∧ locSetConfigEntry entry value mem = (mem, -1) ∨
      ∃ v type, entry.Takes value ∧ entry.Stores v type ∧ locSetConfigEntry entry value mem =
        ((match type with
          | .num => mem.setNum v value.param_int_value
          | .str => mem.setStr v (storedString value.param_str_value)
          | .dbl => mem.setDbl v value.param_double_value).mark entry.param_set 1, 0) := by
  unfold locSetConfigEntry
  split
  · rename_i hname
    split
    · rename_i hptr
      exact .inl ⟨by simp [LocParam.Takes, hptr], rfl⟩
    · rename_i v hptr
      split
      · rename_i htype
        exact .inr ⟨v, .str, by simp [LocParam.Takes, hname, hptr, htype, paramType],
          by simp [LocParam.Stores, hptr, htype, paramType], rfl⟩
      · rename_i htype
        exact .inr ⟨v, .num, by simp [LocParam.Takes, hname, hptr, htype, paramType],
          by simp [LocParam.Stores, hptr, htype, paramType], rfl⟩
      · rename_i htype
        exact .inr ⟨v, .dbl, by simp [LocParam.Takes, hname, hptr, htype, paramType],
          by simp [LocParam.Stores, hptr, htype, paramType], rfl⟩
      · rename_i hs hn hf
        refine .inl ⟨?_, rfl⟩
        have hnone : paramType entry.param_type = none := by
          unfold paramType
          split
          · rename_i heq
            exact absurd heq hn
          · rename_i heq
            exact absurd heq hs
          · rename_i heq
            exact absurd heq hf
          · rfl
        simp [LocParam.Takes, hnone]
  · rename_i hname
    exact .inl ⟨fun h => hname h.1, rfl⟩

theorem locSetConfigEntry_snd (entry : LocParam V S) (value : LocParamValue F) :
    (locSetConfigEntry entry value mem).2 = 0 ↔ entry.Takes value := by
  rcases locSetConfigEntry_cases mem entry value with ⟨hnot, heq⟩ | ⟨v, type, htakes, -, heq⟩
  · simp [heq, hnot]
  · simp [heq, htakes]

theorem locSetConfigEntry_read (entry : LocParam V S) (value : LocParamValue F) (v : V)
    (type : ParamType) :
    (locSetConfigEntry entry value mem).1.read v type =
      if entry.Stores v type ∧ entry.param_name = value.param_name then value.typed type
      else mem.read v type := by
  rcases locSetConfigEntry_cases mem entry value with ⟨hnot, heq⟩ | ⟨w, other, htakes, hstores, heq⟩
  · rw [heq, if_neg]
    rintro ⟨hstores, hname⟩
    exact hnot ((hstores.takes_iff value).mpr hname)
  · rw [heq]
    have hiff : w = v ∧ other = type ↔
        entry.Stores v type ∧ entry.param_name = value.param_name := by
      rw [LocParam.Stores, hstores.1, hstores.2, Option.some.injEq, Option.some.injEq]
      exact (and_iff_left htakes.1).symm
    rw [ConfMemory.read_mark, ConfMemory.read_set, if_congr hiff rfl rfl]

theorem locSetConfigEntry_set (entry : LocParam V S) (value : LocParamValue F) (s : S) :
    (locSetConfigEntry entry value mem).1.set s =
      if entry.param_set = some s ∧ entry.Takes value then 1 else mem.set s := by
  rcases locSetConfigEntry_cases mem entry value with ⟨hnot, heq⟩ | ⟨v, type, htakes, -, heq⟩
  · rw [heq, if_neg fun h => hnot h.2]
  · rw [heq]
    have hkept : (match type with
        | .num => mem.setNum v value.param_int_value
        | .str => mem.setStr v (storedString value.param_str_value)
        | .dbl => mem.setDbl v value.param_double_value).set = mem.set := by
      cases type <;> rfl
    cases hset : entry.param_set with
    | none => simp [ConfMemory.mark, hkept]
    | some flag =>
        by_cases hs : flag = s
        · subst hs
          simp [ConfMemory.mark, htakes]
        · simp [ConfMemory.mark, hkept, hs, Function.update_of_ne (Ne.symm hs)]

end Memory

/-! ## What a line does -/

/-- The number of entries that take the item. -/
def itemCount (value : LocParamValue F) (config_table : List (LocParam V S)) : Nat :=
  config_table.countP fun entry => entry.Takes value

/-- The value that an item stores in a variable through some entry of the table. -/
def itemWrite (config_table : List (LocParam V S)) (v : V) (type : ParamType)
    (value : LocParamValue F) : Option (ParamValue F) :=
  if ∃ entry ∈ config_table, entry.Stores v type ∧ entry.param_name = value.param_name then
    some (value.typed type)
  else
    none

/-- The flag that an item sets through some entry of the table. -/
def itemMark (config_table : List (LocParam V S)) (s : S) (value : LocParamValue F) :
    Option UInt8 :=
  if ∃ entry ∈ config_table, entry.param_set = some s ∧ entry.Takes value then some 1 else none

theorem offerItem_eq (value : LocParamValue F) (mem : ConfMemory V S F) (ret : UInt32)
    (entry : LocParam V S) :
    offerItem value (mem, ret) entry =
      ((locSetConfigEntry entry value mem).1, if entry.Takes value then ret + 1 else ret) := by
  change ((locSetConfigEntry entry value mem).1,
    if (locSetConfigEntry entry value mem).2 = 0 then ret + 1 else ret) = _
  rw [if_congr (locSetConfigEntry_snd mem entry value) rfl rfl]

/-- The table is filled entry by entry, and counted. -/
theorem fillTable_eq (value : LocParamValue F) (config_table : List (LocParam V S))
    (mem : ConfMemory V S F) :
    fillTable value config_table mem =
      (config_table.foldl (fun mem entry => (locSetConfigEntry entry value mem).1) mem,
        UInt32.ofNat (itemCount value config_table)) := by
  have hfrom : ∀ (table : List (LocParam V S)) (mem : ConfMemory V S F) (ret : Nat),
      table.foldl (offerItem value) (mem, UInt32.ofNat ret) =
        (table.foldl (fun mem entry => (locSetConfigEntry entry value mem).1) mem,
          UInt32.ofNat (ret + itemCount value table)) := by
    intro table
    induction table with
    | nil => exact fun mem ret => rfl
    | cons entry rest ih =>
        intro mem ret
        rw [List.foldl_cons, List.foldl_cons, itemCount, List.countP_cons, offerItem_eq]
        by_cases htakes : entry.Takes value
        · have hnext := ih (locSetConfigEntry entry value mem).1 (ret + 1)
          rw [UInt32.ofNat_add] at hnext
          have hcount : ret + (itemCount value rest + 1) = ret + 1 + itemCount value rest := by
            omega
          rw [if_pos htakes, if_pos (decide_eq_true htakes)]
          exact hnext.trans (by rw [← hcount]; rfl)
        · rw [if_neg htakes, if_neg (by simp [htakes])]
          exact ih (locSetConfigEntry entry value mem).1 ret
  have hall := hfrom config_table mem 0
  rw [Nat.zero_add] at hall
  exact hall

theorem fillTable_read (value : LocParamValue F) (config_table : List (LocParam V S))
    (mem : ConfMemory V S F) (v : V) (type : ParamType) :
    (fillTable value config_table mem).1.read v type =
      (itemWrite config_table v type value).getD (mem.read v type) := by
  rw [fillTable_eq, itemWrite, ← lastWrite_const]
  refine foldl_lastWrite (fun mem : ConfMemory V S F => mem.read v type) ?_ mem config_table
  intro mem entry
  rw [locSetConfigEntry_read]
  split
  · rfl
  · rfl

theorem fillTable_set (value : LocParamValue F) (config_table : List (LocParam V S))
    (mem : ConfMemory V S F) (s : S) :
    (fillTable value config_table mem).1.set s =
      (itemMark config_table s value).getD (mem.set s) := by
  rw [fillTable_eq, itemMark, ← lastWrite_const]
  refine foldl_lastWrite (fun mem : ConfMemory V S F => mem.set s) ?_ mem config_table
  intro mem entry
  rw [locSetConfigEntry_set]
  split
  · rfl
  · rfl

section Lines

variable (reader : FloatReader F) (config_table : List (LocParam V S))

def lineCount (line : List Char) : Nat :=
  match parseConfItem reader line with
  | none => 0
  | some value => itemCount value config_table

def lineWrite (v : V) (type : ParamType) (line : List Char) : Option (ParamValue F) :=
  (parseConfItem reader line).bind (itemWrite config_table v type)

def lineMark (s : S) (line : List Char) : Option UInt8 :=
  (parseConfItem reader line).bind (itemMark config_table s)

/-- The lines that a reader takes before its count is used up. -/
def takenLines : List (List Char) → UInt32 → List (List Char)
  | [], _ => []
  | line :: lines, num_params =>
      if num_params = 0 then []
      else line :: takenLines lines (num_params - UInt32.ofNat (lineCount reader config_table line))

variable {reader config_table}

theorem locFillConfItem_snd (line : List Char) (mem : ConfMemory V S F) :
    (locFillConfItem reader line config_table mem).2 =
      UInt32.ofNat (lineCount reader config_table line) := by
  unfold locFillConfItem lineCount
  cases parseConfItem reader line with
  | none => rfl
  | some value =>
      dsimp only
      rw [fillTable_eq]

/-- A loop fills the table from the lines it takes, one after the other. -/
theorem fillLoop_fst (lines : List (List Char)) (num_params : UInt32)
    (mem : ConfMemory V S F) :
    (fillLoop reader config_table lines num_params mem).1 =
      (takenLines reader config_table lines num_params).foldl
        (fun mem line => (locFillConfItem reader line config_table mem).1) mem := by
  induction lines generalizing num_params mem with
  | nil => rfl
  | cons line lines ih =>
      rw [fillLoop, takenLines]
      split
      · rfl
      · dsimp only
        rw [ih, locFillConfItem_snd, List.foldl_cons]

theorem fillLoop_read (lines : List (List Char)) (num_params : UInt32)
    (mem : ConfMemory V S F) (v : V) (type : ParamType) :
    (fillLoop reader config_table lines num_params mem).1.read v type =
      (lastWrite (lineWrite reader config_table v type)
        (takenLines reader config_table lines num_params)).getD (mem.read v type) := by
  rw [fillLoop_fst]
  refine foldl_lastWrite (fun mem : ConfMemory V S F => mem.read v type) ?_ mem _
  intro mem line
  unfold locFillConfItem lineWrite
  cases parseConfItem reader line with
  | none => rfl
  | some value => exact fillTable_read value config_table mem v type

theorem fillLoop_set (lines : List (List Char)) (num_params : UInt32)
    (mem : ConfMemory V S F) (s : S) :
    (fillLoop reader config_table lines num_params mem).1.set s =
      (lastWrite (lineMark reader config_table s)
        (takenLines reader config_table lines num_params)).getD (mem.set s) := by
  rw [fillLoop_fst]
  refine foldl_lastWrite (fun mem : ConfMemory V S F => mem.set s) ?_ mem _
  intro mem line
  unfold locFillConfItem lineMark
  cases parseConfItem reader line with
  | none => rfl
  | some value => exact fillTable_set value config_table mem s

theorem clearFlags_read (mem : ConfMemory V S F) (v : V) (type : ParamType) :
    (clearFlags config_table mem).read v type = mem.read v type := by
  unfold clearFlags
  induction config_table generalizing mem with
  | nil => rfl
  | cons entry rest ih => rw [List.foldl_cons, ih, ConfMemory.read_mark]

/-- The flags of the table are cleared. -/
theorem clearFlags_set (mem : ConfMemory V S F) (s : S) :
    (clearFlags config_table mem).set s =
      if ∃ entry ∈ config_table, entry.param_set = some s then 0 else mem.set s := by
  have hmark : ∀ (mem : ConfMemory V S F) (entry : LocParam V S),
      (mem.mark entry.param_set 0).set s =
        (if entry.param_set = some s then some 0 else none : Option UInt8).getD (mem.set s) := by
    intro mem entry
    cases hset : entry.param_set with
    | none => simp [ConfMemory.mark]
    | some flag =>
        by_cases hs : flag = s
        · subst hs
          simp [ConfMemory.mark]
        · simp [ConfMemory.mark, hs, Function.update_of_ne (Ne.symm hs)]
  have hlast := foldl_lastWrite (fun mem : ConfMemory V S F => mem.set s) hmark mem config_table
  rw [lastWrite_const] at hlast
  refine hlast.trans ?_
  split
  · rfl
  · rfl

end Lines

end Msm8916.Config
