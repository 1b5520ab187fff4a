import Mathlib.Algebra.Ring.Nat
import Mathlib.Algebra.Ring.Int.Defs
import Msm8916.Lib.Buffer
import Msm8916.Lib.Fields

/-!
`loc_util_split_string` of `gps/utils/loc_misc_utils.cpp`, which cuts a string into
substrings where it stands.
-/

namespace Msm8916.Utils

open Buffer Fields

/-- The string that is cut, the array of addresses of the substrings, and their number. An
address is an index into the string; what the array held before is no address. -/
structure Split where
  raw_string : List Char
  split_strings_ptr : List (Option Nat)
  num_split_strings : Nat

/-- A store into the array of addresses; outside it there is none. -/
def storePtr (split_strings_ptr : List (Option Nat)) (i address : Nat) :
    Option (List (Option Nat)) :=
  if i < split_strings_ptr.length then some (split_strings_ptr.set i (some address)) else none

section Loop

variable (max_num_substrings : Nat) (delimiter : Char) (raw_string_length : Int)

/-- The loop, with `remaining` turns left before the index reaches the length. -/
def splitFrom : (remaining raw_string_index : Nat) → Split → Option Split
  | 0, _, split => some split
  | remaining + 1, raw_string_index, split => do
      let c ← split.raw_string[raw_string_index]?
      if c = delimiter ∨ c = NUL then
        let raw_string ← write split.raw_string raw_string_index NUL
        let num_split_strings := split.num_split_strings + 1
        if (raw_string_index : Int) + 1 < raw_string_length ∧
            num_split_strings < max_num_substrings then
          let split_strings_ptr ←
            storePtr split.split_strings_ptr num_split_strings (raw_string_index + 1)
          -- behind the end of the string the loop stops
          if c = NUL then
            return ⟨raw_string, split_strings_ptr, num_split_strings⟩
          else
            splitFrom remaining (raw_string_index + 1)
              ⟨raw_string, split_strings_ptr, num_split_strings⟩
        else
          return ⟨raw_string, split.split_strings_ptr, num_split_strings⟩
      else
        splitFrom remaining (raw_string_index + 1) split

end Loop

/-- `strlen(raw_string) + 1` in an `int`. -/
def rawStringLength (length : Nat) : Int := Int.bmod (length + 1) (2 ^ 32)

/-- `loc_util_split_string`. -/
def locUtilSplitString (raw_string : List Char) (split_strings_ptr : List (Option Nat))
    (max_num_substrings : Nat) (delimiter : Char) : Option Split := do
  let length ← strlen raw_string
  let split_strings_ptr ← storePtr split_strings_ptr 0 0
  splitFrom max_num_substrings delimiter (rawStringLength length) (rawStringLength length).toNat 0
    ⟨raw_string, split_strings_ptr, 0⟩

/-- The fields with the separators that are overwritten: the one behind the first field, and
behind `room` more. -/
def cutFields (delimiter : Char) : (room : Nat) → List (List Char) → List Char
  | _, [] => []
  | _, [field] => field
  | 0, field :: fields => field ++ NUL :: [delimiter].intercalate fields
  | room + 1, field :: fields => field ++ NUL :: cutFields delimiter room fields

theorem cutFields_singleton (delimiter : Char) (room : Nat) (field : List Char) :
    cutFields delimiter room [field] = field := by
  cases room with
  | zero => rfl
  | succ room => rfl

theorem cutFields_zero (delimiter : Char) (field next : List Char) (fields : List (List Char)) :
    cutFields delimiter 0 (field :: next :: fields) =
      field ++ NUL :: [delimiter].intercalate (next :: fields) := rfl

theorem cutFields_succ (delimiter : Char) (room : Nat) (field next : List Char)
    (fields : List (List Char)) :
    cutFields delimiter (room + 1) (field :: next :: fields) =
      field ++ NUL :: cutFields delimiter room (next :: fields) := rfl

/-! ## The loop -/

section Run

variable {max_num_substrings : Nat} {delimiter : Char} {raw_string_length : Int}

theorem storePtr_append {front : List (Option Nat)} {i : Nat} (hi : i = front.length)
    (slot : Option Nat) (slots : List (Option Nat)) (address : Nat) :
    storePtr (front ++ slot :: slots) i address = some (front ++ some address :: slots) := by
  subst hi
  rw [storePtr, if_pos (by simp), List.set_append_right _ _ (Nat.le_refl _), Nat.sub_self,
    List.set_cons_zero]

/-- The characters of a field are passed over. -/
theorem splitFrom_field {field : List Char} (hfield : ∀ c ∈ field, c ≠ delimiter ∧ c ≠ NUL)
    (before after : List Char) (remaining : Nat)
    (split_strings_ptr : List (Option Nat)) (num_split_strings : Nat) :
    splitFrom max_num_substrings delimiter raw_string_length (field.length + remaining)
        before.length ⟨before ++ (field ++ after), split_strings_ptr, num_split_strings⟩ =
      splitFrom max_num_substrings delimiter raw_string_length remaining (before ++ field).length
        ⟨before ++ (field ++ after), split_strings_ptr, num_split_strings⟩ := by
  induction field generalizing before with
  | nil => simp
  | cons c field ih =>
      obtain ⟨hdelimiter, hNUL⟩ := hfield c List.mem_cons_self
      have hget : (before ++ (c :: field ++ after))[before.length]? = some c :=
        getElem?_append_cons rfl c (field ++ after)
      have hnext := ih (fun d hd => hfield d (List.mem_cons_of_mem _ hd)) (before ++ [c])
      have hsteps : (c :: field).length + remaining = field.length + remaining + 1 := by
        rw [List.length_cons]
        omega
      have hassoc : before ++ [c] ++ (field ++ after) = before ++ (c :: field ++ after) := by simp
      have hlength : (before ++ [c]).length = before.length + 1 := List.length_append
      have hend : (before ++ [c] ++ field).length = (before ++ c :: field).length := by simp
      rw [hassoc, hlength, hend] at hnext
      rw [hsteps, splitFrom, hget]
      simp only [Option.bind_eq_bind, Option.bind_some, hdelimiter, hNUL, or_self, if_false]
      exact hnext

/-- From the start of a field on the loop cuts the fields that have room in the array, and
stores the address of each. -/
theorem splitFrom_fields (hdelimiter : delimiter ≠ NUL) {fields : List (List Char)}
    (hne : fields ≠ [])
    (hfields : ∀ field ∈ fields, ∀ c ∈ field, c ≠ delimiter ∧ c ≠ NUL)
    (before rest : List Char) (front : List (Option Nat)) {slots : List (Option Nat)} {room : Nat}
    (hroom : room ≤ slots.length) (hmax : max_num_substrings = front.length + room + 1)
    (hlength : raw_string_length =
      before.length + ([delimiter].intercalate fields).length + 1) :
    splitFrom max_num_substrings delimiter raw_string_length
        (([delimiter].intercalate fields).length + 1) before.length
        ⟨before ++ ([delimiter].intercalate fields ++ NUL :: rest),
          front ++ some before.length :: slots, front.length⟩ =
      some ⟨before ++ (cutFields delimiter room fields ++ NUL :: rest),
        front ++ (((fieldStarts before.length fields).take (room + 1)).map some ++
          slots.drop (min room (fields.length - 1))),
        front.length + ((fieldStarts before.length fields).take (room + 1)).length⟩ := by
  induction fields generalizing before front slots room with
  | nil => exact absurd rfl hne
  | cons field fields ih =>
      have hfield := hfields field List.mem_cons_self
      cases fields with
      | nil =>
          rw [List.intercalate_singleton] at hlength ⊢
          have hget : (before ++ (field ++ NUL :: rest))[(before ++ field).length]? = some NUL := by
            rw [← List.append_assoc]
            exact getElem?_append_cons rfl NUL rest
          have hwrite : write (before ++ (field ++ NUL :: rest)) (before ++ field).length NUL =
              some (before ++ (field ++ NUL :: rest)) := by
            rw [← List.append_assoc]
            exact write_append rfl NUL NUL rest
          have hend : ¬ (((before ++ field).length : Int) + 1 < raw_string_length ∧
              front.length + 1 < max_num_substrings) := by
            rw [hlength, List.length_append]
            omega
          rw [splitFrom_field hfield, splitFrom, hget]
          simp only [Option.bind_eq_bind, Option.bind_some, or_true, if_true, hwrite, if_neg hend,
            cutFields_singleton, fieldStarts]
          simp
      | cons next fields =>
          obtain ⟨joined, hjoined⟩ : ∃ joined, [delimiter].intercalate (next :: fields) = joined :=
            ⟨_, rfl⟩
          have hjoin : [delimiter].intercalate (field :: next :: fields) =
              field ++ delimiter :: joined := by
            rw [intercalate_cons_cons, hjoined]
          rw [hjoined] at ih
          have hsteps : ([delimiter].intercalate (field :: next :: fields)).length + 1 =
              field.length + (joined.length + 1 + 1) := by
            rw [hjoin, List.length_append, List.length_cons]
            omega
          have hget : (before ++ (field ++ delimiter :: (joined ++ NUL :: rest)))[
              (before ++ field).length]? = some delimiter := by
            rw [← List.append_assoc]
            exact getElem?_append_cons rfl delimiter _
          have hwrite : write (before ++ (field ++ delimiter :: (joined ++ NUL :: rest)))
              (before ++ field).length NUL =
                some (before ++ (field ++ NUL :: (joined ++ NUL :: rest))) := by
            rw [← List.append_assoc, ← List.append_assoc]
            exact write_append rfl delimiter NUL _
          have hinside : ((before ++ field).length : Int) + 1 < raw_string_length := by
            rw [hlength, hjoin]
            simp only [List.length_append, List.length_cons]
            omega
          have hraw : before ++ ([delimiter].intercalate (field :: next :: fields) ++ NUL :: rest) =
              before ++ (field ++ delimiter :: (joined ++ NUL :: rest)) := by
            rw [hjoin, List.append_assoc, List.cons_append]
          rw [hsteps, hraw, splitFrom_field hfield, splitFrom, hget]
          simp only [Option.bind_eq_bind, Option.bind_some, true_or, if_true, hwrite]
          cases room with
          | zero =>
              have hfull : ¬ (((before ++ field).length : Int) + 1 < raw_string_length ∧
                  front.length + 1 < max_num_substrings) := by
                omega
              rw [if_neg hfull]
              simp [cutFields_zero, fieldStarts, hjoined]
          | succ room =>
              cases slots with
              | nil => cases hroom
              | cons slot slots =>
                  have hspace : ((before ++ field).length : Int) + 1 < raw_string_length ∧
                      front.length + 1 < max_num_substrings :=
                    ⟨hinside, by omega⟩
                  have hindex : (before ++ field).length + 1 =
                      (before ++ (field ++ [NUL])).length := by
                    simp only [List.length_append, List.length_singleton]
                    omega
                  have hstore : storePtr (front ++ some before.length :: slot :: slots)
                      (front.length + 1) (before ++ (field ++ [NUL])).length =
                        some (front ++ [some before.length] ++
                          some (before ++ (field ++ [NUL])).length :: slots) := by
                    have hsplit : front ++ some before.length :: slot :: slots =
                        front ++ [some before.length] ++ slot :: slots := by
                      simp
                    rw [hsplit]
                    exact storePtr_append (by simp) slot slots _
                  have hne : delimiter ≠ NUL := hdelimiter
                  have hbuf : before ++ (field ++ NUL :: (joined ++ NUL :: rest)) =
                      before ++ (field ++ [NUL]) ++ (joined ++ NUL :: rest) := by
                    simp
                  have hcount : front.length + 1 = (front ++ [some before.length]).length := by
                    rw [List.length_append, List.length_singleton]
                  have hnext := ih (List.cons_ne_nil next fields)
                    (fun f hf => hfields f (List.mem_cons_of_mem _ hf)) (before ++ (field ++ [NUL]))
                    (front ++ [some before.length]) (Nat.le_of_succ_le_succ hroom)
                    (by rw [hmax, ← hcount]; omega)
                    (by
                      rw [hlength, hjoin]
                      simp only [List.length_append, List.length_cons, List.length_nil]
                      omega)
                  rw [if_pos hspace, hindex, hstore, Option.bind_some, if_neg hne, hbuf, hcount]
                  refine hnext.trans ?_
                  have hstarts : fieldStarts before.length (field :: next :: fields) =
                      before.length ::
                        fieldStarts (before ++ (field ++ [NUL])).length (next :: fields) := by
                    rw [← hindex, List.length_append]
                    rfl
                  have hdrop : (slot :: slots).drop
                      (min (room + 1) ((field :: next :: fields).length - 1)) =
                        slots.drop (min room ((next :: fields).length - 1)) := by
                    have hmin : min (room + 1) ((field :: next :: fields).length - 1) =
                        min room ((next :: fields).length - 1) + 1 := by
                      simp only [List.length_cons]
                      omega
                    rw [hmin, List.drop_succ_cons]
                  rw [hstarts, hdrop, List.take_succ_cons, List.map_cons, cutFields_succ, ← hcount]
                  simp only [List.append_assoc, List.cons_append, List.nil_append, Nat.add_assoc,
                    Nat.add_comm 1]
                  rfl

theorem length_cutFields (delimiter : Char) (room : Nat) (fields : List (List Char)) :
    (cutFields delimiter room fields).length = ([delimiter].intercalate fields).length := by
  induction fields generalizing room with
  | nil => simp [cutFields]
  | cons field fields ih =>
      cases fields with
      | nil => rw [cutFields_singleton, List.intercalate_singleton]
      | cons next fields =>
          rw [intercalate_cons_cons, List.length_append, List.length_cons]
          cases room with
          | zero => rw [cutFields_zero, List.length_append, List.length_cons]
          | succ room => rw [cutFields_succ, List.length_append, List.length_cons, ih]

/-- Each address that is stored is that of its field, now a string. -/
theorem stringAt_cutFields (delimiter : Char) {fields : List (List Char)}
    (hfields : ∀ field ∈ fields, NUL ∉ field) (before rest : List Char) (room : Nat) :
    ((fieldStarts before.length fields).take (room + 1)).map
        (stringAt (before ++ (cutFields delimiter room fields ++ NUL :: rest))) =
      (fields.take (room + 1)).map some := by
  induction fields generalizing before room with
  | nil => simp [fieldStarts]
  | cons field fields ih =>
      have hfield := hfields field List.mem_cons_self
      cases fields with
      | nil =>
          rw [cutFields_singleton, fieldStarts, fieldStarts, List.take_of_length_le (by simp),
            List.take_of_length_le (by simp), List.map_singleton, List.map_singleton,
            stringAt_append hfield rfl]
      | cons next fields =>
          cases room with
          | zero =>
              rw [cutFields_zero, fieldStarts, List.take_succ_cons, List.take_succ_cons,
                List.take_zero, List.take_zero, List.map_singleton, List.map_singleton,
                List.append_assoc, List.cons_append, stringAt_append hfield rfl]
          | succ room =>
              have hnext := ih (fun f hf => hfields f (List.mem_cons_of_mem _ hf))
                (before ++ (field ++ [NUL])) room
              have hstart : (before ++ (field ++ [NUL])).length =
                  before.length + field.length + 1 := by
                simp only [List.length_append, List.length_singleton]
                omega
              have hbuf : before ++ (field ++ [NUL]) ++
                  (cutFields delimiter room (next :: fields) ++ NUL :: rest) =
                    before ++ (field ++ NUL :: (cutFields delimiter room (next :: fields) ++
                      NUL :: rest)) := by
                simp
              rw [hstart, hbuf] at hnext
              rw [cutFields_succ, fieldStarts, List.take_succ_cons, List.take_succ_cons,
                List.map_cons, List.map_cons, List.append_assoc, List.cons_append,
                stringAt_append hfield rfl, hnext]

end Run

/-! ## The whole string -/

section Whole

variable {s : List Char} {delimiter : Char} {max_num_substrings : Nat}
  {split_strings_ptr : List (Option Nat)}

theorem rawStringLength_eq {length : Nat} (h : length < 2 ^ 31 - 1) :
    rawStringLength length = length + 1 := by
  unfold rawStringLength
  rw [Int.bmod_eq_of_le] <;> omega

theorem rawStringLength_neg {length : Nat} (h : length = 2 ^ 31 - 1) :
    (rawStringLength length).toNat = 0 := by
  subst h
  decide

/-- `loc_util_split_string` on a string that an `int` can count stores the addresses of as
many fields as there are, or as the array is told to hold, and no other. They are strings
now, and joined they are the part of the old string up to the end of the last one. -/
theorem split_right (hs : NUL ∉ s) (hlength : s.length < 2 ^ 31 - 1) (hdelimiter : delimiter ≠ NUL)
    (hmax : 1 ≤ max_num_substrings) (hptr : max_num_substrings ≤ split_strings_ptr.length)
    (rest : List Char) :
    ∃ (head : List Char) (addresses : List Nat),
      locUtilSplitString (s ++ NUL :: rest) split_strings_ptr max_num_substrings delimiter =
        some ⟨head ++ NUL :: rest,
          addresses.map some ++ split_strings_ptr.drop addresses.length, addresses.length⟩ ∧
      head.length = s.length ∧
      addresses.length = min max_num_substrings (s.count delimiter + 1) ∧
      addresses.map (stringAt (head ++ NUL :: rest)) =
        ((s.splitOn delimiter).take addresses.length).map some ∧
      ∃ last field, addresses.getLast? = some last ∧
        stringAt (head ++ NUL :: rest) last = some field ∧
        [delimiter].intercalate ((s.splitOn delimiter).take addresses.length) =
          s.take (last + field.length) := by
  obtain ⟨room, rfl⟩ := Nat.exists_eq_add_of_le' hmax
  obtain ⟨slot, slots, rfl⟩ := List.exists_cons_of_length_pos (Nat.lt_of_lt_of_le hmax hptr)
  have hne : s.splitOn delimiter ≠ [] := List.splitOn_ne_nil delimiter s
  have hjoin : [delimiter].intercalate (s.splitOn delimiter) = s :=
    List.intercalate_splitOn delimiter
  have hclean : ∀ field ∈ s.splitOn delimiter, ∀ c ∈ field, c ≠ delimiter ∧ c ≠ NUL := by
    intro field hfield c hc
    obtain ⟨hother, hmem⟩ := mem_field hfield hc
    exact ⟨hother, ne_NUL_of_mem hs hmem⟩
  have hNUL : ∀ field ∈ s.splitOn delimiter, NUL ∉ field :=
    fun field hfield hmem => (hclean field hfield NUL hmem).2 rfl
  let addresses := (fieldStarts 0 (s.splitOn delimiter)).take (room + 1)
  have hcount : addresses.length = min (room + 1) (s.count delimiter + 1) := by
    rw [List.length_take, length_fieldStarts, length_splitOn]
  have hfields : (s.splitOn delimiter).take (room + 1) =
      (s.splitOn delimiter).take addresses.length := by
    rw [hcount, ← length_splitOn]
    exact List.take_eq_take_min
  have hstrings := stringAt_cutFields delimiter hNUL [] rest room
  have hlong : (s.length : Int) + 1 =
      ([] : List Char).length + ([delimiter].intercalate (s.splitOn delimiter)).length + 1 := by
    rw [hjoin]
    simp
  have hfull : room + 1 = ([] : List (Option Nat)).length + room + 1 := by simp
  have hrun := splitFrom_fields hdelimiter hne hclean [] rest [] (Nat.le_of_succ_le_succ hptr) hfull
    hlong
  obtain ⟨offset, field, hlast, hfield, htake⟩ := intercalate_take delimiter 0 hne room
  rw [hfields] at hstrings hfield htake
  rw [Nat.zero_add] at hlast
  rw [List.nil_append, List.length_nil] at hstrings
  refine ⟨cutFields delimiter room (s.splitOn delimiter), addresses, ?_, ?_, hcount, hstrings,
    offset, field, hlast, ?_, by rw [htake, hjoin]⟩
  · have hstore : storePtr (slot :: slots) 0 0 = some (some 0 :: slots) := rfl
    have hint : rawStringLength s.length = s.length + 1 := rawStringLength_eq hlength
    have hdrop : (slot :: slots).drop addresses.length =
        slots.drop (min room ((s.splitOn delimiter).length - 1)) := by
      have hmin : addresses.length = min room ((s.splitOn delimiter).length - 1) + 1 := by
        rw [hcount, length_splitOn]
        omega
      rw [hmin, List.drop_succ_cons]
    have hturns : ((s.length : Int) + 1).toNat = s.length + 1 := by omega
    rw [hjoin] at hrun
    rw [locUtilSplitString, strlen_eq hs, hstore, hdrop, Option.bind_eq_bind, Option.bind_some,
      Option.bind_eq_bind, Option.bind_some, hint, hturns]
    simp only [List.nil_append, List.length_nil, Nat.zero_add] at hrun
    exact hrun
  · rw [length_cutFields, hjoin]
  · have hmap := congrArg List.getLast? hstrings
    rw [List.getLast?_map, List.getLast?_map, hlast, hfield] at hmap
    exact Option.some.inj hmap

theorem split_right_fields :
    ∃ (head : List Char) (addresses : List Nat),
      locUtilSplitString ("a,,b,c".toList ++ NUL :: ['x']) [none, none, none] 3 ',' =
        some ⟨head ++ NUL :: ['x'],
          addresses.map some ++ [none, none, none].drop addresses.length, addresses.length⟩ ∧
      head.length = "a,,b,c".toList.length ∧
      addresses.length = min 3 ("a,,b,c".toList.count ',' + 1) ∧
      addresses.map (stringAt (head ++ NUL :: ['x'])) =
        (("a,,b,c".toList.splitOn ',').take addresses.length).map some ∧
      ∃ last field, addresses.getLast? = some last ∧
        stringAt (head ++ NUL :: ['x']) last = some field ∧
        [','].intercalate (("a,,b,c".toList.splitOn ',').take addresses.length) =
          "a,,b,c".toList.take (last + field.length) :=
  split_right (by decide) (by decide) (by decide) (by decide) (by decide) ['x']

/-- Of a string that is as long as an `int` can count the loop sees nothing. -/
theorem split_long (hs : NUL ∉ s) (hlength : s.length = 2 ^ 31 - 1) (slot : Option Nat) :
    locUtilSplitString (s ++ [NUL]) [slot] 1 delimiter = some ⟨s ++ [NUL], [some 0], 0⟩ := by
  have hstore : storePtr [slot] 0 0 = some [some 0] := rfl
  rw [locUtilSplitString, strlen_eq hs, hstore, Option.bind_eq_bind, Option.bind_some,
    Option.bind_eq_bind, Option.bind_some, rawStringLength_neg hlength, splitFrom]

/-- A string too long for an `int` is not split into the one field that it is. -/
theorem long_string_not_split :
    ¬ ∀ s : List Char, NUL ∉ s → ∀ delimiter : Char, delimiter ≠ NUL →
      ∀ max_num_substrings : Nat, 1 ≤ max_num_substrings →
      ∀ split_strings_ptr : List (Option Nat), split_strings_ptr.length = max_num_substrings →
        ∃ split,
          locUtilSplitString (s ++ [NUL]) split_strings_ptr max_num_substrings delimiter =
            some split ∧
          split.num_split_strings = min max_num_substrings (s.count delimiter + 1) := by
  intro hall
  have hs : NUL ∉ List.replicate (2 ^ 31 - 1) 'a' := fun h =>
    absurd (List.eq_of_mem_replicate h) (by decide)
  obtain ⟨split, hsome, hcount⟩ := hall _ hs ',' (by decide) 1 (by decide) [none] rfl
  rw [split_long hs List.length_replicate none] at hsome
  obtain rfl := Option.some.inj hsome
  rw [Nat.min_eq_left (Nat.le_add_left _ _)] at hcount
  exact absurd hcount (by decide)

end Whole

end Msm8916.Utils
