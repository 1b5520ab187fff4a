import Mathlib.Algebra.Ring.Nat
import Msm8916.Config.Reading
import Msm8916.Config.Update
import Msm8916.Utils.Trim

/-!
Lines of a file that are longer than the buffer of `loc_read_conf_r`: each piece that is read
is parsed as if it were a line.
-/

namespace Msm8916.Config

open CString

variable {V S : Type*} {F : Type}

section Reads

variable (reader : FloatReader F) (config_table : List (LocParam V S)) (text : List Char)

/-- The name part of a line, before the first `=`, is the name of an entry. -/
def OwnLine (line : List Char) : Prop :=
  ∃ entry ∈ config_table, entry.param_name = Utils.strip (line.takeWhile (· != '='))

instance (line : List Char) : Decidable (OwnLine config_table line) :=
  inferInstanceAs (Decidable (∃ entry ∈ config_table, _))

/-- What is read from a file, each piece with the line that it is in. -/
def lineReads : List (List Char × List Char) :=
  (physicalLines text).flatMap fun line =>
    (pieces (locMaxParamLine - 1) line).map fun read => (line, read)

/-- What is read before the count of parameters is used up. -/
def takenReads : List (List Char × List Char) :=
  (lineReads text).take
    (takenLines reader config_table ((lineReads text).map Prod.snd)
      (UInt32.ofNat config_table.length)).length

/-- The number of entries that take one of the first pieces. -/
def filledBy (count : Nat) : Nat :=
  (((lineReads text).take count).map fun read => lineCount reader config_table read.2).sum

variable {reader config_table text}

theorem fgetsAll_lineReads :
    fgetsAll locMaxParamLine text = (lineReads text).map Prod.snd := by
  have hroom : locMaxParamLine = locMaxParamLine - 1 + 1 := rfl
  rw [hroom, fgetsAll_eq (by decide), lineReads, List.map_flatMap]
  apply List.flatMap_congr
  intro line _
  rw [List.map_map]
  exact (List.map_id _).symm

theorem takenReads_snd :
    (takenReads reader config_table text).map Prod.snd =
      takenLines reader config_table ((lineReads text).map Prod.snd)
        (UInt32.ofNat config_table.length) := by
  rw [takenReads, List.map_take]
  exact (List.prefix_iff_eq_take.mp (takenLines_isPrefixOf _ _)).symm

/-- A piece is read unless the entries filled before it have used the count up. -/
theorem mem_takenReads_iff {read : List Char × List Char} :
    read ∈ takenReads reader config_table text ↔
      ∃ i, (lineReads text)[i]? = some read ∧ ∀ j ≤ i,
        filledBy reader config_table text j % 2 ^ 32 ≠ config_table.length % 2 ^ 32 := by
  have hsum : ∀ j, ((((lineReads text).map Prod.snd).take j).map
      (lineCount reader config_table)).sum = filledBy reader config_table text j := by
    intro j
    rw [filledBy, ← List.map_take, List.map_map]
    rfl
  rw [List.mem_iff_getElem?]
  apply exists_congr
  intro i
  rw [takenReads, List.getElem?_take]
  constructor
  · intro h
    split at h
    · rename_i hlt
      refine ⟨h, fun j hj => ?_⟩
      have hne := (lt_length_takenLines_iff.mp hlt).2 j hj
      rw [hsum] at hne
      exact fun heq => hne ((ofNat_eq_iff _ _).mpr heq)
    · cases h
  · rintro ⟨hget, hall⟩
    have hlt := (List.getElem?_eq_some_iff.mp hget).1
    rw [if_pos]
    · exact hget
    · refine lt_length_takenLines_iff.mpr ⟨by rw [List.length_map]; exact hlt, fun j hj => ?_⟩
      rw [hsum]
      exact fun heq => hall j hj ((ofNat_eq_iff _ _).mp heq)

end Reads

/-- `loc_read_conf_r` runs `loc_fill_conf_item` on pieces of the file one after the other. Only
lines whose name part is in the table fill an entry exactly if each piece of another line that
would comes after pieces that use the count of parameters up. -/
theorem whole_lines_iff [DecidableEq V] [DecidableEq S] (reader : FloatReader F)
    (config_table : List (LocParam V S)) (text : List Char) (mem : ConfMemory V S F) :
    locReadConfR reader text config_table mem =
      (takenReads reader config_table text).foldl
        (fun mem read => (locFillConfItem reader read.2 config_table mem).1)
        (clearFlags config_table mem) ∧
    ((∀ read ∈ takenReads reader config_table text,
        lineCount reader config_table read.2 ≠ 0 → OwnLine config_table read.1) ↔
      ∀ i line read, (lineReads text)[i]? = some (line, read) →
        lineCount reader config_table read ≠ 0 → ¬ OwnLine config_table line →
          ∃ j ≤ i,
            filledBy reader config_table text j % 2 ^ 32 = config_table.length % 2 ^ 32) := by
  constructor
  · rw [locReadConfR, fgetsAll_lineReads, fillLoop_fst, ← takenReads_snd, List.foldl_map]
  · constructor
    · intro hall i line read hget hfills hother
      by_contra hnone
      push Not at hnone
      exact hother (hall (line, read) (mem_takenReads_iff.mpr ⟨i, hget, hnone⟩) hfills)
    · rintro hall ⟨line, read⟩ hread hfills
      obtain ⟨i, hget, hcount⟩ := mem_takenReads_iff.mp hread
      by_contra hother
      obtain ⟨j, hj, hused⟩ := hall i line read hget hfills hother
      exact hcount j hj hused

/-- The end of a long comment is parsed as a line. -/
theorem long_comment_parsed :
    ¬ ∀ text : List Char, ∀ read ∈ takenReads intReader pairTable text,
      lineCount intReader pairTable read.2 ≠ 0 → OwnLine pairTable read.1 := by
  intro hall
  have hcomment := hall ('#' :: List.replicate 158 'x' ++ "A=5\n".toList)
  exact absurd hcomment (by decide +kernel)

end Msm8916.Config
