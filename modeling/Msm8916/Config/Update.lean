import Mathlib.Algebra.Ring.Nat
import Mathlib.Data.List.Perm.Subperm
import Msm8916.Config.Reading

/-!
Which lines of a buffer `loc_update_conf` applies, and what it returns.
-/

namespace Msm8916.Config

open CString

variable {V S : Type*} {F : Type}

section Lines

variable (reader : FloatReader F) (config_table : List (LocParam V S))

/-- A line is an assignment to an entry of the table. -/
def namesEntry (line : List Char) : Bool :=
  config_table.any fun entry => lineName reader line = some entry.param_name

/-- The records of the table that lines update. -/
def updatedRecords (lines : List (List Char)) : List (LocParam V S) :=
  config_table.filter fun entry => lines.any fun line => takesLine reader line entry

variable {reader config_table} {line : List Char} {entry : LocParam V S}

theorem namesEntry_nil : namesEntry reader config_table [] = false := by
  rw [namesEntry, List.any_eq_false]
  exact fun entry _ h => nomatch of_decide_eq_true h

/-- The assignments of a buffer are among the lines that are not empty. -/
theorem filter_textLines (text : List Char) :
    (textLines text).filter (namesEntry reader config_table) =
      (text.splitOn '\n').filter (namesEntry reader config_table) := by
  rw [textLines, List.filter_filter]
  apply List.filter_congr
  intro line _
  cases hnames : namesEntry reader config_table line with
  | false => rfl
  | true =>
      have hne : line ≠ [] := by
        rintro rfl
        rw [namesEntry_nil] at hnames
        cases hnames
      simp [hne]

/-! ## The lines that are taken -/

theorem takenLines_take {lines : List (List Char)} {count : Nat} (hcount : count < 2 ^ 32)
    (hones : ∀ line ∈ lines.take count, lineCount reader config_table line = 1) :
    takenLines reader config_table lines (UInt32.ofNat count) = lines.take count := by
  induction lines generalizing count with
  | nil => simp [takenLines]
  | cons line lines ih =>
      cases count with
      | zero => exact takenLines_zero _
      | succ count =>
          rw [List.take_succ_cons] at hones ⊢
          rw [takenLines_step hcount (hones line List.mem_cons_self),
            ih (Nat.lt_of_succ_lt hcount) fun other h => hones other (List.mem_cons_of_mem _ h)]

theorem takenLines_ones {lines : List (List Char)} {count : Nat} (hcount : count < 2 ^ 32)
    (hones : ∀ line ∈ takenLines reader config_table lines (UInt32.ofNat count),
      lineCount reader config_table line = 1) :
    takenLines reader config_table lines (UInt32.ofNat count) = lines.take count := by
  induction lines generalizing count with
  | nil => simp [takenLines]
  | cons line lines ih =>
      cases count with
      | zero => exact takenLines_zero _
      | succ count =>
          have hline : lineCount reader config_table line = 1 := by
            apply hones
            rw [takenLines, if_neg (ofNat_succ_ne_zero hcount)]
            exact List.mem_cons_self
          rw [takenLines_step hcount hline] at hones ⊢
          rw [List.take_succ_cons,
            ih (Nat.lt_of_succ_lt hcount) fun other h => hones other (List.mem_cons_of_mem _ h)]

/-- A loop counts the lines it takes. -/
theorem fillLoop_snd [DecidableEq V] [DecidableEq S] (lines : List (List Char))
    (num_params : UInt32) (mem : ConfMemory V S F) :
    (fillLoop reader config_table lines num_params mem).2 =
      (takenLines reader config_table lines num_params).length := by
  induction lines generalizing num_params mem with
  | nil => rfl
  | cons line lines ih =>
      rw [fillLoop, takenLines]
      split
      · rfl
      · dsimp only
        rw [ih, locFillConfItem_snd, List.length_cons]

/-! ## The records that are updated -/

/-- Lines update as many records as they are exactly if each is taken by an entry and no two
have the same name. -/
theorem length_updatedRecords_iff (hnames : (config_table.map LocParam.param_name).Nodup)
    (lines : List (List Char)) :
    lines.length = (updatedRecords reader config_table lines).length ↔
      (∀ line ∈ lines, ∃ entry ∈ config_table, takesLine reader line entry) ∧
        (lines.map (lineName reader)).Nodup := by
  let updated := (updatedRecords reader config_table lines).map fun entry => some entry.param_name
  have hupdated : updated.Nodup := by
    have hsub : ((updatedRecords reader config_table lines).map LocParam.param_name).Nodup :=
      hnames.sublist (List.filter_sublist.map _)
    have hmap : updated =
        ((updatedRecords reader config_table lines).map LocParam.param_name).map some := by
      rw [List.map_map]
      rfl
    rw [hmap]
    exact hsub.map fun _ _ heq => Option.some.inj heq
  have hsubset : updated ⊆ lines.map (lineName reader) := by
    intro name hname
    obtain ⟨entry, hentry, rfl⟩ := List.mem_map.mp hname
    obtain ⟨line, hline, htakes⟩ := List.any_eq_true.mp (List.mem_filter.mp hentry).2
    rw [← (takesLine_iff.mp htakes).1]
    exact List.mem_map_of_mem hline
  have hlength : updated.length = (updatedRecords reader config_table lines).length :=
    List.length_map _
  constructor
  · intro hcount
    have hperm : updated.Perm (lines.map (lineName reader)) := by
      apply (List.subperm_of_subset hupdated hsubset).perm_of_length_le
      rw [List.length_map, hlength, hcount]
    refine ⟨?_, hperm.nodup_iff.mp hupdated⟩
    intro line hline
    have hin := hperm.mem_iff.mpr (List.mem_map_of_mem (f := lineName reader) hline)
    obtain ⟨entry, hentry, hname⟩ := List.mem_map.mp hin
    obtain ⟨hmem, hany⟩ := List.mem_filter.mp hentry
    obtain ⟨other, -, htakes⟩ := List.any_eq_true.mp hany
    exact ⟨entry, hmem, takesLine_iff.mpr ⟨hname.symm, (takesLine_iff.mp htakes).2⟩⟩
  · rintro ⟨htaken, hnodup⟩
    have hback : lines.map (lineName reader) ⊆ updated := by
      intro name hname
      obtain ⟨line, hline, rfl⟩ := List.mem_map.mp hname
      obtain ⟨entry, hentry, htakes⟩ := htaken line hline
      rw [(takesLine_iff.mp htakes).1]
      exact List.mem_map_of_mem
        (List.mem_filter.mpr ⟨hentry, List.any_eq_true.mpr ⟨line, hline, htakes⟩⟩)
    have hperm := (List.perm_ext_iff_of_nodup hnodup hupdated).mpr fun name =>
      ⟨fun h => hback h, fun h => hsubset h⟩
    rw [← hlength, ← hperm.length_eq, List.length_map]

end Lines

/-! ## The whole buffer -/

section Whole

variable [DecidableEq V] [DecidableEq S] {reader : FloatReader F}
  {config_table : List (LocParam V S)}

theorem locUpdateConf_fst (text : List Char) (mem : ConfMemory V S F) :
    (locUpdateConf reader text config_table mem).1 =
      (bufferLines reader config_table text).foldl
        (fun mem line => (locFillConfItem reader line config_table mem).1) mem := by
  unfold locUpdateConf bufferLines
  split
  · rfl
  · exact fillLoop_fst _ _ mem

theorem locUpdateConf_snd {text : List Char} (htext : text ≠ []) (htable : config_table ≠ [])
    (mem : ConfMemory V S F) :
    (locUpdateConf reader text config_table mem).2 =
      ((bufferLines reader config_table text).length : Int) := by
  have hnot : ¬ (text = [] ∨ config_table = []) := not_or.mpr ⟨htext, htable⟩
  rw [locUpdateConf, bufferLines, if_neg hnot, if_neg hnot]
  exact congrArg Int.ofNat (fillLoop_snd _ _ mem)

/-- `loc_update_conf` runs `loc_fill_conf_item` on lines of the buffer one after the other.
It applies all assignments to the table, and returns the number of records it updates,
exactly if there are a buffer and a table and, with one less line than the table has
entries, each is an assignment that an entry takes, no two of them have the same name, and
behind them there are no assignments. -/
theorem update_complete_iff (hnames : (config_table.map LocParam.param_name).Nodup)
    (hlength : config_table.length < 2 ^ 32) (text : List Char) (mem : ConfMemory V S F) :
    (locUpdateConf reader text config_table mem).1 =
      (bufferLines reader config_table text).foldl
        (fun mem line => (locFillConfItem reader line config_table mem).1) mem ∧
    ((bufferLines reader config_table text).filter (namesEntry reader config_table) =
        (text.splitOn '\n').filter (namesEntry reader config_table) ∧
      (locUpdateConf reader text config_table mem).2 =
        ((updatedRecords reader config_table
          (bufferLines reader config_table text)).length : Int) ↔
    text ≠ [] ∧ config_table ≠ [] ∧
      (∀ line ∈ (textLines text).take (config_table.length - 1),
        ∃ entry ∈ config_table, takesLine reader line entry) ∧
      (((textLines text).take (config_table.length - 1)).map (lineName reader)).Nodup ∧
      ∀ line ∈ (textLines text).drop (config_table.length - 1),
        namesEntry reader config_table line = false) := by
  refine ⟨locUpdateConf_fst text mem, ?_⟩
  by_cases hnone : text = [] ∨ config_table = []
  · have hsnd : (locUpdateConf reader text config_table mem).2 = -1 := by
      rw [locUpdateConf, if_pos hnone]
    apply iff_of_false
    · rintro ⟨-, hcount⟩
      rw [hsnd] at hcount
      omega
    · rintro ⟨htext, htable, -⟩
      exact hnone.elim htext htable
  · obtain ⟨htext, htable⟩ := not_or.mp hnone
    have hpos := List.length_pos_iff.mpr htable
    have hparams : UInt32.ofNat config_table.length - 1 =
        UInt32.ofNat (config_table.length - 1) := by
      have hsucc : config_table.length = config_table.length - 1 + 1 := by omega
      conv_lhs => rw [hsucc, UInt32.ofNat_add]
      exact UInt32.add_sub_cancel _ _
    have hlines : bufferLines reader config_table text =
        takenLines reader config_table (textLines text)
          (UInt32.ofNat (config_table.length - 1)) := by
      rw [bufferLines, if_neg hnone, tokens_eq, hparams]
      rfl
    have hsmall : config_table.length - 1 < 2 ^ 32 := by omega
    have hparts : (textLines text).filter (namesEntry reader config_table) =
        ((textLines text).take (config_table.length - 1)).filter (namesEntry reader config_table) ++
          ((textLines text).drop (config_table.length - 1)).filter
            (namesEntry reader config_table) := by
      rw [← List.filter_append, List.take_append_drop]
    rw [locUpdateConf_snd htext htable, Int.natCast_inj, length_updatedRecords_iff hnames,
      ← filter_textLines, hparts, hlines]
    constructor
    · rintro ⟨hall, htaken, hnodup⟩
      have htake := takenLines_ones hsmall fun line hline =>
        (lineCount_eq_one_iff hnames).mpr (htaken line hline)
      rw [htake] at hall htaken hnodup
      refine ⟨htext, htable, htaken, hnodup, ?_⟩
      have hnil := List.self_eq_append_right.mp hall
      exact fun line hline => Bool.eq_false_iff.mpr (List.filter_eq_nil_iff.mp hnil line hline)
    · rintro ⟨-, -, htaken, hnodup, hrest⟩
      have htake := takenLines_take hsmall fun line hline =>
        (lineCount_eq_one_iff hnames).mpr (htaken line hline)
      rw [htake]
      refine ⟨?_, htaken, hnodup⟩
      have hnil : ((textLines text).drop (config_table.length - 1)).filter
          (namesEntry reader config_table) = [] :=
        List.filter_eq_nil_iff.mpr fun line hline => by
          rw [hrest line hline]
          exact Bool.false_ne_true
      rw [hnil, List.append_nil]

theorem update_complete_iff_pair :
    (locUpdateConf intReader "A=1\n".toList pairTable pairMemory).1 =
      (bufferLines intReader pairTable "A=1\n".toList).foldl
        (fun mem line => (locFillConfItem intReader line pairTable mem).1) pairMemory ∧
    ((bufferLines intReader pairTable "A=1\n".toList).filter (namesEntry intReader pairTable) =
        ("A=1\n".toList.splitOn '\n').filter (namesEntry intReader pairTable) ∧
      (locUpdateConf intReader "A=1\n".toList pairTable pairMemory).2 =
        ((updatedRecords intReader pairTable
          (bufferLines intReader pairTable "A=1\n".toList)).length : Int) ↔
    "A=1\n".toList ≠ [] ∧ pairTable ≠ [] ∧
      (∀ line ∈ (textLines "A=1\n".toList).take (pairTable.length - 1),
        ∃ entry ∈ pairTable, takesLine intReader line entry) ∧
      (((textLines "A=1\n".toList).take (pairTable.length - 1)).map (lineName intReader)).Nodup ∧
      ∀ line ∈ (textLines "A=1\n".toList).drop (pairTable.length - 1),
        namesEntry intReader pairTable line = false) :=
  update_complete_iff (by decide) (by decide) _ _

/-- Of a table of one entry nothing is applied. -/
theorem single_entry_not_applied :
    ¬ ∀ (config_table : List (LocParam (Fin 2) (Fin 2))),
      (config_table.map LocParam.param_name).Nodup → ∀ text : List Char,
        (bufferLines intReader config_table text).filter (namesEntry intReader config_table) =
          (text.splitOn '\n').filter (namesEntry intReader config_table) ∧
        (locUpdateConf intReader text config_table pairMemory).2 =
          ((updatedRecords intReader config_table
            (bufferLines intReader config_table text)).length : Int) := by
  intro hall
  have hlines := (hall [⟨"A".toList, some 0, some 0, 'n'⟩] (by decide) "A=5".toList).1
  exact absurd hlines (by decide)

end Whole

end Msm8916.Config
