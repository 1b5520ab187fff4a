import Mathlib.Algebra.Ring.Nat
import Mathlib.Data.List.DropRight
import Mathlib.Data.List.Induction
import Msm8916.Lib.Buffer
import Msm8916.Lib.CString

/-!
`LocSetXtraUserAgent::getChipsetSerialNo` of
`gps/loc_api/libloc_api_50001/LocEngAdapter.cpp`, which reads the serial number for the user
agent.
-/

namespace Msm8916.UserAgent

open Buffer CString

/-! ## The code -/

def chipsetSerialNumberMaxLen : Nat := 16

/-- `defVal`. -/
def defVal : List Char := "-".toList

def sizeMax : Nat := 2 ^ 64 - 1

/-- The characters are stored at the start of the buffer, unless it is too small. -/
def fill (buf chars : List Char) : Option (List Char) :=
  if chars.length ≤ buf.length then some (chars ++ buf.drop chars.length) else none

/-- `strlcpy` into the buffer. -/
def storeString (buf src : List Char) (size : Nat) : Option (List Char) :=
  fill buf (strlcpy src size ++ [NUL])

/-- The loop that removes trailing spaces. The length is unsigned: it is never less than
zero, and before zero comes the greatest value. -/
def trimTrailing : (remaining len : Nat) → List Char → Option (List Char)
  | 0, _, _ => none
  | remaining + 1, len, buf => do
      let len := if len = 0 then sizeMax else len - 1
      let c ← buf[len]?
      if isspace c then
        let buf ← write buf len NUL
        trimTrailing remaining len buf
      else
        return buf

/-- The part of `getChipsetSerialNo` that reads a file of the given contents. -/
def readSerial (contents buf : List Char) (buflen : Nat) (default : List Char) :
    Option (List Char) := do
  let read := contents.take (buflen - 1)
  let buf ← fill buf read
  if read.length = 0 then
    -- use default upon empty file
    storeString buf default buflen
  else
    write buf read.length NUL

/-- `getChipsetSerialNo`. The file is what can be read from it, if it can be opened. -/
def getChipsetSerialNo (file : Option (List Char)) (buf : List Char) (buflen : Nat)
    (default : List Char) : Option (List Char) :=
  match file with
  | none =>
      -- use default upon unreadable file
      storeString buf default buflen
  | some contents => do
      let buf ← readSerial contents buf buflen default
      -- remove trailing spaces
      let len ← strlen buf
      trimTrailing (len + 1) len buf

/-! ## The loop -/

section Loop

variable {s rest : List Char}

/-- With a character that is no space in front of them the trailing spaces become NULs. -/
theorem trimTrailing_some {c : Char} (hc : c ∈ s) (hspace : isspace c = false)
    (rest : List Char) :
    ∃ rest', trimTrailing (s.length + 1) s.length (s ++ NUL :: rest) =
        some (s.rdropWhile isspace ++ NUL :: rest') ∧
      (s.rdropWhile isspace ++ NUL :: rest').length = (s ++ NUL :: rest).length := by
  induction s using List.reverseRecOn generalizing rest with
  | nil => cases hc
  | append_singleton s d ih =>
      have hlength : (s ++ [d]).length = s.length + 1 := by simp
      have hbuf : s ++ [d] ++ NUL :: rest = s ++ d :: NUL :: rest := by simp
      have hget : (s ++ d :: NUL :: rest)[s.length]? = some d := getElem?_append_cons rfl d _
      rw [hlength, hbuf, trimTrailing, if_neg (Nat.succ_ne_zero _), Nat.add_sub_cancel]
      simp only [hget, Option.bind_eq_bind, Option.bind_some]
      cases hd : isspace d with
      | false =>
          refine ⟨rest, ?_, ?_⟩
          · rw [List.rdropWhile_concat_neg _ _ _ (by simp [hd])]
            simp
          · rw [List.rdropWhile_concat_neg _ _ _ (by simp [hd])]
            simp
      | true =>
          have hin : c ∈ s := by
            rcases List.mem_append.mp hc with h | h
            · exact h
            · rw [List.mem_singleton.mp h, hd] at hspace
              cases hspace
          obtain ⟨rest', hloop, hsame⟩ := ih hin (NUL :: rest)
          refine ⟨rest', ?_, ?_⟩
          · rw [List.rdropWhile_concat_pos _ _ _ hd, if_pos rfl, write_append rfl,
              Option.bind_some, hloop]
          · rw [List.rdropWhile_concat_pos _ _ _ hd, hsame]
            simp

/-- Without one the loop runs to the start of the buffer and reads before it. -/
theorem trimTrailing_none (hblank : ∀ c ∈ s, isspace c = true) (rest : List Char)
    (hsize : (s ++ NUL :: rest).length ≤ sizeMax) :
    trimTrailing (s.length + 1) s.length (s ++ NUL :: rest) = none := by
  induction s using List.reverseRecOn generalizing rest with
  | nil =>
      rw [List.nil_append] at hsize ⊢
      rw [List.length_nil, trimTrailing, if_pos rfl]
      simp only [List.getElem?_eq_none hsize]
      rfl
  | append_singleton s d ih =>
      have hlength : (s ++ [d]).length = s.length + 1 := by simp
      have hbuf : s ++ [d] ++ NUL :: rest = s ++ d :: NUL :: rest := by simp
      have hget : (s ++ d :: NUL :: rest)[s.length]? = some d := getElem?_append_cons rfl d _
      have hd : isspace d = true := hblank d (by simp)
      have hnext := ih (fun c hc => hblank c (List.mem_append_left _ hc)) (NUL :: rest) (by
        rw [hbuf] at hsize
        simpa using hsize)
      rw [hlength, hbuf, trimTrailing, if_neg (Nat.succ_ne_zero _), Nat.add_sub_cancel]
      simp only [hget, Option.bind_eq_bind, Option.bind_some]
      rw [if_pos hd, write_append rfl, Option.bind_some, hnext]

end Loop

/-! ## What is read -/

section Read

variable {buf : List Char}

/-- The string that the buffer holds after reading: the default if the file is empty, else its
start up to the first NUL. -/
def heldString (contents : List Char) : List Char :=
  if contents = [] then defVal
  else (contents.take (chipsetSerialNumberMaxLen - 1)).takeWhile (· != NUL)

theorem notMem_heldString (contents : List Char) : NUL ∉ heldString contents := by
  unfold heldString
  split
  · decide
  · intro h
    have hne := List.mem_takeWhile_imp h
    exact absurd hne (by decide)

/-- The string is in the buffer. -/
theorem readSerial_eq (contents : List Char) (hbuf : buf.length = chipsetSerialNumberMaxLen) :
    ∃ rest, (heldString contents ++ NUL :: rest).length = buf.length ∧
      readSerial contents buf chipsetSerialNumberMaxLen defVal =
        some (heldString contents ++ NUL :: rest) := by
  have hsixteen : buf.length = 16 := hbuf
  by_cases hempty : contents = []
  · subst hempty
    have hheld : heldString [] = defVal := rfl
    have hnone : fill buf (([] : List Char).take (chipsetSerialNumberMaxLen - 1)) = some buf :=
      rfl
    have hstore : storeString buf defVal chipsetSerialNumberMaxLen =
        some (defVal ++ NUL :: buf.drop 2) :=
      if_pos (by rw [hsixteen]; decide)
    refine ⟨buf.drop 2, ?_, ?_⟩
    · rw [hheld, List.length_append, List.length_cons, List.length_drop, hsixteen]
      rfl
    · rw [readSerial, hnone, Option.bind_eq_bind, Option.bind_some, List.take_nil,
        if_pos List.length_nil, hstore, hheld]
  · obtain ⟨read, hread⟩ : ∃ read, contents.take (chipsetSerialNumberMaxLen - 1) = read :=
      ⟨_, rfl⟩
    have hheld : heldString contents = read.takeWhile (· != NUL) := by
      rw [heldString, if_neg hempty, hread]
    have hlength : read.length ≤ 15 := by
      rw [← hread]
      exact List.length_take_le _ _
    have hpos : ¬ read.length = 0 := by
      rw [← hread, List.length_take]
      have hcontents := List.length_pos_iff.mpr hempty
      unfold chipsetSerialNumberMaxLen
      omega
    have hfill : fill buf read = some (read ++ buf.drop read.length) := if_pos (by omega)
    obtain ⟨old, after, hdrop⟩ : ∃ old after, buf.drop read.length = old :: after := by
      apply List.exists_cons_of_length_pos
      rw [List.length_drop]
      omega
    have hwrite : write (read ++ buf.drop read.length) read.length NUL =
        some (read ++ NUL :: after) := by
      rw [hdrop]
      exact write_append rfl old NUL after
    obtain ⟨rest, hrest⟩ := exists_rest read after
    refine ⟨rest, ?_, ?_⟩
    · have hafter := congrArg List.length hdrop
      rw [List.length_drop, List.length_cons] at hafter
      rw [hheld, ← hrest, List.length_append, List.length_cons]
      omega
    · rw [readSerial, hread, hfill, Option.bind_eq_bind, Option.bind_some, if_neg hpos, hwrite,
        hrest, hheld]

/-- The loop is run on the string that is held. -/
theorem getChipsetSerialNo_eq (contents : List Char)
    (hbuf : buf.length = chipsetSerialNumberMaxLen) :
    ∃ rest, (heldString contents ++ NUL :: rest).length = buf.length ∧
      getChipsetSerialNo (some contents) buf chipsetSerialNumberMaxLen defVal =
        trimTrailing ((heldString contents).length + 1) (heldString contents).length
          (heldString contents ++ NUL :: rest) := by
  obtain ⟨rest, hlength, hread⟩ := readSerial_eq contents hbuf
  refine ⟨rest, hlength, ?_⟩
  rw [getChipsetSerialNo, hread, Option.bind_eq_bind, Option.bind_some,
    strlen_eq (notMem_heldString contents), Option.bind_eq_bind, Option.bind_some]

end Read

/-- The trailing spaces of the serial number are removed, inside the buffer, exactly if the
file is empty or has a character that is no space before its first NUL, as far as it is
read. -/
theorem serial_trimmed_iff {buf : List Char} (hbuf : buf.length = chipsetSerialNumberMaxLen)
    (contents : List Char) :
    (∃ final,
      getChipsetSerialNo (some contents) buf chipsetSerialNumberMaxLen defVal = some final ∧
      final.length = buf.length ∧
      stringAt final 0 = some ((heldString contents).rdropWhile isspace)) ↔
    contents = [] ∨
      ∃ c ∈ (contents.take (chipsetSerialNumberMaxLen - 1)).takeWhile (· != NUL),
        isspace c = false := by
  obtain ⟨rest, hlength, hrun⟩ := getChipsetSerialNo_eq contents hbuf
  have hheld : contents = [] ∨ heldString contents =
      (contents.take (chipsetSerialNumberMaxLen - 1)).takeWhile (· != NUL) := by
    by_cases hempty : contents = []
    · exact .inl hempty
    · exact .inr (if_neg hempty)
  rw [hrun]
  constructor
  · rintro ⟨final, hsome, -, -⟩
    rcases hheld with hempty | hheld
    · exact .inl hempty
    · right
      rw [← hheld]
      by_contra hblank
      push Not at hblank
      have hnone := trimTrailing_none (s := heldString contents)
        (fun c hc => by simpa using hblank c hc) rest
        (by rw [hlength, hbuf]; decide)
      rw [hnone] at hsome
      cases hsome
  · intro h
    have hchar : ∃ c ∈ heldString contents, isspace c = false := by
      rcases h with rfl | h
      · exact ⟨'-', by decide, rfl⟩
      · rcases hheld with rfl | hheld
        · exact ⟨'-', by decide, rfl⟩
        · rw [hheld]
          exact h
    obtain ⟨c, hc, hspace⟩ := hchar
    obtain ⟨rest', hloop, hsame⟩ := trimTrailing_some hc hspace rest
    refine ⟨_, hloop, hsame.trans hlength, stringAt_zero ?_ rest'⟩
    have hpre := List.rdropWhile_prefix isspace (heldString contents)
    exact fun hmem => notMem_heldString contents (hpre.subset hmem)

theorem serial_trimmed_iff_newline :
    (∃ final,
      getChipsetSerialNo (some "123456\n".toList) (List.replicate 16 'x')
        chipsetSerialNumberMaxLen defVal = some final ∧
      final.length = (List.replicate 16 'x').length ∧
      stringAt final 0 = some ((heldString "123456\n".toList).rdropWhile isspace)) ↔
    "123456\n".toList = [] ∨
      ∃ c ∈ ("123456\n".toList.take (chipsetSerialNumberMaxLen - 1)).takeWhile (· != NUL),
        isspace c = false :=
  serial_trimmed_iff rfl _

/-- Of a file that starts with a NUL the loop reads before the buffer. -/
theorem empty_string_underflows :
    ¬ ∃ final,
      getChipsetSerialNo (some [NUL]) (List.replicate 16 'x') chipsetSerialNumberMaxLen defVal =
        some final ∧
      final.length = 16 ∧ stringAt final 0 = some ((heldString [NUL]).rdropWhile isspace) := by
  rintro ⟨final, hsome, -, -⟩
  have hnone : getChipsetSerialNo (some [NUL]) (List.replicate 16 'x') chipsetSerialNumberMaxLen
      defVal = none := by
    decide
  rw [hnone] at hsome
  cases hsome

end Msm8916.UserAgent
