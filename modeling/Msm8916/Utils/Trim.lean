import Mathlib.Data.List.DropRight
import Msm8916.Config.Table
import Msm8916.Lib.Buffer

/-!
`loc_util_trim_space` of `gps/utils/loc_misc_utils.cpp`, which moves the content of a
string to its start.
-/

namespace Msm8916.Utils

open Buffer CString

/-- Where the scan stands. The pointers are indices into the string. -/
structure Trim where
  org_string : List Char
  write_ptr : Nat
  first_nonspace : Option Nat
  last_nonspace : Option Nat

/-- One turn of the loop, at a character that is not NUL. -/
def trimChar (scan_ptr : Nat) (c : Char) (trim : Trim) : Option Trim :=
  let first_nonspace :=
    if isspace c = false ∧ trim.first_nonspace = none then some scan_ptr
    else trim.first_nonspace
  if first_nonspace = none then
    some trim
  else do
    let org_string ← write trim.org_string trim.write_ptr c
    return {
      org_string
      write_ptr := trim.write_ptr + 1
      first_nonspace
      last_nonspace := if isspace c then trim.last_nonspace else some (trim.write_ptr + 1) }

/-- The loop; there is no value if it runs over the end of the buffer. -/
def trimLoop : (remaining scan_ptr : Nat) → Trim → Option Trim
  | 0, _, _ => none
  | remaining + 1, scan_ptr, trim => do
      let c ← trim.org_string[scan_ptr]?
      if c = NUL then
        return trim
      else
        let trim ← trimChar scan_ptr c trim
        trimLoop remaining (scan_ptr + 1) trim

/-- `loc_util_trim_space` on the buffer that holds the string. -/
def locUtilTrimSpace (org_string : List Char) : Option (List Char) := do
  let trim ← trimLoop org_string.length 0 ⟨org_string, 0, none, none⟩
  match trim.last_nonspace with
  | none => return trim.org_string
  | some last => write trim.org_string last NUL

/-- The content of a string between its first and last characters that are no spaces. -/
def strip (s : List Char) : List Char := (s.dropWhile isspace).rdropWhile isspace

/-! ## The scan -/

section Scan

/-- Blanks at the start are passed over. -/
theorem trimLoop_blank {blank : List Char} (hblank : ∀ c ∈ blank, isspace c = true)
    (before after : List Char) (remaining : Nat) :
    trimLoop (blank.length + remaining) before.length
        ⟨before ++ (blank ++ after), 0, none, none⟩ =
      trimLoop remaining (before ++ blank).length
        ⟨before ++ (blank ++ after), 0, none, none⟩ := by
  induction blank generalizing before with
  | nil => simp
  | cons c blank ih =>
      have hc := hblank c List.mem_cons_self
      have hne : c ≠ NUL := by
        rintro rfl
        exact absurd hc (by decide)
      have hget : (before ++ (c :: blank ++ after))[before.length]? = some c :=
        getElem?_append_cons rfl c (blank ++ after)
      have hchar : trimChar before.length c ⟨before ++ (c :: blank ++ after), 0, none, none⟩ =
          some ⟨before ++ (c :: blank ++ after), 0, none, none⟩ := by
        simp [trimChar, hc]
      have hnext := ih (fun d hd => hblank d (List.mem_cons_of_mem _ hd)) (before ++ [c])
      have hsteps : (c :: blank).length + remaining = blank.length + remaining + 1 := by
        rw [List.length_cons]
        omega
      have hassoc : before ++ [c] ++ (blank ++ after) = before ++ (c :: blank ++ after) := by simp
      have hlength : (before ++ [c]).length = before.length + 1 := List.length_append
      have hend : (before ++ [c] ++ blank).length = (before ++ c :: blank).length := by simp
      rw [hassoc, hlength, hend] at hnext
      rw [hsteps, trimLoop, hget]
      simp only [Option.bind_eq_bind, Option.bind_some, if_neg hne, hchar]
      exact hnext

/-- A character is moved to the end of the content moved so far, over the gap that the
blanks at the start have left. -/
theorem trimChar_move (out gap after : List Char) {c : Char} {first : Option Nat}
    (hfirst : isspace c = true → first ≠ none) (last : Option Nat) (scan_ptr : Nat) :
    ∃ gap' first', gap'.length = gap.length ∧ first' ≠ none ∧
      trimChar scan_ptr c ⟨out ++ (gap ++ c :: after), out.length, first, last⟩ =
        some ⟨out ++ [c] ++ (gap' ++ after), (out ++ [c]).length, first',
          if isspace c then last else some (out ++ [c]).length⟩ := by
  have hwrite : ∃ gap', gap'.length = gap.length ∧
      write (out ++ (gap ++ c :: after)) out.length c = some (out ++ [c] ++ (gap' ++ after)) := by
    cases gap with
    | nil => exact ⟨[], rfl, by simp [write_append rfl]⟩
    | cons g gap =>
        refine ⟨gap ++ [c], by simp, ?_⟩
        rw [List.cons_append, write_append rfl]
        simp
  obtain ⟨gap', hlength, hwrite⟩ := hwrite
  let first' := if isspace c = false ∧ first = none then some scan_ptr else first
  have hsome : first' ≠ none := by
    dsimp only [first']
    split
    · exact nofun
    · rename_i hnot
      intro hnone
      cases hc : isspace c with
      | false => exact hnot ⟨hc, hnone⟩
      | true => exact hfirst hc hnone
  refine ⟨gap', first', hlength, hsome, ?_⟩
  have hend : (out ++ [c]).length = out.length + 1 := List.length_append
  change (if first' = none then _ else _) = _
  rw [if_neg hsome, hend]
  simp only [hwrite]
  rfl

/-- From the first character that is no space on, everything is moved, and the end of the
content without the blanks behind it is kept. -/
theorem trimLoop_move {q : List Char} (hq : NUL ∉ q) (out gap rest : List Char) (first : Nat)
    (remaining : Nat) :
    ∃ gap' first', gap'.length = gap.length ∧
      trimLoop (q.length + 1 + remaining) (out ++ gap).length
          ⟨out ++ (gap ++ (q ++ NUL :: rest)), out.length, some first,
            some (out.rdropWhile isspace).length⟩ =
        some ⟨out ++ q ++ (gap' ++ NUL :: rest), (out ++ q).length, some first',
          some ((out ++ q).rdropWhile isspace).length⟩ := by
  induction q generalizing out gap first with
  | nil =>
      refine ⟨gap, first, rfl, ?_⟩
      have hget : (out ++ (gap ++ ([] ++ NUL :: rest)))[(out ++ gap).length]? = some NUL := by
        rw [← List.append_assoc]
        exact getElem?_append_cons rfl NUL rest
      have hsteps : ([] : List Char).length + 1 + remaining = remaining + 1 := by
        rw [List.length_nil]
        omega
      rw [hsteps, trimLoop, hget]
      simp
  | cons c q ih =>
      have hne : c ≠ NUL := ne_NUL_of_mem hq List.mem_cons_self
      have hrest : NUL ∉ q := fun h => hq (List.mem_cons_of_mem _ h)
      have hget : (out ++ (gap ++ (c :: q ++ NUL :: rest)))[(out ++ gap).length]? = some c := by
        rw [← List.append_assoc]
        exact getElem?_append_cons rfl c (q ++ NUL :: rest)
      obtain ⟨gap', first', hlength, hsome, hchar⟩ :=
        trimChar_move out gap (q ++ NUL :: rest) (c := c) (fun _ => Option.some_ne_none first)
          (some (out.rdropWhile isspace).length) (out ++ gap).length
      obtain ⟨next, rfl⟩ := Option.ne_none_iff_exists'.mp hsome
      have hlast : (if isspace c then some (out.rdropWhile isspace).length
          else some (out ++ [c]).length) = some ((out ++ [c]).rdropWhile isspace).length := by
        rw [List.rdropWhile_concat]
        split
        · rfl
        · rfl
      obtain ⟨gap'', last, hlength', hloop⟩ := ih hrest (out ++ [c]) gap' next
      refine ⟨gap'', last, hlength'.trans hlength, ?_⟩
      have hsteps : (c :: q).length + 1 + remaining = q.length + 1 + remaining + 1 := by
        rw [List.length_cons]
        omega
      have hindex : (out ++ gap).length + 1 = (out ++ [c] ++ gap').length := by
        simp only [List.length_append, List.length_singleton, hlength]
        omega
      rw [hlast] at hchar
      rw [hsteps, trimLoop, hget]
      simp only [Option.bind_eq_bind, Option.bind_some, if_neg hne, List.cons_append] at hchar ⊢
      rw [hchar, Option.bind_some, hindex, hloop]
      simp

end Scan

/-! ## The string that is left -/

section Left

variable {s : List Char}

theorem strip_eq_nil (hblank : ∀ c ∈ s, isspace c = true) : strip s = [] := by
  rw [strip, List.dropWhile_eq_nil_iff.mpr hblank]
  rfl

/-- On strings the function strips what has something to be left. -/
theorem trimSpace_eq_strip {c : Char} (hc : c ∈ s) (hspace : isspace c = false) :
    Config.locUtilTrimSpace s = strip s := by
  unfold Config.locUtilTrimSpace strip
  cases hcontent : s.dropWhile isspace with
  | nil =>
      rw [List.dropWhile_eq_nil_iff.mp hcontent c hc] at hspace
      cases hspace
  | cons d q => rfl

/-- From the first character that is no space on the loop leaves the content at the start,
with something behind it, and knows its end. -/
theorem trimLoop_content (blank : List Char) {q : List Char} {c : Char}
    (hspace : isspace c = false) (hs : NUL ∉ c :: q) (rest : List Char) :
    ∃ gap first, gap.length = blank.length ∧
      trimLoop ((c :: q).length + 1 + rest.length) blank.length
          ⟨blank ++ (c :: q ++ NUL :: rest), 0, none, none⟩ =
        some ⟨c :: q ++ (gap ++ NUL :: rest), (c :: q).length, some first,
          some ((c :: q).rdropWhile isspace).length⟩ := by
  have hne : c ≠ NUL := ne_NUL_of_mem hs List.mem_cons_self
  have hrest : NUL ∉ q := fun h => hs (List.mem_cons_of_mem _ h)
  have hfirst : ∀ first : Option Nat, isspace c = true → first ≠ none := fun first h => by
    rw [hspace] at h
    cases h
  obtain ⟨gap, first, hlength, hsome, hchar⟩ :=
    trimChar_move [] blank (q ++ NUL :: rest) (hfirst none) none blank.length
  obtain ⟨next, rfl⟩ := Option.ne_none_iff_exists'.mp hsome
  obtain ⟨gap', first', hlength', hloop⟩ :=
    trimLoop_move hrest [c] gap rest next rest.length
  refine ⟨gap', first', hlength'.trans hlength, ?_⟩
  have hget : (blank ++ (c :: q ++ NUL :: rest))[blank.length]? = some c :=
    getElem?_append_cons rfl c (q ++ NUL :: rest)
  have hsteps : (c :: q).length + 1 + rest.length = q.length + 1 + rest.length + 1 := by
    rw [List.length_cons]
    omega
  have hindex : blank.length + 1 = ([c] ++ gap).length := by
    simp only [List.length_append, List.length_singleton, hlength]
    omega
  have hone : some ([] ++ [c]).length = some ([c].rdropWhile isspace).length := by
    simp [List.rdropWhile_singleton, hspace]
  rw [if_neg (by simp [hspace]), hone] at hchar
  rw [List.cons_append] at hget ⊢
  rw [List.nil_append, List.nil_append] at hchar
  rw [hsteps, trimLoop, hget]
  simp only [Option.bind_eq_bind, Option.bind_some, if_neg hne]
  have hchar' : trimChar blank.length c ⟨blank ++ c :: (q ++ NUL :: rest), 0, none, none⟩ = _ :=
    hchar
  rw [hchar', Option.bind_some, hindex]
  exact hloop

/-- In place the string becomes what the function on strings says; nothing behind its
old end is touched. -/
theorem locUtilTrimSpace_eq (hs : NUL ∉ s) (rest : List Char) :
    ∃ head, head.length = s.length ∧
      locUtilTrimSpace (s ++ NUL :: rest) = some (head ++ NUL :: rest) ∧
      stringAt (head ++ NUL :: rest) 0 = some (Config.locUtilTrimSpace s) := by
  let blank := s.takeWhile isspace
  have hblank : ∀ c ∈ blank, isspace c = true := fun c hc => List.mem_takeWhile_imp hc
  have hskip := trimLoop_blank hblank [] (s.dropWhile isspace ++ NUL :: rest)
    ((s.dropWhile isspace).length + 1 + rest.length)
  have hwhole : blank ++ s.dropWhile isspace = s := List.takeWhile_append_dropWhile
  have hparts : blank ++ (s.dropWhile isspace ++ NUL :: rest) = s ++ NUL :: rest := by
    rw [← List.append_assoc, hwhole]
  have hsteps : blank.length + ((s.dropWhile isspace).length + 1 + rest.length) =
      (s ++ NUL :: rest).length := by
    rw [← hparts]
    simp only [List.length_append, List.length_cons]
    omega
  rw [List.nil_append, List.nil_append, List.length_nil, hsteps] at hskip
  rw [locUtilTrimSpace, ← hparts]
  rw [← hparts] at hskip
  cases hcontent : s.dropWhile isspace with
  | nil =>
      rw [hcontent] at hskip hwhole
      rw [List.append_nil] at hwhole
      refine ⟨s, rfl, ?_, ?_⟩
      · have hget : (blank ++ ([] ++ NUL :: rest))[blank.length]? = some NUL :=
          getElem?_append_cons rfl NUL rest
        have hone : ([] : List Char).length + 1 + rest.length = rest.length + 1 := by
          rw [List.length_nil]
          omega
        rw [hskip, hone, trimLoop, hget]
        simp [hwhole]
      · rw [stringAt_zero hs, Config.locUtilTrimSpace, hcontent]
  | cons c q =>
      have hmem : c ∈ s.dropWhile isspace := by
        rw [hcontent]
        exact List.mem_cons_self
      have hspace : isspace c = false := Fields.eq_false_of_dropWhile hcontent
      have hNUL : NUL ∉ c :: q := by
        rw [← hcontent]
        exact fun h => hs ((List.dropWhile_suffix _).subset h)
      obtain ⟨gap, first, hlength, hloop⟩ := trimLoop_content blank hspace hNUL rest
      have hc : c ∈ s := (List.dropWhile_suffix _).subset hmem
      rw [hcontent] at hskip hwhole
      obtain ⟨tail, htail⟩ := List.rdropWhile_prefix (l := c :: q) isspace
      have hstrip : (c :: q).rdropWhile isspace = strip s := by rw [strip, hcontent]
      rw [hstrip] at hloop htail
      have hclean : NUL ∉ strip s := by
        rw [← htail] at hNUL
        exact fun h => hNUL (List.mem_append_left _ h)
      obtain ⟨head, hhead, hwrite, hstring⟩ := write_end hclean (tail ++ gap) rest
      have hbuf : strip s ++ (tail ++ gap ++ NUL :: rest) = c :: q ++ (gap ++ NUL :: rest) := by
        rw [← htail]
        simp
      refine ⟨head, ?_, ?_, ?_⟩
      · rw [hhead, ← List.append_assoc, htail, List.length_append, hlength, ← hwhole,
          List.length_append, Nat.add_comm]
      · rw [hskip, hloop, ← hwrite, hbuf]
        rfl
      · rw [trimSpace_eq_strip hc hspace]
        exact hstring

end Left

end Msm8916.Utils
