import Mathlib.Algebra.Ring.Int.Defs
import Mathlib.Data.List.DropRight
import Mathlib.Data.List.TakeWhile
import Msm8916.Lib.Fields

/-!
Functions of the C library on strings. A string is the list of its characters
without the terminating one; none of them is NUL.
-/

namespace Msm8916.CString

open Fields

/-- The string `strlcpy` leaves in a buffer of `size` characters. -/
def strlcpy (src : List Char) (size : Nat) : List Char := src.take (size - 1)

/-- `isspace` in the C locale. -/
def isspace (c : Char) : Bool := c ∈ [' ', '\t', '\n', '\x0b', '\x0c', '\r']

/-- One call of `strtok_r` with one delimiter: the token and what is left for the
next call, or nothing when only delimiters are left. -/
def strtok (delim : Char) (str : List Char) : Option (List Char × List Char) :=
  match str.dropWhile (· == delim) with
  | [] => none
  | first :: rest =>
      some ((first :: rest).takeWhile (· != delim), ((first :: rest).dropWhile (· != delim)).drop 1)

/-- All tokens, call after call. -/
def tokensFrom (delim : Char) : Nat → List Char → List (List Char)
  | 0, _ => []
  | calls + 1, str =>
      match strtok delim str with
      | none => []
      | some (token, rest) => token :: tokensFrom delim calls rest

/-- A call that finds a token takes a character at least. -/
def tokens (delim : Char) (str : List Char) : List (List Char) :=
  tokensFrom delim str.length str

/-- One call of `fgets` with a buffer of `room + 1` characters: what it reads and
what is left of the file. -/
def fgetsLine : Nat → List Char → List Char × List Char
  | 0, file => ([], file)
  | _ + 1, [] => ([], [])
  | room + 1, c :: file =>
      if c = '\n' then
        ([c], file)
      else
        let (line, rest) := fgetsLine room file
        (c :: line, rest)

/-- What `fgets` reads call after call until the end of the file. -/
def fgetsFrom (size : Nat) : Nat → List Char → List (List Char)
  | 0, _ => []
  | calls + 1, file =>
      match file with
      | [] => []
      | _ :: _ =>
          let (line, rest) := fgetsLine (size - 1) file
          line :: fgetsFrom size calls rest

def fgetsAll (size : Nat) (file : List Char) : List (List Char) :=
  fgetsFrom size file.length file

/-- The lines of a text, each with the newline that ends it. -/
def physicalLines : List Char → List (List Char)
  | [] => []
  | c :: text =>
      if c = '\n' then
        [c] :: physicalLines text
      else
        match physicalLines text with
        | [] => [[c]]
        | line :: lines => (c :: line) :: lines

theorem physicalLines_eq_nil {text : List Char} (h : physicalLines text = []) : text = [] := by
  cases text with
  | nil => rfl
  | cons c text =>
      rw [physicalLines] at h
      split at h
      · cases h
      · split at h
        · cases h
        · cases h

/-- A call whose buffer has room for the line reads that line. -/
theorem fgetsLine_eq {room : Nat} {file line : List Char} {lines : List (List Char)}
    (hlines : physicalLines file = line :: lines) (hroom : line.length ≤ room) :
    ∃ rest, fgetsLine room file = (line, rest) ∧ physicalLines rest = lines ∧
      rest.length < file.length := by
  induction file generalizing room line with
  | nil => cases hlines
  | cons c text ih =>
      rw [physicalLines] at hlines
      split at hlines
      · rename_i hc
        obtain ⟨rfl, rfl⟩ := List.cons.inj hlines
        cases room with
        | zero => cases hroom
        | succ room => exact ⟨text, by rw [fgetsLine, if_pos hc], rfl, Nat.lt_succ_self _⟩
      · rename_i hc
        split at hlines
        · rename_i hnil
          obtain ⟨rfl, rfl⟩ := List.cons.inj hlines
          obtain rfl := physicalLines_eq_nil hnil
          cases room with
          | zero => cases hroom
          | succ room =>
              refine ⟨[], ?_, rfl, Nat.zero_lt_one⟩
              cases room <;> simp [fgetsLine, hc]
        · rename_i line' lines' heq
          obtain ⟨rfl, rfl⟩ := List.cons.inj hlines
          cases room with
          | zero => cases hroom
          | succ room =>
              obtain ⟨rest, hline, hrest, hlength⟩ := ih heq (Nat.le_of_succ_le_succ hroom)
              refine ⟨rest, ?_, hrest, Nat.lt_succ_of_lt hlength⟩
              rw [fgetsLine, if_neg hc, hline]

/-- A call whose buffer has not takes as much of the line as it has room for. -/
theorem fgetsLine_cut {room : Nat} {file line : List Char} {lines : List (List Char)}
    (hlines : physicalLines file = line :: lines) (hroom : room < line.length) :
    ∃ rest, fgetsLine room file = (line.take room, rest) ∧
      physicalLines rest = line.drop room :: lines ∧ rest.length + room = file.length := by
  induction file generalizing room line with
  | nil => cases hlines
  | cons c text ih =>
      cases room with
      | zero => exact ⟨c :: text, rfl, hlines, rfl⟩
      | succ room =>
          rw [physicalLines] at hlines
          split at hlines
          · obtain ⟨rfl, rfl⟩ := List.cons.inj hlines
            exact absurd hroom (by simp)
          · rename_i hc
            split at hlines
            · obtain ⟨rfl, rfl⟩ := List.cons.inj hlines
              exact absurd hroom (by simp)
            · rename_i line' lines' heq
              obtain ⟨rfl, rfl⟩ := List.cons.inj hlines
              obtain ⟨rest, hline, hrest, hlength⟩ := ih heq (Nat.lt_of_succ_lt_succ hroom)
              refine ⟨rest, ?_, hrest, by rw [List.length_cons]; omega⟩
              rw [fgetsLine, if_neg hc, hline]
              rfl

/-- A line in pieces of `room` characters, and what is left. -/
def pieces (room : Nat) (line : List Char) : List (List Char) :=
  (List.range ((line.length + room - 1) / room)).map fun k => (line.drop (k * room)).take room

theorem pieces_cons {room : Nat} (hroom : 0 < room) {line : List Char} (hline : line ≠ []) :
    pieces room line = line.take room :: pieces room (line.drop room) := by
  have hpos := List.length_pos_iff.mpr hline
  have hcount : (line.length + room - 1) / room =
      ((line.drop room).length + room - 1) / room + 1 := by
    have hfirst : line.length + room - 1 = line.length - 1 + room := by omega
    rw [hfirst, Nat.add_div_right _ hroom, List.length_drop]
    rcases Nat.lt_or_ge line.length room with hlt | hge
    · rw [Nat.div_eq_of_lt (by omega), Nat.div_eq_of_lt (by omega)]
    · have hrest : line.length - room + room - 1 = line.length - 1 := by omega
      rw [hrest]
  rw [pieces, hcount, List.range_succ_eq_map, List.map_cons, List.map_map, Nat.zero_mul,
    List.drop_zero, pieces]
  congr 1
  apply List.map_congr_left
  intro k _
  simp only [Function.comp_apply, List.drop_drop, Nat.succ_mul]
  rw [Nat.add_comm]

theorem pieces_of_le {room : Nat} {line : List Char} (hline : line ≠ [])
    (hfits : line.length ≤ room) : pieces room line = [line] := by
  have hroom : 0 < room := Nat.lt_of_lt_of_le (List.length_pos_iff.mpr hline) hfits
  have hnil : pieces room [] = [] := by
    rw [pieces, List.length_nil, Nat.zero_add, Nat.div_eq_of_lt (by omega), List.range_zero,
      List.map_nil]
  rw [pieces_cons hroom hline, List.take_of_length_le hfits, List.drop_of_length_le hfits, hnil]

theorem ne_nil_of_mem_physicalLines {text line : List Char} (h : line ∈ physicalLines text) :
    line ≠ [] := by
  induction text generalizing line with
  | nil => cases h
  | cons c text ih =>
      rw [physicalLines] at h
      split at h
      · rcases List.mem_cons.mp h with rfl | hrest
        · exact List.cons_ne_nil _ _
        · exact ih hrest
      · split at h
        · rw [List.mem_singleton.mp h]
          exact List.cons_ne_nil _ _
        · rename_i first lines heq
          rcases List.mem_cons.mp h with rfl | hrest
          · exact List.cons_ne_nil _ _
          · exact ih (by rw [heq]; exact List.mem_cons_of_mem _ hrest)

/-- The calls read the lines one after the other, each in pieces. -/
theorem fgetsAll_eq {room : Nat} (hroom : 0 < room) (text : List Char) :
    fgetsAll (room + 1) text = (physicalLines text).flatMap (pieces room) := by
  have hcalls : ∀ calls file, file.length ≤ calls →
      fgetsFrom (room + 1) calls file = (physicalLines file).flatMap (pieces room) := by
    intro calls
    induction calls with
    | zero =>
        intro file hlength
        obtain rfl := List.length_eq_zero_iff.mp (Nat.le_zero.mp hlength)
        rfl
    | succ calls ih =>
        intro file hlength
        cases file with
        | nil => rfl
        | cons c text =>
            cases hlines : physicalLines (c :: text) with
            | nil => cases physicalLines_eq_nil hlines
            | cons line lines =>
                have hline : line ≠ [] :=
                  ne_nil_of_mem_physicalLines (by rw [hlines]; exact List.mem_cons_self)
                rcases Nat.lt_or_ge room line.length with hcut | hfits
                · obtain ⟨rest, hread, hrest, hless⟩ := fgetsLine_cut hlines hcut
                  rw [fgetsFrom, Nat.add_sub_cancel, hread]
                  dsimp only
                  rw [ih rest (by omega), hrest, List.flatMap_cons, List.flatMap_cons,
                    pieces_cons hroom hline, List.cons_append]
                · obtain ⟨rest, hread, hrest, hless⟩ := fgetsLine_eq hlines hfits
                  rw [fgetsFrom, Nat.add_sub_cancel, hread]
                  dsimp only
                  rw [ih rest (by omega), hrest, List.flatMap_cons, pieces_of_le hline hfits,
                    List.singleton_append]
  exact hcalls text.length text (Nat.le_refl _)

/-- When every line fits into the buffer, the calls read the text line by line. -/
theorem fgetsAll_of_short {size : Nat} {text : List Char}
    (h : ∀ line ∈ physicalLines text, line.length < size) :
    fgetsAll size text = physicalLines text := by
  cases text with
  | nil => rfl
  | cons c text =>
      obtain ⟨line, lines, hlines⟩ : ∃ line lines, physicalLines (c :: text) = line :: lines := by
        apply List.exists_cons_of_ne_nil
        exact fun hnil => nomatch physicalLines_eq_nil hnil
      have hfirst : line ∈ physicalLines (c :: text) := by
        rw [hlines]
        exact List.mem_cons_self
      have hpos := List.length_pos_iff.mpr (ne_nil_of_mem_physicalLines hfirst)
      have hsize := h line hfirst
      obtain ⟨room, rfl⟩ : ∃ room, size = room + 1 := ⟨size - 1, by omega⟩
      rw [fgetsAll_eq (by omega)]
      have hall : (physicalLines (c :: text)).flatMap (pieces room) =
          (physicalLines (c :: text)).flatMap fun line => [line] := by
        apply List.flatMap_congr
        intro line hline
        exact pieces_of_le (ne_nil_of_mem_physicalLines hline) (Nat.le_of_lt_succ (h line hline))
      rw [hall, List.flatMap_singleton']

/-! ## Tokens and fields -/

/-- Delimiters at the start are skipped. -/
theorem strtok_dropWhile (delim : Char) (str : List Char) :
    strtok delim (str.dropWhile (· == delim)) = strtok delim str := by
  rw [strtok, strtok, List.dropWhile_idempotent]

section Token

variable {delim c : Char} {token : List Char}

theorem dropWhile_token (h : delim ∉ c :: token) (rest : List Char) :
    (c :: token ++ rest).dropWhile (· == delim) = c :: (token ++ rest) := by
  have hne : c ≠ delim := fun heq => h (heq ▸ List.mem_cons_self)
  exact List.dropWhile_cons_of_neg (by simpa using hne)

theorem bne_of_mem_token (h : delim ∉ c :: token) : ∀ d ∈ c :: token, (d != delim) = true :=
  fun _ hd => bne_iff_ne.mpr fun heq => h (heq ▸ hd)

/-- A token that a delimiter ends. -/
theorem strtok_token (h : delim ∉ c :: token) (rest : List Char) :
    strtok delim (c :: token ++ delim :: rest) = some (c :: token, rest) := by
  have hall := bne_of_mem_token h
  rw [strtok, dropWhile_token h]
  change some ((c :: token ++ delim :: rest).takeWhile (· != delim),
    ((c :: token ++ delim :: rest).dropWhile (· != delim)).drop 1) = _
  rw [List.takeWhile_append_of_pos hall, List.dropWhile_append_of_pos hall]
  simp

/-- A token that the end of the string ends. -/
theorem strtok_last (h : delim ∉ c :: token) :
    strtok delim (c :: token) = some (c :: token, []) := by
  have hall := bne_of_mem_token h
  have hstart := dropWhile_token h []
  rw [List.append_nil, List.append_nil] at hstart
  rw [strtok, hstart]
  change some ((c :: token).takeWhile (· != delim),
    ((c :: token).dropWhile (· != delim)).drop 1) = _
  rw [List.takeWhile_eq_self_iff.mpr hall, List.dropWhile_eq_nil_iff.mpr hall]
  rfl

/-- A string that does not start with a delimiter starts with a token. -/
theorem exists_token (hc : c ≠ delim) (rest : List Char) :
    ∃ token, delim ∉ c :: token ∧ (rest = token ∨ ∃ more, rest = token ++ delim :: more) := by
  have hparts : rest.takeWhile (· != delim) ++ rest.dropWhile (· != delim) = rest :=
    List.takeWhile_append_dropWhile
  refine ⟨rest.takeWhile (· != delim), ?_, ?_⟩
  · intro h
    rcases List.mem_cons.mp h with heq | hmem
    · exact hc heq.symm
    · have hne := List.mem_takeWhile_imp hmem
      exact bne_iff_ne.mp hne rfl
  · cases hmore : rest.dropWhile (· != delim) with
    | nil =>
        rw [hmore, List.append_nil] at hparts
        exact .inl hparts.symm
    | cons d more =>
        have hd : d = delim := by simpa using eq_false_of_dropWhile hmore
        rw [hmore, hd] at hparts
        exact .inr ⟨more, hparts.symm⟩

end Token

/-- A character more behind a string makes a token of its own, or the last token longer, or what
is left. -/
theorem strtok_append {delim d : Char} (hd : d ≠ delim) (str : List Char) :
    (strtok delim str = none ∧ strtok delim (str ++ [d]) = some ([d], [])) ∨
      (∃ token, strtok delim str = some (token, []) ∧
        strtok delim (str ++ [d]) = some (token ++ [d], [])) ∨
      ∃ token rest, strtok delim str = some (token, rest) ∧
        strtok delim (str ++ [d]) = some (token, rest ++ [d]) := by
  have hsingle : delim ∉ [d] := fun h => hd (List.mem_singleton.mp h).symm
  rw [← strtok_dropWhile delim str, ← strtok_dropWhile delim (str ++ [d]), List.dropWhile_append]
  cases hstart : str.dropWhile (· == delim) with
  | nil =>
      rw [List.isEmpty_nil, if_pos rfl, strtok_dropWhile]
      exact .inl ⟨rfl, strtok_last hsingle⟩
  | cons c rest =>
      have hc : c ≠ delim := by simpa using eq_false_of_dropWhile hstart
      rw [List.isEmpty_cons, if_neg Bool.false_ne_true]
      obtain ⟨token, hclean, rfl | ⟨more, rfl⟩⟩ := exists_token hc rest
      · have hlonger : delim ∉ c :: (rest ++ [d]) := by
          rw [← List.cons_append]
          exact fun h => (List.mem_append.mp h).elim hclean hsingle
        exact .inr (.inl ⟨c :: rest, strtok_last hclean, strtok_last hlonger⟩)
      · have hmore : c :: (token ++ delim :: more) ++ [d] =
            c :: token ++ delim :: (more ++ [d]) := by
          simp
        rw [hmore]
        exact .inr (.inr ⟨c :: token, more, strtok_token hclean more, strtok_token hclean _⟩)

/-- Separators at the start make empty fields. -/
theorem filter_splitOn_dropWhile (delim : Char) (str : List Char) :
    ((str.dropWhile (· == delim)).splitOn delim).filter (· ≠ []) =
      (str.splitOn delim).filter (· ≠ []) := by
  induction str with
  | nil => rfl
  | cons c str ih =>
      by_cases hc : c = delim
      · subst hc
        rw [List.dropWhile_cons_of_pos (p := (· == c)) BEq.rfl, ih, splitOn_cons_self]
        rfl
      · rw [List.dropWhile_cons_of_neg (by simpa using hc)]

/-- The tokens of a string are its fields that are not empty. -/
theorem tokens_eq (delim : Char) (str : List Char) :
    tokens delim str = (str.splitOn delim).filter (· ≠ []) := by
  have hcalls : ∀ calls str, str.length ≤ calls →
      tokensFrom delim calls str = (str.splitOn delim).filter (· ≠ []) := by
    intro calls
    induction calls with
    | zero =>
        intro str hlength
        obtain rfl := List.length_eq_zero_iff.mp (Nat.le_zero.mp hlength)
        rfl
    | succ calls ih =>
        intro str hlength
        have hsuffix := (List.dropWhile_suffix (l := str) (· == delim)).length_le
        rw [tokensFrom, ← strtok_dropWhile, ← filter_splitOn_dropWhile]
        cases hstart : str.dropWhile (· == delim) with
        | nil => rfl
        | cons c rest =>
            have hc : c ≠ delim := by simpa using eq_false_of_dropWhile hstart
            rw [hstart, List.length_cons] at hsuffix
            obtain ⟨token, hclean, rfl | ⟨more, rfl⟩⟩ := exists_token hc rest
            · rw [strtok_last hclean, List.splitOn_eq_singleton hclean]
              dsimp only
              rw [ih [] (Nat.zero_le _)]
              rfl
            · rw [List.length_append, List.length_cons] at hsuffix
              rw [← List.cons_append, strtok_token hclean,
                List.splitOn_append_cons_self_of_not_mem hclean]
              dsimp only
              rw [ih more (by omega)]
              rfl
  exact hcalls str.length str (Nat.le_refl _)

/-- The lines of a text are its fields, each with a newline, but for the last, which is no line
if it is empty. -/
theorem physicalLines_eq (text : List Char) :
    ∃ fields last, text.splitOn '\n' = fields ++ [last] ∧
      physicalLines text =
        fields.map (· ++ ['\n']) ++ if last = [] then [] else [last] := by
  induction text with
  | nil => exact ⟨[], [], rfl, rfl⟩
  | cons c text ih =>
      obtain ⟨fields, last, hsplit, hlines⟩ := ih
      by_cases hc : c = '\n'
      · subst hc
        refine ⟨[] :: fields, last, ?_, ?_⟩
        · rw [splitOn_cons_self, hsplit, List.cons_append]
        · rw [physicalLines, if_pos rfl, hlines]
          rfl
      · obtain ⟨field, rest, hfirst, hcons⟩ := splitOn_cons_ne hc text
        rw [hfirst] at hsplit
        cases fields with
        | nil =>
            obtain ⟨rfl, rfl⟩ := List.cons.inj hsplit
            refine ⟨[], c :: field, hcons, ?_⟩
            rw [physicalLines, if_neg hc, hlines, if_neg (List.cons_ne_nil c field)]
            by_cases hfield : field = []
            · simp [hfield]
            · simp [hfield]
        | cons first fields =>
            obtain ⟨rfl, rfl⟩ := List.cons.inj hsplit
            refine ⟨(c :: field) :: fields, last, hcons, ?_⟩
            rw [physicalLines, if_neg hc, hlines]
            rfl

/-- What is made of the lines of a text is made of its fields, if it is made of each line and of
the line without its newline alike. -/
theorem filterMap_physicalLines {β : Type*} {make : List Char → Option β} (hnil : make [] = none)
    {text : List Char}
    (hmake : ∀ line, line ++ ['\n'] ∈ physicalLines text → make (line ++ ['\n']) = make line) :
    (physicalLines text).filterMap make = (text.splitOn '\n').filterMap make := by
  obtain ⟨fields, last, hsplit, hlines⟩ := physicalLines_eq text
  have hfields : (fields.map (· ++ ['\n'])).filterMap make = fields.filterMap make := by
    rw [List.filterMap_map]
    apply List.filterMap_congr
    intro line hline
    apply hmake line
    rw [hlines]
    exact List.mem_append_left _ (List.mem_map_of_mem hline)
  rw [hsplit, hlines, List.filterMap_append, List.filterMap_append, hfields]
  by_cases hlast : last = []
  · simp [hlast, hnil]
  · rw [if_neg hlast]

/-! ## Characters -/

/-- `strchr`: what stands before the first such character, and what after it. -/
def strchr (c : Char) : List Char → Option (List Char × List Char)
  | [] => none
  | d :: str =>
      if d = c then some ([], str)
      else (strchr c str).map fun parts => (d :: parts.1, parts.2)

theorem strchr_eq_none {c : Char} {str : List Char} (h : strchr c str = none) : c ∉ str := by
  induction str with
  | nil => exact List.not_mem_nil
  | cons d str ih =>
      rw [strchr] at h
      split at h
      · cases h
      · rename_i hne
        exact List.not_mem_cons_of_ne_of_not_mem (Ne.symm hne) (ih (Option.map_eq_none_iff.mp h))

theorem strchr_eq_some {c : Char} {str before after : List Char}
    (h : strchr c str = some (before, after)) : str = before ++ c :: after ∧ c ∉ before := by
  induction str generalizing before with
  | nil => cases h
  | cons d str ih =>
      rw [strchr] at h
      split at h
      · rename_i heq
        obtain ⟨rfl, rfl⟩ := Prod.mk.inj (Option.some.inj h)
        exact ⟨by rw [heq, List.nil_append], List.not_mem_nil⟩
      · rename_i hne
        obtain ⟨⟨before', after'⟩, hparts, heq⟩ := Option.map_eq_some_iff.mp h
        obtain ⟨rfl, rfl⟩ := Prod.mk.inj heq
        obtain ⟨hstr, hclean⟩ := ih hparts
        exact ⟨by rw [hstr, List.cons_append],
          List.not_mem_cons_of_ne_of_not_mem (Ne.symm hne) hclean⟩

theorem strchr_append {c : Char} {before : List Char} (h : c ∉ before) (after : List Char) :
    strchr c (before ++ c :: after) = some (before, after) := by
  induction before with
  | nil => exact if_pos rfl
  | cons d before ih =>
      obtain ⟨hne, hbefore⟩ := List.ne_and_not_mem_of_not_mem_cons h
      rw [List.cons_append, strchr, if_neg (Ne.symm hne), ih hbefore]
      rfl

theorem strchr_of_not_mem {c : Char} {str : List Char} (h : c ∉ str) : strchr c str = none := by
  cases hparts : strchr c str with
  | none => rfl
  | some parts =>
      obtain ⟨hstr, _⟩ := strchr_eq_some hparts
      exact absurd (hstr ▸ List.mem_append_right _ List.mem_cons_self) h

/-! ## Numbers -/

/-- The value of a character as a digit; digits above nine are letters of either
case. -/
def digitValue (c : Char) : Option Nat :=
  if '0' ≤ c ∧ c ≤ '9' then some (c.toNat - '0'.toNat)
  else if 'a' ≤ c.toLower ∧ c.toLower ≤ 'z' then some (c.toLower.toNat - 'a'.toNat + 10)
  else none

/-- The number that the leading digits of a string make up. -/
def readDigits (base : Nat) : Nat → List Char → Nat
  | value, [] => value
  | value, c :: rest =>
      match digitValue c with
      | some digit => if digit < base then readDigits base (value * base + digit) rest else value
      | none => value

def longMax : Int := 2 ^ 63 - 1

/-- `strtol` for a `long` of 64 bits: blanks, a sign, for base 16 a prefix, and
digits; out of range it saturates. -/
def strtol (base : Nat) (str : List Char) : Int :=
  let unsigned (digits : List Char) : Int :=
    match base, digits with
    | 16, '0' :: 'x' :: rest => readDigits 16 0 rest
    | 16, '0' :: 'X' :: rest => readDigits 16 0 rest
    | base, digits => readDigits base 0 digits
  match str.dropWhile isspace with
  | '-' :: digits => max (-longMax - 1) (-(unsigned digits))
  | '+' :: digits => min longMax (unsigned digits)
  | digits => min longMax (unsigned digits)

/-- The low 32 bits of a `long` that is cast to `int`. -/
def toInt32Bits (value : Int) : UInt32 := UInt32.ofNat (value % 2 ^ 32).toNat

def atoi (str : List Char) : UInt32 := toInt32Bits (strtol 10 str)

end Msm8916.CString
