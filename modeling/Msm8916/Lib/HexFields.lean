import Msm8916.Lib.CString

/-!
Hexadecimal fields of at most two characters, as `sscanf` reads them with the directive
`%02hhx`: blanks are skipped, and a field is two digits, a sign and a digit, or a digit
before something that is none. On the prefix `0x`, which has no room for a digit, libraries
differ. The end of a list of characters is the end of the string.
-/

namespace Msm8916.HexFields

open CString

/-- The value of a hexadecimal digit. -/
def hexValue (c : Char) : Option Nat := (digitValue c).filter (· < 16)

/-- What a C library makes of a field that is only the prefix `0x`: no number, or a zero behind
which the letter is left, or a zero that takes the letter. -/
inductive BarePrefix where
  | refused
  | letterLeft
  | letterTaken

/-- The field of a zero and that letter, and what is left after it. -/
def BarePrefix.item : BarePrefix → Char → List Char → Option (UInt8 × List Char)
  | .refused, _, _ => none
  | .letterLeft, letter, rest => some (0, letter :: rest)
  | .letterTaken, _, rest => some (0, rest)

/-- One field and what is left after it. -/
def scanItem (bare : BarePrefix) : List Char → Option (UInt8 × List Char)
  | [] => none
  | '+' :: d :: rest => (hexValue d).map fun value => (UInt8.ofNat value, rest)
  | '-' :: d :: rest => (hexValue d).map fun value => (0 - UInt8.ofNat value, rest)
  | [c] => (hexValue c).map fun value => (UInt8.ofNat value, [])
  | c :: d :: rest =>
      match hexValue c, hexValue d with
      | none, _ => none
      | some high, some low => some (UInt8.ofNat (16 * high + low), rest)
      | some value, none =>
          if c = '0' ∧ (d = 'x' ∨ d = 'X') then bare.item d rest
          else some (UInt8.ofNat value, d :: rest)

/-- The values of the first fields, up to the first that fails. -/
def scanFields (bare : BarePrefix) : Nat → List Char → List UInt8
  | 0, _ => []
  | n + 1, text =>
      match scanItem bare (text.dropWhile isspace) with
      | none => []
      | some (value, rest) => value :: scanFields bare n rest

/-- A text starts with a field, whatever may follow the text. -/
inductive HexItem (bare : BarePrefix) : List Char → UInt8 → List Char → Prop
  | pair {c d : Char} {high low : Nat} (hc : hexValue c = some high)
      (hd : hexValue d = some low) (rest : List Char) :
      HexItem bare (c :: d :: rest) (UInt8.ofNat (16 * high + low)) rest
  | plus {d : Char} {value : Nat} (hd : hexValue d = some value) (rest : List Char) :
      HexItem bare ('+' :: d :: rest) (UInt8.ofNat value) rest
  | minus {d : Char} {value : Nat} (hd : hexValue d = some value) (rest : List Char) :
      HexItem bare ('-' :: d :: rest) (0 - UInt8.ofNat value) rest
  | single {c d : Char} {value : Nat} (hc : hexValue c = some value) (hd : hexValue d = none)
      (hmarker : ¬ (c = '0' ∧ (d = 'x' ∨ d = 'X'))) (rest : List Char) :
      HexItem bare (c :: d :: rest) (UInt8.ofNat value) (d :: rest)
  | letterLeft {d : Char} (hbare : bare = .letterLeft) (hd : d = 'x' ∨ d = 'X')
      (rest : List Char) : HexItem bare ('0' :: d :: rest) 0 (d :: rest)
  | letterTaken {d : Char} (hbare : bare = .letterTaken) (hd : d = 'x' ∨ d = 'X')
      (rest : List Char) : HexItem bare ('0' :: d :: rest) 0 rest

/-- A text starts with fields of these values, with blanks between them. -/
inductive HexText (bare : BarePrefix) : List Char → List UInt8 → Prop
  | nil (text : List Char) : HexText bare text []
  | cons {blanks text rest : List Char} {value : UInt8} {values : List UInt8}
      (hblanks : ∀ c ∈ blanks, isspace c = true) (hitem : HexItem bare text value rest)
      (hrest : HexText bare rest values) : HexText bare (blanks ++ text) (value :: values)

variable {bare : BarePrefix}

theorem length_scanFields_le (n : Nat) (text : List Char) :
    (scanFields bare n text).length ≤ n := by
  induction n generalizing text with
  | zero => exact Nat.le_refl _
  | succ n ih =>
      rw [scanFields]
      split
      · exact Nat.zero_le _
      · exact Nat.succ_le_succ (ih _)

theorem hexValue_sign {c : Char} {value : Nat} (h : hexValue c = some value) :
    c ≠ '+' ∧ c ≠ '-' := by
  have hplus : hexValue '+' = none := by decide
  have hminus : hexValue '-' = none := by decide
  constructor
  · rintro rfl
    cases hplus.symm.trans h
  · rintro rfl
    cases hminus.symm.trans h

theorem hexValue_lt {c : Char} {value : Nat} (h : hexValue c = some value) : value < 16 := by
  have hfilter := (Option.filter_eq_some_iff.mp h).2
  simpa using hfilter

/-- Two characters that do not start with a sign. -/
theorem scanItem_cons_cons {c : Char} (hplus : c ≠ '+') (hminus : c ≠ '-') (d : Char)
    (rest : List Char) :
    scanItem bare (c :: d :: rest) =
      match hexValue c, hexValue d with
      | none, _ => none
      | some high, some low => some (UInt8.ofNat (16 * high + low), rest)
      | some value, none =>
          if c = '0' ∧ (d = 'x' ∨ d = 'X') then bare.item d rest
          else some (UInt8.ofNat value, d :: rest) := by
  unfold scanItem
  split
  · exact absurd ‹_› (List.cons_ne_nil _ _)
  · rename_i heq
    exact absurd (List.cons.inj heq).1 hplus
  · rename_i heq
    exact absurd (List.cons.inj heq).1 hminus
  · rename_i heq
    exact absurd (List.cons.inj heq).2 (List.cons_ne_nil _ _)
  · rename_i heq
    obtain ⟨rfl, htail⟩ := List.cons.inj heq
    obtain ⟨rfl, rfl⟩ := List.cons.inj htail
    rfl

/-- The prefix alone. -/
theorem scanItem_zeroX {d : Char} (hd : d = 'x' ∨ d = 'X') (rest : List Char) :
    scanItem bare ('0' :: d :: rest) = bare.item d rest := by
  have hzero : hexValue '0' = some 0 := by decide
  have hletter : hexValue d = none := by
    rcases hd with rfl | rfl
    · decide
    · decide
  rw [scanItem_cons_cons (by decide) (by decide), hzero, hletter]
  exact if_pos ⟨rfl, hd⟩

/-- What stands behind a field does not matter. -/
theorem HexItem.scanItem_append {text rest : List Char} {value : UInt8}
    (h : HexItem bare text value rest) (more : List Char) :
    scanItem bare (text ++ more) = some (value, rest ++ more) := by
  cases h with
  | pair hc hd =>
      obtain ⟨hplus, hminus⟩ := hexValue_sign hc
      rw [List.cons_append, List.cons_append, scanItem_cons_cons hplus hminus, hc, hd]
  | plus hd =>
      rw [List.cons_append, List.cons_append, scanItem, hd]
      rfl
  | minus hd =>
      rw [List.cons_append, List.cons_append, scanItem, hd]
      rfl
  | single hc hd hmarker =>
      obtain ⟨hplus, hminus⟩ := hexValue_sign hc
      rw [List.cons_append, List.cons_append, scanItem_cons_cons hplus hminus, hc, hd]
      exact if_neg hmarker
  | letterLeft hbare hd =>
      rw [List.cons_append, List.cons_append, scanItem_zeroX hd, hbare]
      rfl
  | letterTaken hbare hd =>
      rw [List.cons_append, List.cons_append, scanItem_zeroX hd, hbare]
      rfl

theorem HexItem.append {text rest : List Char} {value : UInt8} (h : HexItem bare text value rest)
    (more : List Char) : HexItem bare (text ++ more) value (rest ++ more) := by
  cases h with
  | pair hc hd => exact .pair hc hd _
  | plus hd => exact .plus hd _
  | minus hd => exact .minus hd _
  | single hc hd hmarker => exact .single hc hd hmarker _
  | letterLeft hbare hd => exact .letterLeft hbare hd _
  | letterTaken hbare hd => exact .letterTaken hbare hd _

/-- The first character of a field is no blank. -/
theorem HexItem.head {text rest : List Char} {value : UInt8} (h : HexItem bare text value rest) :
    ∃ c tail, text = c :: tail ∧ isspace c = false := by
  have hdigit : ∀ {c : Char} {value : Nat}, hexValue c = some value → isspace c = false := by
    intro c value hc
    by_contra hspace
    have hblank : c ∈ [' ', '\t', '\n', '\x0b', '\x0c', '\r'] :=
      of_decide_eq_true (eq_true_of_ne_false hspace)
    have hall :
        ([' ', '\t', '\n', '\x0b', '\x0c', '\r'].all fun c => (hexValue c).isNone) = true := by
      decide
    have hnone := List.all_eq_true.mp hall c hblank
    rw [hc] at hnone
    cases hnone
  cases h with
  | pair hc _ rest => exact ⟨_, _, rfl, hdigit hc⟩
  | plus _ rest => exact ⟨_, _, rfl, by decide⟩
  | minus _ rest => exact ⟨_, _, rfl, by decide⟩
  | single hc _ _ rest => exact ⟨_, _, rfl, hdigit hc⟩
  | letterLeft _ _ rest => exact ⟨_, _, rfl, by decide⟩
  | letterTaken _ _ rest => exact ⟨_, _, rfl, by decide⟩

theorem HexText.append {text : List Char} {values : List UInt8} (h : HexText bare text values)
    (more : List Char) : HexText bare (text ++ more) values := by
  induction h with
  | nil text => exact .nil _
  | cons hblanks hitem _ ih =>
      rw [List.append_assoc]
      exact .cons hblanks (hitem.append more) ih

/-- Blanks are skipped. -/
theorem scanFields_skip {blanks : List Char} (hblanks : ∀ c ∈ blanks, isspace c = true) {c : Char}
    (hspace : isspace c = false) (n : Nat) (tail : List Char) :
    scanFields bare (n + 1) (blanks ++ c :: tail) =
      match scanItem bare (c :: tail) with
      | none => []
      | some (value, rest) => value :: scanFields bare n rest := by
  have hstart : (c :: tail).dropWhile isspace = c :: tail :=
    List.dropWhile_cons_of_neg (by simp [hspace])
  rw [scanFields, List.dropWhile_append_of_pos hblanks, hstart]

/-- Fields are read, whatever stands behind them. -/
theorem HexText.scanFields_append {text : List Char} {values : List UInt8}
    (h : HexText bare text values) (more : List Char) :
    scanFields bare values.length (text ++ more) = values := by
  induction h with
  | nil text => rfl
  | cons hblanks hitem _ ih =>
      obtain ⟨c, tail, rfl, hspace⟩ := hitem.head
      have hscan := hitem.scanItem_append more
      rw [List.cons_append] at hscan
      rw [List.length_cons, List.append_assoc, List.cons_append, scanFields_skip hblanks hspace,
        hscan]
      dsimp only
      rw [ih]

example : scanFields .refused 6 "1 2 3 4 -5aB".toList = [1, 2, 3, 4, 251, 171] := by decide

example : scanFields .letterLeft 6 "1 2 3 4 5 0x".toList = [1, 2, 3, 4, 5, 0] := by decide

/-- After a sign there is a digit, or no field. -/
theorem scanItem_sign {c : Char} (h : c = '+' ∨ c = '-') (tail : List Char) :
    (∃ value rest, HexItem bare (c :: tail) value rest) ∨ scanItem bare (c :: tail) = none := by
  cases tail with
  | nil =>
      rcases h with rfl | rfl
      · exact .inr rfl
      · exact .inr rfl
  | cons d rest =>
      cases hd : hexValue d with
      | none =>
          rcases h with rfl | rfl
          · exact .inr (by rw [scanItem, hd]; rfl)
          · exact .inr (by rw [scanItem, hd]; rfl)
      | some value =>
          rcases h with rfl | rfl
          · exact .inl ⟨_, _, .plus hd rest⟩
          · exact .inl ⟨_, _, .minus hd rest⟩

theorem scanItem_last (c : Char) :
    scanItem bare [c] = (hexValue c).map fun value => (UInt8.ofNat value, []) := by
  unfold scanItem
  split
  · exact absurd ‹_› (List.cons_ne_nil _ _)
  · exact absurd ‹_› (by simp)
  · exact absurd ‹_› (by simp)
  · rename_i heq
    rw [(List.cons.inj heq).1]
  · exact absurd ‹_› (by simp)

/-- At the start of a text there is a field, or none is read when the text ends there, or
the field is a digit at the end, whose value changes with what follows. -/
theorem scanItem_cases (c : Char) (tail : List Char) :
    (∃ value rest, HexItem bare (c :: tail) value rest) ∨ scanItem bare (c :: tail) = none ∨
      ∃ value value', scanItem bare (c :: tail) = some (value, []) ∧
        scanItem bare (c :: tail ++ ['f']) = some (value', []) ∧ value ≠ value' := by
  by_cases hsign : c = '+' ∨ c = '-'
  · rcases scanItem_sign hsign tail with hfield | hnone
    · exact .inl hfield
    · exact .inr (.inl hnone)
  · obtain ⟨hplus, hminus⟩ := not_or.mp hsign
    cases hc : hexValue c with
    | none =>
        refine .inr (.inl ?_)
        cases tail with
        | nil => rw [scanItem_last, hc, Option.map_none]
        | cons d rest => rw [scanItem_cons_cons hplus hminus, hc]
    | some value =>
        cases tail with
        | nil =>
            have hf : hexValue 'f' = some 15 := by decide
            have hne : ∀ value < 16, UInt8.ofNat value ≠ UInt8.ofNat (16 * value + 15) := by
              decide
            have hlast : scanItem bare [c] = some (UInt8.ofNat value, []) := by
              rw [scanItem_last, hc, Option.map_some]
            have hmore : scanItem bare [c, 'f'] = some (UInt8.ofNat (16 * value + 15), []) := by
              rw [scanItem_cons_cons hplus hminus, hc, hf]
            exact .inr (.inr ⟨_, _, hlast, hmore, hne value (hexValue_lt hc)⟩)
        | cons d rest =>
            cases hd : hexValue d with
            | some low => exact .inl ⟨_, _, .pair hc hd rest⟩
            | none =>
                by_cases hmarker : c = '0' ∧ (d = 'x' ∨ d = 'X')
                · obtain ⟨rfl, hletter⟩ := hmarker
                  cases bare with
                  | refused => exact .inr (.inl (scanItem_zeroX hletter rest))
                  | letterLeft => exact .inl ⟨_, _, .letterLeft rfl hletter rest⟩
                  | letterTaken => exact .inl ⟨_, _, .letterTaken rfl hletter rest⟩
                · exact .inl ⟨_, _, .single hc hd hmarker rest⟩

/-- Values that are read whatever stands behind the text are those of its fields. -/
theorem hexText_of_scanFields {text : List Char} {values : List UInt8}
    (h : ∀ more, scanFields bare values.length (text ++ more) = values) :
    HexText bare text values := by
  induction values generalizing text with
  | nil => exact .nil text
  | cons value values ih =>
      have hblanks : ∀ c ∈ text.takeWhile isspace, isspace c = true :=
        fun c hc => List.mem_takeWhile_imp hc
      have hparts : text.takeWhile isspace ++ text.dropWhile isspace = text :=
        List.takeWhile_append_dropWhile
      cases hdrop : text.dropWhile isspace with
      | nil =>
          have hnone := h []
          rw [List.append_nil, List.length_cons, scanFields, hdrop] at hnone
          cases hnone
      | cons c tail =>
          have hspace : isspace c = false := Msm8916.Fields.eq_false_of_dropWhile hdrop
          rw [hdrop] at hparts
          have hscan : ∀ more,
              (match scanItem bare (c :: tail ++ more) with
                | none => []
                | some (value, rest) => value :: scanFields bare values.length rest) =
                value :: values := by
            intro more
            have hmore := h more
            rw [← hparts, List.length_cons, List.append_assoc, List.cons_append,
              scanFields_skip hblanks hspace] at hmore
            exact hmore
          rcases scanItem_cases c tail with ⟨first, rest, hitem⟩ | hnone | ⟨v, v', hv, hv', hne⟩
          · have hall : ∀ more, first :: scanFields bare values.length (rest ++ more) =
                value :: values := by
              intro more
              rw [← hscan more, hitem.scanItem_append]
            obtain rfl := (List.cons.inj (hall [])).1
            rw [← hparts]
            exact .cons hblanks hitem (ih fun more => (List.cons.inj (hall more)).2)
          · have hend := hscan []
            rw [List.append_nil, hnone] at hend
            cases hend
          · have hend := hscan []
            have hdigit := hscan ['f']
            rw [List.append_nil, hv] at hend
            rw [hv'] at hdigit
            exact absurd ((List.cons.inj hend).1.trans (List.cons.inj hdigit).1.symm) hne

end Msm8916.HexFields
