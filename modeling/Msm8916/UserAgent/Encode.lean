import Mathlib.Data.List.Induction
import Msm8916.Lib.Buffer
import Msm8916.Lib.Percent

/-!
`LocSetXtraUserAgent::encodeInPlace` of `gps/loc_api/libloc_api_50001/LocEngAdapter.cpp`,
which encodes the parts of the user agent.
-/

namespace Msm8916.UserAgent

open Buffer CString Percent

/-! ## The code -/

/-- `ENCODE`. -/
structure Encode where
  ch : Char
  code : List Char

def encodings : List Encode :=
  [⟨'/', "%2F".toList⟩, ⟨'+', "%2B".toList⟩, ⟨'|', "%7C".toList⟩, ⟨'%', "%25".toList⟩]

def numCharsInCode : Nat := 3

/-- The sum of two values of type `int`, unless it overflows. -/
def addInt (x y : Nat) : Option Nat := if x + y < 2 ^ 31 then some (x + y) else none

/-- The loop over the characters of a code; the buffer starts uninitialized. -/
def copyCode (size : Nat) : List Char → (outpos : Nat) → List (Option Char) →
    Option (Nat × List (Option Char))
  | [], outpos, buffer => some (outpos, buffer)
  | c :: code, outpos, buffer =>
      if outpos < size - 1 then do
        let buffer ← write buffer outpos (some c)
        copyCode size code (outpos + 1) buffer
      else
        some (outpos, buffer)

/-- The main loop, over at most `remaining` characters. -/
def encodeLoop (value : List Char) (size : Nat) :
    (remaining inpos outpos : Nat) → List (Option Char) → Option (Nat × List (Option Char))
  | 0, _, _, _ => none
  | remaining + 1, inpos, outpos, buffer => do
      let c ← value[inpos]?
      if c ≠ NUL ∧ outpos < size - 1 then
        match encodings.find? (·.ch = c) with
        | none => do
            -- non escaped character
            let buffer ← write buffer outpos (some c)
            encodeLoop value size remaining (inpos + 1) (outpos + 1) buffer
        | some encoding => do
            -- escaped character
            let endpos ← addInt outpos numCharsInCode
            if endpos ≥ size then
              return (outpos, buffer)
            else
              let (outpos, buffer) ← copyCode size encoding.code outpos buffer
              encodeLoop value size remaining (inpos + 1) outpos buffer
      else
        return (outpos, buffer)

/-- The loop that copies the output back, from its end. -/
def copyBack (buffer : List (Option Char)) : (outpos : Nat) → List Char → Option (List Char)
  | 0, value => some value
  | outpos + 1, value => do
      let c ← (buffer[outpos]?).join
      let value ← write value outpos c
      copyBack buffer outpos value

/-- `encodeInPlace`. -/
def encodeInPlace (value : List Char) (size : Nat) : Option (List Char) := do
  let (outpos, buffer) ← encodeLoop value size value.length 0 0 (List.replicate size none)
  let value ← write value outpos NUL
  copyBack buffer outpos value

/-! ## The encoding -/

/-- The characters that the encoding replaces: the separators of the user agent and the percent
sign. -/
def special (c : Char) : Bool := c ∈ ['/', '+', '|', '%']

theorem special_cases {c : Char} (hc : special c = true) :
    c = '/' ∨ c = '+' ∨ c = '|' ∨ c = '%' := by
  simpa [special] using hc

theorem special_lt (c : Char) (hc : special c = true) : c.toNat < 256 := by
  rcases special_cases hc with rfl | rfl | rfl | rfl
  all_goals decide

/-- The table has the escape of each special character. -/
theorem find?_special {c : Char} (hc : special c = true) :
    encodings.find? (·.ch = c) = some ⟨c, escape c⟩ := by
  rcases special_cases hc with rfl | rfl | rfl | rfl
  all_goals rfl

theorem find?_plain {c : Char} (hc : special c = false) : encodings.find? (·.ch = c) = none := by
  rw [List.find?_eq_none]
  intro encoding hmem heq
  have hch : encoding.ch = c := of_decide_eq_true heq
  have hall : ∀ encoding ∈ encodings, special encoding.ch = true := by decide
  rw [← hch, hall encoding hmem] at hc
  cases hc

/-! ## The main loop -/

section Loop

variable {size : Nat} {out : List Char} {tail : List (Option Char)}

/-- What the buffer holds so far: the output, and behind it nothing. -/
def filled (out : List Char) (tail : List (Option Char)) : List (Option Char) :=
  out.map some ++ tail

theorem length_filled_nil (size : Nat) :
    (filled (percentEncode special []) (List.replicate size none)).length = size := by
  simp [filled, percentEncode]

theorem write_filled (hroom : out.length < (filled out tail).length) (c : Char) :
    ∃ tail', write (filled out tail) out.length (some c) = some (filled (out ++ [c]) tail') ∧
      (filled (out ++ [c]) tail').length = (filled out tail).length := by
  cases tail with
  | nil => simp [filled] at hroom
  | cons old tail =>
      refine ⟨tail, ?_, by simp [filled]⟩
      unfold filled
      rw [write_append (List.length_map _).symm, List.map_append, List.append_assoc]
      rfl

/-- A code that has room is copied whole. -/
theorem copyCode_fits (code : List Char) (hsize : (filled out tail).length = size)
    (hfits : out.length + code.length < size) :
    ∃ tail', copyCode size code out.length (filled out tail) =
        some ((out ++ code).length, filled (out ++ code) tail') ∧
      (filled (out ++ code) tail').length = size := by
  induction code generalizing out tail with
  | nil => exact ⟨tail, by simp [copyCode], by simpa using hsize⟩
  | cons c code ih =>
      rw [List.length_cons] at hfits
      have hinside : out.length < (filled out tail).length := by omega
      obtain ⟨next, hwrite, hlength⟩ := write_filled hinside c
      have hend : (out ++ [c]).length = out.length + 1 := by simp
      obtain ⟨last, hcopy, hlast⟩ := ih (hlength.trans hsize)
        (by rw [hend]; omega)
      have hroom : out.length < size - 1 := by omega
      refine ⟨last, ?_, by simpa using hlast⟩
      rw [copyCode, if_pos hroom, hwrite, Option.bind_eq_bind, Option.bind_some, ← hend, hcopy]
      simp

variable {value p : List Char} {c : Char}

/-- A character whose encoding has room is encoded. -/
theorem encodeLoop_fits (hsize : size < 2 ^ 31) (hlength : (filled out tail).length = size)
    {inpos : Nat} (hget : value[inpos]? = some c) (hc : c ≠ NUL)
    (hfits : (out ++ encodeChar special c).length < size) (remaining : Nat) :
    ∃ tail', encodeLoop value size (remaining + 1) inpos out.length (filled out tail) =
        encodeLoop value size remaining (inpos + 1) (out ++ encodeChar special c).length
          (filled (out ++ encodeChar special c) tail') ∧
      (filled (out ++ encodeChar special c) tail').length = size := by
  cases hspecial : special c with
  | false =>
      have hcode : encodeChar special c = [c] := by rw [encodeChar, hspecial]; rfl
      rw [hcode] at hfits ⊢
      have hend : (out ++ [c]).length = out.length + 1 := by simp
      rw [hend] at hfits ⊢
      have hinside : out.length < (filled out tail).length := by omega
      obtain ⟨tail', hwrite, hsame⟩ := write_filled hinside c
      refine ⟨tail', ?_, hsame.trans hlength⟩
      have hroom : c ≠ NUL ∧ out.length < size - 1 := ⟨hc, by omega⟩
      rw [encodeLoop, hget, Option.bind_eq_bind, Option.bind_some, if_pos hroom,
        find?_plain hspecial]
      simp only [hwrite, Option.bind_eq_bind, Option.bind_some]
  | true =>
      have hcode : encodeChar special c = escape c := by rw [encodeChar, hspecial]; rfl
      have hthree : (escape c).length = 3 := rfl
      rw [hcode] at hfits ⊢
      rw [List.length_append] at hfits
      obtain ⟨tail', hcopy, hsame⟩ := copyCode_fits (escape c) hlength hfits
      refine ⟨tail', ?_, hsame⟩
      have hroom : c ≠ NUL ∧ out.length < size - 1 := ⟨hc, by omega⟩
      have hadd : addInt out.length numCharsInCode = some (out.length + 3) :=
        if_pos (by unfold numCharsInCode; omega)
      have hinside : ¬ out.length + 3 ≥ size := by omega
      rw [encodeLoop, hget, Option.bind_eq_bind, Option.bind_some, if_pos hroom,
        find?_special hspecial]
      simp only [hadd, Option.bind_eq_bind, Option.bind_some, if_neg hinside, hcopy]

/-- One whose encoding has none ends the loop. -/
theorem encodeLoop_full (hsize : size < 2 ^ 31 - 1) {inpos : Nat} (hget : value[inpos]? = some c)
    (hfull : size ≤ (out ++ encodeChar special c).length) (remaining : Nat) :
    encodeLoop value size (remaining + 1) inpos out.length (filled out tail) =
      some (out.length, filled out tail) := by
  rw [encodeLoop, hget, Option.bind_eq_bind, Option.bind_some]
  split
  · rename_i hroom
    rw [List.length_append] at hfull
    cases hspecial : special c with
    | false =>
        have hone : (encodeChar special c).length = 1 := by rw [encodeChar, hspecial]; rfl
        omega
    | true =>
        have hthree : (encodeChar special c).length = 3 := by rw [encodeChar, hspecial]; rfl
        have hadd : addInt out.length numCharsInCode = some (out.length + 3) :=
          if_pos (by unfold numCharsInCode; omega)
        have houtside : out.length + 3 ≥ size := by omega
        rw [find?_special hspecial]
        simp only [hadd, Option.bind_eq_bind, Option.bind_some, if_pos houtside]
        rfl
  · rfl

/-- The end of the string ends the loop. -/
theorem encodeLoop_end {inpos : Nat} (hget : value[inpos]? = some NUL) (remaining outpos : Nat)
    (buffer : List (Option Char)) :
    encodeLoop value size (remaining + 1) inpos outpos buffer = some (outpos, buffer) := by
  rw [encodeLoop, hget, Option.bind_eq_bind, Option.bind_some, if_neg fun h => h.1 rfl]
  rfl

/-- A part of the string whose encoding has room is encoded. -/
theorem encodeLoop_run (hsize : size < 2 ^ 31) {q : List Char} (hq : NUL ∉ q) (rest : List Char)
    (hfits : (percentEncode special (p ++ q)).length < size)
    (hlength : (filled (percentEncode special p) tail).length = size) (remaining : Nat) :
    ∃ tail', encodeLoop (p ++ (q ++ rest)) size (q.length + remaining) p.length
          (percentEncode special p).length (filled (percentEncode special p) tail) =
        encodeLoop (p ++ (q ++ rest)) size remaining (p ++ q).length
          (percentEncode special (p ++ q)).length
          (filled (percentEncode special (p ++ q)) tail') ∧
      (filled (percentEncode special (p ++ q)) tail').length = size := by
  induction q generalizing p tail with
  | nil => exact ⟨tail, by simp, by simpa using hlength⟩
  | cons c q ih =>
      have hne : c ≠ NUL := ne_NUL_of_mem hq List.mem_cons_self
      have hget : (p ++ (c :: q ++ rest))[p.length]? = some c :=
        getElem?_append_cons rfl c (q ++ rest)
      have hstep : percentEncode special (p ++ [c]) =
          percentEncode special p ++ encodeChar special c := by
        rw [percentEncode_append, percentEncode_singleton]
      have hparts : p ++ c :: q = p ++ [c] ++ q := by simp
      have hroom : (percentEncode special p ++ encodeChar special c).length < size := by
        rw [hparts, percentEncode_append, List.length_append, hstep] at hfits
        omega
      obtain ⟨next, hloop, hnext⟩ := encodeLoop_fits hsize hlength hget hne hroom
        (q.length + remaining)
      rw [← hstep] at hloop hnext
      obtain ⟨last, hrest, hlast⟩ := ih
        (fun h => hq (List.mem_cons_of_mem _ h)) (by rw [← hparts]; exact hfits) hnext
      rw [← hparts] at hrest hlast
      refine ⟨last, ?_, hlast⟩
      have hturns : (c :: q).length + remaining = q.length + remaining + 1 := by
        rw [List.length_cons]
        omega
      have hbuf : p ++ [c] ++ (q ++ rest) = p ++ (c :: q ++ rest) := by simp
      have hinpos : (p ++ [c]).length = p.length + 1 := by simp
      rw [hbuf, hinpos] at hrest
      rw [hturns, hloop, hrest]

end Loop

/-! ## The output -/

/-- There is a longest prefix whose encoding has room. -/
theorem exists_longest (s : List Char) {size : Nat} (hsize : 0 < size) :
    ∃ p q, s = p ++ q ∧ (percentEncode special p).length < size ∧
      ∀ c q', q = c :: q' → size ≤ (percentEncode special p ++ encodeChar special c).length := by
  induction s using List.reverseRecOn with
  | nil => exact ⟨[], [], rfl, hsize, nofun⟩
  | append_singleton s c ih =>
      obtain ⟨p, q, rfl, hfits, hfull⟩ := ih
      cases q with
      | cons d q =>
          refine ⟨p, d :: (q ++ [c]), by simp, hfits, ?_⟩
          intro e q' heq
          obtain ⟨rfl, -⟩ := List.cons.inj heq
          exact hfull d q rfl
      | nil =>
          rw [List.append_nil]
          by_cases hroom : (percentEncode special p ++ encodeChar special c).length < size
          · refine ⟨p ++ [c], [], by simp, ?_, nofun⟩
            rw [percentEncode_append, percentEncode_singleton]
            exact hroom
          · refine ⟨p, [c], rfl, hfits, ?_⟩
            intro e q' heq
            obtain ⟨rfl, -⟩ := List.cons.inj heq
            exact Nat.le_of_not_lt hroom

/-- The output is copied back from its end. -/
theorem copyBack_filled {out : List Char} {tail : List (Option Char)} {outpos : Nat}
    (hout : outpos ≤ out.length) {value : List Char} (hvalue : outpos ≤ value.length) :
    copyBack (filled out tail) outpos value = some (out.take outpos ++ value.drop outpos) := by
  induction outpos generalizing value with
  | zero => simp [copyBack]
  | succ outpos ih =>
      have hread : ((filled out tail)[outpos]?).join = some out[outpos] := by
        rw [filled, List.getElem?_append_left (by rw [List.length_map]; exact hout),
          List.getElem?_map, List.getElem?_eq_getElem hout]
        rfl
      have hwrite : write value outpos out[outpos] = some (value.set outpos out[outpos]) :=
        if_pos hvalue
      rw [copyBack, hread, Option.bind_eq_bind, Option.bind_some, hwrite, Option.bind_eq_bind,
        Option.bind_some, ih (Nat.le_of_succ_le hout) (by rw [List.length_set]; omega)]
      rw [List.drop_set, if_neg (Nat.lt_irrefl _), Nat.sub_self, List.drop_eq_getElem_cons hvalue,
        List.set_cons_zero, List.take_succ_eq_append_getElem hout, List.append_assoc,
        List.singleton_append]

/-- The output is terminated in the caller's buffer and copied there. -/
theorem copyBack_terminated {out value : List Char} (hroom : out.length < value.length)
    (tail : List (Option Char)) :
    write value out.length NUL = some (value.set out.length NUL) ∧
      copyBack (filled out tail) out.length (value.set out.length NUL) =
        some (out ++ NUL :: value.drop (out.length + 1)) := by
  have hlength : (value.set out.length NUL).length = value.length := List.length_set
  have hdrop : (value.set out.length NUL).drop out.length =
      NUL :: value.drop (out.length + 1) := by
    rw [List.drop_set, if_neg (Nat.lt_irrefl _), Nat.sub_self,
      List.drop_eq_getElem_cons hroom, List.set_cons_zero]
  refine ⟨if_pos hroom, ?_⟩
  rw [copyBack_filled (Nat.le_refl _) (by rw [hlength]; exact Nat.le_of_lt hroom),
    List.take_length, hdrop]

/-- The main loop encodes the string up to a character whose encoding has no room. -/
theorem encodeLoop_longest {p q rest : List Char} {size : Nat} (hsize : size < 2 ^ 31 - 1)
    (hp : NUL ∉ p) (hfits : (percentEncode special p).length < size)
    (hfull : ∀ c q', q = c :: q' →
      size ≤ (percentEncode special p ++ encodeChar special c).length)
    (hlength : p.length + (q.length + (rest.length + 1)) = size) :
    ∃ tail, encodeLoop (p ++ (q ++ NUL :: rest)) size size 0 0 (List.replicate size none) =
      some ((percentEncode special p).length, filled (percentEncode special p) tail) := by
  have hsmall : size < 2 ^ 31 := by omega
  obtain ⟨tail, hprefix, -⟩ := encodeLoop_run (p := []) hsmall hp (q ++ NUL :: rest) hfits
    (length_filled_nil size) (q.length + (rest.length + 1))
  rw [List.nil_append, hlength] at hprefix
  refine ⟨tail, hprefix.trans ?_⟩
  cases q with
  | nil =>
      have hturns : ([] : List Char).length + (rest.length + 1) = rest.length + 1 :=
        Nat.zero_add _
      rw [hturns]
      exact encodeLoop_end (getElem?_append_cons rfl NUL rest) _ _ _
  | cons c q =>
      have hturns : (c :: q).length + (rest.length + 1) = q.length + (rest.length + 1) + 1 := by
        rw [List.length_cons]
        omega
      rw [hturns]
      exact encodeLoop_full hsize (getElem?_append_cons rfl c _) (hfull c q rfl) _

/-- A prefix whose encoding has room ends before the first character that has none. -/
theorem prefix_of_room {p q p' : List Char} {size : Nat} (hsize : 0 < size)
    (hfull : ∀ c q', q = c :: q' →
      size ≤ (percentEncode special p ++ encodeChar special c).length)
    (hpre : p' <+: p ++ q) (hroom : (percentEncode special p').length ≤ size - 1) :
    p' <+: p := by
  apply List.prefix_of_prefix_length_le hpre (List.prefix_append p q)
  by_contra hlt
  cases q with
  | nil =>
      have hle := hpre.length_le
      rw [List.append_nil] at hle
      exact hlt hle
  | cons c q =>
      have hnext : p ++ [c] <+: p' := by
        have hstart : p ++ [c] <+: p ++ c :: q := ⟨q, by simp⟩
        apply List.prefix_of_prefix_length_le hstart hpre
        rw [List.length_append, List.length_singleton]
        omega
      obtain ⟨more, rfl⟩ := hnext
      have hover := hfull c q rfl
      rw [percentEncode_append, percentEncode_append, percentEncode_singleton,
        List.length_append] at hroom
      omega

/-- An encoded string is a string. -/
theorem notMem_encoded {p : List Char} (hp : NUL ∉ p) : NUL ∉ percentEncode special p := by
  intro h
  rcases mem_percentEncode special_lt h with ⟨hmem, -⟩ | heq | hdigit
  · exact hp hmem
  · exact absurd heq (by decide)
  · exact absurd hdigit (by decide)

/-- An encoded string has no separator. -/
theorem separator_notMem_encoded (p : List Char) :
    ∀ c ∈ ['/', '+', '|'], c ∉ percentEncode special p := by
  intro c hc h
  obtain ⟨hsp, hpercent, hdigit⟩ : special c = true ∧ c ≠ '%' ∧ digitValue c = none := by
    simp only [List.mem_cons, List.not_mem_nil, or_false] at hc
    rcases hc with rfl | rfl | rfl
    all_goals exact ⟨rfl, by decide, rfl⟩
  rcases mem_percentEncode special_lt h with ⟨-, hplain⟩ | heq | hsome
  · rw [hsp] at hplain
    cases hplain
  · exact hpercent heq
  · rw [hdigit] at hsome
    cases hsome

/-- `encodeInPlace` on a string in a buffer of `size` characters, up to one less than an `int`
can hold, stays in the buffer and leaves the encoding of the longest prefix of the string
for which it has room. The encoding can be decoded and has no separators. -/
theorem encode_right {s rest : List Char} (hs : NUL ∉ s) {size : Nat}
    (hlength : (s ++ NUL :: rest).length = size) (hsize : size < 2 ^ 31 - 1) :
    ∃ p final, p <+: s ∧ encodeInPlace (s ++ NUL :: rest) size = some final ∧
      final.length = size ∧ stringAt final 0 = some (percentEncode special p) ∧
      (percentEncode special p).length ≤ size - 1 ∧
      (∀ p', p' <+: s → (percentEncode special p').length ≤ size - 1 → p' <+: p) ∧
      percentDecode (percentEncode special p) = some p ∧
      ∀ c ∈ ['/', '+', '|'], c ∉ percentEncode special p := by
  have hpos : 0 < size := by
    rw [← hlength, List.length_append, List.length_cons]
    omega
  obtain ⟨p, q, rfl, hfits, hfull⟩ := exists_longest s hpos
  have hp : NUL ∉ p := fun h => hs (List.mem_append_left _ h)
  have hparts : p.length + (q.length + (rest.length + 1)) = size := by
    rw [← hlength]
    simp only [List.length_append, List.length_cons]
    omega
  rw [List.append_assoc] at hlength ⊢
  obtain ⟨tail, hmain⟩ := encodeLoop_longest hsize hp hfits hfull hparts
  have hroom : (percentEncode special p).length < (p ++ (q ++ NUL :: rest)).length := by
    rw [hlength]
    exact hfits
  obtain ⟨hwrite, hback⟩ := copyBack_terminated hroom tail
  refine ⟨p, percentEncode special p ++
    NUL :: (p ++ (q ++ NUL :: rest)).drop ((percentEncode special p).length + 1),
    List.prefix_append p q, ?_, ?_, stringAt_zero (notMem_encoded hp) _, by omega, ?_,
    percentDecode_percentEncode rfl special_lt p, separator_notMem_encoded p⟩
  · rw [encodeInPlace, hlength, hmain, Option.bind_eq_bind, Option.bind_some]
    simp only [hwrite, Option.bind_eq_bind, Option.bind_some, hback]
  · rw [List.length_append, List.length_cons, List.length_drop, hlength]
    omega
  · intro p' hpre hsmall
    exact prefix_of_room hpos hfull hpre hsmall

theorem encode_right_slash :
    ∃ p final, p <+: "a/b".toList ∧
      encodeInPlace ("a/b".toList ++ NUL :: []) 4 = some final ∧ final.length = 4 ∧
      stringAt final 0 = some (percentEncode special p) ∧
      (percentEncode special p).length ≤ 4 - 1 ∧
      (∀ p', p' <+: "a/b".toList → (percentEncode special p').length ≤ 4 - 1 → p' <+: p) ∧
      percentDecode (percentEncode special p) = some p ∧
      ∀ c ∈ ['/', '+', '|'], c ∉ percentEncode special p :=
  encode_right (by decide) rfl (by decide)

/-- Before a separator at the end of a buffer of the greatest size the sum of the bound check
overflows. -/
theorem encodeInPlace_overflow {p : List Char} (hp : NUL ∉ p) (hplain : percentEncode special p = p)
    {size : Nat} (hsize : p.length + 2 = size) (hlimit : p.length + 3 = 2 ^ 31) :
    encodeInPlace (p ++ ['/', NUL]) size = none := by
  have hfits : (percentEncode special ([] ++ p)).length < size := by
    rw [List.nil_append, hplain]
    omega
  have hsmall : size < 2 ^ 31 := by omega
  obtain ⟨tail, hprefix, -⟩ := encodeLoop_run (p := []) hsmall hp ['/', NUL] hfits
    (length_filled_nil size) 2
  rw [List.nil_append, List.nil_append, hplain, hsize] at hprefix
  have hget : (p ++ ['/', NUL])[p.length]? = some '/' := getElem?_append_cons rfl '/' [NUL]
  have hroom : '/' ≠ NUL ∧ p.length < size - 1 := ⟨by decide, by omega⟩
  have hadd : addInt p.length numCharsInCode = none := if_neg (by unfold numCharsInCode; omega)
  have hstop : encodeLoop (p ++ ['/', NUL]) size 2 p.length p.length (filled p tail) = none := by
    rw [encodeLoop, hget, Option.bind_eq_bind, Option.bind_some, if_pos hroom,
      find?_special rfl, hadd]
    rfl
  have hmain : encodeLoop (p ++ ['/', NUL]) size size 0 0 (List.replicate size none) = none :=
    hprefix.trans hstop
  have hlength : (p ++ ['/', NUL]).length = size := by
    rw [← hsize, List.length_append]
    rfl
  rw [encodeInPlace, hlength, hmain]
  rfl

theorem percentEncode_plain {p : List Char} (hplain : ∀ c ∈ p, special c = false) :
    percentEncode special p = p := by
  induction p with
  | nil => rfl
  | cons c p ih =>
      have hc := hplain c List.mem_cons_self
      have hcons : percentEncode special (c :: p) =
          encodeChar special c ++ percentEncode special p := List.flatMap_cons
      rw [hcons, ih fun d hd => hplain d (List.mem_cons_of_mem _ hd), encodeChar, hc]
      rfl

/-- A buffer as large as an `int` can say is not always encoded. -/
theorem largest_buffer_overflows :
    ¬ ∀ s rest : List Char, NUL ∉ s → ∀ size, (s ++ NUL :: rest).length = size → size < 2 ^ 31 →
      ∃ p final, p <+: s ∧ encodeInPlace (s ++ NUL :: rest) size = some final ∧
        stringAt final 0 = some (percentEncode special p) := by
  intro hall
  obtain ⟨p, hlength, hchars⟩ : ∃ p : List Char, p.length = 2 ^ 31 - 3 ∧ ∀ c ∈ p, c = 'a' :=
    ⟨List.replicate (2 ^ 31 - 3) 'a', List.length_replicate, fun _ => List.eq_of_mem_replicate⟩
  have hp : NUL ∉ p := fun h => absurd (hchars NUL h) (by decide)
  have hplain : percentEncode special p = p := percentEncode_plain fun c hc => by
    rw [hchars c hc]
    rfl
  have hslash : NUL ∉ p ++ ['/'] := by
    intro h
    rcases List.mem_append.mp h with hin | hin
    · exact hp hin
    · exact absurd (List.mem_singleton.mp hin) (by decide)
  have hsize : (p ++ ['/'] ++ [NUL]).length = p.length + 2 := by simp
  obtain ⟨-, final, -, hsome, -⟩ := hall (p ++ ['/']) [] hslash _ hsize (by omega)
  rw [List.append_assoc, List.singleton_append,
    encodeInPlace_overflow hp hplain rfl (by omega)] at hsome
  cases hsome

end Msm8916.UserAgent
