import Mathlib.Data.List.Basic

/-!
NMEA sentences of `loc_eng_nmea.cpp`: how one is put together in its buffer and gets
its checksum, and how it is taken apart again.
-/

namespace Msm8916.Nmea

/-- The size of the buffer of a sentence, with the terminating character. -/
def nmeaSentenceMaxLength : Nat := 200

/-! ## Writing -/

/-- An `snprintf` at `pMarker` whose length is compared to `lengthRemaining`. -/
def append (sentence text : List Char) : Option (List Char) :=
  if text.length ≥ nmeaSentenceMaxLength - sentence.length then none else some (sentence ++ text)

/-- The last `snprintf` of a sentence, which only cuts what it prints. -/
def appendLast (sentence text : List Char) : List Char :=
  sentence ++ text.take (nmeaSentenceMaxLength - sentence.length - 1)

/-- The texts of a sentence, one after the other; nothing if one of the checked ones
does not fit. -/
def format (checked : List (List Char)) (last : List Char) : Option (List Char) :=
  (checked.foldlM append []).map fun sentence => appendLast sentence last

def checksum (text : List Char) : UInt8 :=
  text.foldl (fun sum c => sum ^^^ UInt8.ofNat c.toNat) 0

/-- What `*%02X\r\n` prints. -/
def checksumText (sum : UInt8) : List Char :=
  ['*', (Nat.digitChar (sum.toNat / 16)).toUpper, (Nat.digitChar (sum.toNat % 16)).toUpper,
    '\r', '\n']

/-- `loc_eng_nmea_put_checksum` on a sentence that starts with a `$`, and what it
returns. -/
def locEngNmeaPutChecksum (pNmea : List Char) (maxSize : Nat) : List Char × Nat :=
  let length := (pNmea.drop 1).length
  let text := checksumText (checksum (pNmea.drop 1))
  (pNmea ++ text.take (maxSize - length - 1 - 1), length + text.length)

/-! ## Reading -/

/-- What stands between the `$` and the checksum of a sentence, if the checksum is
right. -/
def unframe (sentence : List Char) : Option (List Char) :=
  match sentence with
  | '$' :: rest =>
      let payload := rest.takeWhile (· != '*')
      if rest = payload ++ checksumText (checksum payload) then some payload else none
  | _ => none

def fieldsOf (sentence : List Char) : Option (List (List Char)) :=
  (unframe sentence).map fun payload => payload.splitOn ','

/-! ## What is read is what was written -/

/-- The character may stand in a field. -/
structure Plain (c : Char) : Prop where
  comma : c ≠ ','
  star : c ≠ '*'
  newline : c ≠ '\n'

theorem foldlM_append (checked : List (List Char)) {start : List Char}
    (h : (start ++ checked.flatten).length < nmeaSentenceMaxLength) :
    checked.foldlM append start = some (start ++ checked.flatten) := by
  induction checked generalizing start with
  | nil => simp
  | cons text rest ih =>
      rw [List.flatten_cons, ← List.append_assoc] at h
      have hfits : ¬ text.length ≥ nmeaSentenceMaxLength - start.length := by
        rw [List.length_append, List.length_append] at h
        omega
      rw [List.foldlM_cons, append, if_neg hfits, List.flatten_cons, ← List.append_assoc]
      exact ih h

/-- A sentence that is not given up has all the checked texts and room for the end of
the string. -/
theorem foldlM_append_eq_some {checked : List (List Char)} {start sentence : List Char}
    (hstart : start.length < nmeaSentenceMaxLength)
    (h : checked.foldlM append start = some sentence) :
    sentence = start ++ checked.flatten ∧ sentence.length < nmeaSentenceMaxLength := by
  induction checked generalizing start with
  | nil =>
      obtain rfl : start = sentence := Option.some.inj h
      exact ⟨by simp, hstart⟩
  | cons text rest ih =>
      rw [List.foldlM_cons, append] at h
      split at h
      · cases h
      · rename_i hfits
        have hnext : (start ++ text).length < nmeaSentenceMaxLength := by
          rw [List.length_append]
          omega
        rw [List.flatten_cons, ← List.append_assoc]
        exact ih hnext h

variable {checked : List (List Char)} {last payload : List Char}

/-- A sentence that fits its buffer is written as a whole. -/
theorem format_of_fits (h : (checked.flatten ++ last).length < nmeaSentenceMaxLength) :
    format checked last = some (checked.flatten ++ last) := by
  rw [List.length_append] at h
  have hchecked := foldlM_append checked (show ([] ++ checked.flatten).length < _ by
    rw [List.nil_append]
    omega)
  rw [format, hchecked, List.nil_append, Option.map_some, appendLast, List.take_of_length_le]
  omega

theorem format_eq_some {sentence : List Char} (h : format checked last = some sentence) :
    sentence = (checked.flatten ++ last).take (nmeaSentenceMaxLength - 1) := by
  obtain ⟨start, hstart, rfl⟩ := Option.map_eq_some_iff.mp h
  obtain ⟨hflatten, hshort⟩ := foldlM_append_eq_some (by decide) hstart
  rw [List.nil_append] at hflatten
  have hroom : nmeaSentenceMaxLength - 1 =
      start.length + (nmeaSentenceMaxLength - start.length - 1) := by
    omega
  rw [appendLast, ← hflatten, hroom, List.take_length_add_append]

/-- Only the last text can be cut. -/
theorem format_eq_append {sentence : List Char} (h : format checked last = some sentence) :
    ∃ rest, sentence = checked.flatten ++ rest := by
  obtain ⟨start, hstart, rfl⟩ := Option.map_eq_some_iff.mp h
  obtain ⟨rfl, -⟩ := foldlM_append_eq_some (by decide) hstart
  exact ⟨_, rfl⟩

theorem takeWhile_payload (hplain : ∀ c ∈ payload, c ≠ '*') (sum : UInt8) :
    (payload ++ checksumText sum).takeWhile (· != '*') = payload := by
  have hkept : ∀ c ∈ payload, (c != '*') = true := fun c hc => bne_iff_ne.mpr (hplain c hc)
  rw [List.takeWhile_append_of_pos hkept, checksumText]
  simp

theorem length_checksumText (sum : UInt8) : (checksumText sum).length = 5 := rfl

/-- With room, nothing of the checksum is cut. -/
theorem put_checksum_of_room {pNmea : List Char} {maxSize : Nat}
    (hroom : (pNmea.drop 1).length + 6 < maxSize) :
    locEngNmeaPutChecksum pNmea maxSize =
      (pNmea ++ checksumText (checksum (pNmea.drop 1)), (pNmea.drop 1).length + 5) := by
  have hcut : (checksumText (checksum (pNmea.drop 1))).take
      (maxSize - (pNmea.drop 1).length - 1 - 1) = checksumText (checksum (pNmea.drop 1)) := by
    apply List.take_of_length_le
    rw [length_checksumText]
    omega
  unfold locEngNmeaPutChecksum
  dsimp only
  rw [hcut, length_checksumText]

/-- With room for its checksum, a sentence is read as it was written. -/
theorem unframe_of_room (hplain : ∀ c ∈ payload, c ≠ '*')
    (hroom : payload.length + 6 < nmeaSentenceMaxLength) :
    unframe (locEngNmeaPutChecksum ('$' :: payload) nmeaSentenceMaxLength).1 = some payload := by
  rw [@put_checksum_of_room ('$' :: payload) nmeaSentenceMaxLength hroom]
  simp only [unframe, List.drop_succ_cons, List.drop_zero, List.cons_append]
  rw [takeWhile_payload hplain, if_pos rfl]

theorem toUpper_digitChar_ne_newline {n : Nat} (h : n < 16) :
    (Nat.digitChar n).toUpper ≠ '\n' :=
  (show ∀ n < 16, (Nat.digitChar n).toUpper ≠ '\n' by decide) n h

theorem ne_newline_of_cut {sum : UInt8} {room : Nat} {c : Char} (hroom : room ≤ 4)
    (h : c ∈ (checksumText sum).take room) : c ≠ '\n' := by
  have hcut : c ∈ (checksumText sum).take 4 :=
    (List.take_sublist_take_left hroom).subset h
  have hhigh : sum.toNat / 16 < 16 := by
    have hsum := sum.toNat_lt
    omega
  have hlow : sum.toNat % 16 < 16 := Nat.mod_lt _ (by decide)
  simp only [checksumText, List.take_succ_cons, List.take_zero, List.mem_cons, List.not_mem_nil,
    or_false] at hcut
  rcases hcut with rfl | rfl | rfl | rfl
  · decide
  · exact toUpper_digitChar_ne_newline hhigh
  · exact toUpper_digitChar_ne_newline hlow
  · decide

theorem newline_of_unframe {sentence : List Char} (h : unframe sentence = some payload) :
    '\n' ∈ sentence := by
  unfold unframe at h
  split at h
  · rename_i rest
    dsimp only at h
    split at h
    · rename_i hrest
      rw [hrest]
      apply List.mem_cons_of_mem
      apply List.mem_append_right
      simp [checksumText]
    · cases h
  · cases h

/-- Without it, the end of the sentence is cut. -/
theorem unframe_of_no_room {sentence : List Char} (hplain : ∀ c ∈ sentence, c ≠ '\n')
    (hroom : nmeaSentenceMaxLength ≤ sentence.length + 5) :
    unframe (locEngNmeaPutChecksum sentence nmeaSentenceMaxLength).1 = none := by
  cases hpayload : unframe (locEngNmeaPutChecksum sentence nmeaSentenceMaxLength).1 with
  | none => rfl
  | some payload =>
      have hend := newline_of_unframe hpayload
      rcases List.mem_append.mp hend with hsentence | hcut
      · exact absurd rfl (hplain '\n' hsentence)
      · apply absurd rfl (ne_newline_of_cut _ hcut)
        rw [List.length_drop]
        omega

/-! ## Fields -/

theorem mem_intercalate {sep c : Char} {fields : List (List Char)}
    (h : c ∈ [sep].intercalate fields) : c = sep ∨ ∃ field ∈ fields, c ∈ field := by
  induction fields with
  | nil => cases h
  | cons field rest ih =>
      cases rest with
      | nil =>
          rw [List.intercalate_singleton] at h
          exact .inr ⟨field, List.mem_cons_self, h⟩
      | cons next rest =>
          rw [List.intercalate_cons_cons, List.mem_append, List.mem_append,
            List.mem_singleton] at h
          rcases h with (h | h) | h
          · exact .inr ⟨field, List.mem_cons_self, h⟩
          · exact .inl h
          · rcases ih h with hsep | ⟨other, hother, hc⟩
            · exact .inl hsep
            · exact .inr ⟨other, List.mem_cons_of_mem _ hother, hc⟩

/-- There is room in the buffer for the fields, the dollar sign, the commas and the
checksum. -/
def HasRoom (fields : List (List Char)) : Prop :=
  ([','].intercalate fields).length + 6 < nmeaSentenceMaxLength

/-- A sentence with room for its checksum is taken apart into its fields. -/
theorem fieldsOf_of_hasRoom {fields : List (List Char)} (hne : fields ≠ [])
    (hplain : ∀ field ∈ fields, ∀ c ∈ field, Plain c) (hroom : HasRoom fields) :
    fieldsOf (locEngNmeaPutChecksum ('$' :: [','].intercalate fields)
      nmeaSentenceMaxLength).1 = some fields := by
  have hpayload : ∀ c ∈ [','].intercalate fields, c ≠ '*' := by
    intro c hc
    rcases mem_intercalate hc with rfl | ⟨field, hfield, hc⟩
    · decide
    · exact (hplain field hfield c hc).star
  have hsplit : ([','].intercalate fields).splitOn ',' = fields :=
    List.splitOn_intercalate ',' (fun field hfield hc => (hplain field hfield ',' hc).comma rfl) hne
  rw [fieldsOf, unframe_of_room hpayload hroom, Option.map_some, hsplit]

/-- The fields of a sentence that is sent are those that were written, and it is sent
and can be read exactly if there is room for all of it. -/
theorem format_fields_iff {fields found : List (List Char)}
    (hfull : checked.flatten ++ last = '$' :: [','].intercalate fields) (hne : fields ≠ [])
    (hplain : ∀ field ∈ fields, ∀ c ∈ field, Plain c) :
    (∃ sentence, format checked last = some sentence ∧
      fieldsOf (locEngNmeaPutChecksum sentence nmeaSentenceMaxLength).1 = some found) ↔
    found = fields ∧ ([','].intercalate fields).length + 6 < nmeaSentenceMaxLength := by
  by_cases hroom : ([','].intercalate fields).length + 6 < nmeaSentenceMaxLength
  · have hfits : (checked.flatten ++ last).length < nmeaSentenceMaxLength := by
      rw [hfull, List.length_cons]
      omega
    rw [format_of_fits hfits, hfull]
    simp only [Option.some.injEq, exists_eq_left', fieldsOf_of_hasRoom hne hplain hroom]
    rw [and_iff_left hroom, eq_comm]
  · apply iff_of_false
    · rintro ⟨sentence, hformat, hread⟩
      have hcut := format_eq_some hformat
      rw [hfull] at hcut
      have hlength : nmeaSentenceMaxLength ≤ sentence.length + 5 := by
        rw [hcut, List.length_take, List.length_cons]
        omega
      have hsentence : ∀ c ∈ sentence, c ≠ '\n' := by
        intro c hc
        rw [hcut] at hc
        rcases List.mem_cons.mp (List.mem_of_mem_take hc) with rfl | hc
        · decide
        · rcases mem_intercalate hc with rfl | ⟨field, hfield, hc⟩
          · decide
          · exact (hplain field hfield c hc).newline
      rw [fieldsOf, unframe_of_no_room hsentence hlength] at hread
      cases hread
    · exact fun h => hroom h.2

/-- Of what is found in the fields, a sentence can be right only if there is room for
all of it, and then as much as its fields are. -/
theorem format_read_iff {α : Type*} {fields : List (List Char)}
    (hfull : checked.flatten ++ last = '$' :: [','].intercalate fields) (hne : fields ≠ [])
    (hplain : ∀ field ∈ fields, ∀ c ∈ field, Plain c) (read : List (List Char) → Option α)
    (right : α → Prop) :
    (∃ sentence, format checked last = some sentence ∧ ∃ found,
      (fieldsOf (locEngNmeaPutChecksum sentence nmeaSentenceMaxLength).1).bind read =
        some found ∧ right found) ↔
    ([','].intercalate fields).length + 6 < nmeaSentenceMaxLength ∧
      ∃ found, read fields = some found ∧ right found := by
  constructor
  · rintro ⟨sentence, hformat, found, hfound, hright⟩
    obtain ⟨parts, hparts, hread⟩ := Option.bind_eq_some_iff.mp hfound
    obtain ⟨rfl, hroom⟩ := (format_fields_iff hfull hne hplain).mp ⟨sentence, hformat, hparts⟩
    exact ⟨hroom, found, hread, hright⟩
  · rintro ⟨hroom, found, hread, hright⟩
    obtain ⟨sentence, hformat, hfields⟩ := (format_fields_iff hfull hne hplain).mpr ⟨rfl, hroom⟩
    refine ⟨sentence, hformat, found, ?_, hright⟩
    rw [hfields]
    exact hread

theorem format_isSome (h : checked.flatten.length < nmeaSentenceMaxLength) :
    ∃ sentence, format checked last = some sentence := by
  have hchecked := foldlM_append checked (show ([] ++ checked.flatten).length < _ from h)
  rw [format, hchecked]
  exact ⟨_, rfl⟩

end Msm8916.Nmea
