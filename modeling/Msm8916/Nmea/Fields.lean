import Msm8916.Nmea.Checksum
import Msm8916.Nmea.Encode

/-!
How many fields the position sentences have. Every field is printed by an `if` of its own,
with the commas that go with it, and the blank sentences are written out; each type of
sentence has the same commas on all of these paths.
-/

namespace Msm8916.Nmea

open Calendar Decimal

/-! ## Commas -/

/-- The text has so many commas, and no line ends in it. -/
structure HasCommas (count : Nat) (text : List Char) : Prop where
  commas : text.count ',' = count
  newline : '\n' ∉ text

instance (count : Nat) (text : List Char) : Decidable (HasCommas count text) :=
  decidable_of_iff (text.count ',' = count ∧ '\n' ∉ text)
    ⟨fun h => ⟨h.1, h.2⟩, fun h => ⟨h.commas, h.newline⟩⟩

theorem HasCommas.append {m n : Nat} {first second : List Char} (hfirst : HasCommas m first)
    (hsecond : HasCommas n second) : HasCommas (m + n) (first ++ second) := by
  constructor
  · rw [List.count_append, hfirst.commas, hsecond.commas]
  · intro hmem
    rcases List.mem_append.mp hmem with hmem | hmem
    · exact hfirst.newline hmem
    · exact hsecond.newline hmem

theorem HasCommas.ite {n : Nat} {p : Prop} [Decidable p] {first second : List Char}
    (hfirst : HasCommas n first) (hsecond : HasCommas n second) :
    HasCommas n (if p then first else second) := by
  split
  · exact hfirst
  · exact hsecond

theorem HasCommas.flatten {n : Nat} {parts : List (List Char)}
    (h : ∀ part ∈ parts, HasCommas n part) : HasCommas (parts.length * n) parts.flatten := by
  induction parts with
  | nil => exact ⟨(Nat.zero_mul n).symm, List.not_mem_nil⟩
  | cons part parts ih =>
      have hpart := h part List.mem_cons_self
      have hparts := ih fun other hother => h other (List.mem_cons_of_mem _ hother)
      rw [List.flatten_cons, List.length_cons, Nat.succ_mul, Nat.add_comm]
      exact hpart.append hparts

theorem PlainText.hasCommas {text : List Char} (h : PlainText text) : HasCommas 0 text :=
  ⟨List.count_eq_zero.mpr fun hmem => (h ',' hmem).comma rfl, fun hmem => (h '\n' hmem).newline rfl⟩

theorem oneDecimal_hasCommas (x : ℚ) : HasCommas 0 (oneDecimal x) :=
  (plainText_oneDecimal x).hasCommas

theorem printInt_hasCommas (precision : Nat) (n : Int) : HasCommas 0 (printInt precision n) :=
  (plainText_printInt precision n).hasCommas

theorem letter_hasCommas {c : Char} (h : Plain c) : HasCommas 2 [',', c, ','] := by
  have hmiddle : PlainText [c] := fun d hd => List.mem_singleton.mp hd ▸ h
  have hleft : HasCommas 1 [','] := by decide
  exact (hleft.append hmiddle.hasCommas).append hleft

/-! ## The parts of the sentences -/

section Parts

variable (data : NmeaData) (location : GpsLocation) (locationExtended : GpsLocationExtended)
  (tm : Tm)

theorem svField_hasCommas (svUsedList : List Nat) (i : Nat) :
    HasCommas 1 (svField svUsedList i) := by
  have hcomma : HasCommas 1 [','] := by decide
  unfold svField
  split
  · exact (printInt_hasCommas _ _).append hcomma
  · exact hcomma

theorem latLong_hasCommas : HasCommas 4 (latLong location) := by
  by_cases h : location.has gpsLocationHasLatLong
  · rw [latLong_eq h]
    refine (((plainText_degreesMinutes _ _).hasCommas.append (letter_hasCommas ?_)).append
      (plainText_degreesMinutes _ _).hasCommas).append (letter_hasCommas ?_)
    · unfold latHemisphere
      split
      · decide
      · decide
    · unfold lonHemisphere
      split
      · decide
      · decide
  · unfold latLong
    rw [if_neg h]
    decide

theorem timeOfDay_hasCommas : HasCommas 0 (timeOfDay tm) := (plainText_timeOfDay tm).hasCommas

theorem modeIndicator_hasCommas : HasCommas 0 [modeIndicator data location] :=
  (plainText_modeIndicator data location).hasCommas

/-- A number and a comma, or the comma alone. -/
theorem oneDecimal_field_hasCommas {p : Prop} [Decidable p] (x : ℚ) :
    HasCommas 1 (if p then oneDecimal x ++ [','] else [',']) := by
  have hcomma : HasCommas 1 [','] := by decide
  exact ((oneDecimal_hasCommas x).append hcomma).ite hcomma

/-! ## The sentences -/

/-- What a sentence of a type is, before it is cut to its buffer. -/
def Written (name : List Char) (count : Nat) (sentence : List Char) : Prop :=
  ∃ full, full.take 6 = name ∧ HasCommas count full ∧
    sentence = full.take (nmeaSentenceMaxLength - 1)

theorem written_of_format {name sentence last : List Char} {count : Nat}
    {checked : List (List Char)} (hname : (checked.flatten ++ last).take 6 = name)
    (hcommas : HasCommas count (checked.flatten ++ last))
    (h : format checked last = some sentence) : Written name count sentence :=
  ⟨_, hname, hcommas, format_eq_some h⟩

theorem gsa_written {svUsedList : List Nat} {sentence : List Char}
    (h : gsa data locationExtended svUsedList = some sentence) :
    Written "$GPGSA".toList 17 sentence := by
  unfold gsa at h
  refine written_of_format rfl ?_ h
  have hhead : HasCommas 3 ("$GPGSA,A,".toList ++ [fixType svUsedList.length, ',']) := by
    unfold fixType
    split_ifs
    · decide
    · decide
    · decide
  have hparts : ∀ part ∈ (List.range 12).map (svField svUsedList), HasCommas 1 part := by
    intro part hpart
    obtain ⟨i, -, rfl⟩ := List.mem_map.mp hpart
    exact svField_hasCommas svUsedList i
  have hsvs := HasCommas.flatten hparts
  rw [List.length_map, List.length_range] at hsvs
  have hcomma : HasCommas 1 [','] := by decide
  refine (hhead.append hsvs).append (n := 2) ?_
  split
  · exact ((((oneDecimal_hasCommas _).append hcomma).append (oneDecimal_hasCommas _)).append
      hcomma).append (oneDecimal_hasCommas _)
  · decide

theorem vtg_written {sentence : List Char}
    (h : vtg data location locationExtended = some sentence) :
    Written "$GPVTG".toList 9 sentence := by
  have hname : HasCommas 1 "$GPVTG,".toList := by decide
  have htrue : HasCommas 2 [',', 'T', ','] := by decide
  have hmagnetic : HasCommas 2 [',', 'M', ','] := by decide
  have hknots : HasCommas 2 [',', 'N', ','] := by decide
  have hkm : HasCommas 2 [',', 'K', ','] := by decide
  unfold vtg at h
  refine written_of_format ?_ ?_ h
  · split
    · rfl
    · rfl
  · rw [List.flatten_cons, List.flatten_cons, List.flatten_nil, List.append_nil]
    refine ((HasCommas.ite (n := 5) ?_ (by decide)).append
      (HasCommas.ite (n := 4) ?_ (by decide))).append (modeIndicator_hasCommas data location)
    · exact (((hname.append (oneDecimal_hasCommas _)).append htrue).append
        (oneDecimal_hasCommas _)).append hmagnetic
    · exact (((oneDecimal_hasCommas _).append hknots).append (oneDecimal_hasCommas _)).append hkm

theorem rmc_written {sentence : List Char}
    (h : rmc data location locationExtended tm = some sentence) :
    Written "$GPRMC".toList 12 sentence := by
  have hname : HasCommas 1 "$GPRMC,".toList := by decide
  have hvalid : HasCommas 2 [',', 'A', ','] := by decide
  have hcomma : HasCommas 1 [','] := by decide
  unfold rmc at h
  refine written_of_format rfl ?_ h
  simp only [List.flatten_cons, List.flatten_nil, List.append_nil]
  refine HasCommas.append (m := 12) ?_ (modeIndicator_hasCommas data location)
  refine ((hname.append (timeOfDay_hasCommas tm)).append hvalid).append (n := 9) ?_
  refine (latLong_hasCommas location).append (n := 5) ?_
  refine (oneDecimal_field_hasCommas _).append (n := 4) ?_
  refine (oneDecimal_field_hasCommas _).append (n := 3) ?_
  refine HasCommas.append (m := 1) (n := 2) ?_ (HasCommas.ite ?_ (by decide))
  · exact (((printInt_hasCommas _ _).append (printInt_hasCommas _ _)).append
      (printInt_hasCommas _ _)).append hcomma
  · split
    · exact (oneDecimal_hasCommas _).append (letter_hasCommas (show Plain 'W' by decide))
    · exact (oneDecimal_hasCommas _).append (letter_hasCommas (show Plain 'E' by decide))

theorem gga_written {svUsedCount : Nat} {sentence : List Char}
    (h : gga data location locationExtended tm svUsedCount = some sentence) :
    Written "$GPGGA".toList 14 sentence := by
  have hname : HasCommas 1 "$GPGGA,".toList := by decide
  have hcomma : HasCommas 1 [','] := by decide
  have hmetres : HasCommas 2 [',', 'M', ','] := by decide
  have hquality : HasCommas 1 [gpsQuality data location, ','] :=
    (plainText_gpsQuality data location).hasCommas.append hcomma
  unfold gga at h
  refine written_of_format rfl ?_ h
  simp only [List.flatten_cons, List.flatten_nil, List.append_nil]
  refine HasCommas.append (m := 11) (n := 3) ?_ (HasCommas.ite ?_ (by decide))
  · refine ((hname.append (timeOfDay_hasCommas tm)).append hcomma).append (n := 9) ?_
    refine (latLong_hasCommas location).append (n := 5) ?_
    refine HasCommas.append (m := 3) (n := 2) ?_ (HasCommas.ite ?_ (by decide))
    · refine HasCommas.append (m := 2) (HasCommas.append (n := 0) ?_ ?_) hcomma
      · exact (hquality.append (printInt_hasCommas _ _)).append hcomma
      · split
        · exact oneDecimal_hasCommas _
        · decide
    · exact (oneDecimal_hasCommas _).append hmetres
  · exact (oneDecimal_hasCommas _).append (n := 3) (by decide)

end Parts

theorem blank_written {sentence : List Char} (h : sentence ∈ blankSentences) :
    Written "$GPGSA".toList 17 sentence ∨ Written "$GPVTG".toList 9 sentence ∨
      Written "$GPRMC".toList 12 sentence ∨ Written "$GPGGA".toList 14 sentence := by
  have hwritten : ∀ {name full : List Char} {count : Nat}, full.take 6 = name →
      HasCommas count full → full.take (nmeaSentenceMaxLength - 1) = full →
        Written name count full :=
    fun hname hcommas hfits => ⟨_, hname, hcommas, hfits.symm⟩
  simp only [blankSentences, List.mem_cons, List.not_mem_nil, or_false] at h
  rcases h with rfl | rfl | rfl | rfl
  · exact .inl (hwritten rfl (by decide) rfl)
  · exact .inr (.inl (hwritten rfl (by decide) rfl))
  · exact .inr (.inr (.inl (hwritten rfl (by decide) rfl)))
  · exact .inr (.inr (.inr (hwritten rfl (by decide) rfl)))

/-! ## What is sent -/

theorem count_checksumText (sum : UInt8) : (checksumText sum).count ',' = 0 := by
  have hplain : PlainText hexDigits := by decide
  obtain ⟨i, j, hhigh, hlow, -⟩ := isHex_digits sum
  apply List.count_eq_zero.mpr
  intro hmem
  simp only [checksumText, List.mem_cons, List.not_mem_nil, or_false] at hmem
  rcases hmem with h | h | h | h | h
  · cases h
  · exact (hplain _ (List.mem_of_getElem? hhigh)).comma h.symm
  · exact (hplain _ (List.mem_of_getElem? hlow)).comma h.symm
  · cases h
  · cases h

/-- The name is never cut. -/
theorem Written.name {name sentence : List Char} {count : Nat} (h : Written name count sentence)
    (hname : name.length = 6) :
    (locEngNmeaPutChecksum sentence nmeaSentenceMaxLength).1.take 6 = name := by
  obtain ⟨full, rfl, -, rfl⟩ := h
  rw [List.length_take] at hname
  have hsize : nmeaSentenceMaxLength = 200 := rfl
  unfold locEngNmeaPutChecksum
  rw [List.take_append_of_le_length (by rw [List.length_take]; omega), List.take_take,
    Nat.min_eq_left (by omega)]

/-- A sentence that comes out whole is all that was written, and the checksum. -/
theorem Written.whole {name sentence : List Char} {count : Nat} (h : Written name count sentence)
    (hname : name.length = 6)
    (hwhole : Whole (locEngNmeaPutChecksum sentence nmeaSentenceMaxLength).1) :
    (locEngNmeaPutChecksum sentence nmeaSentenceMaxLength).1.count ',' = count ∧
      (locEngNmeaPutChecksum sentence nmeaSentenceMaxLength).2 + 1 =
        (locEngNmeaPutChecksum sentence nmeaSentenceMaxLength).1.length := by
  obtain ⟨full, rfl, hcommas, rfl⟩ := h
  have hsize : nmeaSentenceMaxLength = 200 := rfl
  have hroom := (whole_iff fun hmem => hcommas.newline (List.mem_of_mem_take hmem)).mp hwhole
  rw [List.length_drop, List.length_take] at hroom
  rw [List.length_take] at hname
  have huncut : full.take (nmeaSentenceMaxLength - 1) = full := by
    apply List.take_of_length_le
    omega
  rw [huncut, put_checksum_of_room (by rw [List.length_drop]; omega)]
  constructor
  · rw [List.count_append, hcommas.commas, count_checksumText]
    rfl
  · rw [List.length_append, List.length_drop, length_checksumText]
    omega

theorem mem_sendAll {sentences : List (Option (List Char))} {sent : List Char × Nat}
    (h : sent ∈ (sendAll sentences).1) :
    ∃ sentence, some sentence ∈ sentences ∧
      sent = locEngNmeaPutChecksum sentence nmeaSentenceMaxLength := by
  induction sentences with
  | nil => cases h
  | cons first rest ih =>
      cases first with
      | none => cases h
      | some sentence =>
          rcases List.mem_cons.mp h with rfl | hrest
          · exact ⟨sentence, List.mem_cons_self, rfl⟩
          · obtain ⟨other, hother, heq⟩ := ih hrest
            exact ⟨other, List.mem_cons_of_mem _ hother, heq⟩

/-- The commas of each type of sentence. -/
def sentenceCommas : List (List Char × Nat) :=
  [("$GPGSA".toList, 17), ("$GPVTG".toList, 9), ("$GPRMC".toList, 12), ("$GPGGA".toList, 14)]

section Sent

variable {data : NmeaData} {location : GpsLocation} {locationExtended : GpsLocationExtended}
  {generate_nmea : Bool} {sent : List Char × Nat}

/-- What is sent for a fix that is not final. -/
theorem mem_blankSentences
    (h : sent ∈ (locEngNmeaGeneratePos data location locationExtended false).2) :
    ∃ sentence ∈ blankSentences, sent = locEngNmeaPutChecksum sentence nmeaSentenceMaxLength := by
  obtain ⟨tm, htm⟩ := gmtime_second location
  have hblank : sent ∈ (sendAll (blankSentences.map some)).1 := by
    unfold GpsLocation.second at htm
    unfold locEngNmeaGeneratePos at h
    rw [htm] at h
    exact h
  obtain ⟨sentence, hmem, rfl⟩ := mem_sendAll hblank
  obtain ⟨blank, hin, heq⟩ := List.mem_map.mp hmem
  obtain rfl := Option.some.inj heq
  exact ⟨blank, hin, rfl⟩

theorem sent_written
    (h : sent ∈ (locEngNmeaGeneratePos data location locationExtended generate_nmea).2) :
    ∃ name count sentence, (name, count) ∈ sentenceCommas ∧ Written name count sentence ∧
      sent = locEngNmeaPutChecksum sentence nmeaSentenceMaxLength := by
  cases generate_nmea with
  | true =>
      obtain ⟨tm, htm⟩ := gmtime_second location
      rw [generate_sent htm] at h
      obtain ⟨sentence, hmem, rfl⟩ := mem_sendAll h
      simp only [List.mem_cons, List.not_mem_nil, or_false] at hmem
      rcases hmem with hgsa | hvtg | hrmc | hgga
      · exact ⟨_, _, sentence, by decide, gsa_written data locationExtended hgsa.symm, rfl⟩
      · exact ⟨_, _, sentence, by decide, vtg_written data location locationExtended hvtg.symm, rfl⟩
      · exact ⟨_, _, sentence, by decide,
          rmc_written data location locationExtended tm hrmc.symm, rfl⟩
      · exact ⟨_, _, sentence, by decide,
          gga_written data location locationExtended tm hgga.symm, rfl⟩
  | false =>
      obtain ⟨blank, hin, rfl⟩ := mem_blankSentences h
      rcases blank_written hin with hgsa | hvtg | hrmc | hgga
      · exact ⟨_, _, blank, by decide, hgsa, rfl⟩
      · exact ⟨_, _, blank, by decide, hvtg, rfl⟩
      · exact ⟨_, _, blank, by decide, hrmc, rfl⟩
      · exact ⟨_, _, blank, by decide, hgga, rfl⟩

theorem length_of_mem_sentenceCommas {name : List Char} {count : Nat}
    (h : (name, count) ∈ sentenceCommas) : name.length = 6 := by
  have hall : ∀ sentence ∈ sentenceCommas, sentence.1.length = 6 := by decide
  exact hall _ h

/-- Each sentence that comes out whole has the commas of its type, and goes to `nmea_cb`
with a length that is one too small. -/
theorem sent_whole
    (h : sent ∈ (locEngNmeaGeneratePos data location locationExtended generate_nmea).2)
    (hwhole : Whole sent.1) :
    (sent.1.take 6, sent.1.count ',') ∈ sentenceCommas ∧ sent.2 + 1 = sent.1.length := by
  obtain ⟨name, count, sentence, hmem, hwritten, rfl⟩ := sent_written h
  have hname := length_of_mem_sentenceCommas hmem
  obtain ⟨hcount, hlength⟩ := hwritten.whole hname hwhole
  rw [hwritten.name hname, hcount]
  exact ⟨hmem, hlength⟩

end Sent

/-! ## The satellites of the first sentence -/

/-- The positions of the bits that are set, counted from one. -/
def setBits (mask : UInt32) : List Nat :=
  ((List.range 32).filter fun i => mask.toNat.testBit i).map (· + 1)

/-- Twelve fields: the first satellites of the mask, and empty ones after them. -/
def satelliteFields (svUsedList : List Nat) : List (List Char) :=
  (svUsedList.take 12).map (fun sv : Nat => printInt 2 (sv : Int)) ++
    List.replicate (12 - svUsedList.length) []

theorem testBit_shiftRight_one (mask : UInt32) (i : Nat) :
    (mask >>> 1).toNat.testBit i = mask.toNat.testBit (i + 1) := by
  rw [UInt32.toNat_shiftRight, Nat.add_comm i 1]
  exact Nat.testBit_shiftRight mask.toNat

theorem and_one_ne_zero_iff (mask : UInt32) : mask &&& 1 ≠ 0 ↔ mask.toNat.testBit 0 = true := by
  have hand : (mask &&& 1).toNat = mask.toNat % 2 := by
    rw [UInt32.toNat_and]
    exact Nat.and_one_is_mod mask.toNat
  rw [Nat.testBit_zero, decide_eq_true_iff, ← hand, Ne, ← UInt32.toNat_inj, hand]
  change ¬ mask.toNat % 2 = 0 ↔ _
  omega

/-- The rounds of the loop add the bits they come to, as long as the list has room. -/
theorem usedSvsFrom_eq {rounds i : Nat} {mask : UInt32} {svUsedList : List Nat}
    (hroom : svUsedList.length + rounds ≤ 32) :
    usedSvsFrom rounds i mask svUsedList = svUsedList ++
      ((List.range rounds).filter fun j => mask.toNat.testBit j).map (· + i) := by
  induction rounds generalizing i mask svUsedList with
  | zero => exact (List.append_nil _).symm
  | succ rounds ih =>
      rw [usedSvsFrom]
      split
      · have hnext : (if mask &&& 1 ≠ 0 then svUsedList ++ [i] else svUsedList).length + rounds ≤
            32 := by
          split
          · rw [List.length_append, List.length_singleton]
            omega
          · omega
        rw [ih hnext, List.range_succ_eq_map, List.filter_cons, List.filter_map]
        have hshift : ((fun j => mask.toNat.testBit j) ∘ Nat.succ) =
            fun j => (mask >>> 1).toNat.testBit j :=
          funext fun j => (testBit_shiftRight_one mask j).symm
        have hmap : ∀ found : List Nat, found.map (· + (i + 1)) =
            (found.map Nat.succ).map (· + i) := by
          intro found
          rw [List.map_map]
          exact List.map_congr_left fun j _ => by simp only [Function.comp_apply]; omega
        rw [hshift, hmap]
        by_cases hbit : mask.toNat.testBit 0 = true
        · rw [if_pos ((and_one_ne_zero_iff mask).mpr hbit), if_pos hbit, List.map_cons,
            Nat.zero_add, List.append_assoc]
          rfl
        · rw [if_neg fun h => hbit ((and_one_ne_zero_iff mask).mp h), if_neg hbit]
      · rename_i hstop
        have hmask : mask = 0 := by
          rw [not_and_or] at hstop
          rcases hstop with hzero | hfull
          · have hle := UInt32.not_lt.mp hzero
            exact UInt32.le_zero_iff.mp hle
          · omega
        rw [hmask]
        simp

theorem usedSvs_eq (sv_used_mask : UInt32) : usedSvs sv_used_mask = setBits sv_used_mask :=
  usedSvsFrom_eq (by decide)

theorem svFields_eq (svUsedList : List Nat) :
    (List.range 12).map (svField svUsedList) =
      (satelliteFields svUsedList).map (· ++ [',']) := by
  have hlength : (satelliteFields svUsedList).length = 12 := by
    rw [satelliteFields, List.length_append, List.length_map, List.length_take,
      List.length_replicate]
    omega
  apply List.ext_getElem
  · rw [List.length_map, List.length_map, List.length_range, hlength]
  · intro i hleft hright
    have htwelve : i < 12 := by
      rwa [List.length_map, List.length_range] at hleft
    have htaken : ((svUsedList.take 12).map fun sv : Nat => printInt 2 (sv : Int)).length =
        min 12 svUsedList.length := by
      rw [List.length_map, List.length_take]
    rw [List.getElem_map, List.getElem_range, List.getElem_map]
    unfold satelliteFields svField
    rw [List.getElem_append]
    split
    · rename_i sv hsv
      obtain ⟨hi, rfl⟩ := List.getElem?_eq_some_iff.mp hsv
      rw [dif_pos (by omega), List.getElem_map, List.getElem_take]
    · rename_i hnone
      have hi := List.getElem?_eq_none_iff.mp hnone
      rw [dif_neg (by omega), List.getElem_replicate]
      rfl

def dopFields : Option (ℚ × ℚ × ℚ) → List (List Char)
  | some (pdop, hdop, vdop) => [oneDecimal pdop, oneDecimal hdop, oneDecimal vdop]
  | none => [[], [], []]

theorem dopFields_ne_nil (dop : Option (ℚ × ℚ × ℚ)) : dopFields dop ≠ [] := by
  cases dop with
  | none => exact List.cons_ne_nil _ _
  | some dop => exact List.cons_ne_nil _ _

/-- The fields of the first sentence. -/
def gsaFields (data : NmeaData) (locationExtended : GpsLocationExtended)
    (svUsedList : List Nat) : List (List Char) :=
  [['G', 'P', 'G', 'S', 'A'], ['A'], [fixType svUsedList.length]] ++ satelliteFields svUsedList ++
    dopFields (dops data locationExtended)

theorem intercalate_append {fields rest : List (List Char)} (h : rest ≠ []) :
    [','].intercalate (fields ++ rest) =
      (fields.map (· ++ [','])).flatten ++ [','].intercalate rest := by
  induction fields with
  | nil => rfl
  | cons field fields ih =>
      rw [List.cons_append,
        List.intercalate_cons_of_ne_nil (List.append_ne_nil_of_right_ne_nil _ h), ih,
        List.map_cons, List.flatten_cons]
      simp only [List.append_assoc]

theorem gsa_eq (data : NmeaData) (locationExtended : GpsLocationExtended)
    (svUsedList : List Nat) :
    ∃ checked last, gsa data locationExtended svUsedList = format checked last ∧
      checked.flatten ++ last =
        '$' :: [','].intercalate (gsaFields data locationExtended svUsedList) := by
  refine ⟨_, _, rfl, ?_⟩
  unfold gsaFields
  rw [List.flatten_cons, svFields_eq, intercalate_append (dopFields_ne_nil _), List.map_append,
    List.flatten_append]
  cases dops data locationExtended with
  | none => simp [dopFields, List.intercalate_cons_cons]
  | some dop => simp [dopFields, List.intercalate_cons_cons]

theorem plainText_gsaFields (data : NmeaData) (locationExtended : GpsLocationExtended)
    (svUsedList : List Nat) :
    ∀ field ∈ gsaFields data locationExtended svUsedList, PlainText field := by
  intro field hfield
  rcases List.mem_append.mp hfield with hfield | hdop
  · rcases List.mem_append.mp hfield with hhead | hsv
    · have hfix : PlainText [fixType svUsedList.length] := by
        unfold fixType
        split_ifs
        · decide
        · decide
        · decide
      simp only [List.mem_cons, List.not_mem_nil, or_false] at hhead
      rcases hhead with rfl | rfl | rfl
      · decide
      · decide
      · exact hfix
    · rcases List.mem_append.mp hsv with hused | hempty
      · obtain ⟨sv, -, rfl⟩ := List.mem_map.mp hused
        exact plainText_printInt _ _
      · rw [List.eq_of_mem_replicate hempty]
        exact nofun
  · cases hdops : dops data locationExtended with
    | none =>
        simp only [hdops, dopFields, List.mem_cons, List.not_mem_nil, or_false, or_self] at hdop
        rw [hdop]
        exact nofun
    | some dop =>
        simp only [hdops, dopFields, List.mem_cons, List.not_mem_nil, or_false] at hdop
        rcases hdop with rfl | rfl | rfl
        · exact plainText_oneDecimal _
        · exact plainText_oneDecimal _
        · exact plainText_oneDecimal _

/-- The satellites of a sentence are its fields from the fourth to the fifteenth. -/
theorem satelliteFields_of_gsaFields (data : NmeaData) (locationExtended : GpsLocationExtended)
    (svUsedList : List Nat) :
    ((gsaFields data locationExtended svUsedList).drop 3).take 12 = satelliteFields svUsedList := by
  have hlength : (satelliteFields svUsedList).length = 12 := by
    have heq := congrArg List.length (svFields_eq svUsedList)
    rw [List.length_map, List.length_map, List.length_range] at heq
    exact heq.symm
  unfold gsaFields
  rw [List.append_assoc]
  exact List.take_left' hlength

/-- The first sentence, if it comes out whole, has the fields it was written with. -/
theorem gsa_fieldsOf {data : NmeaData} {locationExtended : GpsLocationExtended}
    {svUsedList : List Nat} {sentence : List Char}
    (h : gsa data locationExtended svUsedList = some sentence)
    (hwhole : Whole (locEngNmeaPutChecksum sentence nmeaSentenceMaxLength).1) :
    fieldsOf (locEngNmeaPutChecksum sentence nmeaSentenceMaxLength).1 =
      some (gsaFields data locationExtended svUsedList) := by
  obtain ⟨checked, last, hformat, hfull⟩ := gsa_eq data locationExtended svUsedList
  have hplain := plainText_gsaFields data locationExtended svUsedList
  obtain ⟨_, -, hcommas, hcut⟩ := gsa_written data locationExtended h
  have hnewline : '\n' ∉ sentence := fun hmem =>
    hcommas.newline (List.mem_of_mem_take (hcut ▸ hmem))
  have hroom := (whole_iff hnewline).mp hwhole
  have hsize : nmeaSentenceMaxLength = 200 := rfl
  rw [hformat] at h
  rw [format_eq_some h, hfull, List.length_drop, List.length_take, List.length_cons] at hroom
  obtain ⟨other, hother, hfields⟩ :=
    (format_fields_iff hfull (List.cons_ne_nil _ _) hplain).mpr ⟨rfl, by omega⟩
  obtain rfl := Option.some.inj (h.symm.trans hother)
  exact hfields

section Report

variable (data : NmeaData) (location : GpsLocation) (locationExtended : GpsLocationExtended)

/-- The satellites of a sentence `$GPGSA` of a final fix are the first twelve of the mask. -/
theorem gsa_satellites {sent : List Char × Nat}
    (h : sent ∈ (locEngNmeaGeneratePos data location locationExtended true).2)
    (hwhole : Whole sent.1) (hgsa : sent.1.take 6 = "$GPGSA".toList) :
    ∃ fields, fieldsOf sent.1 = some fields ∧
      (fields.drop 3).take 12 = satelliteFields (setBits data.sv_used_mask) := by
  obtain ⟨tm, htm⟩ := gmtime_second location
  rw [generate_sent htm] at h
  obtain ⟨sentence, hmem, rfl⟩ := mem_sendAll h
  have hother : ∀ {name : List Char} {count : Nat}, Written name count sentence →
      name.length = 6 → name = "$GPGSA".toList := fun hwritten hname =>
    (hwritten.name hname).symm.trans hgsa
  simp only [List.mem_cons, List.not_mem_nil, or_false] at hmem
  rcases hmem with hgsa | hvtg | hrmc | hgga
  · refine ⟨_, gsa_fieldsOf hgsa.symm hwhole, ?_⟩
    rw [satelliteFields_of_gsaFields, usedSvs_eq]
  · exact absurd (hother (vtg_written data location locationExtended hvtg.symm) rfl) (by decide)
  · exact absurd (hother (rmc_written data location locationExtended tm hrmc.symm) rfl) (by decide)
  · exact absurd (hother (gga_written data location locationExtended tm hgga.symm) rfl) (by decide)

/-- The blank sentence `$GPGSA` has none, whatever the mask. -/
theorem blank_satellites {sent : List Char × Nat}
    (h : sent ∈ (locEngNmeaGeneratePos data location locationExtended false).2)
    (hgsa : sent.1.take 6 = "$GPGSA".toList) :
    ∃ fields, fieldsOf sent.1 = some fields ∧ (fields.drop 3).take 12 = satelliteFields [] := by
  have hall : ∀ sentence ∈ blankSentences,
      (locEngNmeaPutChecksum sentence nmeaSentenceMaxLength).1.take 6 = "$GPGSA".toList →
        (fieldsOf (locEngNmeaPutChecksum sentence nmeaSentenceMaxLength).1).map
          (fun fields => (fields.drop 3).take 12) = some (satelliteFields []) := by
    decide +kernel
  obtain ⟨blank, hin, rfl⟩ := mem_blankSentences h
  exact Option.map_eq_some_iff.mp (hall blank hin hgsa)

theorem commas_of_mem_sentenceCommas {name : List Char} {first second : Nat}
    (hfirst : (name, first) ∈ sentenceCommas) (hsecond : (name, second) ∈ sentenceCommas) :
    first = second := by
  have hall : ∀ one ∈ sentenceCommas, ∀ other ∈ sentenceCommas, one.1 = other.1 →
      one.2 = other.2 := by
    decide
  exact hall _ hfirst _ hsecond rfl

end Report

/-- The sentence was sent for some report, and came out whole. -/
def Sent (sentence : List Char) : Prop :=
  ∃ (data : NmeaData) (location : GpsLocation) (locationExtended : GpsLocationExtended)
    (generate_nmea : Bool) (length : Nat),
    (sentence, length) ∈ (locEngNmeaGeneratePos data location locationExtended generate_nmea).2 ∧
      Whole sentence

/-- Two sentences of one type have as many commas, whatever reports they were sent for. The
satellite fields of the first sentence are those of the mask for a final fix, and empty for
any other. -/
theorem fields_constant :
    (∀ sentence other, Sent sentence → Sent other → sentence.take 6 = other.take 6 →
      sentence.count ',' = other.count ',') ∧
    ∀ (data : NmeaData) (location : GpsLocation) (locationExtended : GpsLocationExtended)
      (generate_nmea : Bool),
      ∀ sent ∈ (locEngNmeaGeneratePos data location locationExtended generate_nmea).2,
        Whole sent.1 → sent.1.take 6 = "$GPGSA".toList → ∃ fields,
          fieldsOf sent.1 = some fields ∧ (fields.drop 3).take 12 =
            satelliteFields (if generate_nmea then setBits data.sv_used_mask else []) := by
  constructor
  · rintro sentence other ⟨_, _, _, _, _, hsent, hwhole⟩ ⟨_, _, _, _, _, hother, hwhole'⟩ htype
    have hmem := (sent_whole hsent hwhole).1
    have hmem' := (sent_whole hother hwhole').1
    dsimp only at hmem hmem'
    rw [htype] at hmem
    exact commas_of_mem_sentenceCommas hmem hmem'
  · intro data location locationExtended generate_nmea sent hsent hwhole hgsa
    cases generate_nmea with
    | true => exact gsa_satellites data location locationExtended hsent hwhole hgsa
    | false => exact blank_satellites data location locationExtended hsent hgsa

/-- A final fix and a blank report. -/
theorem fields_constant_eastward :
    (∃ sent ∈ (locEngNmeaGeneratePos dataOfFix eastward ⟨0x7, 500, 1.5, 0.9, 1.2, 0⟩ true).2,
      ∃ other ∈ (locEngNmeaGeneratePos dataOfFix eastward ⟨0x7, 500, 1.5, 0.9, 1.2, 0⟩ false).2,
        sent.1 ≠ other.1 ∧ sent.1.count ',' = other.1.count ',') ∧
    ∃ sent ∈ (locEngNmeaGeneratePos dataOfFix eastward ⟨0x7, 500, 1.5, 0.9, 1.2, 0⟩ true).2,
      ∃ fields, fieldsOf sent.1 = some fields ∧
        (fields.drop 3).take 12 = satelliteFields (setBits dataOfFix.sv_used_mask) := by
  have hboth :
      ∃ sent ∈ (locEngNmeaGeneratePos dataOfFix eastward ⟨0x7, 500, 1.5, 0.9, 1.2, 0⟩ true).2,
      ∃ other ∈ (locEngNmeaGeneratePos dataOfFix eastward ⟨0x7, 500, 1.5, 0.9, 1.2, 0⟩ false).2,
        sent.1 ≠ other.1 ∧ Whole sent.1 ∧ Whole other.1 ∧
          sent.1.take 6 = "$GPGSA".toList ∧ other.1.take 6 = "$GPGSA".toList := by
    decide +kernel
  obtain ⟨sent, hsent, other, hother, hne, hwhole, hwhole', hgsa, hgsa'⟩ := hboth
  refine ⟨⟨sent, hsent, other, hother, hne, ?_⟩, sent, hsent, ?_⟩
  · exact fields_constant.1 sent.1 other.1 ⟨_, _, _, _, _, hsent, hwhole⟩
      ⟨_, _, _, _, _, hother, hwhole'⟩ (hgsa.trans hgsa'.symm)
  · exact fields_constant.2 _ _ _ true sent hsent hwhole hgsa

/-- A report that is not final, with satellites in the mask. -/
theorem blank_gsa_without_satellites :
    ¬ ((∀ sentence other, Sent sentence → Sent other → sentence.take 6 = other.take 6 →
        sentence.count ',' = other.count ',') ∧
      ∀ (data : NmeaData) (location : GpsLocation) (locationExtended : GpsLocationExtended)
        (generate_nmea : Bool),
        ∀ sent ∈ (locEngNmeaGeneratePos data location locationExtended generate_nmea).2,
          Whole sent.1 → sent.1.take 6 = "$GPGSA".toList → ∃ fields,
            fieldsOf sent.1 = some fields ∧
              (fields.drop 3).take 12 = satelliteFields (setBits data.sv_used_mask)) := by
  rintro ⟨-, hsatellites⟩
  have hblank :
      ∃ sent ∈ (locEngNmeaGeneratePos dataOfFix eastward ⟨0x7, 500, 1.5, 0.9, 1.2, 0⟩ false).2,
        Whole sent.1 ∧ sent.1.take 6 = "$GPGSA".toList := by
    decide +kernel
  obtain ⟨sent, hsent, hwhole, hgsa⟩ := hblank
  obtain ⟨fields, hfields, hmask⟩ := hsatellites _ _ _ false sent hsent hwhole hgsa
  obtain ⟨blank, hread, hempty⟩ := blank_satellites _ _ _ hsent hgsa
  obtain rfl := Option.some.inj (hread.symm.trans hfields)
  rw [hempty] at hmask
  exact absurd hmask (by decide)

end Msm8916.Nmea
