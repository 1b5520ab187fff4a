import Msm8916.Nmea.Decode

/-!
When the position sentences give back the report.
-/

namespace Msm8916.Nmea

open Calendar Decimal

/-! ## The fields of a report with all values -/

section Fields

variable (data : NmeaData) (location : GpsLocation) (locationExtended : GpsLocationExtended)
  (tm : Tm)

def latHemisphere : Char := if location.latitude > 0 then 'N' else 'S'

def lonHemisphere : Char := if location.longitude < 0 then 'W' else 'E'

def vtgFields : List (List Char) :=
  [['G', 'P', 'V', 'T', 'G'], oneDecimal location.bearing, ['T'], oneDecimal location.bearing,
    ['M'], oneDecimal (speedKnots location), ['N'], oneDecimal (speedKmPerHour location), ['K'],
    [modeIndicator data location]]

def rmcFields : List (List Char) :=
  [['G', 'P', 'R', 'M', 'C'], timeOfDay tm, ['A'], degreesMinutes 2 |location.latitude|,
    [latHemisphere location], degreesMinutes 3 |location.longitude|, [lonHemisphere location],
    oneDecimal (speedKnots location), oneDecimal location.bearing,
    printInt 2 tm.tm_mday ++ printInt 2 (tm.tm_mon + 1) ++ printInt 2 (utcYear tm),
    oneDecimal |locationExtended.magneticDeviation|,
    [if locationExtended.magneticDeviation < 0 then 'W' else 'E'],
    [modeIndicator data location]]

def ggaFields : List (List Char) :=
  [['G', 'P', 'G', 'G', 'A'], timeOfDay tm, degreesMinutes 2 |location.latitude|,
    [latHemisphere location], degreesMinutes 3 |location.longitude|, [lonHemisphere location],
    [gpsQuality data location], printInt 2 (usedSvs data.sv_used_mask).length,
    oneDecimal locationExtended.hdop, oneDecimal locationExtended.altitudeMeanSeaLevel, ['M'],
    oneDecimal (location.altitude - locationExtended.altitudeMeanSeaLevel), ['M'], [], []]

variable {location locationExtended}

theorem latLong_eq (h : location.has gpsLocationHasLatLong = true) :
    latLong location = degreesMinutes 2 |location.latitude| ++
      [',', latHemisphere location, ','] ++ degreesMinutes 3 |location.longitude| ++
      [',', lonHemisphere location, ','] := by
  have hlat : (if location.latitude > 0 then (location.latitude, 'N')
      else (location.latitude * -1, 'S')) = (|location.latitude|, latHemisphere location) := by
    unfold latHemisphere
    split
    · rename_i hpos
      rw [abs_of_pos hpos]
    · rename_i hneg
      rw [abs_of_nonpos (not_lt.mp hneg), mul_neg_one]
  have hlon : (if location.longitude < 0 then (location.longitude * -1, 'W')
      else (location.longitude, 'E')) = (|location.longitude|, lonHemisphere location) := by
    unfold lonHemisphere
    split
    · rename_i hneg
      rw [abs_of_neg hneg, mul_neg_one]
    · rename_i hpos
      rw [abs_of_nonneg (not_lt.mp hpos)]
  unfold latLong
  rw [if_pos h, hlat, hlon]

theorem vtg_eq (h : AllValid location locationExtended) :
    ∃ checked last, vtg data location locationExtended = format checked last ∧
      checked.flatten ++ last = '$' :: [','].intercalate (vtgFields data location) := by
  refine ⟨_, _, rfl, ?_⟩
  rw [if_pos h.bearing, if_pos h.speed]
  simp [vtgFields, List.intercalate_cons_cons]

theorem rmc_eq (h : AllValid location locationExtended) :
    ∃ checked last, rmc data location locationExtended tm = format checked last ∧
      checked.flatten ++ last =
        '$' :: [','].intercalate (rmcFields data location locationExtended tm) := by
  have hdev : (if locationExtended.magneticDeviation < 0 then
      (locationExtended.magneticDeviation * -1, 'W')
      else (locationExtended.magneticDeviation, 'E')) =
      (|locationExtended.magneticDeviation|,
        if locationExtended.magneticDeviation < 0 then 'W' else 'E') := by
    split
    · rename_i hneg
      rw [abs_of_neg hneg, mul_neg_one]
    · rename_i hpos
      rw [abs_of_nonneg (not_lt.mp hpos)]
  refine ⟨_, _, rfl, ?_⟩
  rw [if_pos h.bearing, if_pos h.speed, if_pos h.magDev, hdev, latLong_eq h.latLong]
  simp [rmcFields, List.intercalate_cons_cons]

theorem gga_eq (h : AllValid location locationExtended) :
    ∃ checked last,
      gga data location locationExtended tm (usedSvs data.sv_used_mask).length =
        format checked last ∧
      checked.flatten ++ last =
        '$' :: [','].intercalate (ggaFields data location locationExtended tm) := by
  refine ⟨_, _, rfl, ?_⟩
  rw [if_pos h.altitudeMeanSeaLevel, if_pos ⟨h.altitude, h.altitudeMeanSeaLevel⟩,
    latLong_eq h.latLong, dops, if_pos h.dop]
  simp [ggaFields, List.intercalate_cons_cons]

end Fields

/-! ## Fields are plain -/

theorem plainText_timeOfDay (tm : Tm) : PlainText (timeOfDay tm) :=
  plainText_append (plainText_append (plainText_printInt _ _) (plainText_printInt _ _))
    (plainText_printInt _ _)

theorem plainText_degreesMinutes (width : Nat) (angle : ℚ) :
    PlainText (degreesMinutes width angle) :=
  plainText_append (plainText_printInt _ _) (plainText_printFixed _ _ _)

theorem plainText_oneDecimal (x : ℚ) : PlainText (oneDecimal x) := plainText_printFixed 0 1 x

/-- One of two letters. -/
theorem plainText_letter {p : Prop} [Decidable p] {first second : Char} (hfirst : Plain first)
    (hsecond : Plain second) : PlainText [if p then first else second] := by
  intro c hc
  rw [List.mem_singleton.mp hc]
  split
  · exact hfirst
  · exact hsecond

theorem plainText_modeIndicator (data : NmeaData) (location : GpsLocation) :
    PlainText [modeIndicator data location] := by
  intro c hc
  rw [List.mem_singleton.mp hc, modeIndicator]
  split_ifs
  · decide
  · decide
  · decide

theorem plainText_gpsQuality (data : NmeaData) (location : GpsLocation) :
    PlainText [gpsQuality data location] := by
  intro c hc
  rw [List.mem_singleton.mp hc, gpsQuality]
  split_ifs
  · decide
  · decide
  · decide

section Plain

variable (data : NmeaData) (location : GpsLocation) (locationExtended : GpsLocationExtended)
  (tm : Tm)

theorem plainText_vtgFields : ∀ field ∈ vtgFields data location, PlainText field := by
  simp only [vtgFields, List.forall_mem_cons]
  refine ⟨by decide, plainText_oneDecimal _, by decide, plainText_oneDecimal _, by decide,
    plainText_oneDecimal _, by decide, plainText_oneDecimal _, by decide,
    plainText_modeIndicator _ _, nofun⟩

theorem plainText_rmcFields :
    ∀ field ∈ rmcFields data location locationExtended tm, PlainText field := by
  simp only [rmcFields, List.forall_mem_cons]
  refine ⟨by decide, plainText_timeOfDay tm, by decide, plainText_degreesMinutes _ _,
    plainText_letter (by decide) (by decide), plainText_degreesMinutes _ _,
    plainText_letter (by decide) (by decide), plainText_oneDecimal _, plainText_oneDecimal _,
    ?_, plainText_oneDecimal _, plainText_letter (by decide) (by decide),
    plainText_modeIndicator _ _, nofun⟩
  exact plainText_append (plainText_append (plainText_printInt _ _) (plainText_printInt _ _))
    (plainText_printInt _ _)

theorem plainText_ggaFields :
    ∀ field ∈ ggaFields data location locationExtended tm, PlainText field := by
  simp only [ggaFields, List.forall_mem_cons]
  refine ⟨by decide, plainText_timeOfDay tm, plainText_degreesMinutes _ _,
    plainText_letter (by decide) (by decide), plainText_degreesMinutes _ _,
    plainText_letter (by decide) (by decide), plainText_gpsQuality _ _, plainText_printInt _ _,
    plainText_oneDecimal _, plainText_oneDecimal _, by decide, plainText_oneDecimal _, by decide,
    nofun, nofun, nofun⟩

end Plain

/-! ## What is read of the fields -/

section Read

variable {data : NmeaData} {location : GpsLocation} {locationExtended : GpsLocationExtended}
  {tm : Tm}

theorem readFixed_oneDecimal (x : ℚ) : readFixed (oneDecimal x) = some (roundTo 1 x) :=
  readFixed_printFixed 0 (by decide) x

theorem vtg_ofFields : Vtg.ofFields (vtgFields data location) =
    some ⟨roundTo 1 location.bearing, roundTo 1 location.bearing,
      roundTo 1 (speedKnots location), roundTo 1 (speedKmPerHour location),
      modeIndicator data location⟩ := by
  simp only [Vtg.ofFields, vtgFields, readFixed_oneDecimal]
  rfl

/-- The magnetic track that is printed is the true track. -/
theorem vtg_right_iff : (∃ found, Vtg.ofFields (vtgFields data location) = some found ∧
      VtgRight data location locationExtended found) ↔
    ∃ turns : ℤ, roundTo 1 location.bearing =
      roundTo 1 (location.bearing - locationExtended.magneticDeviation + 360 * turns) := by
  rw [vtg_ofFields]
  constructor
  · rintro ⟨found, hfound, hright⟩
    obtain rfl := Option.some.inj hfound
    exact hright.magTrack
  · intro hturns
    exact ⟨_, rfl, rfl, hturns, rfl, rfl, rfl⟩

theorem latitude_spec (location : GpsLocation) :
    ∃ angle, readAngle (degreesMinutes 2 |location.latitude|) [latHemisphere location] 'N' 'S' =
        some angle ∧
      (angle = roundAngle location.latitude ↔ |location.latitude| < 256) := by
  apply readAngle_abs 2 location.latitude (by decide)
  unfold latHemisphere
  split
  · rename_i hpos
    exact .inl ⟨rfl, hpos.le⟩
  · rename_i hneg
    exact .inr ⟨rfl, not_lt.mp hneg⟩

theorem longitude_spec (location : GpsLocation) :
    ∃ angle, readAngle (degreesMinutes 3 |location.longitude|) [lonHemisphere location] 'E' 'W' =
        some angle ∧
      (angle = roundAngle location.longitude ↔ |location.longitude| < 256) := by
  apply readAngle_abs 3 location.longitude (by decide)
  unfold lonHemisphere
  split
  · rename_i hneg
    exact .inr ⟨rfl, hneg.le⟩
  · rename_i hpos
    exact .inl ⟨rfl, not_lt.mp hpos⟩

theorem readDeclination_spec (declination : ℚ) :
    readDeclination (oneDecimal |declination|) [if declination < 0 then 'W' else 'E'] =
      some (roundTo 1 declination) := by
  unfold readDeclination
  rw [readFixed_oneDecimal]
  split
  · rename_i hneg
    rw [abs_of_neg hneg, roundTo_neg]
    simp
  · rename_i hpos
    rw [abs_of_nonneg (not_lt.mp hpos)]
    rfl

theorem length_two {n : Nat} (h : n < 100) : (digits 2 n).length = 2 :=
  length_digits (by decide) h

theorem readTriple_digits {first second third : Nat} (hfirst : first < 100)
    (hsecond : second < 100) (hthird : third < 100) :
    readTriple (digits 2 first ++ digits 2 second ++ digits 2 third) =
      some (first, second, third) := by
  have hlength : (digits 2 first ++ digits 2 second ++ digits 2 third).length = 6 := by
    simp only [List.length_append, length_two, hfirst, hsecond, hthird]
  have hfront : (digits 2 first ++ digits 2 second ++ digits 2 third).take 2 =
      digits 2 first := by
    rw [List.append_assoc]
    exact List.take_left' (length_two hfirst)
  have hmiddle : ((digits 2 first ++ digits 2 second ++ digits 2 third).drop 2).take 2 =
      digits 2 second := by
    rw [List.append_assoc, List.drop_left' (length_two hfirst)]
    exact List.take_left' (length_two hsecond)
  have hback : (digits 2 first ++ digits 2 second ++ digits 2 third).drop 4 =
      digits 2 third := by
    apply List.drop_left'
    rw [List.length_append, length_two hfirst, length_two hsecond]
  rw [readTriple, if_pos hlength, hfront, hmiddle, hback, readNat_digits, readNat_digits,
    readNat_digits]
  rfl

theorem monthLength_le (year : Int) (month : Nat) : monthLength year month ≤ 31 := by
  unfold monthLength
  split
  · split
    · decide
    · decide
  · decide
  · decide
  · decide
  · decide
  · decide

theorem readTriple_timeOfDay (h : gmtime location.second = some tm) :
    readTriple (timeOfDay tm) = some (tm.tm_hour, tm.tm_min, tm.tm_sec) := by
  obtain ⟨-, hhour, hmin, hsec, -⟩ := gmtime_spec h
  rw [timeOfDay, printInt_natCast, printInt_natCast, printInt_natCast]
  exact readTriple_digits (by omega) (by omega) (by omega)

/-- The year of a century that is printed is that of the date, unless it is negative. -/
theorem utcYear_spec (h : 0 ≤ utcYear tm) :
    (utcYear tm).toNat < 100 ∧ (tm.tm_year + 1900) % 100 = (utcYear tm).toNat := by
  have hlt : utcYear tm < 100 := Int.tmod_lt_of_pos _ (by decide)
  have hsplit : 100 * tm.tm_year.tdiv 100 + utcYear tm = tm.tm_year :=
    Int.mul_tdiv_add_tmod tm.tm_year 100
  omega

/-- A negative year takes one character too many. -/
theorem readTriple_date (h : gmtime location.second = some tm) :
    readTriple (printInt 2 tm.tm_mday ++ printInt 2 (tm.tm_mon + 1) ++ printInt 2 (utcYear tm)) =
      if 0 ≤ utcYear tm then some (tm.tm_mday, tm.tm_mon + 1, (utcYear tm).toNat) else none := by
  obtain ⟨hvalid, -⟩ := gmtime_spec h
  have hday := hvalid.day_le.trans (monthLength_le _ _)
  have hmonth := hvalid.month_le
  dsimp only at hday hmonth
  have hmon : printInt 2 (tm.tm_mon + 1) = digits 2 (tm.tm_mon + 1) := by
    rw [← printInt_natCast]
    rfl
  rw [printInt_natCast, hmon]
  split
  · rename_i hyear
    have hprint : printInt 2 (utcYear tm) = digits 2 (utcYear tm).toNat := by
      rw [← printInt_natCast, Int.toNat_of_nonneg hyear]
    rw [hprint]
    exact readTriple_digits (by omega) (by omega) (utcYear_spec hyear).1
  · rename_i hyear
    rw [readTriple, if_neg]
    have hlong := le_length_digits 2 (utcYear tm).natAbs
    rw [printInt, if_pos (not_le.mp hyear)]
    simp only [List.length_append, List.length_cons, List.length_nil,
      length_two (show tm.tm_mday < 100 by omega), length_two (show tm.tm_mon + 1 < 100 by omega)]
    omega

theorem rmc_right_iff (h : gmtime location.second = some tm) :
    (∃ found, Rmc.ofFields (rmcFields data location locationExtended tm) = some found ∧
      RmcRight data location locationExtended found) ↔
    |location.latitude| < 256 ∧ |location.longitude| < 256 ∧ 0 ≤ utcYear tm := by
  obtain ⟨latitude, hlatitude, hlatIff⟩ := latitude_spec location
  obtain ⟨longitude, hlongitude, hlonIff⟩ := longitude_spec location
  obtain ⟨hvalid, hhour, hmin, hsec, hsecond⟩ := gmtime_spec h
  have hfields : Rmc.ofFields (rmcFields data location locationExtended tm) =
      if 0 ≤ utcYear tm then
        some ⟨(tm.tm_hour, tm.tm_min, tm.tm_sec), latitude, longitude,
          roundTo 1 (speedKnots location), roundTo 1 location.bearing,
          (tm.tm_mday, tm.tm_mon + 1, (utcYear tm).toNat),
          roundTo 1 locationExtended.magneticDeviation, modeIndicator data location⟩
      else
        none := by
    simp only [Rmc.ofFields, rmcFields, readTriple_timeOfDay h, hlatitude, hlongitude,
      readFixed_oneDecimal, readTriple_date h, readDeclination_spec]
    split
    · rfl
    · rfl
  rw [hfields]
  constructor
  · rintro ⟨found, hfound, hright⟩
    split at hfound
    · rename_i hyear
      obtain rfl := Option.some.inj hfound
      exact ⟨hlatIff.mp hright.latitude, hlonIff.mp hright.longitude, hyear⟩
    · cases hfound
  · rintro ⟨hlat, hlon, hyear⟩
    rw [if_pos hyear]
    refine ⟨_, rfl, ?_, hlatIff.mpr hlat, hlonIff.mpr hlon, rfl, rfl, rfl, rfl⟩
    exact ⟨tm.tm_year + 1900, (utcYear_spec hyear).2, hvalid, hhour, hmin, hsec, hsecond⟩

theorem gga_right_iff (h : gmtime location.second = some tm) :
    (∃ found, Gga.ofFields (ggaFields data location locationExtended tm) = some found ∧
      GgaRight data location locationExtended found) ↔
    |location.latitude| < 256 ∧ |location.longitude| < 256 := by
  obtain ⟨latitude, hlatitude, hlatIff⟩ := latitude_spec location
  obtain ⟨longitude, hlongitude, hlonIff⟩ := longitude_spec location
  obtain ⟨hvalid, hhour, hmin, hsec, hsecond⟩ := gmtime_spec h
  have hfields : Gga.ofFields (ggaFields data location locationExtended tm) =
      some ⟨(tm.tm_hour, tm.tm_min, tm.tm_sec), latitude, longitude, gpsQuality data location,
        (usedSvs data.sv_used_mask).length, roundTo 1 locationExtended.hdop,
        roundTo 1 locationExtended.altitudeMeanSeaLevel,
        roundTo 1 (location.altitude - locationExtended.altitudeMeanSeaLevel)⟩ := by
    simp only [Gga.ofFields, ggaFields, readTriple_timeOfDay h, hlatitude, hlongitude,
      readFixed_oneDecimal, printInt_natCast, readNat_digits]
    rfl
  rw [hfields]
  constructor
  · rintro ⟨found, hfound, hright⟩
    obtain rfl := Option.some.inj hfound
    exact ⟨hlatIff.mp hright.latitude, hlonIff.mp hright.longitude⟩
  · rintro ⟨hlat, hlon⟩
    refine ⟨_, rfl, ?_, hlatIff.mpr hlat, hlonIff.mpr hlon, rfl, rfl, rfl, rfl, rfl⟩
    exact ⟨_, hvalid, hhour, hmin, hsec, hsecond⟩

end Read

/-! ## The first sentence never fails -/

theorem usedSvsFrom_le {rounds i : Nat} {mask : UInt32} {svUsedList : List Nat} {sv : Nat}
    (h : sv ∈ usedSvsFrom rounds i mask svUsedList) : sv ∈ svUsedList ∨ sv < i + rounds := by
  induction rounds generalizing i mask svUsedList with
  | zero => exact .inl h
  | succ rounds ih =>
      rw [usedSvsFrom] at h
      split at h
      · rcases ih h with hlist | hlt
        · split at hlist
          · rcases List.mem_append.mp hlist with hmem | hnew
            · exact .inl hmem
            · rw [List.mem_singleton] at hnew
              exact .inr (by omega)
          · exact .inl hlist
        · exact .inr (by omega)
      · exact .inl h

theorem usedSvs_lt {sv_used_mask : UInt32} {sv : Nat} (h : sv ∈ usedSvs sv_used_mask) :
    sv < 100 := by
  rcases usedSvsFrom_le h with hnone | hlt
  · cases hnone
  · omega

theorem length_svField_le (sv_used_mask : UInt32) (i : Nat) :
    (svField (usedSvs sv_used_mask) i).length ≤ 3 := by
  unfold svField
  split
  · rename_i sv hsv
    have hlt := usedSvs_lt (List.mem_of_getElem? hsv)
    rw [printInt_natCast, List.length_append, length_two hlt]
    decide
  · decide

theorem length_flatten_le {parts : List (List Char)} {bound : Nat}
    (h : ∀ part ∈ parts, part.length ≤ bound) : parts.flatten.length ≤ bound * parts.length := by
  induction parts with
  | nil => exact Nat.zero_le _
  | cons part rest ih =>
      have hfirst := h part List.mem_cons_self
      have hrest := ih fun other hother => h other (List.mem_cons_of_mem _ hother)
      rw [List.flatten_cons, List.length_append, List.length_cons, Nat.mul_succ]
      omega

theorem gsa_isSome (data : NmeaData) (locationExtended : GpsLocationExtended)
    (sv_used_mask : UInt32) :
    ∃ sentence, gsa data locationExtended (usedSvs sv_used_mask) = some sentence := by
  apply format_isSome
  have hsvs : ((List.range 12).map (svField (usedSvs sv_used_mask))).flatten.length ≤ 3 * 12 := by
    apply length_flatten_le
    intro part hpart
    obtain ⟨i, -, rfl⟩ := List.mem_map.mp hpart
    exact length_svField_le sv_used_mask i
  have hhead : ("$GPGSA,A,".toList ++ [fixType (usedSvs sv_used_mask).length, ',']).length = 11 :=
    rfl
  have hroom : nmeaSentenceMaxLength = 200 := rfl
  rw [List.flatten_cons, List.length_append, hhead, hroom]
  omega

/-! ## Reports and sentences -/

section Main

variable {data : NmeaData} {location : GpsLocation} {locationExtended : GpsLocationExtended}
  {tm : Tm}

theorem vtg_sent_iff (h : AllValid location locationExtended) :
    (∃ sentence, vtg data location locationExtended = some sentence ∧ ∃ found,
      (fieldsOf (locEngNmeaPutChecksum sentence nmeaSentenceMaxLength).1).bind Vtg.ofFields =
        some found ∧ VtgRight data location locationExtended found) ↔
    HasRoom (vtgFields data location) ∧ ∃ turns : ℤ, roundTo 1 location.bearing =
      roundTo 1 (location.bearing - locationExtended.magneticDeviation + 360 * turns) := by
  obtain ⟨checked, last, hformat, hfull⟩ := vtg_eq data h
  rw [hformat, ← @vtg_right_iff data]
  exact format_read_iff hfull nofun (plainText_vtgFields data location) Vtg.ofFields _

theorem rmc_sent_iff (h : AllValid location locationExtended)
    (htm : gmtime location.second = some tm) :
    (∃ sentence, rmc data location locationExtended tm = some sentence ∧ ∃ found,
      (fieldsOf (locEngNmeaPutChecksum sentence nmeaSentenceMaxLength).1).bind Rmc.ofFields =
        some found ∧ RmcRight data location locationExtended found) ↔
    HasRoom (rmcFields data location locationExtended tm) ∧
      |location.latitude| < 256 ∧ |location.longitude| < 256 ∧ 0 ≤ utcYear tm := by
  obtain ⟨checked, last, hformat, hfull⟩ := rmc_eq data tm h
  rw [hformat, ← rmc_right_iff htm]
  exact format_read_iff hfull nofun (plainText_rmcFields data location locationExtended tm)
    Rmc.ofFields _

theorem gga_sent_iff (h : AllValid location locationExtended)
    (htm : gmtime location.second = some tm) :
    (∃ sentence, gga data location locationExtended tm (usedSvs data.sv_used_mask).length =
        some sentence ∧ ∃ found,
      (fieldsOf (locEngNmeaPutChecksum sentence nmeaSentenceMaxLength).1).bind Gga.ofFields =
        some found ∧ GgaRight data location locationExtended found) ↔
    HasRoom (ggaFields data location locationExtended tm) ∧
      |location.latitude| < 256 ∧ |location.longitude| < 256 := by
  obtain ⟨checked, last, hformat, hfull⟩ := gga_eq data tm h
  rw [hformat, ← gga_right_iff htm]
  exact format_read_iff hfull nofun (plainText_ggaFields data location locationExtended tm)
    Gga.ofFields _

theorem encodes_sendAll_iff (first second third fourth : Option (List Char)) :
    Encodes data location locationExtended (sendAll [first, second, third, fourth]).1 ↔
      (∃ sentence, first = some sentence) ∧
      (∃ sentence, second = some sentence ∧ ∃ found,
        (fieldsOf (locEngNmeaPutChecksum sentence nmeaSentenceMaxLength).1).bind Vtg.ofFields =
          some found ∧ VtgRight data location locationExtended found) ∧
      (∃ sentence, third = some sentence ∧ ∃ found,
        (fieldsOf (locEngNmeaPutChecksum sentence nmeaSentenceMaxLength).1).bind Rmc.ofFields =
          some found ∧ RmcRight data location locationExtended found) ∧
      ∃ sentence, fourth = some sentence ∧ ∃ found,
        (fieldsOf (locEngNmeaPutChecksum sentence nmeaSentenceMaxLength).1).bind Gga.ofFields =
          some found ∧ GgaRight data location locationExtended found := by
  constructor
  · rintro ⟨gsa, vtg, rmc, gga, hsent, hvtg, hrmc, hgga⟩
    cases first with
    | none => cases hsent
    | some first =>
        cases second with
        | none => cases hsent
        | some second =>
            cases third with
            | none => cases hsent
            | some third =>
                cases fourth with
                | none => cases hsent
                | some fourth =>
                    cases hsent
                    exact ⟨⟨_, rfl⟩, ⟨_, rfl, hvtg⟩, ⟨_, rfl, hrmc⟩, _, rfl, hgga⟩
  · rintro ⟨⟨gsa, rfl⟩, ⟨vtg, rfl, hvtg⟩, ⟨rmc, rfl, hrmc⟩, gga, rfl, hgga⟩
    exact ⟨_, _, _, _, rfl, hvtg, hrmc, hgga⟩

/-- The report is one that is printed as it ought to be: there is room for the
sentences, the degrees fit eight bits, the year has two digits, and the declination
does not show in the magnetic track. -/
structure Printable (data : NmeaData) (location : GpsLocation)
    (locationExtended : GpsLocationExtended) (tm : Tm) : Prop where
  vtg : HasRoom (vtgFields data location)
  rmc : HasRoom (rmcFields data location locationExtended tm)
  gga : HasRoom (ggaFields data location locationExtended tm)
  latitude : |location.latitude| < 256
  longitude : |location.longitude| < 256
  year : 0 ≤ utcYear tm
  track : ∃ turns : ℤ, roundTo 1 location.bearing =
    roundTo 1 (location.bearing - locationExtended.magneticDeviation + 360 * turns)

theorem gmtime_second (location : GpsLocation) : ∃ tm, gmtime location.second = some tm := by
  apply Option.isSome_iff_exists.mp
  have hlow := location.timestamp.le_toInt
  have hhigh := location.timestamp.toInt_lt
  have hdivision : location.second.natAbs = location.timestamp.toInt.natAbs / 1000 :=
    Int.natAbs_tdiv _ _
  apply gmtime_isSome
  · omega
  · omega

theorem generate_sent (htm : gmtime location.second = some tm) :
    (locEngNmeaGeneratePos data location locationExtended true).2 =
      (sendAll [gsa data locationExtended (usedSvs data.sv_used_mask),
        vtg data location locationExtended, rmc data location locationExtended tm,
        gga data location locationExtended tm (usedSvs data.sv_used_mask).length]).1 := by
  unfold GpsLocation.second at htm
  unfold locEngNmeaGeneratePos
  rw [htm]
  rfl

theorem not_encodes_blank (htm : gmtime location.second = some tm) :
    ¬ Encodes data location locationExtended
      (locEngNmeaGeneratePos data location locationExtended false).2 := by
  unfold GpsLocation.second at htm
  unfold locEngNmeaGeneratePos
  rw [htm]
  intro h
  obtain ⟨-, ⟨sentence, hsentence, found, hfound, -⟩, -⟩ :=
    (encodes_sendAll_iff (some _) (some _) (some _) (some _)).mp h
  obtain rfl := Option.some.inj hsentence
  cases hfound

/-- The position sentences of a report with all values give it back exactly if it is
one of a final fix that is printed as it ought to be. -/
theorem position_sentences_iff (data : NmeaData) (location : GpsLocation)
    (locationExtended : GpsLocationExtended) (generate_nmea : Bool)
    (hvalid : AllValid location locationExtended) :
    ∃ tm, gmtime location.second = some tm ∧
      (Encodes data location locationExtended
          (locEngNmeaGeneratePos data location locationExtended generate_nmea).2 ↔
        generate_nmea = true ∧ Printable data location locationExtended tm) := by
  obtain ⟨tm, htm⟩ := gmtime_second location
  refine ⟨tm, htm, ?_⟩
  cases generate_nmea with
  | false => exact iff_of_false (not_encodes_blank htm) nofun
  | true =>
      rw [generate_sent htm, encodes_sendAll_iff, vtg_sent_iff hvalid, rmc_sent_iff hvalid htm,
        gga_sent_iff hvalid htm]
      constructor
      · rintro ⟨-, ⟨hvtg, htrack⟩, ⟨hrmc, hlat, hlon, hyear⟩, hgga, -⟩
        exact ⟨rfl, hvtg, hrmc, hgga, hlat, hlon, hyear, htrack⟩
      · rintro ⟨-, hvtg, hrmc, hgga, hlat, hlon, hyear, htrack⟩
        exact ⟨gsa_isSome data locationExtended _, ⟨hvtg, htrack⟩, ⟨hrmc, hlat, hlon, hyear⟩,
          hgga, hlat, hlon⟩

end Main

/-- A fix at noon of the first of May 2016, heading east. -/
def eastward : GpsLocation := ⟨0xf, 48.5, -11.25, 545.4, 10, 90, 1462104000000⟩

def dataOfFix : NmeaData := ⟨0x13, 0, 0, 0, .standalone⟩

theorem position_sentences_iff_eastward :
    ∃ tm, gmtime eastward.second = some tm ∧
      (Encodes dataOfFix eastward ⟨0x7, 500, 1.5, 0.9, 1.2, 0⟩
          (locEngNmeaGeneratePos dataOfFix eastward ⟨0x7, 500, 1.5, 0.9, 1.2, 0⟩ true).2 ↔
        Printable dataOfFix eastward ⟨0x7, 500, 1.5, 0.9, 1.2, 0⟩ tm) := by
  obtain ⟨tm, htm, hiff⟩ := position_sentences_iff dataOfFix eastward
    ⟨0x7, 500, 1.5, 0.9, 1.2, 0⟩ true
    ⟨by decide, by decide, by decide, by decide, by decide, by decide, by decide⟩
  exact ⟨tm, htm, hiff.trans (and_iff_right rfl)⟩

/-- A declination of ten degrees does not show in the magnetic track. -/
theorem declination_ignored :
    ¬ ∀ (data : NmeaData) (location : GpsLocation) (locationExtended : GpsLocationExtended),
      AllValid location locationExtended → Encodes data location locationExtended
        (locEngNmeaGeneratePos data location locationExtended true).2 := by
  intro hall
  have hvalid : AllValid eastward ⟨0x7, 500, 1.5, 0.9, 1.2, 10⟩ :=
    ⟨by decide, by decide, by decide, by decide, by decide, by decide, by decide⟩
  have hencodes := hall dataOfFix eastward ⟨0x7, 500, 1.5, 0.9, 1.2, 10⟩ hvalid
  obtain ⟨tm, htm⟩ := gmtime_second eastward
  rw [generate_sent htm, encodes_sendAll_iff] at hencodes
  obtain ⟨-, turns, hturns⟩ := (vtg_sent_iff hvalid).mp hencodes.2.1
  have htrack : roundTo 1 90 = 90 := by exact_mod_cast roundTo_intCast (by decide) 90
  have hmagnetic : roundTo 1 80 = 80 := by exact_mod_cast roundTo_intCast (by decide) 80
  have hbearing : eastward.bearing - 10 + 360 * turns = 80 + (360 * turns : ℤ) := by
    change (90 : ℚ) - 10 + 360 * turns = _
    push_cast
    ring
  rw [hbearing, roundTo_add_int (by decide), hmagnetic] at hturns
  have hshift : (90 : ℤ) = 80 + 360 * turns := by exact_mod_cast htrack.symm.trans hturns
  omega

end Msm8916.Nmea
