import Msm8916.Nmea.Position

/-!
How the position sentences are read, and what reading them ought to give back of a
report.
-/

namespace Msm8916.Nmea

open Calendar Decimal

/-! ## Reading -/

/-- Degrees, and minutes with six decimals, and the letter of a hemisphere. -/
def readAngle (text hemisphere : List Char) (positive negative : Char) : Option ℚ := do
  let degrees ← readNat (text.take (text.length - 9))
  let minutes ← readFixed (text.drop (text.length - 9))
  let angle := degrees + minutes / 60
  if hemisphere = [positive] then some angle
  else if hemisphere = [negative] then some (-angle)
  else none

def readDeclination (text direction : List Char) : Option ℚ := do
  let declination ← readFixed text
  if direction = ['E'] then some declination
  else if direction = ['W'] then some (-declination)
  else none

/-- Three numbers of two digits each. -/
def readTriple (text : List Char) : Option (Nat × Nat × Nat) := do
  if text.length = 6 then
    let first ← readNat (text.take 2)
    let second ← readNat ((text.drop 2).take 2)
    let third ← readNat (text.drop 4)
    some (first, second, third)
  else
    none

structure Vtg where
  track : ℚ
  magTrack : ℚ
  speedKnots : ℚ
  speedKmPerHour : ℚ
  mode : Char

def Vtg.ofFields : List (List Char) → Option Vtg
  | [['G', 'P', 'V', 'T', 'G'], track, ['T'], magTrack, ['M'], knots, ['N'], kmPerHour, ['K'],
      [mode]] => do
      let track ← readFixed track
      let magTrack ← readFixed magTrack
      let knots ← readFixed knots
      let kmPerHour ← readFixed kmPerHour
      some ⟨track, magTrack, knots, kmPerHour, mode⟩
  | _ => none

structure Rmc where
  time : Nat × Nat × Nat
  latitude : ℚ
  longitude : ℚ
  speedKnots : ℚ
  track : ℚ
  date : Nat × Nat × Nat
  declination : ℚ
  mode : Char

def Rmc.ofFields : List (List Char) → Option Rmc
  | [['G', 'P', 'R', 'M', 'C'], time, ['A'], latitude, latHemisphere, longitude, lonHemisphere,
      knots, track, date, declination, direction, [mode]] => do
      let time ← readTriple time
      let latitude ← readAngle latitude latHemisphere 'N' 'S'
      let longitude ← readAngle longitude lonHemisphere 'E' 'W'
      let knots ← readFixed knots
      let track ← readFixed track
      let date ← readTriple date
      let declination ← readDeclination declination direction
      some ⟨time, latitude, longitude, knots, track, date, declination, mode⟩
  | _ => none

structure Gga where
  time : Nat × Nat × Nat
  latitude : ℚ
  longitude : ℚ
  quality : Char
  satellites : Nat
  hdop : ℚ
  altitude : ℚ
  geoidSeparation : ℚ

def Gga.ofFields : List (List Char) → Option Gga
  | [['G', 'P', 'G', 'G', 'A'], time, latitude, latHemisphere, longitude, lonHemisphere,
      [quality], satellites, hdop, altitude, ['M'], separation, ['M'], [], []] => do
      let time ← readTriple time
      let latitude ← readAngle latitude latHemisphere 'N' 'S'
      let longitude ← readAngle longitude lonHemisphere 'E' 'W'
      let satellites ← readNat satellites
      let hdop ← readFixed hdop
      let altitude ← readFixed altitude
      let separation ← readFixed separation
      some ⟨time, latitude, longitude, quality, satellites, hdop, altitude, separation⟩
  | _ => none

/-! ## What ought to be read -/

/-- Every field that is printed is flagged valid. -/
structure AllValid (location : GpsLocation) (locationExtended : GpsLocationExtended) : Prop where
  latLong : location.has gpsLocationHasLatLong = true
  altitude : location.has gpsLocationHasAltitude = true
  speed : location.has gpsLocationHasSpeed = true
  bearing : location.has gpsLocationHasBearing = true
  dop : locationExtended.has gpsLocationExtendedHasDop = true
  altitudeMeanSeaLevel :
    locationExtended.has gpsLocationExtendedHasAltitudeMeanSeaLevel = true
  magDev : locationExtended.has gpsLocationExtendedHasMagDev = true

/-- The whole second of a report. -/
def GpsLocation.second (location : GpsLocation) : Int := location.timestamp.toInt.tdiv 1000

/-- Minutes of an angle are printed with six decimals. -/
def roundAngle (angle : ℚ) : ℚ := roundTo 6 (angle * 60) / 60

/-- The time of day, from hours to seconds, of a second. -/
def TimeRight (second : Int) (time : Nat × Nat × Nat) (date : Date) : Prop :=
  date.Valid ∧ time.1 < 24 ∧ time.2.1 < 60 ∧ time.2.2 < 60 ∧
    secondOf date time.1 time.2.1 time.2.2 = second

section Right

variable (data : NmeaData) (location : GpsLocation) (locationExtended : GpsLocationExtended)

structure VtgRight (vtg : Vtg) : Prop where
  track : vtg.track = roundTo 1 location.bearing
  magTrack : ∃ turns : ℤ, vtg.magTrack =
    roundTo 1 (location.bearing - locationExtended.magneticDeviation + 360 * turns)
  speedKnots : vtg.speedKnots = roundTo 1 (Nmea.speedKnots location)
  speedKmPerHour : vtg.speedKmPerHour = roundTo 1 (Nmea.speedKmPerHour location)
  mode : vtg.mode = modeIndicator data location

/-- The date is read as day, month and year of the century. -/
structure RmcRight (rmc : Rmc) : Prop where
  moment : ∃ year : ℤ, year % 100 = rmc.date.2.2 ∧
    TimeRight location.second rmc.time ⟨year, rmc.date.2.1, rmc.date.1⟩
  latitude : rmc.latitude = roundAngle location.latitude
  longitude : rmc.longitude = roundAngle location.longitude
  speedKnots : rmc.speedKnots = roundTo 1 (Nmea.speedKnots location)
  track : rmc.track = roundTo 1 location.bearing
  declination : rmc.declination = roundTo 1 locationExtended.magneticDeviation
  mode : rmc.mode = modeIndicator data location

structure GgaRight (gga : Gga) : Prop where
  time : ∃ date, TimeRight location.second gga.time date
  latitude : gga.latitude = roundAngle location.latitude
  longitude : gga.longitude = roundAngle location.longitude
  quality : gga.quality = gpsQuality data location
  satellites : gga.satellites = (usedSvs data.sv_used_mask).length
  hdop : gga.hdop = roundTo 1 locationExtended.hdop
  altitude : gga.altitude = roundTo 1 locationExtended.altitudeMeanSeaLevel
  geoidSeparation : gga.geoidSeparation =
    roundTo 1 (location.altitude - locationExtended.altitudeMeanSeaLevel)

/-- The four sentences are sent, and the last three give back the report. -/
def Encodes (sent : List (List Char × Nat)) : Prop :=
  ∃ gsa vtg rmc gga, sent.map Prod.fst = [gsa, vtg, rmc, gga] ∧
    (∃ found, (fieldsOf vtg).bind Vtg.ofFields = some found ∧
      VtgRight data location locationExtended found) ∧
    (∃ found, (fieldsOf rmc).bind Rmc.ofFields = some found ∧
      RmcRight data location locationExtended found) ∧
    ∃ found, (fieldsOf gga).bind Gga.ofFields = some found ∧
      GgaRight data location locationExtended found

end Right

/-! ## Numbers and angles -/

def PlainText (text : List Char) : Prop := ∀ c ∈ text, Plain c

instance : DecidablePred Plain := fun c =>
  decidable_of_iff (c ≠ ',' ∧ c ≠ '*' ∧ c ≠ '\n')
    ⟨fun h => ⟨h.1, h.2.1, h.2.2⟩, fun h => ⟨h.comma, h.star, h.newline⟩⟩

instance : DecidablePred PlainText := fun text => List.decidableBAll Plain text

theorem plain_of_isDigit {c : Char} (h : c.isDigit) : Plain c := by
  constructor
  · rintro rfl
    cases h
  · rintro rfl
    cases h
  · rintro rfl
    cases h

theorem plainText_append {first second : List Char} (hfirst : PlainText first)
    (hsecond : PlainText second) : PlainText (first ++ second) := by
  intro c hc
  rcases List.mem_append.mp hc with hc | hc
  · exact hfirst c hc
  · exact hsecond c hc

theorem plainText_printFixed (width decimals : Nat) (x : ℚ) :
    PlainText (printFixed width decimals x) := by
  intro c hc
  rcases mem_printFixed hc with hdigit | rfl | rfl
  · exact plain_of_isDigit hdigit
  · decide
  · decide

theorem plainText_printInt (precision : Nat) (n : Int) : PlainText (printInt precision n) := by
  apply plainText_append
  · split
    · decide
    · decide
  · exact fun c hc => plain_of_isDigit (isDigit_of_mem_digits hc)

theorem fmod_minutes {angle : ℚ} (h : 0 ≤ angle) :
    fmod (angle * 60) 60 = (angle - ⌊angle⌋) * 60 := by
  have hdegrees : angle * 60 / 60 = angle := by ring
  rw [fmod, hdegrees, if_pos h]
  ring

theorem length_minutes (angle : ℚ) : (printFixed 9 6 ((angle - ⌊angle⌋) * 60)).length = 9 := by
  have hlow : 0 ≤ angle - ⌊angle⌋ := sub_nonneg.mpr (Int.floor_le angle)
  have hhigh : angle - ⌊angle⌋ < 1 := by linarith [Int.lt_floor_add_one angle]
  have hround : roundEven ((angle - ⌊angle⌋) * 60 * 10 ^ 6) ≤ 60 * 10 ^ 6 := by
    apply roundEven_le
    push_cast
    linarith
  apply length_printFixed (by decide) (by linarith)
  omega

/-- The text has degrees, and minutes in its last nine characters. -/
def ReadsAs (text : List Char) (degrees : Nat) (minutes : ℚ) : Prop :=
  readNat (text.take (text.length - 9)) = some degrees ∧
    readFixed (text.drop (text.length - 9)) = some minutes

/-- The degrees that are printed are cast to eight bits. -/
theorem degreesMinutes_reads (width : Nat) {angle : ℚ} (h : 0 ≤ angle) :
    ReadsAs (degreesMinutes width angle) (UInt8.ofInt ⌊angle⌋).toNat
      (roundTo 6 ((angle - ⌊angle⌋) * 60)) := by
  have hlength : (degreesMinutes width angle).length - 9 =
      (printInt width (UInt8.ofInt ⌊angle⌋).toNat).length := by
    rw [degreesMinutes, fmod_minutes h, List.length_append, length_minutes]
    omega
  constructor
  · rw [hlength, degreesMinutes, List.take_left, printInt_natCast, readNat_digits]
  · rw [hlength, degreesMinutes, List.drop_left, fmod_minutes h,
      readFixed_printFixed 9 (by decide)]

theorem readAngle_degreesMinutes (width : Nat) {angle : ℚ} (h : 0 ≤ angle)
    (hemisphere : List Char) (positive negative : Char) :
    readAngle (degreesMinutes width angle) hemisphere positive negative =
      if hemisphere = [positive] then
        some ((UInt8.ofInt ⌊angle⌋).toNat + roundTo 6 ((angle - ⌊angle⌋) * 60) / 60)
      else if hemisphere = [negative] then
        some (-((UInt8.ofInt ⌊angle⌋).toNat + roundTo 6 ((angle - ⌊angle⌋) * 60) / 60))
      else
        none := by
  obtain ⟨hdegrees, hminutes⟩ := degreesMinutes_reads width h
  unfold readAngle
  rw [hdegrees, hminutes]
  rfl

theorem roundAngle_eq (angle : ℚ) :
    roundAngle angle = ⌊angle⌋ + roundTo 6 ((angle - ⌊angle⌋) * 60) / 60 := by
  have hsplit : angle * 60 = (angle - ⌊angle⌋) * 60 + (⌊angle⌋ * 60 : ℤ) := by
    push_cast
    ring
  rw [roundAngle, hsplit, roundTo_add_int (by decide)]
  push_cast
  ring

theorem roundAngle_neg (angle : ℚ) : roundAngle (-angle) = -roundAngle angle := by
  rw [roundAngle, neg_mul, roundTo_neg, neg_div, roundAngle]

/-- The cast of the degrees is harmless below 256. -/
theorem degrees_eq_iff {angle : ℚ} (h : 0 ≤ angle) :
    ((UInt8.ofInt ⌊angle⌋).toNat : ℚ) = ⌊angle⌋ ↔ angle < 256 := by
  have hfloor := Int.floor_nonneg.mpr h
  have hcast : ((UInt8.ofInt ⌊angle⌋).toNat : ℤ) = ⌊angle⌋ % 256 := by
    rw [UInt8.ofInt, UInt8.toNat_ofNat']
    omega
  have hlt : angle < 256 ↔ ⌊angle⌋ < 256 := by
    rw [Int.floor_lt]
    norm_num
  rw [hlt]
  constructor
  · intro heq
    have hint : ((UInt8.ofInt ⌊angle⌋).toNat : ℤ) = ⌊angle⌋ := by exact_mod_cast heq
    omega
  · intro hsmall
    have hint : ((UInt8.ofInt ⌊angle⌋).toNat : ℤ) = ⌊angle⌋ := by omega
    exact_mod_cast hint

/-- An angle with its hemisphere is read as itself, rounded, if its degrees fit eight
bits. -/
theorem readAngle_abs (width : Nat) (value : ℚ) {positive negative hemisphere : Char}
    (hne : positive ≠ negative)
    (hsign : hemisphere = positive ∧ 0 ≤ value ∨ hemisphere = negative ∧ value ≤ 0) :
    ∃ angle, readAngle (degreesMinutes width |value|) [hemisphere] positive negative =
      some angle ∧ (angle = roundAngle value ↔ |value| < 256) := by
  rw [readAngle_degreesMinutes width (abs_nonneg value), ← degrees_eq_iff (abs_nonneg value)]
  rcases hsign with ⟨rfl, hpos⟩ | ⟨rfl, hneg⟩
  · rw [if_pos rfl]
    refine ⟨_, rfl, ?_⟩
    rw [abs_of_nonneg hpos, roundAngle_eq]
    exact add_left_inj _
  · rw [if_neg (by simpa using hne.symm), if_pos rfl]
    refine ⟨_, rfl, ?_⟩
    have hround : roundAngle value = -roundAngle |value| := by
      rw [abs_of_nonpos hneg, roundAngle_neg, neg_neg]
    rw [hround, roundAngle_eq, neg_inj]
    exact add_left_inj _

end Msm8916.Nmea
