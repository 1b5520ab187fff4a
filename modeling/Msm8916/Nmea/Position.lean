import Msm8916.Engine.LocEng
import Msm8916.Lib.Calendar
import Msm8916.Lib.Decimal
import Msm8916.Nmea.Sentence

/-!
`loc_eng_nmea_generate_pos` of `loc_eng_nmea.cpp`, with rational numbers for the
floating-point ones and the C locale.
-/

namespace Msm8916.Nmea

open Calendar Decimal Engine

/-! ## Reports -/

/-- The fields of `GpsLocation` that are printed. -/
structure GpsLocation where
  flags : UInt16
  latitude : ℚ
  longitude : ℚ
  altitude : ℚ
  speed : ℚ
  bearing : ℚ
  timestamp : Int64

/-- The fields of `GpsLocationExtended` that are printed. -/
structure GpsLocationExtended where
  flags : UInt16
  altitudeMeanSeaLevel : ℚ
  pdop : ℚ
  hdop : ℚ
  vdop : ℚ
  magneticDeviation : ℚ

/-- The part of `loc_eng_data_s_type` that the generator of sentences uses, and the
position mode of the adapter. -/
structure NmeaData where
  sv_used_mask : UInt32
  pdop : ℚ
  hdop : ℚ
  vdop : ℚ
  mode : LocPositionMode

def gpsLocationHasLatLong : UInt16 := 0x0001
def gpsLocationHasAltitude : UInt16 := 0x0002
def gpsLocationHasSpeed : UInt16 := 0x0004
def gpsLocationHasBearing : UInt16 := 0x0008

def gpsLocationExtendedHasDop : UInt16 := 0x0001
def gpsLocationExtendedHasAltitudeMeanSeaLevel : UInt16 := 0x0002
def gpsLocationExtendedHasMagDev : UInt16 := 0x0004

def GpsLocation.has (location : GpsLocation) (flag : UInt16) : Bool :=
  location.flags &&& flag ≠ 0

def GpsLocationExtended.has (locationExtended : GpsLocationExtended) (flag : UInt16) : Bool :=
  locationExtended.flags &&& flag ≠ 0

/-! ## Parts of sentences -/

/-- `%.1lf` -/
def oneDecimal (x : ℚ) : List Char := printFixed 0 1 x

/-- The satellites of the mask, from number `i` on, while less than 32 are found. A
mask is used up after 32 rounds. -/
def usedSvsFrom : Nat → Nat → UInt32 → List Nat → List Nat
  | 0, _, _, svUsedList => svUsedList
  | rounds + 1, i, mask, svUsedList =>
      if mask > 0 ∧ svUsedList.length < 32 then
        usedSvsFrom rounds (i + 1) (mask >>> 1)
          (if mask &&& 1 ≠ 0 then svUsedList ++ [i] else svUsedList)
      else
        svUsedList

def usedSvs (sv_used_mask : UInt32) : List Nat := usedSvsFrom 32 1 sv_used_mask []

section Report

variable (data : NmeaData) (location : GpsLocation) (locationExtended : GpsLocationExtended)

/-- The dilutions of precision of the report, or else those cached from a report of the
satellites. -/
def dops : Option (ℚ × ℚ × ℚ) :=
  if locationExtended.has gpsLocationExtendedHasDop then
    some (locationExtended.pdop, locationExtended.hdop, locationExtended.vdop)
  else if data.pdop > 0 ∧ data.hdop > 0 ∧ data.vdop > 0 then
    some (data.pdop, data.hdop, data.vdop)
  else
    none

/-- The mode indicator: no fix, autonomous, or differential. -/
def modeIndicator : Char :=
  if ¬ location.has gpsLocationHasLatLong then 'N'
  else if data.mode = .standalone then 'A'
  else 'D'

def gpsQuality : Char :=
  if ¬ location.has gpsLocationHasLatLong then '0'
  else if data.mode = .standalone then '1'
  else '2'

def speedKnots : ℚ := location.speed * (3600 / 1852)

def speedKmPerHour : ℚ := location.speed * (36 / 10)

def fmod (x y : ℚ) : ℚ := x - y * (if 0 ≤ x / y then ⌊x / y⌋ else ⌈x / y⌉)

/-- The degrees and minutes of an angle that is not negative; the degrees are cast to
eight bits. -/
def degreesMinutes (width : Nat) (angle : ℚ) : List Char :=
  printInt width (UInt8.ofInt ⌊angle⌋).toNat ++ printFixed 9 6 (fmod (angle * 60) 60)

/-- Latitude and longitude with their hemispheres. -/
def latLong : List Char :=
  if location.has gpsLocationHasLatLong then
    let (latitude, latHemisphere) :=
      if location.latitude > 0 then (location.latitude, 'N') else (location.latitude * -1, 'S')
    let (longitude, lonHemisphere) :=
      if location.longitude < 0 then (location.longitude * -1, 'W') else (location.longitude, 'E')
    degreesMinutes 2 latitude ++ [',', latHemisphere, ','] ++
      degreesMinutes 3 longitude ++ [',', lonHemisphere, ',']
  else
    [',', ',', ',', ',']

/-- `%02d%02d%02d` -/
def timeOfDay (tm : Tm) : List Char :=
  printInt 2 tm.tm_hour ++ printInt 2 tm.tm_min ++ printInt 2 tm.tm_sec

/-- The year in two digits, with the sign of the remainder in C. -/
def utcYear (tm : Tm) : Int := tm.tm_year.tmod 100

/-! ## Sentences -/

def fixType (svUsedCount : Nat) : Char :=
  if svUsedCount = 0 then '1' else if svUsedCount ≤ 3 then '2' else '3'

/-- The field of a satellite, with its comma. -/
def svField (svUsedList : List Nat) (i : Nat) : List Char :=
  match (svUsedList[i]? : Option Nat) with
  | some sv => printInt 2 sv ++ [',']
  | none => [',']

/-- Only the first twelve satellites go in the sentence. -/
def gsa (svUsedList : List Nat) : Option (List Char) :=
  format
    (("$GPGSA,A,".toList ++ [fixType svUsedList.length, ',']) ::
      (List.range 12).map (svField svUsedList))
    (match dops data locationExtended with
      | some (pdop, hdop, vdop) =>
          oneDecimal pdop ++ [','] ++ oneDecimal hdop ++ [','] ++ oneDecimal vdop
      | none => [',', ','])

def vtg : Option (List Char) :=
  format
    [if location.has gpsLocationHasBearing then
        let magTrack := location.bearing
        -- the block that takes off the deviation declares a `magTrack` of its own
        let _ :=
          if locationExtended.has gpsLocationExtendedHasMagDev then
            let magTrack := location.bearing - locationExtended.magneticDeviation
            if magTrack < 0 then magTrack + 360
            else if magTrack > 360 then magTrack - 360
            else magTrack
          else
            magTrack
        "$GPVTG,".toList ++ oneDecimal location.bearing ++ [',', 'T', ','] ++
          oneDecimal magTrack ++ [',', 'M', ',']
      else
        "$GPVTG,,T,,M,".toList,
      if location.has gpsLocationHasSpeed then
        oneDecimal (speedKnots location) ++ [',', 'N', ','] ++
          oneDecimal (speedKmPerHour location) ++ [',', 'K', ',']
      else
        ",N,,K,".toList]
    [modeIndicator data location]

def rmc (tm : Tm) : Option (List Char) :=
  format
    ["$GPRMC,".toList ++ timeOfDay tm ++ [',', 'A', ','],
      latLong location,
      if location.has gpsLocationHasSpeed then oneDecimal (speedKnots location) ++ [','] else [','],
      if location.has gpsLocationHasBearing then oneDecimal location.bearing ++ [','] else [','],
      printInt 2 tm.tm_mday ++ printInt 2 (tm.tm_mon + 1) ++ printInt 2 (utcYear tm) ++ [','],
      if locationExtended.has gpsLocationExtendedHasMagDev then
        let (magneticVariation, direction) :=
          if locationExtended.magneticDeviation < 0 then
            (locationExtended.magneticDeviation * -1, 'W')
          else
            (locationExtended.magneticDeviation, 'E')
        oneDecimal magneticVariation ++ [',', direction, ',']
      else
        [',', ',']]
    [modeIndicator data location]

def gga (tm : Tm) (svUsedCount : Nat) : Option (List Char) :=
  format
    ["$GPGGA,".toList ++ timeOfDay tm ++ [','],
      latLong location,
      [gpsQuality data location, ','] ++ printInt 2 svUsedCount ++ [','] ++
        (match dops data locationExtended with
          | some (_, hdop, _) => oneDecimal hdop
          | none => []) ++ [','],
      if locationExtended.has gpsLocationExtendedHasAltitudeMeanSeaLevel then
        oneDecimal locationExtended.altitudeMeanSeaLevel ++ [',', 'M', ',']
      else
        [',', ',']]
    (if location.has gpsLocationHasAltitude ∧
        locationExtended.has gpsLocationExtendedHasAltitudeMeanSeaLevel then
      oneDecimal (location.altitude - locationExtended.altitudeMeanSeaLevel) ++
        [',', 'M', ',', ',']
    else
      [',', ',', ','])

end Report

/-- The sentences that are sent for a fix that is not final. -/
def blankSentences : List (List Char) :=
  ["$GPGSA,A,1,,,,,,,,,,,,,,,".toList, "$GPVTG,,T,,M,,N,,K,N".toList,
    "$GPRMC,,V,,,,,,,,,,N".toList, "$GPGGA,,,,,,0,,,,,,,,".toList]

/-- The sentences with their checksums, and the lengths that go with them, up to the
first that cannot be formatted; and whether all were sent. -/
def sendAll : List (Option (List Char)) → List (List Char × Nat) × Bool
  | [] => ([], true)
  | none :: _ => ([], false)
  | some sentence :: sentences =>
      let (sent, finished) := sendAll sentences
      (locEngNmeaPutChecksum sentence nmeaSentenceMaxLength :: sent, finished)

def NmeaData.clearDops (data : NmeaData) : NmeaData := { data with pdop := 0, hdop := 0, vdop := 0 }

/-- `loc_eng_nmea_generate_pos`, and what it gives to `loc_eng_nmea_send`. -/
def locEngNmeaGeneratePos (data : NmeaData) (location : GpsLocation)
    (locationExtended : GpsLocationExtended) (generate_nmea : Bool) :
    NmeaData × List (List Char × Nat) :=
  match gmtime (location.timestamp.toInt.tdiv 1000) with
  | none => (data, [])
  | some tm =>
      if generate_nmea then
        let svUsedList := usedSvs data.sv_used_mask
        let data := { data with sv_used_mask := 0 }
        let (sent, finished) := sendAll
          [gsa data locationExtended svUsedList, vtg data location locationExtended,
            rmc data location locationExtended tm,
            gga data location locationExtended tm svUsedList.length]
        -- the caches of the dilutions are kept if a sentence could not be formatted
        (if finished then data.clearDops else data, sent)
      else
        (data.clearDops, (sendAll (blankSentences.map some)).1)

end Msm8916.Nmea
