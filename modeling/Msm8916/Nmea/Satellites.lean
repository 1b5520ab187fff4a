import Msm8916.Nmea.Position

/-!
`loc_eng_nmea_generate_sv` of `loc_eng_nmea.cpp`, which reports the satellites in view.
The code for GPS and the code for GLONASS differ in the talker of the sentences and in
the range of the satellite numbers.
-/

namespace Msm8916.Nmea

open Decimal

/-- The fields of `GpsSvInfo` that are printed. -/
structure GpsSvInfo where
  prn : Int
  snr : ℚ
  elevation : ℚ
  azimuth : ℚ

/-- `QcomSvStatus`. The size of its list is a constant of the platform. -/
structure QcomSvStatus (gpsMaxSvs : Nat) where
  num_svs : Int
  sv_list : List GpsSvInfo
  length_sv_list : sv_list.length = gpsMaxSvs
  gps_used_in_fix_mask : UInt32

structure Constellation where
  talker : List Char
  prnStart : Int
  prnEnd : Int

def gps : Constellation := ⟨['G', 'P', 'G', 'S', 'V'], 1, 32⟩

def glonass : Constellation := ⟨['G', 'L', 'G', 'S', 'V'], 65, 96⟩

def Constellation.has (constellation : Constellation) (prn : Int) : Bool :=
  prn ≥ constellation.prnStart && prn ≤ constellation.prnEnd

/-- A cast of a floating-point number to `int`. -/
def toInt (x : ℚ) : Int := if 0 ≤ x then ⌊x⌋ else ⌈x⌉

/-- `,%02d,%02d,%03d,` -/
def svText (sv : GpsSvInfo) : List Char :=
  [','] ++ printPadded 2 sv.prn ++ [','] ++ printPadded 2 (toInt (1 / 2 + sv.elevation)) ++
    [','] ++ printPadded 3 (toInt (1 / 2 + sv.azimuth)) ++ [',']

def snrText (sv : GpsSvInfo) : List Char := printPadded 2 (toInt (1 / 2 + sv.snr))

/-- The field of the signal stays empty without one. -/
def appendSv (sentence : List Char) (sv : GpsSvInfo) : Option (List Char) :=
  (append sentence (svText sv)).bind fun sentence =>
    if sv.snr > 0 then append sentence (snrText sv) else some sentence

/-- `$GPGSV,%d,%d,%02d` -/
def gsvHeader (constellation : Constellation) (sentenceCount sentenceNumber count : Nat) :
    List Char :=
  ['$'] ++ constellation.talker ++ [','] ++ digits 1 sentenceCount ++ [','] ++
    digits 1 sentenceNumber ++ [','] ++ digits 2 count

section Report

variable {gpsMaxSvs : Nat} (svStatus : QcomSvStatus gpsMaxSvs)

/-- `sv_list[svNumber-1]`. The code relies on the list being long enough. -/
def QcomSvStatus.sv (svNumber : Nat) : GpsSvInfo :=
  svStatus.sv_list.getD (svNumber - 1) ⟨0, 0, 0, 0⟩

/-- The loop that counts the satellites of both constellations. -/
def countLoop (svNumber gpsCount glnCount : Nat) : Nat × Nat :=
  if svNumber ≤ svStatus.num_svs then
    if gps.has (svStatus.sv svNumber).prn then
      countLoop (svNumber + 1) (gpsCount + 1) glnCount
    else if glonass.has (svStatus.sv svNumber).prn then
      countLoop (svNumber + 1) gpsCount (glnCount + 1)
    else
      countLoop (svNumber + 1) gpsCount glnCount
  else
    (gpsCount, glnCount)
termination_by (svStatus.num_svs + 1 - svNumber).toNat

variable (constellation : Constellation)

/-- The loop that fills a sentence, which holds `i` satellites already. It goes on from
`svNumber` and gives the number it got to; nothing if the sentence gets too long. -/
def fillLoop (svNumber i : Nat) (sentence : List Char) : Option (Nat × List Char) :=
  if svNumber ≤ svStatus.num_svs ∧ i < 4 then
    if constellation.has (svStatus.sv svNumber).prn then
      match appendSv sentence (svStatus.sv svNumber) with
      | none => none
      | some sentence => fillLoop (svNumber + 1) (i + 1) sentence
    else
      fillLoop (svNumber + 1) i sentence
  else
    some (svNumber, sentence)
termination_by (svStatus.num_svs + 1 - svNumber).toNat

/-- The loop over the sentences: what it sends, and whether it ends rather than
returning on an error. -/
def sentenceLoop (sentenceCount count sentenceNumber svNumber : Nat) :
    List (List Char × Nat) × Bool :=
  if sentenceNumber ≤ sentenceCount then
    match (append [] (gsvHeader constellation sentenceCount sentenceNumber count)).bind
        (fillLoop svStatus constellation svNumber 0) with
    | none => ([], false)
    | some (svNumber, sentence) =>
        let (sent, finished) := sentenceLoop sentenceCount count (sentenceNumber + 1) svNumber
        (locEngNmeaPutChecksum sentence nmeaSentenceMaxLength :: sent, finished)
  else
    ([], true)
termination_by sentenceCount + 1 - sentenceNumber

/-- What is sent for one constellation. -/
def gsv (count : Nat) : List (List Char × Nat) × Bool :=
  if count = 0 then
    ([locEngNmeaPutChecksum (['$'] ++ constellation.talker ++ [',', '1', ',', '1', ',', '0', ','])
      nmeaSentenceMaxLength], true)
  else
    sentenceLoop svStatus constellation (count / 4 + if count % 4 ≠ 0 then 1 else 0) count 1 1

/-- `loc_eng_nmea_generate_sv`, and what it gives to `loc_eng_nmea_send`. -/
def locEngNmeaGenerateSv (data : NmeaData) (locationExtended : GpsLocationExtended) :
    NmeaData × List (List Char × Nat) :=
  let (gpsCount, glnCount) := countLoop svStatus 1 0 0
  let (gpsSent, gpsFinished) := gsv svStatus gps gpsCount
  if gpsFinished then
    let (glnSent, glnFinished) := gsv svStatus glonass glnCount
    if glnFinished then
      let data := { data with sv_used_mask := svStatus.gps_used_in_fix_mask }
      (if locationExtended.has gpsLocationExtendedHasDop then
        { data with
          pdop := locationExtended.pdop
          hdop := locationExtended.hdop
          vdop := locationExtended.vdop }
      else
        data.clearDops,
        gpsSent ++ glnSent)
    else
      (data, gpsSent ++ glnSent)
  else
    (data, gpsSent)

end Report

/-! ## Reading -/

/-- A satellite in a sentence. -/
structure GsvSatellite where
  prn : Nat
  elevation : List Char
  azimuth : List Char
  snr : List Char
deriving DecidableEq

structure Gsv where
  talker : List Char
  sentenceCount : Nat
  sentenceNumber : Nat
  count : Nat
  satellites : List GsvSatellite
deriving DecidableEq

def GsvSatellite.allOfFields : List (List Char) → Option (List GsvSatellite)
  | [] => some []
  | prn :: elevation :: azimuth :: snr :: fields => do
      let prn ← readNat prn
      let satellites ← allOfFields fields
      some (⟨prn, elevation, azimuth, snr⟩ :: satellites)
  | _ => none

def Gsv.ofFields : List (List Char) → Option Gsv
  | talker :: sentenceCount :: sentenceNumber :: count :: fields => do
      let sentenceCount ← readNat sentenceCount
      let sentenceNumber ← readNat sentenceNumber
      let count ← readNat count
      let satellites ← GsvSatellite.allOfFields fields
      some ⟨talker, sentenceCount, sentenceNumber, count, satellites⟩
  | _ => none

def readGsv (sentence : List Char) : Option Gsv := (fieldsOf sentence).bind Gsv.ofFields

end Msm8916.Nmea
