import Msm8916.Nmea.Fields

/-!
Latitude and longitude in degrees and minutes. `fmod` keeps the minutes below 60, and
printing rounds them to six decimals: just below a whole degree they are printed as 60.
-/

namespace Msm8916.Nmea

open Calendar Decimal

/-! ## Angles -/

/-- The minutes are below 60, and with the degrees they give the angle up to half a unit of
the last digit. -/
def AngleRight (text : List Char) (angle : ℚ) : Prop :=
  ∃ degrees minutes, ReadsAs text degrees minutes ∧ minutes < 60 ∧
    |degrees + minutes / 60 - angle| ≤ 1 / 2 / 10 ^ 6 / 60

/-- The angle is not within half a unit of the last digit below a whole degree. -/
def ClearOfDegree (angle : ℚ) : Prop := Int.fract |angle| < 1 - 1 / 2 / 10 ^ 6 / 60

instance : DecidablePred ClearOfDegree := fun angle =>
  inferInstanceAs (Decidable (Int.fract |angle| < 1 - 1 / 2 / 10 ^ 6 / 60))

theorem ReadsAs.unique {text : List Char} {degrees degrees' : Nat} {minutes minutes' : ℚ}
    (h : ReadsAs text degrees minutes) (h' : ReadsAs text degrees' minutes') :
    degrees = degrees' ∧ minutes = minutes' :=
  ⟨Option.some.inj (h.1.symm.trans h'.1), Option.some.inj (h.2.symm.trans h'.2)⟩

/-- The minutes that are printed are below 60 if they are so before they are rounded, by
half a unit at least. -/
theorem minutes_lt_iff (angle : ℚ) :
    roundTo 6 (Int.fract angle * 60) < 60 ↔ Int.fract angle < 1 - 1 / 2 / 10 ^ 6 / 60 := by
  have hround := @roundTo_lt_iff 6 (Int.fract angle * 60) 60 (by decide)
  push_cast at hround
  rw [hround]
  constructor
  · intro hlt
    linarith
  · intro hlt
    linarith

/-- What is printed is never further from the angle than it may be. -/
theorem abs_printed_sub_le {angle : ℚ} (h : 0 ≤ angle) (hlt : angle < 256) :
    |((UInt8.ofInt ⌊angle⌋).toNat : ℚ) + roundTo 6 (Int.fract angle * 60) / 60 - angle| ≤
      1 / 2 / 10 ^ 6 / 60 := by
  have hclose := abs_roundTo_sub_le 6 (Int.fract angle * 60)
  have hsplit : (⌊angle⌋ : ℚ) + roundTo 6 (Int.fract angle * 60) / 60 - angle =
      (roundTo 6 (Int.fract angle * 60) - Int.fract angle * 60) / 60 := by
    rw [← Int.self_sub_floor]
    ring
  rw [(degrees_eq_iff h).mpr hlt, hsplit, abs_div, abs_of_pos (show (0 : ℚ) < 60 by norm_num)]
  exact div_le_div_of_nonneg_right hclose (by norm_num)

theorem angleRight_iff (width : Nat) {angle : ℚ} (h : |angle| < 256) :
    AngleRight (degreesMinutes width |angle|) |angle| ↔ ClearOfDegree angle := by
  have hreads : ReadsAs (degreesMinutes width |angle|) (UInt8.ofInt ⌊|angle|⌋).toNat
      (roundTo 6 (Int.fract |angle| * 60)) := degreesMinutes_reads width (abs_nonneg angle)
  constructor
  · rintro ⟨degrees, minutes, hother, hlt, -⟩
    rw [(hother.unique hreads).2] at hlt
    exact (minutes_lt_iff |angle|).mp hlt
  · intro hclear
    exact ⟨_, _, hreads, (minutes_lt_iff |angle|).mpr hclear,
      abs_printed_sub_le (abs_nonneg angle) h⟩

/-! ## Coordinates in a sentence -/

/-- The latitude of a sentence, in the field `k`, and the longitude two fields after it. -/
def CoordinatesRight (text : List Char) (k : Nat) (location : GpsLocation) : Prop :=
  ∃ latitude longitude, (text.splitOn ',')[k]? = some latitude ∧
    (text.splitOn ',')[k + 2]? = some longitude ∧
    AngleRight latitude |location.latitude| ∧ AngleRight longitude |location.longitude|

theorem splitOn_fields {fields : List (List Char)} (rest : List Char)
    (h : ∀ field ∈ fields, ',' ∉ field) :
    ((fields.map (· ++ [','])).flatten ++ rest).splitOn ',' = fields ++ rest.splitOn ',' := by
  induction fields with
  | nil => rfl
  | cons field fields ih =>
      have hrest := ih fun other hother => h other (List.mem_cons_of_mem _ hother)
      rw [List.map_cons, List.flatten_cons, List.append_assoc, List.append_assoc,
        List.singleton_append,
        List.splitOn_append_cons_self_of_not_mem (h field List.mem_cons_self), hrest]
      rfl

/-- The four fields of the coordinates. -/
def coordinateFields (location : GpsLocation) : List (List Char) :=
  [degreesMinutes 2 |location.latitude|, [latHemisphere location],
    degreesMinutes 3 |location.longitude|, [lonHemisphere location]]

theorem comma_notMem_coordinateFields (location : GpsLocation) :
    ∀ field ∈ coordinateFields location, ',' ∉ field := by
  have hplain : ∀ {field : List Char}, PlainText field → ',' ∉ field :=
    fun h hmem => (h ',' hmem).comma rfl
  simp only [coordinateFields, List.forall_mem_cons]
  refine ⟨hplain (plainText_degreesMinutes _ _),
    hplain (plainText_letter (by decide) (by decide)),
    hplain (plainText_degreesMinutes _ _),
    hplain (plainText_letter (by decide) (by decide)), ?_⟩
  exact fun _ hmem => absurd hmem List.not_mem_nil

theorem latLong_eq_fields {location : GpsLocation}
    (h : location.has gpsLocationHasLatLong = true) :
    latLong location = ((coordinateFields location).map (· ++ [','])).flatten := by
  rw [latLong_eq h]
  simp [coordinateFields]

/-- A sentence with the coordinates after so many fields of its own. -/
def HasCoordinates (text : List Char) (k : Nat) (location : GpsLocation) : Prop :=
  ∃ fields rest, fields.length = k ∧ (∀ field ∈ fields, ',' ∉ field) ∧
    text = ((fields ++ coordinateFields location).map (· ++ [','])).flatten ++ rest

theorem coordinatesRight_iff {text : List Char} {k : Nat} {location : GpsLocation}
    (h : HasCoordinates text k location) (hlat : |location.latitude| < 256)
    (hlon : |location.longitude| < 256) :
    CoordinatesRight text k location ↔
      ClearOfDegree location.latitude ∧ ClearOfDegree location.longitude := by
  obtain ⟨fields, rest, rfl, hfields, rfl⟩ := h
  have hcommas : ∀ field ∈ fields ++ coordinateFields location, ',' ∉ field := by
    intro field hmem
    rcases List.mem_append.mp hmem with hmem | hmem
    · exact hfields field hmem
    · exact comma_notMem_coordinateFields location field hmem
  have hsplit := splitOn_fields rest hcommas
  rw [List.append_assoc] at hsplit
  rw [← angleRight_iff 2 hlat, ← angleRight_iff 3 hlon, CoordinatesRight, hsplit,
    List.getElem?_append_right (Nat.le_refl _), List.getElem?_append_right (Nat.le_add_right _ 2),
    Nat.sub_self, Nat.add_sub_cancel_left]
  constructor
  · rintro ⟨latitude, longitude, hlatitude, hlongitude, hright, hright'⟩
    obtain rfl := Option.some.inj hlatitude
    obtain rfl := Option.some.inj hlongitude
    exact ⟨hright, hright'⟩
  · rintro ⟨hright, hright'⟩
    exact ⟨_, _, rfl, rfl, hright, hright'⟩

theorem HasCoordinates.append {text : List Char} {k : Nat} {location : GpsLocation}
    (h : HasCoordinates text k location) (more : List Char) :
    HasCoordinates (text ++ more) k location := by
  obtain ⟨fields, rest, hlength, hfields, rfl⟩ := h
  exact ⟨fields, rest ++ more, hlength, hfields, List.append_assoc _ _ _⟩

theorem hasCoordinates_of_format {location : GpsLocation} {fields more : List (List Char)}
    {last sentence : List Char} (h : location.has gpsLocationHasLatLong = true)
    (hfields : ∀ field ∈ fields, ',' ∉ field)
    (hformat : format ((fields.map (· ++ [','])).flatten :: latLong location :: more) last =
      some sentence) : HasCoordinates sentence fields.length location := by
  obtain ⟨rest, rfl⟩ := format_eq_append hformat
  refine ⟨fields, more.flatten ++ rest, rfl, hfields, ?_⟩
  rw [latLong_eq_fields h, List.map_append, List.flatten_append, List.flatten_cons,
    List.flatten_cons]
  simp only [List.append_assoc]

section Report

variable {data : NmeaData} {location : GpsLocation} {locationExtended : GpsLocationExtended}
  {tm : Tm}

theorem comma_notMem_timeOfDay (tm : Tm) : ',' ∉ timeOfDay tm :=
  fun hmem => (plainText_timeOfDay tm ',' hmem).comma rfl

theorem rmc_hasCoordinates (h : location.has gpsLocationHasLatLong = true) {sentence : List Char}
    (hrmc : rmc data location locationExtended tm = some sentence) :
    HasCoordinates sentence 3 location := by
  have hown : "$GPRMC,".toList ++ timeOfDay tm ++ [',', 'A', ','] =
      (["$GPRMC".toList, timeOfDay tm, ['A']].map (· ++ [','])).flatten := by
    simp
  unfold rmc at hrmc
  rw [hown] at hrmc
  refine hasCoordinates_of_format h ?_ hrmc
  simp only [List.forall_mem_cons]
  exact ⟨by decide, comma_notMem_timeOfDay tm, by decide,
    fun _ hmem => absurd hmem List.not_mem_nil⟩

theorem gga_hasCoordinates (h : location.has gpsLocationHasLatLong = true) {svUsedCount : Nat}
    {sentence : List Char}
    (hgga : gga data location locationExtended tm svUsedCount = some sentence) :
    HasCoordinates sentence 2 location := by
  have hown : "$GPGGA,".toList ++ timeOfDay tm ++ [','] =
      (["$GPGGA".toList, timeOfDay tm].map (· ++ [','])).flatten := by
    simp
  unfold gga at hgga
  rw [hown] at hgga
  refine hasCoordinates_of_format h ?_ hgga
  simp only [List.forall_mem_cons]
  exact ⟨by decide, comma_notMem_timeOfDay tm, fun _ hmem => absurd hmem List.not_mem_nil⟩

/-- The field of the latitude in a sentence. -/
def latitudeField (text : List Char) : Option Nat :=
  if text.take 6 = "$GPRMC".toList then some 3
  else if text.take 6 = "$GPGGA".toList then some 2
  else none

/-- Of what is sent for a final fix, the sentences with coordinates have them where they
belong. -/
theorem sent_hasCoordinates (h : location.has gpsLocationHasLatLong = true)
    {sent : List Char × Nat}
    (hsent : sent ∈ (locEngNmeaGeneratePos data location locationExtended true).2) {k : Nat}
    (hk : latitudeField sent.1 = some k) : HasCoordinates sent.1 k location := by
  obtain ⟨tm, htm⟩ := gmtime_second location
  rw [generate_sent htm] at hsent
  obtain ⟨sentence, hmem, rfl⟩ := mem_sendAll hsent
  simp only [List.mem_cons, List.not_mem_nil, or_false] at hmem
  unfold latitudeField at hk
  rcases hmem with hgsa | hvtg | hrmc | hgga
  · rw [(gsa_written data locationExtended hgsa.symm).name rfl] at hk
    cases hk
  · rw [(vtg_written data location locationExtended hvtg.symm).name rfl] at hk
    cases hk
  · rw [(rmc_written data location locationExtended tm hrmc.symm).name rfl] at hk
    obtain rfl := Option.some.inj hk
    exact (rmc_hasCoordinates h hrmc.symm).append _
  · rw [(gga_written data location locationExtended tm hgga.symm).name rfl] at hk
    obtain rfl := Option.some.inj hk
    exact (gga_hasCoordinates h hgga.symm).append _

end Report

/-- In the sentences of a position the minutes are below 60 exactly if neither coordinate is
within half a unit of the last digit below a whole degree. -/
theorem minutes_below_sixty_iff (data : NmeaData) (location : GpsLocation)
    (locationExtended : GpsLocationExtended)
    (hlatLong : location.has gpsLocationHasLatLong = true)
    (hlat : |location.latitude| ≤ 90) (hlon : |location.longitude| ≤ 180) :
    ∀ sent ∈ (locEngNmeaGeneratePos data location locationExtended true).2, ∀ k,
      latitudeField sent.1 = some k →
        (CoordinatesRight sent.1 k location ↔
          ClearOfDegree location.latitude ∧ ClearOfDegree location.longitude) := by
  intro sent hsent k hk
  exact coordinatesRight_iff (sent_hasCoordinates hlatLong hsent hk)
    (lt_of_le_of_lt hlat (by norm_num)) (lt_of_le_of_lt hlon (by norm_num))

theorem minutes_below_sixty_eastward :
    ∃ sent ∈ (locEngNmeaGeneratePos dataOfFix eastward ⟨0x7, 500, 1.5, 0.9, 1.2, 0⟩ true).2,
      latitudeField sent.1 = some 3 ∧ CoordinatesRight sent.1 3 eastward := by
  have hrmc :
      ∃ sent ∈ (locEngNmeaGeneratePos dataOfFix eastward ⟨0x7, 500, 1.5, 0.9, 1.2, 0⟩ true).2,
        latitudeField sent.1 = some 3 := by
    decide +kernel
  obtain ⟨sent, hsent, hk⟩ := hrmc
  refine ⟨sent, hsent, hk, ?_⟩
  apply (minutes_below_sixty_iff dataOfFix eastward _ (by decide) (by decide +kernel)
    (by decide +kernel) sent hsent 3 hk).mpr
  exact ⟨by decide +kernel, by decide +kernel⟩

/-- A fix at 48.999999999 degrees north is printed at 48 degrees and 60 minutes. -/
theorem sixty_minutes_printed :
    ¬ ∀ (data : NmeaData) (location : GpsLocation) (locationExtended : GpsLocationExtended),
      location.has gpsLocationHasLatLong = true → |location.latitude| ≤ 90 →
        |location.longitude| ≤ 180 →
        ∀ sent ∈ (locEngNmeaGeneratePos data location locationExtended true).2, ∀ k,
          latitudeField sent.1 = some k → CoordinatesRight sent.1 k location := by
  intro h
  have hrmc :
      ∃ sent ∈ (locEngNmeaGeneratePos dataOfFix { eastward with latitude := 48.999999999 }
        ⟨0x7, 500, 1.5, 0.9, 1.2, 0⟩ true).2, latitudeField sent.1 = some 3 := by
    decide +kernel
  obtain ⟨sent, hsent, hk⟩ := hrmc
  have hright := h _ _ _ (by decide) (by decide +kernel) (by decide +kernel) sent hsent 3 hk
  have hcoordinates := sent_hasCoordinates (by decide) hsent hk
  have hclear :=
    (coordinatesRight_iff hcoordinates (by decide +kernel) (by decide +kernel)).mp hright
  exact absurd hclear.1 (by decide +kernel)

end Msm8916.Nmea
