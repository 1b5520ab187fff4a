import Msm8916.Lib.Chunk
import Msm8916.Nmea.Decode
import Msm8916.Nmea.Satellites

/-!
Every satellite of a constellation is in one sentence of its report.
-/

namespace Msm8916.Nmea

open Chunk Decimal

/-! ## What a report should be -/

section Report

variable {gpsMaxSvs : Nat} (svStatus : QcomSvStatus gpsMaxSvs) (constellation : Constellation)

/-- The satellites of the constellation, from `svNumber` on. -/
def satellitesFrom (svNumber : Nat) : List GpsSvInfo :=
  ((svStatus.sv_list.take svStatus.num_svs.toNat).drop (svNumber - 1)).filter
    fun sv => constellation.has sv.prn

/-- The satellites of the constellation in the order of the report. -/
def satellites : List GpsSvInfo :=
  (svStatus.sv_list.take svStatus.num_svs.toNat).filter fun sv => constellation.has sv.prn

def snrField (sv : GpsSvInfo) : List Char := if sv.snr > 0 then snrText sv else []

def svFields (sv : GpsSvInfo) : List (List Char) :=
  [printPadded 2 sv.prn, printPadded 2 (toInt (1 / 2 + sv.elevation)),
    printPadded 3 (toInt (1 / 2 + sv.azimuth)), snrField sv]

/-- The fields of a sentence. -/
def gsvFields (sentenceCount sentenceNumber count : Nat) (svs : List GpsSvInfo) :
    List (List Char) :=
  [constellation.talker, digits 1 sentenceCount, digits 1 sentenceNumber, digits 2 count] ++
    svs.flatMap svFields

/-- What is read of a satellite. -/
def GpsSvInfo.shown (sv : GpsSvInfo) : GsvSatellite :=
  ⟨sv.prn.toNat, printPadded 2 (toInt (1 / 2 + sv.elevation)),
    printPadded 3 (toInt (1 / 2 + sv.azimuth)), snrField sv⟩

/-- Every sentence of the constellation fits its buffer. -/
def Fits : Prop :=
  ∀ k svs, (chunks 4 (satellites svStatus constellation))[k]? = some svs →
    HasRoom (gsvFields constellation (chunks 4 (satellites svStatus constellation)).length (k + 1)
      (satellites svStatus constellation).length svs)

/-- The sentences of a talker. -/
def Constellation.sentences (sent : List (List Char × Nat)) : List (List Char) :=
  (sent.map Prod.fst).filter fun sentence => ('$' :: constellation.talker).isPrefixOf sentence

end Report

/-! ## Fields and texts -/

theorem plainText_printPadded (width : Nat) (n : Int) : PlainText (printPadded width n) := by
  have hdigits : ∀ width, PlainText (digits width n.natAbs) :=
    fun width c hc => plain_of_isDigit (isDigit_of_mem_digits hc)
  rw [printPadded]
  split
  · intro c hc
    rcases List.mem_cons.mp hc with rfl | hc
    · decide
    · exact hdigits _ c hc
  · exact hdigits _

theorem plainText_digits (width n : Nat) : PlainText (digits width n) :=
  fun _ hc => plain_of_isDigit (isDigit_of_mem_digits hc)

theorem plainText_snrField (sv : GpsSvInfo) : PlainText (snrField sv) := by
  rw [snrField]
  split
  · exact plainText_printPadded _ _
  · exact fun c hc => by cases hc

theorem plainText_svFields {sv : GpsSvInfo} {field : List Char} (h : field ∈ svFields sv) :
    PlainText field := by
  simp only [svFields, List.mem_cons, List.not_mem_nil, or_false] at h
  rcases h with rfl | rfl | rfl | rfl
  · exact plainText_printPadded _ _
  · exact plainText_printPadded _ _
  · exact plainText_printPadded _ _
  · exact plainText_snrField sv

/-- A satellite in a sentence, with the comma before it. -/
def satelliteText (sv : GpsSvInfo) : List Char := svText sv ++ snrField sv

theorem intercalate_svFields (svs : List GpsSvInfo) {first : List Char} :
    [','].intercalate (first :: svs.flatMap svFields) =
      first ++ svs.flatMap satelliteText := by
  induction svs generalizing first with
  | nil => simp
  | cons sv svs ih =>
      rw [List.flatMap_cons, List.flatMap_cons]
      simp only [svFields, List.cons_append, List.nil_append, List.intercalate_cons_cons]
      rw [ih]
      simp [satelliteText, svText]

theorem intercalate_gsvFields (constellation : Constellation)
    (sentenceCount sentenceNumber count : Nat) (svs : List GpsSvInfo) :
    '$' :: [','].intercalate (gsvFields constellation sentenceCount sentenceNumber count svs) =
      gsvHeader constellation sentenceCount sentenceNumber count ++
        svs.flatMap satelliteText := by
  simp only [gsvFields, List.cons_append, List.nil_append, List.intercalate_cons_cons]
  rw [intercalate_svFields]
  simp [gsvHeader]

theorem append_of_lt {sentence text : List Char}
    (h : (sentence ++ text).length < nmeaSentenceMaxLength) :
    append sentence text = some (sentence ++ text) := by
  rw [List.length_append] at h
  rw [append, if_neg (by omega)]

theorem appendSv_of_lt {sentence : List Char} {sv : GpsSvInfo}
    (h : (sentence ++ satelliteText sv).length < nmeaSentenceMaxLength) :
    appendSv sentence sv = some (sentence ++ satelliteText sv) := by
  rw [satelliteText, ← List.append_assoc] at h ⊢
  have hfirst : (sentence ++ svText sv).length < nmeaSentenceMaxLength := by
    rw [List.length_append] at h
    omega
  rw [appendSv, append_of_lt hfirst, Option.bind_some]
  unfold snrField at h ⊢
  split
  · rename_i hsnr
    rw [if_pos hsnr] at h
    exact append_of_lt h
  · rw [List.append_nil]

/-! ## The loops -/

section Loops

variable {gpsMaxSvs : Nat} {svStatus : QcomSvStatus gpsMaxSvs}

theorem satellitesFrom_one (constellation : Constellation) :
    satellitesFrom svStatus constellation 1 = satellites svStatus constellation := rfl

theorem satellitesFrom_of_gt (constellation : Constellation) {svNumber : Nat}
    (h : svStatus.num_svs < svNumber) : satellitesFrom svStatus constellation svNumber = [] := by
  have hshort : (svStatus.sv_list.take svStatus.num_svs.toNat).length ≤ svNumber - 1 := by
    rw [List.length_take]
    omega
  rw [satellitesFrom, List.drop_eq_nil_of_le hshort, List.filter_nil]

/-- The next satellite is reported or passed over. -/
theorem satellitesFrom_step (constellation : Constellation) {svNumber : Nat}
    (hmax : svStatus.num_svs ≤ gpsMaxSvs) (hpos : 1 ≤ svNumber) (h : svNumber ≤ svStatus.num_svs) :
    satellitesFrom svStatus constellation svNumber =
      if constellation.has (svStatus.sv svNumber).prn then
        svStatus.sv svNumber :: satellitesFrom svStatus constellation (svNumber + 1)
      else
        satellitesFrom svStatus constellation (svNumber + 1) := by
  have hlist : svNumber - 1 < svStatus.sv_list.length := by
    rw [svStatus.length_sv_list]
    omega
  have htake : svNumber - 1 < (svStatus.sv_list.take svStatus.num_svs.toNat).length := by
    rw [List.length_take]
    omega
  have hnext : svNumber - 1 + 1 = svNumber + 1 - 1 := by omega
  have hsv : (svStatus.sv_list.take svStatus.num_svs.toNat)[svNumber - 1] =
      svStatus.sv svNumber := by
    rw [List.getElem_take, QcomSvStatus.sv, List.getD_eq_getElem?_getD,
      List.getElem?_eq_getElem hlist, Option.getD_some]
  rw [satellitesFrom, List.drop_eq_getElem_cons htake, List.filter_cons, hsv, hnext]
  rfl

theorem has_iff {constellation : Constellation} {prn : Int} :
    constellation.has prn = true ↔
      constellation.prnStart ≤ prn ∧ prn ≤ constellation.prnEnd := by
  simp [Constellation.has]

/-- The two ranges have no number in common. -/
theorem not_has_glonass {prn : Int} (h : gps.has prn = true) : glonass.has prn = false := by
  have hrange : 1 ≤ prn ∧ prn ≤ 32 := has_iff.mp h
  apply Bool.eq_false_iff.mpr
  intro hboth
  have hother : 65 ≤ prn ∧ prn ≤ 96 := has_iff.mp hboth
  omega

theorem countLoop_eq (hmax : svStatus.num_svs ≤ gpsMaxSvs) {svNumber : Nat} (hpos : 1 ≤ svNumber)
    (gpsCount glnCount : Nat) :
    countLoop svStatus svNumber gpsCount glnCount =
      (gpsCount + (satellitesFrom svStatus gps svNumber).length,
        glnCount + (satellitesFrom svStatus glonass svNumber).length) := by
  induction svNumber, gpsCount, glnCount using countLoop.induct svStatus with
  | case1 svNumber gpsCount glnCount hle hgps ih =>
      rw [countLoop, if_pos hle, if_pos hgps, ih (by omega), satellitesFrom_step gps hmax hpos hle,
        satellitesFrom_step glonass hmax hpos hle, if_pos hgps,
        if_neg (by rw [not_has_glonass hgps]; decide), List.length_cons, Nat.add_right_comm,
        Nat.add_assoc gpsCount]
  | case2 svNumber gpsCount glnCount hle hgps hgln ih =>
      rw [countLoop, if_pos hle, if_neg hgps, if_pos hgln, ih (by omega),
        satellitesFrom_step gps hmax hpos hle, satellitesFrom_step glonass hmax hpos hle,
        if_neg hgps, if_pos hgln, List.length_cons, Nat.add_right_comm glnCount,
        Nat.add_assoc glnCount]
  | case3 svNumber gpsCount glnCount hle hgps hgln ih =>
      rw [countLoop, if_pos hle, if_neg hgps, if_neg hgln, ih (by omega),
        satellitesFrom_step gps hmax hpos hle, satellitesFrom_step glonass hmax hpos hle,
        if_neg hgps, if_neg hgln]
  | case4 svNumber gpsCount glnCount hgt =>
      rw [countLoop, if_neg hgt, satellitesFrom_of_gt gps (not_le.mp hgt),
        satellitesFrom_of_gt glonass (not_le.mp hgt)]
      rfl

variable {constellation : Constellation}

/-- A sentence takes the next satellites until it holds four, and the others are left. -/
theorem fillLoop_eq (hmax : svStatus.num_svs ≤ gpsMaxSvs) {svNumber i : Nat} {sentence : List Char}
    (hpos : 1 ≤ svNumber)
    (hfits : (sentence ++ ((satellitesFrom svStatus constellation svNumber).take (4 - i)).flatMap
      satelliteText).length < nmeaSentenceMaxLength) :
    ∃ next, svNumber ≤ next ∧
      fillLoop svStatus constellation svNumber i sentence =
        some (next, sentence ++
          ((satellitesFrom svStatus constellation svNumber).take (4 - i)).flatMap satelliteText) ∧
      satellitesFrom svStatus constellation next =
        (satellitesFrom svStatus constellation svNumber).drop (4 - i) := by
  induction hleft : (svStatus.num_svs + 1 - svNumber).toNat generalizing svNumber i sentence with
  | zero =>
      have hend : ¬ (svNumber ≤ svStatus.num_svs ∧ i < 4) := by omega
      refine ⟨svNumber, le_rfl, ?_, ?_⟩
      · rw [fillLoop, if_neg hend, satellitesFrom_of_gt constellation (by omega)]
        simp
      · rw [satellitesFrom_of_gt constellation (by omega), List.drop_nil]
  | succ left ih =>
      by_cases hfull : i < 4
      · have hle : svNumber ≤ svStatus.num_svs := by omega
        have hstep := satellitesFrom_step constellation hmax hpos hle
        by_cases hhas : constellation.has (svStatus.sv svNumber).prn = true
        · have hroom : 4 - i = 4 - (i + 1) + 1 := by omega
          rw [if_pos hhas] at hstep
          rw [hstep, hroom, List.take_succ_cons, List.flatMap_cons, ← List.append_assoc] at hfits
          obtain ⟨next, hnext, hfill, hrest⟩ := ih (i := i + 1) (by omega) hfits (by omega)
          have hsv : (sentence ++ satelliteText (svStatus.sv svNumber)).length <
              nmeaSentenceMaxLength := by
            rw [List.length_append] at hfits
            omega
          refine ⟨next, by omega, ?_, ?_⟩
          · rw [fillLoop, if_pos ⟨hle, hfull⟩, if_pos hhas, appendSv_of_lt hsv, hstep, hroom,
              List.take_succ_cons, List.flatMap_cons, ← List.append_assoc]
            exact hfill
          · rw [hrest, hstep, hroom, List.drop_succ_cons]
        · rw [if_neg hhas] at hstep
          rw [hstep] at hfits
          obtain ⟨next, hnext, hfill, hrest⟩ := ih (by omega) hfits (by omega)
          refine ⟨next, by omega, ?_, ?_⟩
          · rw [fillLoop, if_pos ⟨hle, hfull⟩, if_neg hhas, hstep, hfill]
          · rw [hrest, hstep]
      · have hnone : 4 - i = 0 := by omega
        refine ⟨svNumber, le_rfl, ?_, ?_⟩
        · rw [fillLoop, if_neg fun h => hfull h.2, hnone]
          simp
        · rw [hnone, List.drop_zero]

/-- The sentence of some satellites, with its number. -/
def gsvSentence (constellation : Constellation) (sentenceCount sentenceNumber count : Nat)
    (svs : List GpsSvInfo) : List Char :=
  '$' :: [','].intercalate (gsvFields constellation sentenceCount sentenceNumber count svs)

/-- The loop sends a sentence for each four of the satellites that are left. -/
theorem sentenceLoop_eq (hmax : svStatus.num_svs ≤ gpsMaxSvs) (sentenceCount count : Nat)
    (sentenceNumber : Nat) {svNumber : Nat} (hpos : 1 ≤ svNumber)
    (hleft : sentenceNumber + (chunks 4 (satellitesFrom svStatus constellation svNumber)).length =
      sentenceCount + 1)
    (hfits : ∀ k svs, (chunks 4 (satellitesFrom svStatus constellation svNumber))[k]? = some svs →
      HasRoom (gsvFields constellation sentenceCount (sentenceNumber + k) count svs)) :
    sentenceLoop svStatus constellation sentenceCount count sentenceNumber svNumber =
      ((chunks 4 (satellitesFrom svStatus constellation svNumber)).mapIdx fun k svs =>
        locEngNmeaPutChecksum
          (gsvSentence constellation sentenceCount (sentenceNumber + k) count svs)
          nmeaSentenceMaxLength, true) := by
  induction hsvs : chunks 4 (satellitesFrom svStatus constellation svNumber)
    generalizing sentenceNumber svNumber with
  | nil =>
      rw [hsvs, List.length_nil] at hleft
      rw [sentenceLoop, if_neg (by omega), List.mapIdx_nil]
  | cons svs rest ih =>
      have hne : satellitesFrom svStatus constellation svNumber ≠ [] := by
        intro hnil
        rw [hnil, chunks_nil] at hsvs
        cases hsvs
      rw [chunks_of_ne_nil (by decide) hne] at hsvs
      obtain ⟨rfl, hrest⟩ := List.cons.inj hsvs
      rw [chunks_of_ne_nil (by decide) hne, List.length_cons] at hleft
      rw [chunks_of_ne_nil (by decide) hne] at hfits
      have hroom := hfits 0 _ rfl
      rw [Nat.add_zero] at hroom
      have hsentence := intercalate_gsvFields constellation sentenceCount sentenceNumber count
        ((satellitesFrom svStatus constellation svNumber).take 4)
      have hlength : (gsvHeader constellation sentenceCount sentenceNumber count ++
          ((satellitesFrom svStatus constellation svNumber).take 4).flatMap satelliteText).length <
          nmeaSentenceMaxLength := by
        rw [← hsentence, List.length_cons]
        unfold HasRoom at hroom
        omega
      have hheader : ([] ++ gsvHeader constellation sentenceCount sentenceNumber count).length <
          nmeaSentenceMaxLength := by
        rw [List.length_append] at hlength
        rw [List.nil_append]
        omega
      obtain ⟨next, hnext, hfill, hafter⟩ :=
        fillLoop_eq hmax (i := 0) hpos hlength
      rw [Nat.sub_zero] at hfill hafter
      rw [← hafter] at hrest hleft hfits
      have hloop := @ih (sentenceNumber + 1) next (by omega)
        (by omega) (fun k svs hsvs => by
          have hnth := hfits (k + 1) svs hsvs
          rwa [← Nat.add_assoc, Nat.add_right_comm] at hnth) hrest
      rw [sentenceLoop, if_pos (by omega), append_of_lt hheader, Option.bind_some, List.nil_append,
        hfill]
      dsimp only
      have hshift : ∀ k, sentenceNumber + 1 + k = sentenceNumber + (k + 1) := by omega
      rw [hloop, List.mapIdx_cons, ← hsentence]
      simp only [hshift]
      rfl

/-- The satellites four by four. -/
def groups (svStatus : QcomSvStatus gpsMaxSvs) (constellation : Constellation) :
    List (List GpsSvInfo) :=
  chunks 4 (satellites svStatus constellation)

theorem gsv_eq (hmax : svStatus.num_svs ≤ gpsMaxSvs) (hfits : Fits svStatus constellation)
    (hsome : 1 ≤ (satellites svStatus constellation).length) :
    gsv svStatus constellation (satellites svStatus constellation).length =
      ((groups svStatus constellation).mapIdx fun k svs =>
        locEngNmeaPutChecksum
          (gsvSentence constellation (groups svStatus constellation).length (k + 1)
            (satellites svStatus constellation).length svs)
          nmeaSentenceMaxLength, true) := by
  have hcount : (satellites svStatus constellation).length / 4 +
      (if (satellites svStatus constellation).length % 4 ≠ 0 then 1 else 0) =
        (groups svStatus constellation).length := by
    rw [groups, length_chunks (by decide)]
    split
    · omega
    · omega
  have hfits' : ∀ k svs, (chunks 4 (satellitesFrom svStatus constellation 1))[k]? = some svs →
      HasRoom (gsvFields constellation (groups svStatus constellation).length (1 + k)
        (satellites svStatus constellation).length svs) := by
    intro k svs hsvs
    rw [Nat.add_comm 1 k]
    exact hfits k svs hsvs
  have hloop := sentenceLoop_eq hmax (groups svStatus constellation).length
    (satellites svStatus constellation).length 1 le_rfl (Nat.add_comm _ _) hfits'
  rw [gsv, if_neg (by omega), hcount, hloop]
  simp only [Nat.add_comm 1]
  rfl

/-- Every sentence names its constellation. -/
theorem prefix_of_mem_gsv (hmax : svStatus.num_svs ≤ gpsMaxSvs)
    (hfits : Fits svStatus constellation) {sentence : List Char × Nat}
    (h : sentence ∈ (gsv svStatus constellation (satellites svStatus constellation).length).1) :
    '$' :: constellation.talker <+: sentence.1 := by
  by_cases hsome : 1 ≤ (satellites svStatus constellation).length
  · rw [gsv_eq hmax hfits hsome] at h
    obtain ⟨k, hk, rfl⟩ := List.mem_mapIdx.mp h
    dsimp only [locEngNmeaPutChecksum]
    rw [gsvSentence, intercalate_gsvFields, gsvHeader]
    simp only [List.append_assoc, List.cons_append, List.nil_append]
    exact List.prefix_append ('$' :: constellation.talker) _
  · rw [gsv, if_pos (by omega)] at h
    rw [List.mem_singleton.mp h]
    dsimp only [locEngNmeaPutChecksum]
    simp only [List.append_assoc, List.cons_append, List.nil_append]
    exact List.prefix_append ('$' :: constellation.talker) _

theorem gsv_finished (hmax : svStatus.num_svs ≤ gpsMaxSvs) (hfits : Fits svStatus constellation) :
    (gsv svStatus constellation (satellites svStatus constellation).length).2 = true := by
  by_cases hsome : 1 ≤ (satellites svStatus constellation).length
  · rw [gsv_eq hmax hfits hsome]
  · rw [gsv, if_pos (by omega)]

/-- Both constellations are reported, one after the other. -/
theorem locEngNmeaGenerateSv_sent (hmax : svStatus.num_svs ≤ gpsMaxSvs)
    (hgps : Fits svStatus gps) (hgln : Fits svStatus glonass) (data : NmeaData)
    (locationExtended : GpsLocationExtended) :
    (locEngNmeaGenerateSv svStatus data locationExtended).2 =
      (gsv svStatus gps (satellites svStatus gps).length).1 ++
        (gsv svStatus glonass (satellites svStatus glonass).length).1 := by
  have hcount := countLoop_eq hmax le_rfl 0 0
  rw [Nat.zero_add, Nat.zero_add, satellitesFrom_one, satellitesFrom_one] at hcount
  simp only [locEngNmeaGenerateSv, hcount, gsv_finished hmax hgps, gsv_finished hmax hgln, if_true]

end Loops

/-! ## Reading -/

theorem sentences_append (constellation : Constellation) (first second : List (List Char × Nat)) :
    constellation.sentences (first ++ second) =
      constellation.sentences first ++ constellation.sentences second := by
  simp [Constellation.sentences]

theorem sentences_own {constellation : Constellation} {sent : List (List Char × Nat)}
    (h : ∀ sentence ∈ sent, '$' :: constellation.talker <+: sentence.1) :
    constellation.sentences sent = sent.map Prod.fst := by
  apply List.filter_eq_self.mpr
  intro text htext
  obtain ⟨sentence, hsentence, rfl⟩ := List.mem_map.mp htext
  exact List.isPrefixOf_iff_prefix.mpr (h sentence hsentence)

theorem sentences_other (constellation other : Constellation) {sent : List (List Char × Nat)}
    (hlength : constellation.talker.length = other.talker.length)
    (hne : constellation.talker ≠ other.talker)
    (h : ∀ sentence ∈ sent, '$' :: other.talker <+: sentence.1) :
    constellation.sentences sent = [] := by
  apply List.filter_eq_nil_iff.mpr
  intro text htext hprefix
  obtain ⟨sentence, hsentence, rfl⟩ := List.mem_map.mp htext
  have hboth := List.prefix_of_prefix_length_le (List.isPrefixOf_iff_prefix.mp hprefix)
    (h sentence hsentence) (by simp [hlength])
  have heq := hboth.eq_of_length (by simp [hlength])
  exact hne (List.cons.inj heq).2

theorem allOfFields_svFields {svs : List GpsSvInfo} (h : ∀ sv ∈ svs, 0 ≤ sv.prn) :
    GsvSatellite.allOfFields (svs.flatMap svFields) = some (svs.map GpsSvInfo.shown) := by
  induction svs with
  | nil => rfl
  | cons sv svs ih =>
      have hprn := readNat_printPadded 2 (h sv List.mem_cons_self)
      have hrest := ih fun other hother => h other (List.mem_cons_of_mem _ hother)
      rw [List.flatMap_cons, List.map_cons]
      simp only [svFields, List.cons_append, List.nil_append, GsvSatellite.allOfFields, hprn,
        hrest]
      rfl

/-- A sentence with room for its checksum is read as it was meant. -/
theorem readGsv_gsvSentence {constellation : Constellation}
    (hplain : PlainText constellation.talker) {sentenceCount sentenceNumber count : Nat}
    {svs : List GpsSvInfo} (hprn : ∀ sv ∈ svs, 0 ≤ sv.prn)
    (hroom : HasRoom (gsvFields constellation sentenceCount sentenceNumber count svs)) :
    readGsv (locEngNmeaPutChecksum
        (gsvSentence constellation sentenceCount sentenceNumber count svs)
        nmeaSentenceMaxLength).1 =
      some ⟨constellation.talker, sentenceCount, sentenceNumber, count,
        svs.map GpsSvInfo.shown⟩ := by
  have hfields : ∀ field ∈ gsvFields constellation sentenceCount sentenceNumber count svs,
      PlainText field := by
    intro field hfield
    rcases List.mem_append.mp hfield with hhead | hsatellite
    · simp only [List.mem_cons, List.not_mem_nil, or_false] at hhead
      rcases hhead with rfl | rfl | rfl | rfl
      · exact hplain
      · exact plainText_digits _ _
      · exact plainText_digits _ _
      · exact plainText_digits _ _
    · obtain ⟨sv, -, hsv⟩ := List.mem_flatMap.mp hsatellite
      exact plainText_svFields hsv
  have hne : gsvFields constellation sentenceCount sentenceNumber count svs ≠ [] :=
    List.cons_ne_nil _ _
  rw [readGsv, gsvSentence, fieldsOf_of_hasRoom hne hfields hroom, Option.bind_some, gsvFields]
  simp only [List.cons_append, List.nil_append, Gsv.ofFields, readNat_digits,
    allOfFields_svFields hprn]
  rfl

/-! ## Room -/

/-- The values are in the ranges of the sentence. -/
structure GpsSvInfo.InRange (sv : GpsSvInfo) : Prop where
  prn : 0 ≤ sv.prn ∧ sv.prn < 100
  elevation : 0 ≤ toInt (1 / 2 + sv.elevation) ∧ toInt (1 / 2 + sv.elevation) < 100
  azimuth : 0 ≤ toInt (1 / 2 + sv.azimuth) ∧ toInt (1 / 2 + sv.azimuth) < 1000
  snr : 0 ≤ toInt (1 / 2 + sv.snr) ∧ toInt (1 / 2 + sv.snr) < 100

theorem GpsSvInfo.InRange.length_le {sv : GpsSvInfo} (h : sv.InRange) :
    (satelliteText sv).length ≤ 13 := by
  have hprn : (printPadded 2 _).length ≤ 2 := length_printPadded_le (by decide) h.prn.1 h.prn.2
  have helevation : (printPadded 2 _).length ≤ 2 :=
    length_printPadded_le (by decide) h.elevation.1 h.elevation.2
  have hazimuth : (printPadded 3 _).length ≤ 3 :=
    length_printPadded_le (by decide) h.azimuth.1 h.azimuth.2
  have hsnr : (snrField sv).length ≤ 2 := by
    rw [snrField]
    split
    · exact length_printPadded_le (by decide) h.snr.1 h.snr.2
    · exact Nat.zero_le _
  simp only [satelliteText, svText, List.length_append, List.length_singleton]
  omega

theorem length_satellites_le {svs : List GpsSvInfo} (h : ∀ sv ∈ svs, sv.InRange) :
    (svs.flatMap satelliteText).length ≤ 13 * svs.length := by
  induction svs with
  | nil => rfl
  | cons sv svs ih =>
      have hfirst := (h sv List.mem_cons_self).length_le
      have hrest := ih fun other hother => h other (List.mem_cons_of_mem _ hother)
      rw [List.flatMap_cons, List.length_append, List.length_cons]
      omega

/-- Reports with values in their ranges fit. -/
theorem fits_of_inRange {gpsMaxSvs : Nat} {svStatus : QcomSvStatus gpsMaxSvs}
    {constellation : Constellation} (htalker : constellation.talker.length = 5)
    (hcount : (satellites svStatus constellation).length < 1000)
    (h : ∀ sv ∈ satellites svStatus constellation, sv.InRange) : Fits svStatus constellation := by
  intro k svs hsvs
  have hmem := List.mem_of_getElem? hsvs
  have hfour := (length_of_mem_chunks (by decide) hmem).2
  have hrange : ∀ sv ∈ svs, sv.InRange := by
    intro sv hsv
    apply h
    rw [← flatten_chunks 4 (satellites svStatus constellation)]
    exact List.mem_flatten.mpr ⟨svs, hmem, hsv⟩
  have hk : k < (chunks 4 (satellites svStatus constellation)).length :=
    (List.getElem?_eq_some_iff.mp hsvs).1
  have hlength := length_chunks (show 0 < 4 by decide) (satellites svStatus constellation)
  have hsentences : (digits 1 (chunks 4 (satellites svStatus constellation)).length).length ≤ 3 :=
    length_digits_le (by decide) (by decide) (by omega)
  have hnumber : (digits 1 (k + 1)).length ≤ 3 :=
    length_digits_le (by decide) (by decide) (by omega)
  have htotal : (digits 2 (satellites svStatus constellation).length).length ≤ 3 :=
    length_digits_le (by decide) (by decide) (by omega)
  have hsatellites := length_satellites_le hrange
  have hsentence := congrArg List.length (intercalate_gsvFields constellation
    (chunks 4 (satellites svStatus constellation)).length (k + 1)
    (satellites svStatus constellation).length svs)
  simp only [List.length_cons, gsvHeader, List.length_append, List.length_nil, htalker] at hsentence
  unfold HasRoom nmeaSentenceMaxLength
  omega

/-! ## The partition -/

theorem plainText_talker {constellation : Constellation}
    (h : constellation = gps ∨ constellation = glonass) : PlainText constellation.talker := by
  rcases h with rfl | rfl
  · decide
  · decide

theorem prn_of_mem_satellites {gpsMaxSvs : Nat} {svStatus : QcomSvStatus gpsMaxSvs}
    {constellation : Constellation} (h : constellation = gps ∨ constellation = glonass)
    {sv : GpsSvInfo} (hsv : sv ∈ satellites svStatus constellation) : 0 ≤ sv.prn := by
  have hrange := has_iff.mp (List.mem_filter.mp hsv).2
  rcases h with rfl | rfl
  · exact le_trans (by decide) hrange.1
  · exact le_trans (by decide) hrange.1

/-- The sentences of a constellation are those sent for it. -/
theorem sentences_locEngNmeaGenerateSv {gpsMaxSvs : Nat} {svStatus : QcomSvStatus gpsMaxSvs}
    (hmax : svStatus.num_svs ≤ gpsMaxSvs) (hgps : Fits svStatus gps)
    (hgln : Fits svStatus glonass) {constellation : Constellation}
    (h : constellation = gps ∨ constellation = glonass) (data : NmeaData)
    (locationExtended : GpsLocationExtended) :
    constellation.sentences (locEngNmeaGenerateSv svStatus data locationExtended).2 =
      ((gsv svStatus constellation (satellites svStatus constellation).length).1).map Prod.fst := by
  rw [locEngNmeaGenerateSv_sent hmax hgps hgln, sentences_append]
  rcases h with rfl | rfl
  · rw [sentences_own fun _ => prefix_of_mem_gsv hmax hgps,
      sentences_other gps glonass rfl (by decide) fun _ => prefix_of_mem_gsv hmax hgln,
      List.append_nil]
  · rw [sentences_other glonass gps rfl (by decide) fun _ => prefix_of_mem_gsv hmax hgps,
      sentences_own fun _ => prefix_of_mem_gsv hmax hgln, List.nil_append]

/-- The satellites of a constellation are reported in sentences of one to four, each in
one place of one sentence and in the order of the report. Every sentence has its number and
says how many sentences and satellites there are. -/
theorem gsv_partition {gpsMaxSvs : Nat} {svStatus : QcomSvStatus gpsMaxSvs}
    (hmax : svStatus.num_svs ≤ gpsMaxSvs) (hgps : Fits svStatus gps)
    (hgln : Fits svStatus glonass) {constellation : Constellation}
    (hconstellation : constellation = gps ∨ constellation = glonass)
    (hsome : 1 ≤ (satellites svStatus constellation).length) (data : NmeaData)
    (locationExtended : GpsLocationExtended) :
    ∃ groups : List (List GpsSvInfo),
      groups.flatten = satellites svStatus constellation ∧
      (∀ svs ∈ groups, 1 ≤ svs.length ∧ svs.length ≤ 4) ∧
      groups.length = ((satellites svStatus constellation).length + 3) / 4 ∧
      (constellation.sentences (locEngNmeaGenerateSv svStatus data locationExtended).2).map
          readGsv =
        groups.mapIdx fun k svs => some
          { talker := constellation.talker
            sentenceCount := groups.length
            sentenceNumber := k + 1
            count := (satellites svStatus constellation).length
            satellites := svs.map GpsSvInfo.shown } := by
  have hfits : Fits svStatus constellation := by
    rcases hconstellation with rfl | rfl
    · exact hgps
    · exact hgln
  refine ⟨groups svStatus constellation, flatten_chunks _ _,
    fun svs hsvs => length_of_mem_chunks (by decide) hsvs, length_chunks (by decide) _, ?_⟩
  rw [sentences_locEngNmeaGenerateSv hmax hgps hgln hconstellation,
    gsv_eq hmax hfits hsome, List.map_map]
  apply List.ext_getElem?
  intro k
  rw [List.getElem?_map, List.getElem?_mapIdx, List.getElem?_mapIdx, Option.map_map]
  cases hsvs : (groups svStatus constellation)[k]? with
  | none => rfl
  | some svs =>
      have hprn : ∀ sv ∈ svs, 0 ≤ sv.prn := by
        intro sv hsv
        apply prn_of_mem_satellites hconstellation
        rw [← flatten_chunks 4 (satellites svStatus constellation)]
        exact List.mem_flatten.mpr ⟨svs, List.mem_of_getElem? hsvs, hsv⟩
      exact congrArg some
        (readGsv_gsvSentence (plainText_talker hconstellation) hprn (hfits k svs hsvs))

/-- Five satellites of GPS, two of GLONASS and one of neither, in turn. -/
def mixedReport : QcomSvStatus 8 where
  num_svs := 8
  sv_list := [3, 65, 7, 200, 11, 96, 1, 32].map fun prn =>
    { prn, snr := 30, elevation := 45, azimuth := 180 }
  length_sv_list := rfl
  gps_used_in_fix_mask := 0

theorem mixedReport_inRange {constellation : Constellation}
    (hconstellation : constellation = gps ∨ constellation = glonass) :
    ∀ sv ∈ satellites mixedReport constellation, sv.InRange := by
  intro sv hsv
  obtain ⟨hlisted, hhas⟩ := List.mem_filter.mp hsv
  have hrange := has_iff.mp hhas
  obtain ⟨prn, -, rfl⟩ := List.mem_map.mp (List.mem_of_mem_take hlisted)
  have hprn : 0 ≤ prn ∧ prn < 100 := by
    rcases hconstellation with rfl | rfl
    · exact ⟨le_trans (by decide) hrange.1, lt_of_le_of_lt hrange.2 (by decide)⟩
    · exact ⟨le_trans (by decide) hrange.1, lt_of_le_of_lt hrange.2 (by decide)⟩
  exact
    { prn := hprn
      elevation := show 0 ≤ toInt (1 / 2 + 45) ∧ toInt (1 / 2 + 45) < 100 by decide +kernel
      azimuth := show 0 ≤ toInt (1 / 2 + 180) ∧ toInt (1 / 2 + 180) < 1000 by decide +kernel
      snr := show 0 ≤ toInt (1 / 2 + 30) ∧ toInt (1 / 2 + 30) < 100 by decide +kernel }

theorem gsv_partition_mixed :
    ∃ groups : List (List GpsSvInfo),
      groups.flatten = satellites mixedReport gps ∧
      (∀ svs ∈ groups, 1 ≤ svs.length ∧ svs.length ≤ 4) ∧
      groups.length = ((satellites mixedReport gps).length + 3) / 4 ∧
      (gps.sentences (locEngNmeaGenerateSv mixedReport ⟨0, 0, 0, 0, .standalone⟩
          ⟨0, 0, 0, 0, 0, 0⟩).2).map readGsv =
        groups.mapIdx fun k svs => some
          { talker := gps.talker
            sentenceCount := groups.length
            sentenceNumber := k + 1
            count := (satellites mixedReport gps).length
            satellites := svs.map GpsSvInfo.shown } :=
  gsv_partition (le_refl (8 : Int))
    (fits_of_inRange rfl (by decide) (mixedReport_inRange (.inl rfl)))
    (fits_of_inRange rfl (by decide) (mixedReport_inRange (.inr rfl)))
    (.inl rfl) (by decide) _ _

end Msm8916.Nmea
