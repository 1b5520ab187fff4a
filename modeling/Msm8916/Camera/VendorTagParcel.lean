import Msm8916.Camera.VendorTags

/-!
The way of a `VendorTagDescriptor` through a parcel: `writeToParcel` and
`createFromParcel`.
-/

namespace Msm8916.Camera

/-! ## The parcel -/

/-- What a parcel has for each tag. -/
structure TagRecord where
  tag : Word
  tagType : Int
  tagName : String
  sectionIndex : Word
deriving DecidableEq, Repr

section Parcel

variable {β : Type} (int32 : Codec Failure β Word) (string8 : Codec Failure β String)

def TagRecord.write (record : TagRecord) : List β :=
  int32.write record.tag ++ (int32.write (.ofInt record.tagType) ++
    (string8.write record.tagName ++ int32.write record.sectionIndex))

def VendorTagDescriptor.records (desc : VendorTagDescriptor) : List TagRecord :=
  desc.mTagToNameMap.entries.map fun entry =>
    { tag := entry.1
      tagType := (desc.mTagToTypeMap.lookup entry.1).getD 0
      tagName := entry.2
      sectionIndex := (desc.mTagToSectionMap.lookup entry.1).getD 0 }

def writeSections (names : List String) : List β :=
  if 0 < names.length then
    int32.write (.ofInt names.length) ++ names.flatMap string8.write
  else []

/-- A parcel with a count, records and sections. -/
def parcelOf (tagCount : Int) (records : List TagRecord) (names : List String) : List β :=
  int32.write (.ofInt tagCount) ++
    (records.flatMap (TagRecord.write int32 string8) ++ writeSections int32 string8 names)

def VendorTagDescriptor.writeToParcel (desc : VendorTagDescriptor) : List β :=
  parcelOf int32 string8 desc.mTagCount desc.records desc.mSections.keys

/-- A turn of the first loop of `createFromParcel`. -/
def readTag : Reader Failure β TagRecord := do
  let tag ← int32.read
  if tag < vendorTagBoundary then throw .badValue
  else do
    let tagType ← int32.read
    if tagType.toInt < 0 ∨ numTypes ≤ tagType.toInt then throw .badValue
    else do
      let tagName ← string8.read
      if tagName = "" then throw .notEnoughData
      else do
        let sectionIndex ← int32.read
        return ⟨tag, tagType.toInt, tagName, sectionIndex⟩

def readSectionName : Reader Failure β String := do
  let sectionName ← string8.read
  if sectionName = "" then throw .notEnoughData else return sectionName

/-- The sections, where there are tags. The sum with one is a `uint32_t`, and there is
memory for any capacity but none. -/
def readSections (maxSectionIndex : Word) : Reader Failure β (List String) := do
  let sectionCount ← int32.read
  if sectionCount < maxSectionIndex + 1 then throw .badValue
  else if sectionCount = 0 then throw .fatal
  else (readSectionName string8).many sectionCount.val

def maxSectionIndex (records : List TagRecord) : Word :=
  records.foldl (fun greatest record => max greatest record.sectionIndex) 0

/-- The descriptor before its reverse mapping is set up. -/
def received (tagCount : Int) (records : List TagRecord) (sections : List String) :
    VendorTagDescriptor where
  mReverseMapping := .empty
  mTagToNameMap := records.foldl (fun m record => m.add record.tag record.tagName) .empty
  mTagToSectionMap := records.foldl (fun m record => m.add record.tag record.sectionIndex) .empty
  mTagToTypeMap := records.foldl (fun m record => m.add record.tag record.tagType) .empty
  mSections := .ofKeys (fun _ => ()) sections
  mTagCount := tagCount

/-- A turn of the last loop. -/
def VendorTagDescriptor.reverse (desc : VendorTagDescriptor) (mapping : ReverseMapping)
    (tag : Word) : Except Failure ReverseMapping :=
  match desc.sectionOf tag with
  | none => .error .outside
  | some sectionString =>
      .ok (mapping.put sectionString ((desc.mTagToNameMap.lookup tag).getD "") tag)

def VendorTagDescriptor.setUpReverse (desc : VendorTagDescriptor) (allTags : List Word) :
    Except Failure VendorTagDescriptor := do
  let mReverseMapping ← allTags.foldlM desc.reverse .empty
  return { desc with mReverseMapping }

def createFromParcel : Reader Failure β VendorTagDescriptor := do
  let tagCount ← int32.read
  if tagCount.toInt < 0 then throw .badValue
  else do
    let records ← (readTag int32 string8).many tagCount.toInt.toNat
    let sections ←
      if 0 < tagCount.toInt then readSections int32 string8 (maxSectionIndex records)
      else pure []
    Reader.lift ((received tagCount.toInt records sections).setUpReverse
      (records.map TagRecord.tag))

end Parcel

/-! ## The way through a parcel -/

/-- What `createFromParcel` asks of a record. -/
structure TagRecord.Valid (record : TagRecord) : Prop where
  boundary : vendorTagBoundary ≤ record.tag
  low : 0 ≤ record.tagType
  high : record.tagType < numTypes
  named : record.tagName ≠ ""

section Reading

variable {β : Type} (int32 : Codec Failure β Word) (string8 : Codec Failure β String)

theorem readTag_takes {record : TagRecord} (h : record.Valid) :
    (readTag int32 string8).Takes (record.write int32 string8) record := by
  have htype : (Word.ofInt record.tagType).toInt = record.tagType := by
    have hhigh := h.high
    rw [numTypes] at hhigh
    exact Word.toInt_ofInt (by have := h.low; omega) (by omega)
  refine (int32.read_write record.tag).bind ?_
  rw [if_neg (not_lt.mpr h.boundary)]
  refine (int32.read_write (.ofInt record.tagType)).bind ?_
  rw [htype, if_neg (by have := h.low; have := h.high; omega)]
  refine (string8.read_write record.tagName).bind ?_
  rw [if_neg h.named]
  exact (int32.read_write record.sectionIndex).bind_pure _

theorem readTag_rejects {record : TagRecord} (hboundary : vendorTagBoundary ≤ record.tag)
    (hlow : 0 ≤ record.tagType) (hhigh : record.tagType < numTypes) (hname : record.tagName = "") :
    (readTag int32 string8).Rejects (record.write int32 string8) .notEnoughData := by
  have htype : (Word.ofInt record.tagType).toInt = record.tagType := by
    rw [numTypes] at hhigh
    exact Word.toInt_ofInt (by omega) (by omega)
  refine (int32.read_write record.tag).bind_rejects ?_
  rw [if_neg (not_lt.mpr hboundary)]
  refine (int32.read_write (.ofInt record.tagType)).bind_rejects ?_
  rw [htype, if_neg (by omega)]
  refine (string8.read_write record.tagName).bind_rejects ?_
  rw [if_pos hname, ← List.nil_append (int32.write _)]
  exact (Reader.rejects_throw _).append _

/-- A number below the boundary is no tag. -/
theorem readTag_rejects_word {word : Word} (h : word < vendorTagBoundary) :
    (readTag int32 string8).Rejects (int32.write word) .badValue := by
  rw [← List.append_nil (int32.write word)]
  refine (int32.read_write word).bind_rejects ?_
  rw [if_pos h]
  exact Reader.rejects_throw _

theorem readSectionName_takes {sectionName : String} (h : sectionName ≠ "") :
    (readSectionName string8).Takes (string8.write sectionName) sectionName := by
  rw [← List.append_nil (string8.write sectionName)]
  refine (string8.read_write sectionName).bind ?_
  rw [if_neg h]
  exact Reader.takes_pure _

theorem readSectionName_rejects {sectionName : String} (h : sectionName = "") :
    (readSectionName string8).Rejects (string8.write sectionName) .notEnoughData := by
  rw [← List.append_nil (string8.write sectionName)]
  refine (string8.read_write sectionName).bind_rejects ?_
  rw [if_pos h]
  exact Reader.rejects_throw _

theorem setUpReverse_eq (desc : VendorTagDescriptor) (tags : List Word) :
    desc.setUpReverse tags =
      if ∀ tag ∈ tags, (desc.sectionOf tag).isSome then
        .ok { desc with
          mReverseMapping := reverseOf (fun tag => (desc.sectionOf tag).getD "")
            (fun tag => (desc.mTagToNameMap.lookup tag).getD "") tags }
      else .error .outside := by
  have hturn : ∀ mapping tag, desc.reverse mapping tag =
      if (desc.sectionOf tag).isSome then
        .ok (mapping.put ((desc.sectionOf tag).getD "")
          ((desc.mTagToNameMap.lookup tag).getD "") tag)
      else .error .outside := by
    intro mapping tag
    rw [VendorTagDescriptor.reverse]
    cases desc.sectionOf tag <;> rfl
  rw [VendorTagDescriptor.setUpReverse, foldlM_eq_ite hturn]
  by_cases h : ∀ tag ∈ tags, (desc.sectionOf tag).isSome
  · rw [if_pos h, if_pos h]
    rfl
  · rw [if_neg h, if_neg h]
    rfl

variable {names : List String}

theorem writeSections_eq (hpos : 0 < names.length) :
    writeSections int32 string8 names =
      int32.write (.ofInt names.length) ++ names.flatMap string8.write := if_pos hpos

theorem readSections_takes {greatest : Word} (hnames : ∀ name ∈ names, name ≠ "")
    (hpos : 0 < names.length) (hlength : names.length < 2 ^ 32)
    (hgreatest : greatest + 1 ≤ Word.ofInt names.length) :
    (readSections int32 string8 greatest).Takes (writeSections int32 string8 names) names := by
  rw [writeSections_eq int32 string8 hpos]
  refine (int32.read_write _).bind ?_
  have hval := Word.val_ofInt hlength
  have hne : Word.ofInt names.length ≠ 0 := by
    intro heq
    rw [heq] at hval
    exact Nat.ne_of_gt hpos hval.symm
  rw [if_neg (not_lt.mpr hgreatest), if_neg hne, hval]
  exact Reader.Takes.many fun name hmem => readSectionName_takes string8 (hnames name hmem)

theorem readSections_rejects {greatest : Word} (hpos : 0 < names.length)
    (hgreatest : Word.ofInt names.length < greatest + 1) :
    (readSections int32 string8 greatest).Rejects (writeSections int32 string8 names)
      .badValue := by
  rw [writeSections_eq int32 string8 hpos]
  refine (int32.read_write _).bind_rejects ?_
  rw [if_pos hgreatest, ← List.nil_append (names.flatMap _)]
  exact (Reader.rejects_throw _).append _

/-- An empty name of a section ends the reading of sections that are enough. -/
theorem readSections_rejects_names {greatest : Word} (hnames : ∃ name ∈ names, name = "")
    (hlength : names.length < 2 ^ 32) (hgreatest : greatest + 1 ≤ Word.ofInt names.length) :
    (readSections int32 string8 greatest).Rejects (writeSections int32 string8 names)
      .notEnoughData := by
  have hpos : 0 < names.length := by
    obtain ⟨name, hmem, -⟩ := hnames
    exact List.length_pos_of_mem hmem
  rw [writeSections_eq int32 string8 hpos]
  refine (int32.read_write _).bind_rejects ?_
  have hval := Word.val_ofInt hlength
  have hne : Word.ofInt names.length ≠ 0 := by
    intro heq
    rw [heq] at hval
    exact Nat.ne_of_gt hpos hval.symm
  rw [if_neg (not_lt.mpr hgreatest), if_neg hne, hval]
  refine Reader.Rejects.many_of_exists (· ≠ "")
    (fun name _ h => ⟨name, readSectionName_takes string8 h⟩)
    (fun name _ h => readSectionName_rejects string8 (not_not.mp h)) ?_ le_rfl
  obtain ⟨name, hmem, hempty⟩ := hnames
  exact ⟨name, hmem, not_not.mpr hempty⟩

variable {records : List TagRecord}

/-- What `createFromParcel` makes of a parcel of valid records with named sections. -/
theorem createFromParcel_parcelOf (hvalid : ∀ record ∈ records, record.Valid)
    (hnames : ∀ name ∈ names, name ≠ "") (hcount : records.length < 2 ^ 31)
    (hlength : names.length < 2 ^ 32) (hempty : records = [] ↔ names = []) (rest : List β) :
    (createFromParcel int32 string8).run
        (parcelOf int32 string8 records.length records names ++ rest) =
      if records ≠ [] ∧ Word.ofInt names.length < maxSectionIndex records + 1 then
        .error .badValue
      else
        ((received records.length records names).setUpReverse
          (records.map TagRecord.tag)).map (·, rest) := by
  have htoInt : (Word.ofInt records.length).toInt = records.length :=
    Word.toInt_ofInt (by omega) (by exact_mod_cast hcount)
  have htags := Reader.Takes.many fun record hmem =>
    readTag_takes int32 string8 (hvalid record hmem)
  rw [parcelOf, List.append_assoc, List.append_assoc, createFromParcel,
    (int32.read_write _).run_bind, htoInt, if_neg (by omega), Int.toNat_natCast, htags.run_bind]
  have hlift : ∀ result : Except Failure VendorTagDescriptor,
      (Reader.lift result : Reader Failure β VendorTagDescriptor).run rest =
        result.map (·, rest) := fun _ => rfl
  by_cases hnone : records = []
  · subst hnone
    obtain rfl := hempty.mp rfl
    have hnot : ¬ (([] : List TagRecord) ≠ [] ∧
        Word.ofInt ([] : List String).length < maxSectionIndex [] + 1) := fun h => h.1 rfl
    have hnegative : ¬ (0 : Int) < (([] : List TagRecord).length : Int) := lt_irrefl 0
    rw [if_neg hnot, if_neg hnegative]
    exact hlift ((received 0 [] []).setUpReverse [])
  have hpos : 0 < names.length := List.length_pos_iff.mpr fun h => hnone (hempty.mpr h)
  rw [if_pos (by exact_mod_cast List.length_pos_iff.mpr hnone)]
  by_cases hgreatest : Word.ofInt names.length < maxSectionIndex records + 1
  · rw [if_pos ⟨hnone, hgreatest⟩]
    exact ((readSections_rejects int32 string8 hpos hgreatest).bind _).run rest
  · have hsections := readSections_takes int32 string8 hnames hpos hlength
      (not_lt.mp hgreatest)
    rw [if_neg fun h => hgreatest h.2, hsections.run_bind]
    exact hlift _

end Reading

theorem foldl_max_spec (records : List TagRecord) (start : Word) :
    start ≤ records.foldl (fun greatest record => max greatest record.sectionIndex) start ∧
      (∀ record ∈ records, record.sectionIndex ≤
        records.foldl (fun greatest record => max greatest record.sectionIndex) start) ∧
      ∀ bound, start < bound → (∀ record ∈ records, record.sectionIndex < bound) →
        records.foldl (fun greatest record => max greatest record.sectionIndex) start < bound := by
  induction records generalizing start with
  | nil => exact ⟨le_rfl, by simp, fun bound hstart _ => hstart⟩
  | cons first records ih =>
      obtain ⟨hstart, hrecords, hbound⟩ := ih (max start first.sectionIndex)
      rw [List.foldl_cons]
      refine ⟨(le_max_left _ _).trans hstart, ?_, fun bound hlow hall => ?_⟩
      · rw [List.forall_mem_cons]
        exact ⟨(le_max_right _ _).trans hstart, hrecords⟩
      · rw [List.forall_mem_cons] at hall
        exact hbound bound (max_lt hlow hall.1) hall.2

theorem le_maxSectionIndex {records : List TagRecord} {record : TagRecord}
    (h : record ∈ records) : record.sectionIndex ≤ maxSectionIndex records :=
  (foldl_max_spec records 0).2.1 record h

theorem maxSectionIndex_lt {records : List TagRecord} {bound : Word} (hpos : 0 < bound)
    (h : ∀ record ∈ records, record.sectionIndex < bound) : maxSectionIndex records < bound :=
  (foldl_max_spec records 0).2.2 bound hpos h

namespace VendorTagOps

variable (vOps : VendorTagOps)

/-- The tags in the order of the maps. -/
def keys : List Word := (SortedMap.ofKeys vOps.nameOf vOps.tagArray).keys

def record (tag : Word) : TagRecord where
  tag := tag
  tagType := vOps.getTagType tag
  tagName := vOps.nameOf tag
  sectionIndex := vOps.sectionIndex tag

theorem mem_keys {tag : Word} : tag ∈ vOps.keys ↔ tag ∈ vOps.tagArray :=
  SortedMap.mem_keys_ofKeys _ _

theorem length_keys : vOps.keys.length ≤ vOps.tagArray.length ∧
    (vOps.keys.length = vOps.tagArray.length ↔ vOps.tagArray.Nodup) :=
  SortedMap.length_keys_ofKeys_le _ _

theorem records_descriptor : vOps.descriptor.records = vOps.keys.map vOps.record := by
  have hentries : (SortedMap.ofKeys vOps.nameOf vOps.tagArray).entries =
      vOps.keys.map fun tag => (tag, vOps.nameOf tag) := by
    apply SortedMap.entries_eq_map_keys
    intro tag hmem
    rw [SortedMap.lookup_ofKeys, if_pos (vOps.mem_keys.mp hmem)]
  rw [VendorTagDescriptor.records, descriptor, hentries, List.map_map]
  apply List.map_congr_left
  intro tag hmem
  have hin := vOps.mem_keys.mp hmem
  simp only [Function.comp_apply, SortedMap.lookup_ofKeys, if_pos hin, Option.getD_some, record]

variable {vOps}

/-- Section indices are enough below the number of sections to pass the check. -/
theorem maxSectionIndex_records (hpos : 0 < vOps.sections.keys.length) :
    maxSectionIndex (vOps.keys.map vOps.record) + 1 ≤ Word.ofInt vOps.sections.keys.length := by
  have hlength := vOps.length_sections_lt
  have hval : (Word.ofInt vOps.sections.keys.length).val = vOps.sections.keys.length :=
    Word.val_ofInt (by omega)
  have hbound : maxSectionIndex (vOps.keys.map vOps.record) <
      Word.ofInt vOps.sections.keys.length := by
    apply maxSectionIndex_lt
    · rw [Fin.lt_def, hval]
      exact hpos
    · intro record hmem
      obtain ⟨tag, htag, rfl⟩ := List.mem_map.mp hmem
      rw [Fin.lt_def, hval]
      exact (sectionIndex_spec (vOps.mem_keys.mp htag)).1
  exact Fin.add_one_le_of_lt hbound

/-- The parcel of a descriptor brings all but the reverse mapping. -/
theorem received_records :
    received vOps.getTagCount (vOps.keys.map vOps.record) vOps.sections.keys =
      { vOps.descriptor with mReverseMapping := .empty } := by
  have hkeys : ∀ {ν : Type} (value : Word → ν),
      vOps.keys.foldl (fun m tag => m.add tag (value tag)) .empty =
        SortedMap.ofKeys value vOps.tagArray := fun value =>
    SortedMap.ofKeys_congr (fun tag => vOps.mem_keys) fun tag _ => rfl
  have hsections : SortedMap.ofKeys (fun _ => ()) vOps.sections.keys = vOps.sections :=
    SortedMap.ofKeys_congr (fun sectionName => SortedMap.mem_keys_ofKeys _ _) fun _ _ => rfl
  rw [received, List.foldl_map, List.foldl_map, List.foldl_map, hsections, descriptor]
  congr 1
  · exact hkeys vOps.nameOf
  · exact hkeys vOps.sectionIndex
  · exact hkeys vOps.getTagType

/-- Reading back, the tags are gone through in the order of the maps. -/
theorem setUpReverse_received :
    (received vOps.getTagCount (vOps.keys.map vOps.record) vOps.sections.keys).setUpReverse
        ((vOps.keys.map vOps.record).map TagRecord.tag) =
      .ok { vOps.descriptor with
        mReverseMapping := reverseOf vOps.sectionOf vOps.nameOf vOps.keys } := by
  have htags : (vOps.keys.map vOps.record).map TagRecord.tag = vOps.keys := by
    rw [List.map_map]
    exact List.map_id vOps.keys
  have hsection : ∀ tag ∈ vOps.keys,
      (received vOps.getTagCount (vOps.keys.map vOps.record) vOps.sections.keys).sectionOf tag =
        some (vOps.sectionOf tag) := by
    intro tag hmem
    have hin := vOps.mem_keys.mp hmem
    rw [received_records, VendorTagDescriptor.sectionOf, descriptor, SortedMap.lookup_ofKeys,
      if_pos hin, Option.getD_some]
    exact (sectionIndex_spec hin).2
  rw [htags, setUpReverse_eq, if_pos fun tag hmem => by rw [hsection tag hmem]; rfl]
  have hreverse : ∀ mapping : ReverseMapping, ∀ tag ∈ vOps.keys,
      mapping.put (((received vOps.getTagCount (vOps.keys.map vOps.record)
          vOps.sections.keys).sectionOf tag).getD "")
        (((received vOps.getTagCount (vOps.keys.map vOps.record)
          vOps.sections.keys).mTagToNameMap.lookup tag).getD "") tag =
      mapping.put (vOps.sectionOf tag) (vOps.nameOf tag) tag := by
    intro mapping tag hmem
    rw [hsection tag hmem, received_records, descriptor, SortedMap.lookup_ofKeys,
      if_pos (vOps.mem_keys.mp hmem), Option.getD_some, Option.getD_some]
  rw [reverseOf, List.foldl_ext _ _ _ hreverse, received_records]
  rfl

/-- A descriptor of these tags can be sent: the tags are different, and the names are not
empty. -/
structure Sendable (vOps : VendorTagOps) : Prop where
  nodup : vOps.tagArray.Nodup
  names : ∀ tag ∈ vOps.tagArray, vOps.nameOf tag ≠ ""
  sections : ∀ tag ∈ vOps.tagArray, vOps.sectionOf tag ≠ ""

section RoundTrip

variable {β : Type} (int32 : Codec Failure β Word) (string8 : Codec Failure β String)

theorem writeToParcel_descriptor :
    vOps.descriptor.writeToParcel int32 string8 =
      parcelOf int32 string8 vOps.getTagCount (vOps.keys.map vOps.record) vOps.sections.keys := by
  rw [VendorTagDescriptor.writeToParcel, records_descriptor]
  rfl

theorem toInt_getTagCount (hcount : 0 ≤ vOps.getTagCount) :
    (Word.ofInt vOps.getTagCount).toInt = vOps.getTagCount :=
  Word.toInt_ofInt (by omega) vOps.getTagCount_lt

theorem valid_record {tag : Word} (hdefines : vOps.Defines tag) (hname : vOps.nameOf tag ≠ "") :
    (vOps.record tag).Valid :=
  ⟨hdefines.1, hdefines.2.2.2.1, hdefines.2.2.2.2, hname⟩

/-- There are sections exactly if there are tags. -/
theorem keys_eq_nil_iff : vOps.keys = [] ↔ vOps.sections.keys = [] := by
  rw [List.eq_nil_iff_forall_not_mem, List.eq_nil_iff_forall_not_mem]
  simp only [mem_keys, mem_sections]
  constructor
  · rintro h _ ⟨tag, hmem, -⟩
    exact h tag hmem
  · exact fun h tag hmem => h _ ⟨tag, hmem, rfl⟩

theorem read_sendable (hcount : 0 ≤ vOps.getTagCount)
    (hdefines : ∀ tag ∈ vOps.tagArray, vOps.Defines tag) (h : vOps.Sendable) (rest : List β) :
    (createFromParcel int32 string8).run
        (vOps.descriptor.writeToParcel int32 string8 ++ rest) =
      .ok ({ vOps.descriptor with
        mReverseMapping := reverseOf vOps.sectionOf vOps.nameOf vOps.keys }, rest) := by
  have hlength : ((vOps.keys.map vOps.record).length : Int) = vOps.getTagCount := by
    rw [List.length_map, vOps.length_keys.2.mpr h.nodup, vOps.length_tagArray]
    exact Int.toNat_of_nonneg hcount
  have hkeys := vOps.length_keys.2.mpr h.nodup
  have hsections := vOps.length_sections_lt
  have hnil : vOps.keys.map vOps.record = [] ↔ vOps.sections.keys = [] := by
    rw [List.map_eq_nil_iff]
    exact keys_eq_nil_iff
  rw [writeToParcel_descriptor, ← hlength, createFromParcel_parcelOf, if_neg, hlength,
    setUpReverse_received]
  · rfl
  · rintro ⟨hne, hlow⟩
    have hpos := List.length_pos_iff.mpr (mt hnil.mpr hne)
    exact absurd hlow (not_lt.mpr (maxSectionIndex_records hpos))
  · intro record hmem
    obtain ⟨tag, htag, rfl⟩ := List.mem_map.mp hmem
    have hin := vOps.mem_keys.mp htag
    exact valid_record (hdefines tag hin) (h.names tag hin)
  · intro name hmem
    obtain ⟨tag, htag, rfl⟩ := vOps.mem_sections.mp hmem
    exact h.sections tag htag
  · rw [List.length_map, hkeys]
    exact vOps.length_tagArray_lt
  · omega
  · exact hnil

/-- A tag without a name ends the reading. -/
theorem read_unnamed (hcount : 0 ≤ vOps.getTagCount)
    (hdefines : ∀ tag ∈ vOps.tagArray, vOps.Defines tag)
    (hname : ∃ tag ∈ vOps.tagArray, vOps.nameOf tag = "") (rest : List β) :
    (createFromParcel int32 string8).run
        (vOps.descriptor.writeToParcel int32 string8 ++ rest) = .error .notEnoughData := by
  have hrejects : ((readTag int32 string8).many vOps.getTagCount.toNat).Rejects
      ((vOps.keys.map vOps.record).flatMap (TagRecord.write int32 string8)) .notEnoughData := by
    refine Reader.Rejects.many_of_exists TagRecord.Valid
      (fun record _ h => ⟨record, readTag_takes int32 string8 h⟩) ?_ ?_ ?_
    · intro record hmem hinvalid
      obtain ⟨tag, htag, rfl⟩ := List.mem_map.mp hmem
      have htagDefined := hdefines tag (vOps.mem_keys.mp htag)
      by_cases hempty : vOps.nameOf tag = ""
      · exact readTag_rejects int32 string8 htagDefined.1 htagDefined.2.2.2.1
          htagDefined.2.2.2.2 hempty
      · exact absurd (valid_record htagDefined hempty) hinvalid
    · obtain ⟨tag, htag, hempty⟩ := hname
      exact ⟨vOps.record tag, List.mem_map_of_mem (vOps.mem_keys.mpr htag),
        fun hvalid => hvalid.named hempty⟩
    · rw [List.length_map, ← vOps.length_tagArray]
      exact vOps.length_keys.1
  rw [writeToParcel_descriptor, parcelOf, List.append_assoc, List.append_assoc, createFromParcel,
    (int32.read_write _).run_bind, toInt_getTagCount hcount, if_neg (not_lt.mpr hcount)]
  exact (hrejects.bind _).run _

/-- After fewer records than were announced comes the number of sections, which is no tag. -/
theorem read_repeated (hcount : 0 ≤ vOps.getTagCount)
    (hdefines : ∀ tag ∈ vOps.tagArray, vOps.Defines tag)
    (hname : ∀ tag ∈ vOps.tagArray, vOps.nameOf tag ≠ "") (hrepeated : ¬ vOps.tagArray.Nodup)
    (rest : List β) :
    (createFromParcel int32 string8).run
        (vOps.descriptor.writeToParcel int32 string8 ++ rest) = .error .badValue := by
  have hlength : (vOps.keys.map vOps.record).length < vOps.getTagCount.toNat := by
    rw [List.length_map, ← vOps.length_tagArray]
    exact lt_of_le_of_ne vOps.length_keys.1 (mt vOps.length_keys.2.mp hrepeated)
  have hpos : 0 < vOps.sections.keys.length := by
    apply List.length_pos_iff.mpr
    intro hnil
    have hkeys := keys_eq_nil_iff.mpr hnil
    have hempty : vOps.tagArray = [] := by
      apply List.eq_nil_iff_forall_not_mem.mpr
      intro tag hmem
      rw [← mem_keys, hkeys] at hmem
      cases hmem
    exact hrepeated (hempty ▸ List.nodup_nil)
  have hword : Word.ofInt vOps.sections.keys.length < vendorTagBoundary := by
    have hsections := vOps.length_sections_lt
    have hval : (Word.ofInt vOps.sections.keys.length).val = _ := Word.val_ofInt (by omega)
    rw [Fin.lt_def, hval]
    exact hsections
  have hrejects := Reader.Rejects.many
    (fun record hmem => readTag_takes int32 string8 (by
      obtain ⟨tag, htag, rfl⟩ := List.mem_map.mp hmem
      have hin := vOps.mem_keys.mp htag
      exact valid_record (hdefines tag hin) (hname tag hin)))
    (readTag_rejects_word int32 string8 hword) hlength
  rw [writeToParcel_descriptor, parcelOf, writeSections_eq int32 string8 hpos, List.append_assoc,
    List.append_assoc, createFromParcel, (int32.read_write _).run_bind, toInt_getTagCount hcount,
    if_neg (not_lt.mpr hcount), List.append_assoc, ← List.append_assoc _ (int32.write _)]
  exact (hrejects.bind _).run _

/-- A section without a name ends the reading. -/
theorem read_unnamed_section (hcount : 0 ≤ vOps.getTagCount)
    (hdefines : ∀ tag ∈ vOps.tagArray, vOps.Defines tag)
    (hname : ∀ tag ∈ vOps.tagArray, vOps.nameOf tag ≠ "") (hnodup : vOps.tagArray.Nodup)
    (hsection : ∃ tag ∈ vOps.tagArray, vOps.sectionOf tag = "") (rest : List β) :
    (createFromParcel int32 string8).run
        (vOps.descriptor.writeToParcel int32 string8 ++ rest) = .error .notEnoughData := by
  have hkeys := vOps.length_keys.2.mpr hnodup
  have hsections := vOps.length_sections_lt
  have hempty : ∃ name ∈ vOps.sections.keys, name = "" := by
    obtain ⟨tag, hmem, hnone⟩ := hsection
    exact ⟨"", vOps.mem_sections.mpr ⟨tag, hmem, hnone⟩, rfl⟩
  have hpos : 0 < vOps.sections.keys.length := by
    obtain ⟨name, hmem, -⟩ := hempty
    exact List.length_pos_of_mem hmem
  have htags := Reader.Takes.many fun record (hmem : record ∈ vOps.keys.map vOps.record) =>
    readTag_takes int32 string8 (by
      obtain ⟨tag, htag, rfl⟩ := List.mem_map.mp hmem
      have hin := vOps.mem_keys.mp htag
      exact valid_record (hdefines tag hin) (hname tag hin))
  rw [List.length_map, hkeys, vOps.length_tagArray] at htags
  have hcountPos : 0 < vOps.getTagCount := by
    obtain ⟨tag, hmem, -⟩ := hsection
    have hlength := List.length_pos_of_mem hmem
    rw [vOps.length_tagArray] at hlength
    omega
  rw [writeToParcel_descriptor, parcelOf, List.append_assoc, List.append_assoc, createFromParcel,
    (int32.read_write _).run_bind, toInt_getTagCount hcount, if_neg (not_lt.mpr hcount),
    htags.run_bind, if_pos hcountPos]
  exact ((readSections_rejects_names int32 string8 hempty (by omega)
    (maxSectionIndex_records hpos)).bind _).run rest

theorem read_not_sendable (hcount : 0 ≤ vOps.getTagCount)
    (hdefines : ∀ tag ∈ vOps.tagArray, vOps.Defines tag) (h : ¬ vOps.Sendable) (rest : List β) :
    ∃ error, (error = .badValue ∨ error = .notEnoughData) ∧
      (createFromParcel int32 string8).run
        (vOps.descriptor.writeToParcel int32 string8 ++ rest) = .error error := by
  by_cases hname : ∃ tag ∈ vOps.tagArray, vOps.nameOf tag = ""
  · exact ⟨_, .inr rfl, read_unnamed int32 string8 hcount hdefines hname rest⟩
  have hnames : ∀ tag ∈ vOps.tagArray, vOps.nameOf tag ≠ "" :=
    fun tag hmem hempty => hname ⟨tag, hmem, hempty⟩
  by_cases hnodup : vOps.tagArray.Nodup
  · have hsection : ∃ tag ∈ vOps.tagArray, vOps.sectionOf tag = "" := by
      by_contra hsections
      exact h ⟨hnodup, hnames, fun tag hmem hempty => hsections ⟨tag, hmem, hempty⟩⟩
    exact ⟨_, .inr rfl,
      read_unnamed_section int32 string8 hcount hdefines hnames hnodup hsection rest⟩
  · exact ⟨_, .inl rfl, read_repeated int32 string8 hcount hdefines hnames hnodup rest⟩

end RoundTrip

end VendorTagOps

/-- A descriptor comes through a parcel as it was exactly if the tags are different and the
names not empty, and of tags that share name and section the greatest comes last. Without the
last only the reverse mapping is another one, and without the rest the parcel is refused. -/
theorem createFromParcel_writeToParcel {β : Type} (int32 : Codec Failure β Word)
    (string8 : Codec Failure β String) {vOps : VendorTagOps} {desc : VendorTagDescriptor}
    (h : createDescriptorFromOps (some vOps) = .ok desc) (rest : List β) :
    ((createFromParcel int32 string8).run (desc.writeToParcel int32 string8 ++ rest) =
        .ok (desc, rest) ↔
      vOps.Sendable ∧ GreatestLast vOps.sectionOf vOps.nameOf vOps.tagArray) ∧
    (vOps.Sendable → ∃ mReverseMapping,
      (createFromParcel int32 string8).run (desc.writeToParcel int32 string8 ++ rest) =
        .ok ({ desc with mReverseMapping }, rest)) ∧
    (¬ vOps.Sendable → ∃ error, (error = .badValue ∨ error = .notEnoughData) ∧
      (createFromParcel int32 string8).run (desc.writeToParcel int32 string8 ++ rest) =
        .error error) := by
  obtain ⟨hcount, hdefines, rfl⟩ := vOps.createDescriptorFromOps_eq_ok_iff.mp h
  by_cases hsendable : vOps.Sendable
  · have hread := VendorTagOps.read_sendable int32 string8 hcount hdefines hsendable rest
    have hgreatest := reverseOf_eq_sorted_iff vOps.sectionOf vOps.nameOf
      (SortedMap.sorted_keys (SortedMap.ofKeys vOps.nameOf vOps.tagArray))
      fun tag => vOps.mem_keys
    refine ⟨?_, fun _ => ⟨_, hread⟩, fun hnot => absurd hsendable hnot⟩
    rw [hread, and_iff_right hsendable, ← hgreatest]
    constructor
    · intro heq
      exact congrArg (fun result => result.1.mReverseMapping) (Except.ok.inj heq)
    · intro heq
      have hkeys : reverseOf vOps.sectionOf vOps.nameOf vOps.keys =
          reverseOf vOps.sectionOf vOps.nameOf vOps.tagArray := heq
      rw [hkeys]
      rfl
  · obtain ⟨error, hkind, hread⟩ :=
      VendorTagOps.read_not_sendable int32 string8 hcount hdefines hsendable rest
    refine ⟨?_, fun hyes => absurd hyes hsendable, fun _ => ⟨error, hkind, hread⟩⟩
    rw [hread]
    exact ⟨fun heq => (by cases heq), fun hboth => absurd hboth.1 hsendable⟩

theorem createFromParcel_writeToParcel_two :
    (createFromParcel Item.int32Codec Item.string8Codec).run
        (twoTags.descriptor.writeToParcel Item.int32Codec Item.string8Codec ++ []) =
      .ok (twoTags.descriptor, []) := by
  have hsendable : twoTags.Sendable :=
    ⟨by decide +kernel, forall_twoTags (by decide +kernel) (by decide +kernel),
      forall_twoTags (by decide +kernel) (by decide +kernel)⟩
  have hgreatest : GreatestLast twoTags.sectionOf twoTags.nameOf twoTags.tagArray :=
    forall_twoTags
      (fun last hlast => by
        have hfirst : (named twoTags.sectionOf twoTags.nameOf "vendor" "contrast"
          twoTags.tagArray).getLast? = some 0x80000001 := by decide +kernel
        exact (Option.some.inj (hlast.symm.trans hfirst)).ge)
      (fun last hlast => by
        have hsecond : (named twoTags.sectionOf twoTags.nameOf "vendor" "sharpness"
          twoTags.tagArray).getLast? = some 0x80000000 := by decide +kernel
        exact (Option.some.inj (hlast.symm.trans hsecond)).ge)
  exact (createFromParcel_writeToParcel Item.int32Codec Item.string8Codec
    createDescriptorFromOps_twoTags []).1.mpr
    ⟨hsendable, hgreatest⟩

/-! ## Parcels of others -/

section Outside

variable {records : List TagRecord} {names : List String}

/-- The section index of a tag is the one given last for it. -/
theorem lookup_sectionIndex_eq_some_iff {tag index : Word} {m : SortedMap Word Word} :
    (records.foldl (fun m record => m.add record.tag record.sectionIndex) m).lookup tag =
        some index ↔
      (∃ before record after, records = before ++ record :: after ∧ record.tag = tag ∧
        record.sectionIndex = index ∧ ∀ later ∈ after, later.tag ≠ tag) ∨
      (∀ record ∈ records, record.tag ≠ tag) ∧ m.lookup tag = some index := by
  induction records generalizing m with
  | nil => simp
  | cons first records ih =>
      rw [List.foldl_cons, ih, SortedMap.lookup_add]
      constructor
      · rintro (⟨before, record, after, rfl, htag, hindex, hlater⟩ | ⟨hnone, hlookup⟩)
        · exact .inl ⟨first :: before, record, after, rfl, htag, hindex, hlater⟩
        · by_cases htag : tag = first.tag
          · rw [if_pos htag] at hlookup
            exact .inl ⟨[], first, records, rfl, htag.symm, Option.some.inj hlookup, hnone⟩
          · rw [if_neg htag] at hlookup
            refine .inr ⟨List.forall_mem_cons.mpr ⟨Ne.symm htag, hnone⟩, hlookup⟩
      · rintro (⟨before, record, after, heq, htag, hindex, hlater⟩ | ⟨hnone, hlookup⟩)
        · cases before with
          | nil =>
              obtain ⟨rfl, rfl⟩ := List.cons.inj heq
              exact .inr ⟨hlater, by rw [if_pos htag.symm, hindex]⟩
          | cons other before =>
              obtain ⟨-, rfl⟩ := List.cons.inj heq
              exact .inl ⟨before, record, after, rfl, htag, hindex, hlater⟩
        · obtain ⟨hfirst, hnone⟩ := List.forall_mem_cons.mp hnone
          exact .inr ⟨hnone, by rw [if_neg (Ne.symm hfirst), hlookup]⟩

theorem exists_last {tag : Word} (h : ∃ record ∈ records, record.tag = tag) :
    ∃ before last after, records = before ++ last :: after ∧ last.tag = tag ∧
      ∀ later ∈ after, later.tag ≠ tag := by
  induction records with
  | nil =>
      obtain ⟨record, hmem, -⟩ := h
      cases hmem
  | cons first records ih =>
      by_cases hrest : ∃ record ∈ records, record.tag = tag
      · obtain ⟨before, last, after, rfl, hlast⟩ := ih hrest
        exact ⟨first :: before, last, after, rfl, hlast⟩
      · obtain ⟨record, hmem, htag⟩ := h
        rcases List.mem_cons.mp hmem with rfl | hin
        · exact ⟨[], record, records, rfl, htag, fun later hlater heq =>
            hrest ⟨later, hlater, heq⟩⟩
        · exact absurd ⟨record, hin, htag⟩ hrest

theorem length_received_sections (tagCount : Int) :
    (received tagCount records names).mSections.keys.length = names.dedup.length := by
  apply List.Perm.length_eq
  apply (List.perm_ext_iff_of_nodup (SortedMap.nodup_keys _) (List.nodup_dedup _)).mpr
  intro name
  rw [List.mem_dedup]
  exact SortedMap.mem_keys_ofKeys _ _

/-- A tag whose last index is not below the number of different names has no section. -/
theorem sectionOf_received_eq_none_iff (before : List TagRecord) {after : List TagRecord}
    {last : TagRecord} (hlast : ∀ later ∈ after, later.tag ≠ last.tag) (tagCount : Int) :
    (received tagCount (before ++ last :: after) names).sectionOf last.tag = none ↔
      names.dedup.length ≤ last.sectionIndex.val := by
  have hlookup : (received tagCount (before ++ last :: after) names).mTagToSectionMap.lookup
      last.tag = some last.sectionIndex :=
    lookup_sectionIndex_eq_some_iff.mpr (.inl ⟨before, last, after, rfl, rfl, rfl, hlast⟩)
  rw [VendorTagDescriptor.sectionOf, hlookup, Option.getD_some, List.getElem?_eq_none_iff,
    length_received_sections]

theorem setUpReverse_eq_outside_iff (tagCount : Int) :
    (received tagCount records names).setUpReverse (records.map TagRecord.tag) =
        .error .outside ↔
      ∃ before last after, records = before ++ last :: after ∧
        (∀ later ∈ after, later.tag ≠ last.tag) ∧
        names.dedup.length ≤ last.sectionIndex.val := by
  rw [setUpReverse_eq]
  constructor
  · intro heq
    have hnot : ¬ ∀ tag ∈ records.map TagRecord.tag,
        ((received tagCount records names).sectionOf tag).isSome := by
      intro hall
      rw [if_pos hall] at heq
      cases heq
    simp only [List.forall_mem_map, not_forall, Option.not_isSome_iff_eq_none] at hnot
    obtain ⟨record, hmem, hnone⟩ := hnot
    obtain ⟨before, last, after, rfl, htag, hlater⟩ := exists_last ⟨record, hmem, rfl⟩
    rw [← htag] at hlater hnone
    exact ⟨before, last, after, rfl, hlater, (sectionOf_received_eq_none_iff _ hlater _).mp hnone⟩
  · rintro ⟨before, last, after, rfl, hlater, hindex⟩
    have hnone := (sectionOf_received_eq_none_iff before hlater tagCount).mpr hindex
    apply if_neg
    intro hall
    have hsome := hall last.tag (List.mem_map_of_mem (by simp))
    rw [hnone] at hsome
    cases hsome

/-- The check of the greatest index is enough where names are different and the sum does not
wrap around. -/
theorem sectionIndex_lt (hnodup : names.Nodup)
    (hindices : ∀ record ∈ records, record.sectionIndex.val + 1 < 2 ^ 32)
    (hle : ((maxSectionIndex records).val + 1) % 2 ^ 32 ≤ names.length) {record : TagRecord}
    (hmem : record ∈ records) : record.sectionIndex.val < names.dedup.length := by
  have hmax : maxSectionIndex records < (2 ^ 32 - 1 : Word) := by
    apply maxSectionIndex_lt
    · decide
    · intro record hmem
      exact Fin.lt_def.mpr (Nat.lt_sub_of_add_lt (hindices record hmem))
  have hrecord : record.sectionIndex ≤ maxSectionIndex records := le_maxSectionIndex hmem
  rw [hnodup.dedup]
  rw [Fin.lt_def] at hmax
  rw [Fin.le_def] at hrecord
  have hbound : ((2 ^ 32 - 1 : Word) : Nat) = 2 ^ 32 - 1 := by decide
  rw [Nat.mod_eq_of_lt (by omega)] at hle
  omega

/-- The check of the section indices does not keep `createFromParcel` inside `mSections`:
the number of sections counts equal names apart, and the greatest index is increased in 32
bits. -/
theorem createFromParcel_outside_iff {β : Type} (int32 : Codec Failure β Word)
    (string8 : Codec Failure β String) (hvalid : ∀ record ∈ records, record.Valid)
    (hnames : ∀ name ∈ names, name ≠ "") (hcount : records.length < 2 ^ 31)
    (hlength : names.length < 2 ^ 32) (hempty : records = [] ↔ names = []) (rest : List β) :
    ((createFromParcel int32 string8).run
        (parcelOf int32 string8 records.length records names ++ rest) = .error .outside ↔
      ((maxSectionIndex records).val + 1) % 2 ^ 32 ≤ names.length ∧
        ∃ before last after, records = before ++ last :: after ∧
          (∀ later ∈ after, later.tag ≠ last.tag) ∧
          names.dedup.length ≤ last.sectionIndex.val) ∧
    (names.Nodup → (∀ record ∈ records, record.sectionIndex.val + 1 < 2 ^ 32) →
      (createFromParcel int32 string8).run
        (parcelOf int32 string8 records.length records names ++ rest) ≠ .error .outside) := by
  have hcheck : ¬ Word.ofInt names.length < maxSectionIndex records + 1 ↔
      ((maxSectionIndex records).val + 1) % 2 ^ 32 ≤ names.length := by
    rw [not_lt, Fin.le_def, Word.val_ofInt hlength, Fin.val_add]
    rfl
  have hiff : (createFromParcel int32 string8).run
      (parcelOf int32 string8 records.length records names ++ rest) = .error .outside ↔
        ((maxSectionIndex records).val + 1) % 2 ^ 32 ≤ names.length ∧
        ∃ before last after, records = before ++ last :: after ∧
          (∀ later ∈ after, later.tag ≠ last.tag) ∧
          names.dedup.length ≤ last.sectionIndex.val := by
    rw [createFromParcel_parcelOf int32 string8 hvalid hnames hcount hlength hempty, ← hcheck]
    by_cases hrefused : records ≠ [] ∧ Word.ofInt names.length < maxSectionIndex records + 1
    · rw [if_pos hrefused]
      exact ⟨fun heq => (by cases heq), fun h => absurd hrefused.2 h.1⟩
    · have hmap : ∀ result : Except Failure VendorTagDescriptor,
          result.map (·, rest) = .error .outside ↔ result = .error .outside := by
        intro result
        cases result <;> simp [Except.map]
      rw [if_neg hrefused, hmap, ← setUpReverse_eq_outside_iff (records.length : Int)]
      refine ⟨fun houtside => ⟨fun hlow => hrefused ⟨?_, hlow⟩, houtside⟩, fun h => h.2⟩
      rintro rfl
      cases houtside
  refine ⟨hiff, fun hnodup hindices houtside => ?_⟩
  obtain ⟨hle, before, last, after, rfl, -, hindex⟩ := hiff.mp houtside
  exact Nat.not_lt.mpr hindex (sectionIndex_lt hnodup hindices hle (by simp))

end Outside

/-- The greatest index wraps around, so that any number of sections is enough. -/
theorem createFromParcel_outside_iff_wrapped :
    (createFromParcel Item.int32Codec Item.string8Codec).run
        (parcelOf Item.int32Codec Item.string8Codec 1
          [⟨0x80000000, 1, "sharpness", 0xFFFFFFFF⟩] ["vendor"] ++ []) = .error .outside := by
  have hvalid : ∀ record ∈ [(⟨0x80000000, 1, "sharpness", 0xFFFFFFFF⟩ : TagRecord)],
      record.Valid := by
    intro record hmem
    obtain rfl := List.mem_singleton.mp hmem
    exact ⟨by decide +kernel, by decide, by decide, by decide⟩
  exact (createFromParcel_outside_iff Item.int32Codec Item.string8Codec hvalid (by decide)
    (by decide) (by decide) (by decide) []).1.mpr
    ⟨by decide +kernel, [], _, [], rfl, by simp, by decide +kernel⟩

end Msm8916.Camera
