import Msm8916.Camera.Parcel
import Msm8916.Lib.SortedMap

/-!
`VendorTagDescriptor.cpp`: the tags that a camera module defines, made into a descriptor.
-/

namespace Msm8916.Camera

/-- `CAMERA_METADATA_VENDOR_TAG_BOUNDARY` of `system/camera_vendor_tags.h`. -/
def vendorTagBoundary : Word := 0x80000000

/-- `NUM_TYPES` of `system/camera_metadata.h`. -/
def numTypes : Int := 6

/-- `vendor_tag_ops_t`, with what `get_all_tags` puts at each index. -/
structure VendorTagOps where
  getTagCount : Int
  getTagCount_lt : getTagCount < 2 ^ 31
  getAllTags : Nat → Word
  getTagName : Word → Option String
  getSectionName : Word → Option String
  getTagType : Word → Int

def VendorTagOps.tagArray (vOps : VendorTagOps) : List Word :=
  (List.range vOps.getTagCount.toNat).map vOps.getAllTags

abbrev ReverseMapping := SortedMap String (SortedMap String Word)

structure VendorTagDescriptor where
  mReverseMapping : ReverseMapping
  mTagToNameMap : SortedMap Word String
  mTagToSectionMap : SortedMap Word Word
  mTagToTypeMap : SortedMap Word Int
  mSections : SortedMap String Unit
  mTagCount : Int

/-- The reverse mapping with one more tag. -/
def ReverseMapping.put (mapping : ReverseMapping) (sectionName name : String) (tag : Word) :
    ReverseMapping :=
  mapping.add sectionName (((mapping.lookup sectionName).getD .empty).add name tag)

/-! ## From the camera module -/

/-- What the first loop of `createDescriptorFromOps` fills. -/
structure Collected where
  mTagToNameMap : SortedMap Word String
  sections : SortedMap String Unit
  tagToSectionMap : SortedMap Word String
  mTagToTypeMap : SortedMap Word Int

def Collected.collect (vOps : VendorTagOps) (collected : Collected) (tag : Word) :
    Except Failure Collected :=
  if tag < vendorTagBoundary then .error .badValue
  else
    match vOps.getTagName tag with
    | none => .error .badValue
    | some tagName =>
        match vOps.getSectionName tag with
        | none => .error .badValue
        | some sectionString =>
            if vOps.getTagType tag < 0 ∨ numTypes ≤ vOps.getTagType tag then .error .badValue
            else
              .ok
                { mTagToNameMap := collected.mTagToNameMap.add tag tagName
                  sections := collected.sections.add sectionString ()
                  tagToSectionMap := collected.tagToSectionMap.add tag sectionString
                  mTagToTypeMap := collected.mTagToTypeMap.add tag (vOps.getTagType tag) }

/-- A turn of the second loop. All keys that it looks up are there. -/
def Collected.place (collected : Collected) (desc : VendorTagDescriptor) (tag : Word) :
    VendorTagDescriptor :=
  let sectionString := (collected.tagToSectionMap.lookup tag).getD ""
  let index := Word.ofInt (collected.sections.keys.idxOf sectionString)
  { desc with
    mTagToSectionMap := desc.mTagToSectionMap.add tag index
    mReverseMapping :=
      desc.mReverseMapping.put sectionString ((desc.mTagToNameMap.lookup tag).getD "") tag }

def createDescriptorFromOps (vOps : Option VendorTagOps) :
    Except Failure VendorTagDescriptor :=
  match vOps with
  | none => .error .badValue
  | some vOps =>
      if vOps.getTagCount < 0 then .error .badValue
      else do
        let collected ←
          vOps.tagArray.foldlM (Collected.collect vOps) ⟨.empty, .empty, .empty, .empty⟩
        let desc : VendorTagDescriptor :=
          { mReverseMapping := .empty
            mTagToNameMap := collected.mTagToNameMap
            mTagToSectionMap := .empty
            mTagToTypeMap := collected.mTagToTypeMap
            mSections := collected.sections
            mTagCount := vOps.getTagCount }
        return vOps.tagArray.foldl collected.place desc

/-! ## What a descriptor answers -/

namespace VendorTagDescriptor

variable (desc : VendorTagDescriptor)

/-- `getTagCount`, which answers `VENDOR_TAG_COUNT_ERR` for no tags. -/
def getTagCount : Int :=
  if desc.mTagToNameMap.keys.length = 0 then -1 else desc.mTagToNameMap.keys.length

/-- The section of a tag: `none` where it reads `mSections` outside. -/
def sectionOf (tag : Word) : Option String :=
  desc.mSections.keys[((desc.mTagToSectionMap.lookup tag).getD 0).val]?

/-- `getSectionName`, with `some none` for `VENDOR_SECTION_NAME_ERR`. -/
def getSectionName (tag : Word) : Option (Option String) :=
  match desc.mTagToSectionMap.lookup tag with
  | none => some none
  | some index => desc.mSections.keys[index.val]?.map some

def getTagName (tag : Word) : Option String := desc.mTagToNameMap.lookup tag

/-- `getTagType`, with `none` for `VENDOR_TAG_TYPE_ERR`. -/
def getTagType (tag : Word) : Option Int :=
  match desc.mTagToNameMap.lookup tag with
  | none => none
  | some _ => desc.mTagToTypeMap.lookup tag

end VendorTagDescriptor

/-! ## What a descriptor is made of -/

section Reverse

variable (sectionOf nameOf : Word → String)

/-- The reverse mapping of tags, of which later ones take the places of earlier ones. -/
def reverseOf (tags : List Word) : ReverseMapping :=
  tags.foldl (fun mapping tag => mapping.put (sectionOf tag) (nameOf tag) tag) .empty

/-- The tags of a section with a name. -/
def named (sectionName name : String) (tags : List Word) : List Word :=
  tags.filter fun tag => sectionOf tag = sectionName ∧ nameOf tag = name

def ReverseMapping.tag (mapping : ReverseMapping) (sectionName name : String) : Option Word :=
  (mapping.lookup sectionName).bind fun names => names.lookup name

theorem ReverseMapping.tag_put (mapping : ReverseMapping)
    (sectionName name other otherName : String) (tag : Word) :
    (mapping.put sectionName name tag).tag other otherName =
      if other = sectionName ∧ otherName = name then some tag else mapping.tag other otherName := by
  rw [ReverseMapping.tag, ReverseMapping.put, SortedMap.lookup_add, ReverseMapping.tag]
  by_cases hsection : other = sectionName
  · subst hsection
    rw [if_pos rfl, Option.bind_some, SortedMap.lookup_add]
    by_cases hname : otherName = name
    · rw [if_pos hname, if_pos ⟨rfl, hname⟩]
    · rw [if_neg hname, if_neg fun h => hname h.2]
      cases mapping.lookup other with
      | none => rfl
      | some names => rfl
  · rw [if_neg hsection, if_neg fun h => hsection h.1]

theorem tag_foldl_put (tags : List Word) (mapping : ReverseMapping) (sectionName name : String) :
    (tags.foldl (fun mapping tag => mapping.put (sectionOf tag) (nameOf tag) tag) mapping).tag
        sectionName name =
      (named sectionOf nameOf sectionName name tags).getLast?.or
        (mapping.tag sectionName name) := by
  induction tags generalizing mapping with
  | nil => rfl
  | cons tag tags ih =>
      rw [List.foldl_cons, ih, ReverseMapping.tag_put, named, named, List.filter_cons]
      by_cases h : sectionOf tag = sectionName ∧ nameOf tag = name
      · rw [if_pos ⟨h.1.symm, h.2.symm⟩, if_pos (by simpa using h), List.getLast?_cons]
        cases (tags.filter fun tag => sectionOf tag = sectionName ∧ nameOf tag = name).getLast? <;>
          rfl
      · rw [if_neg fun heq => h ⟨heq.1.symm, heq.2.symm⟩, if_neg (by simpa using h)]

theorem tag_reverseOf (tags : List Word) (sectionName name : String) :
    (reverseOf sectionOf nameOf tags).tag sectionName name =
      (named sectionOf nameOf sectionName name tags).getLast? := by
  have hnone : ReverseMapping.tag .empty sectionName name = none := rfl
  rw [reverseOf, tag_foldl_put, hnone, Option.or_none]

theorem isSome_lookup_foldl_put (tags : List Word) (mapping : ReverseMapping)
    (sectionName : String) :
    ((tags.foldl (fun mapping tag => mapping.put (sectionOf tag) (nameOf tag) tag) mapping).lookup
        sectionName).isSome ↔
      (∃ tag ∈ tags, sectionOf tag = sectionName) ∨ (mapping.lookup sectionName).isSome := by
  induction tags generalizing mapping with
  | nil => simp
  | cons tag tags ih =>
      rw [List.foldl_cons, ih, ReverseMapping.put, SortedMap.lookup_add, List.exists_mem_cons_iff]
      by_cases h : sectionName = sectionOf tag
      · simp [h]
      · rw [if_neg h, or_assoc, or_left_comm, or_iff_right (Ne.symm h)]

theorem isSome_lookup_reverseOf (tags : List Word) (sectionName : String) :
    ((reverseOf sectionOf nameOf tags).lookup sectionName).isSome ↔
      ∃ tag ∈ tags, sectionOf tag = sectionName := by
  rw [reverseOf, isSome_lookup_foldl_put]
  simp [SortedMap.lookup, SortedMap.empty, SortedMap.find]

/-- Reverse mappings with the same sections and tags are the same. -/
theorem ReverseMapping.ext_tag {mapping other : ReverseMapping}
    (hsections : ∀ sectionName, (mapping.lookup sectionName).isSome ↔
      (other.lookup sectionName).isSome)
    (htags : ∀ sectionName name, mapping.tag sectionName name = other.tag sectionName name) :
    mapping = other := by
  apply SortedMap.ext_lookup
  intro sectionName
  have hsection := hsections sectionName
  have htag := htags sectionName
  simp only [ReverseMapping.tag] at htag
  cases hfirst : mapping.lookup sectionName with
  | none =>
      rw [hfirst] at hsection
      exact (Option.not_isSome_iff_eq_none.mp (mt hsection.mpr (by simp))).symm
  | some names =>
      rw [hfirst] at hsection htag
      obtain ⟨others, hothers⟩ := Option.isSome_iff_exists.mp (hsection.mp rfl)
      rw [hothers] at htag ⊢
      exact congrArg some (SortedMap.ext_lookup htag)

theorem mem_named {tag : Word} {tags : List Word} {sectionName name : String} :
    tag ∈ named sectionOf nameOf sectionName name tags ↔
      tag ∈ tags ∧ sectionOf tag = sectionName ∧ nameOf tag = name := by
  rw [named, List.mem_filter, decide_eq_true_iff]

/-- Of the tags that share section and name, the greatest comes last. -/
def GreatestLast (tags : List Word) : Prop :=
  ∀ tag ∈ tags, ∀ last ∈ (named sectionOf nameOf (sectionOf tag) (nameOf tag) tags).getLast?,
    tag ≤ last

/-- The order of the keys makes the same reverse mapping exactly if the greatest of the tags
with a name comes last. -/
theorem reverseOf_eq_sorted_iff {tags sorted : List Word} (hsorted : sorted.Pairwise (· < ·))
    (hmem : ∀ tag, tag ∈ sorted ↔ tag ∈ tags) :
    reverseOf sectionOf nameOf sorted = reverseOf sectionOf nameOf tags ↔
      GreatestLast sectionOf nameOf tags := by
  have hgreatest : ∀ sectionName name last,
      (named sectionOf nameOf sectionName name sorted).getLast? = some last ↔
        last ∈ named sectionOf nameOf sectionName name tags ∧
          ∀ tag ∈ named sectionOf nameOf sectionName name tags, tag ≤ last := by
    intro sectionName name last
    have hnamed : (named sectionOf nameOf sectionName name sorted).Pairwise (· < ·) :=
      hsorted.filter _
    rw [SortedMap.getLast?_eq_some_iff hnamed]
    simp only [mem_named, hmem]
  constructor
  · intro heq tag htag last hlast
    have htags := congrArg (ReverseMapping.tag · (sectionOf tag) (nameOf tag)) heq
    simp only [tag_reverseOf] at htags
    rw [Option.mem_def, ← htags, hgreatest] at hlast
    exact hlast.2 tag ((mem_named _ _).mpr ⟨htag, rfl, rfl⟩)
  · intro h
    apply ReverseMapping.ext_tag
    · intro sectionName
      simp only [isSome_lookup_reverseOf, hmem]
    · intro sectionName name
      rw [tag_reverseOf, tag_reverseOf]
      cases hlast : (named sectionOf nameOf sectionName name tags).getLast? with
      | none =>
          rw [List.getLast?_eq_none_iff] at hlast ⊢
          apply List.eq_nil_iff_forall_not_mem.mpr
          intro tag htag
          rw [mem_named, hmem, ← mem_named, hlast] at htag
          cases htag
      | some last =>
          apply (hgreatest _ _ _).mpr
          refine ⟨List.mem_of_getLast? hlast, fun tag htag => ?_⟩
          obtain ⟨hin, rfl, rfl⟩ := (mem_named _ _).mp htag
          exact h tag hin last hlast

end Reverse

/-- A loop whose turns fail with one error if they do. -/
theorem foldlM_eq_ite {σ α ε : Type} {turn : σ → α → Except ε σ} {next : σ → α → σ}
    {p : α → Prop} [DecidablePred p] {error : ε}
    (hturn : ∀ state a, turn state a = if p a then .ok (next state a) else .error error)
    (items : List α) (state : σ) :
    items.foldlM turn state =
      if ∀ a ∈ items, p a then .ok (items.foldl next state) else .error error := by
  induction items generalizing state with
  | nil => simp [pure, Except.pure]
  | cons a items ih =>
      rw [List.foldlM_cons, hturn, List.foldl_cons]
      by_cases h : p a
      · have hforall : (∀ b ∈ a :: items, p b) ↔ ∀ b ∈ items, p b := by
          rw [List.forall_mem_cons, and_iff_right h]
        rw [if_pos h, if_congr hforall rfl rfl, ← ih]
        rfl
      · rw [if_neg h, if_neg fun hall => h (hall a List.mem_cons_self)]
        rfl

namespace VendorTagOps

variable (vOps : VendorTagOps)

def nameOf (tag : Word) : String := (vOps.getTagName tag).getD ""

def sectionOf (tag : Word) : String := (vOps.getSectionName tag).getD ""

/-- The camera module defines the tag as it should. -/
def Defines (tag : Word) : Prop :=
  vendorTagBoundary ≤ tag ∧ (vOps.getTagName tag).isSome ∧ (vOps.getSectionName tag).isSome ∧
    0 ≤ vOps.getTagType tag ∧ vOps.getTagType tag < numTypes

instance (tag : Word) : Decidable (vOps.Defines tag) :=
  inferInstanceAs (Decidable (_ ∧ _ ∧ _ ∧ _ ∧ _))

def sections : SortedMap String Unit := .ofKeys (fun _ => ()) (vOps.tagArray.map vOps.sectionOf)

def sectionIndex (tag : Word) : Word := .ofInt (vOps.sections.keys.idxOf (vOps.sectionOf tag))

/-- The descriptor of the tags that the camera module defines. -/
def descriptor : VendorTagDescriptor where
  mReverseMapping := reverseOf vOps.sectionOf vOps.nameOf vOps.tagArray
  mTagToNameMap := .ofKeys vOps.nameOf vOps.tagArray
  mTagToSectionMap := .ofKeys vOps.sectionIndex vOps.tagArray
  mTagToTypeMap := .ofKeys vOps.getTagType vOps.tagArray
  mSections := vOps.sections
  mTagCount := vOps.getTagCount

/-- A turn of the first loop that does not fail. -/
def gather (collected : Collected) (tag : Word) : Collected where
  mTagToNameMap := collected.mTagToNameMap.add tag (vOps.nameOf tag)
  sections := collected.sections.add (vOps.sectionOf tag) ()
  tagToSectionMap := collected.tagToSectionMap.add tag (vOps.sectionOf tag)
  mTagToTypeMap := collected.mTagToTypeMap.add tag (vOps.getTagType tag)

theorem collect_eq (collected : Collected) (tag : Word) :
    Collected.collect vOps collected tag =
      if vOps.Defines tag then .ok (vOps.gather collected tag) else .error .badValue := by
  rw [Collected.collect]
  by_cases hboundary : tag < vendorTagBoundary
  · rw [if_pos hboundary, if_neg fun h => absurd hboundary (not_lt.mpr h.1)]
  rw [if_neg hboundary]
  cases hname : vOps.getTagName tag with
  | none => simp [Defines, hname]
  | some tagName =>
      cases hsection : vOps.getSectionName tag with
      | none => simp [Defines, hsection]
      | some sectionString =>
          simp only [Defines, hname, hsection, gather, nameOf, sectionOf, Option.getD_some]
          by_cases htype : vOps.getTagType tag < 0 ∨ numTypes ≤ vOps.getTagType tag
          · rw [if_pos htype, if_neg]
            rintro ⟨-, -, -, hlow, hhigh⟩
            omega
          · rw [if_neg htype, if_pos]
            exact ⟨not_lt.mp hboundary, rfl, rfl, by omega, by omega⟩

theorem foldl_gather (tags : List Word) (collected : Collected) :
    tags.foldl vOps.gather collected =
      { mTagToNameMap :=
          tags.foldl (fun m tag => m.add tag (vOps.nameOf tag)) collected.mTagToNameMap
        sections :=
          (tags.map vOps.sectionOf).foldl (fun m sectionName => m.add sectionName ())
            collected.sections
        tagToSectionMap :=
          tags.foldl (fun m tag => m.add tag (vOps.sectionOf tag)) collected.tagToSectionMap
        mTagToTypeMap :=
          tags.foldl (fun m tag => m.add tag (vOps.getTagType tag)) collected.mTagToTypeMap } := by
  induction tags generalizing collected with
  | nil => rfl
  | cons tag tags ih => rw [List.foldl_cons, ih]; rfl

theorem foldl_place (collected : Collected) (tags : List Word) (desc : VendorTagDescriptor) :
    tags.foldl collected.place desc =
      { desc with
        mTagToSectionMap := tags.foldl (fun m tag => m.add tag
          (.ofInt (collected.sections.keys.idxOf ((collected.tagToSectionMap.lookup tag).getD ""))))
          desc.mTagToSectionMap
        mReverseMapping := tags.foldl (fun mapping tag => mapping.put
          ((collected.tagToSectionMap.lookup tag).getD "")
          ((desc.mTagToNameMap.lookup tag).getD "") tag) desc.mReverseMapping } := by
  induction tags generalizing desc with
  | nil => rfl
  | cons tag tags ih => rw [List.foldl_cons, ih]; rfl

/-- What the two loops make of tags. -/
theorem place_gather :
    vOps.tagArray.foldl
        (vOps.tagArray.foldl vOps.gather ⟨.empty, .empty, .empty, .empty⟩).place
        { mReverseMapping := .empty
          mTagToNameMap := (vOps.tagArray.foldl vOps.gather
            ⟨.empty, .empty, .empty, .empty⟩).mTagToNameMap
          mTagToSectionMap := .empty
          mTagToTypeMap := (vOps.tagArray.foldl vOps.gather
            ⟨.empty, .empty, .empty, .empty⟩).mTagToTypeMap
          mSections := (vOps.tagArray.foldl vOps.gather ⟨.empty, .empty, .empty, .empty⟩).sections
          mTagCount := vOps.getTagCount } =
      vOps.descriptor := by
  have hsection : ∀ tag ∈ vOps.tagArray,
      ((SortedMap.ofKeys vOps.sectionOf vOps.tagArray).lookup tag).getD "" = vOps.sectionOf tag :=
    fun tag hmem => by rw [SortedMap.lookup_ofKeys, if_pos hmem, Option.getD_some]
  have hname : ∀ tag ∈ vOps.tagArray,
      ((SortedMap.ofKeys vOps.nameOf vOps.tagArray).lookup tag).getD "" = vOps.nameOf tag :=
    fun tag hmem => by rw [SortedMap.lookup_ofKeys, if_pos hmem, Option.getD_some]
  rw [foldl_place, foldl_gather, descriptor]
  congr 1
  · apply List.foldl_ext
    intro mapping tag hmem
    exact congrArg₂ (mapping.put · · tag) (hsection tag hmem) (hname tag hmem)
  · apply List.foldl_ext
    intro m tag hmem
    have hindex := hsection tag hmem
    rw [SortedMap.ofKeys] at hindex
    rw [hindex]
    rfl

/-- `createDescriptorFromOps` succeeds exactly for tags that are all defined. -/
theorem createDescriptorFromOps_eq_ok_iff {desc : VendorTagDescriptor} :
    createDescriptorFromOps (some vOps) = .ok desc ↔
      0 ≤ vOps.getTagCount ∧ (∀ tag ∈ vOps.tagArray, vOps.Defines tag) ∧
        vOps.descriptor = desc := by
  rw [createDescriptorFromOps]
  by_cases hcount : vOps.getTagCount < 0
  · rw [if_pos hcount]
    exact ⟨fun heq => (by cases heq), fun h => absurd hcount (not_lt.mpr h.1)⟩
  rw [if_neg hcount, and_iff_right (not_lt.mp hcount)]
  rw [foldlM_eq_ite vOps.collect_eq]
  by_cases hdefines : ∀ tag ∈ vOps.tagArray, vOps.Defines tag
  · rw [if_pos hdefines, and_iff_right hdefines, ← vOps.place_gather]
    exact ⟨Except.ok.inj, congrArg Except.ok⟩
  · rw [if_neg hdefines]
    exact ⟨fun heq => (by cases heq), fun h => absurd h.1 hdefines⟩

theorem length_tagArray : vOps.tagArray.length = vOps.getTagCount.toNat := by
  rw [tagArray, List.length_map, List.length_range]

theorem length_tagArray_lt : vOps.tagArray.length < 2 ^ 31 := by
  have hlt := vOps.getTagCount_lt
  rw [length_tagArray]
  omega

theorem length_sections_lt : vOps.sections.keys.length < 2 ^ 31 := by
  have hle := (SortedMap.length_keys_ofKeys_le (fun _ => ()) (vOps.tagArray.map vOps.sectionOf)).1
  rw [List.length_map] at hle
  exact Nat.lt_of_le_of_lt hle vOps.length_tagArray_lt

theorem mem_sections {sectionName : String} :
    sectionName ∈ vOps.sections.keys ↔ ∃ tag ∈ vOps.tagArray, vOps.sectionOf tag = sectionName := by
  rw [sections, SortedMap.mem_keys_ofKeys, List.mem_map]

variable {vOps}

theorem sectionIndex_spec {tag : Word} (h : tag ∈ vOps.tagArray) :
    (vOps.sectionIndex tag).val < vOps.sections.keys.length ∧
      vOps.sections.keys[(vOps.sectionIndex tag).val]? = some (vOps.sectionOf tag) := by
  have hmem : vOps.sectionOf tag ∈ vOps.sections.keys := vOps.mem_sections.mpr ⟨tag, h, rfl⟩
  have hlt := List.idxOf_lt_length_of_mem hmem
  have hval : (vOps.sectionIndex tag).val = vOps.sections.keys.idxOf (vOps.sectionOf tag) := by
    have := vOps.length_sections_lt
    exact Word.val_ofInt (by omega)
  rw [hval]
  exact ⟨hlt, by rw [List.getElem?_eq_getElem hlt, List.getElem_idxOf hlt]⟩

/-! ## The answers of the descriptor -/

end VendorTagOps

/-- Two tags of a section, which the module gives in another order than the maps have. -/
def twoTags : VendorTagOps where
  getTagCount := 2
  getTagCount_lt := by decide
  getAllTags i := if i = 0 then 0x80000001 else 0x80000000
  getTagName tag := some (if tag = 0x80000000 then "sharpness" else "contrast")
  getSectionName _ := some "vendor"
  getTagType _ := 1

theorem forall_twoTags {p : Word → Prop} (hfirst : p 0x80000001) (hsecond : p 0x80000000) :
    ∀ tag ∈ twoTags.tagArray, p tag := by
  have htags : twoTags.tagArray = [0x80000001, 0x80000000] := by decide +kernel
  rw [htags]
  simp [hfirst, hsecond]

theorem createDescriptorFromOps_twoTags :
    createDescriptorFromOps (some twoTags) = .ok twoTags.descriptor :=
  twoTags.createDescriptorFromOps_eq_ok_iff.mpr
    ⟨by decide, forall_twoTags (by decide +kernel) (by decide +kernel), rfl⟩

end Msm8916.Camera
