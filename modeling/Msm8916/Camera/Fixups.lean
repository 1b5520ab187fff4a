import Msm8916.Camera.Parameters

/-!
Printing the parameters and reading them again, and what the two fixups of the camera
wrapper change.
-/

namespace Msm8916.Camera

open CString

namespace Parameters

theorem flattenEntries_cons_cons (entry second : String × String)
    (entries : List (String × String)) :
    flattenEntries (entry :: second :: entries) =
      entry.1.toList ++ '=' :: (entry.2.toList ++ ';' :: flattenEntries (second :: entries)) := rfl

theorem length_flattenEntries_cons (entry : String × String) (entries : List (String × String)) :
    (flattenEntries entries).length < (flattenEntries (entry :: entries)).length := by
  cases entries with
  | nil =>
      simp only [flattenEntries, List.length_append, List.length_cons, List.length_nil]
      omega
  | cons second entries =>
      simp only [flattenEntries_cons_cons, List.length_append, List.length_cons]
      omega

end Parameters

open Parameters

/-! ## Texts of pairs -/

/-- The pairs of a text, for a number of rounds. -/
def textPairs : Nat → List Char → List (String × String)
  | 0, _ => []
  | rounds + 1, a =>
      match strchr '=' a with
      | none => []
      | some (key, a) =>
          match strchr ';' a with
          | none => [(String.ofList key, String.ofList a)]
          | some (value, a) =>
              (String.ofList key, String.ofList value) :: textPairs rounds a

/-- No key holds the character that ends a key, and no value the one that ends a value. -/
def CleanPairs (pairs : List (String × String)) : Prop :=
  ∀ pair ∈ pairs, '=' ∉ pair.1.toList ∧ ';' ∉ pair.2.toList

theorem CleanPairs.add {pairs more : List (String × String)} {key value : String}
    (h : CleanPairs pairs) (hkey : '=' ∉ key.toList) (hvalue : ';' ∉ value.toList)
    (hmore : ∀ pair ∈ more, pair = (key, value) ∨ pair ∈ pairs) : CleanPairs more := by
  intro pair hpair
  rcases hmore pair hpair with rfl | hmem
  · exact ⟨hkey, hvalue⟩
  · exact h pair hmem

/-- What is read from a text is clean. -/
theorem cleanPairs_textPairs (rounds : Nat) (a : List Char) : CleanPairs (textPairs rounds a) := by
  induction rounds generalizing a with
  | zero => exact List.forall_mem_nil _
  | succ rounds ih =>
      rw [textPairs]
      split
      · exact List.forall_mem_nil _
      · rename_i key rest hkey
        obtain ⟨_, hclean⟩ := strchr_eq_some hkey
        split
        · rename_i hvalue
          refine List.forall_mem_singleton.mpr ⟨?_, ?_⟩
          · simpa using hclean
          · simpa using strchr_eq_none hvalue
        · rename_i value rest' hvalue
          obtain ⟨_, hfree⟩ := strchr_eq_some hvalue
          refine List.forall_mem_cons.mpr ⟨⟨?_, ?_⟩, ih rest'⟩
          · simpa using hclean
          · simpa using hfree

/-- The pairs of a printed text are those that were printed. -/
theorem textPairs_flattenEntries {pairs : List (String × String)} (hclean : CleanPairs pairs)
    {rounds : Nat} (hrounds : (flattenEntries pairs).length ≤ rounds) :
    textPairs rounds (flattenEntries pairs) = pairs := by
  induction pairs generalizing rounds with
  | nil =>
      cases rounds with
      | zero => rfl
      | succ rounds => rfl
  | cons pair pairs ih =>
      obtain ⟨⟨hkey, hvalue⟩, hrest⟩ := List.forall_mem_cons.mp hclean
      have hless := length_flattenEntries_cons pair pairs
      obtain ⟨rounds, rfl⟩ : ∃ n, rounds = n + 1 := ⟨rounds - 1, by omega⟩
      cases pairs with
      | nil =>
          rw [flattenEntries, textPairs, strchr_append hkey]
          dsimp only
          rw [strchr_of_not_mem hvalue]
          dsimp only
          rw [String.ofList_toList, String.ofList_toList]
      | cons second pairs =>
          rw [flattenEntries_cons_cons, textPairs, strchr_append hkey]
          dsimp only
          rw [strchr_append hvalue]
          dsimp only
          rw [String.ofList_toList, String.ofList_toList, ih hrest (by omega)]

/-! ## Reading -/

namespace Parameters

/-- Reading adds the pairs of the text one after the other. -/
theorem unflattenFrom_eq (rounds : Nat) (a : List Char) (params : Parameters) :
    unflattenFrom rounds a params =
      (textPairs rounds a).foldl (fun params pair => params.add pair.1 pair.2) params := by
  induction rounds generalizing a params with
  | zero => rfl
  | succ rounds ih =>
      rw [unflattenFrom, textPairs]
      cases strchr '=' a with
      | none => rfl
      | some parts =>
          dsimp only
          cases strchr ';' parts.2 with
          | none => rfl
          | some values => exact ih values.2 _

/-- The keys and values of the parameters are clean. -/
def Clean (params : Parameters) : Prop := CleanPairs params.entries

theorem Clean.add {params : Parameters} {key value : String} (h : Clean params)
    (hkey : '=' ∉ key.toList) (hvalue : ';' ∉ value.toList) : Clean (params.add key value) :=
  CleanPairs.add h hkey hvalue fun _ hpair => SortedMap.mem_insert hpair

theorem Clean.remove {params : Parameters} (h : Clean params) (key : String) :
    Clean (params.remove key) :=
  fun entry hentry => h entry (List.mem_of_mem_filter hentry)

theorem Clean.set {params : Parameters} (h : Clean params) (key value : String) :
    Clean (set params key value) := by
  unfold Parameters.set
  split
  · exact h
  · rename_i hkey
    split
    · exact h
    · rename_i hvalue
      exact h.add (fun hmem => hkey (.inl hmem)) fun hmem => hvalue (.inr hmem)

theorem unflatten_clean (settings : String) : Clean (unflatten settings) := by
  have hadded : ∀ (pairs : List (String × String)) (params : Parameters), CleanPairs pairs →
      Clean params → Clean (pairs.foldl (fun params pair => params.add pair.1 pair.2) params) := by
    intro pairs
    induction pairs with
    | nil => exact fun params _ h => h
    | cons pair pairs ih =>
        intro params hpairs h
        obtain ⟨⟨hkey, hvalue⟩, hrest⟩ := List.forall_mem_cons.mp hpairs
        exact ih _ hrest (h.add hkey hvalue)
  rw [unflatten, unflattenFrom_eq]
  exact hadded _ _ (cleanPairs_textPairs _ _) nofun

/-- Printing clean parameters and reading them again gives the same parameters. -/
theorem unflatten_flatten {params : Parameters} (h : Clean params) :
    unflatten (flatten params) = params := by
  rw [unflatten, flatten, String.toList_ofList, unflattenFrom_eq,
    textPairs_flattenEntries h (Nat.le_refl _)]
  exact params.foldl_add_entries

example : (unflatten "b=1;;a=2=3;b=4").entries = [(";a", "2=3"), ("b", "4")] := by decide

/-! ## The operations -/

theorem get_eq_some {params : Parameters} {key value : String} (hvalue : value ≠ "") :
    get params key = some value ↔ params.lookup key = some value := by
  rw [get, Option.filter_eq_some_iff]
  simp [hvalue]

/-- Whether a text can be set as a key or as a value. -/
def Plain (text : String) : Prop := '=' ∉ text.toList ∧ ';' ∉ text.toList

instance (text : String) : Decidable (Plain text) := inferInstanceAs (Decidable (_ ∧ _))

theorem lookup_set {key : String} (hkey : Plain key) (params : Parameters) (value other : String) :
    (set params key value).lookup other =
      if other = key ∧ Plain value then some value else params.lookup other := by
  have hrefused : ¬ ('=' ∈ key.toList ∨ ';' ∈ key.toList) := not_or.mpr hkey
  rw [set, if_neg hrefused]
  by_cases hvalue : '=' ∈ value.toList ∨ ';' ∈ value.toList
  · have hnot : ¬ Plain value := fun hplain => (not_or.mpr hplain) hvalue
    rw [if_pos hvalue, if_neg fun h => hnot h.2]
  · have hplain : Plain value := not_or.mp hvalue
    rw [if_neg hvalue, SortedMap.lookup_add]
    simp only [hplain, and_true]

end Parameters

/-! ## The fixups -/

/-- The text of `camera_fixup_setparams`, read again. -/
theorem unflatten_fixedText (settings : String) :
    unflatten (fixedText cameraParameters settings) =
      if (unflatten settings).lookup keySceneMode = some sceneModeHdr then
        (unflatten settings).remove keyQcHdrNeed1x
      else unflatten settings := by
  have hclean := unflatten_clean settings
  have hhdr : get (unflatten settings) keySceneMode = some sceneModeHdr ↔
      (unflatten settings).lookup keySceneMode = some sceneModeHdr := get_eq_some (by decide)
  change unflatten (flatten (if get (unflatten settings) keySceneMode = some sceneModeHdr then
    (unflatten settings).remove keyQcHdrNeed1x else unflatten settings)) = _
  by_cases hscene : (unflatten settings).lookup keySceneMode = some sceneModeHdr
  · rw [if_pos (hhdr.mpr hscene), if_pos hscene]
    exact unflatten_flatten (hclean.remove keyQcHdrNeed1x)
  · rw [if_neg fun h => hscene (hhdr.mp h), if_neg hscene]
    exact unflatten_flatten hclean

/-- The key of the focus position for a type of it. -/
def focusKey : Option String → Option String
  | some "2" => some keyQcFocusPositionScale
  | some "3" => some keyQcFocusPositionDiopter
  | _ => none

/-- The manual focus position that is set under this key. -/
def focusValue (params : Parameters) : String :=
  (get params keyQcManualFocusPosition).getD "0"

/-- What `camera_fixup_getparams` has under a key: two keys are removed, the scene modes are
set, and one key of the focus position is, unless the position cannot be set. -/
def reported (params : Parameters) (key : String) : Option String :=
  if key = keyQcLongshotSupported ∨ key = keyAutoWhitebalanceLockSupported then none
  else if key = keySupportedSceneModes then some "auto,hdr"
  else if focusKey (params.lookup keyQcManualFocusPosType) = some key ∧
      Plain (focusValue params) then
    some (focusValue params)
  else params.lookup key

/-- The parameters before the focus position is looked at. -/
def withSceneModes (params : Parameters) : Parameters :=
  set ((params.remove keyQcLongshotSupported).remove keyAutoWhitebalanceLockSupported)
    keySupportedSceneModes "auto,hdr"

theorem lookup_withSceneModes (params : Parameters) (key : String) :
    (withSceneModes params).lookup key =
      if key = keyQcLongshotSupported ∨ key = keyAutoWhitebalanceLockSupported then none
      else if key = keySupportedSceneModes then some "auto,hdr"
      else params.lookup key := by
  have hplain : Plain "auto,hdr" := by decide
  rw [withSceneModes, lookup_set (by decide), SortedMap.lookup_remove, SortedMap.lookup_remove]
  by_cases hmodes : key = keySupportedSceneModes
  · subst hmodes
    rw [if_pos ⟨rfl, hplain⟩, if_neg (by decide), if_pos rfl]
  · rw [if_neg fun h => hmodes h.1, if_neg hmodes]
    by_cases hlock : key = keyAutoWhitebalanceLockSupported
    · rw [if_pos hlock, if_pos (.inr hlock)]
    · by_cases hlongshot : key = keyQcLongshotSupported
      · rw [if_neg hlock, if_pos hlongshot, if_pos (.inl hlongshot)]
      · rw [if_neg hlock, if_neg hlongshot, if_neg (not_or.mpr ⟨hlongshot, hlock⟩)]

/-- The parameters with the focus position of a type. -/
def withFocus (params : Parameters) (type : Option String) (value : String) : Parameters :=
  match focusKey type with
  | none => params
  | some key => set params key value

/-- An empty type is no type, and has no key. -/
theorem withFocus_eq (params : Parameters) (type : Option String) (value : String) :
    withFocus params type value =
      match type.filter (· ≠ "") with
      | none => params
      | some type =>
          if type = "2" then set params keyQcFocusPositionScale value
          else if type = "3" then set params keyQcFocusPositionDiopter value
          else params := by
  rw [withFocus]
  cases type with
  | none => rfl
  | some type =>
      by_cases hscale : type = "2"
      · subst hscale
        rfl
      · by_cases hdiopter : type = "3"
        · subst hdiopter
          rfl
        · have hother : focusKey (some type) = none := by
            unfold focusKey
            split
            · exact absurd (Option.some.inj ‹_›) hscale
            · exact absurd (Option.some.inj ‹_›) hdiopter
            · rfl
          rw [hother]
          by_cases hempty : type = ""
          · subst hempty
            rfl
          · have hsome : (some type).filter (· ≠ "") = some type := by simp [hempty]
            rw [hsome]
            dsimp only
            rw [if_neg hscale, if_neg hdiopter]

/-- The focus position is that of the settings: the keys it is read from are not changed. -/
theorem fixupGetparams_eq (params : Parameters) :
    fixupGetparams params =
      withFocus (withSceneModes params) (params.lookup keyQcManualFocusPosType)
        (focusValue params) := by
  have hkept : ∀ key, key = keyQcManualFocusPosType ∨ key = keyQcManualFocusPosition →
      (withSceneModes params).lookup key = params.lookup key := by
    rintro key (rfl | rfl)
    · rw [lookup_withSceneModes, if_neg (by decide), if_neg (by decide)]
    · rw [lookup_withSceneModes, if_neg (by decide), if_neg (by decide)]
  have hvalue : focusValue params = focusValue (withSceneModes params) := by
    rw [focusValue, focusValue, Parameters.get, Parameters.get, hkept _ (.inr rfl)]
  rw [← hkept _ (.inl rfl), hvalue, withFocus_eq]
  rfl

theorem eq_of_focusKey {type : Option String} {key : String} (h : focusKey type = some key) :
    key = keyQcFocusPositionScale ∨ key = keyQcFocusPositionDiopter := by
  unfold focusKey at h
  split at h
  · exact .inl (Option.some.inj h).symm
  · exact .inr (Option.some.inj h).symm
  · cases h

theorem lookup_fixupGetparams (params : Parameters) (key : String) :
    (fixupGetparams params).lookup key = reported params key := by
  rw [fixupGetparams_eq, withFocus, reported]
  cases hkey : focusKey (params.lookup keyQcManualFocusPosType) with
  | none =>
      dsimp only
      rw [lookup_withSceneModes, if_neg (c := none = some key ∧ _) fun h => nomatch h.1]
  | some focus =>
      dsimp only
      have hnamed := eq_of_focusKey hkey
      have hplain : Plain focus := by
        rcases hnamed with rfl | rfl
        · decide
        · decide
      rw [lookup_set hplain, lookup_withSceneModes]
      by_cases hset : key = focus ∧ Plain (focusValue params)
      · obtain ⟨rfl, hvalue⟩ := hset
        have hremoved : ¬ (key = keyQcLongshotSupported ∨
            key = keyAutoWhitebalanceLockSupported) := by
          rcases hnamed with rfl | rfl
          · decide
          · decide
        have hmodes : key ≠ keySupportedSceneModes := by
          rcases hnamed with rfl | rfl
          · decide
          · decide
        rw [if_pos ⟨rfl, hvalue⟩, if_neg hremoved, if_neg hmodes, if_pos ⟨rfl, hvalue⟩]
      · have hkept : ¬ (some focus = some key ∧ Plain (focusValue params)) :=
          fun h => hset ⟨(Option.some.inj h.1).symm, h.2⟩
        rw [if_neg hset, if_neg hkept]

/-- The keys `camera_fixup_getparams` removes or sets. -/
def namedKeys : List String :=
  [keyQcLongshotSupported, keyAutoWhitebalanceLockSupported, keySupportedSceneModes,
    keyQcFocusPositionScale, keyQcFocusPositionDiopter]

theorem reported_of_not_named {params : Parameters} {key : String} (h : key ∉ namedKeys) :
    reported params key = params.lookup key := by
  simp only [namedKeys, List.mem_cons, List.not_mem_nil, or_false, not_or] at h
  obtain ⟨hlongshot, hlock, hmodes, hscale, hdiopter⟩ := h
  have hfocus : focusKey (params.lookup keyQcManualFocusPosType) ≠ some key := by
    intro hkey
    rcases eq_of_focusKey hkey with hnamed | hnamed
    · exact hscale hnamed
    · exact hdiopter hnamed
  rw [reported, if_neg (not_or.mpr ⟨hlongshot, hlock⟩), if_neg hmodes, if_neg fun h => hfocus h.1]

theorem Parameters.Clean.fixupGetparams {params : Parameters} (h : Clean params) :
    Clean (fixupGetparams params) := by
  have hmodes : Clean (withSceneModes params) :=
    ((h.remove keyQcLongshotSupported).remove keyAutoWhitebalanceLockSupported).set _ _
  rw [fixupGetparams_eq, withFocus]
  split
  · exact hmodes
  · exact hmodes.set _ _

/-- The fixups change nothing but the keys they name, whatever the settings: reading the text
for the vendor's camera gives the settings without one key in the scene mode for high dynamic
range, and reading the text for the application gives the settings but for the named keys. -/
theorem fixups_keep_other_keys (settings : String) :
    unflatten (fixedText cameraParameters settings) =
        (if (unflatten settings).lookup keySceneMode = some sceneModeHdr then
          (unflatten settings).remove keyQcHdrNeed1x
        else unflatten settings) ∧
      (∀ key, (unflatten (cameraFixupGetparams settings)).lookup key =
        reported (unflatten settings) key) ∧
      ∀ key, key ∉ namedKeys →
        (unflatten (cameraFixupGetparams settings)).lookup key =
          (unflatten settings).lookup key := by
  have hclean : Clean (fixupGetparams (unflatten settings)) :=
    (unflatten_clean settings).fixupGetparams
  have hlookup : ∀ key, (unflatten (cameraFixupGetparams settings)).lookup key =
      reported (unflatten settings) key := by
    intro key
    rw [cameraFixupGetparams, unflatten_flatten hclean]
    exact lookup_fixupGetparams (unflatten settings) key
  refine ⟨unflatten_fixedText settings, hlookup, fun key hkey => ?_⟩
  rw [hlookup key]
  exact reported_of_not_named hkey

end Msm8916.Camera
