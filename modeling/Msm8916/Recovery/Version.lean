import Msm8916.Recovery.TrustZone

/-!
What `get_tz_version` makes of the content of the TZ image. The tables of the search never
lose the tag that is shipped, whatever they do for other patterns.
-/

namespace Msm8916.Recovery

open Word

/-- The characters that follow an occurrence of the tag, up to the first NUL or `len` of
them, and the NULs that `strncpy` fills up with. -/
def versionChars (data : List Byte) (k len : Nat) : List Byte :=
  let chars := (versionAt (data.drop (k + tzVerStr.length))).take len
  chars ++ List.replicate (len - chars.length) 0

/-- A memory that has `len` characters is copied without reading past its end. -/
theorem strncpy_of_room {src : List Byte} {len : Nat} (h : len ≤ src.length) :
    strncpy src len =
      some ((versionAt src).take len ++
        List.replicate (len - ((versionAt src).take len).length) 0) := by
  rcases Nat.lt_or_ge (versionAt src).length len with hshort | hlong
  · rw [strncpy_of_short hshort (Nat.lt_of_lt_of_le hshort h),
      List.take_of_length_le (Nat.le_of_lt hshort)]
  · rw [strncpy_of_long hlong, List.length_take, Nat.min_eq_left hlong, Nat.sub_self,
      List.replicate_zero, List.append_nil]

section Image

variable {data : List Byte} (size : data.length = tzSz)

theorem getTzVersion_of_finds {k : Nat} (h : Finds data tzVerStr (some k)) (len : Nat) :
    getTzVersion (.mapped data size) len =
      (strncpy (data.drop (k + tzVerStr.length)) len).map .ok :=
  getTzVersion_of_follows ⟨data, size, k, rfl, h, rfl⟩ len

theorem getTzVersion_of_not_occurs (h : ∀ k, ¬ OccursAt data tzVerStr k) (len : Nat) :
    getTzVersion (.mapped data size) len = some (.error (-enoent)) := by
  obtain ⟨answer, hanswer, hfinds⟩ := correct_tzVerStr size
  cases answer with
  | none => simp [getTzVersion, hanswer]
  | some k => exact absurd hfinds.1 (h k)

/-- Of the occurrences there is a first one. -/
theorem exists_finds (size : data.length = tzSz) {k : Nat} (h : OccursAt data tzVerStr k) :
    ∃ first, Finds data tzVerStr (some first) := by
  obtain ⟨answer, -, hfinds⟩ := correct_tzVerStr size
  cases answer with
  | none => exact absurd h (hfinds k)
  | some first => exact ⟨first, hfinds⟩

end Image

/-- For every image in which `TZ_VER_BUF_LEN` bytes follow the tag wherever it stands, the
version is read exactly if the tag is there, and it is what follows its first occurrence. -/
theorem tz_version_read (data : List Byte) (size : data.length = tzSz)
    (hroom : ∀ k, OccursAt data tzVerStr k →
      k + tzVerStr.length + tzVerBufLen ≤ data.length)
    (len : Nat) (hlen : len ≤ tzVerBufLen) :
    ((∃ ver_str, getTzVersion (.mapped data size) len = some (.ok ver_str)) ↔
        ∃ k, OccursAt data tzVerStr k) ∧
      (∀ k, Finds data tzVerStr (some k) →
        getTzVersion (.mapped data size) len = some (.ok (versionChars data k len))) ∧
      ((∀ k, ¬ OccursAt data tzVerStr k) →
        getTzVersion (.mapped data size) len = some (.error (-enoent))) := by
  have hcopied : ∀ k, Finds data tzVerStr (some k) →
      getTzVersion (.mapped data size) len = some (.ok (versionChars data k len)) := by
    intro k hfinds
    have hrest : len ≤ (data.drop (k + tzVerStr.length)).length := by
      have hafter := hroom k hfinds.1
      rw [List.length_drop]
      omega
    rw [getTzVersion_of_finds size hfinds, strncpy_of_room hrest]
    rfl
  refine ⟨?_, hcopied, fun hnone => getTzVersion_of_not_occurs size hnone len⟩
  constructor
  · rintro ⟨ver_str, hread⟩
    by_contra hnone
    rw [getTzVersion_of_not_occurs size (not_exists.mp hnone) len] at hread
    cases hread
  · rintro ⟨k, hoccurs⟩
    obtain ⟨first, hfinds⟩ := exists_finds size hoccurs
    exact ⟨_, hcopied first hfinds⟩

/-- The tag begins with a letter that is nowhere else in the image. -/
theorem occursAt_imageOfTwo {k : Nat}
    (h : OccursAt (tzVerStr ++ 50 :: List.replicate (tzSz - 25) 0) tzVerStr k) : k = 0 := by
  have hfirst : (tzVerStr ++ 50 :: List.replicate (tzSz - 25) 0)[k]? = some 81 := h 0 (by decide)
  rcases Nat.lt_or_ge k tzVerStr.length with hbefore | hafter
  · rw [List.getElem?_append_left hbefore] at hfirst
    have honly : ∀ k < tzVerStr.length, tzVerStr[k]? = some 81 → k = 0 := by decide
    exact honly k hbefore hfirst
  · rw [List.getElem?_append_right hafter] at hfirst
    have hmem := List.mem_of_getElem? hfirst
    rcases List.mem_cons.mp hmem with hcons | hzeros
    · cases hcons
    · cases List.eq_of_mem_replicate hzeros

theorem tz_version_read_two :
    ((∃ ver_str, getTzVersion imageOfTwo tzVerBufLen = some (.ok ver_str)) ↔
        ∃ k, OccursAt (tzVerStr ++ 50 :: List.replicate (tzSz - 25) 0) tzVerStr k) ∧
      (∀ k, Finds (tzVerStr ++ 50 :: List.replicate (tzSz - 25) 0) tzVerStr (some k) →
        getTzVersion imageOfTwo tzVerBufLen = some (.ok (versionChars
          (tzVerStr ++ 50 :: List.replicate (tzSz - 25) 0) k tzVerBufLen))) ∧
      ((∀ k, ¬ OccursAt (tzVerStr ++ 50 :: List.replicate (tzSz - 25) 0) tzVerStr k) →
        getTzVersion imageOfTwo tzVerBufLen = some (.error (-enoent))) := by
  have hlength : (tzVerStr ++ 50 :: List.replicate (tzSz - 25) 0).length = tzSz := by
    rw [List.length_append, List.length_cons, List.length_replicate]
    rfl
  have hroom : ∀ k, OccursAt (tzVerStr ++ 50 :: List.replicate (tzSz - 25) 0) tzVerStr k →
      k + tzVerStr.length + tzVerBufLen ≤
        (tzVerStr ++ 50 :: List.replicate (tzSz - 25) 0).length := by
    intro k h
    rw [occursAt_imageOfTwo h, hlength]
    decide
  exact tz_version_read _ hlength hroom tzVerBufLen (Nat.le_refl _)

end Msm8916.Recovery
