import Msm8916.Recovery.Search
import Mathlib.Data.List.TakeWhile

/-!
`verify_trustzone` of `recovery/recovery_updater.cpp`. The TZ partition is a parameter,
and so is edify's `Evaluate`. A run has an undefined outcome when the code would use
what it has not been given or not written.
-/

namespace Msm8916.Recovery

open Word

/-! ## The version of the TZ image -/

/-- `TZ_VER_STR`. -/
def tzVerStr : List Byte :=
  ['Q', 'C', '_', 'I', 'M', 'A', 'G', 'E', '_', 'V', 'E', 'R', 'S', 'I', 'O', 'N', '_',
    'S', 'T', 'R', 'I', 'N', 'G', '='].map fun c => UInt8.ofNat c.toNat

/-- `TZ_SZ`. -/
def tzSz : Nat := 500 * 1024

/-- `TZ_VER_BUF_LEN`. -/
def tzVerBufLen : Nat := 255

def enoent : Int := 2

/-- The `errno` of a call that failed. -/
abbrev Errno := { errno : Int // 0 < errno }

/-- What `open` and `mmap` make of the TZ partition. -/
inductive TzPartition where
  | openFails (errno : Errno)
  | mmapFails (errno : Errno)
  | mapped (data : List Byte) (size : data.length = tzSz)

/-- `strncpy` from the memory `src`, which has no value when it would read past its end. -/
def strncpy (src : List Byte) (len : Nat) : Option (List Byte) :=
  let chars := src.takeWhile (· ≠ 0)
  if len ≤ chars.length then some (chars.take len)
  else if chars.length < src.length then
    some (chars ++ List.replicate (len - chars.length) 0)
  else none

/-- `get_tz_version`: the characters it writes to `ver_str`, or the error it returns. -/
def getTzVersion (tz : TzPartition) (len : Nat) : Option (Except Int (List Byte)) :=
  match tz with
  | .openFails errno | .mmapFails errno => some (.error errno)
  | .mapped data _ =>
      (bmSearch data tzVerStr).bind fun
        | none => some (.error (-enoent))
        | some offset =>
            (strncpy (data.drop (offset.toNat + tzVerStr.length)) len).map .ok

/-! ## The arguments -/

/-- A string value of edify, without its terminating character. -/
abbrev CStr := { s : List Byte // ∀ c ∈ s, c ≠ 0 }

/-- What a call does that others see. -/
inductive Event where
  | readArgs (count pointers : Nat)
  | evaluate (index : Nat) (value : Option CStr)
  | uiPrint (tz_version current_tz_version : List Byte)

inductive CauseCode where
  | vendorFailure
  | argsParsingFailure
deriving DecidableEq

inductive Outcome where
  | value (text : String)
  | abort (cause : CauseCode) (message : String)
  | undefined
deriving DecidableEq

structure Run (σ : Type*) where
  state : σ
  trace : List Event
  outcome : Outcome

section Calls

variable {σ Expr : Type*} (evaluate : σ → Expr → σ × Option CStr)

/-- `ReadArgs` with this many pointers, from the argument `index` on and with `left` of
`count` to go: the arguments are evaluated one after the other, and each value is stored
through the next pointer. -/
def readArgs (argv : List Expr) (pointers : Nat) :
    (left index : Nat) → σ → σ × List Event × Option (Except Int (List CStr))
  | 0, _, state => (state, [], some (.ok []))
  | left + 1, index, state =>
      match argv[index]? with
      | none => (state, [], none)
      | some arg =>
          match evaluate state arg with
          | (state, none) => (state, [.evaluate index none], some (.error (-1)))
          | (state, some value) =>
              if index < pointers then
                let (state, trace, values) := readArgs argv pointers left (index + 1) state
                (state, .evaluate index (some value) :: trace, values.map (·.map (value :: ·)))
              else (state, [.evaluate index (some value)], none)

/-- `strncmp(s, t, n) == 0`. -/
def strncmpIsZero : (s t : List Byte) → (n : Nat) → Option Bool
  | _, _, 0 => some true
  | c :: s, d :: t, n + 1 =>
      if c ≠ d then some false else if c = 0 then some true else strncmpIsZero s t n
  | _, _, _ + 1 => none

/-- The string in a buffer, if it is terminated. -/
def cString (buf : List Byte) : Option (List Byte) :=
  if 0 ∈ buf then some (buf.takeWhile (· ≠ 0)) else none

/-- The loop of `VerifyTrustZoneFn` with `left` rounds to go. -/
def verifyFrom (name : String) (argv : List Expr) (current_tz_version : List Byte) :
    (left i : Nat) → σ → Run σ
  | 0, _, state => ⟨state, [], .value "0"⟩
  | left + 1, i, state =>
      let (state, trace, values) := readArgs evaluate argv 1 i 0 state
      let trace := .readArgs i 1 :: trace
      match values with
      | some (.error ret) =>
          ⟨state, trace,
            .abort .argsParsingFailure (name ++ "() error parsing arguments: " ++ toString ret)⟩
      | some (.ok [tz_version]) =>
          match cString current_tz_version with
          | none => ⟨state, trace, .undefined⟩
          | some version =>
              let trace := trace ++ [.uiPrint tz_version.1 version]
              match strncmpIsZero (tz_version.1 ++ [0]) current_tz_version tz_version.1.length with
              | none => ⟨state, trace, .undefined⟩
              | some true => ⟨state, trace, .value "1"⟩
              | some false =>
                  let rest := verifyFrom name argv current_tz_version left (i + 1) state
                  ⟨rest.state, trace ++ rest.trace, rest.outcome⟩
      | _ => ⟨state, trace, .undefined⟩

/-- `VerifyTrustZoneFn`. -/
def verifyTrustZoneFn (name : String) (argv : List Expr) (tz : TzPartition) (state : σ) :
    Run σ :=
  match getTzVersion tz tzVerBufLen with
  | none => ⟨state, [], .undefined⟩
  | some (.error ret) =>
      ⟨state, [],
        .abort .vendorFailure
          (name ++ "() failed to read current TZ version: " ++ toString ret)⟩
  | some (.ok current_tz_version) =>
      verifyFrom evaluate name argv current_tz_version argv.length 1 state

end Calls

/-! ## What is asked of it -/

/-- The memory after the version's name in the TZ image. -/
def TzPartition.Follows (tz : TzPartition) (rest : List Byte) : Prop :=
  ∃ data size k, tz = .mapped data size ∧ Finds data tzVerStr (some k) ∧
    rest = data.drop (k + tzVerStr.length)

/-- The version string at the beginning of the memory. -/
def versionAt (rest : List Byte) : List Byte := rest.takeWhile (· ≠ 0)

/-- The indices of the arguments that were evaluated, in this order. -/
def evaluated (trace : List Event) : List Nat :=
  trace.filterMap fun
    | .evaluate index _ => some index
    | .readArgs .. | .uiPrint .. => none

/-- The result is "1" exactly if an evaluated argument is a prefix of the version, no
argument is evaluated twice or out of order, and `ReadArgs` gets its pointers. -/
structure LooksAtEvery (tz : TzPartition) {σ : Type*} (run : Run σ) : Prop where
  defined : run.outcome ≠ .undefined
  result : run.outcome = .value "1" ↔
    ∃ rest index value, tz.Follows rest ∧ Event.evaluate index (some value) ∈ run.trace ∧
      value.1 <+: versionAt rest
  ordered : (evaluated run.trace).Pairwise (· < ·)
  pointers : ∀ count pointers, Event.readArgs count pointers ∈ run.trace → pointers = count

/-- When the code does what is asked of it: the version, where there is one, ends or fills
the buffer before the end of the memory; and where the first argument has a value, the
version fits in the buffer and that argument is a prefix of it or the only one. -/
def FirstDecides {σ Expr : Type*} (evaluate : σ → Expr → σ × Option CStr) (argv : List Expr)
    (tz : TzPartition) (state : σ) : Prop :=
  ∀ rest, tz.Follows rest →
    ((versionAt rest).length < rest.length ∨ tzVerBufLen ≤ (versionAt rest).length) ∧
      ∀ arg args value, argv = arg :: args → (evaluate state arg).2 = some value →
        (versionAt rest).length < tzVerBufLen ∧ (args = [] ∨ value.1 <+: versionAt rest)

/-! ## The version -/

theorem finds_unique {text pat : List Byte} {k l : Nat} (hk : Finds text pat (some k))
    (hl : Finds text pat (some l)) : k = l := by
  rcases Nat.lt_trichotomy k l with hlt | heq | hgt
  · exact absurd hk.1 (hl.2 k hlt)
  · exact heq
  · exact absurd hl.1 (hk.2 l hgt)

theorem TzPartition.Follows.unique {tz : TzPartition} {rest other : List Byte}
    (h : tz.Follows rest) (hother : tz.Follows other) : rest = other := by
  obtain ⟨data, size, k, rfl, hk, rfl⟩ := h
  obtain ⟨data', size', l, heq, hl, rfl⟩ := hother
  cases heq
  rw [finds_unique hk hl]

theorem correct_tzVerStr {data : List Byte} (size : data.length = tzSz) :
    Correct data tzVerStr := by
  have hlast : ∀ k < tzVerStr.length - 1, tzVerStr[k]? ≠ tzVerStr[tzVerStr.length - 1]? := by
    decide +kernel
  have hnul : ∀ c ∈ tzVerStr, c ≠ 0 := by decide +kernel
  apply correct_of_not_overshoots
  · decide
  · exact hnul
  · decide
  · rw [size]
    decide
  · rintro ⟨j, hj, q, hq, ⟨hjq, ⟨-, -, hperiod, -⟩, -⟩, -⟩
    exact not_period_of_last (by omega) hq hlast hperiod

/-- `get_tz_version` fails, or it copies what follows the name of the version. -/
theorem getTzVersion_cases (tz : TzPartition) (len : Nat) :
    (∃ ret, getTzVersion tz len = some (.error ret) ∧ ∀ rest, ¬ tz.Follows rest) ∨
      ∃ rest, tz.Follows rest ∧ getTzVersion tz len = (strncpy rest len).map .ok := by
  cases tz with
  | openFails errno | mmapFails errno =>
      refine .inl ⟨errno, rfl, ?_⟩
      rintro rest ⟨data, size, k, htz, -⟩
      cases htz
  | mapped data size =>
      obtain ⟨answer, hanswer, hfinds⟩ := correct_tzVerStr size
      cases answer with
      | none =>
          refine .inl ⟨-enoent, by simp [getTzVersion, hanswer], ?_⟩
          rintro rest ⟨data', size', k, htz, hk, -⟩
          cases htz
          exact hfinds k hk.1
      | some k =>
          refine .inr ⟨data.drop (k + tzVerStr.length), ⟨data, size, k, rfl, hfinds, rfl⟩, ?_⟩
          simp [getTzVersion, hanswer]

theorem versionAt_ne_zero {rest : List Byte} {c : Byte} (h : c ∈ versionAt rest) : c ≠ 0 := by
  simpa using List.mem_takeWhile_imp h

theorem strncpy_of_long {rest : List Byte} {len : Nat} (h : len ≤ (versionAt rest).length) :
    strncpy rest len = some ((versionAt rest).take len) := if_pos h

theorem strncpy_of_short {rest : List Byte} {len : Nat} (hlen : (versionAt rest).length < len)
    (hends : (versionAt rest).length < rest.length) :
    strncpy rest len =
      some (versionAt rest ++ List.replicate (len - (versionAt rest).length) 0) :=
  (if_neg (not_le.mpr hlen)).trans (if_pos hends)

theorem strncpy_of_endless {rest : List Byte} {len : Nat} (hlen : (versionAt rest).length < len)
    (hends : rest.length ≤ (versionAt rest).length) : strncpy rest len = none :=
  (if_neg (not_le.mpr hlen)).trans (if_neg (not_lt.mpr hends))

theorem cString_of_full {chars : List Byte} (h : ∀ c ∈ chars, c ≠ 0) : cString chars = none :=
  if_neg fun hzero => h 0 hzero rfl

theorem cString_of_padded {chars : List Byte} (h : ∀ c ∈ chars, c ≠ 0) {n : Nat} (hn : 0 < n) :
    cString (chars ++ List.replicate n 0) = some chars := by
  have hmem : (0 : Byte) ∈ chars ++ List.replicate n 0 :=
    List.mem_append_right _ (List.mem_replicate.mpr ⟨by omega, rfl⟩)
  rw [cString, if_pos hmem]
  congr 1
  obtain ⟨n, rfl⟩ : ∃ k, n = k + 1 := ⟨n - 1, by omega⟩
  rw [List.replicate_succ, List.takeWhile_append_of_pos (by simpa using h)]
  simp

/-- Comparing as many characters as the string has tells whether it is a prefix. -/
theorem strncmpIsZero_eq {s : List Byte} (hs : ∀ c ∈ s, c ≠ 0) (tail : List Byte)
    (chars : List Byte) {n : Nat} (hn : 0 < n) :
    strncmpIsZero (s ++ tail) (chars ++ List.replicate n 0) s.length =
      some (decide (s <+: chars)) := by
  induction s generalizing chars with
  | nil => simp [strncmpIsZero]
  | cons c s ih =>
      have hc : c ≠ 0 := hs c List.mem_cons_self
      have hrest : ∀ d ∈ s, d ≠ 0 := fun d hd => hs d (List.mem_cons_of_mem c hd)
      cases chars with
      | nil =>
          obtain ⟨n, rfl⟩ : ∃ k, n = k + 1 := ⟨n - 1, by omega⟩
          simp [List.replicate_succ, strncmpIsZero, hc]
      | cons d chars =>
          rw [List.cons_append, List.cons_append, List.length_cons, strncmpIsZero]
          by_cases heq : c = d
          · subst heq
            rw [if_neg (not_not.mpr rfl), if_neg hc, ih hrest chars]
            simp
          · rw [if_pos heq]
            simp [List.cons_prefix_cons, heq]

theorem getTzVersion_of_follows {tz : TzPartition} {rest : List Byte} (h : tz.Follows rest)
    (len : Nat) : getTzVersion tz len = (strncpy rest len).map .ok := by
  rcases getTzVersion_cases tz len with ⟨_, _, hnone⟩ | ⟨other, hother, hcopy⟩
  · exact absurd h (hnone rest)
  · rw [hcopy, h.unique hother]

/-! ## The rounds -/

section Calls

variable {σ Expr : Type*} {evaluate : σ → Expr → σ × Option CStr} {name : String}

theorem verifyTrustZoneFn_of_version {argv : List Expr} {tz : TzPartition} {state : σ}
    {current_tz_version : List Byte}
    (h : getTzVersion tz tzVerBufLen = some (.ok current_tz_version)) :
    verifyTrustZoneFn evaluate name argv tz state =
      verifyFrom evaluate name argv current_tz_version argv.length 1 state := by
  rw [verifyTrustZoneFn, h]

/-- Every round calls `ReadArgs` with its number and one pointer. -/
theorem readArgs_mem_verifyFrom (evaluate : σ → Expr → σ × Option CStr) (name : String)
    (argv : List Expr) (buf : List Byte) (left i : Nat) (state : σ) :
    Event.readArgs i 1 ∈ (verifyFrom evaluate name argv buf (left + 1) i state).trace := by
  unfold verifyFrom
  dsimp only
  split
  · exact List.mem_cons_self
  · split
    · exact List.mem_cons_self
    · split
      · exact List.mem_cons_self
      · exact List.mem_cons_self
      · exact List.mem_cons_self
  · exact List.mem_cons_self

theorem verifyFrom_of_failed {arg : Expr} {args : List Expr} {state next : σ}
    (h : evaluate state arg = (next, none)) (buf : List Byte) (left : Nat) :
    verifyFrom evaluate name (arg :: args) buf (left + 1) 1 state =
      ⟨next, [.readArgs 1 1, .evaluate 0 none], .abort .argsParsingFailure
        (name ++ "() error parsing arguments: " ++ toString (-1 : Int))⟩ := by
  simp [verifyFrom, readArgs, h]

theorem verifyFrom_of_unterminated {arg : Expr} {args : List Expr} {state next : σ}
    {value : CStr} (h : evaluate state arg = (next, some value)) {buf : List Byte}
    (hbuf : cString buf = none) (left : Nat) :
    (verifyFrom evaluate name (arg :: args) buf (left + 1) 1 state).outcome = .undefined := by
  simp [verifyFrom, readArgs, Except.map, h, hbuf]

/-- The first round with a version that fits in the buffer. -/
theorem verifyFrom_of_version {arg : Expr} {args : List Expr} {state next : σ} {value : CStr}
    (h : evaluate state arg = (next, some value)) {chars : List Byte}
    (hchars : ∀ c ∈ chars, c ≠ 0) {n : Nat} (hn : 0 < n) (left : Nat) :
    verifyFrom evaluate name (arg :: args) (chars ++ List.replicate n 0) (left + 1) 1 state =
      if value.1 <+: chars then
        ⟨next, [.readArgs 1 1, .evaluate 0 (some value), .uiPrint value.1 chars], .value "1"⟩
      else
        let rest := verifyFrom evaluate name (arg :: args) (chars ++ List.replicate n 0) left 2 next
        ⟨rest.state,
          [.readArgs 1 1, .evaluate 0 (some value), .uiPrint value.1 chars] ++ rest.trace,
          rest.outcome⟩ := by
  have hequal := strncmpIsZero_eq value.2 [0] chars hn
  by_cases hprefix : value.1 <+: chars
  · rw [decide_eq_true hprefix] at hequal
    simp [verifyFrom, readArgs, Except.map, h, cString_of_padded hchars hn, hequal, hprefix]
  · rw [decide_eq_false hprefix] at hequal
    rw [if_neg hprefix]
    simp [verifyFrom, readArgs, Except.map, h, cString_of_padded hchars hn, hequal]

/-- Without an argument the result is "0". -/
theorem looksAtEvery_nil (tz : TzPartition) (buf : List Byte) (state : σ) :
    LooksAtEvery tz (verifyFrom evaluate name [] buf 0 1 state) where
  defined := nofun
  result := iff_of_false (by simp [verifyFrom]) (by simp [verifyFrom])
  ordered := List.Pairwise.nil
  pointers := by simp [verifyFrom]

/-- The first argument has no value. -/
theorem looksAtEvery_of_failed (tz : TzPartition) {arg : Expr} {args : List Expr} {state : σ}
    (h : (evaluate state arg).2 = none) (buf : List Byte) (left : Nat) :
    LooksAtEvery tz (verifyFrom evaluate name (arg :: args) buf (left + 1) 1 state) := by
  rw [verifyFrom_of_failed (Prod.ext rfl h : evaluate state arg = ((evaluate state arg).1, none))]
  constructor
  · exact nofun
  · exact iff_of_false nofun (by simp)
  · exact List.pairwise_singleton _ _
  · simp

theorem looksAtEvery_long {tz : TzPartition} {rest : List Byte} {len : Nat} (argv : List Expr)
    (state : σ) :
    LooksAtEvery tz
        (verifyFrom evaluate name argv ((versionAt rest).take len) argv.length 1 state) ↔
      ∀ arg args value, argv = arg :: args → (evaluate state arg).2 ≠ some value := by
  cases argv with
  | nil => exact iff_of_true (looksAtEvery_nil tz _ state) nofun
  | cons arg args =>
      cases hvalue : (evaluate state arg).2 with
      | none =>
          refine iff_of_true (looksAtEvery_of_failed tz hvalue _ _) ?_
          rintro arg' args' value ⟨⟩ hsome
          cases hvalue.symm.trans hsome
      | some value =>
          have hfull : cString ((versionAt rest).take len) = none :=
            cString_of_full fun c hc => versionAt_ne_zero (List.mem_of_mem_take hc)
          have heval : evaluate state arg = ((evaluate state arg).1, some value) :=
            Prod.ext rfl hvalue
          refine iff_of_false (fun h => h.defined ?_) fun h => h arg args value rfl hvalue
          exact verifyFrom_of_unterminated heval hfull args.length

theorem looksAtEvery_short {tz : TzPartition} {rest : List Byte} (hfollows : tz.Follows rest)
    {n : Nat} (hn : 0 < n) (argv : List Expr) (state : σ) :
    LooksAtEvery tz (verifyFrom evaluate name argv (versionAt rest ++ List.replicate n 0)
        argv.length 1 state) ↔
      ∀ arg args value, argv = arg :: args → (evaluate state arg).2 = some value →
        args = [] ∨ value.1 <+: versionAt rest := by
  cases argv with
  | nil => exact iff_of_true (looksAtEvery_nil tz _ state) nofun
  | cons arg args =>
      cases hvalue : (evaluate state arg).2 with
      | none =>
          refine iff_of_true (looksAtEvery_of_failed tz hvalue _ _) ?_
          rintro arg' args' value ⟨⟩ hsome
          cases hvalue.symm.trans hsome
      | some value =>
          have heval : evaluate state arg = ((evaluate state arg).1, some value) :=
            Prod.ext rfl hvalue
          have hcond : (∀ arg' args' value', arg :: args = arg' :: args' →
              (evaluate state arg').2 = some value' → args' = [] ∨ value'.1 <+: versionAt rest) ↔
                args = [] ∨ value.1 <+: versionAt rest := by
            constructor
            · exact fun h => h arg args value rfl hvalue
            · rintro h arg' args' value' ⟨⟩ hsome
              obtain rfl := Option.some.inj (hvalue.symm.trans hsome)
              exact h
          rw [hcond, List.length_cons,
            verifyFrom_of_version heval (fun c hc => versionAt_ne_zero hc) hn]
          by_cases hprefix : value.1 <+: versionAt rest
          · rw [if_pos hprefix]
            refine iff_of_true ⟨nofun, iff_of_true rfl ?_, List.pairwise_singleton _ _, by simp⟩
              (.inr hprefix)
            exact ⟨rest, 0, value, hfollows, by simp, hprefix⟩
          · rw [if_neg hprefix, or_iff_left hprefix]
            cases args with
            | nil =>
                refine iff_of_true ⟨nofun, iff_of_false (by simp [verifyFrom]) ?_,
                  by simp [verifyFrom, evaluated], by simp [verifyFrom]⟩ rfl
                rintro ⟨other, index, value', hother, hmem, hprefix'⟩
                obtain ⟨-, rfl⟩ : index = 0 ∧ value' = value := by simpa [verifyFrom] using hmem
                exact hprefix (hfollows.unique hother ▸ hprefix')
            | cons second args =>
                -- the second round asks for two values with one pointer
                refine iff_of_false (fun h => ?_) nofun
                have hcall := readArgs_mem_verifyFrom evaluate name (arg :: second :: args)
                  (versionAt rest ++ List.replicate n 0) args.length 2 (evaluate state arg).1
                cases h.pointers 2 1 (List.mem_append_right _ hcall)

/-- Every argument is looked at if and only if the first one decides. -/
theorem verify_trustzone_iff (evaluate : σ → Expr → σ × Option CStr) (name : String)
    (argv : List Expr) (tz : TzPartition) (state : σ) :
    LooksAtEvery tz (verifyTrustZoneFn evaluate name argv tz state) ↔
      FirstDecides evaluate argv tz state := by
  unfold verifyTrustZoneFn
  rcases getTzVersion_cases tz tzVerBufLen with ⟨ret, hret, hnone⟩ | ⟨rest, hfollows, hcopy⟩
  · rw [hret]
    refine iff_of_true ⟨nofun, iff_of_false nofun (by simp), List.Pairwise.nil, by simp⟩ ?_
    exact fun rest hfollows => absurd hfollows (hnone rest)
  · have hcond : FirstDecides evaluate argv tz state ↔
        ((versionAt rest).length < rest.length ∨ tzVerBufLen ≤ (versionAt rest).length) ∧
          ∀ arg args value, argv = arg :: args → (evaluate state arg).2 = some value →
            (versionAt rest).length < tzVerBufLen ∧ (args = [] ∨ value.1 <+: versionAt rest) := by
      refine ⟨fun h => h rest hfollows, fun h other hother => ?_⟩
      obtain rfl := hfollows.unique hother
      exact h
    rw [hcopy, hcond]
    rcases Nat.lt_or_ge (versionAt rest).length tzVerBufLen with hshort | hlong
    · rcases Nat.lt_or_ge (versionAt rest).length rest.length with hends | hendless
      · rw [strncpy_of_short hshort hends]
        refine (looksAtEvery_short hfollows (by omega) argv state).trans ?_
        simp only [hends, hshort, true_or, true_and]
      · rw [strncpy_of_endless hshort hendless]
        exact iff_of_false (fun h => h.defined rfl) (by omega)
    · rw [strncpy_of_long hlong]
      refine (looksAtEvery_long argv state).trans ?_
      simp only [hlong, not_lt.mpr hlong, or_true, true_and, false_and, ne_eq, imp_false]

end Calls

/-- An image that begins with its version, "2". -/
def imageOfTwo : TzPartition :=
  .mapped (tzVerStr ++ 50 :: List.replicate (tzSz - 25) 0) (by
    rw [List.length_append, List.length_cons, List.length_replicate]
    rfl)

theorem follows_imageOfTwo : imageOfTwo.Follows (50 :: List.replicate (tzSz - 25) 0) := by
  refine ⟨_, _, 0, rfl, ⟨fun t ht => ?_, nofun⟩, ?_⟩
  · rw [Nat.zero_add, List.getElem?_append_left ht]
  · rw [Nat.zero_add, List.drop_left]

def one : CStr := ⟨[49], by simp⟩
def two : CStr := ⟨[50], by simp⟩

/-- Of the two versions of a release the second is on the device. -/
theorem second_version_not_found :
    ¬ ∀ (argv : List CStr) (tz : TzPartition),
      LooksAtEvery tz (verifyTrustZoneFn (fun state value => (state, some value))
        "asus.verify_trustzone" argv tz ()) := by
  intro hall
  have hversion : versionAt (50 :: List.replicate (tzSz - 25) 0) = [50] := by
    simp [versionAt]
  have hshort : (versionAt (50 :: List.replicate (tzSz - 25) 0)).length < tzVerBufLen := by
    rw [hversion]
    decide
  have hends : (versionAt (50 :: List.replicate (tzSz - 25) 0)).length <
      (50 :: List.replicate (tzSz - 25) (0 : Byte)).length := by
    have hsize : 0 < tzSz - 25 := by decide
    rw [hversion, List.length_singleton, List.length_cons, List.length_replicate]
    exact Nat.succ_lt_succ hsize
  have hcopy := (getTzVersion_of_follows follows_imageOfTwo tzVerBufLen).trans
    (congrArg (Option.map Except.ok) (strncpy_of_short hshort hends))
  have hbefore := hall [one, two] imageOfTwo
  rw [verifyTrustZoneFn_of_version hcopy] at hbefore
  have hdecides := (looksAtEvery_short follows_imageOfTwo (by rw [hversion]; decide) _ _).mp hbefore
  rcases hdecides one [two] one rfl rfl with hnil | hprefix
  · cases hnil
  · rw [hversion] at hprefix
    revert hprefix
    decide

end Msm8916.Recovery

