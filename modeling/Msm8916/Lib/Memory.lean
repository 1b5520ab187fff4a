import Mathlib.Data.List.OfFn
import Mathlib.Tactic.Ring

/-!
Memory as a function of the address, relative to the start of a buffer, and a
buffer of which only the first bytes have been written. What is computed from such
a buffer is determined by the bytes written if it is the same whatever the buffer
held before.
-/

namespace Msm8916.Memory

variable {β γ : Type*}

/-- The memory after the bytes are written from the address on. -/
def store (mem : Nat → β) (off : Nat) (bytes : List β) : Nat → β := fun i =>
  if off ≤ i then (bytes[i - off]?).getD (mem i) else mem i

/-- The `n` bytes from the address on. -/
def window (mem : Nat → β) (off n : Nat) : List β := List.ofFn fun i : Fin n => mem (off + i)

@[simp]
theorem length_window (mem : Nat → β) (off n : Nat) : (window mem off n).length = n :=
  List.length_ofFn

theorem getElem?_window (mem : Nat → β) (off n i : Nat) :
    (window mem off n)[i]? = if i < n then some (mem (off + i)) else none := by
  rw [window, List.getElem?_ofFn]
  split <;> rfl

theorem store_outside {mem : Nat → β} {off i : Nat} {bytes : List β}
    (h : i < off ∨ off + bytes.length ≤ i) : store mem off bytes i = mem i := by
  rw [store]
  split
  · have hbeyond : bytes.length ≤ i - off := by omega
    rw [List.getElem?_eq_none hbeyond, Option.getD_none]
  · rfl

theorem store_inside {mem : Nat → β} {off i : Nat} {bytes : List β} {byte : β}
    (h : bytes[i]? = some byte) : store mem off bytes (off + i) = byte := by
  rw [store, if_pos (Nat.le_add_right off i), Nat.add_sub_cancel_left, h, Option.getD_some]

/-- What is written in two pieces, one after the other, is written in one. -/
theorem store_store_append (mem : Nat → β) (off : Nat) (first second : List β) :
    store (store mem off first) (off + first.length) second =
      store mem off (first ++ second) := by
  funext i
  unfold store
  rcases Nat.lt_or_ge i off with hbefore | hat
  · rw [if_neg (by omega), if_neg (by omega), if_neg (by omega)]
  · rw [if_pos hat, if_pos hat]
    rcases Nat.lt_or_ge (i - off) first.length with hfirst | hsecond
    · rw [if_neg (by omega), List.getElem?_append_left hfirst]
    · rw [if_pos (by omega), List.getElem?_append_right hsecond, Nat.sub_sub,
        List.getElem?_eq_none hsecond, Option.getD_none]

theorem window_congr {mem other : Nat → β} {off n : Nat}
    (h : ∀ i < n, mem (off + i) = other (off + i)) : window mem off n = window other off n := by
  unfold window
  congr 1
  funext i
  exact h i i.isLt

/-- A part of a window is a window. -/
theorem take_drop_window {mem : Nat → β} {off n start count : Nat} (h : start + count ≤ n) :
    ((window mem off n).drop start).take count = window mem (off + start) count := by
  apply List.ext_getElem?
  intro i
  rw [List.getElem?_take, List.getElem?_drop, getElem?_window, getElem?_window]
  split
  · rw [if_pos (by omega), Nat.add_assoc]
  · rfl

theorem window_store_self (mem : Nat → β) (off : Nat) (bytes : List β) :
    window (store mem off bytes) off bytes.length = bytes := by
  apply List.ext_getElem?
  intro i
  rw [getElem?_window]
  split
  · rename_i hi
    rw [List.getElem?_eq_getElem hi, store_inside (List.getElem?_eq_getElem hi)]
  · rename_i hi
    exact (List.getElem?_eq_none (Nat.le_of_not_lt hi)).symm

theorem window_store_disjoint {mem : Nat → β} {off at' n : Nat} {bytes : List β}
    (h : at' + n ≤ off ∨ off + bytes.length ≤ at') :
    window (store mem off bytes) at' n = window mem at' n := by
  apply window_congr
  intro i hi
  exact store_outside (by omega)

/-! ## Memory whose first bytes are known -/

/-- The memory starts with the known bytes. -/
def Agrees (known : List β) (mem : Nat → β) : Prop :=
  ∀ i byte, known[i]? = some byte → mem i = byte

/-- `f` is the same for all memories that the known bytes have been written to. -/
def Determined (known : List β) (f : (Nat → β) → γ) : Prop :=
  ∀ mem other, f (store mem 0 known) = f (store other 0 known)

theorem agrees_store (known : List β) (mem : Nat → β) : Agrees known (store mem 0 known) := by
  intro i byte hbyte
  have hinside : store mem 0 known (0 + i) = byte := store_inside hbyte
  rwa [Nat.zero_add] at hinside

theorem Agrees.store_eq {known : List β} {mem : Nat → β} (h : Agrees known mem) :
    store mem 0 known = mem := by
  funext i
  cases hknown : known[i]? with
  | none => exact store_outside (.inr (by have := List.getElem?_eq_none_iff.mp hknown; omega))
  | some byte => exact (agrees_store known mem i byte hknown).trans (h i byte hknown).symm

theorem determined_iff {known : List β} {f : (Nat → β) → γ} :
    Determined known f ↔ ∀ mem other, Agrees known mem → Agrees known other → f mem = f other := by
  constructor
  · intro h mem other hmem hother
    rw [← hmem.store_eq, ← hother.store_eq]
    exact h mem other
  · intro h mem other
    exact h _ _ (agrees_store known mem) (agrees_store known other)

/-- Memories that start with the known bytes agree on them. -/
theorem Agrees.eq_of_lt {known : List β} {mem other : Nat → β} (h : Agrees known mem)
    (h' : Agrees known other) {i : Nat} (hi : i < known.length) : mem i = other i :=
  (h i _ (List.getElem?_eq_getElem hi)).trans (h' i _ (List.getElem?_eq_getElem hi)).symm

theorem Agrees.window_eq {known : List β} {mem other : Nat → β} (h : Agrees known mem)
    (h' : Agrees known other) {off n : Nat} (hknown : off + n ≤ known.length) :
    window mem off n = window other off n := by
  apply window_congr
  intro i hi
  exact h.eq_of_lt h' (by omega)

/-- Writing what the known bytes say already keeps the agreement. -/
theorem Agrees.store_consistent {known bytes : List β} {mem : Nat → β} {off : Nat}
    (h : Agrees known mem)
    (hbytes : ∀ i byte, bytes[i]? = some byte → ∀ byte', known[off + i]? = some byte' →
      byte = byte') : Agrees known (store mem off bytes) := by
  intro i byte' hknown
  unfold store
  split
  · rename_i hle
    cases hbyte : bytes[i - off]? with
    | none => exact h i byte' hknown
    | some byte =>
        refine hbytes (i - off) byte hbyte byte' ?_
        rwa [Nat.add_sub_cancel' hle]
  · exact h i byte' hknown

/-- Writing after the known bytes keeps the agreement. -/
theorem Agrees.store_beyond {known : List β} {mem : Nat → β} {off : Nat} (h : Agrees known mem)
    (hoff : known.length ≤ off) (bytes : List β) : Agrees known (store mem off bytes) := by
  apply h.store_consistent
  intro i byte _ byte' hknown
  rw [List.getElem?_eq_none (by omega)] at hknown
  cases hknown

/-! ## Little-endian numbers -/

/-- The number whose bytes, the lowest first, these are. -/
def leValue : List UInt8 → Nat
  | [] => 0
  | byte :: bytes => byte.toNat + 256 * leValue bytes

/-- The `n` lowest bytes of the number, the lowest first. -/
def leBytes : Nat → Nat → List UInt8
  | 0, _ => []
  | n + 1, value => UInt8.ofNat (value % 256) :: leBytes n (value / 256)

@[simp]
theorem length_leBytes (n value : Nat) : (leBytes n value).length = n := by
  induction n generalizing value with
  | zero => rfl
  | succ n ih => exact congrArg (· + 1) (ih (value / 256))

theorem leValue_lt (bytes : List UInt8) : leValue bytes < 256 ^ bytes.length := by
  induction bytes with
  | nil => exact Nat.one_pos
  | cons byte bytes ih =>
      have hbyte := byte.toNat_lt
      rw [leValue, List.length_cons, Nat.pow_succ]
      omega

theorem leValue_leBytes {n value : Nat} (h : value < 256 ^ n) :
    leValue (leBytes n value) = value := by
  induction n generalizing value with
  | zero => exact (Nat.lt_one_iff.mp h).symm
  | succ n ih =>
      rw [Nat.pow_succ] at h
      rw [leBytes, leValue, ih (Nat.div_lt_of_lt_mul (by rwa [Nat.mul_comm])),
        UInt8.toNat_ofNat_of_lt' (Nat.mod_lt _ (by decide))]
      exact Nat.mod_add_div value 256

theorem leBytes_leValue (bytes : List UInt8) : leBytes bytes.length (leValue bytes) = bytes := by
  induction bytes with
  | nil => rfl
  | cons byte bytes ih =>
      have hbyte := byte.toNat_lt
      have hmod : leValue (byte :: bytes) % 256 = byte.toNat := by rw [leValue]; omega
      have hdiv : leValue (byte :: bytes) / 256 = leValue bytes := by rw [leValue]; omega
      rw [List.length_cons, leBytes, hmod, hdiv, ih, UInt8.ofNat_toNat]

/-- A byte of the number bounds it from below. -/
theorem le_leValue {bytes : List UInt8} {i : Nat} {byte : UInt8} (h : bytes[i]? = some byte) :
    byte.toNat * 256 ^ i ≤ leValue bytes := by
  induction bytes generalizing i with
  | nil => cases h
  | cons first bytes ih =>
      cases i with
      | zero =>
          obtain rfl : first = byte := Option.some.inj h
          rw [leValue, Nat.pow_zero, Nat.mul_one]
          exact Nat.le_add_right _ _
      | succ i =>
          have hrest := ih h
          rw [leValue, Nat.pow_succ, ← Nat.mul_assoc, Nat.mul_comm]
          omega

end Msm8916.Memory
