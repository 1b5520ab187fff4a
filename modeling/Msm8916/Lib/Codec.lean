import Mathlib.Data.List.Basic
import Mathlib.Data.List.Forall2
import Mathlib.Order.Notation

/-!
Readers that take values off the front of a stream, and codecs: a reader together with a
writer whose output it takes back.
-/

namespace Msm8916

/-- A reader of streams over `β`, which may fail. It leaves a rest of the stream in any case. -/
def Reader (ε β α : Type) := List β → Except ε α × List β

namespace Reader

variable {ε β α γ : Type}

instance : Monad (Reader ε β) where
  pure value := fun items => (.ok value, items)
  bind read next := fun items =>
    match read items with
    | (.ok value, rest) => next value rest
    | (.error error, rest) => (.error error, rest)

instance : MonadExcept ε (Reader ε β) where
  throw error := fun items => (.error error, items)
  tryCatch read handle := fun items =>
    match read items with
    | (.ok value, rest) => (.ok value, rest)
    | (.error error, rest) => handle error rest

def lift (result : Except ε α) : Reader ε β α := fun items => (result, items)

/-- Goes on after a failure, with what is left. -/
def attempt (read : Reader ε β α) : Reader ε β (Except ε α) := fun items =>
  (.ok (read items).1, (read items).2)

/-- Goes on after a failure, with this value. -/
def getD (read : Reader ε β α) (default : α) : Reader ε β α := fun items =>
  match read items with
  | (.ok value, rest) => (.ok value, rest)
  | (.error _, rest) => (.ok default, rest)

/-- The value and the rest, or the failure. -/
def run (read : Reader ε β α) (items : List β) : Except ε (α × List β) :=
  (read items).1.map (·, (read items).2)

/-- The reader takes these items off the front of every stream, as this value. -/
def Takes (read : Reader ε β α) (items : List β) (value : α) : Prop :=
  ∀ rest, read (items ++ rest) = (.ok value, rest)

/-- The reader fails on every stream that starts with these items. -/
def Rejects (read : Reader ε β α) (items : List β) (error : ε) : Prop :=
  ∀ rest, (read (items ++ rest)).1 = .error error

/-- The reader fails on every stream that starts with these items, and leaves what is behind
them. -/
def Refuses (read : Reader ε β α) (items : List β) (error : ε) : Prop :=
  ∀ rest, read (items ++ rest) = (.error error, rest)

/-- The reader gives this value of every stream that starts with these items, and may leave
some of them. -/
def Gives (read : Reader ε β α) (items : List β) (value : α) : Prop :=
  ∀ rest, (read (items ++ rest)).1 = .ok value

theorem bind_of_ok {read : Reader ε β α} {items rest : List β} {value : α}
    (h : read items = (.ok value, rest)) (next : α → Reader ε β γ) :
    (read >>= next) items = next value rest := by
  change (match read items with
    | (.ok value, rest) => next value rest
    | (.error error, rest) => (.error error, rest)) = _
  rw [h]

theorem bind_of_error {read : Reader ε β α} {items rest : List β} {error : ε}
    (h : read items = (.error error, rest)) (next : α → Reader ε β γ) :
    (read >>= next) items = (.error error, rest) := by
  change (match read items with
    | (.ok value, rest) => next value rest
    | (.error error, rest) => (.error error, rest)) = _
  rw [h]

theorem map_eq_error_iff {result : Except ε α} {f : α → γ} {error : ε} :
    result.map f = .error error ↔ result = .error error := by
  cases result with
  | error other =>
      constructor
      · intro h
        rw [Except.error.inj h]
      · intro h
        rw [Except.error.inj h]
        rfl
  | ok value => exact ⟨fun h => (by cases h), fun h => (by cases h)⟩

theorem map_eq_ok_iff {result : Except ε α} {f : α → γ} {image : γ} :
    result.map f = .ok image ↔ ∃ value, result = .ok value ∧ f value = image := by
  cases result with
  | error other => exact ⟨fun h => (by cases h), fun ⟨_, h, _⟩ => (by cases h)⟩
  | ok value =>
      constructor
      · intro h
        exact ⟨value, rfl, Except.ok.inj h⟩
      · rintro ⟨other, h, rfl⟩
        rw [Except.ok.inj h]
        rfl

theorem run_eq_error_iff {read : Reader ε β α} {items : List β} {error : ε} :
    read.run items = .error error ↔ (read items).1 = .error error := map_eq_error_iff

theorem takes_pure (value : α) : Takes (pure value : Reader ε β α) [] value := fun _ => rfl

theorem rejects_throw (error : ε) : Rejects (throw error : Reader ε β α) [] error := fun _ => rfl

theorem Rejects.run {read : Reader ε β α} {items : List β} {error : ε}
    (h : read.Rejects items error) (rest : List β) : read.run (items ++ rest) = .error error :=
  run_eq_error_iff.mpr (h rest)

theorem Takes.run_bind {read : Reader ε β α} {items : List β} {value : α}
    (h : read.Takes items value) (next : α → Reader ε β γ) (rest : List β) :
    (read >>= next).run (items ++ rest) = (next value).run rest := by
  rw [Reader.run, bind_of_ok (h rest)]
  rfl

theorem Takes.bind {read : Reader ε β α} {next : α → Reader ε β γ} {first second : List β}
    {value : α} {result : γ} (h : read.Takes first value)
    (hnext : (next value).Takes second result) :
    Takes (read >>= next) (first ++ second) result := by
  intro rest
  rw [List.append_assoc, bind_of_ok (h _)]
  exact hnext rest

theorem Takes.bind_pure {read : Reader ε β α} {items : List β} {value : α}
    (h : read.Takes items value) (f : α → γ) :
    Takes (read >>= fun value => pure (f value)) items (f value) := by
  intro rest
  rw [bind_of_ok (h rest)]
  rfl

theorem Takes.bind_rejects {read : Reader ε β α} {next : α → Reader ε β γ}
    {first second : List β} {value : α} {error : ε} (h : read.Takes first value)
    (hnext : (next value).Rejects second error) :
    Rejects (read >>= next) (first ++ second) error := by
  intro rest
  rw [List.append_assoc, bind_of_ok (h _)]
  exact hnext rest

theorem Rejects.bind {read : Reader ε β α} {first : List β} {error : ε}
    (h : read.Rejects first error) (next : α → Reader ε β γ) :
    Rejects (read >>= next) first error := by
  intro rest
  have herror := h rest
  cases hread : read (first ++ rest) with
  | mk result left =>
      rw [hread] at herror
      obtain rfl : result = .error error := herror
      rw [bind_of_error hread]

theorem Takes.gives {read : Reader ε β α} {items : List β} {value : α}
    (h : read.Takes items value) : read.Gives items value := by
  intro rest
  rw [h rest]

theorem Takes.bind_gives {read : Reader ε β α} {next : α → Reader ε β γ} {first second : List β}
    {value : α} {result : γ} (h : read.Takes first value)
    (hnext : (next value).Gives second result) :
    Gives (read >>= next) (first ++ second) result := by
  intro rest
  rw [List.append_assoc, bind_of_ok (h _)]
  exact hnext rest

theorem Gives.apply {read : Reader ε β α} {items : List β} {value : α}
    (h : read.Gives items value) : (read items).1 = .ok value := by
  rw [← List.append_nil items]
  exact h []

theorem Rejects.apply {read : Reader ε β α} {items : List β} {error : ε}
    (h : read.Rejects items error) : (read items).1 = .error error := by
  rw [← List.append_nil items]
  exact h []

/-- What is there already is given of more. -/
theorem Gives.append {read : Reader ε β α} {items : List β} {value : α}
    (h : read.Gives items value) (more : List β) : read.Gives (items ++ more) value := by
  intro rest
  rw [List.append_assoc]
  exact h (more ++ rest)

/-- What is rejected stays so with more behind it. -/
theorem Rejects.append {read : Reader ε β α} {items : List β} {error : ε}
    (h : read.Rejects items error) (more : List β) : read.Rejects (items ++ more) error := by
  intro rest
  rw [List.append_assoc]
  exact h (more ++ rest)

theorem Takes.attempt {read : Reader ε β α} {items : List β} {value : α}
    (h : read.Takes items value) : read.attempt.Takes items (.ok value) := by
  intro rest
  rw [Reader.attempt, h rest]

theorem Refuses.attempt {read : Reader ε β α} {items : List β} {error : ε}
    (h : read.Refuses items error) : read.attempt.Takes items (.error error) := by
  intro rest
  rw [Reader.attempt, h rest]

theorem Takes.getD {read : Reader ε β α} {items : List β} {value : α} (h : read.Takes items value)
    (default : α) : (read.getD default).Takes items value := by
  intro rest
  rw [Reader.getD, h rest]

/-- The reader fails in this way on no stream. -/
def Avoids (read : Reader ε β α) (error : ε) : Prop := ∀ items, (read items).1 ≠ .error error

theorem avoids_pure (value : α) (error : ε) : Avoids (pure value : Reader ε β α) error :=
  fun _ h => by cases h

theorem avoids_throw {error other : ε} (h : error ≠ other) :
    Avoids (throw error : Reader ε β α) other := fun _ heq => h (Except.error.inj heq)

theorem avoids_lift {result : Except ε α} {error : ε} (h : result ≠ .error error) :
    Avoids (lift result : Reader ε β α) error := fun _ => h

/-- What comes after a value need only avoid the failure for the values that are read. -/
theorem Avoids.bind {read : Reader ε β α} {next : α → Reader ε β γ} {error : ε}
    (h : read.Avoids error)
    (hnext : ∀ items value rest, read items = (.ok value, rest) → (next value).Avoids error) :
    Avoids (read >>= next) error := by
  intro items heq
  cases hread : read items with
  | mk result rest =>
      cases result with
      | error other =>
          rw [bind_of_error hread] at heq
          apply h items
          rw [hread, Except.error.inj heq]
      | ok value =>
          rw [bind_of_ok hread] at heq
          exact hnext items value rest hread rest heq

/-- So many values, one after the other. -/
def many (read : Reader ε β α) : Nat → Reader ε β (List α)
  | 0 => pure []
  | n + 1 => do
      let value ← read
      let values ← many read n
      return value :: values

variable {read : Reader ε β α} {write : α → List β}

theorem many_succ (n : Nat) :
    read.many (n + 1) =
      read >>= fun value => read.many n >>= fun values => pure (value :: values) := rfl

/-- What the sources write is read as what they stand for. -/
theorem Takes.many_forall₂ {sources : List γ} {write : γ → List β} {values : List α}
    (h : List.Forall₂ (fun source value => read.Takes (write source) value) sources values) :
    (read.many sources.length).Takes (sources.flatMap write) values := by
  induction h with
  | nil => exact takes_pure []
  | @cons source value sources values hfirst hrest ih =>
      rw [List.length_cons, many_succ, List.flatMap_cons,
        ← List.append_nil (sources.flatMap write)]
      exact hfirst.bind (ih.bind (takes_pure _))

theorem Takes.many {values : List α} (h : ∀ value ∈ values, read.Takes (write value) value) :
    (read.many values.length).Takes (values.flatMap write) values :=
  Takes.many_forall₂ (List.forall₂_same.mpr h)

/-- The first value that is rejected ends the reading. -/
theorem Rejects.many {values : List α} {items : List β} {error : ε} {n : Nat}
    (htaken : ∀ value ∈ values, read.Takes (write value) value)
    (hrejected : read.Rejects items error) (hn : values.length < n) :
    (read.many n).Rejects (values.flatMap write ++ items) error := by
  induction values generalizing n with
  | nil =>
      obtain ⟨n, rfl⟩ := Nat.exists_eq_succ_of_ne_zero (Nat.ne_of_gt hn)
      exact hrejected.bind _
  | cons value values ih =>
      obtain ⟨n, rfl⟩ := Nat.exists_eq_succ_of_ne_zero (Nat.ne_of_gt (Nat.zero_lt_of_lt hn))
      have hfirst := htaken value List.mem_cons_self
      have hrest := ih (fun other hmem => htaken other (List.mem_cons_of_mem value hmem))
        (Nat.lt_of_succ_lt_succ hn)
      rw [List.flatMap_cons, List.append_assoc]
      exact hfirst.bind_rejects (hrest.bind _)

/-- If some of the sources are rejected, reading all of them fails. -/
theorem Rejects.many_of_exists {sources : List γ} {write : γ → List β} {error : ε} {n : Nat}
    (p : γ → Prop)
    (htaken : ∀ source ∈ sources, p source → ∃ value, read.Takes (write source) value)
    (hrejected : ∀ source ∈ sources, ¬ p source → read.Rejects (write source) error)
    (hexists : ∃ source ∈ sources, ¬ p source) (hn : sources.length ≤ n) :
    (read.many n).Rejects (sources.flatMap write) error := by
  induction sources generalizing n with
  | nil =>
      obtain ⟨source, hmem, -⟩ := hexists
      cases hmem
  | cons source sources ih =>
      obtain ⟨n, rfl⟩ := Nat.exists_eq_succ_of_ne_zero (Nat.ne_zero_of_lt hn)
      obtain ⟨hfirst, htaken⟩ := List.forall_mem_cons.mp htaken
      obtain ⟨hbad, hrejected⟩ := List.forall_mem_cons.mp hrejected
      rw [List.flatMap_cons]
      by_cases h : p source
      · obtain ⟨value, hvalue⟩ := hfirst h
        have hrest : ∃ source ∈ sources, ¬ p source := by
          obtain ⟨bad, hmem, hnot⟩ := hexists
          rcases List.mem_cons.mp hmem with rfl | hrest
          · exact absurd h hnot
          · exact ⟨bad, hrest, hnot⟩
        exact hvalue.bind_rejects ((ih htaken hrejected hrest (Nat.le_of_succ_le_succ hn)).bind _)
      · exact ((hbad h).bind _).append _

end Reader

/-- All of the values are made, or one of them cannot be. -/
theorem mapM_except_cases {ε α γ : Type} (f : α → Except ε γ) (sources : List α) :
    (∃ values, sources.mapM f = .ok values ∧
        List.Forall₂ (fun source value => f source = .ok value) sources values) ∨
      (∃ error, sources.mapM f = .error error ∧ ∃ source ∈ sources, f source = .error error) := by
  induction sources with
  | nil => exact .inl ⟨[], rfl, .nil⟩
  | cons source sources ih =>
      rw [List.mapM_cons]
      cases hfirst : f source with
      | error error => exact .inr ⟨error, rfl, source, List.mem_cons_self, hfirst⟩
      | ok value =>
          obtain ⟨values, hvalues, hforall⟩ | ⟨error, herror, bad, hmem, hbad⟩ := ih
          · rw [hvalues]
            exact .inl ⟨value :: values, rfl, .cons hfirst hforall⟩
          · rw [herror]
            exact .inr ⟨error, rfl, bad, List.mem_cons_of_mem source hmem, hbad⟩

/-- A writer and the reader that takes back what it writes. -/
structure Codec (ε β α : Type) where
  write : α → List β
  read : Reader ε β α
  read_write : ∀ value, read.Takes (write value) value

end Msm8916
