import Mathlib.Data.Set.Insert
import Mathlib.Logic.Function.Basic

/-!
Items that are put in cells and are to be disposed of exactly once. An item waits
until it is put in a cell or discarded. What disposes of the content of a cell and
what empties the cell may be two moves, between which others come.
-/

namespace Msm8916.Custody

variable {ι κ : Type*}

/-- The items that were received, those that still wait, what the cells hold, and how
often an item was disposed of. -/
@[ext]
structure Store (ι κ : Type*) where
  known : Set ι
  waiting : Set ι
  cell : κ → Option ι
  disposals : ι → Nat

inductive Move (ι κ : Type*) where
  | idle
  | receive (x : ι)
  | discard (x : ι) (disposed : Bool)
  | put (x : ι) (c : κ)
  | dispose (c : κ)
  | empty (c : κ)
  | take (c : κ)

/-- The item is in a cell. -/
def Held (cell : κ → Option ι) (x : ι) : Prop := ∃ c, cell c = some x

namespace Store

/-- No item was disposed of twice, and those that are neither waiting nor in a cell
were disposed of. -/
def Accounted (s : Store ι κ) : Prop :=
  ∀ x ∈ s.known, s.disposals x ≤ 1 ∧ (x ∉ s.waiting → ¬ Held s.cell x → s.disposals x = 1)

/-- The item was received and is neither waiting nor in a cell. -/
def Gone (s : Store ι κ) (x : ι) : Prop :=
  x ∈ s.known ∧ x ∉ s.waiting ∧ ¬ Held s.cell x

/-- Where the items are. -/
structure WellFormed (s : Store ι κ) : Prop where
  waiting_known : s.waiting ⊆ s.known
  held_known : ∀ x c, s.cell c = some x → x ∈ s.known
  held_not_waiting : ∀ x c, s.cell c = some x → x ∉ s.waiting
  held_once : ∀ x c c', s.cell c = some x → s.cell c' = some x → c' = c
  waiting_kept : ∀ x ∈ s.waiting, s.disposals x = 0
  unknown_kept : ∀ x ∉ s.known, s.disposals x = 0

/-- The move is possible. -/
def Enabled (s : Store ι κ) : Move ι κ → Prop
  | .receive x => x ∉ s.known
  | .discard x _ | .put x _ => x ∈ s.waiting
  | .idle | .dispose _ | .empty _ | .take _ => True

/-- The move loses no item and disposes of none a second time. -/
def Orderly (s : Store ι κ) : Move ι κ → Prop
  | .idle | .receive _ => True
  | .discard _ disposed => disposed = true
  | .put _ c | .empty c => ∀ x ∈ s.cell c, s.disposals x ≠ 0
  | .dispose c | .take c => ∀ x ∈ s.cell c, s.disposals x = 0

/-- Dispose of an item, if there is one. -/
def disposeOf [DecidableEq ι] (s : Store ι κ) (content : Option ι) : Store ι κ :=
  { s with disposals := fun x => s.disposals x + if content = some x then 1 else 0 }

def write [DecidableEq κ] (s : Store ι κ) (c : κ) (content : Option ι) : Store ι κ :=
  { s with cell := Function.update s.cell c content }

def leave (s : Store ι κ) (x : ι) : Store ι κ :=
  { s with waiting := s.waiting \ {x} }

def enter (s : Store ι κ) (x : ι) : Store ι κ :=
  { s with known := insert x s.known, waiting := insert x s.waiting }

def apply [DecidableEq ι] [DecidableEq κ] (s : Store ι κ) : Move ι κ → Store ι κ
  | .idle => s
  | .receive x => s.enter x
  | .discard x disposed => (s.disposeOf (if disposed then some x else none)).leave x
  | .put x c => (s.write c (some x)).leave x
  | .dispose c => s.disposeOf (s.cell c)
  | .empty c => s.write c none
  | .take c => (s.disposeOf (s.cell c)).write c none

variable {s : Store ι κ}

/-! ## What a cell holds after a write -/

theorem update_eq_some [DecidableEq κ] {cell : κ → Option ι} {c c' : κ} {content : Option ι}
    {x : ι} :
    Function.update cell c content c' = some x ↔
      c' = c ∧ content = some x ∨ c' ≠ c ∧ cell c' = some x := by
  by_cases h : c' = c
  · subst h
    simp
  · simp [h]

/-- A write takes the old content out of its cell, which is its only one. -/
theorem not_held_update [DecidableEq κ] (h : s.WellFormed) {c : κ} {content : Option ι} {x : ι}
    (hx : s.cell c = some x) (hne : content ≠ some x) :
    ¬ Held (Function.update s.cell c content) x := by
  rintro ⟨c', hc'⟩
  rcases update_eq_some.mp hc' with ⟨-, hnew⟩ | ⟨hother, hold⟩
  · exact hne hnew
  · exact hother (h.held_once x c c' hx hold)

theorem held_of_update [DecidableEq κ] {c : κ} {content : Option ι} {x : ι}
    (h : Held (Function.update s.cell c content) x) (hne : content ≠ some x) :
    Held s.cell x := by
  obtain ⟨c', hc'⟩ := h
  rcases update_eq_some.mp hc' with ⟨-, hnew⟩ | ⟨-, hold⟩
  · exact absurd hnew hne
  · exact ⟨c', hold⟩

/-- An item that is in no cell after the write was in the one that was written. -/
theorem cell_of_not_held_update [DecidableEq κ] {c : κ} {content : Option ι} {x : ι}
    (h : ¬ Held (Function.update s.cell c content) x) (hold : Held s.cell x) :
    s.cell c = some x := by
  obtain ⟨c', hc'⟩ := hold
  by_cases hc : c' = c
  · exact hc ▸ hc'
  · exact absurd ⟨c', update_eq_some.mpr (.inr ⟨hc, hc'⟩)⟩ h

/-! ## Well-formed stores -/

theorem WellFormed.disposeOf [DecidableEq ι] (h : s.WellFormed) {content : Option ι}
    (hknown : ∀ x ∈ content, x ∈ s.known ∧ x ∉ s.waiting) : (s.disposeOf content).WellFormed where
  waiting_known := h.waiting_known
  held_known := h.held_known
  held_not_waiting := h.held_not_waiting
  held_once := h.held_once
  waiting_kept x hx := by
    have hne : content ≠ some x := fun heq => (hknown x heq).2 hx
    simp [Store.disposeOf, hne, h.waiting_kept x hx]
  unknown_kept x hx := by
    have hne : content ≠ some x := fun heq => hx (hknown x heq).1
    simp [Store.disposeOf, hne, h.unknown_kept x hx]

theorem WellFormed.empty [DecidableEq κ] (h : s.WellFormed) (c : κ) :
    (s.write c none).WellFormed := by
  have hold : ∀ {x c'}, (s.write c none).cell c' = some x → s.cell c' = some x := by
    intro x c' hc'
    rcases update_eq_some.mp hc' with ⟨-, hnone⟩ | ⟨-, hc'⟩
    · cases hnone
    · exact hc'
  exact
    { waiting_known := h.waiting_known
      held_known := fun x c' hc' => h.held_known x c' (hold hc')
      held_not_waiting := fun x c' hc' => h.held_not_waiting x c' (hold hc')
      held_once := fun x c' c'' hc' hc'' => h.held_once x c' c'' (hold hc') (hold hc'')
      waiting_kept := h.waiting_kept
      unknown_kept := h.unknown_kept }

theorem WellFormed.leave (h : s.WellFormed) (x : ι) : (s.leave x).WellFormed where
  waiting_known := fun _ hy => h.waiting_known hy.1
  held_known := h.held_known
  held_not_waiting y c hy := fun hwaiting => h.held_not_waiting y c hy hwaiting.1
  held_once := h.held_once
  waiting_kept y hy := h.waiting_kept y hy.1
  unknown_kept := h.unknown_kept

theorem WellFormed.put [DecidableEq κ] (h : s.WellFormed) {x : ι} (hx : x ∈ s.waiting) (c : κ) :
    ((s.write c (some x)).leave x).WellFormed := by
  have hcell : ∀ {y c'}, ((s.write c (some x)).leave x).cell c' = some y →
      c' = c ∧ y = x ∨ y ≠ x ∧ s.cell c' = some y := by
    intro y c' hc'
    rcases update_eq_some.mp hc' with ⟨rfl, hnew⟩ | ⟨-, hold⟩
    · exact .inl ⟨rfl, (Option.some.inj hnew).symm⟩
    · refine .inr ⟨?_, hold⟩
      rintro rfl
      exact h.held_not_waiting y c' hold hx
  refine
    { waiting_known := fun _ hy => h.waiting_known hy.1
      held_known := fun y c' hc' => ?_
      held_not_waiting := fun y c' hc' hwaiting => ?_
      held_once := fun y c' c'' hc' hc'' => ?_
      waiting_kept := fun y hy => h.waiting_kept y hy.1
      unknown_kept := h.unknown_kept }
  · rcases hcell hc' with ⟨-, rfl⟩ | ⟨-, hold⟩
    · exact h.waiting_known hx
    · exact h.held_known y c' hold
  · rcases hcell hc' with ⟨-, rfl⟩ | ⟨-, hold⟩
    · exact hwaiting.2 rfl
    · exact h.held_not_waiting y c' hold hwaiting.1
  · rcases hcell hc' with ⟨rfl, rfl⟩ | ⟨hne, hold⟩ <;>
      rcases hcell hc'' with ⟨rfl, heq⟩ | ⟨hne', hold'⟩
    · rfl
    · exact absurd rfl hne'
    · exact absurd heq hne
    · exact h.held_once y c' c'' hold hold'

theorem WellFormed.receive (h : s.WellFormed) {x : ι} (hx : x ∉ s.known) :
    (s.enter x).WellFormed where
  waiting_known := Set.insert_subset_insert h.waiting_known
  held_known y c hy := Set.mem_insert_of_mem x (h.held_known y c hy)
  held_not_waiting y c hy hwaiting := by
    rcases hwaiting with rfl | hwaiting
    · exact hx (h.held_known y c hy)
    · exact h.held_not_waiting y c hy hwaiting
  held_once := h.held_once
  waiting_kept y hy := by
    rcases hy with rfl | hy
    · exact h.unknown_kept y hx
    · exact h.waiting_kept y hy
  unknown_kept y hy := h.unknown_kept y fun hknown => hy (Set.mem_insert_of_mem x hknown)

theorem WellFormed.content (h : s.WellFormed) (c : κ) :
    ∀ x ∈ s.cell c, x ∈ s.known ∧ x ∉ s.waiting :=
  fun x hx => ⟨h.held_known x c hx, h.held_not_waiting x c hx⟩

theorem WellFormed.apply [DecidableEq ι] [DecidableEq κ] (h : s.WellFormed) {move : Move ι κ}
    (henabled : s.Enabled move) : (s.apply move).WellFormed := by
  cases move with
  | idle => exact h
  | receive x => exact h.receive henabled
  | discard x disposed =>
      refine WellFormed.disposeOf (h.leave x) fun y hy => ?_
      cases disposed with
      | false => cases hy
      | true =>
          obtain rfl : x = y := Option.some.inj hy
          exact ⟨h.waiting_known henabled, fun hwaiting => hwaiting.2 rfl⟩
  | put x c => exact h.put henabled c
  | dispose c => exact h.disposeOf (h.content c)
  | empty c => exact h.empty c
  | take c => exact (h.disposeOf (h.content c)).empty c

/-! ## Orderly moves -/

theorem accounted_disposeOf_iff [DecidableEq ι] (h : s.WellFormed) (c : κ) :
    (s.disposeOf (s.cell c)).Accounted ↔
      s.Accounted ∧ ∀ x ∈ s.cell c, s.disposals x = 0 := by
  constructor
  · intro hafter
    refine ⟨fun x hx => ⟨?_, fun hwaiting hheld => ?_⟩, fun x hx => ?_⟩
    · have hle := (hafter x hx).1
      simp only [disposeOf] at hle
      omega
    · have hne : s.cell c ≠ some x := fun heq => hheld ⟨c, heq⟩
      have hone := (hafter x hx).2 hwaiting hheld
      simpa [disposeOf, hne] using hone
    · have hle := (hafter x (h.held_known x c hx)).1
      rw [Option.mem_def] at hx
      simp only [disposeOf, hx, if_true] at hle
      omega
  · rintro ⟨hbefore, hnew⟩ x hx
    by_cases heq : s.cell c = some x
    · have hzero := hnew x heq
      refine ⟨by simp [disposeOf, heq, hzero], fun _ hheld => absurd ⟨c, heq⟩ hheld⟩
    · have hsame : (s.disposeOf (s.cell c)).disposals x = s.disposals x := by
        simp [disposeOf, heq]
      rw [hsame]
      exact hbefore x hx

/-- What comes in the cell instead is nothing, or an item that has waited. -/
theorem accounted_write_iff [DecidableEq κ] (h : s.WellFormed) (c : κ) (content : Option ι)
    (hcontent : ∀ x ∈ content, x ∈ s.waiting) {t : Store ι κ} (hknown : t.known = s.known)
    (hwaiting : ∀ x, x ∈ t.waiting ↔ x ∈ s.waiting ∧ content ≠ some x)
    (hcell : t.cell = Function.update s.cell c content) (hdisposals : t.disposals = s.disposals) :
    t.Accounted ↔ s.Accounted ∧ ∀ x ∈ s.cell c, s.disposals x ≠ 0 := by
  unfold Accounted
  rw [hknown, hcell, hdisposals]
  constructor
  · intro hafter
    refine ⟨fun x hx => ⟨(hafter x hx).1, fun hw hheld => ?_⟩, fun x hx => ?_⟩
    · have hne : content ≠ some x := fun heq => hw (hcontent x heq)
      exact (hafter x hx).2 (fun hw' => hw ((hwaiting x).mp hw').1)
        fun hheld' => hheld (held_of_update hheld' hne)
    · have hw := h.held_not_waiting x c hx
      have hne : content ≠ some x := fun heq => hw (hcontent x heq)
      have hone := (hafter x (h.held_known x c hx)).2 (fun hw' => hw ((hwaiting x).mp hw').1)
        (not_held_update h hx hne)
      omega
  · rintro ⟨hbefore, hold⟩ x hx
    refine ⟨(hbefore x hx).1, fun hw hheld => ?_⟩
    have hne : content ≠ some x := fun heq => hheld ⟨c, update_eq_some.mpr (.inl ⟨rfl, heq⟩)⟩
    have hw' : x ∉ s.waiting := fun hin => hw ((hwaiting x).mpr ⟨hin, hne⟩)
    by_cases hheld' : Held s.cell x
    · have hnonzero := hold x (cell_of_not_held_update hheld hheld')
      have hle := (hbefore x hx).1
      omega
    · exact (hbefore x hx).2 hw' hheld'

theorem accounted_discard_iff [DecidableEq ι] (h : s.WellFormed) {x : ι} (hx : x ∈ s.waiting)
    (disposed : Bool) :
    ((s.disposeOf (if disposed then some x else none)).leave x).Accounted ↔
      s.Accounted ∧ disposed = true := by
  have hheld : ¬ Held s.cell x := fun ⟨c, hc⟩ => h.held_not_waiting x c hc hx
  have hzero := h.waiting_kept x hx
  constructor
  · intro hafter
    refine ⟨fun y hy => ⟨?_, fun hw hheld' => ?_⟩, ?_⟩
    · have hle := (hafter y hy).1
      simp only [disposeOf, leave] at hle
      omega
    · have hne : x ≠ y := by
        rintro rfl
        exact hw hx
      have hone := (hafter y hy).2 (fun hw' => hw hw'.1) hheld'
      cases disposed
      · simpa [disposeOf, leave] using hone
      · simpa [disposeOf, leave, hne] using hone
    · have hone := (hafter x (h.waiting_known hx)).2 (fun hw' => hw'.2 rfl) hheld
      cases disposed with
      | false => simp [disposeOf, leave, hzero] at hone
      | true => rfl
  · rintro ⟨hbefore, rfl⟩ y hy
    by_cases heq : x = y
    · subst heq
      simp [disposeOf, leave, hzero]
    · refine ⟨by simpa [disposeOf, leave, heq] using (hbefore y hy).1, fun hw hheld' => ?_⟩
      have hw' : y ∉ s.waiting := fun hin => hw ⟨hin, fun hsingle => heq hsingle.symm⟩
      simpa [disposeOf, leave, heq] using (hbefore y hy).2 hw' hheld'

theorem accounted_enter_iff (h : s.WellFormed) {x : ι} (hx : x ∉ s.known) :
    (s.enter x).Accounted ↔ s.Accounted := by
  constructor
  · intro hafter y hy
    have hne : y ≠ x := by
      rintro rfl
      exact hx hy
    have hnew := hafter y (Set.mem_insert_of_mem x hy)
    exact ⟨hnew.1, fun hw => hnew.2 fun hw' => hw (hw'.resolve_left hne)⟩
  · rintro hbefore y (rfl | hy)
    · have hzero : (s.enter y).disposals y = 0 := h.unknown_kept y hx
      exact ⟨by omega, fun hw => absurd (Set.mem_insert y s.waiting) hw⟩
    · exact ⟨(hbefore y hy).1,
        fun hw => (hbefore y hy).2 fun hw' => hw (Set.mem_insert_of_mem x hw')⟩

/-- The items are accounted for after a move exactly if they were before and the move
is orderly. -/
theorem accounted_apply_iff [DecidableEq ι] [DecidableEq κ] (h : s.WellFormed)
    {move : Move ι κ} (henabled : s.Enabled move) :
    (s.apply move).Accounted ↔ s.Accounted ∧ s.Orderly move := by
  cases move with
  | idle => exact (and_iff_left trivial).symm
  | receive x => exact (accounted_enter_iff h henabled).trans (and_iff_left trivial).symm
  | discard x disposed => exact accounted_discard_iff h henabled disposed
  | put x c =>
      refine accounted_write_iff h c (some x) ?_ rfl (fun y => ?_) rfl rfl
      · rintro y ⟨⟩
        exact henabled
      · simp [apply, leave, write, eq_comm]
  | dispose c => exact accounted_disposeOf_iff h c
  | empty c => exact accounted_write_iff h c none nofun rfl (by simp [apply, write]) rfl rfl
  | take c =>
      have hdisposed := accounted_write_iff (h.disposeOf (h.content c)) c none
        (t := s.apply (.take c)) nofun rfl (by simp [apply, write]) rfl rfl
      have hnonzero : ∀ x ∈ (s.disposeOf (s.cell c)).cell c,
          (s.disposeOf (s.cell c)).disposals x ≠ 0 := by
        intro x hx
        have heq : s.cell c = some x := hx
        simp [disposeOf, heq]
      rw [hdisposed, and_iff_left hnonzero]
      exact accounted_disposeOf_iff h c

/-! ## Items that are gone -/

/-- An item that is gone does not come back. -/
theorem Gone.apply [DecidableEq ι] [DecidableEq κ] {x : ι} (h : s.Gone x) {move : Move ι κ}
    (henabled : s.Enabled move) : (s.apply move).Gone x := by
  obtain ⟨hknown, hwaiting, hheld⟩ := h
  have hempty : ∀ c, ¬ Held (Function.update s.cell c none) x := fun c h =>
    hheld (held_of_update h nofun)
  cases move with
  | idle | dispose c => exact ⟨hknown, hwaiting, hheld⟩
  | receive y =>
      refine ⟨Set.mem_insert_of_mem y hknown, fun hafter => ?_, hheld⟩
      rcases hafter with rfl | hbefore
      · exact henabled hknown
      · exact hwaiting hbefore
  | discard y disposed => exact ⟨hknown, fun hafter => hwaiting hafter.1, hheld⟩
  | put y c =>
      refine ⟨hknown, fun hafter => hwaiting hafter.1, fun hafter => hheld ?_⟩
      refine held_of_update hafter fun heq => hwaiting ?_
      obtain rfl : y = x := Option.some.inj heq
      exact henabled
  | empty c | take c => exact ⟨hknown, hwaiting, hempty c⟩

theorem gone_take [DecidableEq ι] [DecidableEq κ] (h : s.WellFormed) {c : κ} {x : ι}
    (hx : s.cell c = some x) : (s.apply (.take c)).Gone x :=
  ⟨h.held_known x c hx, h.held_not_waiting x c hx, not_held_update h hx nofun⟩

/-- An item in a cell stays there until it is gone. -/
theorem held_apply [DecidableEq ι] [DecidableEq κ] (h : s.WellFormed) {move : Move ι κ}
    (henabled : s.Enabled move) {c : κ} {x : ι} (hx : s.cell c = some x) :
    (s.apply move).cell c = some x ∨ (s.apply move).Gone x := by
  have hknown := h.held_known x c hx
  have hwaiting := h.held_not_waiting x c hx
  cases move with
  | idle | receive y | discard y disposed | dispose c' => exact .inl hx
  | put y c' =>
      rcases eq_or_ne c c' with rfl | hc
      · refine .inr ⟨hknown, fun hafter => hwaiting hafter.1, not_held_update h hx ?_⟩
        rintro ⟨⟩
        exact hwaiting henabled
      · exact .inl (update_eq_some.mpr (.inr ⟨hc, hx⟩))
  | empty c' | take c' =>
      rcases eq_or_ne c c' with rfl | hc
      · exact .inr ⟨hknown, hwaiting, not_held_update h hx nofun⟩
      · exact .inl (update_eq_some.mpr (.inr ⟨hc, hx⟩))

/-! ## Cells that are used in turn -/

/-- Of the cells that hold an item, those are marked whose item was disposed of. -/
def Marked (s : Store ι κ) (marks : Set κ) : Prop :=
  ∀ c x, s.cell c = some x → (s.disposals x ≠ 0 ↔ c ∈ marks)

/-- An item comes into an empty cell that is not marked, an item is disposed of in a cell
that is not marked, and a cell is emptied when it is marked. -/
def InTurn (s : Store ι κ) (marks : Set κ) : Move ι κ → Prop
  | .idle | .receive _ => True
  | .discard _ disposed => disposed = true
  | .put _ c => s.cell c = none ∧ c ∉ marks
  | .empty c => s.cell c = none ∨ c ∈ marks
  | .dispose c | .take c => c ∉ marks

theorem Marked.orderly {marks : Set κ} {move : Move ι κ} (h : s.Marked marks)
    (hturn : s.InTurn marks move) : s.Orderly move := by
  have hkept : ∀ c, c ∉ marks → ∀ x ∈ s.cell c, s.disposals x = 0 := fun c hc x hx => by
    by_contra hspent
    exact hc ((h c x hx).mp hspent)
  cases move with
  | idle | receive x => trivial
  | discard x disposed => exact hturn
  | put x c =>
      intro y hy
      cases hturn.1.symm.trans hy
  | empty c =>
      intro x hx
      rcases hturn with hnone | hmarked
      · cases hnone.symm.trans hx
      · exact (h c x hx).mpr hmarked
  | dispose c | take c => exact hkept c hturn

/-- An item that another cell holds is not the one that is disposed of. -/
theorem WellFormed.disposals_other [DecidableEq ι] (h : s.WellFormed) {c c' : κ} {x : ι}
    (hx : s.cell c' = some x) (hne : c' ≠ c) :
    (s.disposeOf (s.cell c)).disposals x = s.disposals x := by
  have hother : s.cell c ≠ some x := fun heq => hne (h.held_once x c c' heq hx)
  simp [Store.disposeOf, hother]

/-- The marks stay right when a cell is marked with the disposal of its content and may
lose its mark when it is emptied. -/
theorem Marked.apply [DecidableEq ι] [DecidableEq κ] {marks after : Set κ} {move : Move ι κ}
    (h : s.Marked marks) (hwf : s.WellFormed) (henabled : s.Enabled move)
    (hturn : s.InTurn marks move)
    (hafter : ∀ c, move ≠ .empty c → (c ∈ after ↔ c ∈ marks ∨ move = .dispose c)) :
    (s.apply move).Marked after := by
  have hsame : ∀ c, move ≠ .empty c → move ≠ .dispose c → (c ∈ after ↔ c ∈ marks) :=
    fun c hempty hdispose => (hafter c hempty).trans (or_iff_left hdispose)
  intro c x hx
  cases move with
  | idle | receive y =>
      rw [hsame c nofun nofun]
      exact h c x hx
  | discard y disposed =>
      have hne : y ≠ x := by
        rintro rfl
        exact hwf.held_not_waiting y c hx henabled
      rw [hsame c nofun nofun, ← h c x hx]
      cases disposed <;> simp [Store.apply, leave, disposeOf, hne]
  | put y c' =>
      rw [hsame c nofun nofun]
      rcases update_eq_some.mp hx with ⟨rfl, hnew⟩ | ⟨-, hold⟩
      · obtain rfl := Option.some.inj hnew
        exact iff_of_false (not_not_intro (hwf.waiting_kept y henabled)) hturn.2
      · exact h c x hold
  | dispose c' =>
      rcases eq_or_ne c c' with rfl | hne
      · refine iff_of_true ?_ ((hafter c nofun).mpr (.inr rfl))
        have hcell : s.cell c = some x := hx
        simp [Store.apply, disposeOf, hcell]
      · rw [hsame c nofun (by rintro ⟨⟩; exact hne rfl), ← h c x hx]
        change (s.disposeOf (s.cell c')).disposals x ≠ 0 ↔ _
        rw [hwf.disposals_other hx hne]
  | empty c' =>
      rcases update_eq_some.mp hx with ⟨-, hnone⟩ | ⟨hne, hold⟩
      · cases hnone
      · rw [hsame c (by rintro ⟨⟩; exact hne rfl) nofun]
        exact h c x hold
  | take c' =>
      rcases update_eq_some.mp hx with ⟨-, hnone⟩ | ⟨hne, hold⟩
      · cases hnone
      · rw [hsame c nofun nofun, ← h c x hold]
        change (s.disposeOf (s.cell c')).disposals x ≠ 0 ↔ _
        rw [hwf.disposals_other hold hne]

end Store

end Msm8916.Custody
