import Mathlib.Algebra.Order.Group.Multiset
import Mathlib.Tactic.Abel
import Msm8916.Lib.Transition
import Msm8916.MsgQ.Search

/-!
The list of `gps/utils/linked_list.c` refines a functional list, which has its head in front.
Every element that was added is in the list, was handed to a caller, was passed to its dealloc
function, or had none.
-/

namespace Msm8916.MsgQ

open Transition

variable {α δ : Type*}

/-- A call of one of the functions. A null pointer is `none`, or `false` where only that matters;
`malloc` is the answer to the call of it. -/
inductive ListCall (α δ : Type*) where
  | add (data_obj : Option α) (dealloc : Option δ) (malloc : Option Nat)
  | remove (data_obj : Bool)
  | search (equal : Option (α → Bool)) (data_p rm_if_found : Bool)
  | flush

def call (list : LinkedList α δ) : ListCall α δ → Option (LinkedList α δ × Answer α δ)
  | .add none _ _ => some (list, ⟨.invalidParameter, none, []⟩)
  | .add (some _) _ none => some (list, ⟨.failureGeneral, none, []⟩)
  | .add (some data) dealloc (some elem) =>
      (linkedListAdd list (some data) dealloc elem).map fun (list, err) =>
        (list, ⟨err, none, []⟩)
  | .remove false => some (list, ⟨.invalidParameter, none, []⟩)
  | .remove true =>
      (linkedListRemove list).map fun (list, err, data) => (list, ⟨err, data.map some, []⟩)
  | .search equal data_p rm_if_found => linkedListSearch list equal data_p rm_if_found
  | .flush => (linkedListFlush list).map fun (list, err, calls) => (list, ⟨err, none, calls⟩)

/-- `malloc` does not hand out what is allocated. -/
def Fresh (list : LinkedList α δ) : ListCall α δ → Prop
  | .add (some _) _ (some elem) => elem ∉ list.heap
  | _ => True

instance (list : LinkedList α δ) : DecidablePred (Fresh list)
  | .add (some _) _ (some elem) => inferInstanceAs (Decidable (elem ∉ list.heap))
  | .add (some _) _ none | .add none _ _ | .remove _ | .search .. | .flush => isTrue trivial

/-- The calls one after the other, with their answers. -/
def runCalls (list : LinkedList α δ) :
    List (ListCall α δ) → Option (LinkedList α δ × List (Answer α δ))
  | [] => some (list, [])
  | c :: calls =>
      (call list c).bind fun (list, answer) =>
        (runCalls list calls).map fun (list, answers) => (list, answer :: answers)

def afterCall (list : LinkedList α δ) (c : ListCall α δ) : Option (LinkedList α δ) :=
  (call list c).map Prod.fst

/-- Every `malloc` on the way is fresh. -/
def FreshMallocs (list : LinkedList α δ) (calls : List (ListCall α δ)) : Prop :=
  Along afterCall Fresh list calls

instance (list : LinkedList α δ) (calls : List (ListCall α δ)) :
    Decidable (FreshMallocs list calls) :=
  inferInstanceAs (Decidable (Along afterCall Fresh list calls))

/-! ## The functional list -/

/-- A call on the functional list: an add is a cons, a remove takes the last element, and a
search selects the first match from the head. -/
def functionalCall (items : List (α × Option δ)) :
    ListCall α δ → List (α × Option δ) × Answer α δ
  | .add none _ _ => (items, ⟨.invalidParameter, none, []⟩)
  | .add (some _) _ none => (items, ⟨.failureGeneral, none, []⟩)
  | .add (some data) dealloc (some _) => ((data, dealloc) :: items, ⟨.success, none, []⟩)
  | .remove false => (items, ⟨.invalidParameter, none, []⟩)
  | .remove true =>
      match items.getLast? with
      | none => (items, ⟨.unavailableResource, none, []⟩)
      | some last => (items.dropLast, ⟨.success, some (some last.1), []⟩)
  | .search none _ _ => (items, ⟨.invalidHandle, none, []⟩)
  | .search (some equal) data_p rm_if_found =>
      if items = [] then (items, ⟨.unavailableResource, none, []⟩)
      else
        match items.find? fun item => equal item.1 with
        | none => (items, ⟨.success, if data_p then some none else none, []⟩)
        | some item =>
            (if rm_if_found then items.eraseP fun item => equal item.1 else items,
              ⟨.success, if data_p then some (some item.1) else none,
                if rm_if_found && !data_p then (deallocCall item).toList else []⟩)
  | .flush => ([], ⟨.success, none, items.filterMap deallocCall⟩)

def functionalRun (items : List (α × Option δ)) :
    List (ListCall α δ) → List (α × Option δ) × List (Answer α δ)
  | [] => (items, [])
  | c :: calls =>
      let (items, answer) := functionalCall items c
      let (items, answers) := functionalRun items calls
      (items, answer :: answers)

/-! ## One call -/

/-- The list holds the items, from its head to its tail. -/
def Shows (list : LinkedList α δ) (items : List (α × Option δ)) : Prop :=
  ∃ cells, Holds list cells ∧ cells.map Prod.snd = items

section Calls

variable {list : LinkedList α δ} {items : List (α × Option δ)}

theorem shows_iff : Shows list items ↔ Represents list items.reverse := by
  constructor
  · rintro ⟨cells, hholds, rfl⟩
    exact ⟨cells, hholds, rfl⟩
  · rintro ⟨cells, hholds, hitems⟩
    exact ⟨cells, hholds, (List.reverse_injective hitems).symm⟩

theorem remove_refines (h : Shows list items) :
    ∃ next, call list (.remove true) = some (next, (functionalCall items (.remove true)).2) ∧
      Shows next (functionalCall items (.remove true)).1 := by
  have hreverse := shows_iff.mp h
  rcases items.eq_nil_or_concat' with rfl | ⟨first, last, rfl⟩
  · refine ⟨list, ?_, h⟩
    rw [call, linkedListRemove_nil hreverse]
    rfl
  · rw [List.reverse_append, List.reverse_singleton, List.singleton_append] at hreverse
    obtain ⟨removed, hremove, hrest⟩ := linkedListRemove_cons hreverse
    refine ⟨removed, ?_, ?_⟩
    · rw [call, hremove, functionalCall, List.getLast?_concat]
      rfl
    · rw [functionalCall, List.getLast?_concat]
      dsimp only
      rw [List.dropLast_concat]
      exact shows_iff.mpr hrest

/-- The first match is behind what is rejected, and is what a removal takes off. -/
theorem find?_split {p : α × Option δ → Bool} {item : α × Option δ}
    (hfind : items.find? p = some item) :
    ∃ before after, items = before ++ item :: after ∧ (∀ other ∈ before, p other = false) ∧
      p item = true ∧ items.eraseP p = before ++ after := by
  obtain ⟨haccepted, before, after, hsplit, hrejected⟩ := List.find?_eq_some_iff_append.mp hfind
  have hno : ∀ other ∈ before, p other = false := by
    intro other hother
    simpa using hrejected other hother
  refine ⟨before, after, hsplit, hno, haccepted, ?_⟩
  have hskipped : ∀ other ∈ before, ¬ p other = true := fun other hother =>
    Bool.eq_false_iff.mp (hno other hother)
  rw [hsplit, List.eraseP_append_right _ hskipped, List.eraseP_cons_of_pos haccepted]

theorem search_refines (h : Shows list items) (equal : α → Bool) (data_p rm_if_found : Bool) :
    ∃ next, call list (.search (some equal) data_p rm_if_found) =
        some (next, (functionalCall items (.search (some equal) data_p rm_if_found)).2) ∧
      Shows next (functionalCall items (.search (some equal) data_p rm_if_found)).1 := by
  obtain ⟨cells, hholds, rfl⟩ := h
  rw [call, functionalCall]
  cases cells with
  | nil =>
      have htail : list.p_tail = none := hholds.tail
      refine ⟨list, ?_, [], hholds, rfl⟩
      unfold linkedListSearch
      rw [htail]
      rfl
  | cons cell rest =>
      rw [if_neg (by simp)]
      cases hfind : ((cell :: rest).map Prod.snd).find? fun item => equal item.1 with
      | none =>
          have hrejected : ∀ other ∈ cell :: rest, equal other.2.1 = false := by
            intro other hother
            have hnot := List.find?_eq_none.mp hfind other.2 (List.mem_map_of_mem hother)
            exact Bool.eq_false_iff.mpr hnot
          exact ⟨list, linkedListSearch_rejected hholds (List.cons_ne_nil _ _) hrejected _ _,
            cell :: rest, hholds, rfl⟩
      | some item =>
          obtain ⟨skipped, others, hsplit, hrejected, haccepted, herase⟩ := find?_split hfind
          obtain ⟨before, middle, hcells, rfl, hmiddle⟩ := List.map_eq_append_iff.mp hsplit
          obtain ⟨⟨address, found⟩, after, rfl, rfl, rfl⟩ := List.map_eq_cons_iff.mp hmiddle
          have hbefore : ∀ other ∈ before, equal other.2.1 = false := fun other hother =>
            hrejected other.2 (List.mem_map_of_mem hother)
          rw [hcells] at hholds
          obtain ⟨searched, hsearch, hnext⟩ :=
            linkedListSearch_found hholds hbefore haccepted data_p rm_if_found
          refine ⟨searched, hsearch, _, hnext, ?_⟩
          dsimp only
          split
          · rw [herase, List.map_append]
          · rw [hcells]

/-- A call answers what the functional list answers, and shows what it has then. -/
theorem call_refines (h : Shows list items) {c : ListCall α δ} (hfresh : Fresh list c) :
    ∃ next, call list c = some (next, (functionalCall items c).2) ∧
      Shows next (functionalCall items c).1 := by
  cases c with
  | add data_obj dealloc malloc =>
      match data_obj, malloc with
      | none, _ => exact ⟨list, rfl, h⟩
      | some data, none => exact ⟨list, rfl, h⟩
      | some data, some elem =>
          obtain ⟨added, hadd, hitems⟩ := linkedListAdd_spec (shows_iff.mp h) hfresh data dealloc
          rw [← List.reverse_cons] at hitems
          refine ⟨added, ?_, shows_iff.mpr hitems⟩
          rw [call, hadd]
          rfl
  | remove data_obj =>
      cases data_obj with
      | false => exact ⟨list, rfl, h⟩
      | true => exact remove_refines h
  | search equal data_p rm_if_found =>
      cases equal with
      | none => exact ⟨list, rfl, h⟩
      | some equal => exact search_refines h equal data_p rm_if_found
  | flush =>
      obtain ⟨flushed, hflush, hempty⟩ := linkedListFlush_spec (shows_iff.mp h)
      rw [List.reverse_reverse] at hflush
      refine ⟨flushed, ?_, shows_iff.mpr hempty⟩
      rw [call, hflush]
      rfl

theorem runCalls_refines (h : Shows list items) {calls : List (ListCall α δ)}
    (hfresh : FreshMallocs list calls) :
    ∃ final, runCalls list calls = some (final, (functionalRun items calls).2) ∧
      Shows final (functionalRun items calls).1 := by
  induction calls generalizing list items with
  | nil => exact ⟨list, rfl, h⟩
  | cons c calls ih =>
      obtain ⟨hhere, hlater⟩ := hfresh
      obtain ⟨next, hcall, hnext⟩ := call_refines h hhere
      have hafter : afterCall list c = some next := by rw [afterCall, hcall, Option.map_some]
      obtain ⟨final, hrun, hfinal⟩ := ih hnext (hlater next hafter)
      refine ⟨final, ?_, hfinal⟩
      rw [runCalls, hcall, Option.bind_some]
      dsimp only
      rw [hrun]
      rfl

end Calls

/-! ## What becomes of an element -/

/-- What a call adds, by its answer. -/
def addedBy : ListCall α δ × Answer α δ → List (α × Option δ)
  | (.add (some data) dealloc _, answer) =>
      if answer.err = .success then [(data, dealloc)] else []
  | _ => []

/-- The data of an element that a call takes off and hands to its caller. -/
def handedBy : ListCall α δ × Answer α δ → List α
  | (.remove _, answer) | (.search _ _ true, answer) => answer.output.join.toList
  | _ => []

/-- The elements whose dealloc function is called. -/
def deallocatedBy (answer : Answer α δ) : List (α × Option δ) :=
  answer.calls.map fun (dealloc, data) => (data, some dealloc)

/-- What is added to the items stays, is handed out, is deallocated, or had no dealloc
function. -/
def Accounts (items added rest : List (α × Option δ)) (handed : List α)
    (deallocated : List (α × Option δ)) : Prop :=
  ∃ out dropped : List (α × Option δ), out.map Prod.fst = handed ∧
    (∀ item ∈ dropped, item.2 = none) ∧
    (items ++ added).Perm (rest ++ (out ++ (deallocated ++ dropped)))

section Accounts

variable {items rest : List (α × Option δ)}

theorem Accounts.refl (items : List (α × Option δ)) : Accounts items [] items [] [] :=
  ⟨[], [], rfl, nofun, .refl _⟩

theorem Accounts.trans {middle added more deallocated others : List (α × Option δ)}
    {handed later : List α} (h : Accounts items added middle handed deallocated)
    (hlater : Accounts middle more rest later others) :
    Accounts items (added ++ more) rest (handed ++ later) (deallocated ++ others) := by
  obtain ⟨out, dropped, rfl, hdropped, hperm⟩ := h
  obtain ⟨out', dropped', rfl, hdropped', hperm'⟩ := hlater
  refine ⟨out ++ out', dropped ++ dropped', List.map_append, ?_, ?_⟩
  · intro item hitem
    exact (List.mem_append.mp hitem).elim (hdropped item) (hdropped' item)
  · simp only [← Multiset.coe_eq_coe, ← Multiset.coe_add] at hperm hperm' ⊢
    rw [← add_assoc, hperm, add_right_comm, hperm']
    abel

theorem accounts_added (items : List (α × Option δ)) (item : α × Option δ) :
    Accounts items [item] (item :: items) [] [] := by
  refine ⟨[], [], rfl, nofun, ?_⟩
  have hswap : (items ++ [item]).Perm ([item] ++ items) := List.perm_append_comm
  rwa [← List.append_nil ([item] ++ items)] at hswap

theorem accounts_handed {item : α × Option δ} (h : items.Perm (item :: rest)) :
    Accounts items [] rest [item.1] [] := by
  refine ⟨[item], [], rfl, nofun, ?_⟩
  have hmiddle : (item :: rest).Perm (rest ++ [item]) := (List.perm_append_singleton item rest).symm
  simpa using h.trans hmiddle

/-- An element that is not handed out is deallocated, if it has a dealloc function. -/
theorem accounts_deallocated {item : α × Option δ} (h : items.Perm (item :: rest)) :
    Accounts items [] rest []
      ((deallocCall item).toList.map fun (dealloc, data) => (data, some dealloc)) := by
  have hmiddle : (item :: rest).Perm (rest ++ [item]) := (List.perm_append_singleton item rest).symm
  obtain ⟨data, dealloc⟩ := item
  cases dealloc with
  | none =>
      refine ⟨[], [(data, none)], rfl, ?_, ?_⟩
      · rintro other hother
        rw [List.mem_singleton.mp hother]
      · simpa [deallocCall] using h.trans hmiddle
  | some dealloc =>
      refine ⟨[], [], rfl, nofun, ?_⟩
      simpa [deallocCall] using h.trans hmiddle

/-- A flush calls the dealloc functions there are. -/
theorem flush_accounts (items : List (α × Option δ)) :
    Accounts items [] [] []
      ((items.filterMap deallocCall).map fun (dealloc, data) => (data, some dealloc)) := by
  induction items with
  | nil => exact .refl _
  | cons item items ih =>
      have hfirst := accounts_deallocated (List.Perm.refl (item :: items))
      have hall := hfirst.trans ih
      rw [← List.map_append] at hall
      rw [List.filterMap_cons]
      cases hcall : deallocCall item with
      | none => rwa [hcall] at hall
      | some call => rwa [hcall] at hall

theorem search_accounts (items : List (α × Option δ)) (equal : α → Bool)
    (data_p rm_if_found : Bool) :
    let c := ListCall.search (some equal) data_p rm_if_found
    Accounts items (addedBy (c, (functionalCall items c).2)) (functionalCall items c).1
      (handedBy (c, (functionalCall items c).2)) (deallocatedBy (functionalCall items c).2) := by
  dsimp only
  rw [functionalCall]
  split
  · cases rm_if_found <;> exact .refl items
  · split
    · cases rm_if_found <;> cases data_p <;> exact .refl items
    · rename_i item hfind
      cases rm_if_found with
      | false => exact .refl items
      | true =>
          have herase : items.Perm (item :: items.eraseP fun item => equal item.1) := by
            obtain ⟨before, after, hsplit, -, -, hrest⟩ := find?_split hfind
            rw [hrest, hsplit]
            exact List.perm_middle
          cases data_p with
          | true => exact accounts_handed herase
          | false => exact accounts_deallocated herase

theorem functionalCall_accounts (items : List (α × Option δ)) (c : ListCall α δ) :
    Accounts items (addedBy (c, (functionalCall items c).2)) (functionalCall items c).1
      (handedBy (c, (functionalCall items c).2)) (deallocatedBy (functionalCall items c).2) := by
  cases c with
  | add data_obj dealloc malloc =>
      match data_obj, malloc with
      | none, _ => exact .refl items
      | some data, none => exact .refl items
      | some data, some elem => exact accounts_added items (data, dealloc)
  | remove data_obj =>
      cases data_obj with
      | false => exact .refl items
      | true =>
          rcases items.eq_nil_or_concat' with rfl | ⟨first, last, rfl⟩
          · exact .refl []
          · rw [functionalCall, List.getLast?_concat]
            dsimp only
            rw [List.dropLast_concat]
            exact accounts_handed List.perm_append_comm
  | search equal data_p rm_if_found =>
      cases equal with
      | none => cases rm_if_found <;> exact .refl items
      | some equal => exact search_accounts items equal data_p rm_if_found
  | flush => exact flush_accounts items

theorem functionalRun_accounts (items : List (α × Option δ)) (calls : List (ListCall α δ)) :
    Accounts items ((calls.zip (functionalRun items calls).2).flatMap addedBy)
      (functionalRun items calls).1 ((calls.zip (functionalRun items calls).2).flatMap handedBy)
      ((functionalRun items calls).2.flatMap deallocatedBy) := by
  induction calls generalizing items with
  | nil => exact .refl items
  | cons c calls ih => exact (functionalCall_accounts items c).trans (ih _)

end Accounts

/-- Whatever the calls are, none goes astray in memory; the list in memory is well formed after
them and holds what the functional list has, which has answered the same. What was added is in the
list, was handed to a caller or passed to its dealloc function, each once, or had no dealloc
function. -/
theorem linked_list_refines {calls : List (ListCall α δ)}
    (hfresh : FreshMallocs linkedListInit calls) :
    ∃ final cells answers, runCalls linkedListInit calls = some (final, answers) ∧
      Holds final cells ∧ (cells.map Prod.snd, answers) = functionalRun [] calls ∧
      ∃ handed dropped : List (α × Option δ),
        handed.map Prod.fst = (calls.zip answers).flatMap handedBy ∧
        (∀ item ∈ dropped, item.2 = none) ∧
        ((calls.zip answers).flatMap addedBy).Perm
          (cells.map Prod.snd ++ (handed ++ (answers.flatMap deallocatedBy ++ dropped))) := by
  have hempty : Shows (linkedListInit : LinkedList α δ) [] :=
    shows_iff.mpr linkedListInit_represents
  obtain ⟨final, hrun, cells, hholds, hcells⟩ := runCalls_refines hempty hfresh
  have haccounts := functionalRun_accounts [] calls
  rw [← hcells] at haccounts
  exact ⟨final, cells, _, hrun, hholds, Prod.ext hcells rfl, haccounts⟩

/-- An element that a search deallocates, one that is handed out, and one that a flush drops. -/
def threeElements : List (ListCall Nat Nat) :=
  [.add (some 5) (some 1) (some 0), .add (some 6) (some 1) (some 1),
    .search (some fun data => data == 6) false true, .add (some 7) none (some 1), .remove true,
    .flush]

theorem linked_list_refines_three :
    ∃ final cells answers, runCalls linkedListInit threeElements = some (final, answers) ∧
      Holds final cells ∧ (cells.map Prod.snd, answers) = functionalRun [] threeElements ∧
      ∃ handed dropped : List (Nat × Option Nat),
        handed.map Prod.fst = (threeElements.zip answers).flatMap handedBy ∧
        (∀ item ∈ dropped, item.2 = none) ∧
        ((threeElements.zip answers).flatMap addedBy).Perm
          (cells.map Prod.snd ++ (handed ++ (answers.flatMap deallocatedBy ++ dropped))) :=
  linked_list_refines (by decide)

end Msm8916.MsgQ
