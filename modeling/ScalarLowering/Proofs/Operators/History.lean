import Mathlib.Data.Finset.Card
import ScalarLowering.Proofs.Operators.LetterCase

/-!
What a table of operators answers after a run of requests. All it keeps of the run is, for each name up
to letter case, the function that was entered last; requests that enter nothing leave it as it is.
-/

namespace ScalarLowering.OperatorTable

inductive Request where
  | insert (operator function : String)
  | get? (operator : String)
  | resolve (operator : String)
  | size
  | isEmpty

inductive Reply where
  | inserted
  | function (found : Option String)
  | resolved (result : Except Refusal String)
  | size (count : Nat)
  | isEmpty (empty : Bool)

def serve (table : OperatorTable) : Request → Reply × OperatorTable
  | .insert operator function => (.inserted, table.insert operator function)
  | .get? operator => (.function (table.get? operator), table)
  | .resolve operator => (.resolved (table.resolve operator), table)
  | .size => (.size table.size, table)
  | .isEmpty => (.isEmpty table.isEmpty, table)

def after (table : OperatorTable) (requests : List Request) : OperatorTable :=
  requests.foldl (fun table request => (table.serve request).2) table

def replies : OperatorTable → List Request → List Reply
  | _, [] => []
  | table, request :: rest => (table.serve request).1 :: replies (table.serve request).2 rest

theorem replies_append (table : OperatorTable) (earlier later : List Request) :
    table.replies (earlier ++ later) = table.replies earlier ++ (table.after earlier).replies later := by
  induction earlier generalizing table with
  | nil => rfl
  | cons request rest induction =>
      have others := induction (table.serve request).2
      rw [List.cons_append, replies, others]
      rfl

def Request.entered : Request → List (String × String)
  | .insert operator function => [(operator, function)]
  | .get? _ | .resolve _ | .size | .isEmpty => []

inductive Base where
  | empty
  | standard

namespace Base

def table : Base → OperatorTable
  | .empty => .empty
  | .standard => .standard

def operators : Base → List (String × String)
  | .empty => []
  | .standard => standardOperators

end Base

/-- The last of some entries that has the name of an operator has this function. -/
def LastEntry (entries : List (String × String)) (operator function : String) : Prop :=
  ∃ before name later, entries = before ++ (name, function) :: later ∧ SameButCase operator name ∧
    ∀ entry ∈ later, ¬ SameButCase operator entry.1

/-- The function of an operator is the one that was entered last or else, if none was entered, the one
that the base has. -/
def Assigned (base : Base) (entered : List (String × String)) (operator function : String) : Prop :=
  LastEntry entered operator function ∨
    (∀ entry ∈ entered, ¬ SameButCase operator entry.1) ∧
      ∃ name, (name, function) ∈ base.operators ∧ SameButCase operator name

section LastEntry

variable {entries earlier later : List (String × String)} {operator function : String}

theorem lastEntry_append : LastEntry (earlier ++ later) operator function ↔
    LastEntry later operator function ∨
      (∀ entry ∈ later, ¬ SameButCase operator entry.1) ∧ LastEntry earlier operator function := by
  constructor
  · rintro ⟨before, name, rest, split, same, last⟩
    -- the last entry stands among the later ones, or none of those has the name
    rcases List.append_eq_append_iff.mp split with ⟨inner, _, laterSplit⟩ | ⟨inner, earlierSplit, restSplit⟩
    · exact .inl ⟨inner, name, rest, laterSplit, same, last⟩
    · cases inner with
      | nil => exact .inl ⟨[], name, rest, restSplit.symm, same, last⟩
      | cons entry others =>
          obtain ⟨rfl, rfl⟩ := List.cons.inj restSplit
          have ⟨kept, unnamed⟩ := List.forall_mem_append.mp last
          exact .inr ⟨unnamed, before, name, others, earlierSplit, same, kept⟩
  · rintro (⟨before, name, rest, rfl, same, last⟩ | ⟨unnamed, before, name, rest, rfl, same, last⟩)
    · exact ⟨earlier ++ before, name, rest, (List.append_assoc ..).symm, same, last⟩
    · refine ⟨before, name, rest ++ later, List.append_assoc .., same, ?_⟩
      exact List.forall_mem_append.mpr ⟨last, unnamed⟩

theorem lastEntry_iff_mem (distinct : (entries.map fun entry => foldCase entry.1).Nodup) :
    LastEntry entries operator function ↔
      ∃ name, (name, function) ∈ entries ∧ SameButCase operator name := by
  constructor
  · rintro ⟨before, name, rest, rfl, same, _⟩
    exact ⟨name, by simp, same⟩
  · rintro ⟨name, member, same⟩
    obtain ⟨before, rest, rfl⟩ := List.append_of_mem member
    rw [List.map_append, List.map_cons] at distinct
    have fresh := (List.nodup_cons.mp (List.nodup_append.mp distinct).2.1).1
    refine ⟨before, name, rest, rfl, same, ?_⟩
    intro entry later sameEntry
    have folded : foldCase entry.1 = foldCase name :=
      (foldCase_eq_iff.mpr sameEntry).symm.trans (foldCase_eq_iff.mpr same)
    exact fresh (folded ▸ List.mem_map_of_mem later)

theorem lastEntry_singleton {name held : String} :
    LastEntry [(name, held)] operator function ↔ SameButCase operator name ∧ held = function := by
  have distinct : ([(name, held)].map fun entry => foldCase entry.1).Nodup := List.nodup_singleton _
  rw [lastEntry_iff_mem distinct]
  simp [and_comm, eq_comm]

end LastEntry

def names (table : OperatorTable) : Finset String := (table.entries.map Prod.fst).toFinset

def foldedNames (entries : List (String × String)) : Finset String :=
  (entries.map fun entry => foldCase entry.1).toFinset

section Table

variable {table : OperatorTable} {operator function : String}

theorem size_eq_card_names (table : OperatorTable) : table.size = table.names.card := by
  rw [names, List.toFinset_card_of_nodup table.distinct, List.length_map, size]

theorem isEmpty_iff : table.isEmpty = true ↔ table.size = 0 := by
  rw [isEmpty, size, List.isEmpty_iff, List.length_eq_zero_iff]

theorem names_insert (table : OperatorTable) (operator function : String) :
    (table.insert operator function).names = Insert.insert (foldCase operator) table.names := by
  ext name
  by_cases same : name = foldCase operator
  · simp [names, OperatorTable.insert, same]
  · simp [names, OperatorTable.insert, same]

end Table

/-- A table keeps of the entries that were made, in their order, what it answers from. -/
structure Keeps (table : OperatorTable) (entries : List (String × String)) : Prop where
  functions : ∀ operator function,
    table.get? operator = some function ↔ LastEntry entries operator function
  names : table.names = foldedNames entries

namespace Keeps

variable {table : OperatorTable} {entries : List (String × String)}

theorem empty : Keeps empty [] where
  functions operator function := by
    constructor
    · intro found
      contradiction
    · rintro ⟨before, name, later, split, _⟩
      simp at split
  names := rfl

theorem insert (keeps : Keeps table entries) (operator function : String) :
    Keeps (table.insert operator function) (entries ++ [(operator, function)]) where
  functions name found := by
    rw [get?_insert, lastEntry_append, lastEntry_singleton, ← keeps.functions, List.forall_mem_singleton,
      ← foldCase_eq_iff]
    split
    next same => simp [same]
    next other => simp [other]
  names := by
    rw [names_insert, keeps.names]
    simp [foldedNames, List.toFinset_append, Finset.union_comm]

theorem insertAll (keeps : Keeps table entries) (added : List (String × String)) :
    Keeps (table.insertAll added) (entries ++ added) := by
  induction added generalizing table entries with
  | nil => rwa [List.append_nil]
  | cons entry rest induction =>
      have entered := induction (keeps.insert entry.1 entry.2)
      rwa [List.append_assoc] at entered

theorem serve (keeps : Keeps table entries) (request : Request) :
    Keeps (table.serve request).2 (entries ++ request.entered) := by
  cases request with
  | insert operator function => exact keeps.insert operator function
  | get? | resolve | size | isEmpty => exact (List.append_nil entries).symm ▸ keeps

theorem after (keeps : Keeps table entries) (requests : List Request) :
    Keeps (table.after requests) (entries ++ requests.flatMap Request.entered) := by
  induction requests generalizing table entries with
  | nil =>
      rw [List.flatMap_nil, List.append_nil]
      exact keeps
  | cons request rest induction =>
      rw [List.flatMap_cons, ← List.append_assoc]
      exact induction (keeps.serve request)

theorem ofBase (base : Base) : Keeps base.table base.operators := by
  cases base with
  | empty => exact empty
  | standard => exact empty.insertAll standardOperators

end Keeps

/-- Tables that no request tells apart. Their entries can stand in another order. -/
structure Alike (left right : OperatorTable) : Prop where
  functions : ∀ operator, left.get? operator = right.get? operator
  names : left.names = right.names

namespace Alike

variable {left right : OperatorTable}

theorem size (alike : Alike left right) : left.size = right.size := by
  rw [size_eq_card_names, size_eq_card_names, alike.names]

theorem isEmpty (alike : Alike left right) : left.isEmpty = right.isEmpty := by
  rw [Bool.eq_iff_iff, isEmpty_iff, isEmpty_iff, alike.size]

theorem resolve (alike : Alike left right) (operator : String) :
    left.resolve operator = right.resolve operator := by
  rw [OperatorTable.resolve, OperatorTable.resolve, alike.functions]

theorem insert (alike : Alike left right) (operator function : String) :
    Alike (left.insert operator function) (right.insert operator function) where
  functions name := by rw [get?_insert, get?_insert, alike.functions]
  names := by rw [names_insert, names_insert, alike.names]

theorem reply (alike : Alike left right) (request : Request) :
    (left.serve request).1 = (right.serve request).1 := by
  cases request with
  | insert => rfl
  | get? operator => exact congrArg Reply.function (alike.functions operator)
  | resolve operator => exact congrArg Reply.resolved (alike.resolve operator)
  | size => exact congrArg Reply.size alike.size
  | isEmpty => exact congrArg Reply.isEmpty alike.isEmpty

theorem serve (alike : Alike left right) (request : Request) :
    Alike (left.serve request).2 (right.serve request).2 := by
  cases request with
  | insert operator function => exact alike.insert operator function
  | get? | resolve | size | isEmpty => exact alike

theorem replies (alike : Alike left right) (requests : List Request) :
    left.replies requests = right.replies requests := by
  induction requests generalizing left right with
  | nil => rfl
  | cons request rest induction =>
      have first := alike.reply request
      have others := induction (alike.serve request)
      rw [OperatorTable.replies, OperatorTable.replies, first, others]

end Alike

/-- Which of two operators is entered first does not matter unless they have one name. -/
theorem alike_insert_insert (table : OperatorTable) {left right : String}
    (other : ¬ SameButCase left right) (leftFunction rightFunction : String) :
    Alike ((table.insert left leftFunction).insert right rightFunction)
      ((table.insert right rightFunction).insert left leftFunction) where
  functions operator := by
    have unequal : foldCase left ≠ foldCase right := mt foldCase_eq_iff.mp other
    simp only [get?_insert]
    by_cases isLeft : foldCase operator = foldCase left
    · rw [if_neg (isLeft ▸ unequal), if_pos isLeft, if_pos isLeft]
    · rw [if_neg isLeft, if_neg isLeft]
  names := by simp only [names_insert, Finset.insert_comm]

theorem replies_swap (table : OperatorTable) {left right : String} (other : ¬ SameButCase left right)
    (leftFunction rightFunction : String) (later : List Request) :
    table.replies (.insert left leftFunction :: .insert right rightFunction :: later) =
      table.replies (.insert right rightFunction :: .insert left leftFunction :: later) := by
  have alike := alike_insert_insert table other leftFunction rightFunction
  exact congrArg (Reply.inserted :: Reply.inserted :: ·) (alike.replies later)

theorem serve_keeps_table (table : OperatorTable) {request : Request} (entersNone : request.entered = []) :
    (table.serve request).2 = table := by
  cases request with
  | insert => contradiction
  | get? | resolve | size | isEmpty => rfl

theorem standardOperators_distinct : (standardOperators.map fun entry => foldCase entry.1).Nodup := by
  decide +kernel

theorem lastEntry_base_iff {base : Base} {operator function : String} :
    LastEntry base.operators operator function ↔
      ∃ name, (name, function) ∈ base.operators ∧ SameButCase operator name := by
  cases base with
  | empty => exact lastEntry_iff_mem List.nodup_nil
  | standard => exact lastEntry_iff_mem standardOperators_distinct

theorem get?_after_iff (base : Base) (requests : List Request) (operator function : String) :
    (base.table.after requests).get? operator = some function ↔
      Assigned base (requests.flatMap Request.entered) operator function := by
  have keeps := (Keeps.ofBase base).after requests
  rw [keeps.functions, lastEntry_append, lastEntry_base_iff, Assigned]

/-- A table holds, for each name up to letter case, the function that was entered last. A refusal gives
the operator as it was written, the size counts names, look-ups leave the table, and operators of
different names can be entered in either order. -/
theorem after_holds_last_entries (base : Base) (requests : List Request) :
    let entered := requests.flatMap Request.entered
    let table := base.table.after requests
    (∀ operator function,
        table.get? operator = some function ↔ Assigned base entered operator function) ∧
      (∀ operator function,
        table.resolve operator = .ok function ↔ Assigned base entered operator function) ∧
      (∀ operator refusal, table.resolve operator = .error refusal ↔
        refusal = .unknownOperator operator ∧ ∀ function, ¬ Assigned base entered operator function) ∧
      table.size = (foldedNames (base.operators ++ entered)).card ∧
      (table.isEmpty = true ↔ table.size = 0) ∧
      (∀ request : Request, request.entered = [] → (table.serve request).2 = table) ∧
      ∀ left right leftFunction rightFunction later, ¬ SameButCase left right →
        base.table.replies (requests ++
            Request.insert left leftFunction :: Request.insert right rightFunction :: later) =
          base.table.replies (requests ++
            Request.insert right rightFunction :: Request.insert left leftFunction :: later) := by
  intro entered table
  have keeps : Keeps table (base.operators ++ entered) := (Keeps.ofBase base).after requests
  have functions := get?_after_iff base requests
  refine ⟨functions, ?_, ?_, ?_, isEmpty_iff, ?_, ?_⟩
  · intro operator function
    rw [resolve_eq_ok_iff, functions]
  · intro operator refusal
    simp only [resolve_eq_error_iff, Option.eq_none_iff_forall_ne_some, ne_eq, functions, table]
    rfl
  · rw [size_eq_card_names, keeps.names]
  · intro request entersNone
    exact serve_keeps_table table entersNone
  · intro left right leftFunction rightFunction later other
    rw [replies_append, replies_append, replies_swap _ other]

/-- Only ASCII letters are folded: the two accented letters are two names. -/
theorem after_holds_last_entries_ilike :
    let requests : List Request := [.insert "like" "ilike", .get? "Like", .size]
    let table := Base.standard.table.after requests
    table.get? "LIKE" = some "ilike" ∧
      table.resolve "Like" = .ok "ilike" ∧
      table.resolve "Soundex" = .error (.unknownOperator "Soundex") ∧
      table.size = 21 ∧ table.isEmpty = false ∧
      (table.serve (.get? "Soundex")).2 = table ∧
      ¬ SameButCase "é" "É" ∧
      Base.standard.table.replies (requests ++
          [Request.insert "é" "acute", Request.insert "É" "capital", Request.get? "É"]) =
        Base.standard.table.replies (requests ++
          [Request.insert "É" "capital", Request.insert "é" "acute", Request.get? "É"]) := by
  intro requests table
  obtain ⟨functions, resolved, refused, counted, emptied, kept, swapped⟩ :=
    after_holds_last_entries .standard requests
  have assigned (operator : String) (same : SameButCase operator "like") :
      Assigned .standard [("like", "ilike")] operator "ilike" :=
    .inl ⟨[], "like", [], rfl, same, by simp⟩
  have unassigned (function : String) : ¬ Assigned .standard [("like", "ilike")] "Soundex" function := by
    have unnamed : ∀ entry ∈ standardOperators ++ [("like", "ilike")],
        ¬ SameButCase "Soundex" entry.1 := by decide +kernel
    rintro (⟨before, name, later, split, same, -⟩ | ⟨-, name, member, same⟩)
    · have member : (name, function) ∈ [("like", "ilike")] := by simp [split]
      exact unnamed _ (List.mem_append_right _ member) same
    · exact unnamed _ (List.mem_append_left _ member) same
  have twentyOne : table.size = 21 := counted.trans (by decide +kernel)
  have filled : table.isEmpty = false := by
    rw [← Bool.not_eq_true, emptied, twentyOne]
    decide
  have accented : ¬ SameButCase "é" "É" := by decide
  exact ⟨(functions _ _).mpr (assigned "LIKE" (by decide)),
    (resolved _ _).mpr (assigned "Like" (by decide)), (refused _ _).mpr ⟨rfl, unassigned⟩, twentyOne,
    filled, kept _ rfl, accented, swapped _ _ _ _ _ accented⟩

end ScalarLowering.OperatorTable
