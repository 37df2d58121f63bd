import ScalarLowering.Lowering.Refusal

/-!
Tables from operator names to engine functions. Names that differ in the case of ASCII letters only
are the same name: a table holds each name once, in upper case, and the function that was entered
last.
-/

namespace ScalarLowering

abbrev Resolver := String → Except Refusal String

/-- A name with its ASCII letters in upper case. -/
def foldCase (name : String) : String := String.ofList (name.toList.map Char.toUpper)

structure OperatorTable where
  entries : List (String × String)
  distinct : (entries.map Prod.fst).Nodup

namespace OperatorTable

def empty : OperatorTable := ⟨[], by simp⟩

/-- Enters the function of an operator, in place of an earlier one. -/
def insert (table : OperatorTable) (operator function : String) : OperatorTable where
  entries :=
    (foldCase operator, function) :: table.entries.filter fun entry => entry.1 ≠ foldCase operator
  distinct := by
    refine List.nodup_cons.mpr ⟨?_, ?_⟩
    · simp
    · exact table.distinct.sublist (List.filter_sublist.map Prod.fst)

def get? (table : OperatorTable) (operator : String) : Option String :=
  table.entries.lookup (foldCase operator)

def size (table : OperatorTable) : Nat := table.entries.length

def isEmpty (table : OperatorTable) : Bool := table.entries.isEmpty

/-- Finds the function of an operator. A refusal names the operator as it was written. -/
def resolve (table : OperatorTable) : Resolver := fun operator =>
  match table.get? operator with
  | some function => .ok function
  | none => .error (.unknownOperator operator)

def insertAll (table : OperatorTable) (operators : List (String × String)) : OperatorTable :=
  operators.foldl (fun table operator => table.insert operator.1 operator.2) table

def standardOperators : List (String × String) :=
  [ ("+", "add"), ("-", "subtract"), ("*", "multiply"), ("/", "divide"), ("%", "mod"),
    ("MOD", "mod"), ("=", "equalto"), ("<>", "notequalto"), (">", "greaterthan"),
    (">=", "greaterthanorequal"), ("<", "lessthan"), ("<=", "lessthanorequal"), ("AND", "and"),
    ("OR", "or"), ("NOT", "not"), ("CAST", "cast"), ("IS NULL", "isnull"),
    ("IS NOT NULL", "isnotnull"), ("LIKE", "like"), ("||", "concat"), ("CONCAT", "concat") ]

def standard : OperatorTable := empty.insertAll standardOperators

@[simp] theorem get?_empty (name : String) : empty.get? name = none := rfl

theorem lookup_filter_of_ne {entered name : String} (other : name ≠ entered)
    (entries : List (String × String)) :
    (entries.filter fun entry => entry.1 ≠ entered).lookup name = entries.lookup name := by
  induction entries with
  | nil => rfl
  | cons entry rest induction =>
      by_cases removed : entry.1 = entered
      · have passed : (name == entry.1) = false := beq_eq_false_iff_ne.mpr (removed ▸ other)
        rw [List.filter_cons_of_neg (by simpa using removed), List.lookup_cons, passed]
        exact induction
      · rw [List.filter_cons_of_pos (by simpa using removed), List.lookup_cons, List.lookup_cons,
          induction]

/-- Entering an operator changes the function of that operator only, whatever the case of its
letters. -/
theorem get?_insert (table : OperatorTable) (operator function name : String) :
    (table.insert operator function).get? name =
      if foldCase name = foldCase operator then some function else table.get? name := by
  change List.lookup (foldCase name) ((foldCase operator, function) ::
    table.entries.filter fun entry => entry.1 ≠ foldCase operator) = _
  rw [List.lookup_cons]
  by_cases same : foldCase name = foldCase operator
  · simp [same]
  · rw [beq_eq_false_iff_ne.mpr same, if_neg same]
    exact lookup_filter_of_ne same table.entries

end OperatorTable
end ScalarLowering
