import ScalarLowering.Planner.Expr

/-!
The sample expressions of the command line: filters and projections over the columns `id BIGINT,
name VARCHAR, price DECIMAL(10, 2), active BOOLEAN, address ROW(city VARCHAR, zip INTEGER)`.
-/

namespace ScalarLowering.CommandLine

def priceType : SqlType := .decimal 10 2

def addressType : SqlType := .row [("city", .varChar none), ("zip", .integer)]

/-- The filter `price * 1.10 > 100.00`. -/
def expensive : PlanExpr :=
  .call ">"
    [ .call "*"
        [ .inputRef 2 priceType,
          .literal (.decimal (.ofUnscaled 110 2)) (.decimal 3 2) ]
        (.decimal 14 4),
      .literal (.decimal (.ofUnscaled 10000 2)) priceType ]
    .boolean

/-- The filter `name LIKE 'A%' AND active`. -/
def activeWithA : PlanExpr :=
  .call "AND"
    [ .call "LIKE" [.inputRef 1 (.varChar none), .literal (.text "A%") (.varChar none)] .boolean,
      .inputRef 3 .boolean ]
    .boolean

def city : PlanExpr := .fieldAccess (.inputRef 4 addressType) "city" (.varChar none)

def nextId : PlanExpr :=
  .call "+" [.inputRef 0 .bigInt, .literal (.exact 1) .bigInt] .bigInt

def samples : List PlanExpr := [expensive, activeWithA, city, nextId]

end ScalarLowering.CommandLine
