import ScalarLowering.Text.Numeral
import ScalarLowering.Text.Quoted

/-!
Outlines of structured values, with two layouts: on one line, and over several lines, where every
part has a line of its own and is followed by a comma.
-/

namespace ScalarLowering

inductive Outline where
  | atom (text : String)
  | record (name : String) (fields : List (String × Outline))
  | tuple (name : String) (items : List Outline)
  | sequence (items : List Outline)

namespace Outline

mutual

def compact : Outline → String
  | .atom text => text
  | .record name fields => name ++ " \x7b " ++ ", ".intercalate (compactFields fields) ++ " \x7d"
  | .tuple name items => name ++ "(" ++ ", ".intercalate (compactItems items) ++ ")"
  | .sequence items => "[" ++ ", ".intercalate (compactItems items) ++ "]"
termination_by structural outline => outline

def compactFields : List (String × Outline) → List String
  | [] => []
  | (name, value) :: rest => (name ++ ": " ++ compact value) :: compactFields rest
termination_by structural fields => fields

def compactItems : List Outline → List String
  | [] => []
  | item :: rest => compact item :: compactItems rest
termination_by structural items => items

end

def margin (level : Nat) : String := String.ofList (List.replicate (4 * level) ' ')

mutual

/-- An outline over several lines. The first line has no margin, the last one that of `level`. -/
def indented (level : Nat) : Outline → String
  | .atom text => text
  | .record name fields =>
      name ++ " \x7b\n" ++ indentedFields (level + 1) fields ++ margin level ++ "\x7d"
  | .tuple name items =>
      name ++ "(\n" ++ indentedItems (level + 1) items ++ margin level ++ ")"
  | .sequence [] => "[]"
  | .sequence items => "[\n" ++ indentedItems (level + 1) items ++ margin level ++ "]"
termination_by structural outline => outline

def indentedFields (level : Nat) : List (String × Outline) → String
  | [] => ""
  | (name, value) :: rest =>
      margin level ++ name ++ ": " ++ indented level value ++ ",\n" ++ indentedFields level rest
termination_by structural fields => fields

def indentedItems (level : Nat) : List Outline → String
  | [] => ""
  | item :: rest => margin level ++ indented level item ++ ",\n" ++ indentedItems level rest
termination_by structural items => items

end

def ofInt (i : Int) : Outline := .atom (Numeral.text i)

def ofText (text : String) : Outline := .atom (Quoted.quote text)

def ofOption {α : Type} (outline : α → Outline) : Option α → Outline
  | none => .atom "None"
  | some value => .tuple "Some" [outline value]

end Outline
end ScalarLowering
