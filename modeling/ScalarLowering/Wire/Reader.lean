import ScalarLowering.Wire.Fault

/-!
Readers of byte strings. A reader takes bytes from the front and leaves the rest, or stops at a
fault.
-/

namespace ScalarLowering.Wire

abbrev Reader := StateT (List UInt8) (Except Fault)

namespace Reader

variable {α : Type}

def fail (fault : Fault) : Reader α := fun _ => .error fault

def byte (short : Fault) : Reader UInt8 := fun
  | [] => .error short
  | byte :: rest => .ok (byte, rest)

def many (item : Reader α) : Nat → Reader (List α)
  | 0 => return []
  | count + 1 => do
      let first ← item
      let others ← many item count
      return first :: others

def take (short : Fault) (count : Nat) : Reader (List UInt8) := many (byte short) count

theorem take_append (short : Fault) (bytes rest : List UInt8) :
    take short bytes.length (bytes ++ rest) = .ok (bytes, rest) := by
  induction bytes with
  | nil => rfl
  | cons first others induction =>
      change (do
        let (taken, left) ← take short others.length (others ++ rest)
        return (first :: taken, left) : Except Fault (List UInt8 × List UInt8)) = _
      rw [induction]
      rfl

theorem take_eq_error {short : Fault} {count : Nat} {bytes : List UInt8}
    (fewer : bytes.length < count) : take short count bytes = .error short := by
  induction count generalizing bytes with
  | zero => contradiction
  | succ count induction =>
      match bytes with
      | [] => rfl
      | first :: others =>
          change (do
            let (taken, left) ← take short count others
            return (first :: taken, left) : Except Fault (List UInt8 × List UInt8)) = _
          rw [induction (Nat.lt_of_succ_lt_succ fewer)]
          rfl

end Reader
end ScalarLowering.Wire
