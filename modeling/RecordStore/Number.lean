import RecordStore.Double

/-!
# Numbers of a document

A number is an integer or a double, and keeps the form in which it was given: `1` and `1.0` are
different numbers of equal value. Wherever numbers are compared they are compared as doubles,
through `Number.toDouble`.
-/

namespace RecordStore

inductive Number where
  /-- An integer. Those that are read lie between `-2 ^ 63` and `2 ^ 64`. -/
  | int (n : Int)
  | double (d : Double)
deriving DecidableEq, Inhabited

namespace Number

def toDouble : Number → Double
  | int n => Double.ofInt n
  | double d => d

def equal (a b : Number) : Bool := a.toDouble.equal b.toDouble

protected def compare (a b : Number) : Ordering := a.toDouble.compare b.toDouble

/-- The integer, if the number is one that a signed 64-bit word holds. -/
def int64? : Number → Option Int64
  | int n => if -2 ^ 63 ≤ n ∧ n < 2 ^ 63 then some (Int64.ofInt n) else none
  | double _ => none

/-- The integer, if the number is one that an unsigned 64-bit word holds. -/
def uint64? : Number → Option UInt64
  | int n => if 0 ≤ n ∧ n < 2 ^ 64 then some (UInt64.ofNat n.toNat) else none
  | double _ => none

end Number

end RecordStore
