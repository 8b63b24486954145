import ShardedLedger.Json.Form

namespace ShardedLedger

-- An addition or subtraction whose result does not fit its word stops what it was part of.
inductive Overflow where
  | addition
  | subtraction
  deriving DecidableEq

def Overflow.message : Overflow → String
  | .addition => "attempt to add with overflow"
  | .subtraction => "attempt to subtract with overflow"

abbrev Amount := Int64

namespace Amount

def least : Int := -0x8000000000000000

def greatest : Int := 0x7FFFFFFFFFFFFFFF

def ofInt? (value : Int) : Option Amount :=
  if least ≤ value ∧ value ≤ greatest then some (.ofInt value) else none

def plus (a b : Amount) : Except Overflow Amount :=
  match ofInt? (a.toInt + b.toInt) with
  | some sum => .ok sum
  | none => .error .addition

def minus (a b : Amount) : Except Overflow Amount :=
  match ofInt? (a.toInt - b.toInt) with
  | some difference => .ok difference
  | none => .error .subtraction

end Amount

-- Amounts by currency. A currency that is not listed has the amount zero.
structure Pool where
  amounts : SortedMap String Amount
  deriving DecidableEq

namespace Pool

def empty : Pool := ⟨.empty⟩

instance : Inhabited Pool := ⟨empty⟩

def amount (pool : Pool) (currency : String) : Amount := (pool.amounts.get? currency).getD 0

def set (pool : Pool) (currency : String) (amount : Amount) : Pool :=
  ⟨pool.amounts.insert currency amount⟩

-- Takes the currencies of a list in turn and stops at the first whose result does not fit;
-- those before it keep their new amounts.
def combineEach (combine : Amount → Amount → Except Overflow Amount) :
    List (String × Amount) → Pool → Pool × Option Overflow
  | [], pool => (pool, none)
  | (currency, amount) :: rest, pool =>
      match combine (pool.amount currency) amount with
      | .ok result => combineEach combine rest (pool.set currency result)
      | .error overflow => (pool, some overflow)

def complete (result : Pool × Option Overflow) : Except Overflow Pool :=
  match result with
  | (pool, none) => .ok pool
  | (_, some overflow) => .error overflow

-- Adds in place, so an overflow leaves behind what was added before it.
def accumulate (pool other : Pool) : Pool × Option Overflow :=
  combineEach Amount.plus other.amounts.entries pool

def plus (pool other : Pool) : Except Overflow Pool := complete (pool.accumulate other)

def minus (pool other : Pool) : Except Overflow Pool :=
  complete (combineEach Amount.minus other.amounts.entries pool)

def isEmpty (pool : Pool) : Bool := pool.amounts.values.all (· == 0)

-- Whether some currency listed in the pool is above the limit's.
def exceeds (pool limit : Pool) : Bool :=
  pool.amounts.entries.any fun (currency, amount) => limit.amount currency < amount

def toJson (pool : Pool) : Json := .ofMap (fun amount => .int amount.toInt) pool.amounts

def amountForm : Form Amount := (Form.integer "i64" Amount.least Amount.greatest).map Int64.ofInt

def form : Form Pool := (Form.dict amountForm).map Pool.mk

end Pool

end ShardedLedger
