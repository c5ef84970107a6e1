import InverterDashboard.Python.Text
import InverterDashboard.Python.Float
import InverterDashboard.Python.Dict

/-
  The values `json.loads` produces, and what Python compares and tests on them.

  An object inside a value keeps its members as an entry list, so that values stay a plain
  inductive type; an object a function iterates over is a `Dict`. `eqv` is `==`: integers,
  floats and booleans compare by value, objects without regard to the order of their members.
-/

namespace Python

inductive Value where
  | none
  | bool (b : Bool)
  | int (i : Int)
  | float (x : Float64)
  | str (s : Str)
  | list (xs : List Value)
  | dict (members : List (Str × Value))

namespace Value

instance : Inhabited Value := ⟨.none⟩

/-- The exact number a finite numeric value denotes; `True` is 1 and `False` is 0. -/
def rat? : Value → Option ℚ
  | .bool b => some (if b then 1 else 0)
  | .int i => some i
  | .float x => x.finite?
  | _ => Option.none

/-- Equality of numbers that are not both finite. The program compares a state with its own
    shallow copy, where an unchanged NaN is the same object and so counts as equal. -/
def sameSpecial : Value → Value → Bool
  | .float x, .float y => x = y
  | _, _ => false

mutual

/-- `a == b`. -/
def eqv : Value → Value → Bool
  | .none, b => match b with
    | .none => true
    | _ => false
  | .str s, b => match b with
    | .str t => s = t
    | _ => false
  | .list xs, b => match b with
    | .list ys => eqvList xs ys
    | _ => false
  | .dict es, b => match b with
    | .dict fs => es.length = fs.length && eqvMembers es fs
    | _ => false
  | .bool p, b => b.rat? = some (if p then 1 else 0)
  | .int i, b => b.rat? = some (i : ℚ)
  | .float x, b => match x.finite? with
    | some q => b.rat? = some q
    | Option.none => sameSpecial (.float x) b

def eqvList : List Value → List Value → Bool
  | [], ys => ys.isEmpty
  | x :: xs, ys => match ys with
    | [] => false
    | y :: ys => eqv x y && eqvList xs ys

def eqvMembers : List (Str × Value) → List (Str × Value) → Bool
  | [], _ => true
  | (k, v) :: es, fs => (match Dict.find k fs with
    | some w => eqv v w
    | Option.none => false) && eqvMembers es fs

end

/-- `isinstance(v, dict)`, with the members. -/
def dict? : Value → Option (List (Str × Value))
  | .dict es => some es
  | _ => Option.none

/-- `v.get(k)` of an object. -/
def member (k : Str) (es : List (Str × Value)) : Value := (Dict.find k es).getD .none

/-- `v is True`. -/
def isTrue : Value → Bool
  | .bool b => b
  | _ => false

/-- `v is False`. -/
def isFalse : Value → Bool
  | .bool b => !b
  | _ => false

/-- `v is None`. -/
def isNone : Value → Bool
  | .none => true
  | _ => false

@[simp] theorem isTrue_eq_true (v : Value) : v.isTrue = true ↔ v = .bool true := by
  cases v <;> simp [isTrue]

@[simp] theorem isFalse_eq_true (v : Value) : v.isFalse = true ↔ v = .bool false := by
  cases v <;> simp [isFalse]

@[simp] theorem isNone_eq_true (v : Value) : v.isNone = true ↔ v = .none := by
  cases v <;> simp [isNone]

end Value

/-- A JSON object as a message body. -/
abbrev Object := Dict Str Value

/-- `d.get(k)` where an absent member reads as `None`. -/
def Object.getD (o : Object) (k : Str) : Value := (o.get? k).getD .none

/-- `a == b` of two dicts. -/
def Object.eqv (a b : Object) : Bool := Value.eqv (.dict a.entries) (.dict b.entries)

/-- A payload as `json.loads` sees it: no bytes at all, bytes it rejects, or a value. -/
inductive Payload where
  | empty
  | malformed
  | json (v : Value)

end Python
