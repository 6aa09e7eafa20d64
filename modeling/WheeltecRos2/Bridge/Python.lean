/-
The Python values the bridge handles.

`Json` is what `recv_json` returns.  `PyNum` collects the operations of Python
floats, `int(..)`, `float(..)` and `str(..)` that the node uses; nothing is assumed
about them, so every result holds of IEEE doubles as of exact numbers.  The
conversions the node is built from (`get`, `safeFloat`, `clamp`) return the
exception they raise.  The instance for `ℚ` computes exactly and serves the
concrete runs.
-/
import Mathlib.Data.Rat.Defs
import Mathlib.Data.Nat.Sqrt

namespace Bridge

/-- A decoded JSON value. -/
inductive Json (F : Type)
  | null
  | bool (b : Bool)
  | int (n : ℤ)
  | float (x : F)
  | str (s : String)
  | list (items : List (Json F))
  | dict (fields : List (String × Json F))

/-- Built-in exceptions, without their text. -/
inductive Builtin
  | valueError
  | typeError
  | overflowError
  | attributeError
  | processLookupError
  | timeoutExpired
  | osError

/-- An exception that leaves a handler: raised by the node with its own message
or by a built-in. -/
inductive PyError
  | raised (message : String)
  | builtin (kind : Builtin)

/-- Float arithmetic and the built-in conversions.  `none` stands for the
exception of the conversion. -/
class PyNum (F : Type) extends Add F, Sub F, Mul F, Div F where
  lit : ℚ → F
  lt : F → F → Bool
  le : F → F → Bool
  isZero : F → Bool
  isFinite : F → Bool
  sqrt : F → F
  sin : F → F
  cos : F → F
  floatOfInt : ℤ → Option F
  floatOfStr : String → Option F
  intOfFloat : F → Except Builtin ℤ
  intOfStr : String → Option ℤ
  strOf : Json F → String
  strOfBuiltin : Builtin → String

open PyNum

/-- Exact numbers.  `sqrt` is exact on squares, `sin` and `cos` at zero; texts
are no numbers. -/
instance : PyNum ℚ where
  lit := id
  lt x y := decide (x < y)
  le x y := decide (x ≤ y)
  isZero x := x == 0
  isFinite _ := true
  sqrt x := (x.num.toNat.sqrt : ℚ) / (x.den.sqrt : ℚ)
  sin _ := 0
  cos _ := 1
  floatOfInt n := some n
  floatOfStr _ := none
  intOfFloat x := .ok (x.num.tdiv x.den)
  intOfStr _ := none
  strOf
    | .str s => s
    | _ => ""
  strOfBuiltin _ := ""

variable {F : Type} [PyNum F]

/-- `str(e)`. -/
def PyError.str (F : Type) [PyNum F] : PyError → String
  | .raised message => message
  | .builtin kind => strOfBuiltin F kind

namespace Json

/-- `bool(value)`. -/
def truthy : Json F → Bool
  | .null => false
  | .bool b => b
  | .int n => n != 0
  | .float x => !isZero x
  | .str s => s != ""
  | .list items => !items.isEmpty
  | .dict fields => !fields.isEmpty

/-- `value or fallback`. -/
def orElse (value fallback : Json F) : Json F := if value.truthy then value else fallback

/-- `value.get(key, fallback)`, an `AttributeError` unless `value` is a dict. -/
def get (value : Json F) (key : String) (fallback : Json F) : Except PyError (Json F) :=
  match value with
  | .dict fields => .ok ((fields.lookup key).getD fallback)
  | _ => .error (.builtin .attributeError)

/-- `float(value)`. -/
def toFloat : Json F → Except PyError F
  | .bool b => match floatOfInt (if b then 1 else 0) with
    | some x => .ok x
    | none => .error (.builtin .overflowError)
  | .int n => match floatOfInt n with
    | some x => .ok x
    | none => .error (.builtin .overflowError)
  | .float x => .ok x
  | .str s => match floatOfStr s with
    | some x => .ok x
    | none => .error (.builtin .valueError)
  | .null | .list _ | .dict _ => .error (.builtin .typeError)

/-- `int(value)`. -/
def toInt : Json F → Except PyError ℤ
  | .bool b => .ok (if b then 1 else 0)
  | .int n => .ok n
  | .float x => match intOfFloat x with
    | .ok n => .ok n
    | .error kind => .error (.builtin kind)
  | .str s => match intOfStr F s with
    | some n => .ok n
    | none => .error (.builtin .valueError)
  | .null | .list _ | .dict _ => .error (.builtin .typeError)

/-- `isinstance(value, dict)`. -/
def isDict : Json F → Bool
  | .dict _ => true
  | _ => false

end Json

/-- `_safe_float`. -/
def safeFloat (value : Json F) (fieldName : String) : Except PyError F := do
  let numeric ← value.toFloat
  if isFinite numeric then .ok numeric
  else .error (.raised s!"{fieldName} must be finite")

/-- `min(a, b)`: the second argument only if it is smaller. -/
def pyMin (a b : F) : F := if lt b a then b else a

/-- `max(a, b)`: the second argument only if it is larger. -/
def pyMax (a b : F) : F := if lt a b then b else a

/-- `_clamp`. -/
def clamp (value minValue maxValue : F) : F := pyMax minValue (pyMin maxValue value)

/-! ### Results -/

/-- A `do` block returns if both parts do. -/
theorem bind_eq_ok {ε α β : Type} {x : Except ε α} {f : α → Except ε β} {b : β} :
    (x >>= f) = .ok b ↔ ∃ a, x = .ok a ∧ f a = .ok b := by
  cases x with
  | error e =>
    constructor
    · rintro ⟨⟩
    · rintro ⟨_, ⟨⟩, _⟩
  | ok a =>
    constructor
    · intro h
      exact ⟨a, rfl, h⟩
    · rintro ⟨_, ⟨⟩, h⟩
      exact h

omit [PyNum F] in
theorem get_eq_ok {value : Json F} {key : String} {fallback found : Json F} :
    value.get key fallback = .ok found ↔
      ∃ fields, value = .dict fields ∧ (fields.lookup key).getD fallback = found := by
  cases value <;> simp [Json.get]

/-- `safeFloat` returns the finite floats. -/
theorem safeFloat_eq_ok {value : Json F} {fieldName : String} {x : F} :
    safeFloat value fieldName = .ok x ↔ value.toFloat = .ok x ∧ isFinite x := by
  rw [safeFloat, bind_eq_ok]
  constructor
  · rintro ⟨y, hy, h⟩
    by_cases hfin : isFinite y
    · rw [if_pos hfin] at h
      cases h
      exact ⟨hy, hfin⟩
    · rw [if_neg hfin] at h
      cases h
  · rintro ⟨hx, hfin⟩
    exact ⟨x, hx, if_pos hfin⟩

end Bridge
