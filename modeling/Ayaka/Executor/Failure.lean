import Mathlib

/-!
# What the control plane raises

The request, scheduling and execution layers raise Python exceptions with a
text.  Callers tell them apart in two ways only: by the class an `except` clause
names, and by whether the exception is an `Exception` at all.
-/

namespace Ayaka
namespace Executor

/-- What a step of the control plane raises.  `exception` stands for any other
ordinary exception of a hook or callback, `baseException` for what is not an
`Exception` at all, such as an interrupt. -/
inductive Failure where
  | valueError (message : String)
  | runtimeError (message : String)
  | typeError (message : String)
  | indexError (message : String)
  | keyError (message : String)
  | illegalTransition (message : String)
  | configError (path code message : String)
  | overloadedError (message : String)
  | deadlineExceededError (message : String)
  | stepPrepareError (message : String) (transient : Bool) (requestId : Option String)
  | invalidHandleError (message : String)
  | transferCreditError (message : String)
  | kvCapacityError (message : String)
  | memoryError (message : String)
  | exception (message : String)
  | baseException (message : String)
  deriving DecidableEq, Repr

namespace Failure

/-- `str(exc)`. -/
def text : Failure -> String
  | valueError message => message
  | runtimeError message => message
  | typeError message => message
  | indexError message => message
  | keyError message => message
  | illegalTransition message => message
  | configError _ _ message => message
  | overloadedError message => message
  | deadlineExceededError message => message
  | stepPrepareError message _ _ => message
  | invalidHandleError message => message
  | transferCreditError message => message
  | kvCapacityError message => message
  | memoryError message => message
  | exception message => message
  | baseException message => message

/-- `isinstance(exc, Exception)`. -/
def isException : Failure -> Bool
  | baseException _ => false
  | _ => true

/-- `isinstance(exc, ValueError)`. -/
def isValueError : Failure -> Bool
  | valueError _ => true
  | _ => false

end Failure

/-! ## Shared argument checks -/

/-- The characters `str.strip` removes. -/
def isSpace (c : Char) : Bool :=
  let n := c.toNat
  (9 ≤ n && n ≤ 13) || (28 ≤ n && n ≤ 32) || n == 0x85 || n == 0xa0 || n == 0x1680
    || (0x2000 ≤ n && n ≤ 0x200a) || n == 0x2028 || n == 0x2029 || n == 0x202f
    || n == 0x205f || n == 0x3000

/-- `not value.strip()`. -/
def isBlank (value : String) : Bool :=
  value.toList.all isSpace

def reject (bad : Prop) [Decidable bad] (exc : Failure) : Except Failure Unit :=
  if bad then .error exc else .ok ()

def requireText (value name : String) : Except Failure Unit :=
  reject (isBlank value = true) (.valueError (name ++ " must be a non-empty string"))

/-- The lower bound of `require_int`; the model's integers are integers already. -/
def requireInt (value : Int) (name : String) (minimum : Int) : Except Failure Unit :=
  reject (value < minimum) (.valueError (name ++ " must be >= " ++ toString minimum))

@[simp]
theorem reject_eq_ok_iff {bad : Prop} [Decidable bad] : reject bad exc = .ok u <-> ¬ bad := by
  unfold reject
  by_cases h : bad
  · simp [h]
  · simp [h]

@[simp]
theorem requireText_eq_ok_iff : requireText value name = .ok u <-> isBlank value = false := by
  rw [requireText, reject_eq_ok_iff, Bool.not_eq_true]

@[simp]
theorem requireInt_eq_ok_iff : requireInt value name minimum = .ok u <-> minimum ≤ value := by
  rw [requireInt, reject_eq_ok_iff, Int.not_lt]

@[simp]
theorem check_bind_eq_ok_iff {alpha : Type} {x} {y : Unit -> Except Failure alpha} {a : alpha} :
    (x >>= y) = .ok a <-> x = .ok () ∧ y () = .ok a := by
  cases x with
  | error e => simp [bind, Except.bind]
  | ok u => simp [bind, Except.bind]

end Executor
end Ayaka
