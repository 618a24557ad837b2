import Mathlib.Data.Rat.Floor

/- What the services take from their host: thrown exceptions, the number and date
   conversions of ECMAScript on exact rationals, string prefixes. -/
namespace AstraPort

inductive Thrown where
  | badRequest (message : String)
  | notFound (message : String)
  | unauthorized (message : String)
  | conflict (message : String)
  | error (message : String)
  | typeError
  | rangeError (message : String)
  deriving DecidableEq, Repr

/-- Number.prototype.toFixed read back as a number: nearest multiple of 10^-digits,
    ties away from zero; from 10^21 on the number itself. -/
def toFixed (digits : Nat) (x : Rat) : Rat :=
  if 10 ^ 21 ≤ |x| then x
  else if x < 0 then -(⌊-x * 10 ^ digits + 1 / 2⌋ / 10 ^ digits)
  else ⌊x * 10 ^ digits + 1 / 2⌋ / 10 ^ digits

/-- The same as text. Numbers of 10^21 and more, which get an exponent there, are left out. -/
def fixedText (digits : Nat) (x : Rat) : String :=
  let scaled := ⌊|x| * 10 ^ digits + 1 / 2⌋.toNat
  let fraction := toString (scaled % 10 ^ digits)
  let padding := String.ofList (List.replicate (digits - fraction.length) '0')
  (if x < 0 then "-" else "") ++ toString (scaled / 10 ^ digits) ++ "." ++ padding ++ fraction

/-- ToIntegerOrInfinity on finite numbers. -/
def truncate (x : Rat) : Int := if x < 0 then ⌈x⌉ else ⌊x⌋

/-- Array.prototype.slice with a start alone; a negative one counts from the end. -/
def sliceFrom {Element : Type} (start : Int) (elements : List Element) : List Element :=
  if start < 0 then elements.drop (elements.length - start.natAbs) else elements.drop start.toNat

def average (values : List Rat) : Rat := values.sum / values.length

/-- Largest distance of a date from the epoch, in milliseconds. -/
def maxDate : Rat := 8640000000000000

/-- new Date(t).toISOString() as epoch milliseconds: fractions are cut off, and a
    time outside the date range cannot be formatted. -/
def isoInstant (t : Rat) : Except Thrown Int :=
  if |t| ≤ maxDate then .ok (if t < 0 then ⌈t⌉ else ⌊t⌋) else .error (.rangeError "Invalid time value")

def millisPerDay : Nat := 24 * 60 * 60 * 1000

/-- Names every plain object answers to through Object.prototype, with the length
    property of the inherited value (none where it has no such property). -/
def inheritedMembers : List (String × Option Nat) :=
  [("constructor", some 1), ("__defineGetter__", some 2), ("__defineSetter__", some 2),
   ("hasOwnProperty", some 1), ("__lookupGetter__", some 1), ("__lookupSetter__", some 1),
   ("isPrototypeOf", some 1), ("propertyIsEnumerable", some 1), ("toString", some 0),
   ("valueOf", some 0), ("__proto__", none), ("toLocaleString", some 0)]

end AstraPort
