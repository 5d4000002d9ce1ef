import Mathlib.Algebra.Order.Ring.Int
import Mathlib.Tactic.TypeStar

/-!
# JSON values

A JSON value, with the numbers told apart by how they are written: with a fraction or an exponent
(`real`) or without (`int`). How a library reads numbers into machine types is a `Reader`;
`Reader.Faithful` is what a user of the library may rely on.
-/

inductive Json (K : Type) where
  | null
  | bool (b : Bool)
  | int (n : ℤ)
  | real (x : K)
  | string (s : String)
  | array (values : List (Json K))
  | object (fields : List (String × Json K))

namespace Json

variable {K : Type}

def asBoolean : Json K → Option Bool
  | bool b => some b
  | _ => none

def asString : Json K → Option String
  | string s => some s
  | _ => none

def asArray : Json K → Option (List (Json K))
  | array values => some values
  | _ => none

def asObject : Json K → Option (List (String × Json K))
  | object fields => some fields
  | _ => none

def isNumber : Json K → Bool
  | int _ => true
  | real _ => true
  | _ => false

def isNull : Json K → Bool
  | null => true
  | _ => false

/-- The numbers an `int` of 32 bits holds. -/
def InInt (n : ℤ) : Prop := -2 ^ 31 ≤ n ∧ n < 2 ^ 31

instance (n : ℤ) : Decidable (InInt n) := inferInstanceAs (Decidable (_ ∧ _))

/-- How numbers are read; `none` stands for an exception. -/
structure Reader (K : Type) where
  asInteger : Json K → Option ℤ
  asDouble : Json K → Option K

/-- A whole number is read as an `int` if it is one, every number as a `double`, and nothing else as
either. -/
structure Reader.Faithful [IntCast K] (lib : Reader K) : Prop where
  asInteger_int : ∀ {n : ℤ}, InInt n → lib.asInteger (.int n) = some n
  asInteger_inInt : ∀ {j : Json K} {n : ℤ}, lib.asInteger j = some n → InInt n
  asInteger_other : ∀ {j : Json K}, j.isNumber = false → lib.asInteger j = none
  asDouble_int : ∀ n : ℤ, lib.asDouble (.int n) = some (n : K)
  asDouble_real : ∀ x : K, lib.asDouble (.real x) = some x
  asDouble_other : ∀ {j : Json K}, j.isNumber = false → lib.asDouble j = none

/-- A library that also reads unsigned numbers and lists of numbers, and writes numbers. -/
structure Library (K : Type) extends Reader K where
  asUnsigned : Json K → Option ℕ
  /-- `none` where the value is no list of numbers. -/
  asDoubles : Json K → Option (List K)
  ofUnsigned : ℕ → Json K
  ofDouble : K → Json K

/-- A whole number reads the same with and without a sign, a list as its elements do, and what is
written is read back. -/
structure Library.Faithful [IntCast K] (lib : Library K) : Prop extends
    Reader.Faithful lib.toReader where
  asUnsigned_whole : ∀ {j : Json K} {n : ℤ}, lib.asInteger j = some n →
    lib.asDouble j = some (n : K) → 0 ≤ n → lib.asUnsigned j = some n.toNat
  asDoubles_iff : ∀ {j : Json K} {xs : List K}, lib.asDoubles j = some xs ↔
    ∃ values, j = .array values ∧ values.mapM lib.asDouble = some xs
  asInteger_ofUnsigned : ∀ {n : ℕ}, InInt n → lib.asInteger (lib.ofUnsigned n) = some n
  asDouble_ofUnsigned : ∀ n : ℕ, lib.asDouble (lib.ofUnsigned n) = some ((n : ℤ) : K)
  asDouble_ofDouble : ∀ x : K, lib.asDouble (lib.ofDouble x) = some x

/-- Reading a list element by element. -/
theorem getElem?_of_mapM {α β : Type*} {f : α → Option β} {l : List α} {xs : List β}
    (h : l.mapM f = some xs) (i : ℕ) : (l[i]?).bind f = xs[i]? := by
  induction l generalizing xs i with
  | nil =>
    obtain rfl : xs = [] := by simpa using h.symm
    simp
  | cons a l ih =>
    simp only [List.mapM_cons, Option.bind_eq_bind, Option.bind_eq_some_iff, Option.pure_def,
      Option.some.injEq] at h
    obtain ⟨x, hx, ys, hys, rfl⟩ := h
    cases i with
    | zero => simpa using hx
    | succ i => simpa using ih hys i

end Json
