import Mathlib.Tactic

/-!
# Machine arithmetic, panics and fuel

An execution ends with a value, with an error of its own, with a panic, or not
within the fuel it was given. The operations below are those that can panic: additions,
subtractions and shifts whose result does not fit, indexing and slicing out of range, and
`expect`. What an overflow does depends on the `Target`: it panics in a build with overflow
checks and wraps around in one without. The lemmas say when none of this happens, and
`liftError` embeds the computations that can only fail with an error of their own.
-/

/-! ## Words -/

/-- The width of a `usize`. -/
inductive UsizeWidth where
  | bits32
  | bits64
deriving DecidableEq, Repr

namespace UsizeWidth

def bits : UsizeWidth → ℕ
  | bits32 => 32
  | bits64 => 64

/-- One more than the largest value of the width. -/
def modulus (w : UsizeWidth) : ℕ := 2 ^ w.bits

theorem two_pow_le_modulus (w : UsizeWidth) : 2 ^ 32 ≤ w.modulus := by
  cases w <;> decide

/-- The value an atomic `fetch_add` stores. -/
def fetchAdd (w : UsizeWidth) (x n : ℕ) : ℕ := (x + n) % w.modulus

/-- The value an atomic `fetch_sub` stores. -/
def fetchSub (w : UsizeWidth) (x n : ℕ) : ℕ := (x + (w.modulus - n)) % w.modulus

/-- A counter that stays below the modulus does not wrap. -/
theorem fetchAdd_eq {w : UsizeWidth} {x n : ℕ} (h : x + n < w.modulus) :
    w.fetchAdd x n = x + n :=
  Nat.mod_eq_of_lt h

/-- Nor does one from which no more is taken than it holds. -/
theorem fetchSub_eq {w : UsizeWidth} {x n : ℕ} (hx : x < w.modulus) (h : n ≤ x) :
    w.fetchSub x n = x - n := by
  have hsum : x + (w.modulus - n) = x - n + w.modulus := by omega
  rw [fetchSub, hsum, Nat.add_mod_right]
  exact Nat.mod_eq_of_lt (by omega)

end UsizeWidth

/-! ## Executions -/

/-- How a computation can end without a value. -/
inductive Fault where
  | error (message : String)
  | panic
  | outOfFuel
deriving DecidableEq, Repr

abbrev Exec (α : Type) : Type := Except Fault α

namespace Exec

variable {α β : Type}

/-- `bail!`. -/
def bail (message : String) : Exec α := .error (.error message)

/-- An absent value is an error of the computation. -/
def orBail (x : Option α) (message : String) : Exec α :=
  match x with
  | some a => .ok a
  | none => bail message

/-- `Option::expect`. -/
def expect (x : Option α) : Exec α :=
  match x with
  | some a => .ok a
  | none => .error .panic

/-- `l[i]`. -/
def index (l : List α) (i : ℕ) : Exec α := expect l[i]?

/-- `l[start..stop]`. -/
def range (l : List α) (start stop : ℕ) : Exec (List α) :=
  if start ≤ stop ∧ stop ≤ l.length then .ok ((l.take stop).drop start) else .error .panic

/-- `l.try_into().expect(..)` for an array of `n` elements. -/
def array (n : ℕ) (l : List α) : Exec (List α) :=
  if l.length = n then .ok l else .error .panic

theorem index_eq {l : List α} {i : ℕ} (h : i < l.length) (a : α) :
    index l i = .ok (l.getD i a) := by
  simp [index, expect, h]

theorem range_eq {l : List α} {start stop : ℕ} (hstart : start ≤ stop) (hstop : stop ≤ l.length) :
    range l start stop = .ok ((l.take stop).drop start) :=
  if_pos ⟨hstart, hstop⟩

theorem array_eq {l : List α} {n : ℕ} (h : l.length = n) : array n l = .ok l := if_pos h

theorem ok_bind (a : α) (f : α → Exec β) : ((.ok a : Exec α) >>= f) = f a := rfl

/-- A computation that neither panics nor runs out of fuel. -/
def liftError : Except String α → Exec α
  | .ok a => .ok a
  | .error e => .error (.error e)

theorem liftError_ok (a : α) : liftError (.ok a : Except String α) = .ok a := rfl

/-- A checked computation ends well only if the exact one does. -/
theorem eq_ok_of_liftError {x : Except String α} {a : α} (h : liftError x = .ok a) :
    x = .ok a := by
  cases x with
  | error e => cases h
  | ok b =>
    cases h
    rfl

/-- Two steps that are exact are exact after each other. -/
theorem liftError_bind {x : Exec α} {y : Except String α} {f : α → Exec β}
    {g : α → Except String β} (hx : x = liftError y)
    (hf : ∀ a, y = .ok a → f a = liftError (g a)) : (x >>= f) = liftError (y >>= g) := by
  subst hx
  cases y with
  | error e => rfl
  | ok a => exact hf a rfl

/-- A branch is exact when both sides are. -/
theorem liftError_ite {c : Prop} [Decidable c] {x x' : Exec α} {y y' : Except String α}
    (hx : c → x = liftError y) (hx' : ¬c → x' = liftError y') :
    (if c then x else x') = liftError (if c then y else y') := by
  split
  next h => exact hx h
  next h => exact hx' h

end Exec

/-! ## Arithmetic -/

/-- The machine and the build a program runs as. -/
structure Target where
  width : UsizeWidth
  overflowChecks : Bool
deriving DecidableEq, Repr

namespace Target

variable (m : Target)

/-- A result that does not fit in its type. -/
def overflow (wrapped : ℕ) : Exec ℕ := if m.overflowChecks then .error .panic else .ok wrapped

/-- `a + b` on `usize`. -/
def add (a b : ℕ) : Exec ℕ :=
  if a + b < m.width.modulus then .ok (a + b) else m.overflow ((a + b) % m.width.modulus)

/-- `a - b` on `u64`. -/
def subU64 (a b : ℕ) : Exec ℕ :=
  if b ≤ a then .ok (a - b) else m.overflow ((a + (2 ^ 64 - b)) % 2 ^ 64)

/-- `a << n` on an unsigned type of `bits` bits. The bits shifted out are lost. -/
def shl (bits a n : ℕ) : Exec ℕ :=
  if n < bits then .ok (a <<< n % 2 ^ bits) else m.overflow (a <<< (n % bits) % 2 ^ bits)

/-- `length < i + len`, the check before `len` elements are taken from `i` on. -/
def exceeds (length i len : ℕ) : Exec Bool := do
  let stop ← m.add i len
  return decide (length < stop)

/-- `usize::try_from` of a `u64`. -/
def tryFromU64 (n : ℕ) : Option ℕ := if n < m.width.modulus then some n else none

/-- `usize::checked_add`. -/
def checkedAdd (a b : ℕ) : Option ℕ := if a + b < m.width.modulus then some (a + b) else none

variable {m}

theorem add_eq {a b : ℕ} (h : a + b < m.width.modulus) : m.add a b = .ok (a + b) := if_pos h

/-- A sum that does not fit is a panic, or less than both of its terms. -/
theorem add_of_overflow {a b : ℕ} (ha : a < m.width.modulus) (hb : b < m.width.modulus)
    (h : m.width.modulus ≤ a + b) :
    m.add a b = .error .panic ∨ m.add a b = .ok (a + b - m.width.modulus) := by
  have hwrapped : (a + b) % m.width.modulus = a + b - m.width.modulus := by
    rw [Nat.mod_eq_sub_mod h]
    exact Nat.mod_eq_of_lt (by omega)
  rw [add, if_neg (not_lt.mpr h), hwrapped, overflow]
  cases m.overflowChecks
  · exact .inr rfl
  · exact .inl rfl

theorem subU64_eq {a b : ℕ} (h : b ≤ a) : m.subU64 a b = .ok (a - b) := if_pos h

theorem shl_eq {bits a n : ℕ} (hn : n < bits) (h : a * 2 ^ n < 2 ^ bits) :
    m.shl bits a n = .ok (a * 2 ^ n) := by
  rw [shl, if_pos hn, Nat.shiftLeft_eq, Nat.mod_eq_of_lt h]

/-- A length check is exact when its sum does not overflow. -/
theorem exceeds_eq {length i len : ℕ} (h : i + len < m.width.modulus) :
    m.exceeds length i len = .ok (decide (length < i + len)) := by
  rw [exceeds, add_eq h]
  rfl

/-- A check whose sum fits decides as the mathematical one. -/
theorem exceeds_ite {α : Type} {length i len : ℕ} {x x' : Exec α} {y y' : Except String α}
    (hsum : i + len < m.width.modulus) (hx : length < i + len → x = Exec.liftError y)
    (hx' : ¬length < i + len → x' = Exec.liftError y') :
    (m.exceeds length i len >>= fun c => if c then x else x') =
      Exec.liftError (if length < i + len then y else y') := by
  rw [exceeds_eq hsum, Exec.ok_bind]
  simp only [decide_eq_true_eq]
  exact Exec.liftError_ite hx hx'

theorem tryFromU64_eq {n : ℕ} (h : n < m.width.modulus) : m.tryFromU64 n = some n := if_pos h

theorem checkedAdd_eq {a b : ℕ} (h : a + b < m.width.modulus) : m.checkedAdd a b = some (a + b) :=
  if_pos h

end Target
