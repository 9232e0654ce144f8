import Mathlib.Data.List.Basic
import Mathlib.Tactic

/-!
# Reading numbers in a text

A reader takes a value from the start of a text and gives back the rest; a reader that fails has
taken nothing. A number is read up to its last digit, so it is read back from the text it is
printed as (`readNumber_toDigits`) when what follows does not go on with a digit (`NoDigit`).
-/

/-- Takes a value from the start of a text. -/
abbrev Reader (α : Type) := List Char → Option (α × List Char)

/-- The value of a digit in a radix of at most 36, in either case. -/
def toDigit (radix : ℕ) (c : Char) : Option ℕ :=
  let value :=
    if 48 ≤ c.toNat ∧ c.toNat ≤ 57 then some (c.toNat - 48)
    else if 97 ≤ c.toNat ∧ c.toNat ≤ 122 then some (c.toNat - 87)
    else if 65 ≤ c.toNat ∧ c.toNat ≤ 90 then some (c.toNat - 55)
    else none
  value.filter (· < radix)

def isDigitOf (radix : ℕ) (c : Char) : Bool := (toDigit radix c).isSome

/-- What a number may look like. -/
structure NumberFormat where
  radix : ℕ
  maxDigits : Option ℕ
  /-- The least number that is too large. -/
  bound : ℕ
  leadingZeros : Bool

/-- The value of a sequence of digits, the most significant first. -/
def digitsValue (radix : ℕ) (digits : List Char) : ℕ :=
  (digits.filterMap (toDigit radix)).foldl (fun value digit => value * radix + digit) 0

/-- All the digits there are have to be a number of the format. -/
def readNumber (f : NumberFormat) : Reader ℕ := fun text =>
  let digits := text.takeWhile (isDigitOf f.radix)
  let value := digitsValue f.radix digits
  if digits.length = 0 ∨ f.maxDigits.any (· < digits.length) ∨
      (f.leadingZeros = false ∧ digits.head? = some '0' ∧ 1 < digits.length) ∨ f.bound ≤ value
  then none
  else some (value, text.drop digits.length)

def readGiven (c : Char) : Reader Unit
  | [] => none
  | first :: rest => if first = c then some ((), rest) else none

/-- Element `i` of a list whose elements are separated: there is a separator before each but the
first. -/
def readSeparator {α : Type} (separator : Char) (i : ℕ) (reader : Reader α) : Reader α :=
  fun text =>
    if i = 0 then reader text
    else (readGiven separator text).bind fun (_, rest) => reader rest

/-- The text does not go on with a digit. -/
def NoDigit (radix : ℕ) (text : List Char) : Prop := ∀ c ∈ text.head?, isDigitOf radix c = false

section Digits

variable {radix n : ℕ} {c : Char} {text rest : List Char}

theorem noDigit_nil : NoDigit radix [] := by
  intro c hc
  cases hc

theorem noDigit_cons (h : isDigitOf radix c = false) : NoDigit radix (c :: rest) := by
  intro c' hc'
  cases hc'
  exact h

/-- A smaller radix has fewer digits. -/
theorem isDigitOf_of_le {small : ℕ} (hle : small ≤ radix) (h : isDigitOf small c = true) :
    isDigitOf radix c = true := by
  unfold isDigitOf toDigit at h ⊢
  simp only [Option.isSome_filter] at h ⊢
  revert h
  split
  · simpa using fun h => lt_of_lt_of_le h hle
  · split
    · simpa using fun h => lt_of_lt_of_le h hle
    · split
      · simpa using fun h => lt_of_lt_of_le h hle
      · simp

/-- What is no digit of a radix is none of a smaller one. -/
theorem NoDigit.of_le {small : ℕ} (hle : small ≤ radix) (h : NoDigit radix text) :
    NoDigit small text := by
  intro c hc
  cases hdigit : isDigitOf small c with
  | false => rfl
  | true => exact absurd (isDigitOf_of_le hle hdigit) (by rw [h c hc]; exact Bool.false_ne_true)

/-- The digits at the start of a text end where no digit follows. -/
theorem takeWhile_isDigitOf (hdigits : ∀ c ∈ text, isDigitOf radix c = true)
    (hrest : NoDigit radix rest) : (text ++ rest).takeWhile (isDigitOf radix) = text := by
  rw [List.takeWhile_append_of_pos hdigits]
  cases rest with
  | nil => rw [List.takeWhile_nil, List.append_nil]
  | cons c rest =>
    rw [List.takeWhile_cons_of_neg (by rw [hrest c rfl]; exact Bool.false_ne_true),
      List.append_nil]

/-- What is left behind the elements that were taken. -/
theorem drop_length_takeWhile {α : Type} (p : α → Bool) (text : List α) :
    text.drop (text.takeWhile p).length = text.dropWhile p := by
  induction text with
  | nil => rfl
  | cons c text ih =>
    by_cases hc : p c = true
    · rw [List.takeWhile_cons_of_pos hc, List.dropWhile_cons_of_pos hc]
      exact ih
    · rw [List.takeWhile_cons_of_neg hc, List.dropWhile_cons_of_neg hc]
      rfl

/-- There is no number where there is no digit. -/
theorem readNumber_noDigit {f : NumberFormat} (h : NoDigit f.radix text) :
    readNumber f text = none := by
  have hnil : text.takeWhile (isDigitOf f.radix) = [] :=
    takeWhile_isDigitOf (List.forall_mem_nil _) h
  unfold readNumber
  simp [hnil]

end Digits

/-! ## Printed numbers -/

section Printed

variable {radix n d : ℕ}

theorem toDigit_digitChar (hradix : radix ≤ 16) (hd : d < radix) :
    toDigit radix (Nat.digitChar d) = some d := by
  have hlt : d < 16 := by omega
  unfold toDigit
  interval_cases d <;> simp [Nat.digitChar, Option.filter, hd]

theorem isDigitOf_toDigits (hradix : 1 < radix) (hle : radix ≤ 16) (n : ℕ) :
    ∀ c ∈ Nat.toDigits radix n, isDigitOf radix c = true := by
  induction n using Nat.strongRecOn with
  | ind n ih =>
    intro c hc
    rw [Nat.toDigits_eq_if hradix] at hc
    split at hc
    · rename_i hlt
      cases List.mem_singleton.mp hc
      simp [isDigitOf, toDigit_digitChar hle hlt]
    · rename_i hge
      rcases List.mem_append.mp hc with hc | hc
      · exact ih _ (Nat.div_lt_self (by omega) hradix) c hc
      · cases List.mem_singleton.mp hc
        have hmod : n % radix < radix := Nat.mod_lt _ (by omega)
        simp [isDigitOf, toDigit_digitChar hle hmod]

theorem digitsValue_append (digits : List Char) (hle : radix ≤ 16) (hd : d < radix) :
    digitsValue radix (digits ++ [Nat.digitChar d]) = digitsValue radix digits * radix + d := by
  simp [digitsValue, List.filterMap_append, toDigit_digitChar hle hd]

/-- A number is the value of its digits. -/
theorem digitsValue_toDigits (hradix : 1 < radix) (hle : radix ≤ 16) (n : ℕ) :
    digitsValue radix (Nat.toDigits radix n) = n := by
  induction n using Nat.strongRecOn with
  | ind n ih =>
    rw [Nat.toDigits_eq_if hradix]
    split
    · rename_i hlt
      simp [digitsValue, toDigit_digitChar hle hlt]
    · rename_i hge
      have hmod : n % radix < radix := Nat.mod_lt _ (by omega)
      rw [digitsValue_append _ hle hmod, ih _ (Nat.div_lt_self (by omega) hradix)]
      exact Nat.div_add_mod' n radix

/-- A printed number other than zero does not start with a zero. -/
theorem head_toDigits (hradix : 1 < radix) (hn : 0 < n) :
    (Nat.toDigits radix n).head? ≠ some '0' := by
  induction n using Nat.strongRecOn with
  | ind n ih =>
    rw [Nat.toDigits_eq_if hradix]
    split
    · simp
      omega
    · rename_i hge
      have hdiv : 0 < n / radix := Nat.div_pos (by omega) (by omega)
      rw [List.head?_append_of_ne_nil _ Nat.toDigits_ne_nil]
      exact ih _ (Nat.div_lt_self hn hradix) hdiv

/-- A printed number is read back. -/
theorem readNumber_toDigits {f : NumberFormat} (hradix : 1 < f.radix) (hle : f.radix ≤ 16)
    (hn : n < f.bound) (hlength : ∀ k, f.maxDigits = some k → (Nat.toDigits f.radix n).length ≤ k)
    {rest : List Char} (hrest : NoDigit f.radix rest) :
    readNumber f (Nat.toDigits f.radix n ++ rest) = some (n, rest) := by
  have hdigits := takeWhile_isDigitOf (isDigitOf_toDigits hradix hle n) hrest
  have hvalue := digitsValue_toDigits hradix hle n
  have hpos : 0 < (Nat.toDigits f.radix n).length := Nat.length_toDigits_pos
  have hmax : f.maxDigits.any (· < (Nat.toDigits f.radix n).length) = false := by
    cases hk : f.maxDigits with
    | none => rfl
    | some k =>
      have := hlength k hk
      simpa using this
  have hzero : ¬((Nat.toDigits f.radix n).head? = some '0' ∧
      1 < (Nat.toDigits f.radix n).length) := by
    intro ⟨hhead, hlong⟩
    rcases Nat.eq_zero_or_pos n with rfl | hpos
    · rw [Nat.toDigits_zero] at hlong
      exact absurd hlong (lt_irrefl 1)
    · exact head_toDigits hradix hpos hhead
  unfold readNumber
  simp only [hdigits, hvalue, hmax, List.drop_left]
  rw [if_neg]
  rintro (h | h | h | h)
  · omega
  · cases h
  · exact hzero h.2
  · omega

end Printed
