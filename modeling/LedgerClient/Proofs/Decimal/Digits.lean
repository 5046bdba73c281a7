import LedgerClient.Decimal.Stepwise
import Mathlib.Data.Nat.Digits.Defs

/-!
# Digits

The digits of a decimal numeral weigh, from the last to the first, one, ten, a hundred and so on.
`uint64?` reads the numerals of the numbers of 64 bits, and no others, and the digits that are
written for a number are a numeral of it.
-/

namespace LedgerClient.Decimal

/-- The value of a digit. -/
def digitValue (c : Char) : Nat := c.toNat - '0'.toNat

/-- The number that digits stand for, by their places. -/
def placeValue (cs : List Char) : Nat := Nat.ofDigits 10 (cs.reverse.map digitValue)

theorem ofDigits_eq_placeValue (cs : List Char) : ofDigits cs = placeValue cs := by
  rw [ofDigits, placeValue, ← List.foldr_reverse]
  induction cs.reverse with
  | nil => rfl
  | cons c cs ih =>
    rw [List.foldr_cons, ih, List.map_cons, Nat.ofDigits_cons, Nat.add_comm]
    rfl

theorem isDigit_iff {c : Char} : isDigit c = true ↔ 0x30 ≤ c.toNat ∧ c.toNat ≤ 0x39 := by
  rw [isDigit, Bool.and_eq_true, decide_eq_true_iff, decide_eq_true_iff, Char.le_def, Char.le_def,
    UInt32.le_iff_toNat_le, UInt32.le_iff_toNat_le]
  rfl

/-! ## Written digits -/

theorem ofDigits_toDigits (n : Nat) : ofDigits (Nat.toDigits 10 n) = n := by
  have h : Nat.ofDigitChars 10 (Nat.toDigits 10 n) 0 = n :=
    Nat.ofDigitChars_toDigits (by decide) (by decide)
  rwa [Nat.ofDigitChars_eq_foldl] at h

theorem isDigit_eq (c : Char) : isDigit c = c.isDigit := by
  rw [isDigit, Char.isDigit]
  rfl

theorem isDigit_toDigits {n : Nat} {c : Char} (h : c ∈ Nat.toDigits 10 n) : isDigit c = true := by
  rw [isDigit_eq]
  exact Nat.isDigit_of_mem_toDigits (by decide) (by decide) h

theorem head?_toDigits_ne_zero {n : Nat} (h : 0 < n) :
    (Nat.toDigits 10 n).head? ≠ some '0' := by
  induction n using Nat.strong_induction_on with
  | _ n ih =>
    rw [Nat.toDigits_eq_if (by decide)]
    split
    · rename_i hn
      have hdigit : ∀ n < 10, 0 < n → Nat.digitChar n ≠ '0' := by decide
      exact fun hhead => hdigit n hn h (Option.some.inj hhead)
    · rw [List.head?_append, Option.or_of_isSome (List.isSome_head?.2 Nat.toDigits_ne_nil)]
      exact ih (n / 10) (by omega) (by omega)

theorem le_foldl_digits (n : Nat) (cs : List Char) :
    n ≤ cs.foldl (fun n c => 10 * n + (c.toNat - 0x30)) n := by
  induction cs generalizing n with
  | nil => exact Nat.le_refl n
  | cons c cs ih =>
    have hstep : n ≤ 10 * n + (c.toNat - 0x30) := by omega
    exact Nat.le_trans hstep (ih _)

/-- Digits of a number of 64 bits are all held. -/
theorem heldDigits_eq {n : Nat} {cs : List Char}
    (h : cs.foldl (fun n c => 10 * n + (c.toNat - 0x30)) n < UInt64.size) :
    heldDigits n cs = (cs.foldl (fun n c => 10 * n + (c.toNat - 0x30)) n, 0) := by
  induction cs generalizing n with
  | nil => rfl
  | cons c cs ih =>
    rw [heldDigits, if_pos (Nat.lt_of_le_of_lt (le_foldl_digits _ cs) h)]
    exact ih h

theorem heldDigits_toDigits {n : Nat} (h : n < UInt64.size) :
    heldDigits 0 (Nat.toDigits 10 n) = (n, 0) := by
  have hvalue : (Nat.toDigits 10 n).foldl (fun n c => 10 * n + (c.toNat - 0x30)) 0 = n :=
    ofDigits_toDigits n
  rw [heldDigits_eq (by rwa [hvalue]), hvalue]

/-! ## Numerals -/

/-- A decimal numeral: digits, with a plus in front or not. -/
structure Numeral where
  plus : Bool
  digits : List Char
  digits_ne_nil : digits ≠ []
  isDigit : ∀ c ∈ digits, isDigit c = true

namespace Numeral

def chars (w : Numeral) : List Char := (if w.plus then ['+'] else []) ++ w.digits

def value (w : Numeral) : Nat := placeValue w.digits

/-- The numeral that is written for a number. -/
def ofNat (n : Nat) : Numeral where
  plus := false
  digits := Nat.toDigits 10 n
  digits_ne_nil := Nat.toDigits_ne_nil
  isDigit _ := isDigit_toDigits

@[simp] theorem chars_ofNat (n : Nat) : (ofNat n).chars = Nat.toDigits 10 n := rfl

@[simp] theorem value_ofNat (n : Nat) : (ofNat n).value = n := by
  rw [value, ← ofDigits_eq_placeValue]
  exact ofDigits_toDigits n

end Numeral

/-- Reads a number without a sign. -/
def unsigned64? (ds : List Char) : Option UInt64 :=
  if ds.isEmpty || !ds.all isDigit then none
  else if ofDigits ds < UInt64.size then some (UInt64.ofNat (ofDigits ds)) else none

theorem uint64?_of_ne {ds : List Char} (h : ∀ rest, ds ≠ '+' :: rest) :
    uint64? ds = unsigned64? ds := by
  unfold uint64?
  split
  · exact absurd rfl (h _)
  · rfl

theorem unsigned64?_eq_some_iff {ds : List Char} {n : UInt64} :
    unsigned64? ds = some n ↔
      ds ≠ [] ∧ (∀ c ∈ ds, isDigit c = true) ∧ placeValue ds = n.toNat := by
  rw [unsigned64?, ofDigits_eq_placeValue]
  constructor
  · intro h
    split at h
    · cases h
    · rename_i hds
      rw [Bool.or_eq_true, not_or, Bool.not_eq_true, Bool.not_eq_true, Bool.not_eq_false'] at hds
      split at h
      · rename_i hsize
        cases h
        exact ⟨List.isEmpty_eq_false_iff.1 hds.1, List.all_eq_true.1 hds.2,
          (UInt64.toNat_ofNat_of_lt hsize).symm⟩
      · cases h
  · rintro ⟨hne, hdigit, hvalue⟩
    rw [List.isEmpty_eq_false_iff.2 hne, List.all_eq_true.2 hdigit, hvalue,
      if_neg (by decide), if_pos n.toNat_lt, UInt64.ofNat_toNat]

/-- The numerals of the numbers of 64 bits are read, as these numbers. -/
theorem uint64?_eq_some_iff {cs : List Char} {n : UInt64} :
    uint64? cs = some n ↔ ∃ w : Numeral, w.chars = cs ∧ w.value = n.toNat := by
  constructor
  · intro h
    by_cases hplus : ∃ ds, cs = '+' :: ds
    · obtain ⟨ds, rfl⟩ := hplus
      obtain ⟨hne, hdigit, hvalue⟩ := unsigned64?_eq_some_iff.1 h
      exact ⟨⟨true, ds, hne, hdigit⟩, rfl, hvalue⟩
    · rw [uint64?_of_ne (not_exists.1 hplus)] at h
      obtain ⟨hne, hdigit, hvalue⟩ := unsigned64?_eq_some_iff.1 h
      exact ⟨⟨false, cs, hne, hdigit⟩, rfl, hvalue⟩
  · rintro ⟨⟨plus, ds, hne, hdigit⟩, rfl, hvalue⟩
    have h : unsigned64? ds = some n := unsigned64?_eq_some_iff.2 ⟨hne, hdigit, hvalue⟩
    cases plus with
    | true => exact h
    | false =>
      -- A plus in front would have to be one of the digits.
      refine (uint64?_of_ne fun rest hrest => ?_).trans h
      subst hrest
      exact absurd (hdigit '+' List.mem_cons_self) (by decide)

end LedgerClient.Decimal
