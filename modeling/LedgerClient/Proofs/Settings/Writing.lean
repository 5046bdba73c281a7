import LedgerClient.Bytes.Hex
import LedgerClient.Proofs.Decimal.Digits
import LedgerClient.Settings.Json
import Mathlib.Data.Bool.AllAny
import Mathlib.Data.List.TakeWhile

/-!
# Settings written in JSON

`write` spells a tree in JSON, without blanks.  In strings, quotes, backslashes and controls are
escaped, and all else stands for itself.

`parse?_write` says that a tree is read back from its text, if its whole numbers are within 64 bits
and it is not too deep.  How values of binary64 are spelled is left open.  They are read in steps,
and so not always as what was written; a tree may have those that are.
-/

namespace LedgerClient.Settings.Json

open Decimal

/-! ## Writing -/

/-- A character inside a string. -/
def escape (c : Char) : List Char :=
  if c = '"' then ['\\', '"']
  else if c = '\\' then ['\\', '\\']
  else if c = '\x08' then ['\\', 'b']
  else if c = '\x0c' then ['\\', 'f']
  else if c = '\n' then ['\\', 'n']
  else if c = '\r' then ['\\', 'r']
  else if c = '\t' then ['\\', 't']
  else if c.toNat < 0x20 then
    ['\\', 'u', '0', '0', Hex.digit (c.toNat / 16), Hex.digit (c.toNat % 16)]
  else [c]

/-- A string behind its opening quote. -/
def stringChars (s : String) : List Char := s.toList.flatMap escape ++ ['"']

/-- A whole number. -/
def wholeChars (n : Int) : List Char :=
  if n < 0 then '-' :: Nat.toDigits 10 n.natAbs else Nat.toDigits 10 n.natAbs

variable (fraction : Binary64 → List Char)

mutual

/-- The text of a tree.  How a value of binary64 is spelled is left to `fraction`. -/
def chars : Tree → List Char
  | .null => ['n', 'u', 'l', 'l']
  | .bool b => if b then ['t', 'r', 'u', 'e'] else ['f', 'a', 'l', 's', 'e']
  | .int n => wholeChars n
  | .float x => fraction x
  | .text s => '"' :: stringChars s
  | .list [] => ['[', ']']
  | .list (t :: ts) => '[' :: chars t ++ itemsAfter ts
  | .table [] => ['\x7b', '\x7d']
  | .table ((k, t) :: es) => '\x7b' :: '"' :: stringChars k ++ ':' :: chars t ++ membersAfter es

/-- The items of a list behind others, and its closing bracket. -/
def itemsAfter : List Tree → List Char
  | [] => [']']
  | t :: ts => ',' :: chars t ++ itemsAfter ts

/-- The members of a table behind others, and its closing brace. -/
def membersAfter : List (String × Tree) → List Char
  | [] => ['\x7d']
  | (k, t) :: es => ',' :: '"' :: stringChars k ++ ':' :: chars t ++ membersAfter es

end

/-- The JSON text of a tree. -/
def write (t : Tree) : String := String.ofList (chars fraction t)

example : write (fun _ => []) (.table [("a", .list [.int (-1), .null]), ("b", .text "\"\x01")]) =
    "\x7b\"a\":[-1,null],\"b\":\"\\\"\\u0001\"\x7d" := by decide +kernel

/-! ## Reading strings -/

theorem unicode?_control {n : Nat} (h : n < 0x20) (rest : List Char) :
    unicode? ('0' :: '0' :: Hex.digit (n / 16) :: Hex.digit (n % 16) :: rest) =
      some (Char.ofNat n, rest) := by
  have hnumber : ∀ n < 0x20,
      hexNumber? ['0', '0', Hex.digit (n / 16), Hex.digit (n % 16)] = some n ∧
        char? n = some (Char.ofNat n) := by decide
  obtain ⟨hunit, hchar⟩ := hnumber n h
  have hlow : ¬ (decide (0xD800 ≤ n) && decide (n < 0xDC00)) = true := by
    simp
    omega
  simp only [unicode?, unit?, hunit, Option.map_some, Option.bind_eq_bind, Option.bind_some,
    if_neg hlow, hchar]

/-- One step reads an escaped character. -/
theorem string?_escape (c : Char) (acc : List Char) (fuel : Nat) (rest : List Char) :
    string? acc (fuel + 1) (escape c ++ rest) = string? (c :: acc) fuel rest := by
  fun_cases escape c with
  | case1 | case2 | case3 | case4 | case5 | case6 | case7 =>
    subst_vars
    rfl
  | case8 _ _ _ _ _ _ _ hlow =>
    have hunicode := unicode?_control hlow rest
    rw [Char.ofNat_toNat] at hunicode
    simp only [List.cons_append, List.nil_append, string?, hunicode]
  | case9 hquote hbackslash _ _ _ _ _ hhigh =>
    rw [List.singleton_append, string?]
    · rw [if_neg hhigh]
    · exact hquote
    · rintro _ rfl
      exact absurd rfl hbackslash
    · rintro _ _ rfl
      exact absurd rfl hbackslash

theorem string?_flatMap_escape (cs : List Char) {acc : List Char} {fuel : Nat}
    (h : cs.length < fuel) (rest : List Char) :
    string? acc fuel (cs.flatMap escape ++ '"' :: rest) =
      some (String.ofList (acc.reverse ++ cs), rest) := by
  induction cs generalizing acc fuel with
  | nil =>
    obtain ⟨fuel, rfl⟩ := Nat.exists_eq_add_one.2 h
    rw [List.append_nil]
    rfl
  | cons c cs ih =>
    obtain ⟨fuel, rfl⟩ := Nat.exists_eq_add_one.2 (Nat.zero_lt_of_lt h)
    rw [List.flatMap_cons, List.append_assoc, string?_escape, ih (Nat.lt_of_succ_lt_succ h),
      List.reverse_cons, List.append_assoc]
    rfl

theorem length_le_flatMap_escape (cs : List Char) : cs.length ≤ (cs.flatMap escape).length := by
  induction cs with
  | nil => exact Nat.le_refl _
  | cons c cs ih =>
    have : 1 ≤ (escape c).length := by
      unfold escape
      split_ifs <;> simp
    rw [List.flatMap_cons, List.length_append, List.length_cons]
    omega

theorem string?_stringChars (s : String) {fuel : Nat} (h : (stringChars s).length ≤ fuel)
    (rest : List Char) : string? [] fuel (stringChars s ++ rest) = some (s, rest) := by
  have hlength := length_le_flatMap_escape s.toList
  rw [stringChars, List.length_append, List.length_singleton] at h
  rw [stringChars, List.append_assoc]
  exact (string?_flatMap_escape s.toList (by omega) rest).trans (by simp)

/-! ## Reading numbers -/

/-- A value ends here: behind it there is a comma, a closing bracket or brace, or nothing. -/
def Ends (rest : List Char) : Prop := ∀ c ∈ rest.head?, c ∈ [',', ']', '\x7d']

theorem numberTree?_toDigits {n : Int} (h : -2 ^ 63 ≤ n ∧ n < 2 ^ 64) :
    numberTree? (decide (n < 0)) (Nat.toDigits 10 n.natAbs) [] none = some (.int n) := by
  have hsize : n.natAbs < UInt64.size := by
    rw [UInt64.size]
    omega
  rw [numberTree?, heldDigits_toDigits hsize]
  by_cases hneg : n < 0
  · have habs : 0 < n.natAbs ∧ n.natAbs ≤ Nat.pow 2 63 := by
      rw [show Nat.pow 2 63 = 2 ^ 63 from rfl]
      omega
    have hback : -(n.natAbs : Int) = n := by omega
    simp only [hneg, habs.1, habs.2, hback, List.isEmpty_nil, Option.isNone_none, decide_true,
      Bool.and_self, Bool.not_true, Bool.and_false, Bool.false_eq_true, if_false, if_true]
  · have hback : (n.natAbs : Int) = n := by omega
    simp only [hneg, hback, List.isEmpty_nil, Option.isNone_none, decide_true, decide_false,
      Bool.and_self, Bool.not_false, if_true]

theorem takeWhile_digits {ds : List Char} (h : ∀ c ∈ ds, isDigit c = true) {rest : List Char}
    (hends : Ends rest) :
    (ds ++ rest).takeWhile isDigit = ds ∧ (ds ++ rest).dropWhile isDigit = rest := by
  have hrest : rest.takeWhile isDigit = [] ∧ rest.dropWhile isDigit = rest := by
    cases rest with
    | nil => exact ⟨rfl, rfl⟩
    | cons c rest =>
      have hpunctuation : ∀ c ∈ [',', ']', '\x7d'], isDigit c = false :=
        List.all_iff_forall_prop.1 (by decide)
      have hc := hpunctuation c (hends c rfl)
      exact ⟨List.takeWhile_cons_of_neg (by rw [hc]; decide),
        List.dropWhile_cons_of_neg (by rw [hc]; decide)⟩
  rw [List.takeWhile_append_of_pos h, List.dropWhile_append_of_pos h, hrest.1, hrest.2,
    List.append_nil]
  exact ⟨rfl, rfl⟩

/-- Where a value ends, a number has no exponent. -/
theorem exponentPart?_of_ends {rest : List Char} (hends : Ends rest) :
    exponentPart? rest = some (none, rest) := by
  cases rest with
  | nil => rfl
  | cons c rest =>
    have hpunctuation : ∀ c ∈ [',', ']', '\x7d'], ¬ (c = 'e' ∨ c = 'E') :=
      List.all_iff_forall_prop.1 (by decide)
    have hc := hpunctuation c (hends c rfl)
    simp [exponentPart?, hc]

/-- A number of a sign and digits is read as a tree of these. -/
theorem number?_digits (negative : Bool) {ds : List Char} (hne : ds ≠ [])
    (hdigit : ∀ c ∈ ds, isDigit c = true) (hhead : ds.length > 1 → ds.head? ≠ some '0')
    {rest : List Char} (hends : Ends rest) :
    number? ((if negative then '-' :: ds else ds) ++ rest) =
      (numberTree? negative ds [] none).map (·, rest) := by
  obtain ⟨htake, hdrop⟩ := takeWhile_digits hdigit hends
  have hform : ¬ (ds.isEmpty || (ds.length > 1 && ds.head? = some '0')) = true := by
    simpa [hne] using hhead
  unfold number?
  split
  rename_i sign cs hsign
  obtain ⟨rfl, rfl⟩ : sign = negative ∧ cs = ds ++ rest := by
    cases negative with
    | true =>
      cases hsign
      exact ⟨rfl, rfl⟩
    | false =>
      -- A sign in front of the digits would have to be one of them.
      obtain ⟨c, ds, rfl⟩ := List.exists_cons_of_ne_nil hne
      have hc : c ≠ '-' := by
        rintro rfl
        exact absurd (hdigit '-' List.mem_cons_self) (by decide)
      rw [if_neg (by decide), List.cons_append] at hsign
      split at hsign
      · rename_i hcons
        exact absurd (List.cons.inj hcons).1 hc
      · cases hsign
        exact ⟨rfl, rfl⟩
  rw [htake, hdrop, if_neg hform]
  split
  · -- A point does not stand where a value ends.
    exact absurd (hends '.' rfl) (by decide)
  · simp only [Option.bind_eq_bind, Option.bind_some, exponentPart?_of_ends hends]

theorem number?_wholeChars {n : Int} (h : -2 ^ 63 ≤ n ∧ n < 2 ^ 64) {rest : List Char}
    (hends : Ends rest) : number? (wholeChars n ++ rest) = some (.int n, rest) := by
  have hhead : (Nat.toDigits 10 n.natAbs).length > 1 →
      (Nat.toDigits 10 n.natAbs).head? ≠ some '0' := by
    intro hlength
    refine head?_toDigits_ne_zero (Nat.pos_of_ne_zero fun hzero => ?_)
    rw [hzero] at hlength
    exact absurd hlength (by decide)
  have hread := number?_digits (decide (n < 0)) Nat.toDigits_ne_nil
    (fun _ => isDigit_toDigits) hhead hends
  rw [numberTree?_toDigits h] at hread
  simpa [wholeChars] using hread

/-- What a number begins with. -/
def BeginsNumber (c : Char) : Prop := c = '-' ∨ isDigit c = true

instance (c : Char) : Decidable (BeginsNumber c) := inferInstanceAs (Decidable (_ ∨ _))

theorem exists_of_number? {cs : List Char} {r : Tree × List Char} (h : number? cs = some r) :
    ∃ c rest, cs = c :: rest ∧ BeginsNumber c := by
  cases cs with
  | nil => cases h
  | cons c cs =>
    refine ⟨c, cs, rfl, ?_⟩
    by_contra hc
    rw [BeginsNumber, not_or] at hc
    unfold number? at h
    split at h
    rename_i negative ds hsign
    split at hsign
    · rename_i hcons
      exact hc.1 (List.cons.inj hcons).1
    · cases hsign
      simp [hc.2] at h

/-! ## Reading values -/

theorem skip_cons {c : Char} (h : c ∉ [' ', '\t', '\n', '\r']) (cs : List Char) :
    skip (c :: cs) = c :: cs := by
  simp only [List.mem_cons, List.not_mem_nil, or_false, not_or] at h
  exact List.dropWhile_cons_of_neg (by simp [h])

/-- What a value begins with. -/
def Begins (c : Char) : Prop := c ∈ ['n', 't', 'f', '"', '[', '\x7b'] ∨ BeginsNumber c

instance (c : Char) : Decidable (Begins c) := inferInstanceAs (Decidable (_ ∨ _))

theorem Begins.skip {c : Char} (h : Begins c) (cs : List Char) : skip (c :: cs) = c :: cs := by
  have hblank : ∀ c ∈ [' ', '\t', '\n', '\r'], ¬ Begins c :=
    List.all_iff_forall_prop.1 (by decide)
  exact skip_cons (fun hc => hblank c hc h) cs

/-- A tree that can be read from its text at a depth: its whole numbers are within 64 bits, its
other numbers are read as they are spelled, the keys of each table differ, and its lists and tables
are nested no deeper. -/
inductive Readable (fraction : Binary64 → List Char) : Nat → Tree → Prop
  | null {depth : Nat} : Readable fraction depth .null
  | bool {depth : Nat} (b : Bool) : Readable fraction depth (.bool b)
  | int {depth : Nat} {n : Int} (hrange : -2 ^ 63 ≤ n ∧ n < 2 ^ 64) :
      Readable fraction depth (.int n)
  | float {depth : Nat} {x : Binary64}
      (hspelled : ∀ rest, Ends rest → number? (fraction x ++ rest) = some (.float x, rest)) :
      Readable fraction depth (.float x)
  | text {depth : Nat} (s : String) : Readable fraction depth (.text s)
  | list {depth : Nat} {ts : List Tree} (hitems : ∀ t ∈ ts, Readable fraction depth t) :
      Readable fraction (depth + 1) (.list ts)
  | table {depth : Nat} {es : List (String × Tree)} (hkeys : (es.map Prod.fst).Nodup)
      (hvalues : ∀ e ∈ es, Readable fraction depth e.2) : Readable fraction (depth + 1) (.table es)

variable {fraction : Binary64 → List Char}

/-- At a depth, a value is read from its text, and nothing behind it. -/
def Reads (fraction : Binary64 → List Char) (depth : Nat) (t : Tree) : Prop :=
  ∀ {fuel : Nat} {rest : List Char}, (chars fraction t).length ≤ fuel → Ends rest →
    value? depth fuel (chars fraction t ++ rest) = some (t, rest)

theorem exists_chars_of_number? {t : Tree}
    (h : ∀ rest, Ends rest → number? (chars fraction t ++ rest) = some (t, rest)) :
    ∃ c cs, chars fraction t = c :: cs ∧ BeginsNumber c := by
  have hend := h [] (by rintro _ ⟨⟩)
  rw [List.append_nil] at hend
  exact exists_of_number? hend

/-- The text of a tree that can be read begins as a value does. -/
theorem Readable.exists_chars {depth : Nat} {t : Tree} (h : Readable fraction depth t) :
    ∃ c cs, chars fraction t = c :: cs ∧ Begins c := by
  cases h with
  | null => exact ⟨_, _, rfl, .inl (by decide)⟩
  | bool b => cases b <;> exact ⟨_, _, rfl, .inl (by decide)⟩
  | @int _ n hrange =>
    obtain ⟨c, cs, hcs, hc⟩ :=
      exists_chars_of_number? (t := .int n) fun _ => number?_wholeChars hrange
    exact ⟨c, cs, hcs, .inr hc⟩
  | @float _ x hspelled =>
    obtain ⟨c, cs, hcs, hc⟩ := exists_chars_of_number? (t := .float x) hspelled
    exact ⟨c, cs, hcs, .inr hc⟩
  | text s => exact ⟨_, _, rfl, .inl (by decide)⟩
  | @list _ ts _ => cases ts <;> exact ⟨_, _, rfl, .inl (by decide)⟩
  | @table _ es _ _ => cases es <;> exact ⟨_, _, rfl, .inl (by decide)⟩

/-! ### Lists and tables -/

theorem ends_cons {c : Char} (h : c ∈ [',', ']', '\x7d']) (rest : List Char) :
    Ends (c :: rest) := by
  rintro _ ⟨⟩
  exact h

/-! #### Items -/

theorem items?_comma {depth : Nat} {t : Tree} (hread : Reads fraction depth t) (acc : List Tree)
    {fuel : Nat} (hfuel : (chars fraction t).length ≤ fuel) (rest : List Char) :
    items? depth acc (fuel + 1) (chars fraction t ++ ',' :: rest) =
      items? depth (t :: acc) fuel rest := by
  rw [items?, hread hfuel (ends_cons (by decide) rest)]
  rfl

theorem items?_bracket {depth : Nat} {t : Tree} (hread : Reads fraction depth t) (acc : List Tree)
    {fuel : Nat} (hfuel : (chars fraction t).length ≤ fuel) (rest : List Char) :
    items? depth acc (fuel + 1) (chars fraction t ++ ']' :: rest) =
      some (.list (t :: acc).reverse, rest) := by
  rw [items?, hread hfuel (ends_cons (by decide) rest)]
  rfl

theorem items?_chars {depth : Nat} {t : Tree} {ts : List Tree}
    (hread : ∀ u ∈ t :: ts, Reads fraction depth u) {acc : List Tree} {fuel : Nat}
    (hfuel : (chars fraction t ++ itemsAfter fraction ts).length ≤ fuel) (rest : List Char) :
    items? depth acc fuel (chars fraction t ++ itemsAfter fraction ts ++ rest) =
      some (.list (acc.reverse ++ t :: ts), rest) := by
  have ht : Reads fraction depth t := hread t List.mem_cons_self
  induction ts generalizing t acc fuel with
  | nil =>
    rw [itemsAfter, List.length_append, List.length_singleton] at hfuel
    obtain ⟨fuel, rfl⟩ : ∃ n, fuel = n + 1 := ⟨fuel - 1, by omega⟩
    rw [List.append_assoc, itemsAfter, List.singleton_append, items?_bracket ht acc (by omega),
      List.reverse_cons]
  | cons u ts ih =>
    rw [itemsAfter, List.cons_append, List.length_append, List.length_cons] at hfuel
    obtain ⟨fuel, rfl⟩ : ∃ n, fuel = n + 1 := ⟨fuel - 1, by omega⟩
    have hrest : ∀ v ∈ u :: ts, Reads fraction depth v := fun v hv =>
      hread v (List.mem_cons_of_mem t hv)
    rw [List.append_assoc, itemsAfter, List.cons_append, List.cons_append,
      items?_comma ht acc (by omega), ih hrest (by omega) (hrest u List.mem_cons_self),
      List.reverse_cons, List.append_assoc, List.singleton_append]

/-! #### Members -/

theorem put_of_notMem {key : String} {v : Tree} {es : List (String × Tree)}
    (h : key ∉ es.map Prod.fst) : Tree.put key v es = es ++ [(key, v)] := by
  induction es with
  | nil => rfl
  | cons e es ih =>
    rw [List.map_cons, List.mem_cons, not_or] at h
    rw [Tree.put, if_neg (Ne.symm h.1), ih h.2]
    rfl

section member

variable {depth : Nat} {k : String} {t : Tree} {acc : List (String × Tree)} {fuel : Nat}

theorem members?_comma (hread : Reads fraction depth t) (hk : k ∉ acc.map Prod.fst)
    (hfuel : (stringChars k ++ chars fraction t).length ≤ fuel) (rest : List Char) :
    members? depth acc (fuel + 1)
        ('"' :: (stringChars k ++ ':' :: (chars fraction t ++ ',' :: rest))) =
      members? depth (acc ++ [(k, t)]) fuel rest := by
  rw [List.length_append] at hfuel
  have hkey := string?_stringChars k (show (stringChars k).length ≤ fuel by omega)
  have hvalue : value? depth fuel (chars fraction t ++ ',' :: rest) = some (t, ',' :: rest) :=
    hread (by omega) (ends_cons (by decide) rest)
  rw [members?, skip_cons (by decide)]
  simp only [hkey]
  rw [skip_cons (by decide)]
  simp only [hvalue, put_of_notMem hk]
  rfl

theorem members?_brace (hread : Reads fraction depth t) (hk : k ∉ acc.map Prod.fst)
    (hfuel : (stringChars k ++ chars fraction t).length ≤ fuel) (rest : List Char) :
    members? depth acc (fuel + 1)
        ('"' :: (stringChars k ++ ':' :: (chars fraction t ++ '\x7d' :: rest))) =
      some (.table (acc ++ [(k, t)]), rest) := by
  rw [List.length_append] at hfuel
  have hkey := string?_stringChars k (show (stringChars k).length ≤ fuel by omega)
  have hvalue : value? depth fuel (chars fraction t ++ '\x7d' :: rest) = some (t, '\x7d' :: rest) :=
    hread (by omega) (ends_cons (by decide) rest)
  rw [members?, skip_cons (by decide)]
  simp only [hkey]
  rw [skip_cons (by decide)]
  simp only [hvalue, put_of_notMem hk]
  rfl

end member

theorem notMem_of_nodup {k : String} {t : Tree} {acc es : List (String × Tree)}
    (h : ((acc ++ (k, t) :: es).map Prod.fst).Nodup) : k ∉ acc.map Prod.fst := by
  rw [List.map_append, List.nodup_append] at h
  exact fun hk => h.2.2 k hk k List.mem_cons_self rfl

theorem members?_chars {depth : Nat} {k : String} {t : Tree} {es : List (String × Tree)}
    (hread : ∀ e ∈ (k, t) :: es, Reads fraction depth e.2) {acc : List (String × Tree)}
    (hkeys : ((acc ++ (k, t) :: es).map Prod.fst).Nodup) {fuel : Nat}
    (hfuel : (stringChars k ++ chars fraction t ++ membersAfter fraction es).length < fuel)
    (rest : List Char) :
    members? depth acc fuel ('"' :: (stringChars k ++
        ':' :: (chars fraction t ++ (membersAfter fraction es ++ rest)))) =
      some (.table (acc ++ (k, t) :: es), rest) := by
  have ht : Reads fraction depth t := hread (k, t) List.mem_cons_self
  have hk : k ∉ acc.map Prod.fst := notMem_of_nodup hkeys
  induction es generalizing k t acc fuel with
  | nil =>
    obtain ⟨fuel, rfl⟩ := Nat.exists_eq_add_one.2 (Nat.zero_lt_of_lt hfuel)
    rw [List.length_append] at hfuel
    exact members?_brace ht hk (by omega) rest
  | cons e es ih =>
    obtain ⟨l, u⟩ := e
    obtain ⟨fuel, rfl⟩ := Nat.exists_eq_add_one.2 (Nat.zero_lt_of_lt hfuel)
    have hkeys' : ((acc ++ [(k, t)] ++ (l, u) :: es).map Prod.fst).Nodup := by
      rwa [List.append_assoc]
    simp only [membersAfter, List.cons_append, List.append_assoc, List.length_cons,
      List.length_append] at hfuel ih ⊢
    rw [members?_comma ht hk (by rw [List.length_append]; omega),
      ih (fun e he => hread e (List.mem_cons_of_mem _ he)) hkeys' (by omega)
        (hread (l, u) (by simp)) (notMem_of_nodup hkeys')]
    simp

theorem value?_items {c : Char} (hc : Begins c) {depth fuel : Nat} (cs : List Char) :
    value? (depth + 1) (fuel + 1) ('[' :: c :: cs) = items? depth [] fuel (c :: cs) := by
  rw [value?, skip_cons (by decide)]
  simp only [hc.skip, Nat.add_eq_zero_iff, one_ne_zero, and_false, if_false]
  split
  · rename_i hclosed
    cases hclosed
    exact absurd hc (by decide)
  · rfl

theorem value?_members {depth fuel : Nat} (cs : List Char) :
    value? (depth + 1) (fuel + 1) ('\x7b' :: '"' :: cs) = members? depth [] fuel ('"' :: cs) := by
  rw [value?, skip_cons (by decide)]
  rfl

theorem value?_string {depth fuel : Nat} (cs : List Char) :
    value? depth (fuel + 1) ('"' :: cs) =
      (string? [] fuel cs).map fun (s, rest) => (.text s, rest) := by
  rw [value?, skip_cons (by decide)]
  rfl

theorem value?_number {c : Char} (hc : BeginsNumber c) {depth fuel : Nat}
    (cs : List Char) : value? depth (fuel + 1) (c :: cs) = number? (c :: cs) := by
  have hnone : ∀ d ∈ ['n', 't', 'f', '"', '[', '\x7b'], ¬ BeginsNumber d :=
    List.all_iff_forall_prop.1 (by decide)
  rw [value?, Begins.skip (.inr hc)]
  split
  all_goals first
    | rfl
    | rename_i heq
      cases heq
      exact absurd hc (hnone _ (by decide))

/-- There is a step for the first character. -/
theorem reads_of_succ {depth : Nat} {t : Tree} (hne : chars fraction t ≠ [])
    (h : ∀ {fuel : Nat} {rest : List Char}, (chars fraction t).length ≤ fuel + 1 → Ends rest →
      value? depth (fuel + 1) (chars fraction t ++ rest) = some (t, rest)) :
    Reads fraction depth t := by
  intro fuel rest hfuel hends
  have := List.length_pos_iff.2 hne
  obtain ⟨fuel, rfl⟩ : ∃ n, fuel = n + 1 := ⟨fuel - 1, by omega⟩
  exact h hfuel hends

theorem reads_number {depth : Nat} {t : Tree}
    (hread : ∀ rest, Ends rest → number? (chars fraction t ++ rest) = some (t, rest)) :
    Reads fraction depth t := by
  obtain ⟨c, cs, hcs, hc⟩ := exists_chars_of_number? hread
  refine reads_of_succ (by rw [hcs]; exact List.cons_ne_nil c cs) fun _ hends => ?_
  rw [← hread _ hends, hcs]
  exact value?_number hc _

theorem reads_list {depth : Nat} {ts : List Tree} (hread : ∀ t ∈ ts, Reads fraction depth t)
    (hbegins : ∀ t ∈ ts, ∃ c cs, chars fraction t = c :: cs ∧ Begins c) :
    Reads fraction (depth + 1) (.list ts) := by
  cases ts with
  | nil => exact reads_of_succ (by simp [chars]) fun _ _ => by simp [chars, value?, skip_cons]
  | cons t ts =>
    refine reads_of_succ (by simp [chars]) fun {fuel rest} hfuel _ => ?_
    rw [chars, List.cons_append, List.length_cons] at hfuel
    have hitems : items? depth [] fuel (chars fraction t ++ itemsAfter fraction ts ++ rest) = _ :=
      items?_chars hread (by omega) rest
    obtain ⟨c, cs, hcs, hc⟩ := hbegins t List.mem_cons_self
    rw [hcs] at hitems
    rw [chars, hcs]
    exact (value?_items hc _).trans hitems

theorem reads_table {depth : Nat} {es : List (String × Tree)} (hkeys : (es.map Prod.fst).Nodup)
    (hread : ∀ e ∈ es, Reads fraction depth e.2) : Reads fraction (depth + 1) (.table es) := by
  cases es with
  | nil => exact reads_of_succ (by simp [chars]) fun _ _ => by simp [chars, value?, skip_cons]
  | cons e es =>
    obtain ⟨k, t⟩ := e
    refine reads_of_succ (by simp [chars]) fun {fuel rest} hfuel _ => ?_
    simp only [chars, List.cons_append, List.append_assoc, List.length_cons,
      List.length_append] at hfuel ⊢
    refine (value?_members _).trans (members?_chars hread hkeys ?_ rest)
    simp only [List.length_append]
    omega

/-- A tree is read from its text, each value by what it begins with. -/
theorem reads_of_readable {depth : Nat} {t : Tree} (h : Readable fraction depth t) :
    Reads fraction depth t := by
  induction h with
  | null =>
    exact reads_of_succ (by simp [chars]) fun _ _ => by simp [chars, value?, skip_cons, word?]
  | bool b =>
    cases b <;> exact reads_of_succ (by simp [chars]) fun _ _ => by
      simp [chars, value?, skip_cons, word?]
  | @int _ n hrange => exact reads_number (t := .int n) fun _ => number?_wholeChars hrange
  | @float _ x hspelled => exact reads_number (t := .float x) hspelled
  | text s =>
    refine reads_of_succ (by simp [chars]) fun hfuel _ => ?_
    rw [chars, List.length_cons] at hfuel
    rw [chars, List.cons_append, value?_string, string?_stringChars s (by omega)]
    rfl
  | list hitems ih => exact reads_list ih fun t ht => (hitems t ht).exists_chars
  | table hkeys hvalues ih => exact reads_table hkeys ih

/-- A tree is read back from its text. -/
theorem parse?_write {fraction : Binary64 → List Char} {t : Tree}
    (h : Readable fraction depthLimit t) : parse? (write fraction t) = some t := by
  have hread : value? depthLimit (2 * (chars fraction t).length + 2) (chars fraction t ++ []) = _ :=
    reads_of_readable h (by omega) (by rintro _ ⟨⟩)
  rw [List.append_nil] at hread
  rw [parse?, write, String.toList_ofList]
  simp [hread, skip]

end LedgerClient.Settings.Json
