import LedgerClient.Proofs.Submission.Service
import Mathlib.Data.Bool.AllAny

/-!
# Spellings of addresses

An address is spelled `0x` or `0X` and forty hexadecimal digits, in either case.  The digits are
those of twenty bytes, two for each; the spelling in lower case after `0x` is the canonical one.

`Address.parse_spellings` says that these spellings are all that can be read as an address, and that
an address stands for its bytes in every respect: what is read from two spellings is the same, and
waits at the same lock, exactly if they are of the same bytes, and the order of addresses is the
order of their bytes.
-/

namespace LedgerClient

/-! ## Bytes of plain text -/

/-- The byte of a character that has one byte. -/
def Text.byteOf (c : Char) : UInt8 := UInt8.ofNat c.toNat

theorem Text.toUtf8_ofList {cs : List Char} (h : ∀ c ∈ cs, c.toNat < 128) :
    toUtf8 (String.ofList cs) = cs.map byteOf := by
  induction cs with
  | nil => rfl
  | cons c cs ih =>
    have hsize : c.utf8Size = 1 := by
      rw [Char.utf8Size_eq_one_iff, UInt32.le_iff_toNat_le]
      exact Nat.le_of_lt_succ (h c List.mem_cons_self)
    have hrest := ih fun d hd => h d (List.mem_cons_of_mem c hd)
    simp only [toUtf8, String.toUTF8_eq_toByteArray, String.toByteArray_ofList] at hrest ⊢
    rw [List.utf8Encode_cons, List.utf8Encode_singleton, String.utf8EncodeChar_eq_singleton hsize,
      ByteArray.data_append, Array.toList_append, hrest]
    rfl

theorem Text.toUtf8_injective {s t : String} (h : toUtf8 s = toUtf8 t) : s = t := by
  have := ofUtf8?_toUtf8 s
  rw [h, ofUtf8?_toUtf8] at this
  exact (Option.some.inj this).symm

namespace Hex

/-! ## Digits -/

/-- A hexadecimal digit of either case. -/
def IsDigit (c : Char) : Prop := c ∈ "0123456789abcdefABCDEF".toList

instance (c : Char) : Decidable (IsDigit c) := inferInstanceAs (Decidable (c ∈ _))

/-- The value of a digit: its place among the digits in their order. -/
def weight (c : Char) : Nat := "0123456789abcdef".toList.idxOf c.toLower

/-- The bytes whose digits are given, two for each. -/
def bytesOf : List Char → Bytes
  | high :: low :: rest => UInt8.ofNat (16 * weight high + weight low) :: bytesOf rest
  | _ => []

theorem length_bytesOf : ∀ cs : List Char, (bytesOf cs).length = cs.length / 2
  | [] => rfl
  | [_] => by simp [bytesOf]
  | _ :: _ :: cs => by
    rw [bytesOf, List.length_cons, length_bytesOf cs, List.length_cons, List.length_cons]
    omega

/-- What holds of all digits holds of each. -/
theorem IsDigit.of_all {p : Char → Prop} [DecidablePred p] {c : Char} (h : IsDigit c)
    (hall : "0123456789abcdefABCDEF".toList.all fun c => p c) : p c :=
  List.all_iff_forall_prop.1 hall c h

theorem toNat_lt_of_isDigit {c : Char} (h : IsDigit c) : c.toNat < 128 :=
  h.of_all (p := fun c => c.toNat < 128) (by decide)

theorem weight_lt {c : Char} (h : IsDigit c) : weight c < 16 :=
  h.of_all (p := fun c => weight c < 16) (by decide)

theorem digit_weight {c : Char} (h : IsDigit c) : digit (weight c) = c.toLower :=
  h.of_all (p := fun c => digit (weight c) = c.toLower) (by decide)

theorem value?_byteOf {c : Char} (h : IsDigit c) : value? (Text.byteOf c) = some (weight c) :=
  h.of_all (p := fun c => value? (Text.byteOf c) = some (weight c)) (by decide)

theorem exists_of_value? {b : UInt8} {v : Nat} (h : value? b = some v) :
    ∃ c, IsDigit c ∧ Text.byteOf c = b := by
  have : ∀ n < 256, (value? (UInt8.ofNat n)).isSome → IsDigit (Char.ofNat n) ∧
    Text.byteOf (Char.ofNat n) = UInt8.ofNat n := by decide +kernel
  have hb := this b.toNat b.toNat_lt
  rw [UInt8.ofNat_toNat] at hb
  exact ⟨_, hb (by rw [h]; rfl)⟩

theorem isDigit_digit {n : Nat} (h : n < 16) :
    IsDigit (digit n) ∧ weight (digit n) = n := by
  have : ∀ n < 16, IsDigit (digit n) ∧ weight (digit n) = n := by decide
  exact this n h

theorem isDigit_of_mem_digits {x : UInt8} {c : Char} (h : c ∈ digits x) : IsDigit c := by
  have := x.toNat_lt
  simp only [digits, List.mem_cons, List.not_mem_nil, or_false] at h
  rcases h with rfl | rfl
  · exact (isDigit_digit (by omega)).1
  · exact (isDigit_digit (by omega)).1

theorem length_flatMap_digits (b : Bytes) : (b.flatMap digits).length = 2 * b.length := by
  induction b with
  | nil => rfl
  | cons x b ih =>
    rw [List.flatMap_cons, List.length_append, ih, digits, List.length_cons, List.length_cons,
      List.length_cons, List.length_nil]
    omega

/-! ## Reading and writing -/

theorem decodePairs_map : ∀ {cs : List Char} (_ : ∀ c ∈ cs, IsDigit c) (position : Nat),
    decodePairs position (cs.map Text.byteOf) = .ok (bytesOf cs)
  | [], _, _ => rfl
  | [_], _, _ => rfl
  | high :: low :: rest, h, position => by
    simp only [List.forall_mem_cons] at h
    obtain ⟨hhigh, hlow, hrest⟩ := h
    rw [List.map_cons, List.map_cons, decodePairs, value?_byteOf hhigh, value?_byteOf hlow,
      decodePairs_map hrest]
    rfl

theorem exists_of_decodePairs {position : Nat} {b r : Bytes}
    (h : decodePairs position b = .ok r) (heven : b.length % 2 = 0) :
    ∃ cs : List Char, (∀ c ∈ cs, IsDigit c) ∧ cs.map Text.byteOf = b := by
  fun_induction decodePairs position b generalizing r with
  | case1 | case2 => cases h
  | case3 position high low rest v w hlow hhigh ih =>
    obtain ⟨c, hc, rfl⟩ := exists_of_value? hhigh
    obtain ⟨d, hd, rfl⟩ := exists_of_value? hlow
    cases hrest : decodePairs (position + 2) rest with
    | error e =>
      rw [hrest] at h
      cases h
    | ok tail =>
      rw [List.length_cons, List.length_cons] at heven
      obtain ⟨cs, hcs, rfl⟩ := ih hrest (by omega)
      exact ⟨c :: d :: cs, List.forall_mem_cons.2 ⟨hc, List.forall_mem_cons.2 ⟨hd, hcs⟩⟩, rfl⟩
  | case4 b _ hpairs =>
    match b, hpairs with
    | [], _ => exact ⟨[], nofun, rfl⟩
    | [_], _ => cases heven
    | _ :: _ :: _, hpairs => exact absurd rfl (hpairs _ _ _)

/-- What can be read is an even number of digits, and stands for their bytes. -/
theorem decode_eq_ok_iff {s : String} {b : Bytes} :
    decode s = .ok b ↔
      s.toList.length % 2 = 0 ∧ (∀ c ∈ s.toList, IsDigit c) ∧ bytesOf s.toList = b := by
  have hutf8 {cs : List Char} (hcs : ∀ c ∈ cs, IsDigit c) :
      Text.toUtf8 (String.ofList cs) = cs.map Text.byteOf :=
    Text.toUtf8_ofList fun c hc => toNat_lt_of_isDigit (hcs c hc)
  rw [decode, decodeBytes]
  constructor
  · intro h
    split at h
    · cases h
    · rename_i hodd
      obtain ⟨cs, hcs, hbytes⟩ := exists_of_decodePairs h (by omega)
      obtain rfl : String.ofList cs = s := Text.toUtf8_injective ((hutf8 hcs).trans hbytes)
      rw [hutf8 hcs, decodePairs_map hcs] at h
      rw [hutf8 hcs, List.length_map] at hodd
      rw [String.toList_ofList]
      exact ⟨by omega, hcs, Except.ok.inj h⟩
  · rintro ⟨heven, hdigits, rfl⟩
    have hbytes := hutf8 hdigits
    rw [String.ofList_toList] at hbytes
    rw [hbytes, List.length_map, if_neg (by omega), decodePairs_map hdigits]

/-- The lower-case digits of bytes that digits stand for are these digits in lower case. -/
theorem flatMap_digits_bytesOf : ∀ {cs : List Char} (_ : ∀ c ∈ cs, IsDigit c)
    (_ : cs.length % 2 = 0), (bytesOf cs).flatMap digits = cs.map Char.toLower
  | [], _, _ => rfl
  | [_], _, heven => nomatch heven
  | high :: low :: rest, h, heven => by
    simp only [List.forall_mem_cons] at h
    obtain ⟨hhigh, hlow, hrest⟩ := h
    have := weight_lt hhigh
    have := weight_lt hlow
    have hbyte : (UInt8.ofNat (16 * weight high + weight low)).toNat =
        16 * weight high + weight low := by
      rw [UInt8.toNat_ofNat']
      omega
    rw [List.length_cons, List.length_cons] at heven
    rw [bytesOf, List.flatMap_cons, digits, hbyte, flatMap_digits_bytesOf hrest (by omega),
      show (16 * weight high + weight low) / 16 = weight high by omega,
      show (16 * weight high + weight low) % 16 = weight low by omega, digit_weight hhigh,
      digit_weight hlow]
    rfl

theorem bytesOf_flatMap_digits (b : Bytes) : bytesOf (b.flatMap digits) = b := by
  induction b with
  | nil => rfl
  | cons x b ih =>
    have := x.toNat_lt
    rw [List.flatMap_cons, digits]
    show UInt8.ofNat (16 * weight (digit (x.toNat / 16)) + weight (digit (x.toNat % 16))) ::
      bytesOf (b.flatMap digits) = _
    rw [(isDigit_digit (show x.toNat / 16 < 16 by omega)).2,
      (isDigit_digit (show x.toNat % 16 < 16 by omega)).2, ih,
      show 16 * (x.toNat / 16) + x.toNat % 16 = x.toNat by omega, UInt8.ofNat_toNat]

/-! ## Order -/

theorem digit_lt_iff {m n : Nat} (hm : m < 16) (hn : n < 16) :
    (digit m < digit n ↔ m < n) ∧ (digit m = digit n ↔ m = n) := by
  have : ∀ m < 16, ∀ n < 16, (digit m < digit n ↔ m < n) ∧ (digit m = digit n ↔ m = n) := by
    decide +kernel
  exact this m hm n hn

/-- The digits of bytes are in the order of the bytes, because each digit is. -/
theorem flatMap_digits_lt_iff {a b : Bytes} : a.flatMap digits < b.flatMap digits ↔ a < b := by
  induction a generalizing b with
  | nil =>
    cases b with
    | nil => exact iff_of_false (List.not_lt_nil _) (List.not_lt_nil _)
    | cons y b => exact iff_of_true (List.nil_lt_cons ..) (List.nil_lt_cons ..)
  | cons x a ih =>
    cases b with
    | nil => exact iff_of_false (List.not_lt_nil _) (List.not_lt_nil _)
    | cons y b =>
      have := x.toNat_lt
      have := y.toNat_lt
      obtain ⟨hhigh, hhigh'⟩ := digit_lt_iff (show x.toNat / 16 < 16 by omega)
        (show y.toNat / 16 < 16 by omega)
      obtain ⟨hlow, hlow'⟩ := digit_lt_iff (show x.toNat % 16 < 16 by omega)
        (show y.toNat % 16 < 16 by omega)
      have hlt : x < y ↔ x.toNat / 16 < y.toNat / 16 ∨
          x.toNat / 16 = y.toNat / 16 ∧ x.toNat % 16 < y.toNat % 16 := by
        rw [UInt8.lt_iff_toNat_lt]
        omega
      have heq : x = y ↔ x.toNat / 16 = y.toNat / 16 ∧ x.toNat % 16 = y.toNat % 16 := by
        rw [← UInt8.toNat_inj]
        omega
      simp only [List.flatMap_cons, digits, List.cons_append, List.nil_append,
        List.cons_lt_cons_iff, ih, hhigh, hhigh', hlow, hlow', hlt, heq, and_or_left, or_assoc,
        and_assoc]

end Hex

namespace Account

open Hex

/-! ## Spellings -/

/-- A spelling of an address: a prefix, and the digits of its bytes. -/
structure Spelling where
  /-- The prefix is `0X`. -/
  capital : Bool
  digits : List Char
  length_digits : digits.length = 40
  isDigit : ∀ c ∈ digits, IsDigit c

namespace Spelling

def text (w : Spelling) : String :=
  (if w.capital then "0X" else "0x") ++ String.ofList w.digits

/-- The spelling in lower case. -/
def canonical (w : Spelling) : String := "0x" ++ String.ofList (w.digits.map Char.toLower)

/-- The bytes that are spelled. -/
def bytes (w : Spelling) : Bytes := bytesOf w.digits

/-- The address that is spelled. -/
def address (w : Spelling) : Address where
  bytes := w.bytes
  length_bytes := by rw [bytes, length_bytesOf, w.length_digits]; rfl

theorem text_address (w : Spelling) : w.address.text = w.canonical := by
  have heven : w.digits.length % 2 = 0 := by rw [w.length_digits]
  rw [Address.text, encode, canonical]
  exact congrArg (fun cs => "0x" ++ String.ofList cs) (flatMap_digits_bytesOf w.isDigit heven)

end Spelling

namespace Address

theorem body?_text (w : Spelling) : body? w.text = some (String.ofList w.digits) := by
  rw [body?, Spelling.text]
  cases w.capital <;> simp

theorem exists_of_body? {s body : String} (h : body? s = some body) :
    ∃ capital : Bool, s = (if capital then "0X" else "0x") ++ body := by
  unfold body? at h
  split at h
  · rename_i rest hs
    cases h
    exact ⟨false, String.toList_injective (by simpa using hs)⟩
  · rename_i rest hs
    cases h
    exact ⟨true, String.toList_injective (by simpa using hs)⟩
  · cases h

theorem parse_eq_ok_iff {s : String} {a : Address} :
    parse s = .ok a ↔ ∃ w : Spelling, w.text = s ∧ w.address = a := by
  constructor
  · intro h
    rw [parse] at h
    split at h
    · cases h
    · rename_i body hbody
      split at h
      · cases h
      · rename_i bytes hbytes
        split at h
        · rename_i hlength
          obtain ⟨capital, hs⟩ := exists_of_body? hbody
          obtain ⟨heven, hdigits, rfl⟩ := decode_eq_ok_iff.1 hbytes
          rw [length_bytesOf] at hlength
          let w : Spelling := ⟨capital, body.toList, by
            rw [addressLength] at hlength
            omega, hdigits⟩
          refine ⟨w, ?_, Except.ok.inj h⟩
          rw [hs, Spelling.text, String.ofList_toList]
        · cases h
  · rintro ⟨w, rfl, rfl⟩
    have hbytes : decode (String.ofList w.digits) = .ok w.bytes := by
      rw [decode_eq_ok_iff, String.toList_ofList, w.length_digits]
      exact ⟨rfl, w.isDigit, rfl⟩
    simp only [parse, body?_text, hbytes]
    exact dif_pos w.address.length_bytes

/-- Every address has its text as a spelling in lower case. -/
theorem exists_canonical (a : Address) :
    ∃ w : Spelling, w.address = a ∧ w.text = a.text ∧ w.canonical = a.text := by
  let w : Spelling := {
    capital := false
    digits := a.bytes.flatMap Hex.digits
    length_digits := by rw [length_flatMap_digits, a.length_bytes]; rfl
    isDigit := by
      intro c hc
      obtain ⟨x, -, hx⟩ := List.mem_flatMap.1 hc
      exact isDigit_of_mem_digits hx }
  have hw : w.address = a := ext (bytesOf_flatMap_digits a.bytes)
  exact ⟨w, hw, rfl, by rw [← w.text_address, hw]⟩

theorem lt_iff {a b : Address} : a < b ↔ a.bytes < b.bytes := by
  have hdigits : a.text < b.text ↔ a.bytes.flatMap Hex.digits < b.bytes.flatMap Hex.digits := by
    rw [String.lt_iff]
    simp [text, encode]
  exact hdigits.trans flatMap_digits_lt_iff

/-- What can be read as an address are the spellings; the text of what is read is the spelling in
lower case, which reads as the same again; and the text of an address that is made from a key is
spelled in lower case, with the digits of the end of the key's digest.  Two spellings have the same
address, and so the same lock, exactly if they spell the same bytes, and addresses are ordered as
their bytes are. -/
theorem parse_spellings :
    (∀ s a, parse s = .ok a ↔ ∃ w : Spelling, w.text = s ∧ w.address = a) ∧
    (∀ w : Spelling, w.address.text = w.canonical ∧ parse w.canonical = .ok w.address) ∧
    (∀ key, ∃ w : Spelling, (ofPublicKey key).text = w.canonical ∧
      w.bytes = (Digest.sha256.digest key).drop 12) ∧
    (∀ w w' : Spelling, (parse w.text = parse w'.text ↔ w.bytes = w'.bytes) ∧
      (w.address.text = w'.address.text ↔ w.bytes = w'.bytes) ∧
      ∀ moves, ∀ k ∈ (LockTable.after moves).line w.address,
        ∀ l ∈ (LockTable.after moves).line w'.address, k.mutex = l.mutex ↔ w.bytes = w'.bytes) ∧
    ∀ a b : Address, a < b ↔ a.bytes < b.bytes := by
  have hread (w : Spelling) : parse w.text = .ok w.address := parse_eq_ok_iff.2 ⟨w, rfl, rfl⟩
  have hbytes {w w' : Spelling} : w.address = w'.address ↔ w.bytes = w'.bytes :=
    ⟨congrArg Address.bytes, fun h => ext h⟩
  have htext (a : Address) : parse a.text = .ok a := by
    obtain ⟨w, rfl, hw, -⟩ := exists_canonical a
    rw [← hw, hread]
  refine ⟨fun s a => parse_eq_ok_iff, fun w => ⟨w.text_address, ?_⟩, fun key => ?_,
    fun w w' => ⟨?_, ?_, fun moves k hk l hl => ?_⟩, fun a b => lt_iff⟩
  · rw [← w.text_address, htext]
  · obtain ⟨w, hw, -, hcanonical⟩ := exists_canonical (ofPublicKey key)
    exact ⟨w, hcanonical.symm, congrArg Address.bytes hw⟩
  · rw [hread, hread, Except.ok.injEq, hbytes]
  · rw [← hbytes]
    refine ⟨fun h => ?_, congrArg text⟩
    have := htext w.address
    rw [h, htext] at this
    exact (Except.ok.inj this).symm
  · have hwell := LockTable.wellFormed_after moves
    obtain ⟨hk, hka⟩ := LockTable.mem_line.1 hk
    obtain ⟨hl, hla⟩ := LockTable.mem_line.1 hl
    rw [← hbytes, ← hka, ← hla]
    exact ⟨hwell.account_eq_of_mutex_eq hk hl, hwell.mutex_eq_of_account_eq hk hl⟩

/-- Forty digits `a` of either case, behind either prefix, are one address, and two takers that
spell it so wait for one another. -/
theorem parse_spellings_twoCases :
    let w : Spelling := ⟨false, List.replicate 40 'A', rfl, List.all_iff_forall_prop.1 (by decide)⟩
    let w' : Spelling := ⟨true, List.replicate 40 'a', rfl, List.all_iff_forall_prop.1 (by decide)⟩
    let moves : List LockTable.Move := [.draw w.address, .draw w'.address]
    w.text ≠ w'.text ∧ parse w.text = parse w'.text ∧
      ∃ k ∈ (LockTable.after moves).line w.address, ∃ l ∈ (LockTable.after moves).line w'.address,
        k.id ≠ l.id ∧ k.mutex = l.mutex := by
  intro w w' moves
  have hbytes : w.bytes = w'.bytes := by decide +kernel
  obtain ⟨hread, -, hlock⟩ := parse_spellings.2.2.2.1 w w'
  have htickets : (LockTable.after moves).tickets =
      [⟨0, w.address, 0, .held⟩, ⟨1, w'.address, 0, .waiting⟩] := by rfl
  have hk : ⟨0, w.address, 0, .held⟩ ∈ (LockTable.after moves).line w.address := by
    simp [htickets]
  have hl : ⟨1, w'.address, 0, .waiting⟩ ∈ (LockTable.after moves).line w'.address := by
    simp [htickets]
  exact ⟨by decide, hread.2 hbytes, _, hk, _, hl, by decide, (hlock moves _ hk _ hl).2 hbytes⟩

end Address
end Account
end LedgerClient
