import LedgerClient.Bytes

/-!
# UTF-8

`toUtf8` and `ofUtf8?` pass between text and its bytes.  A byte string that is not text is
described by its *first flaw*: the longest run of bytes at that place that could begin a
character is the flaw, and a run cut short by the end of the input is an incomplete one.
`lossy` reads any byte string, with one replacement character for each flaw.
-/

namespace LedgerClient.Text

/-- The bytes of `s`. -/
def toUtf8 (s : String) : Bytes := s.toUTF8.data.toList

/-- The text whose bytes are `b`, if there is one. -/
def ofUtf8? (b : Bytes) : Option String := String.fromUTF8? ⟨b.toArray⟩

@[simp] theorem ofUtf8?_toUtf8 (s : String) : ofUtf8? (toUtf8 s) = some s := by
  simp [ofUtf8?, toUtf8, String.fromUTF8?, String.fromUTF8, s.isValidUTF8]

/-- Only the bytes of `s` read as `s`. -/
theorem eq_toUtf8_of_ofUtf8? {b : Bytes} {s : String} (h : ofUtf8? b = some s) :
    b = toUtf8 s := by
  unfold ofUtf8? String.fromUTF8? at h
  split at h
  · cases h; simp [toUtf8, String.fromUTF8]
  · cases h

theorem ofUtf8?_eq_some_iff {b : Bytes} {s : String} : ofUtf8? b = some s ↔ b = toUtf8 s :=
  ⟨eq_toUtf8_of_ofUtf8?, fun h => h ▸ ofUtf8?_toUtf8 s⟩

/-! ## Flaws -/

/-- What stands at the front of a byte string. -/
inductive Scan where
  /-- A whole character of `width` bytes. -/
  | char (c : Char) (width : Nat)
  /-- `length` bytes that begin no character. -/
  | flaw (length : Nat)
  /-- The start of a character that the input's end cuts short. -/
  | incomplete
  deriving DecidableEq, Repr

/-- `true` for the bytes that continue a character. -/
def isContinuation (b : UInt8) : Bool := 0x80 ≤ b && b ≤ 0xBF

/-- The width of the character that `b` begins and the range its second byte must lie in. -/
def lead? (b : UInt8) : Option (Nat × UInt8 × UInt8) :=
  if 0xC2 ≤ b && b ≤ 0xDF then some (2, 0x80, 0xBF)
  else if b == 0xE0 then some (3, 0xA0, 0xBF)
  else if b == 0xED then some (3, 0x80, 0x9F)
  else if 0xE1 ≤ b && b ≤ 0xEF then some (3, 0x80, 0xBF)
  else if b == 0xF0 then some (4, 0x90, 0xBF)
  else if 0xF1 ≤ b && b ≤ 0xF3 then some (4, 0x80, 0xBF)
  else if b == 0xF4 then some (4, 0x80, 0x8F)
  else none

/-- The low six bits of a continuation byte. -/
def payload (b : UInt8) : Nat := b.toNat % 64

/-- Reads what stands at the front of `b`, which holds at least the byte `first`. -/
def scanAfter (first : UInt8) (rest : Bytes) : Scan :=
  if first < 0x80 then .char (Char.ofNat first.toNat) 1
  else match lead? first with
    | none => .flaw 1
    | some (width, low, high) =>
      match rest with
      | [] => .incomplete
      | b :: rest =>
        if b < low || high < b then .flaw 1
        else if width = 2 then .char (Char.ofNat (first.toNat % 32 * 64 + payload b)) 2
        else match rest with
          | [] => .incomplete
          | c :: rest =>
            if !isContinuation c then .flaw 2
            else if width = 3 then
              .char (Char.ofNat ((first.toNat % 16 * 64 + payload b) * 64 + payload c)) 3
            else match rest with
              | [] => .incomplete
              | d :: _ =>
                if !isContinuation d then .flaw 3
                else .char (Char.ofNat
                  (((first.toNat % 8 * 64 + payload b) * 64 + payload c) * 64 + payload d)) 4

/-- Where a byte string stops being text, and how. -/
inductive Flaw where
  | invalid (length index : Nat)
  | incomplete (index : Nat)
  deriving DecidableEq, Repr

/-- The wording of a flaw. -/
def Flaw.message : Flaw → String
  | .invalid length index => s!"invalid utf-8 sequence of {length} bytes from index {index}"
  | .incomplete index => s!"incomplete utf-8 byte sequence from index {index}"

/-- The first flaw of `b`, whose first byte has index `index`. -/
def firstFlaw? (index : Nat) : Bytes → Option Flaw
  | [] => none
  | first :: rest =>
    match scanAfter first rest with
    | .char _ width => firstFlaw? (index + width) (rest.drop (width - 1))
    | .flaw length => some (.invalid length index)
    | .incomplete => some (.incomplete index)
termination_by b => b.length
decreasing_by simp only [List.length_drop, List.length_cons]; omega

/-- The characters of `b`, with one replacement character for each flaw. -/
def lossyChars : Bytes → List Char
  | [] => []
  | first :: rest =>
    match scanAfter first rest with
    | .char c width => c :: lossyChars (rest.drop (width - 1))
    | .flaw length => '\ufffd' :: lossyChars (rest.drop (length - 1))
    | .incomplete => ['\ufffd']
termination_by b => b.length
decreasing_by all_goals simp only [List.length_drop, List.length_cons]; omega

/-- Any byte string read as text. -/
def lossy (b : Bytes) : String := String.ofList (lossyChars b)

end LedgerClient.Text
