import LedgerClient.Proofs.Decimal.Digits
import LedgerClient.Proofs.Session.Courses
import LedgerClient.Proofs.Session.Crashing
import Mathlib.Data.List.TakeWhile

/-!
# Answered numbers

A node answers a lookup of a nonce with a number in plain text: a decimal numeral, which may have
a plus in front of its digits, between any blanks.

`readDecimal_spec` says that a lookup yields the number of such a text, if 64 bits can hold it, and
that any other answer is refused as a whole; no number is cut short or counted around.
-/

namespace LedgerClient

open Account Decimal Ledger Rpc Text Wire

/-! ## Blanks around a text -/

/-- A run of blanks. -/
def Text.Blanks : Type := {cs : List Char // ∀ c ∈ cs, isBlank c = true}

/-- Characters with blanks around them. -/
def Text.between (front : Blanks) (cs : List Char) (back : Blanks) : String :=
  String.ofList (front.1 ++ cs ++ back.1)

theorem Text.trimStart_append (front : Blanks) (cs : List Char) :
    trimStart (front.1 ++ cs) = trimStart cs := List.dropWhile_append_of_pos front.2

theorem Text.exists_trimStart (cs : List Char) : ∃ front : Blanks, cs = front.1 ++ trimStart cs :=
  ⟨⟨cs.takeWhile isBlank, fun _ => List.mem_takeWhile_imp⟩,
    List.takeWhile_append_dropWhile.symm⟩

/-- The same blanks, read from the end. -/
def Text.Blanks.reverse (b : Blanks) : Blanks :=
  ⟨b.1.reverse, fun c hc => b.2 c (List.mem_reverse.1 hc)⟩

theorem Text.trimStart_cons {c : Char} (h : isBlank c = false) (cs : List Char) :
    trimStart (c :: cs) = c :: cs := List.dropWhile_cons_of_neg (by rw [h]; decide)

theorem Text.trimStart_of_forall {cs : List Char} (h : ∀ c ∈ cs, isBlank c = false) :
    trimStart cs = cs := by
  cases cs with
  | nil => rfl
  | cons c cs => exact trimStart_cons (h c List.mem_cons_self) cs

/-- Blanks are removed from around characters that are none. -/
theorem Text.trimChars_between {cs : List Char} (h : ∀ c ∈ cs, isBlank c = false)
    (front back : Blanks) : trimChars (front.1 ++ cs ++ back.1) = cs := by
  rw [trimChars, List.append_assoc, trimStart_append]
  cases cs with
  | nil =>
    have hback := trimStart_append back []
    rw [List.append_nil] at hback
    rw [List.nil_append, hback]
    rfl
  | cons c cs =>
    have hreverse : trimStart (back.1.reverse ++ (c :: cs).reverse) = (c :: cs).reverse :=
      (trimStart_append back.reverse _).trans <|
        trimStart_of_forall fun d hd => h d (List.mem_reverse.1 hd)
    rw [List.cons_append, trimStart_cons (h c List.mem_cons_self), ← List.cons_append,
      List.reverse_append, hreverse, List.reverse_reverse]

theorem Text.exists_between (cs : List Char) :
    ∃ front back : Blanks, cs = front.1 ++ trimChars cs ++ back.1 := by
  obtain ⟨front, hfront⟩ := exists_trimStart cs
  obtain ⟨back, hback⟩ := exists_trimStart (trimStart cs).reverse
  refine ⟨front, back.reverse, ?_⟩
  have htrim : trimStart cs = trimChars cs ++ back.1.reverse := by
    rw [trimChars, ← List.reverse_append, ← hback, List.reverse_reverse]
  rw [List.append_assoc, Blanks.reverse, ← htrim]
  exact hfront

/-! ## Reading an answer -/

theorem Decimal.Numeral.isBlank_of_mem {w : Numeral} {c : Char} (h : c ∈ w.chars) :
    isBlank c = false := by
  obtain hplus | hdigit := List.mem_append.1 h
  · split at hplus
    · rw [List.mem_singleton.1 hplus]
      decide
    · cases hplus
  · have := isDigit_iff.1 (w.isDigit c hdigit)
    rw [isBlank]
    grind

/-- What is read as a number is the text of one. -/
theorem readDecimal_eq_ok_iff {data : Bytes} {n : UInt64} :
    readDecimal data = .ok n ↔ ∃ (front back : Blanks) (w : Numeral),
      data = toUtf8 (between front w.chars back) ∧ w.value = n.toNat := by
  have hread : readDecimal data = .ok n ↔
      ((ofUtf8? data).bind fun s => uint64? (trim s).toList) = some n := by
    rw [readDecimal]
    cases (ofUtf8? data).bind fun s => uint64? (trim s).toList <;> simp
  rw [hread, Option.bind_eq_some_iff]
  simp only [ofUtf8?_eq_some_iff, trim, String.toList_ofList, uint64?_eq_some_iff]
  constructor
  · rintro ⟨s, rfl, w, hw, hvalue⟩
    obtain ⟨front, back, hs⟩ := exists_between s.toList
    rw [← hw] at hs
    exact ⟨front, back, w, by rw [between, ← hs, String.ofList_toList], hvalue⟩
  · rintro ⟨front, back, w, rfl, hvalue⟩
    refine ⟨_, rfl, w, ?_, hvalue⟩
    rw [between, String.toList_ofList, trimChars_between fun c hc => w.isBlank_of_mem hc]

/-- The refusal of an answer to a lookup. -/
def notDecimal (data : Bytes) : ClientError :=
  .invalidResponse s!"expected a decimal number, got {quoted (lossy data)}"

theorem readDecimal_ok_or_error (data : Bytes) :
    (∃ n, readDecimal data = .ok n) ∨ readDecimal data = .error (notDecimal data) := by
  rw [readDecimal]
  cases (ofUtf8? data).bind fun s => uint64? (trim s).toList with
  | some n => exact .inl ⟨n, rfl⟩
  | none => exact .inr rfl

/-- An answer is refused exactly if it is not the text of a number, or of one beyond 64 bits. -/
theorem readDecimal_eq_error_iff {data : Bytes} {err : ClientError} :
    readDecimal data = .error err ↔ err = notDecimal data ∧
      ∀ (front back : Blanks) (w : Numeral), data = toUtf8 (between front w.chars back) →
        UInt64.size ≤ w.value := by
  constructor
  · intro h
    refine ⟨?_, fun front back w hdata => Nat.le_of_not_lt fun hsize => ?_⟩
    · obtain ⟨n, hn⟩ | hn := readDecimal_ok_or_error data
      · rw [hn] at h
        cases h
      · rw [hn] at h
        cases h
        rfl
    · have hn : readDecimal data = .ok (UInt64.ofNat w.value) := readDecimal_eq_ok_iff.2
        ⟨front, back, w, hdata, (UInt64.toNat_ofNat_of_lt hsize).symm⟩
      rw [hn] at h
      cases h
  · rintro ⟨rfl, hbeyond⟩
    obtain ⟨n, hn⟩ | hn := readDecimal_ok_or_error data
    · obtain ⟨front, back, w, hdata, hvalue⟩ := readDecimal_eq_ok_iff.1 hn
      have := hbeyond front back w hdata
      have := n.toNat_lt
      rw [hvalue, UInt64.size] at *
      omega
    · exact hn

/-! ## Looking a nonce up -/

theorem Reply.response?_eq_some_iff {Res : Type} [Message Res] {reply : Reply Bytes} {a : Res} :
    reply.response? Res = some a ↔
      ∃ data, reply = .ended (.ok data) ∧ readResponse Res data = .ok a := by
  constructor
  · intro h
    rcases reply with (status | data) | _
    · cases h
    · refine ⟨data, rfl, ?_⟩
      rw [Reply.response?] at h
      cases hread : readResponse Res data with
      | error status =>
        rw [hread] at h
        cases h
      | ok b =>
        rw [hread] at h
        cases h
        rfl
    · cases h
  · rintro ⟨data, rfl, hread⟩
    rw [Reply.response?, hread]
    rfl

/-- A lookup that is answered with a response comes to what the data of the response read as. -/
theorem LookupGoes.result_eq {c : Nat} {account : Address} {e : Surroundings Network Session}
    {n : Nat} {s : Session} {k : Call} {reply : Reply Bytes} {response : Response}
    {result : Except Crash (Except ClientError UInt64)}
    (h : LookupGoes c account e n s [(k, reply)] result)
    (hresponse : reply.response? Response = some response) :
    result = .ok (readDecimal response.data) := by
  obtain ⟨r, hcall, rfl⟩ := h
  obtain ⟨data, rfl, hread⟩ := Reply.response?_eq_some_iff.1 hresponse
  cases hcall with
  | carried _ _ _ _ _ =>
    rw [Reply.read, Except.bind, hread]
    rfl

/-- A node's answer to a lookup of a nonce is read as the number of a decimal numeral between
blanks, if 64 bits can hold it; everything else is refused with its text.  The text of every number
is read as the number, whatever blanks are around it.  A lookup that is answered comes to just this,
and a lookup that yields a nonce was answered with a text of it. -/
theorem readDecimal_spec :
    (∀ data n, readDecimal data = .ok n ↔ ∃ (front back : Blanks) (w : Numeral),
      data = toUtf8 (between front w.chars back) ∧ w.value = n.toNat) ∧
    (∀ data err, readDecimal data = .error err ↔ err = notDecimal data ∧
      ∀ (front back : Blanks) (w : Numeral), data = toUtf8 (between front w.chars back) →
        UInt64.size ≤ w.value) ∧
    (∀ (n : UInt64) (front back : Blanks),
      readDecimal (toUtf8 (between front (toString n).toList back)) = .ok n) ∧
    ∀ (c : Nat) (account : Address) (e : Surroundings Network Session) (n : Nat) (s : Session),
      let course := (getPendingNonce c account).amid e n s
      (∀ k reply (response : Response), course.calls = [(k, reply)] →
        reply.response? Response = some response →
        course.result = .ok (readDecimal response.data)) ∧
      ∀ nonce, course.result = .ok (.ok nonce) →
        ∃ k reply, ∃ response : Response, course.calls = [(k, reply)] ∧
          reply.response? Response = some response ∧
          ∃ (front back : Blanks) (w : Numeral),
            response.data = toUtf8 (between front w.chars back) ∧ w.value = nonce.toNat := by
  refine ⟨fun data n => readDecimal_eq_ok_iff, fun data err => readDecimal_eq_error_iff,
    fun n front back => ?_, fun c account e n s => ?_⟩
  · have hchars : (toString n).toList = (Numeral.ofNat n.toNat).chars := by
      rw [Numeral.chars_ofNat]
      exact (congrArg String.toList Nat.repr_eq_ofList_toDigits).trans String.toList_ofList
    rw [hchars, readDecimal_eq_ok_iff]
    exact ⟨front, back, .ofNat n.toNat, rfl, Numeral.value_ofNat _⟩
  · intro course
    have hgoes := amid_getPendingNonce (e := e) (n := n) (s := s) c account
    refine ⟨fun k reply response hcalls hresponse => ?_, fun nonce hresult => ?_⟩
    · rw [show ((getPendingNonce c account).amid e n s).calls = _ from hcalls] at hgoes
      exact hgoes.result_eq hresponse
    · rw [show ((getPendingNonce c account).amid e n s).result = _ from hresult] at hgoes
      obtain ⟨k, reply, hcalls, hnonce⟩ := hgoes.exists_reply
      obtain ⟨response, hresponse, hread⟩ := Option.bind_eq_some_iff.1 hnonce
      rw [hcalls] at hgoes
      have hok : readDecimal response.data = .ok nonce :=
        (Except.ok.inj (hgoes.result_eq hresponse)).symm
      exact ⟨k, reply, response, hcalls, hresponse, readDecimal_eq_ok_iff.1 hok⟩

/-- A network on which every dial succeeds, and every call is answered with the number forty-two
between blanks, with a plus and a zero in front. -/
def answersFortyTwo : (r : NetworkRequest) → Network.Answer r
  | .call _ => .ended (.ok (Message.encode { data := toUtf8 " +042\n" : Response }))
  | r => opensStreams r

theorem readDecimal_spec_fortyTwo : ∃ s, Session.startOne 2000 = .ok s ∧
    let course := (getPendingNonce 0 default).amid ⟨fun _ => answersFortyTwo, fun _ => id⟩ 0 s
    course.calls.length = 1 ∧ course.result = .ok (.ok 42) := by
  obtain ⟨s, hs⟩ : ∃ s, Session.startOne 2000 = .ok s := ⟨_, rfl⟩
  refine ⟨s, hs, ?_⟩
  intro course
  have hanswered : course.calls.map (fun k => k.2.response? Response) =
      [some { data := toUtf8 " +042\n" }] := by
    cases hs
    decide +kernel
  obtain ⟨⟨k, reply⟩, hcalls, hresponse⟩ := List.map_eq_singleton_iff.1 hanswered
  have hread : readDecimal (toUtf8 " +042\n") = .ok 42 := by decide +kernel
  refine ⟨by rw [hcalls]; rfl, ?_⟩
  rw [(readDecimal_spec.2.2.2 0 default _ 0 s).1 k reply _ hcalls hresponse, hread]

end LedgerClient
