import LedgerClient.Proofs.Wire.RoundTrip
import LedgerClient.Submission.Draft

/-!
# What a signature covers and what a node finds in it

The signing bytes of a transaction tell all its fields but the signature itself:
`signingBytes_eq_iff` says that two transactions have the same signing bytes exactly if they agree
in all other fields.

A node gets the bytes of a signed transaction.  `signed_read_by_node` says that it reads the
transaction that was signed, with the fields of the draft, computes the same hash, and finds the
address of the key from the signature alone.  What is relied on of the curve are two facts about the
key at hand: its public half is the writing of a point, and a signature is accepted by the key that
made it.
-/

namespace LedgerClient

open Account Ledger Wire

/-! ## The fields that are covered -/

namespace Ledger.Transaction

theorem signingBytes_eq_iff_withoutSignature {t u : Transaction} :
    t.signingBytes = u.signingBytes ↔ { t with signature := [] } = { u with signature := [] } :=
  ⟨fun h => Message.encode_inj (by decide) h, congrArg Message.encode⟩

/-- A transaction that has no signature is written as it stands. -/
theorem signingBytes_of_unsigned {t : Transaction} (h : t.signature = []) :
    t.signingBytes = Message.encode t := by
  rw [signingBytes, ← h]

/-- The signing bytes cover every field but the signature.  Nothing has to be left out where there
is no signature, and the transaction itself is written. -/
theorem signingBytes_eq_iff (t u : Transaction) :
    (t.signingBytes = u.signingBytes ↔
      t.sender = u.sender ∧ t.recipient = u.recipient ∧ t.timestamp = u.timestamp ∧
        t.payload = u.payload ∧ t.ibtp = u.ibtp ∧ t.nonce = u.nonce ∧ t.amount = u.amount ∧
        t.extra = u.extra) ∧
      (if t.signature = [] then Message.encode t else Message.encode { t with signature := [] }) =
        t.signingBytes := by
  constructor
  · rw [signingBytes_eq_iff_withoutSignature, Transaction.mk.injEq]
    simp
  · split
    · rename_i h
      exact (signingBytes_of_unsigned h).symm
    · rfl

end Ledger.Transaction

/-! ## Signatures and their keys -/

namespace Curve

theorem length_publicKey (seed : Bytes) : (publicKey seed).length = publicKeyLength := by
  simp [publicKey, Point.encode, publicKeyLength]

theorem length_signWith (seed key message : Bytes) : (signWith seed key message).length = 64 := by
  simp [signWith, Point.encode]

end Curve

/-- The address of a key is found in a signature that the curve accepts as one by the key. -/
theorem recover_of_verifyWith {key signature message : Bytes} {a : Curve.Point}
    (hkey : key.length = publicKeyLength) (hlength : signature.length = 64)
    (hpoint : Curve.Point.decode? key = some a)
    (hverify : Curve.verifyWith a key message signature = true) :
    recover message (algorithmTag :: key ++ signature) = .ok (.ofPublicKey key) := by
  have hlength : (algorithmTag :: (key ++ signature)).length = signatureLength := by
    rw [List.length_cons, List.length_append, hkey, hlength]
    rfl
  rw [List.cons_append]
  simp only [recover, hlength, ne_eq, not_true_eq_false, if_false, ← hkey, List.take_left,
    List.drop_left, hpoint, hverify, if_true]

/-- The address of a key is found in its signatures. -/
theorem recover_signature {k : SigningKey} {message : Bytes}
    (hpoint : (Curve.Point.decode? k.publicKey).isSome = true)
    (hverify : ∀ a, Curve.Point.decode? k.publicKey = some a →
      Curve.verifyWith a k.publicKey message (Curve.signWith k.seed k.publicKey message) = true) :
    recover message (algorithmTag :: k.publicKey ++ Curve.signWith k.seed k.publicKey message) =
      .ok k.address := by
  obtain ⟨a, ha⟩ := Option.isSome_iff_exists.1 hpoint
  exact recover_of_verifyWith (Curve.length_publicKey k.seed) (Curve.length_signWith ..) ha
    (hverify a ha)

/-! ## What a node reads -/

/-- The transaction of a draft, signed by a key. -/
def Draft.signedWith (d : Draft) (sender : Address) (nonce : UInt64) (k : SigningKey) :
    Transaction :=
  let t := d.bind sender nonce
  { t with signature :=
      algorithmTag :: k.publicKey ++ Curve.signWith k.seed k.publicKey t.signingBytes }

theorem Draft.sign_ofKey {d : Draft} {sender : Address} (hsender : d.sender = some sender)
    (nonce : UInt64) (k : SigningKey) :
    d.sign nonce (.ofKey k) = .ok ⟨d.signedWith sender nonce k⟩ := by
  simp only [Draft.sign, Draft.requireSender, hsender]
  rfl

/-- A draft with a sender is signed.  A node that gets the bytes of the signed transaction, which a
machine of 64 bits can hold, reads the fields of the draft, finds the address of the key, and
computes the same hash. -/
theorem signed_read_by_node (d : Draft) {sender : Address} (hsender : d.sender = some sender)
    (nonce : UInt64) (k : SigningKey)
    (hpoint : (Curve.Point.decode? k.publicKey).isSome = true)
    (hverify : ∀ a, Curve.Point.decode? k.publicKey = some a →
      let message := (d.bind sender nonce).signingBytes
      Curve.verifyWith a k.publicKey message (Curve.signWith k.seed k.publicKey message) = true) :
    ∃ signed, d.sign nonce (.ofKey k) = .ok signed ∧
      ((Message.encode signed.transaction).length < UInt64.size →
        ∃ t : Transaction, Message.decode (Message.encode signed.transaction) = .ok t ∧
          t.sender = sender.text ∧ t.recipient = d.recipient.text ∧ t.timestamp = d.timestamp ∧
          t.payload = d.payload ∧ t.ibtp = d.ibtp ∧ t.amount = d.amount ∧ t.extra = d.extra ∧
          t.nonce = nonce ∧ recover t.signingBytes t.signature = .ok k.address ∧
          t.hash = signed.transaction.hash) := by
  refine ⟨_, Draft.sign_ofKey hsender nonce k, fun hsize => ⟨d.signedWith sender nonce k, ?_, ?_⟩⟩
  · exact Message.decode_encode (by decide) (by decide) hsize
  · exact ⟨rfl, rfl, rfl, rfl, rfl, rfl, rfl, rfl, recover_signature hpoint hverify, rfl⟩

/-- A draft with an interchain packet, signed by the key whose seed is 32 ones. -/
theorem signed_read_by_node_interchain :
    let k : SigningKey := ⟨List.replicate 32 1, rfl⟩
    let d : Draft :=
      { sender := some k.address, recipient := default, payload := [1, 2, 3], timestamp := -1,
        ibtp := some { source := "a", index := 300 }, amount := "5", extra := [0] }
    let message := (d.bind k.address 7).signingBytes
    d.sender = some k.address ∧ (Curve.Point.decode? k.publicKey).isSome = true ∧
      (∀ a, Curve.Point.decode? k.publicKey = some a →
        Curve.verifyWith a k.publicKey message
          (Curve.signWith k.seed k.publicKey message) = true) ∧
      ∃ signed, d.sign 7 (.ofKey k) = .ok signed ∧
        (Message.encode signed.transaction).length < UInt64.size ∧
        ∃ t : Transaction, Message.decode (Message.encode signed.transaction) = .ok t ∧
          t.timestamp = -1 ∧ t.ibtp = some { source := "a", index := 300 } ∧ t.nonce = 7 ∧
          recover t.signingBytes t.signature = .ok k.address := by
  intro k d message
  have hpoint : (Curve.Point.decode? k.publicKey).isSome = true := by decide +kernel
  have hverify : ∀ a, Curve.Point.decode? k.publicKey = some a →
      Curve.verifyWith a k.publicKey message
        (Curve.signWith k.seed k.publicKey message) = true := by
    rw [← Option.all_eq_true]
    decide +kernel
  obtain ⟨signed, hsigned, hread⟩ := signed_read_by_node d rfl 7 k hpoint hverify
  have hsize : (Message.encode signed.transaction).length < UInt64.size := by
    rw [Draft.sign_ofKey rfl] at hsigned
    cases hsigned
    decide +kernel
  obtain ⟨t, hdecode, -, -, htimestamp, -, hibtp, -, -, hnonce, hrecover, -⟩ := hread hsize
  exact ⟨rfl, hpoint, hverify, signed, hsigned, hsize, t, hdecode, htimestamp, hibtp, hnonce,
    hrecover⟩

end LedgerClient
