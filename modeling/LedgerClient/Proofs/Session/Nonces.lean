import LedgerClient.Proofs.Session.Proceeding
import Mathlib.Data.List.Pairwise

/-!
# The nonces of concurrent submissions

`accepted_increase` says that the nonces accepted for one account of a client increase strictly in
the order in which the submissions got the lock.
-/

namespace LedgerClient

open Account Ledger Rpc Wire

namespace Submitters

variable {S : Submitters} {phase : Nat → Turn.Phase} {i : Nat} {p : Turn}

theorem sound_start {s : Session} (hs : ∀ c, (s.clients c).locks = {}) (pending : String → Nat) :
    (start s pending).Sound (fun _ => .past) none where
  seated := by
    refine ⟨fun c => ?_, nofun, nofun, nofun, nofun⟩
    show (s.clients c).locks.WellFormed
    rw [hs c]
    exact LockTable.wellFormed_empty
  numbered := by
    refine ⟨nofun, nofun, nofun, nofun, nofun, nofun, nofun, nofun, ?_, nofun, ?_⟩
    · exact List.nodup_nil
    · exact List.Pairwise.nil
  length_eq := rfl
  unknown _ _ := ⟨rfl, nofun⟩
  fits := nofun

theorem Sound.ended_iff (h : S.Sound phase none) (hi : S.turn? i = some p) :
    S.Ended i ↔ phase i = .past := by
  constructor
  · rintro (hnone | ⟨t, ht, hended⟩)
    · have hfits := h.fits i none nofun hnone
      rw [hi] at hfits
      cases hphase : phase i with
      | past => rfl
      | queued =>
        rw [hphase] at hfits
        obtain ⟨t, ht, -⟩ := hfits
        cases ht
      | holding floor =>
        rw [hphase] at hfits
        obtain ⟨t, ht, -⟩ := hfits
        cases ht
    · rcases h.member_cases ht with ⟨hnone, -⟩ | ⟨q, -, hcases⟩
      · rw [hnone] at hi
        cases hi
      · rcases hcases with ⟨-, u, go, rfl, -⟩ | ⟨floor, -, -, hwaits⟩ | ⟨hphase, -⟩
        · exact hended.elim
        · exact (hwaits.not_ended hended).elim
        · exact hphase
  · intro hphase
    obtain ⟨m, hm⟩ : ∃ m, S.party.members[i]? = some m :=
      ⟨_, List.getElem?_eq_getElem (h.lt_of_turn hi)⟩
    have hfits := h.fits i m nofun hm
    rw [hi, hphase] at hfits
    cases m with
    | none => exact .inl hm
    | some t => exact .inr ⟨t, Party.member?_eq_some.2 hm, hfits t rfl⟩

/-- Of two submissions that get the lock of one account, the first has ended when the second gets
it, and what it had accepted has the smaller nonce.  So no nonce is accepted twice.  A submission
has nothing accepted without the lock, and does not keep the lock once it has ended. -/
theorem accepted_increase (s : Session) (hs : ∀ c, (s.clients c).locks = {})
    (pending : String → Nat) (events : List Event)
    (hevents : (start s pending).AllowsAll events) :
    let S := (start s pending).after events
    S.granted.Pairwise S.Precedes ∧
    (S.granted.Nodup ∧ ∀ i p v, S.turn? i = some p → (i, v) ∈ S.accepted → i ∈ S.granted) ∧
    (∀ i j p q v, S.turn? i = some p → S.turn? j = some q → p.Rivals q →
      (i, v) ∈ S.accepted → (j, v) ∈ S.accepted → i = j) ∧
    ∀ i p, S.turn? i = some p → S.Ended i →
      ∀ k ∈ (S.party.shared.clients p.client).locks.tickets, k.id ≠ p.ticket := by
  intro S
  obtain ⟨phase, h⟩ := (sound_start hs pending).after hevents
  have hprecedes : S.granted.Pairwise S.Precedes := by
    refine h.numbered.increase.imp fun {i j} hij p q hi hj hpq => ?_
    obtain ⟨hpast, hlt⟩ := hij p q hi hj hpq
    exact ⟨(h.ended_iff hi).2 hpast, fun v w hv hw => UInt64.lt_iff_toNat_lt.2 (hlt v w hv hw)⟩
  have hgranted : ∀ i p v, S.turn? i = some p → (i, v) ∈ S.accepted → i ∈ S.granted :=
    fun i p v hi hv => h.numbered.granted_of_accepted hi hv
  refine ⟨hprecedes, ⟨h.numbered.granted_nodup, hgranted⟩, ?_, ?_⟩
  · intro i j p q v hi hj hpq hiv hjv
    by_contra hij
    have : Std.Symm fun i j => S.Precedes i j ∨ S.Precedes j i := ⟨fun _ _ => Or.symm⟩
    have hboth : S.granted.Pairwise fun i j => S.Precedes i j ∨ S.Precedes j i :=
      hprecedes.imp .inl
    rcases hboth.forall (hgranted i p v hi hiv) (hgranted j q v hj hjv) hij with hlt | hlt
    · exact UInt64.lt_irrefl v ((hlt p q hi hj hpq).2 v v hiv hjv)
    · exact UInt64.lt_irrefl v ((hlt q p hj hi hpq.symm).2 v v hjv hiv)
  · intro i p hi hended
    exact h.seated.absent hi ((h.ended_iff hi).1 hended)

/-! ### A run -/

/-- A client of one endpoint, whose signer signs with what it is given. -/
def oneNode : Session where
  pool := { endpoints := [{ address := "a" }], policy := .fixed 0 1, dialTimeout := 100 }
  clients _ := { settings := {}, signer := ⟨[], .ok⟩ }

/-- A node that accepts dials, answers lookups with the given digits, and sends with no hash. -/
def obliging (digits : Bytes) : (r : NetworkRequest) → Network.Answer r
  | .dial _ _ => .connected .direct
  | .call k =>
    let data := if k.method = Method.pendingNonce.name then
      Message.encode ({ data := digits } : Response) else []
    (.ended (.ok data) : Reply Bytes)
  | .stream _ => .expired
  | .turn _ _ => ()
  | .item _ _ => ()

def plainDraft : Draft := { sender := some default, recipient := default }

/-- What is sent for the draft with a nonce. -/
def sentWith (nonce : UInt64) : Transaction :=
  let t := plainDraft.bind default nonce
  { t with signature := t.signingBytes }

/-- Two submissions for one account.  The second waits for the lock until the first has ended. -/
def twoTurns : List Event :=
  let account := (default : Address).text
  let options : SubmitOptions := { lookup := some default }
  [.submit 0 plainDraft options, .submit 0 plainDraft options,
   .answer 0 (obliging []), .look 0 account, .answer 0 (obliging [53]),
   .raise account 6, .accept 0 (sentWith 5), .answer 0 (obliging []),
   .answer 1 (obliging []), .look 1 account, .answer 1 (obliging [54]),
   .raise account 7, .accept 1 (sentWith 6), .answer 1 (obliging [])]

/-- Both are accepted, with the nonces five and six. -/
theorem accepted_increase_twoTurns :
    (∀ c, (oneNode.clients c).locks = {}) ∧ (start oneNode fun _ => 5).AllowsAll twoTurns ∧
    let S := (start oneNode fun _ => 5).after twoTurns
    S.accepted = [(1, 6), (0, 5)] ∧ S.granted = [0, 1] ∧ S.granted.Pairwise S.Precedes := by
  have hlocks : ∀ c, (oneNode.clients c).locks = {} := fun _ => rfl
  have hallowed : (start oneNode fun _ => 5).AllowsAll twoTurns := by decide +kernel
  refine ⟨hlocks, hallowed, by decide +kernel, by decide +kernel, ?_⟩
  exact (accepted_increase oneNode hlocks _ twoTurns hallowed).1

end Submitters
end LedgerClient
