import LedgerClient.Account.Address

/-!
# Account locks

Submissions that look their nonce up take turns account by account.  The table keeps one mutex for
each account that is held or waited for; a *ticket* is one taker's place.  Tickets of a mutex are
served in the order they were drawn: a release hands the mutex to the oldest waiting ticket, which
owns it from then on, even before its taker notices.

The mutex of an account is forgotten when a held ticket is returned and no other ticket of the
mutex is left.
-/

namespace LedgerClient

open Account

/-- How far a ticket has come. -/
inductive Standing where
  | waiting
  /-- The mutex has been handed to the ticket, and its taker has not noticed. -/
  | granted
  | held
  deriving DecidableEq, Repr

/-- One taker's place at a mutex. -/
structure Ticket where
  id : Nat
  account : Address
  mutex : Nat
  standing : Standing

/-- The mutexes in use and the tickets drawn for them. -/
structure LockTable where
  /-- The mutex of each account that has one. -/
  mutexes : List (Address × Nat) := []
  /-- The live tickets, the oldest first. -/
  tickets : List Ticket := []
  nextMutex : Nat := 0
  nextTicket : Nat := 0

namespace LockTable

/-- The mutex of an account, if it has one. -/
def mutex? (t : LockTable) (a : Address) : Option Nat :=
  (t.mutexes.find? (·.1 == a)).map (·.2)

/-- The live ticket of a number. -/
def ticket? (t : LockTable) (id : Nat) : Option Ticket := t.tickets.find? (·.id == id)

/-- The number of accounts that have a mutex. -/
def tracked (t : LockTable) : Nat := t.mutexes.length

/-- Some ticket owns mutex `m`. -/
def isOwned (t : LockTable) (m : Nat) : Bool :=
  t.tickets.any fun k => k.mutex == m && k.standing != .waiting

/-- Some ticket refers to mutex `m`. -/
def isUsed (t : LockTable) (m : Nat) : Bool := t.tickets.any (·.mutex == m)

/-- The table with a mutex for the account, and that mutex. -/
def ensureMutex (t : LockTable) (a : Address) : Nat × LockTable :=
  match t.mutex? a with
  | some m => (m, t)
  | none =>
    (t.nextMutex,
      { t with mutexes := t.mutexes ++ [(a, t.nextMutex)], nextMutex := t.nextMutex + 1 })

/-- Draws a ticket for an account.  It holds the mutex at once if no ticket owns it. -/
def draw (t : LockTable) (a : Address) : Ticket × LockTable :=
  let (m, t) := t.ensureMutex a
  let ticket : Ticket := ⟨t.nextTicket, a, m, if t.isOwned m then .waiting else .held⟩
  (ticket, { t with tickets := t.tickets ++ [ticket], nextTicket := t.nextTicket + 1 })

/-- The first of `ks` that waits for mutex `m` is handed it. -/
def grantFirst (m : Nat) : List Ticket → List Ticket
  | [] => []
  | k :: ks =>
    if k.mutex == m && k.standing == .waiting then { k with standing := .granted } :: ks
    else k :: grantFirst m ks

/-- Removes a ticket.  If it owned its mutex, the oldest waiting ticket is handed the mutex. -/
def remove (t : LockTable) (k : Ticket) : LockTable :=
  let rest := t.tickets.filter (·.id != k.id)
  { t with tickets := if k.standing == .waiting then rest else grantFirst k.mutex rest }

/-- Forgets the mutex of an account if no ticket refers to it. -/
def forget (t : LockTable) (a : Address) : LockTable :=
  { t with mutexes := t.mutexes.filter fun e => e.1 != a || t.isUsed e.2 }

/-- The taker of ticket `id` looks whether it has been handed its mutex, and then holds it. -/
def poll (t : LockTable) (id : Nat) : LockTable :=
  { t with tickets := t.tickets.map fun k =>
      if k.id == id && k.standing == .granted then { k with standing := .held } else k }

/-- Ticket `id` holds its mutex. -/
def isHeld (t : LockTable) (id : Nat) : Bool :=
  match t.ticket? id with
  | some k => k.standing == .held
  | none => false

/-- Ticket `id` has not been handed its mutex. -/
def isWaiting (t : LockTable) (id : Nat) : Bool :=
  match t.ticket? id with
  | some k => k.standing == .waiting
  | none => false

/-- Returns ticket `id`, however far it has come.  Only a held ticket looks after the mutex of its
account. -/
def giveUp (t : LockTable) (id : Nat) : LockTable :=
  match t.ticket? id with
  | none => t
  | some k => if k.standing == .held then (t.remove k).forget k.account else t.remove k

end LockTable
end LedgerClient
