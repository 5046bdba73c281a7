import LedgerClient.Pool.Search
import Mathlib.Data.List.Nodup

/-!
# Where the channels of a pool are

A channel that a pool was given is in the slot of its endpoint until the pool orders it to close.
The one way around this is a dial that is answered when the slot of its endpoint is full again: the
new channel takes the slot, and the one that was there is neither kept nor closed.

`Pool.Accounted` says this of one pool, given the channels that were pushed out so far, and the
lemmas below say what each change of a pool makes of it.
-/

namespace LedgerClient.Pool

open Rpc Transport

/-! ## Slots -/

/-- The endpoints of the channels, by the numbers of the channels. -/
def owners (p : Pool) : List Nat := p.channels.map (·.endpoint)

/-- The channels in the slots. -/
def kept (p : Pool) : List Nat := p.slots.filterMap id

/-- The channel that a new channel pushes out of the slot of its endpoint. -/
def pushedOut (p : Pool) (i : Nat) : List Nat := if p.closed then [] else (p.slot? i).toList

variable {n i k : Nat} {pushed : List Nat} {p q : Pool}

theorem owners_length : p.owners.length = p.channels.length := List.length_map ..

theorem mem_kept : k ∈ p.kept ↔ ∃ i, p.slot? i = some k := by
  rw [kept, List.mem_filterMap]
  simp [slot?, List.mem_iff_getElem?, Option.join_eq_some_iff]

theorem slot_ne_some (h : p.kept = []) : p.slot? i ≠ some k := by
  intro hk
  have := mem_kept.2 ⟨i, hk⟩
  rw [h] at this
  cases this

theorem lt_of_slot (h : p.slot? i = some k) : i < p.slots.length := by
  by_contra hle
  rw [slot?, List.getElem?_eq_none (Nat.le_of_not_lt hle)] at h
  cases h

theorem join_set {ks : List (Option Nat)} (hi : i < ks.length) (o : Option Nat) (j : Nat) :
    ((ks.set i o)[j]?).join = if j = i then o else (ks[j]?).join := by
  by_cases hj : j = i
  · rw [if_pos hj, hj, List.getElem?_set_self hi]
    rfl
  · rw [if_neg hj, List.getElem?_set_ne (Ne.symm hj)]

/-- A slot that is filled anew gives up what was in it. -/
theorem perm_set {ks : List (Option Nat)} (hi : i < ks.length) (o : Option Nat) :
    ((ks[i]?).join.toList ++ (ks.set i o).filterMap id).Perm (o.toList ++ ks.filterMap id) := by
  induction ks generalizing i with
  | nil => cases hi
  | cons c ks ih =>
    cases i with
    | zero =>
      cases c <;> cases o <;> simp
      exact List.Perm.swap ..
    | succ i =>
      have := ih (Nat.lt_of_succ_lt_succ hi)
      cases c with
      | none => simpa using this
      | some l =>
        simp only [List.getElem?_cons_succ, List.set_cons_succ, List.filterMap_cons, id]
        exact (List.perm_middle.trans (this.cons l)).trans List.perm_middle.symm

/-! ## The account of a pool -/

/-- Every channel is in one place: it was ordered to close, or was pushed out of its slot, or is in
the slot of its endpoint.  A closed pool has nothing in its slots. -/
structure Accounted (n : Nat) (pushed : List Nat) (p : Pool) : Prop where
  size_eq : p.size = n
  slots_length : p.slots.length = n
  owner_of_slot : ∀ i k, p.slot? i = some k → p.owners[k]? = some i
  /-- A slot holds the newest channel of its endpoint. -/
  newest : ∀ i k, p.slot? i = some k → ∀ l, p.owners[l]? = some i → l ≤ k
  placed : (p.closeOrders ++ (pushed ++ p.kept)).Perm (List.range p.owners.length)
  empty_of_closed : p.closed = true → p.kept = []
  disabled_nodup : p.disabled.Nodup
  disabled_lt : ∀ i ∈ p.disabled, i < n

/-- A pool without channels. -/
theorem accounted_of_fresh (hslots : p.slots = List.replicate p.size none)
    (hchannels : p.channels = []) (horders : p.closeOrders = []) (hdisabled : p.disabled = []) :
    Accounted p.size [] p := by
  have hkept : p.kept = [] := by
    rw [kept, hslots, List.filterMap_eq_nil_iff]
    exact fun o ho => (List.mem_replicate.1 ho).2
  exact {
    size_eq := rfl
    slots_length := by rw [hslots, List.length_replicate]
    owner_of_slot := fun i k hk => absurd hk (slot_ne_some hkept)
    newest := fun i k hk => absurd hk (slot_ne_some hkept)
    placed := by simp [hkept, horders, owners, hchannels]
    empty_of_closed := fun _ => hkept
    disabled_nodup := by simp [hdisabled]
    disabled_lt := by simp [hdisabled] }

namespace Accounted

/-- Only the slots, the orders to close, the disabled endpoints and the endpoints of the channels
count. -/
theorem of_eq (h : Accounted n pushed p) (hsize : q.size = p.size) (hslots : q.slots = p.slots)
    (howners : q.owners = p.owners) (horders : q.closeOrders = p.closeOrders)
    (hclosed : q.closed = p.closed) (hdisabled : q.disabled = p.disabled) :
    Accounted n pushed q where
  size_eq := hsize.trans h.size_eq
  slots_length := hslots ▸ h.slots_length
  owner_of_slot := by
    intro i k hk
    rw [slot?, hslots] at hk
    exact howners ▸ h.owner_of_slot i k hk
  newest := by
    intro i k hk
    rw [slot?, hslots] at hk
    exact howners ▸ h.newest i k hk
  placed := by
    rw [kept, hslots, howners, horders]
    exact h.placed
  empty_of_closed := by
    intro hc
    rw [kept, hslots]
    exact h.empty_of_closed (hclosed ▸ hc)
  disabled_nodup := hdisabled ▸ h.disabled_nodup
  disabled_lt := hdisabled ▸ h.disabled_lt

theorem nodup (h : Accounted n pushed p) : (p.closeOrders ++ (pushed ++ p.kept)).Nodup :=
  h.placed.nodup_iff.2 List.nodup_range

theorem mem_iff (h : Accounted n pushed p) :
    k ∈ p.closeOrders ∨ k ∈ pushed ∨ k ∈ p.kept ↔ k < p.channels.length := by
  rw [← owners_length, ← List.mem_range, ← h.placed.mem_iff, List.mem_append, List.mem_append]

theorem slot_of_mem_kept (h : Accounted n pushed p) (ho : p.owners[k]? = some i) :
    k ∈ p.kept ↔ p.slot? i = some k := by
  refine ⟨fun hk => ?_, fun hs => mem_kept.2 ⟨i, hs⟩⟩
  obtain ⟨j, hj⟩ := mem_kept.1 hk
  have := h.owner_of_slot j k hj
  rw [ho] at this
  rw [Option.some.inj this, hj]

/-- The channels that are neither ordered to close nor in the slots of their endpoints are those
that were pushed out. -/
theorem mem_pushed_iff (h : Accounted n pushed p) (ho : p.owners[k]? = some i) :
    k ∈ pushed ↔ k ∉ p.closeOrders ∧ p.slot? i ≠ some k := by
  rw [Ne, ← h.slot_of_mem_kept ho]
  obtain ⟨-, hrest, hclosed⟩ := List.nodup_append.1 h.nodup
  obtain ⟨-, -, hkept⟩ := List.nodup_append.1 hrest
  have hk : k ∈ p.closeOrders ∨ k ∈ pushed ∨ k ∈ p.kept := by
    rw [h.mem_iff, ← owners_length]
    exact (List.getElem?_eq_some_iff.1 ho).1
  constructor
  · intro hp
    exact ⟨fun hc => hclosed k hc k (List.mem_append_left _ hp) rfl, fun hs => hkept k hp k hs rfl⟩
  · rintro ⟨hopen, hslot⟩
    exact (hk.resolve_left hopen).resolve_right hslot

/-- As long as no channel is pushed out, an endpoint has one open channel at most. -/
theorem eq_of_open (h : Accounted n [] p) {l : Nat} (hk : p.owners[k]? = some i)
    (hl : p.owners[l]? = some i) (hko : k ∉ p.closeOrders) (hlo : l ∉ p.closeOrders) : k = l := by
  have hslot : ∀ m, p.owners[m]? = some i → m ∉ p.closeOrders → p.slot? i = some m := by
    intro m hm hmo
    by_contra hs
    cases (h.mem_pushed_iff hm).2 ⟨hmo, hs⟩
  have := hslot k hk hko
  rw [hslot l hl hlo] at this
  exact (Option.some.inj this).symm

/-- A closed pool has ordered all its channels to close but for those that were pushed out. -/
theorem all_closed_iff (h : Accounted n pushed p) (hc : p.closed = true) :
    (∀ k < p.channels.length, k ∈ p.closeOrders) ↔ pushed = [] := by
  have hkept := h.empty_of_closed hc
  constructor
  · intro hall
    rw [List.eq_nil_iff_forall_not_mem]
    intro k hk
    have hclosed := (List.nodup_append.1 h.nodup).2.2
    exact hclosed k (hall k (h.mem_iff.1 (.inr (.inl hk)))) k (List.mem_append_left _ hk) rfl
  · rintro rfl k hk
    rcases h.mem_iff.2 hk with ho | hp | hs
    · exact ho
    · cases hp
    · rw [hkept] at hs
      cases hs

end Accounted

/-! ## Changes of channels -/

section alter

variable (f : Channel → Channel)

@[simp] theorem alter_size : (p.alter k f).size = p.size := by
  unfold alter
  split <;> rfl

@[simp] theorem alter_slots : (p.alter k f).slots = p.slots := by
  unfold alter
  split <;> rfl

@[simp] theorem alter_closeOrders : (p.alter k f).closeOrders = p.closeOrders := by
  unfold alter
  split <;> rfl

@[simp] theorem alter_closed : (p.alter k f).closed = p.closed := by
  unfold alter
  split <;> rfl

@[simp] theorem alter_disabled : (p.alter k f).disabled = p.disabled := by
  unfold alter
  split <;> rfl

theorem alter_owners {f : Channel → Channel} (hf : ∀ c, (f c).endpoint = c.endpoint) :
    (p.alter k f).owners = p.owners := by
  unfold alter
  split
  · rfl
  · rename_i c hc
    refine List.ext_getElem? fun j => ?_
    simp only [owners, List.getElem?_map, List.getElem?_set]
    split
    · rename_i hj
      subst hj
      rw [hc]
      split <;> simp_all
    · rfl

theorem Accounted.alter (h : Accounted n pushed p) {f : Channel → Channel}
    (hf : ∀ c, (f c).endpoint = c.endpoint) : Accounted n pushed (p.alter k f) :=
  h.of_eq (alter_size f) (alter_slots f) (alter_owners hf) (alter_closeOrders f) (alter_closed f)
    (alter_disabled f)

end alter

/-! ## Orders to close -/

@[simp] theorem closeChannel_closeOrders :
    (p.closeChannel k).2.closeOrders = k :: p.closeOrders := rfl

@[simp] theorem closeChannel_slots : (p.closeChannel k).2.slots = p.slots := alter_slots _

@[simp] theorem closeChannel_size : (p.closeChannel k).2.size = p.size := alter_size _

@[simp] theorem closeChannel_closed : (p.closeChannel k).2.closed = p.closed := alter_closed _

@[simp] theorem closeChannel_disabled : (p.closeChannel k).2.disabled = p.disabled :=
  alter_disabled _

@[simp] theorem closeChannel_owners : (p.closeChannel k).2.owners = p.owners :=
  alter_owners fun _ => rfl

/-- What several orders to close do. -/
theorem foldl_closeChannel (ks : List Nat) (p : Pool) :
    let q := ks.foldl (fun p k => (p.closeChannel k).2) p
    q.closeOrders = ks.reverse ++ p.closeOrders ∧ q.slots = p.slots ∧ q.size = p.size ∧
      q.owners = p.owners ∧ q.disabled = p.disabled := by
  induction ks generalizing p with
  | nil => simp
  | cons k ks ih =>
    obtain ⟨horders, hslots, hsize, howners, hdisabled⟩ := ih (p.closeChannel k).2
    simp only [List.foldl_cons]
    refine ⟨?_, ?_, ?_, ?_, ?_⟩
    · rw [horders, closeChannel_closeOrders, List.reverse_cons, List.append_assoc]
      rfl
    · rw [hslots, closeChannel_slots]
    · rw [hsize, closeChannel_size]
    · rw [howners, closeChannel_owners]
    · rw [hdisabled, closeChannel_disabled]

/-- Closing a pool empties its slots into the orders to close. -/
theorem Accounted.close (h : Accounted n pushed p) : Accounted n pushed p.close := by
  by_cases hc : p.closed = true
  · rw [Pool.close, if_pos hc]
    exact h
  · rw [Pool.close, if_neg hc]
    obtain ⟨horders, hslots, hsize, howners, hdisabled⟩ := foldl_closeChannel
      (p.slots.filterMap id)
      { p with closed := true, lastGood := none, slots := p.slots.map fun _ => none }
    generalize List.foldl _ _ _ = q at *
    replace howners : q.owners = p.owners := howners
    replace hdisabled : q.disabled = p.disabled := hdisabled
    have hkept : q.kept = [] := by
      rw [kept, hslots, List.filterMap_eq_nil_iff]
      intro o ho
      obtain ⟨_, -, rfl⟩ := List.mem_map.1 ho
      rfl
    exact {
      size_eq := hsize.trans h.size_eq
      slots_length := by rw [hslots, List.length_map, h.slots_length]
      owner_of_slot := fun i k hk => absurd hk (slot_ne_some hkept)
      newest := fun i k hk => absurd hk (slot_ne_some hkept)
      placed := by
        rw [howners, horders, hkept, List.append_nil]
        refine List.Perm.trans ?_ h.placed
        calc (p.kept.reverse ++ p.closeOrders ++ pushed).Perm (p.kept ++ p.closeOrders ++ pushed) :=
              ((List.reverse_perm _).append_right _).append_right _
          _ = p.kept ++ (p.closeOrders ++ pushed) := List.append_assoc ..
          List.Perm _ (p.closeOrders ++ pushed ++ p.kept) := List.perm_append_comm
          _ = p.closeOrders ++ (pushed ++ p.kept) := List.append_assoc ..
      empty_of_closed := fun _ => hkept
      disabled_nodup := hdisabled ▸ h.disabled_nodup
      disabled_lt := hdisabled ▸ h.disabled_lt }

/-! ## Changes of slots -/

/-- The channel that leaves its slot is ordered to close. -/
theorem Accounted.vacate (h : Accounted n pushed p) (i : Nat) :
    Accounted n pushed (p.vacate i) := by
  unfold Pool.vacate
  split
  · exact h
  · rename_i k hk
    have hi := lt_of_slot hk
    have hkept : (k :: (p.slots.set i none).filterMap id).Perm p.kept := by
      have := perm_set hi none
      rw [slot?] at hk
      rwa [hk] at this
    exact {
      size_eq := closeChannel_size.trans h.size_eq
      slots_length := by rw [closeChannel_slots, List.length_set, h.slots_length]
      owner_of_slot := by
        intro j l hl
        rw [slot?, closeChannel_slots, join_set hi] at hl
        rw [closeChannel_owners]
        split at hl
        · cases hl
        · exact h.owner_of_slot j l hl
      newest := by
        intro j l hl
        rw [slot?, closeChannel_slots, join_set hi] at hl
        rw [closeChannel_owners]
        split at hl
        · cases hl
        · exact h.newest j l hl
      placed := by
        rw [closeChannel_closeOrders, closeChannel_owners, kept, closeChannel_slots]
        refine List.Perm.trans ?_ h.placed
        calc (k :: p.closeOrders ++ (pushed ++ (p.slots.set i none).filterMap id)).Perm
              (p.closeOrders ++ (k :: (pushed ++ (p.slots.set i none).filterMap id))) :=
              List.perm_middle.symm
          List.Perm _ (p.closeOrders ++ (pushed ++ (k :: (p.slots.set i none).filterMap id))) :=
              List.perm_middle.symm.append_left _
          List.Perm _ (p.closeOrders ++ (pushed ++ p.kept)) :=
              (hkept.append_left _).append_left _
      empty_of_closed := by
        intro hc
        rw [closeChannel_closed] at hc
        have := hkept.length_eq
        rw [h.empty_of_closed hc] at this
        cases this
      disabled_nodup := by
        rw [closeChannel_disabled]
        exact h.disabled_nodup
      disabled_lt := by
        rw [closeChannel_disabled]
        exact h.disabled_lt }

/-- The pool with one more channel, which is nowhere yet. -/
def grow (p : Pool) (i : Nat) (link : Link) : Pool :=
  { p with channels := p.channels ++ [{ endpoint := i, address := p.address i, link }] }

theorem owners_grow (p : Pool) (i : Nat) (link : Link) :
    (p.grow i link).owners = p.owners ++ [i] := by
  simp [grow, owners]

theorem range_owners_grow (p : Pool) (i : Nat) (link : Link) :
    List.range (p.grow i link).owners.length =
      List.range p.channels.length ++ [p.channels.length] := by
  rw [owners_grow, List.length_append, List.length_singleton, List.range_succ, owners_length]

/-- A channel that comes too late for its pool is closed. -/
theorem Accounted.grow_close (h : Accounted n pushed p) (hc : p.closed = true) (i : Nat)
    (link : Link) : Accounted n pushed ((p.grow i link).closeChannel p.channels.length).2 where
  size_eq := closeChannel_size.trans h.size_eq
  slots_length := closeChannel_slots (p := p.grow i link) ▸ h.slots_length
  owner_of_slot := by
    intro j l hl
    rw [slot?, closeChannel_slots] at hl
    exact absurd hl (slot_ne_some (h.empty_of_closed hc))
  newest := by
    intro j l hl
    rw [slot?, closeChannel_slots] at hl
    exact absurd hl (slot_ne_some (h.empty_of_closed hc))
  placed := by
    rw [closeChannel_owners, range_owners_grow, closeChannel_closeOrders, kept, closeChannel_slots]
    refine (List.perm_append_singleton _ _).symm.trans ?_
    rw [← owners_length]
    exact h.placed.append_right _
  empty_of_closed := fun _ => by
    rw [kept, closeChannel_slots]
    exact h.empty_of_closed hc
  disabled_nodup := by
    rw [closeChannel_disabled]
    exact h.disabled_nodup
  disabled_lt := by
    rw [closeChannel_disabled]
    exact h.disabled_lt

/-- A new channel takes the slot of its endpoint. -/
theorem Accounted.grow_fill (h : Accounted n pushed p) (hc : p.closed ≠ true) (hi : i < n)
    (link : Link) : Accounted n ((p.slot? i).toList ++ pushed)
      { p.grow i link with
        slots := p.slots.set i (some p.channels.length)
        lastGood := some i
        leased := p.leased + 1 } := by
  have hi' : i < p.slots.length := h.slots_length.symm ▸ hi
  exact {
    size_eq := h.size_eq
    slots_length := by rw [List.length_set, h.slots_length]
    owner_of_slot := by
      intro j l hl
      rw [slot?, join_set hi'] at hl
      show (p.grow i link).owners[l]? = some j
      rw [owners_grow]
      split at hl
      · rename_i hj
        rw [← Option.some.inj hl, hj, ← owners_length, List.getElem?_concat_length]
      · have hl := h.owner_of_slot j l hl
        rw [List.getElem?_append_left (List.getElem?_eq_some_iff.1 hl).1, hl]
    newest := by
      intro j l hl m hm
      replace hm : (p.grow i link).owners[m]? = some j := hm
      rw [owners_grow] at hm
      rw [slot?, join_set hi'] at hl
      split at hl
      · have hlt : m < p.channels.length + 1 := by
          have := (List.getElem?_eq_some_iff.1 hm).1
          rwa [List.length_append, List.length_singleton, owners_length] at this
        rw [← Option.some.inj hl]
        exact Nat.le_of_lt_succ hlt
      · rename_i hj
        -- The new channel belongs to another endpoint.
        rw [List.getElem?_append] at hm
        split at hm
        · exact h.newest j l hl m hm
        · exact absurd (List.mem_singleton.1 (List.mem_of_getElem? hm)) hj
    placed := by
      show (p.closeOrders ++ ((p.slot? i).toList ++ pushed ++
        (p.slots.set i (some p.channels.length)).filterMap id)).Perm
          (List.range (p.grow i link).owners.length)
      rw [range_owners_grow]
      have hset := perm_set hi' (some p.channels.length)
      calc (p.closeOrders ++ ((p.slot? i).toList ++ pushed ++
              (p.slots.set i (some p.channels.length)).filterMap id)).Perm
            (p.closeOrders ++ (pushed ++ ((p.slot? i).toList ++
              (p.slots.set i (some p.channels.length)).filterMap id))) := by
            rw [← List.append_assoc pushed]
            exact (List.perm_append_comm.append_right _).append_left _
        List.Perm _ (p.closeOrders ++ (pushed ++ (p.channels.length :: p.kept))) :=
            (hset.append_left _).append_left _
        List.Perm _ (p.channels.length :: (p.closeOrders ++ (pushed ++ p.kept))) :=
            (List.perm_middle.append_left _).trans List.perm_middle
        List.Perm _ (List.range p.channels.length ++ [p.channels.length]) :=
            ((owners_length ▸ h.placed).cons _).trans (List.perm_append_singleton _ _).symm
    empty_of_closed := fun hc' => absurd hc' hc
    disabled_nodup := h.disabled_nodup
    disabled_lt := h.disabled_lt }

/-- A dial that succeeds over an open pool. -/
theorem endAttempt_connected_of_open (hc : p.closed = false) (i : Nat) (link : Link) :
    p.endAttempt i (.connected link) = (.ok ⟨i, p.address i, p.channels.length⟩,
      { p.grow i link with
        slots := p.slots.set i (some p.channels.length)
        lastGood := some i
        leased := p.leased + 1 }) := by
  rw [endAttempt, Pool.keep, if_neg (by simp [hc])]
  rfl

/-- A new channel takes the slot of its endpoint, or is closed with the pool. -/
theorem Accounted.keep (h : Accounted n pushed p) (hi : i < n) (link : Link) :
    Accounted n (p.pushedOut i ++ pushed) (p.keep i link).2 := by
  by_cases hc : p.closed = true
  · rw [Pool.keep, if_pos hc, pushedOut, if_pos hc, List.nil_append]
    exact h.grow_close hc i link
  · rw [Pool.keep, if_neg hc, pushedOut, if_neg hc]
    exact h.grow_fill hc hi link

/-! ## Acquisitions -/

theorem Accounted.start (h : Accounted n pushed p) : Accounted n pushed p.start.2 := by
  have hdraw : Accounted n pushed p.drawRotation.2 := by
    unfold drawRotation
    split
    · exact h
    · exact h.of_eq rfl rfl rfl rfl rfl rfl
  unfold Pool.start
  split
  · exact h
  · split
    · exact h.of_eq rfl rfl rfl rfl rfl rfl
    · exact hdraw

theorem Accounted.beginAttempt (h : Accounted n pushed p) (rotation : List Nat) (cursor : Nat) :
    Accounted n pushed (p.beginAttempt rotation cursor).2 := by
  unfold Pool.beginAttempt
  split
  · exact h
  · split
    · exact h.of_eq rfl rfl rfl rfl rfl rfl
    · split
      · exact h
      · exact h.vacate _

theorem Accounted.disable (h : Accounted n pushed p) (hi : i < n) :
    Accounted n pushed (p.disable i) := by
  unfold Pool.disable
  split
  · exact h
  · rename_i hfresh
    exact { h with
      disabled_nodup := by
        refine List.nodup_append.2 ⟨h.disabled_nodup, by simp, fun j hj k hk hjk => ?_⟩
        rw [List.mem_singleton.1 hk] at hjk
        exact hfresh (List.contains_iff_mem.2 (hjk ▸ hj))
      disabled_lt := by
        intro j hj
        rcases List.mem_append.1 hj with hj | hj
        · exact h.disabled_lt j hj
        · exact List.mem_singleton.1 hj ▸ hi }

theorem Accounted.failDial (h : Accounted n pushed p) (hi : i < n) (e : DialError) :
    Accounted n pushed (p.failDial i e).2 := by
  unfold Pool.failDial
  split
  · dsimp only
    split <;> exact h.disable hi
  · exact h

/-- What an attempt does to the slot of the endpoint that it dialed. -/
theorem Accounted.endAttempt (h : Accounted n pushed p) (hi : i < n) (reply : DialReply) :
    Accounted n ((match reply with | .connected _ => p.pushedOut i | _ => []) ++ pushed)
      (p.endAttempt i reply).2 := by
  cases reply with
  | connected link => exact h.keep hi link
  | failed e => exact h.failDial hi e
  | expired => exact h.failDial hi (.timeout (p.address i) p.dialTimeout)

theorem Accounted.invalidate (h : Accounted n pushed p) (i : Nat) :
    Accounted n pushed (p.invalidate i) := by
  unfold Pool.invalidate
  split
  · exact h.of_eq rfl rfl rfl rfl rfl rfl
  · exact h

/-! ## Which endpoints are dialed -/

/-- A search goes through every endpoint once. -/
theorem drawRotation_perm : p.drawRotation.1.Perm (List.range p.size) := by
  unfold drawRotation
  split
  · exact .refl _
  · dsimp only
    split
    · exact List.isPerm_iff.1 ‹_›
    · exact .refl _

theorem mem_of_nextEnabled {rotation : List Nat} {cursor looks : Nat}
    (h : (p.nextEnabled rotation cursor looks).1 = some i) : i ∈ rotation ∧ i ∉ p.disabled := by
  induction looks generalizing cursor with
  | zero => cases h
  | succ looks ih =>
    rw [nextEnabled] at h
    split at h
    · cases h
    · rename_i j hj
      split at h
      · exact ih h
      · rename_i henabled
        rw [← Option.some.inj h]
        exact ⟨List.mem_of_getElem? hj, fun hj => henabled (List.contains_iff_mem.2 hj)⟩

theorem mem_of_beginAttempt {rotation : List Nat} {cursor : Nat}
    (h : (p.beginAttempt rotation cursor).1.1 = .dial i) : i ∈ rotation := by
  unfold Pool.beginAttempt at h
  split at h
  · cases h
  · split at h
    · cases h
    · split at h
      · cases h
      · rename_i j c hnext
        cases h
        exact (mem_of_nextEnabled (congrArg Prod.fst hnext)).1

end LedgerClient.Pool
