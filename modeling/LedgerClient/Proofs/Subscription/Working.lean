import LedgerClient.Proofs.Subscription.Traffic

/-!
# Workers and their leases

Every worker that has not ended has a lease.  `Session.LeasesOut` counts the leases that are out
besides these; whatever happens to the feeds of a session leaves their number as it is.
-/

namespace LedgerClient

theorem countP_set_add {α : Type} {p : α → Bool} {l : List α} {i : Nat} {a : α}
    (ha : l[i]? = some a) (b : α) :
    (l.set i b).countP p + (if p a then 1 else 0) = l.countP p + if p b then 1 else 0 := by
  obtain ⟨hi, rfl⟩ := List.getElem?_eq_some_iff.1 ha
  have hpos : p l[i] → 0 < l.countP p := fun hp =>
    List.countP_pos_iff.2 ⟨l[i], List.getElem_mem hi, hp⟩
  rw [List.countP_set hi]
  by_cases hp : p l[i] = true
  · have := hpos hp
    rw [if_pos hp]
    omega
  · rw [if_neg hp]
    omega

theorem Feed.reason?_step {f : Feed} {cancelled : Bool} {arrival : Option Frame}
    (h : f.reason?.isSome) : (f.step cancelled arrival).reason?.isSome := by
  cases hphase : f.phase <;> simp_all [Feed.step, Feed.reason?]

namespace Session

/-- The feeds whose workers have not ended. -/
def working (s : Session) : Nat := s.feeds.countP fun feed => feed.reason?.isNone

/-- So many leases are out besides those of the workers. -/
def LeasesOut (k : Nat) (s : Session) : Prop := s.pool.leased = k + s.working

variable {k : Nat} {s s' : Session} {id : Nat} {feed next : Feed}

theorem LeasesOut.of_eq (h : s.LeasesOut k) (hleased : s'.pool.leased = s.pool.leased)
    (hfeeds : s'.feeds = s.feeds) : s'.LeasesOut k := by
  rw [LeasesOut, working, hleased, hfeeds]
  exact h

/-- A lease comes back when the worker of a feed ends. -/
theorem LeasesOut.of_set (h : s.LeasesOut k) (hfeed : s.feeds[id]? = some feed)
    (hfeeds : s'.feeds = s.feeds.set id next) (hstays : feed.reason?.isSome → next.reason?.isSome)
    (hpool : s'.pool.leased = if feed.reason?.isNone && next.reason?.isSome then s.pool.leased - 1
      else s.pool.leased) : s'.LeasesOut k := by
  have hcount := countP_set_add (p := fun feed => feed.reason?.isNone) hfeed next
  have hleased : s.pool.leased = k + s.working := h
  rw [LeasesOut, hpool, working, hfeeds]
  unfold working at hleased
  cases hreason : feed.reason? <;> cases hnext : next.reason? <;>
    simp [hreason, hnext] at hcount hstays ⊢ <;> omega

theorem LeasesOut.of_same (h : s.LeasesOut k) (hfeed : s.feeds[id]? = some feed)
    (hreason : next.reason? = feed.reason?) :
    LeasesOut k { s with feeds := s.feeds.set id next } := by
  refine h.of_set hfeed rfl (fun hended => hreason ▸ hended) ?_
  rw [hreason]
  cases feed.reason? <;> rfl

theorem LeasesOut.stepFeed (h : s.LeasesOut k) (id : Nat) (arrival : Option Frame) :
    (s.stepFeed id arrival).LeasesOut k := by
  cases hfeed : s.feeds[id]? with
  | none => rwa [Session.stepFeed, hfeed]
  | some feed =>
    rw [stepFeed_eq hfeed]
    exact h.of_set hfeed rfl Feed.reason?_step (apply_ite Pool.leased _ _ _)

theorem LeasesOut.takeItem (h : s.LeasesOut k) (id : Nat) : (s.takeItem id).2.LeasesOut k := by
  cases hfeed : s.feeds[id]? with
  | none => rwa [Session.takeItem, hfeed]
  | some feed =>
    rw [takeItem_eq hfeed]
    refine h.of_same hfeed ?_
    rw [Feed.take_eq]
    rfl

theorem LeasesOut.alterFeed (h : s.LeasesOut k) (id : Nat) {f : Feed → Feed}
    (hf : ∀ feed, (f feed).reason? = feed.reason?) : (s.alterFeed id f).LeasesOut k := by
  cases hfeed : s.feeds[id]? with
  | none => rwa [alterFeed_of_none hfeed]
  | some feed =>
    rw [alterFeed_eq hfeed]
    exact h.of_same hfeed (hf feed)

theorem LeasesOut.lend (h : s.LeasesOut k) (hleased : s'.pool.leased = s.pool.leased + 1)
    (hfeeds : s'.feeds = s.feeds) : s'.LeasesOut (k + 1) := by
  have hout : s.pool.leased = k + s.working := h
  rw [LeasesOut, working, hleased, hfeeds, hout, working]
  omega

theorem LeasesOut.release (h : s.LeasesOut (k + 1)) : s.release.LeasesOut k := by
  have hout : s.pool.leased = k + 1 + s.working := h
  show s.pool.leased - 1 = k + s.working
  omega

/-- The worker of a new feed takes a lease over. -/
theorem LeasesOut.start (h : s.LeasesOut (k + 1)) (hfeed : feed.reason? = none) :
    LeasesOut k { s with feeds := s.feeds ++ [feed] } := by
  have hout : s.pool.leased = k + 1 + s.working := h
  have hworking : working { s with feeds := s.feeds ++ [feed] } = s.working + 1 := by
    simp [working, hfeed]
  rw [LeasesOut, hworking, hout]
  omega

end Session
end LedgerClient
