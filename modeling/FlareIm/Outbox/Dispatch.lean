import FlareIm.Outbox.Calls

/-! The dispatch loop makes only moves. A round works through entries that the pending
store picked before it; the invariant of the round says that they are still stored and
free, in order, and that every other free entry is later. -/

namespace FlareIm.Outbox

open Lib Message Store List MessageTable Prog PendingEntries NumberedEntry QueueState

variable {sc : Scope} {s t : QueueState} {k : String}

theorem View.drop_queued {v : View} (h : v.backoff k = none) : v.drop .queued k = v := by
  unfold View.drop
  rw [← h, Function.update_eq_self]

variable {p : NumberedEntry} {rows : List IMMessage} {user : String}

/-- The program returns and makes only moves, and no store call will fail. -/
def MovesOnly {α : Type} (sc : Scope) (x : OutboxM α) (s : QueueState) : Prop :=
  Ensures x s (fun _ t => Moves sc s.view t.view ∧ t.faults = [])

namespace MovesOnly

variable {α β : Type} {x : OutboxM α} {f : α → OutboxM β}

theorem bind (h : MovesOnly sc x s) (hf : ∀ a t, t.faults = [] → MovesOnly sc (f a) t) :
    MovesOnly sc (x >>= f) s := by
  refine Ensures.bind h fun a t ht => ?_
  exact (hf a t ht.2).mono fun _ u hu => ⟨ht.1.trans hu.1, hu.2⟩

section

variable {a : α} (hrun : x.run s = (.ok a, t)) (hm : Moves sc s.view t.view)

include hrun hm

/-- Start with a call whose final state is known to be some moves away. -/
theorem bind_of_run (hf : MovesOnly sc (f a) t) : MovesOnly sc (x >>= f) s :=
  Ensures.bind_of_run hrun (hf.mono fun _ _ hu => ⟨hm.trans hu.1, hu.2⟩)

theorem of_run (ht : t.faults = []) : MovesOnly sc x s :=
  .intro hrun ⟨hm, ht⟩

end

theorem attempt (h : MovesOnly sc x s) : MovesOnly sc (attempt x) s := by
  obtain ⟨a, t, hrun, hm, ht⟩ := h
  exact .of_run (by rw [attempt_run, hrun]) hm ht

end MovesOnly

theorem snapshotOf_getByClientMsgIds (t : MessageTable) {ids : List String}
    (h : k ∈ ids) : snapshotOf (t.getByClientMsgIds ids) k = (t.getByClientMsgId k).map IMMessage.snapshot := by
  rw [snapshotOf, snapshot_of_getByClientMsgIds _ h]

/-! ### One round -/

/-- The invariant of a round: `ps` are the entries still to come. -/
structure RoundInv (ps : List NumberedEntry) (s : QueueState) : Prop where
  noFaults : s.faults = []
  picked : ∀ p ∈ ps, s.pending.byId.find? p.clientMsgId = some p ∧
    s.view.inFlight p.clientMsgId = none ∧ s.view.awaiting p.clientMsgId = none ∧
    s.view.backoff p.clientMsgId = none
  nodup : (ps.map clientMsgId).Nodup
  sorted : ps.Pairwise oldestFirst
  later : ∀ k p, s.pending.byId.find? k = some p → s.view.inFlight k = none →
    s.view.awaiting k = none → s.view.backoff k = none → p ∉ ps → ∀ q ∈ ps, ¬ p.before q

namespace RoundInv

variable {ps : List NumberedEntry}

private theorem ne_of_mem_tail (h : ((p :: ps).map clientMsgId).Nodup) {q : NumberedEntry}
    (hq : q ∈ ps) : q.clientMsgId ≠ p.clientMsgId := by
  rw [map_cons, nodup_cons] at h
  intro heq
  exact h.1 (heq ▸ mem_map_of_mem hq)

variable (h : RoundInv (p :: ps) s)

include h

/-- The head of a round is the oldest free entry. -/
theorem order (k : String) (q : NumberedEntry)
    (hq : s.view.pending k = some q) (hbefore : q.before p) :
    s.view.inFlight k ≠ none ∨ s.view.awaiting k ≠ none ∨ s.view.backoff k ≠ none := by
  by_contra hfree
  push Not at hfree
  obtain ⟨hfly, hawait, hback⟩ := hfree
  by_cases hmem : q ∈ p :: ps
  · rcases mem_cons.mp hmem with rfl | hq'
    · unfold before at hbefore
      omega
    · exact (pairwise_cons.mp h.sorted).1 q hq' hbefore
  · exact h.later k q hq hfly hawait hback hmem p mem_cons_self hbefore

/-- Leaving the head behind: the invariant of the tail in a state where only the head's own
standing changed. -/
theorem tail (noFaults : t.faults = [])
    (hpend : ∀ k, k ≠ p.clientMsgId → t.pending.byId.find? k = s.pending.byId.find? k)
    (hfly : ∀ k, k ≠ p.clientMsgId → t.view.inFlight k = s.view.inFlight k)
    (hawait : t.view.awaiting = s.view.awaiting) (hback : t.view.backoff = s.view.backoff)
    (hgone : t.pending.byId.find? p.clientMsgId = none ∨ t.view.inFlight p.clientMsgId ≠ none) :
    RoundInv ps t where
  noFaults := noFaults
  picked q hq := by
    have hne := ne_of_mem_tail h.nodup hq
    have hpicked := h.picked q (mem_cons_of_mem _ hq)
    rw [hpend _ hne, hfly _ hne, hawait, hback]
    exact hpicked
  nodup := (nodup_cons.mp h.nodup).2
  sorted := (pairwise_cons.mp h.sorted).2
  later k q hq hf ha hb hnot x hx := by
    by_cases hk : k = p.clientMsgId
    · subst hk
      rcases hgone with hgone | hgone
      · rw [hgone] at hq
        cases hq
      · exact absurd hf hgone
    · rw [hpend k hk] at hq
      rw [hfly k hk] at hf
      rw [hawait] at ha
      rw [hback] at hb
      have hqk : q.clientMsgId = k := KeyedMap.key_of_find? hq
      refine h.later k q hq hf ha hb (fun hmem => ?_) x (mem_cons_of_mem _ hx)
      rcases mem_cons.mp hmem with rfl | hmem
      · exact hk hqk.symm
      · exact hnot hmem

/-- If the head leaves the store because it failed or its row is final, that is a move and leaves the
invariant of the tail. -/
theorem leave (noFaults : t.faults = [])
    (hview : t.view = (s.view.forget p.2.clientMsgId).record [.popped p.2.clientMsgId]) :
    Move sc s.view t.view ∧ RoundInv ps t := by
  obtain ⟨hp, hfly, hawait, hback⟩ := h.picked p mem_cons_self
  have hpend : t.pending.byId.find? = Function.update s.pending.byId.find? p.2.clientMsgId none :=
    congrArg View.pending hview
  constructor
  · have hmove : Move sc s.view _ := .settle .queued p.2 ⟨⟨p.1, hp⟩, hfly, hawait⟩
    rwa [View.drop_queued (k := p.2.clientMsgId) hback, ← hview] at hmove
  · refine h.tail noFaults (fun k hk => ?_) (fun _ _ => by rw [hview]; rfl) (by rw [hview]; rfl)
      (by rw [hview]; rfl) (.inl ?_)
    · exact (congrFun hpend k).trans (Function.update_of_ne hk _ _)
    · exact (congrFun hpend _).trans (Function.update_self _ _ _)

/-- Handing the head to a writer with room is a move. -/
theorem send (hbudget : s.retryCount p.2.clientMsgId < s.config.maxRetries)
    (hroom : s.writerCapacity ≠ 0) :
      ∃ t, (dispatchSendAttempt p.2 (s.retryCount p.2.clientMsgId)).run s = (.ok (), t) ∧
      Move sc s.view t.view ∧ RoundInv ps t := by
  obtain ⟨t, jobs, hrun, hw, hview, hjobs, hhanded, -, hpend, -⟩ :=
    dispatchSendAttempt_run p.2 (s.retryCount p.2.clientMsgId) s
  obtain ⟨hp, hfly, hnoawait, hnoback⟩ := h.picked p mem_cons_self
  obtain ⟨-, job, rfl, hentry, hretries⟩ := hjobs.resolve_left (hhanded hroom)
  refine ⟨t, hrun, ?_, ?_⟩
  · rw [hview]
    have hmove : Move sc s.view _ := Move.dispatch p.1 job (by rw [hentry]; exact hp)
      (by rw [hentry]; exact hfly) (by rw [hentry]; exact hnoawait) (by rw [hentry]; exact hnoback)
      (by rw [hretries, hentry]; rfl)
      (by rw [hretries]; exact hbudget)
      (by rw [hentry]; exact h.order)
    rw [hentry] at hmove
    exact hmove
  · refine h.tail (hw.faults.trans h.noFaults) (fun k _ => by rw [hpend]) (fun k hk => ?_) (by rw [hview])
      (by rw [hview]) (.inr ?_)
    · rw [hview]
      exact Function.update_of_ne hk _ _
    · rw [hview]
      dsimp only
      rw [show p.clientMsgId = p.2.clientMsgId from rfl, Function.update_self]
      simp

end RoundInv

/-- The ids that the dispatch query leaves out are those that are not free. -/
theorem not_mem_excludedIds (s : QueueState) (k : String) : k ∉ excludedIds s ↔
      s.view.inFlight k = none ∧ s.view.awaiting k = none ∧ s.view.backoff k = none := by
  simp only [excludedIds, mem_append, QueueState.mem_iterate, not_or, view,
    KeyedMap.lookup_eq_none_iff, KeyedMap.find?_eq_none_iff, and_assoc]

theorem roundInv_of_candidates (h : s.faults = []) (limit : ℕ) :
    RoundInv ((s.pending.candidates (excludedIds s)).take limit) s := by
  have hpicked : ∀ p ∈ (s.pending.candidates (excludedIds s)).take limit,
      s.pending.byId.find? p.clientMsgId = some p ∧ p.clientMsgId ∉ excludedIds s := fun p hp =>
    (s.pending.mem_candidates _ p).mp (mem_of_mem_take hp)
  have hsorted := s.pending.pairwise_candidates (excludedIds s)
  refine ⟨h, fun p hp => ?_, ?_, ?_, ?_⟩
  · obtain ⟨hfind, hfree⟩ := hpicked p hp
    exact ⟨hfind, (not_mem_excludedIds s _).mp hfree⟩
  · exact ((take_sublist _ _).map _).nodup (s.pending.nodup_candidates_ids _)
  · exact hsorted.sublist (take_sublist _ _)
  · intro k p hp hfly hawait hback hnot q hq
    have hk : p.clientMsgId = k := KeyedMap.key_of_find? hp
    have hmem : p ∈ s.pending.candidates (excludedIds s) := by
      rw [mem_candidates, hk, not_mem_excludedIds]
      exact ⟨hp, hfly, hawait, hback⟩
    rw [← take_append_drop limit (s.pending.candidates (excludedIds s))] at hmem hsorted
    have hrest := (mem_append.mp hmem).resolve_left hnot
    exact (pairwise_append.mp hsorted).2.2 q hq p hrest

/-! ### The loop -/

variable [ProtoCodes]

variable (sc rows) in
theorem dispatchEntries_moves :
    ∀ (ps : List NumberedEntry) (progress : Bool) (s : QueueState), RoundInv ps s →
      Ensures (dispatchEntries user rows (ps.map Prod.snd) progress) s
        (fun _ t => Moves sc s.view t.view ∧ t.faults = []) := by
  intro ps
  induction ps with
  | nil =>
    intro progress s h
    exact .intro rfl ⟨.refl, h.noFaults⟩
  | cons p ps ih =>
    intro progress s h
    -- every branch that goes on makes one move and leaves the invariant of the tail
    have next : ∀ t progress', Move sc s.view t.view → RoundInv ps t →
        Ensures (dispatchEntries user rows (ps.map Prod.snd) progress') t
          (fun _ u => Moves sc s.view u.view ∧ u.faults = []) := fun t progress' hm ht =>
      (ih progress' t ht).mono fun _ u hu => ⟨.head hm hu.1, hu.2⟩
    have leaves (t : QueueState) progress' noFaults hview :=
      (h.leave noFaults hview).elim (next t progress')
    rw [map_cons, dispatchEntries]
    refine .bind_of_run (get_run s) ?_
    split
    · exact .intro rfl ⟨.refl, h.noFaults⟩
    dsimp only
    split
    · exact .bind_of_run (failEntry_run h.noFaults _ _) (leaves _ _ h.noFaults (failedState_view _ _ _))
    · refine .bind_of_run (attempt_run _ _) ?_
      rw [pendingPop_run h.noFaults]
      refine .bind_of_run (modify_run _ _) (leaves _ _ h.noFaults ?_)
      simp only [view, View.forget, View.record, find?_pop_eq]
      rfl
    · exact .bind_of_run (failEntry_run h.noFaults _ _) (leaves _ _ h.noFaults (failedState_view _ _ _))
    · rename_i hdecide
      obtain ⟨-, hbudget⟩ := decidePendingDispatch_sendNow hdecide
      split
      · rename_i hfull
        refine .bind_of_run (modify_run _ _) ?_
        refine .intro rfl ?_
        unfold noteWriterFull
        split <;> exact ⟨.refl, h.noFaults⟩
      · rename_i hroom
        obtain ⟨t, hrun, hm, ht⟩ := h.send hbudget hroom
        exact .bind_of_run hrun (next _ _ hm ht)

theorem trySendLoop_moves : ∀ (fuel : ℕ) (s : QueueState), s.faults = [] → MovesOnly sc (trySendLoop fuel) s := by
  intro fuel
  induction fuel with
  | zero => intro s h; exact .of_run rfl .refl h
  | succ fuel ih =>
    intro s h
    rw [trySendLoop]
    refine .bind_of_run (get_run s) .refl ?_
    dsimp only
    split
    · exact .of_run rfl .refl h
    refine .bind_of_run (pendingListOldestExcluding_run h _ _) .refl ?_
    split
    · exact .of_run rfl .refl h
    refine .bind_of_run (get_run s) .refl ?_
    refine .bind_of_run (loadLocalRows_run h _) .refl ?_
    refine (dispatchEntries_moves sc _ _ false s (roundInv_of_candidates h _)).bind fun r t ht => ?_
    split
    · exact (ih t ht.2).mono fun _ u hu => ⟨ht.1.trans hu.1, hu.2⟩
    · exact .intro rfl ht

theorem trySendNext_moves (h : s.faults = []) : MovesOnly sc trySendNext s := by
  refine .bind_of_run (get_run s) .refl ?_
  split
  · exact .of_run rfl .refl h
  · exact trySendLoop_moves _ s h

end FlareIm.Outbox
