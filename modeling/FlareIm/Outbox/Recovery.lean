import FlareIm.Outbox.Timers

/-! Stale expiry, login reset and resume make only moves. Expiry is a loop of moves on single
messages; a reset empties the queue in one move, whose record is collected over its three
loops; a resume releases what was in flight, moves the enqueue clock, heals the entries of
another account and orphaned rows, releases failed attempts, and dispatches. -/

namespace FlareIm.Outbox

open Lib Message Store List KeyedMap MessageTable Prog QueueState

variable [codes : ProtoCodes] {sc : Scope} {s t u : QueueState}

/-! ### Stale expiry -/

/-- The invariant of the expiry loop: the entries still to come are stored. -/
structure ExpiryLoop (xs : List PendingSendVo) (t : QueueState) : Prop where
  noFaults : t.faults = []
  nodup : (xs.map PendingSendVo.clientMsgId).Nodup
  stored : ∀ e ∈ xs, e ∈ t.pending.list

variable {e : PendingSendVo} {k user : String}

theorem expire_move (reason : String) (he : e ∈ s.pending.list) :
    Move sc s.view (failedState e reason { s with
      inFlight := s.inFlight.erase e.clientMsgId
      awaitingDurable := s.awaitingDurable.erase e.clientMsgId
      retryBackoff := s.retryBackoff.erase e.clientMsgId }).view := by
  obtain ⟨n, hn⟩ := (s.pending.mem_list e).mp he
  have hmove : Move sc s.view _ := .expire n e hn
  convert hmove using 1
  rw [failedState_view]
  simp [view]

theorem expireStalePending_moves (maxAgeMs : ℕ) (h : s.faults = []) :
    MovesOnly sc (expireStalePending maxAgeMs) s := by
  refine .bind_of_run (get_run s) .refl (.bind_of_run (pendingList_run h) .refl ?_)
  refine (foldlM_ensures (R := Reaches sc) (I := fun xs _ t => ExpiryLoop xs t) (fun e xs _ t ht => ?_)
    s.pending.list [] s ⟨h, s.pending.nodup_list_ids, fun _ he => he⟩).mono fun _ u hu => ⟨hu.1, hu.2.noFaults⟩
  have hnodup := ht.nodup
  rw [map_cons, nodup_cons] at hnodup
  split
  · exact .intro rfl ⟨.refl, ht.noFaults, hnodup.2, fun x hx => ht.stored x (mem_cons_of_mem e hx)⟩
  let taken : QueueState := { t with
    inFlight := t.inFlight.erase e.clientMsgId
    awaitingDurable := t.awaitingDurable.erase e.clientMsgId
    retryBackoff := t.retryBackoff.erase e.clientMsgId }
  refine .bind_of_run (modify_run _ _) (.bind_of_run (modify_run _ _)
    (.bind_of_run (modify_run _ _) (.bind_of_run
      (markSendFailedAndPublish_run (s := taken) ht.noFaults e pendingExpiredBeforeResume) (.intro rfl ⟨?_, ?_⟩))))
  · exact .single (expire_move _ (ht.stored e mem_cons_self))
  · refine ⟨ht.noFaults, hnodup.2, fun x hx => ?_⟩
    obtain ⟨n, hn⟩ := (t.pending.mem_list x).mp (ht.stored x (mem_cons_of_mem e hx))
    have hne : x.clientMsgId ≠ e.clientMsgId := fun heq =>
      hnodup.1 (heq ▸ mem_map_of_mem hx)
    exact (PendingEntries.mem_list _ x).mpr ⟨n, ((PendingEntries.find?_pop _ _ _).trans (if_neg hne)).trans hn⟩

/-! ### Login reset -/

/-- What the loops of a reset do: entries are failed, and an entry that is gone was recorded
as removed. -/
structure Emptied (s t : QueueState) : Prop where
  pops : ∃ pops : List String, t.history = pops.map .popped ++ s.history ∧
    ∀ k, s.pending.byId.find? k ≠ none → t.pending.byId.find? k ≠ none ∨ k ∈ pops
  nextSeq : t.pending.nextSeq = s.pending.nextSeq
  inFlight : t.inFlight = s.inFlight ∨ t.inFlight = empty
  awaiting : t.awaitingDurable = s.awaitingDurable ∨ t.awaitingDurable = empty
  backoff : t.retryBackoff = s.retryBackoff ∨ t.retryBackoff = empty
  config : t.config = s.config
  user : t.currentUserId = s.currentUserId
  lastEnqueued : t.lastEnqueuedAtMs = s.lastEnqueuedAtMs
  gone : ∀ k, s.pending.byId.find? k = none → t.pending.byId.find? k = none

namespace Emptied

instance : Std.Refl Emptied :=
  ⟨fun _ => ⟨⟨[], rfl, fun _ => .inl⟩, rfl, .inl rfl, .inl rfl, .inl rfl, rfl, rfl, rfl, fun _ => id⟩⟩

instance : IsTrans QueueState Emptied := ⟨fun s t u h h' => by
  obtain ⟨pops, hhist, hpop⟩ := h.pops
  obtain ⟨pops', hhist', hpop'⟩ := h'.pops
  refine ⟨⟨pops' ++ pops, by rw [hhist', hhist, map_append, append_assoc], fun k hk => ?_⟩,
    h'.nextSeq.trans h.nextSeq, h'.inFlight.elim (fun heq => heq ▸ h.inFlight) .inr,
    h'.awaiting.elim (fun heq => heq ▸ h.awaiting) .inr,
    h'.backoff.elim (fun heq => heq ▸ h.backoff) .inr, h'.config.trans h.config,
    h'.user.trans h.user,
    h'.lastEnqueued.trans h.lastEnqueued, fun k hk => h'.gone k (h.gone k hk)⟩
  rcases hpop k hk with hk' | hk'
  · exact (hpop' k hk').imp_right fun hmem => mem_append_left _ hmem
  · exact .inr (mem_append_right _ hk')⟩

theorem failedState (reason : String) : Emptied s (failedState e reason s) := by
  refine ⟨⟨[e.clientMsgId], rfl, fun k hk => ?_⟩, rfl, .inl rfl, .inl rfl, .inl rfl, rfl, rfl, rfl,
    fun k hk => (PendingEntries.find?_pop _ _ _).trans (by rw [hk, ite_self])⟩
  by_cases hke : k = e.clientMsgId
  · exact .inr (mem_singleton.mpr hke)
  · left
    rw [show (Outbox.failedState e reason s).pending = s.pending.pop e.clientMsgId from rfl,
      PendingEntries.find?_pop, if_neg hke]
    exact hk

end Emptied

theorem failEntries_emptied (reason : String) (entries : List PendingSendVo) (dropped : List String)
    (h : s.faults = []) :
    Ensures (failEntries reason entries dropped) s (fun _ t => Emptied s t ∧ t.faults = [] ∧
      ∀ k ∈ entries.map PendingSendVo.clientMsgId, t.pending.byId.find? k = none) := by
  let I : List PendingSendVo → List String → QueueState → Prop := fun xs _ t => t.faults = [] ∧
    ∀ k ∈ entries.map PendingSendVo.clientMsgId, k ∈ xs.map PendingSendVo.clientMsgId ∨
      t.pending.byId.find? k = none
  refine (foldlM_ensures (R := Emptied) (I := I) (fun e xs b t ht => ?_) entries dropped s
    ⟨h, fun k hk => .inl hk⟩).mono fun _ t ht => ⟨ht.1, ht.2.1, fun k hk => ?_⟩
  · refine .bind_of_run (markSendFailedAndPublish_run ht.1 e reason) (.intro rfl
      ⟨.failedState reason, ht.1, fun k hk => ?_⟩)
    have hpop := PendingEntries.find?_pop t.pending e.clientMsgId k
    rcases ht.2 k hk with hmem | hgone
    · rw [map_cons, mem_cons] at hmem
      exact hmem.symm.imp_right fun heq => hpop.trans (if_pos heq)
    · exact .inr ((Emptied.failedState reason).gone k hgone)
  · exact (ht.2.2 k hk).resolve_left not_mem_nil

omit codes in
/-- An emptied queue is one reset away. -/
theorem Emptied.reset_move (h : Emptied s t) (hres : sc.resets)
    (hfly : t.inFlight = empty) (hawait : t.awaitingDurable = empty)
    (hback : t.retryBackoff = empty) (hpend : ∀ k, t.pending.byId.find? k = none) :
    Move sc s.view t.view := by
  obtain ⟨pops, hhist, hpop⟩ := h.pops
  have hmove : Move sc s.view _ := .reset t.retryCount pops hres fun k hk =>
    (hpop k hk).resolve_left fun hne => hne (hpend k)
  convert hmove using 1
  simp only [view, View.record, hfly, hawait, hback, lookup_empty, h.nextSeq, h.config, h.user,
    h.lastEnqueued, hhist, funext hpend]

theorem resetPendingOnLogin_moves (h : s.faults = []) (hres : sc.resets) :
    MovesOnly sc resetPendingOnLogin s := by
  let s₁ : QueueState := { s with
    dispatchGeneration := (s.dispatchGeneration + 1) % 2 ^ 64
    retryBackoff := empty
    inFlight := empty }
  have hs₁ : Emptied s s₁ :=
    ⟨⟨[], rfl, fun _ => .inl⟩, rfl, .inr rfl, .inl rfl, .inr rfl, rfl, rfl, rfl, fun _ => id⟩
  refine Ensures.bind_of_run (modify_run _ _) (.bind_of_run (modify_run _ _)
    (.bind_of_run (get_run _) (.bind_of_run (modify_run _ _) ?_)))
  refine (failEntries_emptied (s := s₁) droppedPendingReason _ [] h).bind fun dropped t ht => ?_
  let t₁ : QueueState := { t with awaitingDurable := empty }
  have htt₁ : Emptied t t₁ :=
    ⟨⟨[], rfl, fun _ => .inl⟩, rfl, .inl rfl, .inr rfl, .inl rfl, rfl, rfl, rfl, fun _ => id⟩
  refine .bind_of_run (get_run _) (.bind_of_run (modify_run _ _) ?_)
  refine (failEntries_emptied (s := t₁) droppedAcceptedReason _ dropped ht.2.1).bind fun dropped u hu => ?_
  refine .bind_of_run (pendingList_run hu.2.1) ?_
  refine (failEntries_emptied droppedPendingReason _ dropped hu.2.1).bind fun dropped v hv => ?_
  have htail : Emptied t₁ v := trans_of Emptied hu.1 hv.1
  have hmid : Emptied s₁ v := trans_of Emptied ht.1 (trans_of Emptied htt₁ htail)
  have hall : Emptied s v := trans_of Emptied hs₁ hmid
  refine .intro rfl ⟨.single (hall.reset_move hres (hmid.inFlight.elim id id) (htail.awaiting.elim id id)
    (hmid.backoff.elim id id) fun k => ?_), hv.2.1⟩
  -- what was still stored before the last loop is what that loop went over
  by_cases hk : u.pending.byId.find? k = none
  · exact hv.1.gone k hk
  · exact hv.2.2 k ((u.pending.mem_list_ids k).mpr hk)

/-! ### Resume -/

section Thaw

omit codes

variable (resend : Bool) (s : QueueState)

@[simp] theorem thaw_pending : (thaw resend s).pending = s.pending := by
  unfold thaw; cases resend <;> rfl

@[simp] theorem thaw_messages : (thaw resend s).messages = s.messages := by
  unfold thaw; cases resend <;> rfl

@[simp] theorem thaw_currentUserId : (thaw resend s).currentUserId = s.currentUserId := by
  unfold thaw; cases resend <;> rfl

@[simp] theorem thaw_faults : (thaw resend s).faults = s.faults := by
  unfold thaw; cases resend <;> rfl

end Thaw

omit codes in
theorem thaw_view (resend : Bool) (s : QueueState) : (thaw resend s).view = { s.view with
      inFlight := if resend then fun _ => none else s.view.inFlight } := by
  have hawait := s.awaitingDurable.lookup_mapValues AwaitingDurableAck.entry
    (postponeAwaiting ((s.pausedSinceMs.map (fun since => s.nowMs - since)).getD 0))
    (postponeAwaiting_clientMsgId _) (fun _ => rfl)
  have hfly := s.inFlight.lookup_mapValues InFlightSend.entry
    (postponeInFlight ((s.pausedSinceMs.map (fun since => s.nowMs - since)).getD 0))
    (postponeInFlight_clientMsgId _) (fun _ => rfl)
  unfold thaw
  cases resend with
  | true => simp [view, hawait]
  | false => simp [view, hawait, hfly]

omit codes in
theorem thaw_awaiting_none (resend : Bool) (s : QueueState) (k : String) :
    (thaw resend s).awaitingDurable.find? k = none ↔ s.awaitingDurable.find? k = none := by
  unfold thaw
  cases resend <;> simp

omit codes in
/-- Only a resume on the same connection keeps attempts in flight. -/
theorem thaw_inFlight_kept {resend : Bool}
    (h : ∃ x, (thaw resend s).inFlight.find? k = some x ∧ x.sendFailed = false) :
    resend = false ∧ ∃ x, s.inFlight.find? k = some x ∧ x.sendFailed = false := by
  obtain ⟨x, hx, hfailed⟩ := h
  unfold thaw at hx
  cases resend with
  | true => simp at hx
  | false =>
    simp only [Bool.false_eq_true, if_false, find?_mapValues, Option.map_eq_some_iff] at hx
    obtain ⟨y, hy, rfl⟩ := hx
    exact ⟨rfl, y, hy, hfailed⟩

omit codes in
theorem thaw_move (resend : Bool) (hres : sc.resumes) : Move sc s.view (thaw resend s).view := by
  rw [thaw_view]
  refine .release _ hres fun k => ?_
  cases resend with
  | true => exact .inr rfl
  | false => exact .inl rfl

omit codes in
theorem le_latestEnqueueMs (entries : List PendingSendVo) (last : ℕ) : last ≤ latestEnqueueMs entries last := by
  induction entries generalizing last with
  | nil => exact le_refl last
  | cons e entries ih => exact (le_max_left _ _).trans (ih (max last e.enqueuedAtMs))

/-- What healing the entries `ids` of another account leaves. -/
structure Healed (ids : List String) (s t : QueueState) : Prop where
  same : SameSurroundings s t
  pending : ∀ k, t.pending.byId.find? k = if k ∈ ids then none else s.pending.byId.find? k
  nextSeq : t.pending.nextSeq = s.pending.nextSeq
  lastEnqueued : t.lastEnqueuedAtMs = s.lastEnqueuedAtMs
  inFlight : t.inFlight = s.inFlight
  awaiting : t.awaitingDurable = s.awaitingDurable

theorem healCrossAccountPendingMessages_healed (user : String) (pendingIds : List String) (h : s.faults = []) :
    Ensures (healCrossAccountPendingMessages user pendingIds) s (fun ids t =>
      ids = s.messages.crossAccountIds user pendingIds ∧ Healed ids s t ∧ t.retryCount = s.retryCount ∧
        t.retryBackoff = s.retryBackoff ∧ t.history = ids.map .popped ++ s.history) := by
  unfold healCrossAccountPendingMessages
  split
  · rename_i hempty
    have hnone : s.messages.crossAccountIds user pendingIds = [] := by
      simp [crossAccountIds, hempty]
    exact .intro rfl ⟨hnone.symm, ⟨.refl s, fun k => by simp, rfl, rfl, rfl, rfl⟩, rfl, rfl, rfl⟩
  · exact .intro (storeCall_run h _) ⟨rfl,
      ⟨.kept rfl, fun k => PendingEntries.find?_deleteAll _ _ _, rfl, rfl, rfl, rfl⟩,
      rfl, rfl, rfl⟩

/-- What the loop over the healed ids does: the queue forgets them. -/
structure Dropped (ids : List String) (s t : QueueState) : Prop extends Healed ids s t where
  messages : t.messages = s.messages
  retries : ∀ k, t.retryCount k = if k ∈ ids then 0 else s.retryCount k
  backoff : ∀ k, t.view.backoff k = if k ∈ ids then none else s.view.backoff k
  history : t.history = ids.reverse.map .popped ++ s.history
  window : t.adaptiveWindow = s.adaptiveWindow
  jobs : t.writerJobs = s.writerJobs
  bus : t.bus = ids.reverse.map (.sendFailed · reasonPendingAnotherAccount) ++ s.bus

omit codes in
theorem dropCrossAccountIds_dropped (ids : List String) (s : QueueState) (h : s.faults = []) :
    Ensures (dropCrossAccountIds ids) s (fun _ t => Dropped ids s t) := by
  induction ids generalizing s with
  | nil =>
    exact .intro rfl ⟨⟨.refl s, fun _ => by simp, rfl, rfl, rfl, rfl⟩, rfl, fun _ => by simp, fun _ => by simp,
      rfl, rfl, rfl, rfl⟩
  | cons id ids ih =>
    unfold dropCrossAccountIds
    rw [foldlM_cons]
    let s₁ : QueueState := { s with
      pending := s.pending.pop id
      history := .popped id :: s.history
      retryCount := Function.update s.retryCount id 0
      retryBackoff := s.retryBackoff.erase id
      bus := .sendFailed id reasonPendingAnotherAccount :: s.bus }
    have hbody : (do
        let _ ← pendingPop id
        clearRetryCount id
        removeBackoff id
        publish (.sendFailed id reasonPendingAnotherAccount) : OutboxM Unit).run s = (.ok (), s₁) := by
      rw [bind_ok (pendingPop_run h id)]
      rfl
    refine .bind_of_run hbody ((ih s₁ h).mono fun _ t ht => ?_)
    refine ⟨⟨.trans (.kept (by rfl)) ht.same, fun k => ?_, ht.nextSeq, ht.lastEnqueued, ht.inFlight, ht.awaiting⟩,
      ht.messages, fun k => ?_, fun k => ?_, ?_, ht.window, ht.jobs, ?_⟩
    · rw [ht.pending, show s₁.pending = s.pending.pop id from rfl, PendingEntries.find?_pop]
      by_cases hk : k = id <;> simp [hk]
    · rw [ht.retries, show s₁.retryCount = Function.update s.retryCount id 0 from rfl, Function.update_apply]
      by_cases hk : k = id <;> simp [hk]
    · rw [ht.backoff, show s₁.view.backoff = Function.update s.view.backoff id none from
        lookup_erase _ _ _, Function.update_apply]
      by_cases hk : k = id <;> simp [hk]
    · rw [ht.history]
      simp [s₁]
    · rw [ht.bus]
      simp [s₁]

def pendingIds (s : QueueState) : List String := s.pending.list.map PendingSendVo.clientMsgId

/-- The pending messages that a resume takes for those of another account: by their rows. -/
def crossAccountIds (s : QueueState) : List String :=
  s.messages.crossAccountIds s.currentUserId (pendingIds s)

omit codes in
theorem mem_orphanSendingIds_iff : k ∈ s.messages.orphanSendingIds user (pendingIds s) ↔
      isBlank user = false ∧ ∃ r ∈ s.messages.rows.items, isLocalSending r = true ∧ r.senderId = user ∧
        s.pending.byId.find? r.clientMsgId = none ∧ r.clientMsgId = k := by
  unfold orphanSendingIds pendingIds
  split <;> simp_all [and_assoc, PendingEntries.mem_list_ids]

namespace Healed

variable {ids : List String} (h : Healed ids s t)

include h

omit codes in
theorem drop (hd : Dropped ids t u) : Healed ids s u where
  same := h.same.trans hd.same
  pending k := by
    rw [hd.pending, h.pending]
    split <;> rfl
  nextSeq := hd.nextSeq.trans h.nextSeq
  lastEnqueued := hd.lastEnqueued.trans h.lastEnqueued
  inFlight := hd.inFlight.trans h.inFlight
  awaiting := hd.awaiting.trans h.awaiting

omit codes in
/-- Healing and forgetting together are one move. The failed attempts `flight` leaves out are
released only later, but no move in between depends on them. -/
theorem moves (hd : Dropped ids t u) (hretries : t.retryCount = s.retryCount)
    (hback : t.retryBackoff = s.retryBackoff) (hhist : t.history = ids.map .popped ++ s.history) (hres : sc.resumes)
    (flight : String → Option PendingSendVo)
    (hflight : ∀ k, flight k = s.view.inFlight k ∨ flight k = none)
    (hstrand : ∀ k ∈ ids, flight k ≠ none ∨ s.view.awaiting k ≠ none → sc.strands k) :
    Moves sc s.view { u.view with inFlight := flight } := by
  have hu := h.drop hd
  refine .head (.release flight hres hflight) (.single ?_)
  have hmem : ∀ k, k ∈ ids.reverse ++ ids ↔ k ∈ ids := by simp
  have hmove : Move sc { s.view with inFlight := flight } _ :=
    .heal (ids.reverse ++ ids) hres fun k hk => hstrand k ((hmem k).mp hk)
  convert hmove using 1
  have hpend : u.pending.byId.find? = fun k => if k ∈ ids then none else s.pending.byId.find? k :=
    funext hu.pending
  have hcount : u.retryCount = fun k => if k ∈ ids then 0 else s.retryCount k := by
    funext k
    rw [hd.retries, hretries]
  have hwait : u.retryBackoff.lookup Prod.snd =
      fun k => if k ∈ ids then none else s.retryBackoff.lookup Prod.snd k := by
    funext k
    have := hd.backoff k
    simpa only [view, hback] using this
  simp only [view, View.record, hmem, hpend, hcount, hwait, hu.awaiting, hu.same.config, hu.same.user,
    hu.nextSeq, hu.lastEnqueued, hd.history, hhist, map_append, append_assoc]

end Healed

omit codes in
theorem not_pending_of_orphan
    (h : k ∈ s.messages.orphanSendingIds user (pendingIds s)) :
    s.pending.byId.find? k = none := by
  obtain ⟨-, r, -, -, -, hgone, rfl⟩ := mem_orphanSendingIds_iff.mp h
  exact hgone

omit codes in
theorem publishOrphans_run (ids : List String) (s : QueueState) : (publishOrphans ids).run s = (.ok (), { s with
      bus := ids.reverse.map (.sendFailed · reasonOrphanRecovered) ++ s.bus }) := by
  induction ids generalizing s with
  | nil => rfl
  | cons id ids ih =>
    refine (ih { s with bus := .sendFailed id reasonOrphanRecovered :: s.bus }).trans ?_
    simp

omit codes in
/-- What a recovery leaves in flight: the attempts that were not reported as failed. -/
theorem filter_sendFailed_ne_none
    (h : (s.inFlight.filter (fun x => !x.sendFailed)).lookup InFlightSend.entry k ≠ none) :
    ∃ x, s.inFlight.find? k = some x ∧ x.sendFailed = false := by
  rw [KeyedMap.lookup, KeyedMap.find?_filter] at h
  cases hx : s.inFlight.find? k with
  | none => simp [hx] at h
  | some x =>
    refine ⟨x, rfl, ?_⟩
    by_contra hfailed
    simp [hx, Option.filter, hfailed] at h

theorem recoverPendingForCurrentUser_moves (h : s.faults = []) (hres : sc.resumes)
    (hcross : ∀ k ∈ crossAccountIds s,
        (∃ x, s.inFlight.find? k = some x ∧ x.sendFailed = false) ∨ s.awaitingDurable.find? k ≠ none →
        sc.strands k) :
    MovesOnly sc recoverPendingForCurrentUser s := by
  refine .bind_of_run (modify_run _ _) .refl (.bind_of_run (get_run _) .refl ?_)
  split
  · exact .of_run rfl .refl h
  refine .bind_of_run (pendingList_run (s := { s with stallProbeGate := .onNewConnection s.nowMs }) h) .refl ?_
  let s₁ : QueueState := notePersistedEnqueueTimes s.pending.list
    { s with stallProbeGate := .onNewConnection s.nowMs }
  refine .bind_of_run (t := s₁) (modify_run _ _) (.single (.clock _ (le_latestEnqueueMs _ _))) ?_
  refine Ensures.bind (healCrossAccountPendingMessages_healed (s := s₁) s.currentUserId _ h) fun ids t ht => ?_
  obtain ⟨rfl, hhealed, hretries, hback, hhist⟩ := ht
  refine .bind (dropCrossAccountIds_dropped _ t (hhealed.same.faults.trans h)) fun _ u hu => ?_
  have hdropped := hhealed.drop hu
  have hmoves := hhealed.moves hu hretries hback hhist hres
    ((s.inFlight.filter (fun x => !x.sendFailed)).lookup InFlightSend.entry)
    (fun k => lookup_filter _ _ _ k) fun k hk htracked => hcross k hk
      (htracked.imp filter_sendFailed_ne_none fun hawait hnone =>
        hawait ((lookup_eq_none_iff _ _ _).mpr hnone))
  have hfaults : u.faults = [] := hdropped.same.faults.trans h
  let orphans := u.messages.orphanSendingIds s.currentUserId (pendingIds u)
  let u₁ : QueueState := { u with messages := u.messages.failAll u.nowMs orphans }
  refine .bind_of_run (pendingList_run hfaults) ?_
  refine .bind_of_run (t := u₁) (storeCall_run hfaults _) (.bind_of_run (publishOrphans_run orphans u₁)
    (.bind_of_run (modify_run _ _) ?_))
  let v : QueueState := { u₁ with
    bus := orphans.reverse.map (.sendFailed · reasonOrphanRecovered) ++ u.bus
    inFlight := u.inFlight.filter (fun x => !x.sendFailed) }
  have hmoves' : Moves sc s₁.view v.view := by
    have hfly : u.inFlight = s.inFlight := hdropped.inFlight
    rw [← hfly] at hmoves
    exact hmoves
  have hsend : Ensures trySendNext v (fun _ x => Moves sc s₁.view x.view ∧ x.faults = []) :=
    (trySendNext_moves (s := v) hfaults).mono fun _ x hx => ⟨hmoves'.trans hx.1, hx.2⟩
  exact hsend.bind fun _ x hx => .intro (pure_run _ x) hx

theorem resumeQueue_moves (resend : Bool) (hres : sc.resumes) (h : s.faults = [])
    (hcross : ∀ k ∈ crossAccountIds s, (resend = false ∧ ∃ x, s.inFlight.find? k = some x ∧ x.sendFailed = false) ∨
      s.awaitingDurable.find? k ≠ none → sc.strands k) :
    MovesOnly sc (resumeQueue resend) s := by
  refine .bind_of_run (modify_run _ _) (.single (thaw_move resend hres))
    (recoverPendingForCurrentUser_moves ((thaw_faults resend s).trans h) hres ?_)
  rw [crossAccountIds, pendingIds, thaw_messages, thaw_currentUserId, thaw_pending]
  intro k hk htracked
  refine hcross k hk (htracked.imp thaw_inFlight_kept ?_)
  exact fun hne hnone => hne ((thaw_awaiting_none resend s k).mpr hnone)

end FlareIm.Outbox
