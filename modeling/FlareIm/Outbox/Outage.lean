import FlareIm.Outbox.Refinement
import FlareIm.Outbox.Serving

/-! A pause and the resume on a new connection that ends it. The resume releases everything in
flight and hands it to the dispatch loop with its retry count unchanged; the loop fails an entry
whose count has reached the maximum. A message of the connected user therefore gets through
exactly when it has budget left, or the loop does not come to it, or finds its row final. -/

namespace FlareIm.Outbox

open Lib Message Store List KeyedMap MessageTable Prog

/-- What the dispatch loop finds after a resume on a new connection. -/
structure Released (s u : QueueState) : Prop where
  noFaults : u.faults = []
  user : u.currentUserId = s.currentUserId
  config : u.config = s.config
  unpaused : u.isPaused = false
  window : u.adaptiveWindow = s.adaptiveWindow
  jobs : u.writerJobs = s.writerJobs
  inFlight : u.inFlight = empty
  pending : ∀ k, u.pending.byId.find? k = if k ∈ crossAccountIds s then none else s.pending.byId.find? k
  awaiting : ∀ k, u.awaitingDurable.find? k = none ↔ s.awaitingDurable.find? k = none
  backoff : ∀ k ∉ crossAccountIds s, (u.retryBackoff.find? k = none ↔ s.retryBackoff.find? k = none)
  retries : ∀ k ∉ crossAccountIds s, u.retryCount k = s.retryCount k
  rows : ∀ k ∉ crossAccountIds s, s.pending.byId.find? k ≠ none → u.messages.copies k = s.messages.copies k
  told : ∀ k ∉ crossAccountIds s, s.pending.byId.find? k ≠ none → failuresTold k u.bus = failuresTold k s.bus
  ids : IdsApart u

/-- The dispatch loop may pick the pending entry once nothing is in flight. -/
def comesFree (s : QueueState) (q : NumberedEntry) : Bool :=
  q.clientMsgId ∉ crossAccountIds s ∧ s.awaitingDurable.find? q.clientMsgId = none ∧
    s.retryBackoff.find? q.clientMsgId = none

section Survival

variable [codes : ProtoCodes]

/-- The older entries that will be sent. -/
def sendableAhead (s : QueueState) (p : NumberedEntry) : ℕ :=
  s.pending.byId.items.countP (fun q => q.before p && (comesFree s q && sendsNow s q))

/-- A row the queue takes for the final state of its message. -/
def isFinalRow (r : IMMessage) : Bool :=
  r.snapshot.isFinalSuccess r.clientMsgId || r.status == codes.statusFailed

/-- The message has budget left, or the loop finds its row final, or does not come to it: it is
held back, or the older entries fill the window or the writer's queue. -/
def SurvivesResume (s : QueueState) (p : NumberedEntry) : Prop :=
  s.retryCount p.clientMsgId < s.config.maxRetries ∨
    (s.messages.getByClientMsgId p.clientMsgId).any isFinalRow ∨ comesFree s p = false ∨
      s.adaptiveWindow.current ≤ sendableAhead s p ∨ s.writerCapacity < sendableAhead s p
  deriving Decidable

end Survival

structure OwnInFlight (s : QueueState) (p : NumberedEntry) : Prop where
  user : isBlank s.currentUserId = false
  inFlight : s.inFlight.find? p.clientMsgId ≠ none
  pending : s.pending.byId.find? p.clientMsgId = some p
  sender : p.2.message.senderId = s.currentUserId
  rows : ∀ r ∈ s.messages.copies p.clientMsgId, r.senderId = s.currentUserId

/-- The message was not moved to Failed between the two states: the application was not told so,
and its rows are as they were. -/
def NotFailed (k : String) (s t : QueueState) : Prop :=
  failuresTold k t.bus = failuresTold k s.bus ∧ t.messages.copies k = s.messages.copies k

theorem IdsApart.mono {s u : QueueState} (h : IdsApart s)
    (hpend : ∀ k p, u.pending.byId.find? k = some p → s.pending.byId.find? k = some p)
    (hrows : ∀ r ∈ u.messages.rows.items, ∃ r₀ ∈ s.messages.rows.items,
      r.serverId = r₀.serverId ∧ r.clientMsgId = r₀.clientMsgId) : IdsApart u := by
  refine ⟨fun k p hp => h.plain k p (hpend k p hp), fun r hr hp => ?_⟩
  obtain ⟨r₀, hr₀, hserver, hclient⟩ := hrows r hr
  obtain ⟨p, hp⟩ := Option.ne_none_iff_exists'.mp hp
  rw [hserver] at hp ⊢
  rw [hclient]
  exact h.fresh r₀ hr₀ (by rw [hpend _ p hp]; simp)

theorem failuresTold_append (k : String) (xs ys : List SdkEvent) :
    failuresTold k (xs ++ ys) = failuresTold k xs + failuresTold k ys := countP_append

variable {ids : List String} {k : String}

theorem failuresTold_eq_zero (h : k ∉ ids) (reason : String) :
    failuresTold k (ids.reverse.map (.sendFailed · reason)) = 0 := by
  refine countP_eq_zero.mpr fun e he => ?_
  obtain ⟨id, hid, rfl⟩ := mem_map.mp he
  have hne : id ≠ k := fun heq => h (heq ▸ mem_reverse.mp hid)
  simp [SdkEvent.isFailureOf, hne]

section Released

variable [codes : ProtoCodes] {s t u : QueueState} {p : NumberedEntry}

/-- The rows a healing update leaves have the ids of rows that were there. -/
theorem exists_of_mem_failAll {m : MessageTable} {now : ℕ} {r : IMMessage}
    (h : r ∈ (m.failAll now ids).rows.items) :
    ∃ r₀ ∈ m.rows.items, r.serverId = r₀.serverId ∧ r.clientMsgId = r₀.clientMsgId := by
  rcases mem_failAll h with ⟨hr, -⟩ | ⟨r₀, hr₀, -, rfl⟩
  · exact ⟨r, hr, rfl, rfl⟩
  · exact ⟨r₀, hr₀, rfl, rfl⟩

/-- A resume on a new connection gets to the dispatch loop in such a state. -/
theorem resumeQueue_released (hblank : isBlank s.currentUserId = false) (hfaults : s.faults = [])
    (hsome : s.pending.list ≠ []) (hids : IdsApart s) :
    ∃ u, Released s u ∧ ((resumeQueue true).run s).2 = (trySendNext.run u).2 := by
  -- the state with everything released, the entries of another account healed, and the loop over
  -- them still to come
  let s₀ : QueueState := { thaw true s with stallProbeGate := .onNewConnection s.nowMs }
  let s₁ : QueueState := { notePersistedEnqueueTimes s.pending.list s₀ with
    messages := s.messages.failAll s.nowMs (crossAccountIds s)
    pending := s.pending.deleteAll (crossAccountIds s)
    history := (crossAccountIds s).map Action.popped ++ s.history }
  have hfaults₁ : s₁.faults = [] := hfaults
  obtain ⟨_, t, hrun, ht⟩ := dropCrossAccountIds_dropped (crossAccountIds s) s₁ hfaults₁
  have hfaults₂ : t.faults = [] := ht.same.faults.trans hfaults₁
  let orphans := t.messages.orphanSendingIds s.currentUserId (pendingIds t)
  let u : QueueState := { t with
    messages := t.messages.failAll t.nowMs orphans
    bus := orphans.reverse.map (.sendFailed · reasonOrphanRecovered) ++ t.bus
    inFlight := t.inFlight.filter (fun x => !x.sendFailed) }
  have hpend : ∀ k, t.pending.byId.find? k = if k ∈ crossAccountIds s then none else s.pending.byId.find? k :=
    fun k => by
      rw [ht.pending, show s₁.pending = s.pending.deleteAll (crossAccountIds s) from rfl,
        PendingEntries.find?_deleteAll]
      split <;> rfl
  have horphan : ∀ k ∉ crossAccountIds s, s.pending.byId.find? k ≠ none → k ∉ orphans :=
    fun k hk hp ho => hp (by simpa [hpend, hk] using not_pending_of_orphan ho)
  have hsame : ∀ k ∉ crossAccountIds s, s.pending.byId.find? k ≠ none →
      u.messages.copies k = s.messages.copies k := fun k hk hp => by
    rw [show u.messages = t.messages.failAll t.nowMs orphans from rfl,
      copies_failAll_of_not_mem _ _ (horphan k hk hp), ht.messages]
    exact copies_failAll_of_not_mem _ _ hk
  have hempty : u.inFlight = empty := by
    rw [show u.inFlight = t.inFlight.filter (fun x => !x.sendFailed) from rfl, ht.inFlight]
    rfl
  refine ⟨u, ⟨hfaults₂, ht.same.user, ht.same.config, ?_, ht.window, ht.jobs, hempty, hpend,
    fun k => ?_, fun k hk => ?_, fun k hk => ?_, hsame, fun k hk hp => ?_, ?_⟩, ?_⟩
  · exact congrArg Option.isSome ht.same.paused
  · rw [show u.awaitingDurable = t.awaitingDurable from rfl, ht.awaiting]
    exact thaw_awaiting_none true s k
  · have hback := ht.backoff k
    rw [if_neg hk] at hback
    rw [← lookup_eq_none_iff _ Prod.snd, ← lookup_eq_none_iff _ Prod.snd]
    exact Eq.congr_left hback
  · rw [show u.retryCount = t.retryCount from rfl, ht.retries, if_neg hk]
    rfl
  · rw [show u.bus = orphans.reverse.map (.sendFailed · reasonOrphanRecovered) ++ t.bus from rfl,
      ht.bus, failuresTold_append, failuresTold_append, failuresTold_eq_zero (horphan k hk hp),
      failuresTold_eq_zero hk, Nat.zero_add, Nat.zero_add]
    rfl
  · refine hids.mono (fun k p hp => ?_) fun r hr => ?_
    · have hp : t.pending.byId.find? k = some p := hp
      rw [hpend] at hp
      split at hp
      · cases hp
      · exact hp
    · obtain ⟨r₁, hr₁, hserver₁, hclient₁⟩ := exists_of_mem_failAll hr
      rw [ht.messages] at hr₁
      obtain ⟨r₀, hr₀, hserver, hclient⟩ := exists_of_mem_failAll hr₁
      exact ⟨r₀, hr₀, hserver₁.trans hserver, hclient₁.trans hclient⟩
  · have hheal : (healCrossAccountPendingMessages s.currentUserId (pendingIds s)).run
          (notePersistedEnqueueTimes s.pending.list s₀) = (.ok (crossAccountIds s), s₁) := by
      rw [healCrossAccountPendingMessages, if_neg (by simpa [pendingIds] using hsome)]
      exact storeCall_run (s := notePersistedEnqueueTimes s.pending.list s₀) hfaults _
    have hlist : pendingList.run s₀ = (.ok s.pending.list, s₀) := pendingList_run hfaults
    refine bind_state (modify_run _ _) (bind_state (modify_run _ _) (bind_state (get_run s₀) ?_))
    rw [if_neg (by rw [show s₀.currentUserId = s.currentUserId from rfl, hblank]; simp)]
    refine bind_state hlist (bind_state (modify_run _ _) (bind_state hheal
      (bind_state hrun (bind_state (pendingList_run hfaults₂) ?_))))
    refine bind_state (storeCall_run hfaults₂ _) (bind_state (publishOrphans_run orphans _)
      (bind_state (modify_run _ _) ?_))
    exact bind_pure_state trySendNext _ u

namespace Released

variable (h : Released s u)

include h

omit codes in
theorem mem_freeEntries (q : NumberedEntry) : q ∈ freeEntries u ↔
    q ∈ s.pending.byId.items ∧ comesFree s q = true := by
  rw [Outbox.mem_freeEntries, h.pending, h.inFlight, h.awaiting, comesFree, decide_eq_true_eq]
  by_cases hq : q.clientMsgId ∈ crossAccountIds s
  · simp [hq]
  · rw [if_neg hq, h.backoff _ hq, find?_eq_some_iff]
    constructor
    · rintro ⟨⟨hmem, -⟩, -, hrest⟩
      exact ⟨hmem, hq, hrest⟩
    · rintro ⟨hmem, -, hrest⟩
      exact ⟨⟨hmem, rfl⟩, rfl, hrest⟩

theorem decision_eq {q : NumberedEntry} (hmem : q ∈ s.pending.byId.items)
    (hfree : comesFree s q = true) : dispatchDecision u q = dispatchDecision s q := by
  rw [comesFree, decide_eq_true_eq] at hfree
  have hpend : s.pending.byId.find? q.clientMsgId ≠ none := by
    rw [(s.pending.byId.find?_eq_some_iff _ q).mpr ⟨hmem, rfl⟩]
    simp
  have hrow : u.messages.getByClientMsgId q.2.clientMsgId = s.messages.getByClientMsgId q.2.clientMsgId :=
    congrArg (fun l : List IMMessage => (l.insertionSort preferred).head?) (h.rows _ hfree.1 hpend)
  rw [dispatchDecision, dispatchDecision, h.user, h.config, hrow]
  rw [show u.retryCount q.2.clientMsgId = s.retryCount q.2.clientMsgId from h.retries _ hfree.1]

/-- The entries ahead of one are those the old state shows. -/
theorem countP_ahead (p : NumberedEntry) :
    (freeEntries u).countP (fun q => q.before p && sendsNow u q) = sendableAhead s p := by
  have hperm : (freeEntries u).Perm (s.pending.byId.items.filter (comesFree s)) := by
    refine (perm_ext_iff_of_nodup ?_ ?_).mpr fun q => ?_
    · exact (u.pending.nodup_candidates_ids _).of_map _
    · exact (s.pending.byId.nodup.of_map _).filter _
    · rw [h.mem_freeEntries, mem_filter]
  rw [hperm.countP_eq, countP_filter]
  refine countP_congr fun q hq => ?_
  by_cases hfree : comesFree s q = true
  · simp [sendsNow, h.decision_eq hq hfree, hfree]
  · simp [hfree]

omit codes in
theorem windowRoom_eq : windowRoom u = s.adaptiveWindow.current := by
  rw [windowRoom, h.window, h.inFlight]
  rfl

omit codes in
theorem writerCapacity_eq : u.writerCapacity = s.writerCapacity := by
  rw [QueueState.writerCapacity, h.config, h.jobs, QueueState.writerCapacity]

end Released

/-- The loop fails an entry of the connected user when its budget is spent and its row is not
final. -/
theorem failsEntry_own_iff (huser : isBlank s.currentUserId = false)
    (hsender : p.2.message.senderId = s.currentUserId) :
    failsEntry s p = true ↔ s.config.maxRetries ≤ s.retryCount p.clientMsgId ∧
      (s.messages.getByClientMsgId p.clientMsgId).any isFinalRow = false := by
  have howner : isCrossAccount s.currentUserId p.2.message.senderId = false :=
    (isCrossAccount_eq_false_iff _ _).mpr (.inr ⟨hsender ▸ huser, hsender⟩)
  have hfinal : ((s.messages.getByClientMsgId p.2.clientMsgId).map IMMessage.snapshot).any
      (fun l => l.isFinalSuccess p.2.clientMsgId || l.status == codes.statusFailed) =
        (s.messages.getByClientMsgId p.2.clientMsgId).any isFinalRow := by
    cases hr : s.messages.getByClientMsgId p.2.clientMsgId with
    | none => rfl
    | some r =>
      have hid := ((s.messages.mem_copies _ r).mp (mem_of_getByClientMsgId hr)).2
      rw [← hid]
      rfl
  unfold failsEntry dispatchDecision decidePendingDispatch
  rw [howner, hfinal, NumberedEntry.clientMsgId]
  cases (s.messages.getByClientMsgId p.2.clientMsgId).any isFinalRow with
  | true => simp
  | false =>
    by_cases hspent : s.config.maxRetries ≤ s.retryCount p.2.clientMsgId <;> simp [hspent]

namespace OwnInFlight

omit codes in
theorem not_foreign (h : OwnInFlight s p) : p.clientMsgId ∉ crossAccountIds s := by
  intro hk
  unfold crossAccountIds MessageTable.crossAccountIds at hk
  split at hk
  · cases hk
  obtain ⟨r, hr, hid⟩ := mem_map.mp hk
  simp only [mem_filter, Bool.and_eq_true, Bool.or_eq_true, decide_eq_true_eq] at hr
  have hsender := h.rows r ((s.messages.mem_copies _ r).mpr ⟨hr.1, hid⟩)
  rcases hr.2.2 with hempty | hother
  · have huser := h.user
    rw [← hsender, hempty] at huser
    exact absurd huser (by decide)
  · exact hother hsender

/-- The message is not failed unless the loop comes to it and fails it. -/
theorem notFailed_iff (h : OwnInFlight s p) (hu : Released s u) {all todo : List NumberedEntry}
    (hall : ∀ q ∈ all, q ∈ freeEntries u) (ht : Serving u all all todo t) :
    NotFailed p.clientMsgId s t ↔ ¬ (p ∈ all ∧ failsEntry u p = true) := by
  have hpend : s.pending.byId.find? p.clientMsgId ≠ none := by
    rw [h.pending]
    simp
  have hcount : all.countP (fun q => q.clientMsgId = p.clientMsgId && failsEntry u q) = 0 ↔
      ¬ (p ∈ all ∧ failsEntry u p = true) := by
    rw [countP_eq_zero]
    constructor
    · exact fun hnone ⟨hp, hfails⟩ => hnone p hp (by simp [hfails])
    · intro hnot q hq hfails
      rw [Bool.and_eq_true, decide_eq_true_eq] at hfails
      have hfind := ((Outbox.mem_freeEntries u q).mp (hall q hq)).1
      rw [hu.pending, hfails.1, if_neg h.not_foreign, h.pending] at hfind
      cases hfind
      exact hnot ⟨hq, hfails.2⟩
  rw [← hcount, NotFailed, ht.told, hu.told _ h.not_foreign hpend, Nat.add_eq_left]
  refine and_iff_left_of_imp fun hnone => ?_
  exact (ht.kept _ hnone).trans (hu.rows _ h.not_foreign hpend)

end OwnInFlight

/-- A resume on a new connection fails a message in flight of the connected user exactly when the
dispatch loop comes to it with its budget spent. -/
theorem notFailed_resumeQueue_iff (hfaults : s.faults = []) (hids : IdsApart s) (hown : OwnInFlight s p) :
    NotFailed p.clientMsgId s ((resumeQueue true).run s).2 ↔ SurvivesResume s p := by
  have hmem : p ∈ s.pending.byId.items := ((find?_eq_some_iff _ _ _).mp hown.pending).1
  have hsome : s.pending.list ≠ [] :=
    ne_nil_of_mem ((s.pending.mem_list p.2).mpr ⟨p.1, hown.pending⟩)
  obtain ⟨u, hu, hrun⟩ := resumeQueue_released hown.user hfaults hsome hids
  obtain ⟨todo, ht⟩ := trySendNext_serves hu.noFaults hu.ids hu.unpaused
  rw [hrun, hown.notFailed_iff hu (fun q hq => mem_of_mem_served hq) ht, SurvivesResume]
  by_cases hfree : comesFree s p = true
  swap
  · have hnot : p ∉ freeEntries u := fun hp => hfree ((hu.mem_freeEntries p).mp hp).2
    have hskip : ¬ (p ∈ served (sendsNow u) (windowRoom u) u.writerCapacity (freeEntries u) ∧
        failsEntry u p = true) := fun hp => hnot (mem_of_mem_served hp.1)
    simp [hfree, hskip]
  have hfails : failsEntry u p = failsEntry s p := by
    unfold failsEntry
    rw [hu.decision_eq hmem hfree]
  rw [hfails]
  by_cases hspent : failsEntry s p = true
  · have hsends : sendsNow u p = false := by
      unfold failsEntry at hspent
      unfold sendsNow
      rw [hu.decision_eq hmem hfree]
      split at hspent <;> simp_all
    have hline : (freeEntries u).Pairwise NumberedEntry.before := u.pending.pairwise_before_candidates _
    rw [mem_served_iff_of_pairwise hline hsends ((hu.mem_freeEntries p).mpr ⟨hmem, hfree⟩),
      hu.countP_ahead, hu.windowRoom_eq, hu.writerCapacity_eq]
    obtain ⟨hbudget, hrow⟩ := (failsEntry_own_iff hown.user hown.sender).mp hspent
    simp only [hspent, hrow, hfree, Bool.false_eq_true, Bool.true_eq_false, false_or, and_true]
    omega
  · have hsaved := mt (failsEntry_own_iff hown.user hown.sender).mpr hspent
    rw [Decidable.not_and_iff_or_not, not_le, Bool.not_eq_false] at hsaved
    refine iff_of_true (fun hp => hspent hp.2) ?_
    rw [← or_assoc]
    exact .inl hsaved

omit codes in
theorem pauseQueue_eq (s : QueueState) :
    pauseQueue s = { s with pausedSinceMs := some (s.pausedSinceMs.getD s.nowMs) } := by
  unfold pauseQueue
  split
  · rename_i hnone
    rw [Option.isNone_iff_eq_none.mp hnone]
    rfl
  · rename_i hsome
    obtain ⟨since, hsince⟩ := Option.ne_none_iff_exists'.mp (mt Option.isNone_iff_eq_none.mpr hsome)
    rw [hsince, Option.getD_some, ← hsince]

/-- The queue is paused, time passes, and it resumes on a new connection. -/
def outage (now : UInt64) : List Event := [.recv, .setClock now, .recv]

end Released

/-- The timers of a message ran out at the given times; now a pause and a resume are to come. -/
def expiredState (times : List UInt64) : QueueState :=
  run (@step sampleCodes alone) (spawn sampleSurroundings)
    (expiringRun times ++ [.send .pause, .send (.resume true)])

end FlareIm.Outbox
