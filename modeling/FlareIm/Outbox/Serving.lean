import FlareIm.Lib.Serve
import FlareIm.Outbox.Dispatch

/-! What the dispatch loop does, when no store call fails: it goes over the free entries from
the oldest on, drops or fails those that must not be sent, and hands over the others until the
window or the writer is full. The entries it comes to are those that `served` names for the room
in the window and the writer's capacity, all judged as they stood when the loop began. -/

namespace FlareIm.Outbox

open Lib Message Store List MessageTable Prog PendingEntries

/-- Ids without surrounding blanks, and no row of one message under the id of another that is
pending. -/
structure IdsApart (s : QueueState) : Prop where
  plain : ∀ k p, s.pending.byId.find? k = some p → trim k = k
  fresh : ∀ r ∈ s.messages.rows.items, s.pending.byId.find? r.serverId ≠ none → r.clientMsgId = r.serverId

theorem idsApart_iff (s : QueueState) : IdsApart s ↔
    (∀ p ∈ s.pending.byId.items, trim p.clientMsgId = p.clientMsgId) ∧
      ∀ r ∈ s.messages.rows.items, s.pending.byId.find? r.serverId ≠ none → r.clientMsgId = r.serverId := by
  constructor
  · exact fun h => ⟨fun p hp => h.plain _ p ((KeyedMap.find?_eq_some_iff _ _ _).mpr ⟨hp, rfl⟩), h.fresh⟩
  · refine fun h => ⟨fun k p hp => ?_, h.2⟩
    obtain ⟨hmem, rfl⟩ := (KeyedMap.find?_eq_some_iff _ _ _).mp hp
    exact h.1 p hmem

instance (s : QueueState) : Decidable (IdsApart s) := decidable_of_iff' _ (idsApart_iff s)

section Decisions

variable [codes : ProtoCodes] (s : QueueState) (p : NumberedEntry)

/-- How the dispatch loop judges an entry. -/
def dispatchDecision : PendingDispatchDecision :=
  decidePendingDispatch s.currentUserId p.2.clientMsgId p.2.message.senderId
    ((s.messages.getByClientMsgId p.2.clientMsgId).map IMMessage.snapshot)
    (s.retryCount p.2.clientMsgId) s.config.maxRetries

def sendsNow : Bool := dispatchDecision s p = .sendNow

/-- The loop fails the entry and reports it. -/
def failsEntry : Bool :=
  match dispatchDecision s p with
  | .dropAsCrossAccount _ | .failMaxRetries _ => true
  | .dropAsTerminal | .sendNow => false

end Decisions

/-- The entries the dispatch loop may pick, oldest first. -/
def freeEntries (s : QueueState) : List NumberedEntry := s.pending.candidates (excludedIds s)

def windowRoom (s : QueueState) : ℕ := s.adaptiveWindow.current - s.inFlight.size

def SdkEvent.isFailureOf (k : String) : SdkEvent → Bool
  | .sendFailed id _ => id = k
  | _ => false

/-- How often the application was told that the message failed. -/
def failuresTold (k : String) (bus : List SdkEvent) : ℕ := bus.countP (SdkEvent.isFailureOf k)

theorem mem_freeEntries (s : QueueState) (p : NumberedEntry) :
    p ∈ freeEntries s ↔ s.pending.byId.find? p.clientMsgId = some p ∧
      s.inFlight.find? p.clientMsgId = none ∧ s.awaitingDurable.find? p.clientMsgId = none ∧
      s.retryBackoff.find? p.clientMsgId = none := by
  rw [freeEntries, mem_candidates, not_mem_excludedIds]
  simp only [QueueState.view, KeyedMap.lookup_eq_none_iff]

section Serving

variable [codes : ProtoCodes] {u s t : QueueState} {all done todo : List NumberedEntry} {p : NumberedEntry}

/-- The loop that began in `u` has gone over `done`; `todo` is still free, and `all` is what it
will have gone over in the end. -/
structure Serving (u : QueueState) (all done todo : List NumberedEntry) (t : QueueState) : Prop where
  noFaults : t.faults = []
  ids : IdsApart t
  user : t.currentUserId = u.currentUserId
  config : t.config = u.config
  free : ∀ p, p ∈ freeEntries t ↔ p ∈ todo
  sorted : todo.Pairwise NumberedEntry.before
  rows : ∀ p ∈ todo, t.messages.getByClientMsgId p.2.clientMsgId = u.messages.getByClientMsgId p.2.clientMsgId
  retries : ∀ p ∈ todo, t.retryCount p.2.clientMsgId = u.retryCount p.2.clientMsgId
  plan : done ++ served (sendsNow u) (windowRoom t) t.writerCapacity todo = all
  told : ∀ k, failuresTold k t.bus = failuresTold k u.bus +
    done.countP (fun p => p.clientMsgId = k && failsEntry u p)
  kept : ∀ k, done.countP (fun p => p.clientMsgId = k && failsEntry u p) = 0 →
    t.messages.copies k = u.messages.copies k

theorem Serving.start (hfaults : u.faults = []) (hids : IdsApart u) :
    Serving u (served (sendsNow u) (windowRoom u) u.writerCapacity (freeEntries u)) [] (freeEntries u) u where
  noFaults := hfaults
  ids := hids
  user := rfl
  config := rfl
  free _ := Iff.rfl
  sorted := u.pending.pairwise_before_candidates _
  rows _ _ := rfl
  retries _ _ := rfl
  plan := nil_append _
  told _ := rfl
  kept _ _ := rfl

namespace Serving

theorem freeEntries_eq (h : Serving u all done todo t) : freeEntries t = todo :=
  (t.pending.pairwise_before_candidates _).eq_of_mem_iff h.sorted h.free

theorem ne_of_mem_tail (h : Serving u all done (p :: todo) t) {q : NumberedEntry} (hq : q ∈ todo) :
    q.clientMsgId ≠ p.clientMsgId := by
  intro heq
  have hqfree := ((mem_freeEntries t q).mp ((h.free q).mpr (mem_cons_of_mem p hq))).1
  have hpfree := ((mem_freeEntries t p).mp ((h.free p).mpr mem_cons_self)).1
  rw [heq, hpfree] at hqfree
  cases hqfree
  exact irrefl_of NumberedEntry.before p ((pairwise_cons.mp h.sorted).1 p hq)

/-- One entry is done: it is free no longer, and the others are as before. -/
theorem advance (h : Serving u all done (p :: todo) t) (hfaults : s.faults = [])
    (hids : IdsApart s) (huser : s.currentUserId = t.currentUserId) (hconfig : s.config = t.config)
    (hfree : ∀ q, q ∈ freeEntries s ↔ q ∈ freeEntries t ∧ q.clientMsgId ≠ p.clientMsgId)
    (hcopies : ∀ k, (p.clientMsgId = k && failsEntry u p) = false → s.messages.copies k = t.messages.copies k)
    (hretries : ∀ k, k ≠ p.clientMsgId → s.retryCount k = t.retryCount k)
    (hplan : served (sendsNow u) (windowRoom t) t.writerCapacity (p :: todo) =
      p :: served (sendsNow u) (windowRoom s) s.writerCapacity todo)
    (htold : ∀ k, failuresTold k s.bus =
      failuresTold k t.bus + if p.clientMsgId = k && failsEntry u p then 1 else 0) :
    Serving u all (done ++ [p]) todo s where
  noFaults := hfaults
  ids := hids
  user := huser.trans h.user
  config := hconfig.trans h.config
  free q := by
    rw [hfree, h.free, mem_cons]
    constructor
    · rintro ⟨rfl | hq, hne⟩
      · exact absurd rfl hne
      · exact hq
    · exact fun hq => ⟨.inr hq, h.ne_of_mem_tail hq⟩
  sorted := (pairwise_cons.mp h.sorted).2
  rows q hq := by
    have hsame := hcopies q.clientMsgId (by simp [(h.ne_of_mem_tail hq).symm])
    refine Eq.trans ?_ (h.rows q (mem_cons_of_mem p hq))
    exact congrArg (fun l : List IMMessage => (l.insertionSort preferred).head?) hsame
  retries q hq := (hretries _ (h.ne_of_mem_tail hq)).trans (h.retries q (mem_cons_of_mem p hq))
  plan := by
    rw [← h.plan, hplan, append_assoc]
    rfl
  told k := by
    rw [htold, h.told, countP_append, countP_singleton, Nat.add_assoc]
  kept k hk := by
    rw [countP_append, countP_singleton, Nat.add_eq_zero_iff] at hk
    exact (hcopies k (by simpa using hk.2)).trans (h.kept k hk.1)

omit codes in
theorem mem_freeEntries_of_pop (hpend : s.pending = t.pending.pop p.clientMsgId)
    (hfly : s.inFlight = t.inFlight) (hawait : s.awaitingDurable = t.awaitingDurable)
    (hback : s.retryBackoff = t.retryBackoff) (q : NumberedEntry) :
    q ∈ freeEntries s ↔ q ∈ freeEntries t ∧ q.clientMsgId ≠ p.clientMsgId := by
  rw [mem_freeEntries, mem_freeEntries, hpend, hfly, hawait, hback, find?_pop]
  by_cases hq : q.clientMsgId = p.clientMsgId <;> simp [hq]

omit codes in
theorem idsApart_of_pop {id : String} (h : IdsApart t) (hpend : s.pending = t.pending.pop id)
    (hrows : ∀ r ∈ s.messages.rows.items, r ∈ t.messages.rows.items ∨ r.clientMsgId = r.serverId) :
    IdsApart s := by
  have hsub : ∀ k p, s.pending.byId.find? k = some p → t.pending.byId.find? k = some p :=
    fun k p hp => by
      rw [hpend, find?_pop] at hp
      split at hp
      · cases hp
      · exact hp
  refine ⟨fun k p hp => h.plain k p (hsub k p hp), fun r hr hp => ?_⟩
  rcases hrows r hr with hold | hown
  · obtain ⟨q, hq⟩ := Option.ne_none_iff_exists'.mp hp
    exact h.fresh r hold (by rw [hsub _ q hq]; simp)
  · exact hown

section

variable (h : Serving u all done (p :: todo) t)

include h

theorem head_free : p ∈ freeEntries t :=
  (h.free p).mpr mem_cons_self

theorem fail (hroom : windowRoom t ≠ 0) (hfails : failsEntry u p = true) (reason : String) :
    Serving u all (done ++ [p]) todo (failedState p.2 reason t) := by
  have hpend := ((mem_freeEntries t p).mp h.head_free).1
  have hsends : sendsNow u p = false := by
    unfold failsEntry at hfails
    unfold sendsNow
    split at hfails <;> simp_all
  obtain ⟨room, hroom⟩ := Nat.exists_eq_succ_of_ne_zero hroom
  refine h.advance h.noFaults (idsApart_of_pop h.ids rfl fun r hr => ?_) rfl rfl
    (mem_freeEntries_of_pop rfl rfl rfl rfl) (fun k hk => ?_)
    (fun k hk => Function.update_of_ne hk _ _) ?_ fun k => ?_
  · rcases mem_saveBatch_singleton hr with hold | rfl
    · exact .inl hold
    · exact .inr rfl
  · refine copies_saveBatch_of_ne ?_ ?_ fun r hr hserver => ?_
    · rw [hfails, Bool.and_true, decide_eq_false_iff_not] at hk
      rw [markFailed_clientMsgId, p.2.message_clientMsgId]
      exact Ne.symm hk
    · rw [markFailed_clientMsgId, p.2.message_clientMsgId]
      exact h.ids.plain _ p hpend
    · have hkey : r.serverId = p.clientMsgId := hserver.trans p.2.message_clientMsgId
      have hown := h.ids.fresh r hr (by rw [hkey, hpend]; simp)
      exact hown.trans hserver
  · change served _ (windowRoom t) t.writerCapacity _ = p :: served _ (windowRoom t) t.writerCapacity _
    rw [hroom]
    exact served_cons_of_not_takes hsends
  · rw [hfails, Bool.and_true]
    exact countP_cons

theorem dropTerminal (hroom : windowRoom t ≠ 0) (hdecide : dispatchDecision u p = .dropAsTerminal) :
    Serving u all (done ++ [p]) todo { t with
      pending := t.pending.pop p.2.clientMsgId
      history := .popped p.2.clientMsgId :: t.history
      retryCount := Function.update t.retryCount p.2.clientMsgId 0 } := by
  obtain ⟨room, hroom⟩ := Nat.exists_eq_succ_of_ne_zero hroom
  refine h.advance h.noFaults (idsApart_of_pop h.ids rfl fun r hr => .inl hr) rfl rfl
    (mem_freeEntries_of_pop rfl rfl rfl rfl) (fun _ _ => rfl)
    (fun k hk => Function.update_of_ne hk _ _) ?_ fun k => ?_
  · change served _ (windowRoom t) t.writerCapacity _ = p :: served _ (windowRoom t) t.writerCapacity _
    rw [hroom]
    exact served_cons_of_not_takes (by simp [sendsNow, hdecide])
  · simp [failsEntry, hdecide]

end

omit codes in
theorem dispatchSendAttempt_run_of_room (e : PendingSendVo) (retries : ℕ) (hcap : t.writerCapacity ≠ 0) :
    (dispatchSendAttempt e retries).run t = (.ok (), { t with
      inFlight := t.inFlight.insert ⟨e, t.deadlineAfter, t.nowMs, false⟩
      writerJobs := t.writerJobs ++ [⟨e, retries, t.dispatchGeneration, t.resumes⟩]
      history := .handed ⟨e, retries, t.dispatchGeneration, t.resumes⟩ t.currentUserId :: t.history }) := by
  rw [dispatchSendAttempt, modify_run, if_neg hcap]

theorem send (h : Serving u all done (p :: todo) t) (hroom : windowRoom t ≠ 0)
    (hcap : t.writerCapacity ≠ 0) (hdecide : dispatchDecision u p = .sendNow) (retries : ℕ) :
    Serving u all (done ++ [p]) todo ((dispatchSendAttempt p.2 retries).run t).2 := by
  obtain ⟨hpend, hfly, -⟩ := (mem_freeEntries t p).mp h.head_free
  rw [dispatchSendAttempt_run_of_room p.2 retries hcap]
  have hsize : (t.inFlight.insert ⟨p.2, t.deadlineAfter, t.nowMs, false⟩).size = t.inFlight.size + 1 :=
    t.inFlight.size_insert_of_find?_none hfly
  refine h.advance h.noFaults ⟨h.ids.plain, h.ids.fresh⟩ rfl rfl (fun q => ?_) (fun _ _ => rfl)
    (fun _ _ => rfl) ?_ fun k => ?_
  · have hfind : ∀ k, (t.inFlight.insert ⟨p.2, t.deadlineAfter, t.nowMs, false⟩).find? k =
        if k = p.clientMsgId then some ⟨p.2, t.deadlineAfter, t.nowMs, false⟩
        else t.inFlight.find? k := t.inFlight.find?_insert _
    rw [mem_freeEntries, mem_freeEntries, hfind]
    by_cases hq : q.clientMsgId = p.clientMsgId <;> simp [hq]
  · obtain ⟨room, hroom⟩ := Nat.exists_eq_succ_of_ne_zero hroom
    obtain ⟨stock, hstock⟩ := Nat.exists_eq_succ_of_ne_zero hcap
    rw [hroom, hstock, served_cons_of_takes (by simp [sendsNow, hdecide])]
    unfold windowRoom at hroom ⊢
    unfold QueueState.writerCapacity at hstock ⊢
    dsimp only
    rw [hsize, length_append, length_singleton]
    congr 2 <;> omega
  · simp [failsEntry, hdecide]

theorem noteWriterFull (h : Serving u all done todo t) : Serving u all done todo (noteWriterFull t) := by
  unfold Outbox.noteWriterFull
  split
  · exact ⟨h.noFaults, ⟨h.ids.plain, h.ids.fresh⟩, h.user, h.config, h.free, h.sorted, h.rows,
      h.retries, h.plan, h.told, h.kept⟩
  · exact h

/-- The writer is full: everything that could be done is done. -/
theorem finished (h : Serving u all done todo t)
    (hstop : served (sendsNow u) (windowRoom t) t.writerCapacity todo = []) :
    Serving u all all todo t := by
  have hplan := h.plan
  rw [hstop, append_nil] at hplan
  exact hplan ▸ h

end Serving

/-- A round goes over all entries it picked, or stops because the writer is full. -/
theorem dispatchEntries_serves {rows : List IMMessage} {rest : List NumberedEntry} :
    ∀ (ps done : List NumberedEntry) (progress : Bool) (t : QueueState),
      Serving u all done (ps ++ rest) t → ps.length ≤ windowRoom t →
      (∀ p ∈ ps, snapshotOf rows p.2.clientMsgId =
        (u.messages.getByClientMsgId p.2.clientMsgId).map IMMessage.snapshot) →
      Ensures (dispatchEntries u.currentUserId rows (ps.map Prod.snd) progress) t (fun r t' =>
        (r = some (progress || !ps.isEmpty) ∧ Serving u all (done ++ ps) rest t') ∨
          (r = none ∧ ∃ todo, Serving u all all todo t')) := by
  intro ps
  induction ps with
  | nil =>
    intro done progress t h _ _
    exact .intro rfl (.inl ⟨by simp, by simpa using h⟩)
  | cons p ps ih =>
    intro done progress t h hroom hrows
    have hpositive : windowRoom t ≠ 0 := by
      rw [length_cons] at hroom
      omega
    -- the head is done, and the rest of the round goes on in `s`
    have next : ∀ s, Serving u all (done ++ [p]) (ps ++ rest) s → windowRoom t ≤ windowRoom s + 1 →
        Ensures (dispatchEntries u.currentUserId rows (ps.map Prod.snd) true) s (fun r t' =>
          (r = some (progress || !(p :: ps).isEmpty) ∧ Serving u all (done ++ p :: ps) rest t') ∨
            (r = none ∧ ∃ todo, Serving u all all todo t')) := fun s hs hless => by
      refine (ih _ true s hs ?_ fun q hq => hrows q (mem_cons_of_mem p hq)).mono fun r t' ht' => ?_
      · rw [length_cons] at hroom
        omega
      · simpa using ht'
    have hdecide : decidePendingDispatch u.currentUserId p.2.clientMsgId p.2.message.senderId
        (snapshotOf rows p.2.clientMsgId) (t.retryCount p.2.clientMsgId) t.config.maxRetries =
          dispatchDecision u p := by
      rw [hrows p mem_cons_self, h.retries p mem_cons_self, h.config]
      rfl
    rw [map_cons, dispatchEntries]
    refine .bind_of_run (get_run t) ?_
    rw [if_neg (by unfold windowRoom at hpositive; omega)]
    dsimp only
    rw [hdecide]
    split
    · rename_i reason hd
      exact .bind_of_run (failEntry_run h.noFaults _ _)
        (next _ (h.fail hpositive (by simp [failsEntry, hd]) reason) (Nat.le_succ _))
    · rename_i hd
      refine .bind_of_run (attempt_run _ _) ?_
      rw [pendingPop_run h.noFaults]
      exact .bind_of_run (modify_run _ _) (next _ (h.dropTerminal hpositive hd) (Nat.le_succ _))
    · rename_i reason hd
      exact .bind_of_run (failEntry_run h.noFaults _ _)
        (next _ (h.fail hpositive (by simp [failsEntry, hd]) reason) (Nat.le_succ _))
    · rename_i hd
      split
      · rename_i hfull
        refine .bind_of_run (modify_run _ _) (.intro rfl (.inr ⟨rfl, p :: ps ++ rest, ?_⟩))
        refine (h.finished ?_).noteWriterFull
        obtain ⟨room, hroom⟩ := Nat.exists_eq_succ_of_ne_zero hpositive
        rw [hroom, hfull]
        exact served_cons_of_no_stock (by simp [sendsNow, hd])
      · rename_i hcap
        have hsend := h.send hpositive hcap hd (t.retryCount p.2.clientMsgId)
        rw [Serving.dispatchSendAttempt_run_of_room _ _ hcap] at hsend
        refine .bind_of_run (Serving.dispatchSendAttempt_run_of_room _ _ hcap) (next _ hsend ?_)
        have hsize : (t.inFlight.insert ⟨p.2, t.deadlineAfter, t.nowMs, false⟩).size = t.inFlight.size + 1 :=
          t.inFlight.size_insert_of_find?_none ((mem_freeEntries t p).mp h.head_free).2.1
        unfold windowRoom
        dsimp only
        omega

/-- The loop, with a round left for every free entry, does all that is to be done. -/
theorem trySendLoop_serves : ∀ (fuel : ℕ) (done todo : List NumberedEntry) (t : QueueState),
    Serving u all done todo t → todo.length < fuel →
    Ensures (trySendLoop fuel) t (fun _ t' => ∃ todo, Serving u all all todo t') := by
  intro fuel
  induction fuel with
  | zero => intro done todo t _ hlen; omega
  | succ fuel ih =>
    intro done todo t h hlen
    rw [trySendLoop]
    refine .bind_of_run (get_run t) ?_
    dsimp only
    split
    · rename_i hroom
      refine .intro rfl ⟨todo, h.finished ?_⟩
      rw [windowRoom, hroom, served_no_room]
    rename_i hroom
    refine .bind_of_run (pendingListOldestExcluding_run h.noFaults _ _) ?_
    have hfree : t.pending.candidates (excludedIds t) = todo := h.freeEntries_eq
    rw [listOldestExcluding, hfree]
    split
    · rename_i hnone
      have htodo : todo = [] := by
        rcases todo with _ | ⟨p, todo⟩
        · rfl
        · obtain ⟨room, hroom⟩ := Nat.exists_eq_succ_of_ne_zero hroom
          rw [hroom] at hnone
          exact absurd hnone (by simp)
      exact .intro rfl ⟨todo, h.finished (by rw [htodo, served_nil])⟩
    rename_i hsome
    have hsplit := take_append_drop (t.adaptiveWindow.current - t.inFlight.size) todo
    refine .bind_of_run (get_run t) (.bind_of_run (loadLocalRows_run h.noFaults _) ?_)
    rw [h.user]
    have hround : Serving u all done (todo.take (t.adaptiveWindow.current - t.inFlight.size) ++
        todo.drop (t.adaptiveWindow.current - t.inFlight.size)) t := by
      rw [hsplit]
      exact h
    refine (dispatchEntries_serves _ done false t hround (length_take_le _ _)
      fun p hp => ?_).bind fun r t' ht' => ?_
    · rw [snapshotOf_getByClientMsgIds, h.rows p (mem_of_mem_take hp)]
      rw [map_map]
      exact mem_map_of_mem hp
    · rcases ht' with ⟨rfl, ht'⟩ | ⟨rfl, ht'⟩
      · rw [isEmpty_map] at hsome
        rw [Bool.false_or, Bool.eq_false_iff.mpr hsome]
        refine ih _ _ t' ht' ?_
        have hpicked := length_pos_iff.mpr fun hnil => hsome (isEmpty_iff.mpr hnil)
        have htotal := congrArg length hsplit
        rw [length_append] at htotal
        omega
      · exact .intro rfl ht'

/-- Between resumes the dispatch loop does all that room and capacity allow. -/
theorem trySendNext_serves (hfaults : u.faults = []) (hids : IdsApart u) (hpause : u.isPaused = false) :
    ∃ todo, Serving u (served (sendsNow u) (windowRoom u) u.writerCapacity (freeEntries u))
      (served (sendsNow u) (windowRoom u) u.writerCapacity (freeEntries u)) todo (trySendNext.run u).2 := by
  have hrun : trySendNext.run u = (trySendLoop (dispatchRounds u)).run u := by
    rw [trySendNext, get_bind, if_neg (by simp [hpause])]
  rw [hrun]
  have hrounds : (freeEntries u).length < dispatchRounds u := by
    have hle := (filter_sublist (p := fun e => e.clientMsgId ∉ excludedIds u) (l := u.pending.ordered)).length_le
    rw [ordered, length_insertionSort] at hle
    exact Nat.lt_succ_of_le (hle.trans (Nat.le_add_right _ _))
  obtain ⟨_, hfinal⟩ :=
    (trySendLoop_serves _ [] _ u (Serving.start hfaults hids) hrounds).final
  exact hfinal

end Serving

end FlareIm.Outbox
