import FlareIm.Outbox.Standing

/-! The order of first attempts. The enqueue clock never goes back, the pending store hands out
the oldest entries first and the dispatch loop leaves out only entries that are in flight,
awaited or backing off. So a message is handed to the writer for the first time only after
every message enqueued before it was handed over, was answered by the server or left the pending
store. An answer is taken whether or not its message was handed over. -/

namespace FlareIm.Outbox

open Lib Message Store List KeyedMap Function NumberedEntry View

/-! ### Reading a history -/

def Action.isPush (k : String) : Action → Bool
  | .pushed e => e.clientMsgId = k
  | _ => false

def Action.isAnswer (k : String) : Action → Bool
  | .acked ack => ack.clientMsgId = k
  | _ => false

def Action.pushedId : Action → Option String
  | .pushed e => some e.clientMsgId
  | _ => none

section

variable (h : List Action)

include h

def dispatched (k : String) : Bool := h.any (Action.isHanding k)

def answered (k : String) : Bool := h.any (Action.isAnswer k)

/-- The message left the pending store since it was last enqueued. -/
def leftStore (k : String) : Bool :=
  (h.takeWhile (fun a => !a.isPush k)).any (Action.isPop k)

def pushes : List String := h.filterMap Action.pushedId

/-- The last enqueue of `a` came before that of `b`. -/
def EnqueuedBefore (a b : String) : Prop :=
  (pushes h).idxOf b < (pushes h).idxOf a
  deriving Decidable

end

/-- If `b` was neither handed over nor excused, every message enqueued before it was handed
over, is excused or left the pending store. -/
def FirstInOrder (excused : List Action → String → Bool) (h : List Action) (b : String) : Prop :=
  dispatched h b = false → excused h b = false →
    ∀ a ∈ pushes h, EnqueuedBefore h a b → dispatched h a ∨ excused h a ∨ leftStore h a
  deriving Decidable

/-- First attempts follow the order of enqueues, except for excused messages. -/
def InEnqueueOrder (excused : List Action → String → Bool) (history : List Action) : Prop :=
  ∀ job user older, .handed job user :: older <:+ history → FirstInOrder excused older job.entry.clientMsgId

variable {a : Action} {acts h : List Action} {k : String}

section Histories

variable {excused : List Action → String → Bool}

theorem inEnqueueOrder_nil : InEnqueueOrder excused [] := fun job user older hs => by
  simp at hs

theorem inEnqueueOrder_cons : InEnqueueOrder excused (a :: h) ↔
    (∀ job user, a = .handed job user → FirstInOrder excused h job.entry.clientMsgId) ∧
      InEnqueueOrder excused h := by
  constructor
  · intro ho
    refine ⟨fun job user ha => ?_, fun job user older hs => ?_⟩
    · exact ho job user h (by rw [ha])
    · exact ho job user older (hs.trans (suffix_cons a h))
  · rintro ⟨hfirst, ho⟩ job user older hs
    rcases suffix_cons_iff.mp hs with heq | hs
    · obtain ⟨rfl, rfl⟩ := cons.inj heq
      exact hfirst job user rfl
    · exact ho job user older hs

instance InEnqueueOrder.decidable : ∀ h, Decidable (InEnqueueOrder excused h)
  | [] => isTrue inEnqueueOrder_nil
  | .handed job user :: h =>
    have := InEnqueueOrder.decidable h
    decidable_of_iff (FirstInOrder excused h job.entry.clientMsgId ∧ InEnqueueOrder excused h) (by
      rw [inEnqueueOrder_cons]
      simp)
  | .pushed e :: h | .popped k :: h | .acked ack :: h =>
    have := InEnqueueOrder.decidable h
    decidable_of_iff (InEnqueueOrder excused h) (by
      rw [inEnqueueOrder_cons]
      simp)

theorem InEnqueueOrder.append (ho : InEnqueueOrder excused h) (acts : List Action)
    (hacts : ∀ a ∈ acts, ∀ k, a.isHanding k = false) : InEnqueueOrder excused (acts ++ h) := by
  induction acts with
  | nil => exact ho
  | cons a acts ih =>
    rw [cons_append, inEnqueueOrder_cons]
    refine ⟨fun job user ha => ?_, ih fun b hb => hacts b (mem_cons_of_mem a hb)⟩
    have hnot := hacts a mem_cons_self job.entry.clientMsgId
    rw [ha] at hnot
    simp [Action.isHanding] at hnot

variable (hacts : ∀ a ∈ acts, ∀ k, a.isPush k = false)

include hacts

theorem pushes_append_of_no_push : pushes (acts ++ h) = pushes h := by
  rw [pushes, filterMap_append, filterMap_eq_nil_iff.mpr, nil_append]
  · rfl
  · intro a ha
    cases a with
    | pushed e => simpa [Action.isPush] using hacts _ ha e.clientMsgId
    | _ => rfl

theorem leftStore_append_of_no_push : leftStore (acts ++ h) k = (acts.any (Action.isPop k) || leftStore h k) := by
  have htake : (acts ++ h).takeWhile (fun a => !a.isPush k) = acts ++ h.takeWhile (fun a => !a.isPush k) :=
    takeWhile_append_of_pos fun a ha => by rw [hacts a ha k]; rfl
  rw [leftStore, htake, any_append]
  rfl

end Histories

/-! ### Moves -/

variable {b j : String} {e : PendingSendVo} {α : Type}

section Moves

variable {v w : View}

/-- The message is left out by the dispatch loop. -/
def View.Busy (v : View) (k : String) : Prop :=
  v.inFlight k ≠ none ∨ v.awaiting k ≠ none ∨ v.backoff k ≠ none

namespace View.Busy

theorem ne_none_of_update {f : String → Option α} {o : Option α}
    (h : Function.update f k o j ≠ none) (hj : j ≠ k ∨ o = none) : f j ≠ none := by
  by_cases hjk : j = k
  · subst hjk
    rw [update_self] at h
    exact absurd (hj.resolve_left (not_not.mpr rfl)) h
  · rwa [update_of_ne hjk] at h

theorem of_drop (src : Source) (h : (v.drop src k).Busy j) : v.Busy j := by
  cases src with
  | inFlight => exact h.imp_left fun h => ne_none_of_update h (.inr rfl)
  | awaiting => exact h.imp_right (Or.imp_left fun h => ne_none_of_update h (.inr rfl))
  | queued => exact h.imp_right (Or.imp_right fun h => ne_none_of_update h (.inr rfl))

theorem of_holds {src : Source} (hsrc : src ≠ .queued) (h : v.Holds src e) :
    v.Busy e.clientMsgId := by
  cases src with
  | inFlight => exact .inl (by rw [show v.inFlight e.clientMsgId = some e from h]; simp)
  | awaiting => exact .inr (.inl (by rw [show v.awaiting e.clientMsgId = some e from h]; simp))
  | queued => exact absurd rfl hsrc

end View.Busy

/-- What keeps first attempts in order. -/
structure QueueOrder (v : View) : Prop where
  stamps : ∀ k p, v.pending k = some p → p.2.enqueuedAtMs ≤ v.lastEnqueued ∧ p.1 < v.nextSeq
  stored : ∀ k ∈ pushes v.history, leftStore v.history k = false → v.pending k ≠ none
  sorted : ∀ a b p q, EnqueuedBefore v.history a b → v.pending a = some p → v.pending b = some q → p.before q
  seen : ∀ k, v.Busy k → dispatched v.history k ∨ answered v.history k
  inOrder : InEnqueueOrder answered v.history

namespace QueueOrder

theorem seen_append (acts : List Action) (hk : dispatched h k ∨ answered h k) :
    dispatched (acts ++ h) k ∨ answered (acts ++ h) k := by
  simp only [dispatched, answered, any_append, Bool.or_eq_true] at hk ⊢
  exact hk.imp .inr .inr

theorem of_no_push (hv : QueueOrder v) (acts : List Action) (hhist : w.history = acts ++ v.history)
    (hacts : ∀ a ∈ acts, ∀ k, a.isPush k = false)
    (hpend : ∀ k, w.pending k = v.pending k ∨ (w.pending k = none ∧ .popped k ∈ acts))
    (hseq : w.nextSeq = v.nextSeq) (hclock : v.lastEnqueued ≤ w.lastEnqueued)
    (hbusy : ∀ k, w.Busy k → v.Busy k ∨ dispatched w.history k ∨ answered w.history k)
    (hord : InEnqueueOrder answered w.history) : QueueOrder w := by
  have hpushes : pushes w.history = pushes v.history := by
    rw [hhist, pushes_append_of_no_push hacts]
  have hsub : ∀ k p, w.pending k = some p → v.pending k = some p := fun k p hp => by
    rcases hpend k with heq | ⟨hnone, -⟩
    · rwa [heq] at hp
    · rw [hnone] at hp
      cases hp
  refine ⟨fun k p hp => ?_, fun k hk hleft => ?_, fun a b p q hbefore hp hq => ?_, fun k hk => ?_, hord⟩
  · obtain ⟨hstamp, hnum⟩ := hv.stamps k p (hsub k p hp)
    exact ⟨hstamp.trans hclock, hseq ▸ hnum⟩
  · rw [hpushes] at hk
    rw [hhist, leftStore_append_of_no_push hacts, Bool.or_eq_false_iff] at hleft
    have hold := hv.stored k hk hleft.2
    rcases hpend k with heq | ⟨-, hpop⟩
    · rwa [heq]
    · exact absurd (any_eq_false.mp hleft.1 _ hpop) (by simp [Action.isPop])
  · rw [EnqueuedBefore, hpushes] at hbefore
    exact hv.sorted a b p q hbefore (hsub a p hp) (hsub b q hq)
  · rcases hbusy k hk with hold | hseen
    · rw [hhist]
      exact seen_append _ (hv.seen k hold)
    · exact hseen

theorem first_of_dispatch (hv : QueueOrder v) {n : ℕ} (hp : v.pending e.clientMsgId = some (n, e))
    (horder : ∀ k p, v.pending k = some p → p.before (n, e) →
      v.inFlight k ≠ none ∨ v.awaiting k ≠ none ∨ v.backoff k ≠ none) :
    FirstInOrder answered v.history e.clientMsgId := by
  intro _ _ a ha hbefore
  by_cases hleft : leftStore v.history a = true
  · exact .inr (.inr hleft)
  · obtain ⟨p, hpa⟩ := Option.ne_none_iff_exists'.mp (hv.stored a ha (by simpa using hleft))
    have hbusy : v.Busy a := horder a p hpa (hv.sorted a _ p _ hbefore hpa hp)
    exact (hv.seen a hbusy).imp_right .inl

/-- A message that is already known to the server or the writer is not handed over for the
first time. -/
theorem first_of_seen (hb : dispatched h b ∨ answered h b) :
    FirstInOrder answered h b := by
  intro hnot hnot'
  rcases hb with hb | hb
  · rw [hb] at hnot
    cases hnot
  · rw [hb] at hnot'
    cases hnot'

/-- A newly enqueued message comes after every other one. -/
theorem enqueue (hv : QueueOrder v) (e : PendingSendVo) (hclock : v.lastEnqueued ≤ e.enqueuedAtMs) :
    QueueOrder { v with
      pending := Function.update v.pending e.clientMsgId (some (v.nextSeq, e))
      nextSeq := v.nextSeq + 1
      lastEnqueued := e.enqueuedAtMs
      history := .pushed e :: v.history } := by
  have hpushes : pushes (.pushed e :: v.history) = e.clientMsgId :: pushes v.history := rfl
  have hother : ∀ k, k ≠ e.clientMsgId → ∀ p, update v.pending e.clientMsgId (some (v.nextSeq, e)) k = some p →
        v.pending k = some p := fun k hk p hp => by
    rwa [update_of_ne hk] at hp
  refine ⟨fun k p hp => ?_, fun k hk hleft => ?_, fun a b p q hbefore hp hq => ?_, fun k hk => ?_, ?_⟩
  · by_cases hk : k = e.clientMsgId
    · subst hk
      cases (update_self _ _ _).symm.trans hp
      exact ⟨le_rfl, Nat.lt_succ_self _⟩
    · obtain ⟨hstamp, hnum⟩ := hv.stamps k p (hother k hk p hp)
      exact ⟨hstamp.trans hclock, hnum.trans (Nat.lt_succ_self _)⟩
  · by_cases hkey : k = e.clientMsgId
    · subst hkey
      simp
    · dsimp only at hk hleft ⊢
      rw [hpushes] at hk
      have hpush : Action.isPush k (.pushed e) = false := by simpa [Action.isPush] using Ne.symm hkey
      rw [leftStore, takeWhile_cons_of_pos (by rw [hpush]; rfl), any_cons, Bool.or_eq_false_iff] at hleft
      rw [update_of_ne hkey]
      exact hv.stored k ((mem_cons.mp hk).resolve_left hkey) hleft.2
  · rw [EnqueuedBefore, hpushes] at hbefore
    have ha : a ≠ e.clientMsgId := by
      rintro rfl
      simp at hbefore
    have hp := hother a ha p hp
    by_cases hb : b = e.clientMsgId
    · subst hb
      cases (update_self _ _ _).symm.trans hq
      obtain ⟨hstamp, hnum⟩ := hv.stamps a p hp
      rcases (hstamp.trans hclock).lt_or_eq with hlt | heq
      · exact .inl hlt
      · exact .inr ⟨heq, hnum⟩
    · rw [idxOf_cons_ne _ (Ne.symm hb), idxOf_cons_ne _ (Ne.symm ha)] at hbefore
      exact hv.sorted a b p q (Nat.lt_of_succ_lt_succ hbefore) hp (hother b hb q hq)
  · exact seen_append [.pushed e] (hv.seen k hk)
  · exact hv.inOrder.append [.pushed e] (by simp [Action.isHanding])

/-- A move that only removes messages. -/
theorem calm (hv : QueueOrder v) (pops : List String) (hhist : w.history = pops.map .popped ++ v.history)
    (hpend : ∀ k, w.pending k = v.pending k ∨ (w.pending k = none ∧ k ∈ pops))
    (hseq : w.nextSeq = v.nextSeq) (hclock : v.lastEnqueued ≤ w.lastEnqueued)
    (hbusy : ∀ k, w.Busy k → v.Busy k ∨ dispatched w.history k ∨ answered w.history k) :
    QueueOrder w := by
  refine hv.of_no_push _ hhist (by simp [Action.isPush]) (fun k => (hpend k).imp_right (And.imp_right ?_)) hseq hclock
    hbusy (hhist ▸ hv.inOrder.append _ (by simp [Action.isHanding]))
  exact fun hk => mem_map_of_mem hk

end QueueOrder

variable {sc : Scope}

theorem Move.queueOrder (hm : Move sc v w) (hv : QueueOrder v) : QueueOrder w := by
  have removed : ∀ (id k : String), update v.pending id none k = v.pending k ∨
      (update v.pending id none k = none ∧ k ∈ [id]) := fun id k => by
    by_cases hk : k = id
    · subst hk
      exact .inr ⟨update_self _ _ _, mem_singleton_self _⟩
    · exact .inl (update_of_ne hk _ _)
  have heard : ∀ (ack : SendAck) {k : String}, .acked ack ∈ v.history → k = ack.clientMsgId →
      answered v.history k := fun ack k hack hk =>
    any_eq_true.mpr ⟨_, hack, by simp [Action.isAnswer, hk]⟩
  cases hm with
  | enqueue e hclock => exact hv.enqueue e hclock
  | clock t ht => exact hv.calm [] rfl (fun k => .inl rfl) rfl ht fun k => .inl
  | hear ack =>
    exact hv.of_no_push [.acked ack] rfl (by simp [Action.isPush]) (fun k => .inl rfl) rfl le_rfl (fun k => .inl)
      (hv.inOrder.append [.acked ack] (by simp [Action.isHanding]))
  | settle src e hholds =>
    refine hv.calm [e.clientMsgId] ?_ (fun k => ?_) ?_ ?_ fun k hk =>
      .inl (View.Busy.of_drop src (k := e.clientMsgId) hk)
    · simp [record, forget]
    · simpa [record, forget] using removed e.clientMsgId k
    · simp [record, forget]
    · simp [record, forget]
  | accept src e ack hholds hack hid | retryLater src e ack hholds hack hid =>
    refine hv.calm [] (by simp) (fun k => .inl (by simp)) (by simp) (by simp) fun k hk => ?_
    by_cases hkey : k = e.clientMsgId
    · exact .inr (.inr (by simpa using heard ack hack (hkey.trans hid.symm)))
    · simp only [View.Busy, Function.update_of_ne hkey] at hk
      exact .inl (View.Busy.of_drop src hk)
  | dispatch n job hp hfly hawait hback hretries hbudget horder =>
    have hfirst := hv.first_of_dispatch hp horder
    refine hv.of_no_push [.handed job v.user] rfl (by simp [Action.isPush])
      (fun k => .inl rfl) rfl le_rfl (fun k hk => ?_)
      (inEnqueueOrder_cons.mpr ⟨fun job' user heq => by cases heq; exact hfirst, hv.inOrder⟩)
    by_cases hkey : k = job.entry.clientMsgId
    · exact .inr (.inl (by simp [dispatched, Action.isHanding, hkey]))
    · exact .inl (hk.imp_left fun h => View.Busy.ne_none_of_update h (.inl hkey))
  | resend src e jobs hsrc hholds htime hbudget hjobs =>
    have hbusy := View.Busy.of_holds hsrc hholds
    refine hv.of_no_push (jobs.map (.handed · v.user)) rfl ?_ (fun k => .inl (by simp))
      (by simp) (by simp) (fun k hk => .inl ?_) ?_
    · intro a ha k
      obtain ⟨job, -, rfl⟩ := mem_map.mp ha
      rfl
    · by_cases hkey : k = e.clientMsgId
      · exact hkey ▸ hbusy
      · exact .of_drop src (hk.imp_left fun h => View.Busy.ne_none_of_update h (.inl hkey))
    · rcases hjobs with rfl | ⟨-, job, rfl, rfl⟩
      · exact hv.inOrder
      · exact inEnqueueOrder_cons.mpr ⟨fun job' user heq => by
          cases heq
          exact QueueOrder.first_of_seen (hv.seen _ hbusy), hv.inOrder⟩
  | attemptFailed e hholds hbudget =>
    exact hv.calm [] rfl (fun k => .inl rfl) rfl le_rfl fun k => .inl
  | endBackoff j =>
    exact hv.calm [] rfl (fun k => .inl rfl) rfl le_rfl fun k hk => .inl (View.Busy.of_drop .queued hk)
  | expire n e hp =>
    refine hv.calm [e.clientMsgId] rfl (removed e.clientMsgId) rfl le_rfl fun k hk => .inl ?_
    exact hk.imp (fun h => View.Busy.ne_none_of_update h (.inr rfl))
      (Or.imp (fun h => View.Busy.ne_none_of_update h (.inr rfl)) fun h => View.Busy.ne_none_of_update h (.inr rfl))
  | release inFlight' hres hkeep =>
    refine hv.calm [] rfl (fun k => .inl rfl) rfl le_rfl fun k hk => .inl (hk.imp_left fun h => ?_)
    rcases hkeep k with heq | hnone
    · exact heq ▸ h
    · exact absurd hnone h
  | heal pops hres hpops =>
    refine hv.calm pops rfl (fun k => ?_) rfl le_rfl fun k hk => .inl (hk.imp_right (Or.imp_right fun h => ?_))
    · by_cases hk : k ∈ pops
      · exact .inr ⟨if_pos hk, hk⟩
      · exact .inl (if_neg hk)
    · by_cases hk : k ∈ pops
      · exact absurd (if_pos hk) h
      · exact fun hnone => h ((if_neg hk).trans hnone)
  | reset retries' pops hres hpops =>
    refine hv.calm pops rfl (fun k => ?_) rfl le_rfl fun k hk => ?_
    · by_cases hk : v.pending k = none
      · exact .inl hk.symm
      · exact .inr ⟨rfl, hpops k hk⟩
    · exact (hk.elim (absurd rfl) (Or.rec (absurd rfl) (absurd rfl)))

end Moves

/-! ### Runs -/

/-- In a sorted list without repetition, what comes later in the reverse comes first. -/
theorem rel_of_idxOf_reverse_lt {β : Type} [DecidableEq β] {R : α → α → Prop} {f : α → β} :
    ∀ {l : List α}, l.Pairwise R → (l.map f).Nodup → ∀ {x y : α}, x ∈ l → y ∈ l →
      (l.map f).reverse.idxOf (f y) < (l.map f).reverse.idxOf (f x) → R x y
  | [], _, _, _, _, hx, _, _ => nomatch hx
  | z :: l, hsorted, hnodup, x, y, hx, hy, hlt => by
    obtain ⟨hz, hsorted⟩ := pairwise_cons.mp hsorted
    rw [map_cons, nodup_cons] at hnodup
    obtain ⟨hfresh, hnodup⟩ := hnodup
    rw [map_cons, reverse_cons] at hlt
    have hmem : ∀ u ∈ l, f u ∈ (l.map f).reverse := fun u hu => by
      rw [mem_reverse]
      exact mem_map_of_mem hu
    rcases mem_cons.mp hx with rfl | hx'
    · rcases mem_cons.mp hy with rfl | hy'
      · exact absurd hlt (lt_irrefl _)
      · exact hz y hy'
    · rcases mem_cons.mp hy with rfl | hy'
      · rw [idxOf_append_of_notMem (by rwa [mem_reverse]), idxOf_append_of_mem (hmem x hx')] at hlt
        have := idxOf_lt_length_of_mem (hmem x hx')
        omega
      · rw [idxOf_append_of_mem (hmem x hx'), idxOf_append_of_mem (hmem y hy')] at hlt
        exact rel_of_idxOf_reverse_lt hsorted hnodup hx' hy' hlt

theorem pushes_persistedHistory (p : PendingEntries) :
    pushes (persistedHistory p) = (p.ordered.map clientMsgId).reverse := by
  rw [pushes, persistedHistory, PendingEntries.list, filterMap_map, ← map_reverse,
    filterMap_map, ← map_reverse]
  exact congrFun filterMap_eq_map _

/-- The stored entries that a queue starts with are in order: no two have one number. -/
theorem before_of_persisted {w : PendingEntries} {a : String} {p q : NumberedEntry}
    (hbefore : EnqueuedBefore (persistedHistory w) a b) (hp : w.byId.find? a = some p)
    (hq : w.byId.find? b = some q) : p.before q := by
  have hpa : p.clientMsgId = a := key_of_find? hp
  have hqb : q.clientMsgId = b := key_of_find? hq
  have hpmem := mem_of_find? hp
  have hqmem := mem_of_find? hq
  rw [EnqueuedBefore, pushes_persistedHistory, ← hpa, ← hqb] at hbefore
  have hle : p.oldestFirst q := rel_of_idxOf_reverse_lt (pairwise_insertionSort _ _)
    w.nodup_ordered_ids ((w.mem_ordered p).mpr hpmem) ((w.mem_ordered q).mpr hqmem) hbefore
  have hnum : p.1 ≠ q.1 := fun heq => by
    rw [inj_on_of_nodup_map w.seq_nodup hpmem hqmem heq] at hbefore
    exact lt_irrefl _ hbefore
  unfold oldestFirst before at *
  omega

theorem enqueuedAtMs_le_latestEnqueueMs : ∀ {entries : List PendingSendVo} (last : ℕ), e ∈ entries →
      e.enqueuedAtMs ≤ latestEnqueueMs entries last
  | e' :: entries, last, he => by
    rcases mem_cons.mp he with rfl | he
    · exact (le_max_right last _).trans (le_latestEnqueueMs entries _)
    · exact enqueuedAtMs_le_latestEnqueueMs (max last e'.enqueuedAtMs) he

theorem queueOrder_spawn {w : Surroundings} (hw : w.faults = []) : QueueOrder (spawn w).view := by
  rw [spawn_view hw]
  refine ⟨fun k p hp => ?_, fun k hk _ => ?_, fun a b p q hbefore hp hq => ?_, fun k hk => ?_, ?_⟩
  · have hmem := mem_of_find? hp
    refine ⟨enqueuedAtMs_le_latestEnqueueMs 0 ?_, w.pending.seq_lt p hmem⟩
    exact mem_map_of_mem ((w.pending.mem_ordered p).mpr hmem)
  · dsimp only at hk ⊢
    rw [pushes_persistedHistory, mem_reverse, mem_map] at hk
    obtain ⟨p, hp, rfl⟩ := hk
    rw [w.pending.byId.find?_of_mem ((w.pending.mem_ordered p).mp hp)]
    simp
  · exact before_of_persisted hbefore hp hq
  · exact hk.elim (absurd rfl) (Or.rec (absurd rfl) (absurd rfl))
  · have hempty : InEnqueueOrder answered [] := inEnqueueOrder_nil
    have hstart := hempty.append (persistedHistory w.pending) fun a ha k => by
      obtain ⟨e, -, rfl⟩ := mem_map.mp ha
      rfl
    rwa [append_nil] at hstart

/-- In every run, whatever the clock does, a message that the server has not answered is handed
to the writer for the first time only after every message enqueued before it was handed over,
was answered or left the pending store. -/
theorem inEnqueueOrder_run [ProtoCodes] (w : Surroundings) (hw : w.faults = []) (es : List Event) :
    InEnqueueOrder answered (run step (spawn w) es).history := by
  have hrun := run_view_invariant (s := spawn w) (I := QueueOrder) (c := fun _ _ => True)
    (fun s ev _ _ v v' _ hm hv => hm.queueOrder hv)
    (fun v user hv => ⟨hv.stamps, hv.stored, hv.sorted, hv.seen, hv.inOrder⟩) es (spawn_faults hw)
    (queueOrder_spawn hw) (.intro fun _ _ => trivial)
  exact hrun.inOrder

/-- Two messages are enqueued while the queue is paused, an ack for the first one comes before it was
handed over, and the queue resumes. -/
def answeredRun : List Event :=
  [.send .pause, .recv, .send (.enqueue (sampleMessage "c1")), .recv,
    .send (.enqueue (sampleMessage "c2")), .recv, .send (.ackReceived (sampleAccept "c1")), .recv,
    .send (.resume false), .recv]

theorem inEnqueueOrder_answeredRun :
    InEnqueueOrder answered (run (@step sampleCodes alone) (spawn sampleSurroundings) answeredRun).history :=
  @inEnqueueOrder_run sampleCodes sampleSurroundings rfl answeredRun

/-- Without the exception for answered messages, the second message comes too early. -/
theorem not_inEnqueueOrder_answeredRun : ¬ InEnqueueOrder (fun _ _ => false)
      (run (@step sampleCodes alone) (spawn sampleSurroundings) answeredRun).history := by
  decide

end FlareIm.Outbox
