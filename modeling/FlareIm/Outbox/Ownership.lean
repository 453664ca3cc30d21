import FlareIm.Outbox.Flight

/-! Whose messages are handed to the writer. The dispatch loop compares the sender of a message
with the connected user before it hands it over, but it reads the user before it waits for the
rows of the messages, and the timers hand a message over again without a look at the user. A
handler waits at each call of a store, and there the account may change, as may everything else
that other tasks do. In every run with such interleavings, the two ways are the only ones in which
a message of another account is handed over. -/

namespace FlareIm.Outbox

open Lib Message Store Prog KeyedMap List

section Results

variable [codes : ProtoCodes]

/-! ### Other tasks run while a handler waits -/

/-- The actor takes no other event while it handles one. -/
def Event.isActor : Event → Bool
  | .recv | .tick | .probe => true
  | _ => false

/-- Each time the actor waits, the other tasks make the next steps of the script. -/
@[reducible] def scripted : Tasks := ⟨fun s =>
  match s.others with
  | [] => s
  | evs :: rest => run (@step codes alone) { s with others := rest } (evs.filter (!·.isActor))⟩

/-- An event, with what the other tasks do while the actor waits in its handler. -/
structure Turn where
  event : Event
  others : List (List Event) := []

def interleavedStep (s : QueueState) (x : Turn) : QueueState :=
  { @step codes scripted { s with others := x.others } x.event with others := [] }

/-! ### Whose messages are sent -/

/-- A handed attempt carries a message of the user who was connected, if any was. -/
def Action.isOwn : Action → Bool
  | .handed job user => user = "" || job.entry.message.senderId = user
  | _ => true

def OwnMessagesOnly (history : List Action) : Prop := ∀ a ∈ history, a.isOwn = true

/-- The connected user becomes another one. -/
def Event.changesUser (user : String) : Event → Bool
  | .setUser userId => userId ≠ user
  | _ => false

/-- The message is the user's, if one is connected. -/
def ownedBy (user : String) (e : PendingSendVo) : Prop := user = "" ∨ e.message.senderId = user

instance (user : String) (e : PendingSendVo) : Decidable (ownedBy user e) := inferInstanceAs (Decidable (_ ∨ _))

def QueueState.timed (s : QueueState) : List PendingSendVo :=
  s.inFlight.items.map (·.entry) ++ s.awaitingDurable.items.map (·.entry)

/-- `user` is connected and stays so while the handler at hand waits; in a tick, every timer is one of
the user's messages. -/
structure Settled (ticks : Prop) (user : String) (s : QueueState) : Prop where
  user_eq : s.currentUserId = user
  stays : ∀ evs ∈ s.others, ∀ ev ∈ evs, ev.changesUser user = false
  mine : OwnMessagesOnly s.history
  timed : ticks → ∀ e ∈ s.timed, ownedBy user e

/-- The relation of the programs that keep this. -/
def Keeps (ticks : Prop) (user : String) (s t : QueueState) : Prop := Settled ticks user s → Settled ticks user t

variable {ticks : Prop} {user k : String} {s t : QueueState} {ev : Event} {e : PendingSendVo}

instance : Std.Refl (Keeps ticks user) := ⟨fun _ => id⟩

instance : IsTrans QueueState (Keeps ticks user) := ⟨fun _ _ _ h h' hs => h' (h hs)⟩

omit codes in
theorem OwnMessagesOnly.append {history acts : List Action} (h : OwnMessagesOnly history)
    (hacts : ∀ job user, .handed job user ∉ acts) : OwnMessagesOnly (acts ++ history) := by
  intro a ha
  rcases mem_append.mp ha with hnew | hold
  · cases a with
    | handed job user => exact absurd hnew (hacts job user)
    | _ => rfl
  · exact h a hold

namespace Settled

omit codes in
theorem of_handing (hs : Settled ticks user s) (h : t.handing = s.handing) (htimed : ticks → t.timed ⊆ s.timed) :
    Settled ticks user t := by
  simp only [QueueState.handing, Prod.mk.injEq] at h
  obtain ⟨hhistory, huser, hothers⟩ := h
  exact ⟨huser.trans hs.user_eq, hothers ▸ hs.stays, hhistory ▸ hs.mine, fun hticks e he =>
    hs.timed hticks e (htimed hticks he)⟩

omit codes in
theorem of_eq (hs : Settled ticks user s) (h : t.handing = s.handing) (htimed : t.timed = s.timed) :
    Settled ticks user t :=
  hs.of_handing h fun _ _ he => htimed ▸ he

/-- A step of another task. -/
theorem step (hs : Settled ticks user s) (hactor : ev.isActor = false) (huser : ev.changesUser user = false) :
    Settled ticks user (step s ev) := by
  have beside (hbeside : ev.isBeside = true) : Settled ticks user (Outbox.step s ev) := by
    have hcore := core_step s hbeside
    exact hs.of_eq (congrArg QueueState.handing hcore : (Outbox.step s ev).core.handing = s.core.handing)
      (congrArg QueueState.timed hcore : (Outbox.step s ev).core.timed = s.core.timed)
  cases ev with
  | recv | tick | probe => cases hactor
  | setUser userId =>
    have heq : userId = user := by simpa [Event.changesUser] using huser
    exact ⟨heq, hs.stays, hs.mine, hs.timed⟩
  | setClock | downlink => exact hs.of_eq rfl rfl
  | _ => exact beside rfl

theorem meanwhile (hs : Settled ticks user s) : Settled ticks user (scripted.meanwhile s) := by
  unfold scripted
  dsimp only
  split
  · exact hs
  · rename_i evs rest hothers
    have hstays := hs.stays
    rw [hothers] at hstays
    refine run_invariant (c := fun _ ev => ev ∈ evs ∧ ev.isActor = false)
      (fun t ev ht hev => ht.step hev.2 (hstays evs mem_cons_self ev hev.1)) _ _ ?_ (.of_mem fun ev hev => ?_)
    · exact ⟨hs.user_eq, fun evs hevs => hstays evs (mem_cons_of_mem _ hevs), hs.mine, hs.timed⟩
    · simpa using hev

omit codes in
theorem dispatchSendAttempt (hs : Settled ticks user s) (howned : ownedBy user e) (retries : ℕ) :
    Settled ticks user ((dispatchSendAttempt e retries).run s).2 := by
  rw [Outbox.dispatchSendAttempt, modify_run]
  have htimed : ticks → ∀ e' ∈ (s.inFlight.insert ⟨e, s.deadlineAfter, s.nowMs, false⟩).items.map (·.entry) ++
      s.awaitingDurable.items.map (·.entry), ownedBy user e' := by
    intro hticks e' he'
    rcases mem_append.mp he' with hfly | hawait
    · obtain ⟨x, hx, rfl⟩ := mem_map.mp hfly
      rcases (mem_insert _ _ _).mp hx with rfl | ⟨hold, -⟩
      · exact howned
      · exact hs.timed hticks _ (mem_append_left _ (mem_map_of_mem hold))
    · exact hs.timed hticks _ (mem_append_right _ hawait)
  dsimp only
  split
  · unfold noteWriterFull
    split <;> exact ⟨hs.user_eq, hs.stays, hs.mine, htimed⟩
  · refine ⟨hs.user_eq, hs.stays, forall_mem_cons.mpr ⟨?_, hs.mine⟩, htimed⟩
    simpa [Action.isOwn, ownedBy, hs.user_eq] using howned

end Settled

/-! ### The programs of the actor -/

section Programs

variable (ticks : Prop) (user : String)

theorem allowsFailing_keeps : @AllowsFailing scripted (Keeps ticks user) :=
  @AllowsFailing.mk scripted _
    (@AllowsCalls.mk scripted _ (fun _ hs => hs.meanwhile) (fun _ _ hs => hs.of_eq rfl rfl)
      fun _ _ _ _ hacts hs => ⟨hs.user_eq, hs.stays, hs.mine.append hacts, hs.timed⟩)
    (fun _ _ hs => hs.of_eq rfl rfl) fun _ _ hs => hs.of_eq rfl rfl

/-- The dispatch loop checks the owner against the user it has read, who stays connected. -/
theorem trySendNext_keeps : Within (Keeps ticks user) (@trySendNext _ scripted) := by
  have hfailing := allowsFailing_keeps ticks user
  have hsend : @AllowsDispatch scripted (Keeps ticks user) user :=
    @AllowsDispatch.mk scripted _ _ hfailing
      (fun s hs => by
        unfold noteWriterFull
        split <;> exact hs.of_eq rfl rfl)
      fun s e retries _ hown hs =>
        hs.dispatchSendAttempt (((isCrossAccount_eq_false_iff _ _).mp hown).imp_right And.right) retries
  refine .get_bind fun s => .ite (.pure ()) (@trySendLoop_within _ scripted _ _ _
    (@AllowsFailing.toAllowsCalls scripted _ hfailing) (fun hnext entries t ht => ?_) _)
  exact @AllowsDispatch.trySendRound _ scripted _ _ _ _ (ht.user_eq.symm ▸ hsend) _ hnext entries ht

/-- A handler of a command does not touch the timers of others. -/
theorem handleCommand_keeps (c : QueueCommand) : Within (Keeps False user) (@handleCommand _ scripted c) :=
  @AllowsHandling.handleCommand _ scripted _ _ _ (@AllowsHandling.mk _ scripted _
    (@AllowsFailing.toAllowsCalls scripted _ (allowsFailing_keeps False user))
    (fun _ _ heq _ hs => hs.of_handing heq False.elim) (trySendNext_keeps False user)) c

omit codes in
theorem items_insert_erase_subset {ν : Type} {key : ν → String} {m : KeyedMap String ν key} {v : ν}
    (hv : m.find? k = some v) : ((m.erase k).insert v).items ⊆ m.items := by
  intro w hw
  rcases (mem_insert _ _ _).mp hw with rfl | ⟨hold, -⟩
  · exact mem_of_find? hv
  · exact mem_of_mem_filter hold

omit codes in
theorem keeps_of_timed (hhanding : t.handing = s.handing) (hfly : t.inFlight.items ⊆ s.inFlight.items)
    (hawait : t.awaitingDurable.items ⊆ s.awaitingDurable.items) : Keeps ticks user s t := by
  refine fun hs => hs.of_handing hhanding fun _ e he => ?_
  rw [QueueState.timed, mem_append] at he ⊢
  exact he.imp (map_subset _ hfly ·) (map_subset _ hawait ·)

theorem allowsReconciling_keeps : @AllowsReconciling scripted (Keeps ticks user) :=
  @AllowsReconciling.mk scripted _ (allowsFailing_keeps ticks user)
    (fun _ _ => keeps_of_timed _ _ rfl (filter_subset_self _) (List.Subset.refl _))
    (fun _ _ => keeps_of_timed _ _ rfl (List.Subset.refl _) (filter_subset_self _))
    (fun _ _ _ hx => keeps_of_timed _ _ rfl (items_insert_erase_subset hx) (List.Subset.refl _))
    fun _ _ _ hx => keeps_of_timed _ _ rfl (List.Subset.refl _) (items_insert_erase_subset hx)

end Programs

section Ticks

variable [tasks : Tasks] (htick : AllowsReconciling (Keeps True user))

include htick

theorem Settled.expireTimer (hs : Settled True user s) (howned : ownedBy user e) :
    Settled True user ((expireTimer e).run s).2 := by
  rw [Outbox.expireTimer, noteSendCongestion, modify_bind, get_bind]
  split
  · rw [setRetryCount, modify_bind]
    refine Settled.dispatchSendAttempt ?_ howned _
    exact hs.of_eq rfl rfl
  · rename_i reason _
    exact htick.toAllowsFailing.failEntry e reason _ (hs.of_eq rfl rfl)

theorem checkInFlightEntry_keeps (k : String) : Within (Keeps True user) (checkInFlightEntry k) := by
  intro s hs
  rw [checkInFlightEntry, get_bind]
  split
  · exact hs
  rename_i x hx
  rw [removeInFlight, modify_bind]
  split
  · refine (htick.takeInFlight s k hs).expireTimer htick (hs.timed trivial _ (mem_append_left _ ?_))
    exact mem_map_of_mem (mem_of_find? hx)
  · exact htick.putBackInFlight s k x hx hs

theorem checkAwaitingEntry_keeps (k : String) : Within (Keeps True user) (checkAwaitingEntry k) := by
  intro s hs
  rw [checkAwaitingEntry, get_bind]
  split
  · exact hs
  rename_i y hy
  rw [removeAwaiting, modify_bind]
  split
  · refine (htick.takeAwaiting s k hs).expireTimer htick (hs.timed trivial _ (mem_append_right _ ?_))
    exact mem_map_of_mem (mem_of_find? hy)
  · exact htick.putBackAwaiting s k y hy hs

theorem checkTimeout_keeps (hnext : Within (Keeps True user) trySendNext) :
    Within (Keeps True user) checkTimeout := by
  have hfly := htick.reconcileInFlightTerminalStates
  have hawaiting := htick.reconcileAwaitingDurableTerminalStates
  have finish : Within (Keeps True user) (trySendNext >>= fun _ => pure ()) := .bind hnext fun _ => .pure ()
  refine .get_bind fun _ => .ite (.bind hfly fun _ => .bind hawaiting fun _ => .pure ()) ?_
  refine .bind hfly fun _ => .ite finish (.bind hawaiting fun _ => .ite finish ?_)
  refine .bind (.get_bind fun _ => .foldlM (fun _ k => checkAwaitingEntry_keeps htick k) _ _) fun _ => ?_
  exact .bind (.get_bind fun _ => .foldlM (fun _ k => checkInFlightEntry_keeps htick k) _ _) fun _ => hnext

end Ticks

/-! ### Runs -/

theorem ownMessagesOnly_step (hs : Settled (ev = .tick) user s) :
    OwnMessagesOnly (@step codes scripted s ev).history := by
  have beside (hbeside : ev.isBeside = true) : OwnMessagesOnly (@step codes scripted s ev).history := by
    have hhistory : (@step codes scripted s ev).core.history = s.core.history := by
      rw [@core_step codes scripted s ev hbeside]
    exact hhistory ▸ hs.mine
  cases ev with
  | recv =>
    unfold step recvCommand
    dsimp only
    split
    · exact hs.mine
    · rename_i c rest _
      exact (handleCommand_keeps user c { s with commands := rest }
        ⟨hs.user_eq, hs.stays, hs.mine, False.elim⟩).mine
  | tick =>
    have hcheck := @checkTimeout_keeps codes user scripted (allowsReconciling_keeps True user)
      (trySendNext_keeps True user)
      s ⟨hs.user_eq, hs.stays, hs.mine, fun _ => hs.timed rfl⟩
    have hprobe : (@step codes scripted s .tick).core.history =
      ((@checkTimeout codes scripted).run s).2.core.history :=
      congrArg _ (core_probeLinkIfSendStalled _)
    exact hprobe ▸ hcheck.mine
  | setUser | setClock | downlink => exact hs.mine
  | _ => exact beside rfl

section Runs

variable (s : QueueState) (x : Turn)

/-- The account does not change while a handler waits, and the timers do not tick while one of them is
another account's. -/
def SendsOwnOnly : Prop :=
  (∀ evs ∈ x.others, ∀ ev ∈ evs, ev.changesUser s.currentUserId = false) ∧
    match x.event with
    | .tick => ∀ e ∈ s.timed, ownedBy s.currentUserId e
    | _ => True

instance : Decidable (SendsOwnOnly s x) := by
  unfold SendsOwnOnly
  split <;> infer_instance

omit codes in
theorem spawn_history (w : Surroundings) : (spawn w).history = persistedHistory w.pending := by
  have hlist : (pendingList.run (newQueue w)).2.history = persistedHistory w.pending := by
    show (callStore _ (newQueue w)).2.history = _
    unfold callStore
    split <;> rfl
  rw [spawn, seedEnqueueClock, attempt_bind]
  split <;> exact hlist

/-- Every attempt carries a message of the connected user, in every run in which neither the account
changes while a handler waits, nor the timers tick while one of them is another account's. -/
theorem ownMessagesOnly_run (w : Surroundings) (xs : List Turn)
    (hc : AllSteps interleavedStep SendsOwnOnly (spawn w) xs) :
    OwnMessagesOnly (run interleavedStep (spawn w) xs).history := by
  refine run_invariant (I := fun s => OwnMessagesOnly s.history) (fun s x hs hx => ?_) xs (spawn w) ?_ hc
  · obtain ⟨hstays, htimed⟩ := hx
    exact ownMessagesOnly_step (s := { s with others := x.others })
      ⟨rfl, hstays, hs, fun htick => by rwa [htick] at htimed⟩
  · rw [spawn_history]
    intro a ha
    obtain ⟨e, -, rfl⟩ := mem_map.mp ha
    rfl

end Runs

end Results

/-- A message is enqueued; when the handler waits for the rows of what it has picked, the account
becomes `userId`. -/
def awaitedRun (userId : String) : List Turn :=
  [⟨.send (.enqueue (sampleMessage "c1")), []⟩, ⟨.recv, replicate 10 [] ++ [[.setUser userId]]⟩]

/-- A message is dispatched, the account changes to `userId` and the timer of the message runs out. -/
def switchedRun (userId : String) : List Turn :=
  awaitedRun "u1" ++ (.setUser userId :: tickAt 12000).map (⟨·, []⟩)

theorem ownMessagesOnly_switchedRun_same_user :
    OwnMessagesOnly (run (@interleavedStep sampleCodes) (spawn sampleSurroundings) (switchedRun "u1")).history :=
  @ownMessagesOnly_run sampleCodes sampleSurroundings (switchedRun "u1") (by decide)

theorem not_ownMessagesOnly_other_user :
    ¬ OwnMessagesOnly (run (@interleavedStep sampleCodes) (spawn sampleSurroundings) (switchedRun "u2")).history ∧
      ¬ OwnMessagesOnly (run (@interleavedStep sampleCodes) (spawn sampleSurroundings)
        (awaitedRun "u2")).history := by
  unfold OwnMessagesOnly
  decide

end FlareIm.Outbox
