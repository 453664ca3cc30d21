import FlareIm.Outbox.Calls
import FlareIm.Outbox.System

/-! Results of old attempts. A resume on a new connection forgets what is in flight and
dispatches it again; the writer drops jobs of the old connection, but a result that it has
already put into the command channel comes back after the resume. The handler of results compares
retry counts only. A stale failure therefore hits the newer attempt exactly when the message is
in flight again under the same retry count. -/

namespace FlareIm.Outbox

open Lib Message Store Function

/-- Nothing differs but the layout of the map in flight. -/
structure Unchanged (s t : QueueState) : Prop where
  inFlight : t.inFlight.find? = s.inFlight.find?
  rest : { t with inFlight := s.inFlight } = s

/-- The result is a failure, and the message is in flight under the retry count of the attempt;
while paused, the record may already be the one of a failed attempt. -/
def hitsAttempt (s : QueueState) (e : PendingSendVo) (retries : ℕ) : Except FlareError Unit → Bool
  | .ok () => false
  | .error _ => s.retryCount e.clientMsgId = retries && (s.inFlight.find? e.clientMsgId).any fun x =>
      !(s.isPaused && x = unsentInFlight s x.entry)

/-! ### What is told to the application -/

/-- Nothing told is taken back. -/
def Told (s t : QueueState) : Prop := s.bus <:+ t.bus

instance : Std.Refl Told := ⟨fun s => List.suffix_refl s.bus⟩

instance : IsTrans QueueState Told := ⟨fun _ _ _ h h' => h.trans h'⟩

variable (e : PendingSendVo)

section Told

theorem allowsCalls_told : AllowsCalls Told :=
  ⟨refl_of Told, fun s _ => refl_of Told s, fun s _ _ _ _ => refl_of Told s⟩

@[simp] theorem noteWriterFull_bus (s : QueueState) : (noteWriterFull s).bus = s.bus := by
  unfold noteWriterFull
  split <;> rfl

theorem allowsDispatch_told (user : String) : AllowsDispatch Told user where
  toAllowsCalls := allowsCalls_told
  counts s _ := refl_of Told s
  bus _ _ := List.suffix_cons _ _
  writerFull s := by simp [Told]
  send s e retries _ _ := by
    simp only [dispatchSendAttempt, Prog.modify_run]
    split <;> simp [Told]

theorem failEntry_tells [ProtoCodes] (reason : String) (s : QueueState) :
    s.bus.length < ((failEntry e reason).run s).2.bus.length := by
  have hbefore : Prog.Within Told (Prog.attempt (pendingPop e.clientMsgId) >>= fun _ =>
      clearRetryCount e.clientMsgId >>= fun _ => Prog.attempt (saveMessage (markFailed e.message))) :=
    .bind (.attempt (allowsCalls_told.pendingPop _)) fun _ => .bind (.modify fun s => refl_of Told s) fun _ =>
      .attempt (allowsCalls_told.saveMessage _)
  exact Nat.lt_succ_of_le (hbefore s).length_le

end Told

/-! ### The handler of results -/

section Results

variable [ProtoCodes] {s : QueueState}

omit [ProtoCodes] in
/-- While paused, the record in flight is replaced. -/
theorem unchanged_paused_iff {e : PendingSendVo} {x : InFlightSend} (hx : s.inFlight.find? e.clientMsgId = some x) :
    Unchanged s { s with
      inFlight := (s.inFlight.erase e.clientMsgId).insert (unsentInFlight s x.entry) } ↔
        x = unsentInFlight s x.entry := by
  obtain ⟨hid, -⟩ := holds_of_inFlight hx
  have hfind : ((s.inFlight.erase e.clientMsgId).insert (unsentInFlight s x.entry)).find? =
      Function.update s.inFlight.find? e.clientMsgId (some (unsentInFlight s x.entry)) := by
    rw [KeyedMap.find?_insert_eq, KeyedMap.find?_erase_eq]
    simp only [unsentInFlight, InFlightSend.clientMsgId, hid, update_idem]
  constructor
  · intro h
    have hsame := congrFun (hfind.symm.trans h.inFlight) e.clientMsgId
    rw [update_self, hx] at hsame
    exact (Option.some.inj hsame).symm
  · intro h
    refine ⟨?_, rfl⟩
    rw [hfind, ← h, ← hx, update_eq_self]

variable {t : QueueState}

omit [ProtoCodes] in
theorem Unchanged.retryCount (h : Unchanged s t) : t.retryCount = s.retryCount := by
  rw [← h.rest]

omit [ProtoCodes] in
theorem Unchanged.bus (h : Unchanged s t) : t.bus = s.bus := by
  rw [← h.rest]

omit [ProtoCodes] in
theorem not_unchanged_of_retry {k : String} {retries next : ℕ}
    (hretry : decideSendAttemptFailure retries s.config.maxRetries = .retry next)
    (hcount : s.retryCount k = retries) (ht : t.retryCount k = next) : ¬ Unchanged s t := by
  intro h
  obtain ⟨hnext, hlt⟩ := decideSendAttemptFailure_retry hretry
  have hmax := s.config.maxRetries_le
  rw [h.retryCount, hcount] at ht
  unfold satAddU32 at hnext
  omega

theorem not_unchanged_of_fail (reason : String) (ht : t.bus = s.bus) :
    ¬ Unchanged s ((failEntry e reason >>= fun _ => trySendNext).run t).2 := by
  intro h
  have hlonger := failEntry_tells e reason t
  have hmore : ((failEntry e reason).run t).2.bus <:+ ((failEntry e reason >>= fun _ => trySendNext).run t).2.bus :=
    trySendNext_within allowsDispatch_told _
  have hle := hmore.length_le
  rw [h.bus, ← ht] at hle
  omega

/-- The handler leaves the queue as it is exactly when the result misses the message. -/
theorem handleSendAttemptFinished_unchanged_iff (retries : ℕ) (result : Except FlareError Unit) :
    Unchanged s ((handleSendAttemptFinished e retries result).run s).2 ↔
    hitsAttempt s e retries result = false := by
  have same : Unchanged s s := ⟨rfl, rfl⟩
  unfold handleSendAttemptFinished
  cases result with
  | ok u => exact iff_of_true same rfl
  | error err =>
    rw [Prog.get_bind]
    by_cases hcount : s.retryCount e.clientMsgId = retries
    · rw [if_neg (not_not.mpr hcount)]
      cases hx : s.inFlight.find? e.clientMsgId with
      | none => exact iff_of_true same (by simp [hitsAttempt, hx])
      | some x =>
        obtain ⟨hid, -⟩ := holds_of_inFlight hx
        dsimp only [removeInFlight]
        rw [Prog.modify_bind]
        by_cases hpause : s.isPaused = true
        · rw [if_pos hpause]
          refine (unchanged_paused_iff hx).trans ?_
          simp [hitsAttempt, hcount, hx, hpause]
        · rw [if_neg hpause]
          refine iff_of_false ?_ (by simp [hitsAttempt, hcount, hx, hpause])
          dsimp only [noteSendCongestion]
          rw [Prog.modify_bind]
          split
          · rename_i next hretry
            exact not_unchanged_of_retry hretry (k := x.entry.clientMsgId) (by rw [hid, hcount])
              (update_self _ _ _)
          · exact not_unchanged_of_fail x.entry _ rfl
    · rw [if_pos hcount]
      exact iff_of_true same (by simp [hitsAttempt, hcount])

/-- The step handles the result of an attempt from before a redispatching resume. -/
def handlesStale (s : QueueState) : Event → Bool
  | .recv =>
    match s.commands with
    | .sendAttemptFinished _ _ _ resumes :: _ => resumes < s.resumes
    | _ => false
  | _ => false

/-- The step handles a result that hits the message. -/
def handlesHit (s : QueueState) : Event → Bool
  | .recv =>
    match s.commands with
    | .sendAttemptFinished e retries result _ :: _ => hitsAttempt s e retries result
    | _ => false
  | _ => false

/-- A stale result is taken from the channel, and that is all. -/
def IgnoresStale (s : QueueState) (ev : Event) : Prop :=
  handlesStale s ev = true → Unchanged { s with commands := s.commands.tail } (step s ev)

theorem ignoresStale_iff (s : QueueState) (ev : Event) :
    IgnoresStale s ev ↔ (handlesStale s ev = true → handlesHit s ev = false) := by
  refine imp_congr_right fun hstale => ?_
  cases ev with
  | recv =>
    cases hc : s.commands with
    | nil => simp [handlesStale, hc] at hstale
    | cons c rest =>
      cases c with
      | sendAttemptFinished e retries result resumes =>
        have hiff := handleSendAttemptFinished_unchanged_iff (s := { s with commands := rest }) e retries result
        simp only [handlesHit, step, recvCommand, hc]
        exact hiff
      | _ => simp [handlesStale, hc] at hstale
  | _ => cases hstale

/-- In every run, stale results are ignored exactly when none of them is a failure of a message
that is in flight again under the retry count of the old attempt. -/
theorem allSteps_ignoresStale_iff (w : Surroundings) (es : List Event) : AllSteps step IgnoresStale (spawn w) es ↔
      AllSteps step (fun s ev => handlesStale s ev = true → handlesHit s ev = false) (spawn w) es :=
  AllSteps.congr ignoresStale_iff

end Results

/-- The writer takes an attempt, which fails while a resume on a new connection is waiting in the
channel; the failure is reported behind the resume. -/
def staleRun : List Event :=
  [.send (.enqueue (sampleMessage "c1")), .recv, .writerRecv, .send (.resume true),
    .writerDone (.error ⟨"connection lost"⟩), .writerReport, .recv]

theorem not_allSteps_ignoresStale_staleRun :
    ¬ AllSteps (@step sampleCodes alone) (@IgnoresStale sampleCodes) (spawn sampleSurroundings)
      (staleRun ++ [.recv]) := by
  intro h
  have hsame := congrFun (h.last (by decide)).retryCount "c1"
  revert hsame
  decide

end FlareIm.Outbox
