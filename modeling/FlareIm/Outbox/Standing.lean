import FlareIm.Outbox.Refinement

/-! The standing of one message: whether it is pending, in flight, awaited or backing off,
its retry count, and how often it was handed to the writer since it was last removed from
the pending store. A move shifts the standing of every message in one of a few ways, listed
once here; invariants about single messages are then case analyses over shifts. -/

namespace FlareIm.Outbox

open Lib Message Store List

variable {sc : Scope} {v w : View}

/-! ### Standings and shifts -/

structure Standing where
  pending : Option NumberedEntry
  inFlight : Option PendingSendVo
  awaiting : Option PendingSendVo
  backoff : Option ℕ
  retries : ℕ
  maxRetries : ℕ
  attempts : ℕ

def View.standing (v : View) (k : String) : Standing :=
  ⟨v.pending k, v.inFlight k, v.awaiting k, v.backoff k, v.retries k, v.maxRetries, attempts k v.history⟩

open View

namespace Standing

variable (x : Standing)

def Holds : Source → Prop
  | .inFlight => x.inFlight ≠ none
  | .awaiting => x.awaiting ≠ none
  | .queued => x.pending ≠ none ∧ x.inFlight = none ∧ x.awaiting = none

def drop : Source → Standing
  | .inFlight => { x with inFlight := none }
  | .awaiting => { x with awaiting := none }
  | .queued => { x with backoff := none }

def forget : Standing := { x with pending := none, retries := 0, attempts := 0 }

def gone (retries attempts : ℕ) : Standing :=
  ⟨none, none, none, none, retries, x.maxRetries, attempts⟩

end Standing

/-- How one move can shift the standing of the message `k`. -/
inductive Shift (sc : Scope) (k : String) (x : Standing) : Standing → Prop
  | stay : Shift sc k x x
  | store (p : NumberedEntry) : Shift sc k x { x with pending := some p }
  | settle (src : Source) (h : x.Holds src) : Shift sc k x (x.drop src).forget
  | accept (src : Source) (h : x.Holds src) (e : PendingSendVo) :
      Shift sc k x { x.drop src with awaiting := some e }
  | retryLater (src : Source) (h : x.Holds src) (hbudget : x.retries + 1 < x.maxRetries) :
      Shift sc k x { x.drop src with retries := x.retries + 1, backoff := some (x.retries + 1) }
  | dispatch (e : PendingSendVo) (hp : x.pending ≠ none) (hfly : x.inFlight = none)
      (hawait : x.awaiting = none) (hback : x.backoff = none) (hbudget : x.retries < x.maxRetries) :
      Shift sc k x { x with inFlight := some e, attempts := x.attempts + 1 }
  | resend (src : Source) (hsrc : src ≠ .queued) (h : x.Holds src) (e : PendingSendVo)
      (hid : e.clientMsgId = k) (htime : sc.timesOut e x.retries x.attempts)
      (hbudget : x.retries < x.maxRetries) (n : ℕ)
      (hn : n = x.attempts ∨ (sc.writerOpen ∧ n = x.attempts + 1)) :
      Shift sc k x { x.drop src with retries := x.retries + 1, inFlight := some e, attempts := n }
  | attemptFailed (h : x.inFlight ≠ none) (hbudget : x.retries + 1 < x.maxRetries) :
      Shift sc k x { x with retries := x.retries + 1 }
  | endBackoff : Shift sc k x { x with backoff := none }
  | expire : Shift sc k x (x.gone 0 0)
  | release (hres : sc.resumes) : Shift sc k x { x with inFlight := none }
  | heal (hres : sc.resumes) (h : x.inFlight ≠ none ∨ x.awaiting ≠ none → sc.strands k) :
      Shift sc k x { x.forget with backoff := none }
  | reset (hres : sc.resets) (retries attempts : ℕ) : Shift sc k x (x.gone retries attempts)

/-- The standing of `k` shifts from its one in `v` to its one in `w`. -/
def Shifts (sc : Scope) (k : String) (v w : View) : Prop := Shift sc k (v.standing k) (w.standing k)

theorem View.Holds.standing {src : Source} {e : PendingSendVo} (h : v.Holds src e) :
    (v.standing e.clientMsgId).Holds src := by
  cases src with
  | inFlight => exact fun hnone => nomatch (show v.inFlight _ = some e from h).symm.trans hnone
  | awaiting => exact fun hnone => nomatch (show v.awaiting _ = some e from h).symm.trans hnone
  | queued =>
    obtain ⟨⟨n, hn⟩, hfly, hawait⟩ := h
    exact ⟨fun hnone => (nomatch hn.symm.trans hnone), hfly, hawait⟩

section Shifts

/-- A move that is about the message `j` leaves the others where they stand. -/
theorem shifts_of_at (j : String) {x : Standing} (hshift : Shift sc j (v.standing j) x) (hat : w.standing j = x)
    (hoff : ∀ k, k ≠ j → w.standing k = v.standing k) (k : String) : Shifts sc k v w := by
  by_cases hk : k = j
  · subst hk hat
    exact hshift
  · rw [Shifts, hoff k hk]
    exact .stay

theorem Move.shifts (hm : Move sc v w) (k : String) : Shifts sc k v w := by
  have same : Shift sc k (v.standing k) (v.standing k) := .stay
  cases hm with
  | enqueue e hclock =>
    have hquiet (k : String) : attempts k (.pushed e :: v.history) = attempts k v.history :=
      attempts_cons_of_not_pop rfl
    refine shifts_of_at e.clientMsgId (.store (v.nextSeq, e)) ?_ (fun k hk => ?_) k
    · simp [standing, hquiet]
    · simp [standing, hquiet, hk]
  | clock t ht => exact same
  | hear ack =>
    have hcount : attempts k (.acked ack :: v.history) = attempts k v.history :=
      attempts_cons_of_not_pop rfl
    simpa [Shifts, standing, record, hcount] using same
  | settle src e hholds =>
    refine shifts_of_at e.clientMsgId (.settle src hholds.standing) ?_ (fun k hk => ?_) k
    · cases src <;>
        simp [View.standing, View.drop, View.forget, View.record, Standing.drop, Standing.forget, attempts_popped]
    · cases src <;> simp [View.standing, View.drop, View.forget, View.record, hk, attempts_popped]
  | accept src e ack hholds hack hid =>
    refine shifts_of_at e.clientMsgId (.accept src hholds.standing e) ?_ (fun k hk => ?_) k
    · cases src <;> simp [View.standing, View.drop, Standing.drop]
    · cases src <;> simp [View.standing, View.drop, hk]
  | retryLater src e ack hholds hack hid hbudget =>
    refine shifts_of_at e.clientMsgId (.retryLater src hholds.standing hbudget) ?_ (fun k hk => ?_) k
    · cases src <;> simp [View.standing, View.drop, Standing.drop]
    · cases src <;> simp [View.standing, View.drop, hk]
  | dispatch n job hp hfly hawait hback hretries hbudget horder =>
    have hleft : v.retries job.entry.clientMsgId < v.maxRetries := hretries ▸ hbudget
    refine shifts_of_at job.entry.clientMsgId (.dispatch job.entry ?_ hfly hawait hback hleft) ?_ (fun k hk => ?_) k
    · rw [standing, hp]
      simp
    · simp [standing, attempts_handed]
    · simp [standing, attempts_handed, hk, Ne.symm hk]
  | resend src e jobs hsrc hholds htime hbudget hjobs =>
    have hcount (k : String) := attempts_handed_jobs (k := k) (h := v.history) v.user (hjobs.imp_right And.right)
    have hn : jobs.length = 0 ∨ sc.writerOpen ∧ jobs.length = 1 := by
      rcases hjobs with rfl | ⟨hopen, job, rfl, -⟩
      · exact .inl rfl
      · exact .inr ⟨hopen, rfl⟩
    refine shifts_of_at e.clientMsgId (.resend src hsrc hholds.standing e rfl htime hbudget _
      (hn.imp (congrArg (_ + ·)) (And.imp_right (congrArg (_ + ·))))) ?_ (fun k hk => ?_) k
    · cases src <;> simp [View.standing, View.drop, Standing.drop, hcount]
    · cases src <;> simp [View.standing, View.drop, hk, hcount]
  | attemptFailed e hholds hbudget =>
    refine shifts_of_at e.clientMsgId (.attemptFailed hholds.standing hbudget) ?_ (fun k hk => ?_) k
    · simp [standing]
    · simp [standing, hk]
  | endBackoff j =>
    refine shifts_of_at j .endBackoff ?_ (fun k hk => ?_) k
    · simp [standing]
    · simp [standing, hk]
  | expire n e hp =>
    refine shifts_of_at e.clientMsgId .expire ?_ (fun k hk => ?_) k
    · simp [standing, forget, record, Standing.gone, attempts_popped]
    · simp [standing, forget, record, hk, attempts_popped]
  | release inFlight' hres hkeep =>
    rcases hkeep k with hk | hk
    · simpa [Shifts, standing, hk] using same
    · have hshift : Shift sc k (v.standing k) _ := .release hres
      simpa [Shifts, standing, hk] using hshift
  | heal pops hres hpops =>
    by_cases hk : k ∈ pops
    · have hshift : Shift sc k (v.standing k) _ := .heal hres (hpops k hk)
      simpa [Shifts, standing, record, Standing.forget, hk, attempts_map_popped] using hshift
    · simpa [Shifts, standing, record, hk, attempts_map_popped] using same
  | reset retries' pops hres hpops =>
    have hshift : Shift sc k (v.standing k) _ :=
      .reset hres (retries' k) (attempts k (pops.map .popped ++ v.history))
    simpa [Shifts, standing, record, Standing.gone] using hshift

end Shifts

end FlareIm.Outbox
