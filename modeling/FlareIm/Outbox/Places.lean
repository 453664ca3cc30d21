import FlareIm.Outbox.Standing

/-! Where a message can stand. In flight, awaited and backing off exclude each other in every
run. A message that stands at one of these places is still pending, unless a resume found
its rows to be another account's: that resume deletes the pending entry and its backoff, but
leaves the two maps of tracked messages as they are. -/

namespace FlareIm.Outbox

open Lib Message Store KeyedMap

namespace Standing

/-- The message stands at one place at most. -/
def Apart (x : Standing) : Prop :=
  (x.inFlight = none ∨ x.awaiting = none) ∧ (x.inFlight = none ∨ x.backoff = none) ∧
    (x.awaiting = none ∨ x.backoff = none)

/-- The message is pending or stands nowhere. -/
def Backed (x : Standing) : Prop :=
  x.pending ≠ none ∨ (x.inFlight = none ∧ x.awaiting = none ∧ x.backoff = none)

end Standing

section Shifts

variable {sc : Scope} {k : String} {x y : Standing}

theorem Shift.apart (h : Shift sc k x y) (hx : x.Apart) : y.Apart := by
  obtain ⟨hfa, hfb, hab⟩ := hx
  cases h with
  | settle src h =>
    cases src with
    | inFlight => exact ⟨.inl rfl, .inl rfl, hab⟩
    | awaiting => exact ⟨.inr rfl, hfb, .inl rfl⟩
    | queued => exact ⟨hfa, .inr rfl, .inr rfl⟩
  | accept src h e =>
    cases src with
    | inFlight => exact ⟨.inl rfl, .inl rfl, .inr (hfb.resolve_left h)⟩
    | awaiting => exact ⟨.inl (hfa.resolve_right h), hfb, .inr (hab.resolve_left h)⟩
    | queued => exact ⟨.inl h.2.1, .inr rfl, .inr rfl⟩
  | retryLater src h hbudget =>
    cases src with
    | inFlight => exact ⟨.inl rfl, .inl rfl, .inl (hfa.resolve_left h)⟩
    | awaiting => exact ⟨.inr rfl, .inl (hfa.resolve_right h), .inl rfl⟩
    | queued => exact ⟨.inl h.2.1, .inl h.2.1, .inl h.2.2⟩
  | dispatch e hp hfly hawait hback hbudget => exact ⟨.inr hawait, .inr hback, hab⟩
  | resend src hsrc h e hid htime hbudget n hn =>
    cases src with
    | inFlight => exact ⟨.inr (hfa.resolve_left h), .inr (hfb.resolve_left h), hab⟩
    | awaiting => exact ⟨.inr rfl, .inr (hab.resolve_left h), .inl rfl⟩
    | queued => exact absurd rfl hsrc
  | endBackoff => exact ⟨hfa, .inr rfl, .inr rfl⟩
  | expire => exact ⟨.inl rfl, .inl rfl, .inl rfl⟩
  | release hres => exact ⟨.inl rfl, .inl rfl, hab⟩
  | heal hres h => exact ⟨hfa, .inr rfl, .inr rfl⟩
  | reset hres retries n => exact ⟨.inl rfl, .inl rfl, .inl rfl⟩
  | _ => exact ⟨hfa, hfb, hab⟩

/-- Only healing removes the entry of a message and leaves the message where it stands. -/
theorem Shift.backed (h : Shift sc k x y) (hstrand : ¬ sc.strands k) (hapart : x.Apart) (hx : x.Backed) :
    y.Backed := by
  obtain ⟨hfa, hfb, hab⟩ := hapart
  have stored : ∀ src, x.Holds src → x.pending ≠ none := fun src h => by
    rcases hx with hp | ⟨hfly, hawait, -⟩
    · exact hp
    · cases src with
      | inFlight => exact absurd hfly h
      | awaiting => exact absurd hawait h
      | queued => exact h.1
  cases h with
  | stay => exact hx
  | store p => exact .inl (by simp)
  | settle src h =>
    cases src with
    | inFlight => exact .inr ⟨rfl, hfa.resolve_left h, hfb.resolve_left h⟩
    | awaiting => exact .inr ⟨hfa.resolve_right h, rfl, hab.resolve_left h⟩
    | queued => exact .inr ⟨h.2.1, h.2.2, rfl⟩
  | accept src h e => cases src <;> exact .inl (stored _ h)
  | retryLater src h hbudget => cases src <;> exact .inl (stored _ h)
  | dispatch e hp hfly hawait hback hbudget => exact .inl hp
  | resend src hsrc h e hid htime hbudget n hn => cases src <;> exact .inl (stored _ h)
  | attemptFailed h hbudget => exact .inl (stored .inFlight h)
  | endBackoff => exact hx.imp_right fun hx => ⟨hx.1, hx.2.1, rfl⟩
  | release hres => exact hx.imp_right fun hx => ⟨rfl, hx.2⟩
  | heal hres h =>
    have hnone : ¬ (x.inFlight ≠ none ∨ x.awaiting ≠ none) := fun htracked => hstrand (h htracked)
    push Not at hnone
    exact .inr ⟨hnone.1, hnone.2, rfl⟩
  | _ => exact .inr ⟨rfl, rfl, rfl⟩

end Shifts

/-! ### Runs -/

/-- The three sets of ids are pairwise disjoint, and every id in them has a pending entry. -/
structure PlacesConsistent (s : QueueState) : Prop where
  inFlight_awaiting : ∀ k ∈ s.inFlight.keys, k ∉ s.awaitingDurable.keys
  inFlight_backoff : ∀ k ∈ s.inFlight.keys, k ∉ s.retryBackoff.keys
  awaiting_backoff : ∀ k ∈ s.awaitingDurable.keys, k ∉ s.retryBackoff.keys
  pending : ∀ k, k ∈ s.inFlight.keys ∨ k ∈ s.awaitingDurable.keys ∨ k ∈ s.retryBackoff.keys →
    k ∈ s.pending.byId.keys

theorem placesConsistent_of_standing {s : QueueState} (hapart : ∀ k, (s.view.standing k).Apart)
    (hbacked : ∀ k, (s.view.standing k).Backed) : PlacesConsistent s := by
  have apart : ∀ k, (k ∉ s.inFlight.keys ∨ k ∉ s.awaitingDurable.keys) ∧
      (k ∉ s.inFlight.keys ∨ k ∉ s.retryBackoff.keys) ∧
      (k ∉ s.awaitingDurable.keys ∨ k ∉ s.retryBackoff.keys) := by
    simpa only [Standing.Apart, View.standing, QueueState.view, lookup_eq_none_iff,
      find?_eq_none_iff] using hapart
  refine ⟨fun k hk => (apart k).1.resolve_left (not_not.mpr hk),
    fun k hk => (apart k).2.1.resolve_left (not_not.mpr hk),
    fun k hk => (apart k).2.2.resolve_left (not_not.mpr hk), fun k hk => ?_⟩
  have hback := hbacked k
  simp only [Standing.Backed, View.standing, QueueState.view, lookup_eq_none_iff,
    find?_eq_none_iff, ← mem_keys_iff_find?] at hback
  tauto

/-- In every run in which no resume strands a tracked message, the places stay consistent. -/
theorem placesConsistent_run [ProtoCodes] (w : Surroundings) (hw : w.faults = []) (es : List Event)
    (hc : AllSteps step (fun s ev => strands s ev = []) (spawn w) es) :
    PlacesConsistent (run step (spawn w) es) := by
  have hrun := run_view_invariant (I := fun v => ∀ k, (v.standing k).Apart ∧ (v.standing k).Backed)
    (fun s ev _ hnone v v' _ hm hv k => ?_) (fun v user hv => hv) es (spawn_faults hw) ?_ hc
  · exact placesConsistent_of_standing (fun k => (hrun k).1) (fun k => (hrun k).2)
  · have hshift := hm.shifts k
    have hstrand : ¬ (scope s ev).strands k := fun h => by
      have := mem_strands h
      rw [hnone] at this
      cases this
    exact ⟨hshift.apart (hv k).1, hshift.backed hstrand (hv k).1 (hv k).2⟩
  · rw [spawn_view hw]
    exact fun k => ⟨⟨.inl rfl, .inl rfl, .inl rfl⟩, .inr ⟨rfl, rfl, rfl⟩⟩

/-- A message waits for its durable acknowledgement and the outbox resumes, under the same
user or under another one. -/
def resumedRun (userId : String) : List Event :=
  [.send (.enqueue (sampleMessage "c1")), .recv, .send (.ackReceived (sampleAccept "c1")), .recv,
    .setUser userId, .send (.resume true), .recv]

theorem placesConsistent_resumedRun_same_user :
    PlacesConsistent (run (@step sampleCodes alone) (spawn sampleSurroundings) (resumedRun "u1")) :=
  @placesConsistent_run sampleCodes sampleSurroundings rfl (resumedRun "u1") (by decide)

theorem not_placesConsistent_resumedRun_other_user :
    ¬ PlacesConsistent (run (@step sampleCodes alone) (spawn sampleSurroundings) (resumedRun "u2")) := by
  intro h
  exact absurd (h.pending "c1" (.inr (.inl (by decide)))) (by decide)

/-! ### Backoffs -/

/-- A message that backs off does so under its retry count, and it has an attempt left. -/
def Standing.Waits (x : Standing) : Prop := ∀ n ∈ x.backoff, n = x.retries ∧ n < x.maxRetries

theorem Shift.waits {sc : Scope} {k : String} {x y : Standing} (h : Shift sc k x y) (hapart : x.Apart)
    (hx : x.Waits) : y.Waits := by
  obtain ⟨-, hfb, hab⟩ := hapart
  -- what an acknowledgement or a timer takes up does not back off any more
  have taken : ∀ src, x.Holds src → (x.drop src).backoff = none := fun src h => by
    cases src with
    | inFlight => exact hfb.resolve_left h
    | awaiting => exact hab.resolve_left h
    | queued => rfl
  cases h with
  | settle src h => simp [Standing.Waits, Standing.forget, taken src h]
  | accept src h => simp [Standing.Waits, taken src h]
  | retryLater src h hbudget => cases src <;> simp [Standing.Waits, Standing.drop, hbudget]
  | resend src hsrc h => simp [Standing.Waits, taken src h]
  | attemptFailed h => simp [Standing.Waits, hfb.resolve_left h]
  | endBackoff | heal => simp [Standing.Waits]
  | expire | reset => simp [Standing.Waits, Standing.gone]
  | _ => exact hx

/-- Whatever commands, acknowledgements, timers and account changes come, a message that backs off waits
under its current retry count and has an attempt left for when the wait ends. -/
theorem retryBackoff_run [ProtoCodes] (w : Surroundings) (hw : w.faults = []) (es : List Event) (k : String) (n : ℕ)
    (h : (run step (spawn w) es).retryBackoff.find? k = some (k, n)) :
    (run step (spawn w) es).retryCount k = n ∧ n < w.config.maxRetries := by
  have hrun := run_view_invariant (I := fun v => v.maxRetries = w.config.maxRetries ∧
      ∀ k, (v.standing k).Apart ∧ (v.standing k).Waits) (c := fun _ _ => True) ?_ (fun v user hv => hv) es
    (spawn_faults hw) ?_ (AllSteps.intro fun _ _ => trivial)
  · obtain ⟨hcount, hleft⟩ := (hrun.2 k).2 n (lookup_of_find? _ _ h)
    exact ⟨hcount.symm, hleft.trans_eq hrun.1⟩
  · intro s ev _ _ v v' _ hm hv
    refine ⟨hm.maxRetries_eq.trans hv.1, fun k => ⟨(hm.shifts k).apart (hv.2 k).1, ?_⟩⟩
    exact (hm.shifts k).waits (hv.2 k).1 (hv.2 k).2
  · rw [spawn_view hw]
    exact ⟨rfl, fun k => ⟨⟨.inl rfl, .inl rfl, .inl rfl⟩, fun n hn => by cases hn⟩⟩

/-- The server asks for another attempt at the message. -/
def retriedRun : List Event :=
  [.send (.enqueue (sampleMessage "c1")), .recv, .send (.ackReceived ⟨"c1", "", some (.error ⟨15, "", ""⟩)⟩), .recv]

theorem retryBackoff_retriedRun :
    (run (@step sampleCodes alone) (spawn sampleSurroundings) retriedRun).retryCount "c1" = 1 ∧
    1 < sampleConfig.maxRetries :=
  @retryBackoff_run sampleCodes sampleSurroundings rfl retriedRun "c1" 1 (by decide)

end FlareIm.Outbox
