import Mathlib.Logic.Relation
import Mathlib.Logic.Function.Basic

/-! Fallible programs over a state. A program returns a value or stops with an
error, and keeps the state reached so far in both cases: an error leaves the
writes made before it in place. `attempt` turns the error of a call into a value,
which is how a caller that logs an error and goes on is written. The loop rules
are about `List.foldlM` and carry two things through a loop: an invariant that may
mention the elements still to come, and a reflexive and transitive relation
between the state before the loop and the state after it. `Within` is about such a
relation alone, and holds whether the program returns or fails; `Yields` is about the
runs that return, `Leads` about what either outcome says, and `Guards` keeps an invariant
whatever happens while it says more of the runs that return. -/

namespace FlareIm.Lib

/-- A program over states `σ` with errors `ε` and results `α`. -/
structure Prog (σ ε α : Type) where
  run : σ → Except ε α × σ

namespace Prog

variable {σ ε α β : Type}

instance : Monad (Prog σ ε) where
  pure a := ⟨fun s => (.ok a, s)⟩
  bind x f := ⟨fun s => match x.run s with
    | (.ok a, t) => (f a).run t
    | (.error e, t) => (.error e, t)⟩

def get : Prog σ ε σ := ⟨fun s => (.ok s, s)⟩

def modify (f : σ → σ) : Prog σ ε Unit := ⟨fun s => (.ok (), f s)⟩

def fail (e : ε) : Prog σ ε α := ⟨fun s => (.error e, s)⟩

/-- Run a call and hand its error to the caller as a value. -/
def attempt (x : Prog σ ε α) : Prog σ ε (Except ε α) := ⟨fun s => (.ok (x.run s).1, (x.run s).2)⟩

@[simp] theorem pure_run (a : α) (s : σ) : (pure a : Prog σ ε α).run s = (.ok a, s) := rfl

@[simp] theorem get_run (s : σ) : (get : Prog σ ε σ).run s = (.ok s, s) := rfl

@[simp] theorem modify_run (f : σ → σ) (s : σ) : (modify f : Prog σ ε Unit).run s = (.ok (), f s) :=
  rfl

@[simp] theorem attempt_run (x : Prog σ ε α) (s : σ) : (attempt x).run s = (.ok (x.run s).1, (x.run s).2) := rfl

theorem bind_run (x : Prog σ ε α) (f : α → Prog σ ε β) (s : σ) : (x >>= f).run s = match x.run s with
      | (.ok a, t) => (f a).run t
      | (.error e, t) => (.error e, t) := rfl

variable {I : List α → β → σ → Prop} {Q : α → σ → Prop} {R : β → σ → Prop}
  {f : α → Prog σ ε β} {s : σ} {x : Prog σ ε α}
  {Q' : α → σ → Prop} {a : α} {g : σ → σ} {t : σ}

section

theorem bind_ok (h : x.run s = (.ok a, t)) : (x >>= f).run s = (f a).run t := by
  rw [bind_run, h]

/-- The state left behind, after a first call whose result is known. -/
theorem bind_state {u : σ}
    (h : x.run s = (.ok a, t)) (hf : ((f a).run t).2 = u) : ((x >>= f).run s).2 = u := by
  rw [bind_ok h, hf]

theorem exists_of_bind_ok {b : β} (h : (x >>= f).run s = (.ok b, t)) :
    ∃ a u, x.run s = (.ok a, u) ∧ (f a).run u = (.ok b, t) := by
  rw [bind_run] at h
  rcases hx : x.run s with ⟨_ | a, u⟩
  · rw [hx] at h
    exact absurd (Prod.mk.inj h).1 (by simp)
  · rw [hx] at h
    exact ⟨a, u, rfl, h⟩

end

theorem bind_pure_state (x : Prog σ ε α) (f : α → β) (s : σ) :
    ((x >>= fun a => pure (f a)).run s).2 = (x.run s).2 := by
  rw [bind_run]
  split <;> simp_all

@[simp] theorem get_bind (f : σ → Prog σ ε β) (s : σ) : (get >>= f).run s = (f s).run s := rfl

@[simp] theorem modify_bind (g : σ → σ) (f : Unit → Prog σ ε β) (s : σ) :
    (modify g >>= f).run s = (f ()).run (g s) := rfl

@[simp] theorem attempt_bind (x : Prog σ ε α) (f : Except ε α → Prog σ ε β) (s : σ) :
    (attempt x >>= f).run s = (f (x.run s).1).run (x.run s).2 := rfl

/-- `x` started in `s` returns a value, and the value and the state it leaves satisfy `Q`. -/
def Ensures (x : Prog σ ε α) (s : σ) (Q : α → σ → Prop) : Prop :=
  ∃ a t, x.run s = (.ok a, t) ∧ Q a t

namespace Ensures

theorem intro (h : x.run s = (.ok a, t)) (hQ : Q a t) : Ensures x s Q :=
  ⟨a, t, h, hQ⟩

theorem mono (h : Ensures x s Q) (hQ : ∀ a t, Q a t → Q' a t) : Ensures x s Q' := by
  obtain ⟨a, t, hx, hq⟩ := h
  exact ⟨a, t, hx, hQ a t hq⟩

section

theorem bind (h : Ensures x s Q)
    (hf : ∀ a t, Q a t → Ensures (f a) t R) : Ensures (x >>= f) s R := by
  obtain ⟨a, t, hx, hq⟩ := h
  obtain ⟨b, u, hy, hr⟩ := hf a t hq
  exact ⟨b, u, (bind_ok hx).trans hy, hr⟩

theorem bind_of_run
    (h : x.run s = (.ok a, t)) (hf : Ensures (f a) t R) : Ensures (x >>= f) s R := by
  obtain ⟨b, u, hy, hr⟩ := hf
  exact ⟨b, u, (bind_ok h).trans hy, hr⟩

end

/-- The state a program leaves satisfies its postcondition. -/
theorem final (h : Ensures x s Q) : ∃ a, Q a (x.run s).2 := by
  obtain ⟨a, t, hx, hq⟩ := h
  exact ⟨a, by rw [hx]; exact hq⟩

end Ensures

/-- Whenever `x` started in `s` returns a value, the value and the state satisfy `Q`; nothing is
said of a run that fails. -/
def Yields (x : Prog σ ε α) (s : σ) (Q : α → σ → Prop) : Prop :=
  ∀ a t, x.run s = (.ok a, t) → Q a t

namespace Yields

theorem of_run (h : x.run s = (.ok a, t)) (hQ : Q a t) : Yields x s Q := by
  intro b u hb
  rw [h] at hb
  cases hb
  exact hQ

theorem pure (h : Q a s) : Yields (Pure.pure a : Prog σ ε α) s Q := of_run rfl h

theorem modify (f : σ → σ) (s : σ) : Yields (Prog.modify f : Prog σ ε Unit) s fun _ t => t = f s := of_run rfl rfl

theorem mono (h : Yields x s Q) (hQ : ∀ a t, Q a t → Q' a t) : Yields x s Q' :=
  fun a t ht => hQ a t (h a t ht)

theorem bind (h : Yields x s Q)
    (hf : ∀ a t, Q a t → Yields (f a) t R) : Yields (x >>= f) s R := by
  intro b u hb
  rw [bind_run] at hb
  split at hb
  · rename_i a t hx
    exact hf a t (h a t hx) b u hb
  · cases hb

/-- What follows does not depend on the first part. -/
theorem after (hf : ∀ a t, Yields (f a) t R) : Yields (x >>= f) s R :=
  bind (Q := fun _ _ => True) (fun _ _ _ => trivial) fun a t _ => hf a t

theorem get_bind {f : σ → Prog σ ε β} (h : Yields (f s) s R) : Yields (get >>= f) s R := h

theorem modify_bind {f : Unit → Prog σ ε β}
    (h : Yields (f ()) (g s) R) : Yields (Prog.modify g >>= f) s R := h

/-- The loop rule for runs that return. -/
theorem foldlM {f : β → α → Prog σ ε β}
    (step : ∀ x xs b s, I (x :: xs) b s → Yields (f b x) s (I xs)) :
    ∀ (xs : List α) (b : β) (s : σ), I xs b s → Yields (xs.foldlM f b) s (I []) := by
  intro xs
  induction xs with
  | nil => intro b s h; exact pure h
  | cons x xs ih =>
    intro b s h
    rw [List.foldlM_cons]
    exact (step x xs b s h).bind fun c t hc => ih c t hc

end Yields

theorem Ensures.and_yields (h : Ensures x s Q) (h' : Yields x s Q') :
    Ensures x s fun a t => Q a t ∧ Q' a t := by
  obtain ⟨a, t, hx, hq⟩ := h
  exact ⟨a, t, hx, hq, h' a t hx⟩

/-- What `x` started in `s` returns or fails with, and the state it leaves, satisfy `Q`. -/
def Leads (x : Prog σ ε α) (s : σ) (Q : Except ε α → σ → Prop) : Prop := Q (x.run s).1 (x.run s).2

namespace Leads

variable {Q : Except ε α → σ → Prop}

theorem pure (h : Q (.ok a) s) : Leads (Pure.pure a : Prog σ ε α) s Q := h

theorem yields (h : Leads x s Q) : Yields x s fun a t => Q (.ok a) t := by
  intro a t hrun
  rwa [Leads, hrun] at h

theorem get_bind {f : σ → Prog σ ε α} (h : Leads (f s) s Q) : Leads (get >>= f) s Q := h

theorem modify_bind {f : Unit → Prog σ ε α} (h : Leads (f ()) (g s) Q) :
    Leads (Prog.modify g >>= f) s Q := h

/-- The second call starts where the first one ended; an error of the first one ends both. -/
theorem bind {R : Except ε β → σ → Prop} (h : Leads x s Q)
    (hok : ∀ a t, Q (.ok a) t → Leads (f a) t R) (herror : ∀ e t, Q (.error e) t → R (.error e) t) :
    Leads (x >>= f) s R := by
  unfold Leads at h ⊢
  rw [bind_run]
  rcases hx : x.run s with ⟨_ | _, t⟩
  · rw [hx] at h
    exact herror _ t h
  · rw [hx] at h
    exact hok _ t h

end Leads

/-- `I` holds where `x` ends, however it ends, and `Q` where it returns. -/
def Guards (I : σ → Prop) (x : Prog σ ε α) (s : σ) (Q : α → σ → Prop) : Prop := I (x.run s).2 ∧ Yields x s Q

namespace Guards

variable {I : σ → Prop}

theorem pure (hI : I s) (h : Q a s) : Guards I (Pure.pure a : Prog σ ε α) s Q := ⟨hI, .pure h⟩

theorem fail (e : ε) (hI : I s) : Guards I (Prog.fail e : Prog σ ε α) s Q := ⟨hI, fun _ _ h => by cases h⟩

theorem modify {f : σ → σ} {Q : Unit → σ → Prop} (hI : I (f s)) (h : Q () (f s)) :
    Guards I (Prog.modify f : Prog σ ε Unit) s Q := ⟨hI, .of_run rfl h⟩

theorem mono (h : Guards I x s Q) (hQ : ∀ a t, Q a t → Q' a t) : Guards I x s Q' :=
  ⟨h.1, h.2.mono hQ⟩

theorem bind (h : Guards I x s Q)
    (hf : ∀ a t, I t → Q a t → Guards I (f a) t R) : Guards I (x >>= f) s R := by
  obtain ⟨hI, hQ⟩ := h
  rcases hx : x.run s with ⟨_ | a, t⟩
  · rw [hx] at hI
    refine ⟨?_, fun b u hb => ?_⟩
    · rw [bind_run, hx]
      exact hI
    · rw [bind_run, hx] at hb
      cases hb
  · rw [hx] at hI
    obtain ⟨hI', hR⟩ := hf a t hI (hQ a t hx)
    refine ⟨?_, fun b u hb => hR b u ?_⟩
    · rw [bind_ok hx]
      exact hI'
    · rwa [bind_ok hx] at hb

theorem get_bind {f : σ → Prog σ ε β} (h : Guards I (f s) s R) : Guards I (get >>= f) s R := h

theorem foldlM {f : β → α → Prog σ ε β} {J : List α → β → σ → Prop}
    (step : ∀ x xs b s, I s → J (x :: xs) b s → Guards I (f b x) s (J xs)) :
    ∀ (xs : List α) (b : β) (s : σ), I s → J xs b s → Guards I (xs.foldlM f b) s (J []) := by
  intro xs
  induction xs with
  | nil => intro b s hI h; exact pure hI h
  | cons x xs ih =>
    intro b s hI h
    rw [List.foldlM_cons]
    exact (step x xs b s hI h).bind fun c t hI hc => ih c t hI hc

end Guards

section Loops

variable {f : β → α → Prog σ ε β} {R : σ → σ → Prop}

/-- The loop rule: the body takes the invariant for `x :: xs` to the invariant for `xs` and
relates the state before it to the state after it. -/
theorem foldlM_ensures [Std.Refl R] [IsTrans σ R]
    (step : ∀ x xs b s, I (x :: xs) b s → Ensures (f b x) s (fun c t => R s t ∧ I xs c t)) :
    ∀ (xs : List α) (b : β) (s : σ), I xs b s → Ensures (xs.foldlM f b) s (fun c t => R s t ∧ I [] c t) := by
  intro xs
  induction xs with
  | nil =>
    intro b s h
    exact ⟨b, s, rfl, refl_of R s, h⟩
  | cons x xs ih =>
    intro b s h
    rw [List.foldlM_cons]
    refine (step x xs b s h).bind fun c t hc => ?_
    refine (ih c t hc.2).mono fun d u hd => ?_
    exact ⟨trans_of R hc.1 hd.1, hd.2⟩

end Loops

/-- Whatever `x` returns, the state it leaves is related to the one it started in. -/
def Within (R : σ → σ → Prop) (x : Prog σ ε α) : Prop := ∀ s, R s (x.run s).2

namespace Within

variable {R : σ → σ → Prop}

theorem pure [Std.Refl R] (a : α) : Within R (Pure.pure a : Prog σ ε α) := fun s => refl_of R s

theorem modify {f : σ → σ} (h : ∀ s, R s (f s)) : Within R (Prog.modify f : Prog σ ε Unit) := h

theorem attempt (h : Within R x) : Within R (Prog.attempt x) := h

section

variable [IsTrans σ R] (h : Within R x)

include h

/-- As `bind`, for a continuation that relies on what the first call returned, and where. -/
theorem bind_of
    (hf : ∀ s a t, x.run s = (.ok a, t) → R t ((f a).run t).2) : Within R (x >>= f) := by
  intro s
  have hx := h s
  rw [bind_run]
  split
  · rename_i a t heq
    rw [heq] at hx
    exact trans_of R hx (hf s a t heq)
  · rename_i e t heq
    rw [heq] at hx
    exact hx

theorem bind (hf : ∀ a, Within R (f a)) : Within R (x >>= f) :=
  h.bind_of fun _ a t _ => hf a t

end

/-- What follows may rely on the state it has read being the one it starts in. -/
theorem get_bind_of {f : σ → Prog σ ε β} (hf : ∀ s, Leads (f s) s fun _ t => R s t) : Within R (get >>= f) := hf

theorem get_bind {f : σ → Prog σ ε β} (hf : ∀ s, Within R (f s)) : Within R (get >>= f) :=
  fun s => hf s s

theorem fail [Std.Refl R] (e : ε) : Within R (Prog.fail e : Prog σ ε α) := fun s => refl_of R s

theorem ite {c : Prop} [Decidable c] {y : Prog σ ε α} (hx : Within R x) (hy : Within R y) :
    Within R (if c then x else y) := by
  split
  · exact hx
  · exact hy

theorem mono {S : σ → σ → Prop} (h : Within R x) (hRS : ∀ s t, R s t → S s t) : Within S x :=
  fun s => hRS _ _ (h s)

variable [Std.Refl R] [IsTrans σ R] {f : β → α → Prog σ ε β}

theorem foldlM_mem : ∀ {xs : List α}, (∀ b, ∀ a ∈ xs, Within R (f b a)) → ∀ b : β, Within R (xs.foldlM f b)
  | [], _, b => .pure b
  | a :: _, h, b => .bind (h b a List.mem_cons_self) fun c =>
    foldlM_mem (fun b a' ha' => h b a' (List.mem_cons_of_mem a ha')) c

theorem foldlM (h : ∀ b a, Within R (f b a)) (xs : List α) (b : β) : Within R (xs.foldlM f b) :=
  foldlM_mem (fun b a _ => h b a) b

end Within

/-! ### Programs on a part of the state -/

section Parts

variable {τ : Type} (view : σ → τ) (set : τ → σ → σ)

/-- Run a program on the part of the state that it knows. -/
def onPart (x : Prog τ ε α) : Prog σ ε α := ⟨fun s => ((x.run (view s)).1, set (x.run (view s)).2 s)⟩

variable {view set} in
theorem Yields.onPart {x : Prog τ ε α} (h : x.Yields (view s) fun a t => Q a (set t s)) :
    (x.onPart view set).Yields s Q := by
  intro a t hrun
  obtain ⟨hresult, rfl⟩ := Prod.mk.inj hrun
  exact h a _ (Prod.ext hresult rfl)

end Parts

end Prog

end FlareIm.Lib
