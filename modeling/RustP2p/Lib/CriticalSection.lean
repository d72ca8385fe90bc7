import Mathlib.Logic.Function.Basic
import RustP2p.Lib.Transition

/-!
# Sections of code under a lock

Threads call a `Section`: code that takes a lock, works on shared data in atomic turns,
leaves the lock and returns.  A turn may read something from outside.  Between the turns of
one thread every other thread may move, and the data may be looked at.

A section is verified on its own (`Meets`): from data that meet the invariant, each of its
turns keeps what holds within the call, and the last one establishes what the call
promises.  Then in every run the calls that have returned took effect one after another, in
the order of their returns (`run_serial`).
-/

namespace CriticalSection

open Transition

variable {θ σ τ α ρ ι : Type}

/-- Code under a lock, for calls with an `α` that return a `ρ`. -/
structure Section (σ τ α ρ ι : Type) where
  enter : α → τ
  turn : ι → σ → τ → σ × (τ ⊕ ρ)

/-- Where a thread is. -/
inductive Pc (τ α ρ : Type) where
  | idle
  | waiting (a : α)
  | inside (a : α) (t : τ)
  | leaving (a : α) (r : ρ)

/-- The threads, the lock and what it protects. -/
structure Threads (θ σ τ α ρ : Type) where
  data : σ
  holder : Option θ
  pc : θ → Pc τ α ρ

/-- Nobody has called. -/
def Threads.start (d : σ) : Threads θ σ τ α ρ := ⟨d, none, fun _ => .idle⟩

/-- What a thread does next. -/
inductive Event (θ α ι : Type) where
  | call (i : θ) (a : α)
  | acquire (i : θ)
  | turn (i : θ) (x : ι)
  | release (i : θ)

section

variable [DecidableEq θ] (sec : Section σ τ α ρ ι)

/-- The thread is somewhere else now. -/
def Threads.goto (s : Threads θ σ τ α ρ) (i : θ) (pc : Pc τ α ρ) : Threads θ σ τ α ρ :=
  { s with pc := Function.update s.pc i pc }

/-- One step of one thread.  Only taking the lock looks at the lock. -/
def step (s : Threads θ σ τ α ρ) : Event θ α ι → Option (Threads θ σ τ α ρ)
  | .call i a =>
      match s.pc i with
      | .idle => some (s.goto i (.waiting a))
      | _ => none
  | .acquire i =>
      match s.pc i, s.holder with
      | .waiting a, none => some { s.goto i (.inside a (sec.enter a)) with holder := some i }
      | _, _ => none
  | .turn i x =>
      match s.pc i with
      | .inside a t =>
          match sec.turn x s.data t with
          | (d, .inl t) => some { s.goto i (.inside a t) with data := d }
          | (d, .inr r) => some { s.goto i (.leaving a r) with data := d }
      | _ => none
  | .release i =>
      match s.pc i with
      | .leaving .. => some { s.goto i .idle with holder := none }
      | _ => none

/-- The call that a step returns from. -/
def returned (s : Threads θ σ τ α ρ) : Event θ α ι → Option (θ × α × ρ)
  | .release i =>
      match s.pc i with
      | .leaving a r => some (i, a, r)
      | _ => none
  | _ => none

end

/-! ## What a section promises -/

/-- The section on its own: `I` holds of the data when the lock is free, `J a d` within a call
with `a` that began with the data `d`, and `Q a d r` of the data when it returns `r`. -/
structure Meets (sec : Section σ τ α ρ ι) (I : σ → Prop) (J : α → σ → τ → σ → Prop)
    (Q : α → σ → ρ → σ → Prop) : Prop where
  enter : ∀ a d, I d → J a d (sec.enter a) d
  turn : ∀ a d x e t e' t', J a d t e → sec.turn x e t = (e', .inl t') → J a d t' e'
  last : ∀ a d x e t e' r, J a d t e → sec.turn x e t = (e', .inr r) → Q a d r e'
  leave : ∀ a d r e, Q a d r e → I e

/-- The calls take effect one after another. -/
inductive Serial (Q : α → σ → ρ → σ → Prop) (d₀ : σ) : List (θ × α × ρ) → σ → Prop where
  | nil : Serial Q d₀ [] d₀
  | snoc {calls : List (θ × α × ρ)} {d e : σ} {i : θ} {a : α} {r : ρ}
      (before : Serial Q d₀ calls d) (effect : Q a d r e) : Serial Q d₀ (calls ++ [(i, a, r)]) e

theorem Serial.last {Q : α → σ → ρ → σ → Prop} {d₀ e : σ} {calls : List (θ × α × ρ)} {i : θ}
    {a : α} {r : ρ} (h : Serial Q d₀ (calls ++ [(i, a, r)]) e) : ∃ d, Q a d r e := by
  generalize hall : calls ++ [(i, a, r)] = all at h
  cases h with
  | nil => simp at hall
  | snoc before effect =>
      obtain ⟨-, heq⟩ := List.append_inj' hall rfl
      cases heq
      exact ⟨_, effect⟩

/-- The thread holds the lock. -/
def Pc.Within : Pc τ α ρ → Prop
  | .inside .. => True
  | .leaving .. => True
  | _ => False

/-- How far the call of the holder is, which began with the data `d`. -/
inductive Progress (J : α → σ → τ → σ → Prop) (Q : α → σ → ρ → σ → Prop) (d e : σ) :
    Pc τ α ρ → Prop where
  | inside {a : α} {t : τ} (h : J a d t e) : Progress J Q d e (.inside a t)
  | leaving {a : α} {r : ρ} (h : Q a d r e) : Progress J Q d e (.leaving a r)

/-- The state after these returns: `d` are the data when the lock was last free. -/
structure Sound (I : σ → Prop) (J : α → σ → τ → σ → Prop) (Q : α → σ → ρ → σ → Prop) (d₀ : σ)
    (calls : List (θ × α × ρ)) (s : Threads θ σ τ α ρ) (d : σ) : Prop where
  serial : Serial Q d₀ calls d
  inv : I d
  exclusive : ∀ i, (s.pc i).Within → s.holder = some i
  free : s.holder = none → s.data = d
  held : ∀ i, s.holder = some i → Progress J Q d s.data (s.pc i)

section

variable [DecidableEq θ] {sec : Section σ τ α ρ ι} {I : σ → Prop} {J : α → σ → τ → σ → Prop}
  {Q : α → σ → ρ → σ → Prop} {d₀ d : σ} {calls : List (θ × α × ρ)} {s s' : Threads θ σ τ α ρ}

@[simp] theorem goto_self (i : θ) (pc : Pc τ α ρ) : (s.goto i pc).pc i = pc :=
  Function.update_self ..

theorem goto_of_ne {i j : θ} (h : j ≠ i) (pc : Pc τ α ρ) : (s.goto i pc).pc j = s.pc j :=
  Function.update_of_ne h ..

@[simp] theorem goto_data (i : θ) (pc : Pc τ α ρ) : (s.goto i pc).data = s.data := rfl

@[simp] theorem goto_holder (i : θ) (pc : Pc τ α ρ) : (s.goto i pc).holder = s.holder := rfl

theorem Progress.within {e : σ} {pc : Pc τ α ρ} (h : Progress J Q d e pc) : pc.Within := by
  cases h <;> exact trivial

/-- A thread that is outside before and after does not matter. -/
theorem Sound.outside (h : Sound I J Q d₀ calls s d) {i : θ} {pc : Pc τ α ρ}
    (hbefore : ¬ (s.pc i).Within) (hafter : ¬ pc.Within) :
    Sound I J Q d₀ calls (s.goto i pc) d := by
  refine ⟨h.serial, h.inv, fun j hj => ?_, h.free, fun j hj => ?_⟩
  · by_cases hji : j = i
    · subst hji
      rw [goto_self] at hj
      exact absurd hj hafter
    · rw [goto_of_ne hji] at hj
      exact h.exclusive j hj
  · have hprogress := h.held j hj
    have hji : j ≠ i := by
      rintro rfl
      exact hbefore hprogress.within
    rw [goto_of_ne hji]
    exact hprogress

/-- The holder moves within its call. -/
theorem Sound.moves (h : Sound I J Q d₀ calls s d) {i : θ} {pc : Pc τ α ρ} {e : σ}
    (hholder : s.holder = some i) (hprogress : Progress J Q d e pc) :
    Sound I J Q d₀ calls { s.goto i pc with data := e } d := by
  refine ⟨h.serial, h.inv, fun j hj => ?_, fun hfree => ?_, fun j hj => ?_⟩
  · by_cases hji : j = i
    · exact hji ▸ hholder
    · exact h.exclusive j (by rwa [← goto_of_ne hji])
  · cases hholder.symm.trans hfree
  · obtain rfl := Option.some.inj (hholder.symm.trans hj)
    change Progress J Q d e ((s.goto i pc).pc i)
    rwa [goto_self]

theorem sound_step {e : Event θ α ι} (hsec : Meets sec I J Q) (h : Sound I J Q d₀ calls s d)
    (hstep : step sec s e = some s') :
    ∃ d', Sound I J Q d₀ (calls ++ (returned s e).toList) s' d' := by
  cases e with
  | call i a =>
      simp only [step] at hstep
      split at hstep
      next hpc =>
        cases hstep
        refine ⟨d, ?_⟩
        simpa [returned] using h.outside (by simp [hpc, Pc.Within]) (by simp [Pc.Within])
      next => cases hstep
  | acquire i =>
      simp only [step] at hstep
      split at hstep
      next a hpc hholder =>
        cases hstep
        refine ⟨d, by simpa [returned] using h.serial, h.inv, fun j hj => ?_, fun hfree => ?_,
          fun j hj => ?_⟩
        · by_cases hji : j = i
          · exact hji ▸ rfl
          · have hj' := h.exclusive j (by rwa [← goto_of_ne hji])
            rw [hholder] at hj'
            cases hj'
        · cases hfree
        · obtain rfl := Option.some.inj hj
          change Progress J Q d s.data ((s.goto i _).pc i)
          rw [goto_self, h.free hholder]
          exact .inside (hsec.enter a d h.inv)
      next => cases hstep
  | turn i x =>
      simp only [step] at hstep
      split at hstep
      next a t hpc =>
        have hholder := h.exclusive i (by simp [hpc, Pc.Within])
        have hprogress := h.held i hholder
        rw [hpc] at hprogress
        obtain ⟨hJ⟩ := hprogress
        refine ⟨d, ?_⟩
        split at hstep
        next e' t' hturn =>
          cases hstep
          simpa [returned] using h.moves hholder (.inside (hsec.turn _ _ _ _ _ _ _ hJ hturn))
        next e' r hturn =>
          cases hstep
          simpa [returned] using h.moves hholder (.leaving (hsec.last _ _ _ _ _ _ _ hJ hturn))
      next => cases hstep
  | release i =>
      simp only [step] at hstep
      split at hstep
      next a r hpc =>
        have hholder := h.exclusive i (by simp [hpc, Pc.Within])
        have hprogress := h.held i hholder
        rw [hpc] at hprogress
        cases hprogress with
        | leaving hQ =>
            cases hstep
            refine ⟨s.data, by simpa [returned, hpc] using h.serial.snoc hQ,
              hsec.leave _ _ _ _ hQ, fun j hj => ?_, fun _ => rfl, fun j hj => by cases hj⟩
            -- Nobody else is within: the lock was held by the one that leaves it.
            by_cases hji : j = i
            · subst hji
              change ((s.goto j .idle).pc j).Within at hj
              rw [goto_self] at hj
              exact absurd hj (by simp [Pc.Within])
            · have hj' := h.exclusive j (by rwa [← goto_of_ne hji])
              exact absurd (Option.some.inj (hj'.symm.trans hholder)) hji
      next => cases hstep

/-- Whatever the interleaving, the calls that have returned took effect one after another, in
the order of their returns, and the one that holds the lock began where they ended. -/
theorem run_serial {es : List (Event θ α ι)} (hsec : Meets sec I J Q) (hI : I d₀)
    (hrun : run (step sec) (.start d₀) es = some s) :
    ∃ d, Sound I J Q d₀ (outputs (step sec) returned (.start d₀) es) s d := by
  refine run_history
    (P := fun es s => ∃ d, Sound I J Q d₀ (outputs (step sec) returned (.start d₀) es) s d)
    ⟨d₀, .nil, hI, fun _ hi => by simp [Threads.start, Pc.Within] at hi, fun _ => rfl,
      fun _ hi => by cases hi⟩ ?_ hrun
  intro es s e s' hpre h hstep
  obtain ⟨d, hd⟩ := h
  rw [outputs_concat hpre]
  exact sound_step hsec hd hstep

end

end CriticalSection
