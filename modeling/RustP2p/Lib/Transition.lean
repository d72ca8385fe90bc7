import Mathlib.Algebra.Ring.Nat
import Mathlib.Data.List.Induction

/-!
# Runs of event-driven systems

A system is a partial step function `σ → ε → Option σ`: the step is `none` when
the event is not enabled in the state.  A *run* is the list of its events, and
`run` replays it.  Interleavings of several tasks are runs of one system whose
events say which task moves.

Three rules turn facts about one step into facts about a run.

* `run_invariant`: what every step keeps, the run keeps.
* `run_history`: the same for a property that also speaks of the events so far.
* `run_flip`: a property false at the start and true at the end became true at
  some step of the run.

`Along` says that every step of a run meets a condition on the event and on the
state before it.  The rules have a version for such runs, and when the condition
is exactly what a step needs to keep a property, the property holds all along a
run exactly if the run meets the condition (`invariant_iff_along`).  `history_iff` is
the same for a property and a condition that also speak of the events so far.

When every step under a condition makes a measure smaller, such runs are short
(`length_le_of_measure`); when one can be taken as long as a goal is not reached, one of them
reaches it (`exists_run_of_measure`).

`outputs` lists what the steps of a run put out.  When a part of the state is a
queue, what goes in comes out in the same order (`outputs_fifo`).  When a potential
pays for what comes out, what went in bounds it (`run_potential`).

One system simulates another when each step of the other is a run of the one, with
the same visible events.  Then each run is (`run_simulates`).
-/

namespace Transition

variable {σ ε : Type} {step : σ → ε → Option σ}

/-! ## Replaying a run -/

/-- The state after a list of events, `none` when one of them is not enabled. -/
def run (step : σ → ε → Option σ) : σ → List ε → Option σ
  | s, [] => some s
  | s, e :: es => (step s e).bind fun t => run step t es

@[simp] theorem run_nil (s : σ) : run step s [] = some s := rfl

@[simp] theorem run_cons (s : σ) (e : ε) (es : List ε) :
    run step s (e :: es) = (step s e).bind fun t => run step t es := rfl

theorem run_append (s : σ) (es fs : List ε) :
    run step s (es ++ fs) = (run step s es).bind fun t => run step t fs := by
  induction es generalizing s with
  | nil => rfl
  | cons e es ih =>
      simp only [List.cons_append, run_cons]
      cases step s e with
      | none => rfl
      | some t => exact ih t

/-- A run ending in `e` stops one step before it and then takes that step. -/
theorem run_concat {s t : σ} {es : List ε} {e : ε} (h : run step s (es ++ [e]) = some t) :
    ∃ m, run step s es = some m ∧ step m e = some t := by
  rw [run_append] at h
  cases hm : run step s es with
  | none => rw [hm] at h; cases h
  | some m =>
      rw [hm] at h
      refine ⟨m, rfl, ?_⟩
      cases hs : step m e with
      | none => simp [hs] at h
      | some u => simpa [hs] using h

theorem run_snoc {s m t : σ} {es : List ε} {e : ε} (hm : run step s es = some m)
    (he : step m e = some t) : run step s (es ++ [e]) = some t := by
  rw [run_append, hm]
  simp [he]

/-- A run takes the step behind each of its prefixes. -/
theorem exists_step {s m t : σ} {pre post : List ε} {e : ε}
    (h : run step s (pre ++ e :: post) = some t) (hm : run step s pre = some m) :
    ∃ m', step m e = some m' := by
  rw [run_append, hm, Option.bind_some, run_cons] at h
  obtain ⟨m', hm', -⟩ := Option.bind_eq_some_iff.mp h
  exact ⟨m', hm'⟩

/-- Where a run ends is decided by replaying it. -/
instance decidableEnds {P : σ → Prop} [DecidablePred P] (s : σ) (es : List ε) :
    Decidable (∃ t, run step s es = some t ∧ P t) :=
  inferInstanceAs (Decidable (∃ t ∈ run step s es, P t))

/-! ## Induction over runs -/

/-- What one step keeps, a whole run keeps. -/
theorem run_invariant {I : σ → Prop} (keep : ∀ s e t, step s e = some t → I s → I t)
    {s t : σ} {es : List ε} (h : run step s es = some t) (hs : I s) : I t := by
  induction es generalizing s with
  | nil => cases h; exact hs
  | cons e es ih =>
      rw [run_cons] at h
      cases he : step s e with
      | none => rw [he] at h; cases h
      | some m =>
          rw [he] at h
          exact ih h (keep s e m he hs)

/-- Induction on a run with its history: the property speaks of the events so
far and of the state they lead to. -/
theorem run_history {s₀ : σ} {P : List ε → σ → Prop} (nil : P [] s₀)
    (snoc : ∀ es s e t, run step s₀ es = some s → P es s → step s e = some t → P (es ++ [e]) t)
    {es : List ε} {t : σ} (h : run step s₀ es = some t) : P es t := by
  induction es using List.reverseRecOn generalizing t with
  | nil => cases h; exact nil
  | append_singleton es e ih =>
      obtain ⟨m, hm, he⟩ := run_concat h
      exact snoc es m e t hm (ih hm) he

/-- A property that is false at the start of a run and true at its end became
true at some step. -/
theorem run_flip {Q : σ → Prop} {s t : σ} {es : List ε} (h : run step s es = some t)
    (hs : ¬ Q s) (ht : Q t) :
    ∃ pre e post m m', es = pre ++ e :: post ∧ run step s pre = some m ∧
      step m e = some m' ∧ ¬ Q m ∧ Q m' := by
  refine run_history (P := fun es t => Q t → ∃ pre e post m m', es = pre ++ e :: post ∧
    run step s pre = some m ∧ step m e = some m' ∧ ¬ Q m ∧ Q m') ?_ ?_ h ht
  · intro hq
    exact absurd hq hs
  · intro es m e u hm ih he hu
    by_cases hq : Q m
    · obtain ⟨pre, e', post, m₁, m₂, rfl, h₁, h₂, h₃, h₄⟩ := ih hq
      exact ⟨pre, e', post ++ [e], m₁, m₂, by simp, h₁, h₂, h₃, h₄⟩
    · exact ⟨es, e, [], m, u, rfl, hm, he, hq, hu⟩

/-! ## Runs under a condition -/

/-- Every event of the run meets `C` in the state it is taken in. -/
def Along (step : σ → ε → Option σ) (C : σ → ε → Prop) : σ → List ε → Prop
  | _, [] => True
  | s, e :: es => C s e ∧ match step s e with
      | none => True
      | some t => Along step C t es

@[simp] theorem along_nil {C : σ → ε → Prop} (s : σ) : Along step C s [] := trivial

theorem along_append {C : σ → ε → Prop} {s m : σ} {es fs : List ε} (hm : run step s es = some m) :
    Along step C s (es ++ fs) ↔ Along step C s es ∧ Along step C m fs := by
  induction es generalizing s with
  | nil => cases hm; simp
  | cons e es ih =>
      rw [run_cons] at hm
      cases he : step s e with
      | none => rw [he] at hm; cases hm
      | some t =>
          rw [he] at hm
          simp only [List.cons_append, Along, he, ih hm, and_assoc]

/-- The last step of such a run, and the run before it. -/
theorem along_concat {C : σ → ε → Prop} {s m : σ} {es : List ε} {e : ε}
    (hm : run step s es = some m) (h : Along step C s (es ++ [e])) :
    Along step C s es ∧ C m e := by
  rw [along_append hm] at h
  exact ⟨h.1, h.2.1⟩

theorem Along.mono {C D : σ → ε → Prop} {s : σ} {es : List ε} (h : Along step C s es)
    (hCD : ∀ s e, C s e → D s e) : Along step D s es := by
  induction es generalizing s with
  | nil => trivial
  | cons e es ih =>
      obtain ⟨he, hes⟩ := h
      refine ⟨hCD s e he, ?_⟩
      cases hstep : step s e with
      | none => trivial
      | some t =>
          rw [hstep] at hes
          exact ih hes

/-- A run is checked step by step. -/
instance decidableAlong {C : σ → ε → Prop} [∀ s e, Decidable (C s e)] (s : σ) (es : List ε) :
    Decidable (Along step C s es) :=
  match es with
  | [] => isTrue trivial
  | e :: es =>
      have : Decidable (match step s e with
          | none => True
          | some t => Along step C t es) :=
        match step s e with
        | none => isTrue trivial
        | some t => decidableAlong t es
      instDecidableAnd

/-- `run_history` for runs whose steps all meet a condition. -/
theorem run_history_along {C : σ → ε → Prop} {s₀ : σ} {P : List ε → σ → Prop} (nil : P [] s₀)
    (snoc : ∀ es s e t, run step s₀ es = some s → C s e → P es s → step s e = some t →
      P (es ++ [e]) t)
    {es : List ε} {t : σ} (h : run step s₀ es = some t) (hC : Along step C s₀ es) : P es t := by
  refine run_history (P := fun es t => Along step C s₀ es → P es t) ?_ ?_ h hC
  · intro _
    exact nil
  · intro es s e t hs ih he hC
    obtain ⟨hpre, hlast⟩ := along_concat hs hC
    exact snoc es s e t hs hlast (ih hpre) he

/-- `run_invariant` for runs whose steps all meet a condition. -/
theorem run_invariant_along {C : σ → ε → Prop} {I : σ → Prop}
    (keep : ∀ s e t, C s e → step s e = some t → I s → I t)
    {s t : σ} {es : List ε} (h : run step s es = some t) (hC : Along step C s es) (hs : I s) :
    I t :=
  run_history_along (P := fun _ t => I t) hs (fun _ m e u _ hc hi he => keep m e u hc he hi) h hC

/-- A condition along a run, by the places of the run. -/
theorem along_iff {C : σ → ε → Prop} {s t : σ} {es : List ε} (h : run step s es = some t) :
    Along step C s es ↔
      ∀ pre e post m, es = pre ++ e :: post → run step s pre = some m → C m e := by
  constructor
  · rintro hC pre e post m rfl hm
    rw [along_append hm] at hC
    exact hC.2.1
  · intro hC
    refine run_history (P := fun fs _ => (∃ post, es = fs ++ post) → Along step C s fs) ?_ ?_ h
      ⟨[], by simp⟩
    · intro _
      exact along_nil s
    · rintro fs m e u hm ih _ ⟨post, rfl⟩
      rw [along_append hm]
      refine ⟨ih ⟨e :: post, by simp⟩, hC fs e post m (by simp) hm, ?_⟩
      split <;> trivial

/-- When a step keeps `I` exactly if it meets `C`, a run keeps `I` all the way exactly
if all its steps meet `C`.  Both may speak of the events so far. -/
theorem history_iff {I : List ε → σ → Prop} {C : List ε → σ → ε → Prop} {s t : σ} {es : List ε}
    (h : run step s es = some t) (hs : I [] s)
    (hstep : ∀ pre m e m', pre ++ [e] <+: es → run step s pre = some m → step m e = some m' →
      I pre m → (I (pre ++ [e]) m' ↔ C pre m e)) :
    (∀ pre m, pre <+: es → run step s pre = some m → I pre m) ↔
      ∀ pre e post m, es = pre ++ e :: post → run step s pre = some m → C pre m e := by
  constructor
  · rintro hI pre e post m rfl hm
    obtain ⟨m', hm'⟩ := exists_step h hm
    have hpre : pre ++ [e] <+: pre ++ e :: post := ⟨post, by simp⟩
    have hlast := hI (pre ++ [e]) m' hpre (run_snoc hm hm')
    exact (hstep pre m e m' hpre hm hm' (hI pre m ⟨e :: post, rfl⟩ hm)).mp hlast
  · intro hC pre m hpre hm
    refine run_history (P := fun fs m => fs <+: es → I fs m) ?_ ?_ hm hpre
    · intro _
      exact hs
    · intro fs m e m' hm ih he h
      obtain ⟨post, rfl⟩ := h
      refine (hstep fs m e m' ⟨post, rfl⟩ hm he (ih ⟨e :: post, by simp⟩)).mpr ?_
      exact hC fs e post m (by simp) hm

/-- `history_iff` for a property and a condition on the state alone. -/
theorem invariant_iff_along {I : σ → Prop} {C : σ → ε → Prop} {s t : σ} {es : List ε}
    (h : run step s es = some t) (hs : I s)
    (hstep : ∀ pre m e m', run step s pre = some m → step m e = some m' → I m → (I m' ↔ C m e)) :
    (∀ pre m, pre <+: es → run step s pre = some m → I m) ↔ Along step C s es := by
  rw [along_iff h]
  exact history_iff (I := fun _ => I) (C := fun _ => C) h hs
    fun pre m e m' _ => hstep pre m e m'

/-! ## Runs that come to an end -/

section Measure

variable {C : σ → ε → Prop} {I : σ → Prop} {μ : σ → Nat}

/-- When each step makes the measure smaller, it bounds the length of a run. -/
theorem length_le_of_measure
    (keep : ∀ s e t, C s e → step s e = some t → I s → I t ∧ μ t < μ s)
    {s t : σ} {es : List ε} (h : run step s es = some t) (hC : Along step C s es) (hs : I s) :
    I t ∧ es.length + μ t ≤ μ s := by
  refine run_history_along (P := fun es t => I t ∧ es.length + μ t ≤ μ s) ⟨hs, by simp⟩ ?_ h hC
  rintro es m e u - hc ⟨hI, hlen⟩ he
  obtain ⟨hu, hlt⟩ := keep m e u hc he hI
  refine ⟨hu, ?_⟩
  rw [List.length_append, List.length_singleton]
  omega

/-- When such a step can be taken as long as the goal is not reached, some run reaches it. -/
theorem exists_run_of_measure {Q : σ → Prop}
    (keep : ∀ s e t, C s e → step s e = some t → I s → I t ∧ μ t < μ s)
    (progress : ∀ s, I s → Q s ∨ ∃ e t, C s e ∧ step s e = some t) {s : σ} (hs : I s) :
    ∃ es t, run step s es = some t ∧ Along step C s es ∧ Q t := by
  induction hn : μ s using Nat.strong_induction_on generalizing s with
  | _ n ih =>
      rcases progress s hs with hQ | ⟨e, t, hc, he⟩
      · exact ⟨[], s, rfl, along_nil s, hQ⟩
      · obtain ⟨ht, hlt⟩ := keep s e t hc he hs
        obtain ⟨es, u, hes, halong, hQ⟩ := ih (μ t) (hn ▸ hlt) ht rfl
        refine ⟨e :: es, u, ?_, ?_, hQ⟩
        · rw [run_cons, he]
          exact hes
        · rw [Along, he]
          exact ⟨hc, halong⟩

end Measure

/-! ## What a run puts out -/

section Outputs

variable {α β : Type}

/-- What the steps of a run put out, in order. -/
def outputs (step : σ → ε → Option σ) (out : σ → ε → Option β) : σ → List ε → List β
  | _, [] => []
  | s, e :: es => (out s e).toList ++ match step s e with
      | none => []
      | some t => outputs step out t es

@[simp] theorem outputs_nil {out : σ → ε → Option β} (s : σ) : outputs step out s [] = [] := rfl

theorem outputs_append {out : σ → ε → Option β} {s m : σ} {es fs : List ε}
    (hm : run step s es = some m) :
    outputs step out s (es ++ fs) = outputs step out s es ++ outputs step out m fs := by
  induction es generalizing s with
  | nil => cases hm; rfl
  | cons e es ih =>
      rw [run_cons] at hm
      cases he : step s e with
      | none => rw [he] at hm; cases hm
      | some t =>
          rw [he] at hm
          simp only [List.cons_append, outputs, he, ih hm, List.append_assoc]

theorem outputs_concat {out : σ → ε → Option β} {s m : σ} {es : List ε} {e : ε}
    (hm : run step s es = some m) :
    outputs step out s (es ++ [e]) = outputs step out s es ++ (out m e).toList := by
  rw [outputs_append hm, outputs]
  congr 1
  split <;> simp

/-- What a step of the run puts out stands behind what was put out before it. -/
theorem outputs_getElem?_length {out : σ → ε → Option β} {s m : σ} {pre post : List ε} {e : ε}
    {b : β} (hm : run step s pre = some m) (hout : out m e = some b) :
    (outputs step out s (pre ++ e :: post))[(outputs step out s pre).length]? = some b := by
  rw [outputs_append hm, List.getElem?_append_right (Nat.le_refl _), Nat.sub_self, outputs, hout]
  rfl

/-- Everything a run puts out was put out at some step of it. -/
theorem exists_step_of_outputs {out : σ → ε → Option β} {s : σ} {es : List ε} {i : Nat} {b : β}
    (h : (outputs step out s es)[i]? = some b) :
    ∃ pre e post m, es = pre ++ e :: post ∧ run step s pre = some m ∧ out m e = some b ∧
      (outputs step out s pre).length = i := by
  induction es generalizing s i with
  | nil => simp at h
  | cons e es ih =>
      rw [outputs] at h
      -- The step itself put it out, or a later one did.
      by_cases hi : i < (out s e).toList.length
      · rw [List.getElem?_append_left hi] at h
        cases hout : out s e with
        | none => simp [hout] at hi
        | some b' =>
            rw [hout] at h hi
            obtain rfl : i = 0 := by simpa using hi
            exact ⟨[], e, es, s, rfl, rfl, by simpa [hout] using h, rfl⟩
      · rw [List.getElem?_append_right (Nat.le_of_not_lt hi)] at h
        cases he : step s e with
        | none => simp [he] at h
        | some t =>
            rw [he] at h
            obtain ⟨pre, e', post, m, rfl, hm, hout, hlen⟩ := ih h
            refine ⟨e :: pre, e', post, m, rfl, ?_, hout, ?_⟩
            · rw [run_cons, he]
              exact hm
            · rw [outputs, he, List.length_append, hlen]
              omega

/-- A queue in the state: every step puts at most one item in at the end and
takes at most one out at the front.  Then over a run what was there and went in
is what came out and is still there, in this order. -/
theorem outputs_fifo {queue : σ → List α} {put take : σ → ε → Option α}
    (keep : ∀ s e t, step s e = some t →
      queue s ++ (put s e).toList = (take s e).toList ++ queue t)
    {s t : σ} {es : List ε} (h : run step s es = some t) :
    queue s ++ outputs step put s es = outputs step take s es ++ queue t := by
  refine run_history (P := fun es t => queue s ++ outputs step put s es =
    outputs step take s es ++ queue t) (by simp) ?_ h
  intro es m e u hm ih he
  rw [outputs_concat hm, outputs_concat hm, ← List.append_assoc, ih, List.append_assoc,
    keep m e u he, ← List.append_assoc]

/-- The price of what a run puts out, and the potential it ends with, are paid by
the potential it starts with and the worth of what it takes in. -/
theorem run_potential {I : σ → Prop} {μ : σ → Nat} {out : σ → ε → Option α}
    {inp : σ → ε → Option β} {price : α → Nat} {worth : β → Nat}
    (keep : ∀ s e t, step s e = some t → I s → I t ∧
      ((out s e).toList.map price).sum + μ t ≤ μ s + ((inp s e).toList.map worth).sum)
    {s t : σ} {es : List ε} (h : run step s es = some t) (hs : I s) :
    ((outputs step out s es).map price).sum + μ t ≤
      μ s + ((outputs step inp s es).map worth).sum := by
  have hrun : I t ∧ ((outputs step out s es).map price).sum + μ t ≤
      μ s + ((outputs step inp s es).map worth).sum := by
    refine run_history (P := fun es t => I t ∧ ((outputs step out s es).map price).sum + μ t ≤
      μ s + ((outputs step inp s es).map worth).sum) ⟨hs, by simp⟩ ?_ h
    rintro es m e u hm ⟨hI, ih⟩ he
    obtain ⟨hu, hstep⟩ := keep m e u he hI
    refine ⟨hu, ?_⟩
    rw [outputs_concat hm, outputs_concat hm]
    simp only [List.map_append, List.sum_append]
    omega
  exact hrun.2

end Outputs

/-! ## Simulation -/

/-- Each step of the one system, taken in related states, is a run of the other to related
states, with the same visible events.  Then each run is. -/
theorem run_simulates {τ δ α : Type} {step' : τ → δ → Option τ} {R : σ → τ → Prop}
    {visible : ε → Option α} {visible' : δ → Option α} {s t : σ} {a : τ} {es : List ε}
    (hstep : ∀ s a e t, e ∈ es → R s a → step s e = some t →
      ∃ fs b, run step' a fs = some b ∧ fs.filterMap visible' = (visible e).toList ∧ R t b)
    (h : run step s es = some t) (hR : R s a) :
    ∃ fs b, run step' a fs = some b ∧ fs.filterMap visible' = es.filterMap visible ∧ R t b := by
  induction es generalizing s a with
  | nil =>
      cases h
      exact ⟨[], a, rfl, rfl, hR⟩
  | cons e es ih =>
      rw [run_cons] at h
      obtain ⟨m, hm, hrest⟩ := Option.bind_eq_some_iff.mp h
      obtain ⟨fs, b, hfs, hvisible, hb⟩ := hstep s a e m List.mem_cons_self hR hm
      obtain ⟨gs, c, hgs, hvisible', hc⟩ :=
        ih (fun s a e t he => hstep s a e t (List.mem_cons_of_mem _ he)) hrest hb
      refine ⟨fs ++ gs, c, ?_, ?_, hc⟩
      · rw [run_append, hfs]
        exact hgs
      · rw [List.filterMap_append, hvisible, hvisible', List.filterMap_cons]
        cases visible e <;> rfl

end Transition
