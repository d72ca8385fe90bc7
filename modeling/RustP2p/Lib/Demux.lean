import Mathlib.Data.List.Infix
import Mathlib.Data.List.Nodup
import Mathlib.Logic.Function.Basic
import Mathlib.Logic.Relation

/-!
# Demultiplexers

A demultiplexer takes items from senders and puts each into a queue of the item's
key.  It opens queues as it needs them, and may have several of one key over time.

`Books` is what such a machine has done so far: for every queue its key and
everything that was ever put into it, and for every sender its key, its item and
what became of it.  `Step` is what one step may add to the books.  Whatever a
machine looks like, if its steps are steps of its books, then its books are sound
(`Sound`): the items of a queue are items of its key, the first is the one that
opened the queue, and no item is in two places.  The queues are filled in the order
of the senders (`waiting_of_after`).
-/

namespace Demux

variable {κ δ : Type}

/-- What became of an item. -/
inductive Status where
  | waiting
  | rejected
  /-- It is in the queue with this number, which it opened or found open. -/
  | put (queue : Nat) (opened : Bool)
deriving DecidableEq, Repr

/-- A sender, its item and what became of it. -/
structure Sender (κ δ : Type) where
  key : κ
  item : δ
  status : Status

/-- A queue, and everything that was ever put into it, with the numbers of the
senders. -/
structure Queue (κ δ : Type) where
  key : κ
  items : List (Nat × δ)

/-- The books of a demultiplexer. -/
structure Books (κ δ : Type) where
  queues : Nat → Option (Queue κ δ)
  senders : Nat → Option (Sender κ δ)
  /-- The number of the next queue. -/
  next : Nat

/-- Nothing has happened. -/
def Books.empty (next : Nat) : Books κ δ := ⟨fun _ => none, fun _ => none, next⟩

/-- The sender with this number has another status now. -/
def Books.settle (b : Books κ δ) (c : Nat) (s : Sender κ δ) (status : Status) : Books κ δ :=
  { b with senders := Function.update b.senders c (some { s with status := status }) }

/-- The queue with this number is another one now. -/
def Books.write (b : Books κ δ) (id : Nat) (q : Queue κ δ) : Books κ δ :=
  { b with queues := Function.update b.queues id (some q) }

/-- What a step may add to the books. -/
inductive Step (b : Books κ δ) : Books κ δ → Prop where
  | none : Step b b
  | arrive {c : Nat} (key : κ) (item : δ) (fresh : b.senders c = .none) :
      Step b { b with senders := Function.update b.senders c (some ⟨key, item, .waiting⟩) }
  | reject {c : Nat} {s : Sender κ δ} (sender : b.senders c = some s)
      (waiting : s.status = .waiting) : Step b (b.settle c s .rejected)
  /-- Into an open queue of the key. -/
  | put {c id : Nat} {s : Sender κ δ} {q : Queue κ δ} (sender : b.senders c = some s)
      (waiting : s.status = .waiting) (queue : b.queues id = some q) (key : q.key = s.key) :
      Step b ((b.write id ⟨q.key, q.items ++ [(c, s.item)]⟩).settle c s (.put id false))
  | openQueue {c : Nat} {s : Sender κ δ} (sender : b.senders c = some s)
      (waiting : s.status = .waiting) :
      Step b (({ b with next := b.next + 1 }.write b.next ⟨s.key, [(c, s.item)]⟩).settle c s
        (.put b.next true))

theorem Step.of_eq {b b' : Books κ δ} (h : b' = b) : Step b b' := by
  rw [h]
  exact .none

/-! ## Sound books -/

/-- The entry of a queue is the item of a sender of the same key, which went there. -/
structure From (b : Books κ δ) (id : Nat) (key : κ) (entry : Nat × δ) (s : Sender κ δ) : Prop where
  sender : b.senders entry.1 = some s
  item : s.item = entry.2
  key : s.key = key
  put : ∃ opened, s.status = .put id opened

/-- The books agree with themselves. -/
structure Sound (b : Books κ δ) : Prop where
  fresh : ∀ id, b.next ≤ id → b.queues id = none
  origin : ∀ id q, b.queues id = some q → ∀ entry ∈ q.items, ∃ s, From b id q.key entry s
  once : ∀ id q, b.queues id = some q → (q.items.map Prod.fst).Nodup
  /-- A sender that was served is in the queue, and one that opened it comes first. -/
  served : ∀ c s id opened, b.senders c = some s → s.status = .put id opened →
    ∃ q, b.queues id = some q ∧ q.key = s.key ∧ (c, s.item) ∈ q.items ∧
      (opened = true → q.items.head? = some (c, s.item))
  /-- Every queue was opened by its first entry. -/
  first : ∀ id q, b.queues id = some q → ∃ entry s, q.items.head? = some entry ∧
    b.senders entry.1 = some s ∧ s.status = .put id true

theorem sound_empty (next : Nat) : Sound (Books.empty next : Books κ δ) where
  fresh _ _ := rfl
  origin _ _ h := by cases h
  once _ _ h := by cases h
  served _ _ _ _ h := by cases h
  first _ _ h := by cases h

/-! ## One step -/

section Step

variable {b b' : Books κ δ} {c id : Nat} {s : Sender κ δ} {q : Queue κ δ}

theorem settle_senders (b : Books κ δ) (c e : Nat) (s : Sender κ δ) (status : Status) :
    (b.settle c s status).senders e =
      if e = c then some { s with status := status } else b.senders e := by
  simp only [Books.settle, Function.update_apply]

theorem write_queues (b : Books κ δ) (id j : Nat) (q : Queue κ δ) :
    (b.write id q).queues j = if j = id then some q else b.queues j := by
  simp only [Books.write, Function.update_apply]

theorem settle_self (hs : b.senders c = some s) : b.settle c s s.status = b := by
  simp only [Books.settle, ← hs, Function.update_eq_self]

theorem write_self (hq : b.queues id = some q) : b.write id q = b := by
  simp only [Books.write, ← hq, Function.update_eq_self]

/-- What was settled stays. -/
theorem Step.kept (h : Step b b') (hs : b.senders c = some s) (hsettled : s.status ≠ .waiting) :
    b'.senders c = some s := by
  have hne {e : Nat} {t : Sender κ δ} (ht : b.senders e = some t) (hwaiting : t.status = .waiting) :
      c ≠ e := by
    rintro rfl
    cases hs.symm.trans ht
    exact hsettled hwaiting
  cases h with
  | none => exact hs
  | @arrive e key item fresh =>
      have hce : c ≠ e := by
        rintro rfl
        cases hs.symm.trans fresh
      simp only [Function.update_of_ne hce, hs]
  | reject sender waiting => rw [settle_senders, if_neg (hne sender waiting), hs]
  | put sender waiting =>
      rw [settle_senders, if_neg (hne sender waiting)]
      exact hs
  | openQueue sender waiting =>
      rw [settle_senders, if_neg (hne sender waiting)]
      exact hs

/-- How a queue can come to be what it is after a step. -/
inductive QueueChange (b b' : Books κ δ) (id : Nat) (q' : Queue κ δ) : Prop where
  | same (before : b.queues id = some q')
  | appended {c : Nat} {s : Sender κ δ} {q : Queue κ δ} (before : b.queues id = some q)
      (sender : b.senders c = some s) (waiting : s.status = .waiting) (key : q.key = s.key)
      (after : q' = ⟨q.key, q.items ++ [(c, s.item)]⟩)
      (settled : b'.senders c = some { s with status := .put id false })
  | opened {c : Nat} {s : Sender κ δ} (new : id = b.next ∧ b'.next = b.next + 1)
      (sender : b.senders c = some s) (waiting : s.status = .waiting)
      (after : q' = ⟨s.key, [(c, s.item)]⟩)
      (settled : b'.senders c = some { s with status := .put id true })

theorem Step.queueChange (h : Step b b') (hq : b'.queues id = some q) : QueueChange b b' id q := by
  cases h with
  | none => exact .same hq
  | arrive => exact .same hq
  | reject => exact .same hq
  | @put c j s old sender waiting queue key =>
      have hqueues : (b.write j ⟨old.key, old.items ++ [(c, s.item)]⟩).queues id = some q := hq
      rw [write_queues] at hqueues
      split at hqueues
      next hj =>
        subst hj
        exact .appended queue sender waiting key (Option.some.inj hqueues).symm
          (by rw [settle_senders, if_pos rfl])
      next => exact .same hqueues
  | @openQueue c s sender waiting =>
      have hqueues : (({ b with next := b.next + 1 } : Books κ δ).write b.next
          ⟨s.key, [(c, s.item)]⟩).queues id = some q := hq
      rw [write_queues] at hqueues
      split at hqueues
      next hj =>
        subst hj
        exact .opened ⟨rfl, rfl⟩ sender waiting (Option.some.inj hqueues).symm
          (by rw [settle_senders, if_pos rfl])
      next => exact .same hqueues

theorem Step.next_le (h : Step b b') : b.next ≤ b'.next := by
  cases h with
  | openQueue => exact Nat.le_succ _
  | _ => exact Nat.le_refl _

/-- A queue only grows. -/
theorem Step.grows (h : Step b b') (hsound : Sound b) (hq : b.queues id = some q) :
    ∃ more, b'.queues id = some ⟨q.key, q.items ++ more⟩ := by
  have hsame : ∃ more, b.queues id = some ⟨q.key, q.items ++ more⟩ :=
    ⟨[], by rw [hq, List.append_nil]⟩
  cases h with
  | none => exact hsame
  | arrive => exact hsame
  | reject => exact hsame
  | @put c j s old sender waiting queue key =>
      by_cases hj : id = j
      · subst hj
        cases hq.symm.trans queue
        exact ⟨[(c, s.item)], (write_queues _ _ _ _).trans (if_pos rfl)⟩
      · obtain ⟨more, hmore⟩ := hsame
        exact ⟨more, ((write_queues _ _ _ _).trans (if_neg hj)).trans hmore⟩
  | @openQueue c s sender waiting =>
      have hj : id ≠ b.next := by
        rintro rfl
        rw [hsound.fresh _ (Nat.le_refl _)] at hq
        cases hq
      obtain ⟨more, hmore⟩ := hsame
      exact ⟨more, ((write_queues _ _ _ _).trans (if_neg hj)).trans hmore⟩

/-- A sender that is served after the step was served before, or the step served it. -/
theorem Step.served_new {opened : Bool} (h : Step b b') (hs : b'.senders c = some s)
    (hput : s.status = .put id opened) :
    b.senders c = some s ∨ ∃ q, b'.queues id = some q ∧ q.key = s.key ∧ (c, s.item) ∈ q.items ∧
      (opened = true → q.items.head? = some (c, s.item)) := by
  cases h with
  | none => exact Or.inl hs
  | @arrive e key item fresh =>
      simp only [Function.update_apply] at hs
      split at hs
      next =>
        cases hs
        cases hput
      next => exact Or.inl hs
  | reject sender waiting =>
      rw [settle_senders] at hs
      split at hs
      next =>
        cases hs
        cases hput
      next => exact Or.inl hs
  | @put e j t old sender waiting queue key =>
      rw [settle_senders] at hs
      split at hs
      next hce =>
        subst hce
        cases hs
        cases hput
        exact Or.inr ⟨_, (write_queues _ _ _ _).trans (if_pos rfl), key, by simp, by simp⟩
      next => exact Or.inl hs
  | @openQueue e t sender waiting =>
      rw [settle_senders] at hs
      split at hs
      next hce =>
        subst hce
        cases hs
        cases hput
        exact Or.inr ⟨_, (write_queues _ _ _ _).trans (if_pos rfl), rfl, by simp, by simp⟩
      next => exact Or.inl hs

theorem From.kept {entry : Nat × δ} {key : κ} (hfrom : From b id key entry s) (h : Step b b') :
    From b' id key entry s where
  sender := by
    obtain ⟨opened, hput⟩ := hfrom.put
    exact h.kept hfrom.sender (by rw [hput]; exact Status.noConfusion)
  item := hfrom.item
  key := hfrom.key
  put := hfrom.put

/-- A sender that waits is in no queue. -/
theorem Sound.not_mem_of_waiting (h : Sound b) (hq : b.queues id = some q)
    (hs : b.senders c = some s) (hwaiting : s.status = .waiting) : c ∉ q.items.map Prod.fst := by
  intro hmem
  obtain ⟨entry, hentry, rfl⟩ := List.mem_map.mp hmem
  obtain ⟨t, hfrom⟩ := h.origin id q hq entry hentry
  obtain ⟨opened, hput⟩ := hfrom.put
  cases hs.symm.trans hfrom.sender
  rw [hwaiting] at hput
  cases hput

/-- A step keeps the books sound. -/
theorem Sound.step (h : Sound b) (hstep : Step b b') : Sound b' where
  fresh j hj := by
    cases hq : b'.queues j with
    | none => rfl
    | some q =>
        have hle := hstep.next_le
        cases hstep.queueChange hq with
        | same before => rw [h.fresh j (hle.trans hj)] at before; cases before
        | appended before => rw [h.fresh j (hle.trans hj)] at before; cases before
        | opened new => omega
  origin j q hq entry hentry := by
    cases hstep.queueChange hq with
    | same before =>
        obtain ⟨s, hfrom⟩ := h.origin j q before entry hentry
        exact ⟨s, hfrom.kept hstep⟩
    | @appended c s old before sender waiting key after settled =>
        subst after
        rcases List.mem_append.mp hentry with hold | hnew
        · obtain ⟨t, hfrom⟩ := h.origin j old before entry hold
          exact ⟨t, hfrom.kept hstep⟩
        · cases List.mem_singleton.mp hnew
          exact ⟨_, settled, rfl, key.symm, false, rfl⟩
    | @opened c s new sender waiting after settled =>
        subst after
        cases List.mem_singleton.mp hentry
        exact ⟨_, settled, rfl, rfl, true, rfl⟩
  once j q hq := by
    cases hstep.queueChange hq with
    | same before => exact h.once j q before
    | @appended c s old before sender waiting key after settled =>
        subst after
        rw [List.map_append, List.map_singleton, List.nodup_append]
        refine ⟨h.once j old before, List.nodup_singleton _, ?_⟩
        intro e he e' he' heq
        rw [List.mem_singleton] at he'
        subst heq he'
        exact h.not_mem_of_waiting before sender waiting he
    | opened new sender waiting after =>
        subst after
        exact List.nodup_singleton _
  served c s j opened hs hput := by
    rcases hstep.served_new hs hput with hold | hnew
    · obtain ⟨q, hq, hkey, hmem, hhead⟩ := h.served c s j opened hold hput
      obtain ⟨more, hmore⟩ := hstep.grows h hq
      refine ⟨_, hmore, hkey, List.mem_append_left _ hmem, ?_⟩
      intro hopened
      rw [List.head?_append, hhead hopened]
      rfl
    · exact hnew
  first j q hq := by
    cases hstep.queueChange hq with
    | same before =>
        obtain ⟨entry, s, hhead, hs, hput⟩ := h.first j q before
        exact ⟨entry, s, hhead, hstep.kept hs (by rw [hput]; exact Status.noConfusion), hput⟩
    | @appended c s old before sender waiting key after settled =>
        subst after
        obtain ⟨entry, t, hhead, ht, hput⟩ := h.first j old before
        refine ⟨entry, t, ?_, hstep.kept ht (by rw [hput]; exact Status.noConfusion), hput⟩
        rw [List.head?_append, hhead]
        rfl
    | @opened c s new sender waiting after settled =>
        subst after
        exact ⟨(c, s.item), _, rfl, settled, rfl⟩

end Step

/-! ## Runs -/

section Run

variable {b b' : Books κ δ} {c id : Nat} {s : Sender κ δ} {q : Queue κ δ}

theorem Sound.run (hb : Sound b) (h : Relation.ReflTransGen Step b b') : Sound b' := by
  induction h with
  | refl => exact hb
  | tail _ hstep ih => exact ih.step hstep

theorem kept_run (h : Relation.ReflTransGen Step b b') (hs : b.senders c = some s)
    (hsettled : s.status ≠ .waiting) : b'.senders c = some s := by
  induction h with
  | refl => exact hs
  | tail _ hstep ih => exact hstep.kept ih hsettled

theorem grows_run (hb : Sound b) (h : Relation.ReflTransGen Step b b')
    (hq : b.queues id = some q) : ∃ more, b'.queues id = some ⟨q.key, q.items ++ more⟩ := by
  induction h with
  | refl => exact ⟨[], by rw [hq, List.append_nil]⟩
  | tail hrun hstep ih =>
      obtain ⟨more, hmore⟩ := ih
      obtain ⟨last, hlast⟩ := hstep.grows (hb.run hrun) hmore
      exact ⟨more ++ last, by rw [hlast, List.append_assoc]⟩

/-- A prefix without `a` ends before `a`. -/
theorem prefix_of_not_mem {α : Type} {a : α} {pre more xs ys : List α}
    (h : pre ++ more = xs ++ a :: ys) (ha : a ∉ pre) : pre <+: xs := by
  rcases List.append_eq_append_iff.mp h with ⟨rest, rfl, -⟩ | ⟨rest, rfl, hrest⟩
  · exact ⟨rest, rfl⟩
  · cases rest with
    | nil => rw [List.append_nil]
    | cons first rest =>
        cases hrest
        exact absurd (List.mem_append_right xs (.head rest)) ha

/-- The queues are filled in order: behind the item of a sender that came later, there
is no item of a sender that had been settled by then. -/
theorem waiting_of_after (hb : Sound b) (h : Relation.ReflTransGen Step b b')
    (hnew : b.senders c = none) (hq : b'.queues id = some q) {item : δ} {xs ys : List (Nat × δ)}
    (hitems : q.items = xs ++ (c, item) :: ys) {y : Nat × δ} (hy : y ∈ ys)
    (hs : b.senders y.1 = some s) : s.status = .waiting := by
  by_contra hsettled
  have hb' := hb.run h
  -- The settled item was in the queue before the later sender came.
  have hmem : y ∈ q.items := hitems ▸ List.mem_append_right xs (.tail _ hy)
  obtain ⟨t, hfrom⟩ := hb'.origin id q hq y hmem
  cases (kept_run h hs hsettled).symm.trans hfrom.sender
  obtain ⟨opened, hput⟩ := hfrom.put
  obtain ⟨q₀, hq₀, -, hmem₀, -⟩ := hb.served y.1 s id opened hs hput
  rw [hfrom.item] at hmem₀
  obtain ⟨more, hmore⟩ := grows_run hb h hq₀
  cases hq.symm.trans hmore
  -- So it stands in front of the later item, and would be in the queue twice.
  have hlater : (c, item) ∉ q₀.items := by
    intro hc
    obtain ⟨t, hfrom⟩ := hb.origin id q₀ hq₀ (c, item) hc
    cases hnew.symm.trans hfrom.sender
  have hfront : y ∈ xs := (prefix_of_not_mem hitems hlater).subset hmem₀
  have honce := hb'.once id _ hq
  rw [hitems, List.map_append, List.map_cons, List.nodup_append] at honce
  exact honce.2.2 y.1 (List.mem_map_of_mem hfront) y.1
    (List.mem_cons_of_mem _ (List.mem_map_of_mem hy)) rfl

end Run

end Demux
