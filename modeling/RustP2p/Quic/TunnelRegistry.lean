import RustP2p.Quic.PinnedSends

/-!
# The registry of tunnel actors

`tunnels` has one actor for each route key.  A new actor of a key replaces the old
one, which may still run, and calls of `send_to_route` may still hold its channel.
When the old actor ends, and when a send into its channel fails, its entry is to be
removed, and not that of its successor.  `remove_if` compares the ids for this.

`latest` reads off a run which actor of a key was started last.  `Registered` is what
the registry has to do with it, and `Registers` are the ways in which a step changes
the registry.
-/

namespace RustP2p

/-! ## The actors a run starts -/

/-- The key of the actor that an event starts. -/
def SendEvent.starts : SendEvent → Option RouteKey
  | .accept routeKey => some routeKey
  | _ => none

namespace CoreTransportLayer

/-- The id of the actor of the key that was started last.  The ids count from 1. -/
def latest (routeKey : RouteKey) (es : List SendEvent) : Option Nat :=
  (((es.filterMap SendEvent.starts).zipIdx 1).filter (·.1 = routeKey)).getLast?.map Prod.snd

variable {es : List SendEvent} {e : SendEvent} {k k' : RouteKey} {id : Nat}

theorem latest_accept :
    latest k' (es ++ [.accept k]) =
      if k = k' then some (1 + (es.filterMap SendEvent.starts).length) else latest k' es := by
  simp only [latest, List.filterMap_append, List.zipIdx_append, List.filter_append]
  split
  next h => simp [SendEvent.starts, h]
  next h => simp [SendEvent.starts, h]

theorem latest_of_starts_none (h : e.starts = none) : latest k (es ++ [e]) = latest k es := by
  simp [latest, h]

/-! ## What a step does to the registry -/

variable {t t' : CoreTransportLayer}

/-- The actor with the id is in its loop, and its tunnel has the key. -/
def Running (t : CoreTransportLayer) (id : Nat) (routeKey : RouteKey) : Prop :=
  t.actors.get id = some ⟨routeKey, .running⟩

/-- The event is an exit of the actor with the id, or the end of a send into its channel. -/
def ActsFor (t : CoreTransportLayer) (e : SendEvent) (id : Nat) : Prop :=
  e = .finish id ∨ e = .drop id ∨
    ∃ index routeKey data, e = .advance index .send ∧
      t.calls[index]? = some (.sending routeKey data id)

/-- The ways in which a step changes the registry.  No actor returns to its loop, and the
entry of an actor is removed only when it is not in its loop any more. -/
inductive Registers (t : CoreTransportLayer) : SendEvent → CoreTransportLayer → Prop where
  | started {k : RouteKey} : Registers t (.accept k) (t.startTunnelActor k)
  | removed {e : SendEvent} {t' : CoreTransportLayer} {id : Nat} {k : RouteKey}
      (starts : e.starts = none) (next : t'.nextTunnelId = t.nextTunnelId)
      (acts : t.ActsFor e id) (tunnels : t'.tunnels = t.tunnels.removeIf k fun a => a.id = id)
      (running : ∀ id' k', t'.Running id' k' → t.Running id' k' ∧ id' ≠ id) :
      Registers t e t'
  | kept {e : SendEvent} {t' : CoreTransportLayer}
      (starts : e.starts = none) (next : t'.nextTunnelId = t.nextTunnelId)
      (tunnels : t'.tunnels = t.tunnels)
      (running : ∀ id k, t'.Running id k → t.Running id k) : Registers t e t'

/-- An actor that gets to its next stage does not run, and the others do what they did. -/
theorem running_insert {stage : ActorStage} (h : stage ≠ .running) {id' : Nat}
    {tunnels : DashMap RouteKey TunnelActor}
    (hrun : ({ t with tunnels := tunnels, actors := t.actors.insert id ⟨k, stage⟩ } :
      CoreTransportLayer).Running id' k') : t.Running id' k' ∧ id' ≠ id := by
  simp only [Running, DashMap.get_insert] at hrun
  split at hrun
  next =>
    cases hrun
    exact absurd rfl h
  next hne => exact ⟨hrun, hne⟩

/-- A step of a call removes an entry when the channel of its actor is closed. -/
theorem registers_advance {index : Nat} {step : SendStep}
    (h : CoreTransportLayer.step t (.advance index step) = some t') :
    Registers t (.advance index step) t' := by
  simp only [CoreTransportLayer.step] at h
  split at h
  next => cases h
  next call hcall =>
    obtain ⟨⟨call', tunnels⟩, hmove, rfl⟩ := Option.map_eq_some_iff.mp h
    simp only [stepCall] at hmove
    split at hmove
    next =>
      split at hmove <;> cases hmove <;> exact .kept rfl rfl rfl fun _ _ h => h
    next k data id =>
      split at hmove
      next => cases hmove
      next actor hactor =>
        split at hmove
        next hdropped =>
          cases hmove
          refine .removed rfl rfl (Or.inr (Or.inr ⟨index, k, data, rfl, hcall⟩)) rfl ?_
          rintro id' k' hrun
          refine ⟨hrun, ?_⟩
          rintro rfl
          cases hactor.symm.trans hrun
          cases hdropped
        next =>
          cases hmove
          exact .kept rfl rfl rfl fun _ _ h => h
    next =>
      cases hmove
      exact .kept rfl rfl rfl fun _ _ h => h
    next => cases hmove

/-- A step changes the registry in no other way. -/
theorem Registers.of_step (h : step t e = some t') : Registers t e t' := by
  cases e with
  | accept k => cases h; exact .started
  | finish id =>
      simp only [step] at h
      split at h
      next hget =>
        cases h
        exact .removed rfl rfl (Or.inl rfl) rfl fun id' k' => running_insert (by decide)
      next => cases h
  | drop id =>
      simp only [step] at h
      split at h
      next hget =>
        cases h
        exact .kept rfl rfl rfl fun id' k' hrun => (running_insert (by decide) hrun).1
      next => cases h
  | addAssistantUdp socket => cases h; exact .kept rfl rfl rfl fun _ _ h => h
  | cleanAssistantUdp => cases h; exact .kept rfl rfl rfl fun _ _ h => h
  | call k data => cases h; exact .kept rfl rfl rfl fun _ _ h => h
  | advance index step => exact registers_advance h

/-- An event acts for one actor. -/
theorem ActsFor.unique {id' : Nat} (h : t.ActsFor e id) (h' : t.ActsFor e id') : id = id' := by
  rcases h with rfl | rfl | ⟨index, k, data, rfl, hcall⟩
  · rcases h' with heq | heq | ⟨_, _, _, heq, -⟩ <;> cases heq
    rfl
  · rcases h' with heq | heq | ⟨_, _, _, heq, -⟩ <;> cases heq
    rfl
  · rcases h' with heq | heq | ⟨_, _, _, heq, hcall'⟩
    · cases heq
    · cases heq
    · cases heq
      cases hcall.symm.trans hcall'
      rfl

/-! ## The registry along a run -/

/-- After the events, the registry has no actor but the latest of each key, and this one as
long as it runs. -/
structure Registered (es : List SendEvent) (t : CoreTransportLayer) : Prop where
  next : t.nextTunnelId = 1 + (es.filterMap SendEvent.starts).length
  belongs : ∀ {k actor}, t.tunnels.get k = some actor → latest k es = some actor.id
  present : ∀ {k id}, latest k es = some id → t.Running id k → t.tunnels.get k = some ⟨id⟩

theorem registered_new (pool : SocketPool) : Registered [] (new pool) where
  next := rfl
  belongs h := by cases h
  present h := by cases h

/-- Removing an actor leaves the keys alone whose latest actor is another one. -/
theorem Registered.get_removeIf (h : Registered es t) (hne : latest k es ≠ some id) :
    (t.tunnels.removeIf k' fun a => a.id = id).get k = t.tunnels.get k := by
  rw [DashMap.get_removeIf]
  split
  next hremoved =>
    obtain ⟨rfl, hany⟩ := hremoved
    obtain ⟨actor, hget, heq⟩ := (Option.any_eq_true _ _).mp hany
    have hlatest := h.belongs hget
    rw [of_decide_eq_true heq] at hlatest
    exact absurd hlatest hne
  next => rfl

theorem Registered.startTunnelActor (h : Registered es t) (k : RouteKey) :
    Registered (es ++ [.accept k]) (t.startTunnelActor k) := by
  refine ⟨?_, ?_, ?_⟩
  · simp only [CoreTransportLayer.startTunnelActor, h.next, List.filterMap_append,
      List.length_append]
    rfl
  · intro k' actor hget
    simp only [CoreTransportLayer.startTunnelActor, DashMap.get_insert] at hget
    rw [latest_accept]
    split at hget
    next heq =>
      cases hget
      rw [if_pos heq.symm, h.next]
    next hne =>
      rw [if_neg fun heq => hne heq.symm]
      exact h.belongs hget
  · intro k' id hlatest hrun
    rw [latest_accept] at hlatest
    simp only [CoreTransportLayer.startTunnelActor, DashMap.get_insert]
    split at hlatest
    next heq =>
      cases hlatest
      rw [if_pos heq.symm, h.next]
    next hne =>
      rw [if_neg fun heq => hne heq.symm]
      refine h.present hlatest ?_
      -- The new actor has the other key.
      simp only [Running, CoreTransportLayer.startTunnelActor, DashMap.get_insert] at hrun
      split at hrun
      next =>
        cases hrun
        exact absurd rfl hne
      next => exact hrun

/-- An event that starts no actor keeps the registry, when it brings in no entry. -/
theorem Registered.keep (h : Registered es t) (starts : e.starts = none)
    (next : t'.nextTunnelId = t.nextTunnelId)
    (belongs : ∀ {k actor}, t'.tunnels.get k = some actor → t.tunnels.get k = some actor)
    (present : ∀ {k id}, latest k es = some id → t'.Running id k →
      t'.tunnels.get k = some ⟨id⟩) : Registered (es ++ [e]) t' := by
  refine ⟨?_, ?_, ?_⟩
  · rw [next, h.next, List.filterMap_append]
    simp [starts]
  · intro k actor hget
    rw [latest_of_starts_none starts]
    exact h.belongs (belongs hget)
  · intro k id hlatest hrun
    rw [latest_of_starts_none starts] at hlatest
    exact present hlatest hrun

theorem Registered.step (h : Registered es t) (hstep : CoreTransportLayer.step t e = some t') :
    Registered (es ++ [e]) t' := by
  have hmove := Registers.of_step hstep
  cases hmove with
  | started => exact h.startTunnelActor _
  | removed starts next acts tunnels running =>
      refine h.keep starts next ?_ ?_
      · intro k actor hget
        rw [tunnels] at hget
        exact get_of_removeIf hget
      · intro k id hlatest hrun
        obtain ⟨hbefore, hne⟩ := running id k hrun
        rw [tunnels, h.get_removeIf, h.present hlatest hbefore]
        rw [hlatest]
        exact fun heq => hne (Option.some.inj heq)
  | kept starts next tunnels running =>
      refine h.keep starts next ?_ ?_
      · intro k actor hget
        rw [tunnels] at hget
        exact hget
      · intro k id hlatest hrun
        rw [tunnels]
        exact h.present hlatest (running id k hrun)

theorem registered_run {pool : SocketPool} (h : Transition.run step (new pool) es = some t) :
    Registered es t :=
  Transition.run_history (P := Registered) (registered_new pool)
    (fun _ _ _ _ _ ih hstep => ih.step hstep) h

/-- A step that acts for an actor leaves the keys alone whose latest actor is another one. -/
theorem Registered.get_of_actsFor (h : Registered es t)
    (hstep : CoreTransportLayer.step t e = some t') (hacts : t.ActsFor e id)
    (hne : latest k es ≠ some id) : t'.tunnels.get k = t.tunnels.get k := by
  cases Registers.of_step hstep with
  | started =>
      rcases hacts with heq | heq | ⟨_, _, _, heq, -⟩ <;> cases heq
  | removed starts next acts tunnels running =>
      cases hacts.unique acts
      rw [tunnels, h.get_removeIf hne]
  | kept starts next tunnels running => rw [tunnels]

/-- In every run the entry of a key belongs to the actor of this key that was started last,
it is there as long as this actor runs, and neither the exit of another actor nor the end of
a send into its channel changes it. -/
theorem tunnel_registry (pool : SocketPool) {es : List SendEvent} {t : CoreTransportLayer}
    (hrun : Transition.run step (new pool) es = some t) :
    (∀ k actor, t.tunnels.get k = some actor → latest k es = some actor.id) ∧
      (∀ k id, latest k es = some id → t.Running id k → t.tunnels.get k = some ⟨id⟩) ∧
      ∀ e t' id k, step t e = some t' → t.ActsFor e id → latest k es ≠ some id →
        t'.tunnels.get k = t.tunnels.get k := by
  have h := registered_run hrun
  refine ⟨fun _ _ => h.belongs, fun _ _ => h.present, ?_⟩
  intro e t' id k hstep hacts hne
  exact h.get_of_actsFor hstep hacts hne

/-- An actor is replaced while a call holds its channel, and ends. -/
def replacedRun : List SendEvent :=
  [.accept assistedKey, .call assistedKey [1], .advance 0 .lookup, .accept assistedKey, .finish 1,
    .drop 1]

/-- The call then finds the channel closed, and the entry of the second actor stays. -/
theorem tunnel_registry_replaced :
    ∃ t t', Transition.run step (new assistedPool) replacedRun = some t ∧
      step t (.advance 0 .send) = some t' ∧ t'.calls = [.falling assistedKey [1]] ∧
      t'.tunnels.get assistedKey = some ⟨2⟩ := by
  obtain ⟨hbelongs, hpresent, hstale⟩ := @tunnel_registry assistedPool replacedRun _ rfl
  refine ⟨_, _, rfl, rfl, rfl, ?_⟩
  rw [hstale (.advance 0 .send) _ 1 assistedKey rfl
    (Or.inr (Or.inr ⟨0, assistedKey, [1], rfl, rfl⟩)) (by decide)]
  exact hpresent assistedKey 2 (by decide) rfl

end CoreTransportLayer

end RustP2p
