import RustP2p.Quic.Transport

/-!
# The peer store

`upsert_peer_info` and `confirm_peer_route` are the only writes to the store of
known peers, and the second ends in the first.  `merged_upsertPeerInfo` says what
an upsert stores under the id of the peer: the union of the addresses without
the unspecified ones, a flag that stays set, and NAT information that is
replaced by other NAT information only.

A confirmation of a relay route comes without addresses of the peer, and one of a
direct route adds the address of the route (`StoreCall.incoming`).

`WellFormed` holds of the store after every sequence of calls.  An entry is
stored under its own id, the node itself is not in the store, and no address in
it is unspecified.
-/

namespace RustP2p

namespace Transport

/-! ## Merging -/

/-- The addresses of both, without the unspecified ones of the old entry. -/
theorem mem_addrs_mergePeer {merged existing : PeerInfo} {a : SocketAddr} :
    a ∈ (mergePeer merged existing).addrs ↔
      a ∈ merged.addrs ∨ a ∈ existing.addrs ∧ a.ip.isUnspecified = false := by
  simp only [mergePeer]
  generalize merged.addrs = addrs
  induction existing.addrs generalizing addrs with
  | nil => simp
  | cons b rest ih =>
      rw [List.foldl_cons, ih, List.mem_cons]
      by_cases hb : a = b
      · subst hb
        by_cases hmem : a ∈ addrs <;> by_cases hip : a.ip.isUnspecified = true <;>
          simp [hmem, hip]
      · split
        next => simp [hb]
        next => simp [hb]

/-- What is stored about a peer after an upsert of `peer` over `existing`. -/
structure Merged (peer : PeerInfo) (existing : Option PeerInfo) (info : PeerInfo) : Prop where
  peerId : info.peerId = peer.peerId
  addrs : ∀ a, a ∈ info.addrs ↔ a.ip.isUnspecified = false ∧
    (a ∈ peer.addrs ∨ ∃ old, existing = some old ∧ a ∈ old.addrs)
  isDirect : info.isDirect = (peer.isDirect || existing.any PeerInfo.isDirect)
  natInfo : info.natInfo = (peer.natInfo <|> existing.bind PeerInfo.natInfo)

/-- An upsert of another peer stores the merged entry. -/
theorem merged_upsertPeerInfo {t : Transport} {peer : PeerInfo} (env : Env)
    (h : peer.peerId ≠ t.peerId) :
    ∃ info, (t.upsertPeerInfo env peer).peers.get peer.peerId = some info ∧
      Merged peer (t.peers.get peer.peerId) info := by
  simp only [upsertPeerInfo, if_neg h]
  cases hexisting : t.peers.get peer.peerId with
  | none =>
      refine ⟨_, DashMap.get_insert_self _ _ _, rfl, ?_, by simp, by simp⟩
      intro a
      simp [and_comm]
  | some existing =>
      refine ⟨_, DashMap.get_insert_self _ _ _, rfl, ?_, rfl, rfl⟩
      intro a
      rw [mem_addrs_mergePeer]
      simp only [List.mem_filter, Bool.not_eq_true, decide_eq_true_eq, Option.some.injEq,
        exists_eq_left']
      rw [← or_and_right, and_comm]

/-! ## The calls -/

/-- A call that writes to the peer store. -/
inductive StoreCall where
  | upsertPeerInfo (env : Env) (peer : PeerInfo)
  | confirmPeerRoute (env : Env) (peer : PeerInfo) (routeKey : RouteKey) (metric : UInt8)

/-- The peer the call is about. -/
def StoreCall.peer : StoreCall → PeerInfo
  | upsertPeerInfo _ peer => peer
  | confirmPeerRoute _ peer _ _ => peer

/-- The addresses the call brings.  A confirmed relay route comes without any. -/
def StoreCall.incoming : StoreCall → List SocketAddr
  | upsertPeerInfo _ peer => peer.addrs
  | confirmPeerRoute _ peer routeKey metric =>
      if metric = 0 then routeKey.peerAddr :: peer.addrs else []

/-- The layer after a call. -/
def store (t : Transport) : StoreCall → Transport
  | .upsertPeerInfo env peer => t.upsertPeerInfo env peer
  | .confirmPeerRoute env peer routeKey metric => t.confirmPeerRoute env peer routeKey metric

/-- The layer after a list of calls. -/
def storeAll (t : Transport) (calls : List StoreCall) : Transport := calls.foldl store t

@[simp] theorem store_peerId (t : Transport) (call : StoreCall) :
    (t.store call).peerId = t.peerId := by
  cases call with
  | upsertPeerInfo env peer => exact upsertPeerInfo_peerId t env peer
  | confirmPeerRoute env peer key metric => exact upsertPeerInfo_peerId _ env _

/-- A confirmation passes on its addresses. -/
theorem mem_addrs_confirmedPeer {t : Transport} {peer : PeerInfo} {key : RouteKey}
    {metric : UInt8} {a : SocketAddr} :
    a ∈ (t.confirmedPeer peer key metric).addrs ↔
      a ∈ (if metric = 0 then key.peerAddr :: peer.addrs else []) := by
  simp only [confirmedPeer]
  split
  next =>
    split
    next hmem =>
      simp only [List.mem_cons, iff_or_self]
      rintro rfl
      exact hmem
    next => simp [or_comm]
  next => simp

/-- Every call stores a merged entry for its peer, unless it is the node itself. -/
theorem merged_store {t : Transport} {call : StoreCall} (h : call.peer.peerId ≠ t.peerId) :
    ∃ peer info, (∀ a, a ∈ peer.addrs ↔ a ∈ call.incoming) ∧
      peer.peerId = call.peer.peerId ∧
      (t.store call).peers.get call.peer.peerId = some info ∧
      Merged peer (t.peers.get call.peer.peerId) info := by
  cases call with
  | upsertPeerInfo env peer =>
      obtain ⟨info, hget, hmerged⟩ := merged_upsertPeerInfo env h
      exact ⟨peer, info, fun _ => Iff.rfl, rfl, hget, hmerged⟩
  | confirmPeerRoute env peer key metric =>
      have hid : (t.confirmedPeer peer key metric).peerId ≠
          (t.confirmRoute env peer.peerId key metric).peerId := by
        rw [confirmedPeer_peerId]
        exact h
      obtain ⟨info, hget, hmerged⟩ := merged_upsertPeerInfo env hid
      rw [confirmedPeer_peerId] at hget hmerged
      exact ⟨_, info, fun a => mem_addrs_confirmedPeer, confirmedPeer_peerId t peer key metric,
        hget, hmerged⟩

/-- A call about the node itself stores nothing. -/
theorem peers_store_self {t : Transport} {call : StoreCall} (h : call.peer.peerId = t.peerId) :
    (t.store call).peers = t.peers := by
  cases call with
  | upsertPeerInfo env peer =>
      have hpeer : peer.peerId = t.peerId := h
      rw [store, upsertPeerInfo_self env hpeer]
  | confirmPeerRoute env peer key metric =>
      rw [store, confirmPeerRoute, upsertPeerInfo_self]
      · rfl
      · rw [confirmedPeer_peerId]
        exact h

/-- A call leaves the other peers alone. -/
theorem get_store_of_ne {t : Transport} {call : StoreCall} {p : PeerId}
    (h : p ≠ call.peer.peerId) : (t.store call).peers.get p = t.peers.get p := by
  cases call with
  | upsertPeerInfo env peer => exact get_upsertPeerInfo_of_ne env h
  | confirmPeerRoute env peer key metric =>
      refine get_upsertPeerInfo_of_ne (t := t.confirmRoute env peer.peerId key metric) env ?_
      rw [confirmedPeer_peerId]
      exact h

/-! ## Well-formed stores -/

/-- The node is not in its own store, entries are stored under their ids, and no stored
address is unspecified. -/
structure WellFormed (t : Transport) : Prop where
  noSelf : t.peers.get t.peerId = none
  keyed : ∀ p info, t.peers.get p = some info → info.peerId = p
  specified : ∀ p info, t.peers.get p = some info → ∀ a ∈ info.addrs, a.ip.isUnspecified = false

theorem wellFormed_bind (peerId : PeerId) (localAddr rawLocalAddr : SocketAddr)
    (localTcpAddr : Option SocketAddr) (loadBalance : LoadBalance) :
    (bind peerId localAddr rawLocalAddr localTcpAddr loadBalance).WellFormed where
  noSelf := rfl
  keyed _ _ h := by cases h
  specified _ _ h := by cases h

/-- A call keeps the store well-formed, whatever it brings. -/
theorem WellFormed.store {t : Transport} (h : t.WellFormed) (call : StoreCall) :
    (t.store call).WellFormed := by
  by_cases hself : call.peer.peerId = t.peerId
  · have hpeers := peers_store_self hself
    constructor
    · rw [store_peerId, hpeers]
      exact h.noSelf
    · rw [hpeers]
      exact h.keyed
    · rw [hpeers]
      exact h.specified
  · obtain ⟨peer, info, -, hid, hget, hmerged⟩ := merged_store hself
    constructor
    · rw [store_peerId, get_store_of_ne (Ne.symm hself)]
      exact h.noSelf
    · intro p info' hinfo'
      by_cases hp : p = call.peer.peerId
      · subst hp
        cases hget.symm.trans hinfo'
        rw [hmerged.peerId, hid]
      · rw [get_store_of_ne hp] at hinfo'
        exact h.keyed p info' hinfo'
    · intro p info' hinfo' a ha
      by_cases hp : p = call.peer.peerId
      · subst hp
        cases hget.symm.trans hinfo'
        exact ((hmerged.addrs a).mp ha).1
      · rw [get_store_of_ne hp] at hinfo'
        exact h.specified p info' hinfo' a ha

theorem WellFormed.storeAll {t : Transport} (h : t.WellFormed) (calls : List StoreCall) :
    (t.storeAll calls).WellFormed := by
  induction calls generalizing t with
  | nil => exact h
  | cons call calls ih => exact ih (h.store call)

theorem storeAll_peerId (t : Transport) (calls : List StoreCall) :
    (t.storeAll calls).peerId = t.peerId := by
  induction calls generalizing t with
  | nil => rfl
  | cons call calls ih => exact (ih (t.store call)).trans (store_peerId t call)

/-- What a call does to an entry of a well-formed store: its addresses become the union
of the old ones and the specified ones that come in, a direct peer stays direct, and
NAT information is not lost. -/
theorem WellFormed.entry_store {t : Transport} (h : t.WellFormed) (call : StoreCall) {p : PeerId}
    {info : PeerInfo} (hinfo : t.peers.get p = some info) :
    ∃ info', (t.store call).peers.get p = some info' ∧
      (∀ a, a ∈ info'.addrs ↔ a ∈ info.addrs ∨
        p = call.peer.peerId ∧ a ∈ call.incoming ∧ a.ip.isUnspecified = false) ∧
      (info.isDirect = true → info'.isDirect = true) ∧
      (info.natInfo.isSome = true → info'.natInfo.isSome = true) := by
  by_cases hp : p = call.peer.peerId
  · have hself : call.peer.peerId ≠ t.peerId := by
      rw [← hp]
      rintro rfl
      rw [h.noSelf] at hinfo
      cases hinfo
    obtain ⟨peer, info', haddrs, -, hget, hmerged⟩ := merged_store hself
    rw [← hp] at hget hmerged
    rw [hinfo] at hmerged
    refine ⟨info', hget, ?_, ?_, ?_⟩
    · intro a
      rw [hmerged.addrs, haddrs]
      simp only [Option.some.injEq, exists_eq_left', hp, true_and]
      constructor
      · rintro ⟨hip, hin | hold⟩
        · exact Or.inr ⟨hin, hip⟩
        · exact Or.inl hold
      · rintro (hold | ⟨hin, hip⟩)
        · exact ⟨h.specified p info hinfo a hold, Or.inr hold⟩
        · exact ⟨hip, Or.inl hin⟩
    · intro hdirect
      rw [hmerged.isDirect]
      simp [hdirect]
    · intro hnat
      rw [hmerged.natInfo]
      cases peer.natInfo with
      | none => exact hnat
      | some natInfo => rfl
  · refine ⟨info, ?_, ?_, id, id⟩
    · rw [get_store_of_ne hp, hinfo]
    · intro a
      simp [hp]

/-- After every sequence of calls the node is not in its store, every entry is stored
under its id, and no stored address is unspecified.  Each further call only adds to
an entry. -/
theorem peer_store (peerId : PeerId) (localAddr rawLocalAddr : SocketAddr)
    (localTcpAddr : Option SocketAddr) (loadBalance : LoadBalance) (calls : List StoreCall) :
    let t := (bind peerId localAddr rawLocalAddr localTcpAddr loadBalance).storeAll calls
    t.peers.get peerId = none ∧
      (∀ p info, t.peers.get p = some info →
        info.peerId = p ∧ ∀ a ∈ info.addrs, a.ip.isUnspecified = false) ∧
      ∀ call p info, t.peers.get p = some info →
        ∃ info', (t.store call).peers.get p = some info' ∧
          (∀ a, a ∈ info'.addrs ↔ a ∈ info.addrs ∨
            p = call.peer.peerId ∧ a ∈ call.incoming ∧ a.ip.isUnspecified = false) ∧
          (info.isDirect = true → info'.isDirect = true) ∧
          (info.natInfo.isSome = true → info'.natInfo.isSome = true) := by
  intro t
  have ht : t.WellFormed := (wellFormed_bind peerId localAddr rawLocalAddr localTcpAddr
    loadBalance).storeAll calls
  have hid : t.peerId = peerId := storeAll_peerId _ calls
  refine ⟨?_, ?_, ?_⟩
  · have hself := ht.noSelf
    rwa [hid] at hself
  · intro p info hinfo
    exact ⟨ht.keyed p info hinfo, ht.specified p info hinfo⟩
  · intro call p info hinfo
    exact ht.entry_store call hinfo

end Transport

end RustP2p
