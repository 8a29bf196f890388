import PlacementDriver.Schedule.OperatorSimulation

/-!
# The region scatterer

`RegionScatterer` (`server/schedule/region_scatterer.go`) moves the peers of a
region onto stores picked at random. It keeps, across calls, the set
`selected` of the stores it has picked. A peer whose store is not selected yet
stays, and its store becomes selected. A peer whose store is already selected
moves to a store that is neither selected nor one of the region's and passes
the filters. When no such store is left, the set starts over.

Each move is the steps of `CreateMovePeerOperator`, built against the region
as it was, followed by a leader transfer to the new peer, and the moves of one
call make one operator. When the leader's peer moves, `removePeerSteps`
transfers the leadership to a follower of the region as it was; an earlier
move in the same operator may have removed that follower already.

`rand.Intn` is the draw `draw i` of the loop's pass `i`, taken modulo the
number of candidates. The candidates are in the order of `GetStores`; the
source ranges over a map of them in no fixed order, and the draw picks any
one. `GetStore` of a store the cluster does not know is a nil `*StoreInfo`,
which `NewDistinctScoreFilter` dereferences: the call panics, and
`scatterRegion` is `none`.

## Main results

* `scatterRegion_moves`: the steps of a scatter operator are those of its
  moves, which replace distinct peers of the region by peers on distinct
  stores, none of them the region's or in the selected set the call started
  with. Once the set has started over, no further peer moves.
* `runSteps_moveSteps`: when no moved peer is the leader's, the operator runs
  to its end and leaves as many peers as before, on distinct stores.
-/

namespace PlacementDriver

open Metapb

namespace Schedule

/-- `selectedStores`. -/
structure SelectedStores where
  stores : List UInt64
deriving DecidableEq, Repr

/-- `newSelectedStores()`. -/
def newSelectedStores : SelectedStores := ⟨[]⟩

namespace SelectedStores

variable (s : SelectedStores)

/-- `put(id)`: whether `id` was not selected yet, and the set with it. -/
def put (id : UInt64) : Bool × SelectedStores :=
  if s.stores.contains id then (false, s) else (true, ⟨id :: s.stores⟩)

/-- `reset()`. -/
def reset (_s : SelectedStores) : SelectedStores := newSelectedStores

/-- `newFilter()`: the selected stores, excluded as targets. -/
def newFilter : StoreFilter := .excluded [] s.stores

end SelectedStores

/-- `RegionScatterer`. -/
structure RegionScatterer where
  cluster : Cluster
  classifier : Classifier
  filters : List StoreFilter
  selected : SelectedStores

/-- `NewRegionScatterer(cluster, classifier)`. -/
def newRegionScatterer (cluster : Cluster) (classifier : Classifier) : RegionScatterer :=
  ⟨cluster, classifier, [.storeState ⟨false, false⟩], newSelectedStores⟩

/-- The variables of `scatterRegion`'s loop, with the selected stores. -/
structure ScatterState where
  selected : SelectedStores
  stores : List StoreInfo
  steps : List OperatorStep
  kind : OperatorKind

namespace RegionScatterer

variable (r : RegionScatterer)

/-- `collectAvailableStores(region)`, against the selected stores `selected`. -/
def collectAvailableStores (selected : SelectedStores) (region : RegionInfo) : List StoreInfo :=
  let ns := r.classifier.getRegionNamespace region
  let filters := [selected.newFilter, .excluded [] region.getStoreIds, .inNamespace r.classifier ns] ++ r.filters
  r.cluster.getStores.filter fun store => !filterTarget r.cluster.opt r.cluster.now store filters && !store.stats.isBusy

/-- `selectPeerToReplace(stores, region, oldPeer)`, with `n` the draw of
`rand.Intn`. The outer `none` is the nil dereference of an unknown source
store. -/
def selectPeerToReplace (stores : List StoreInfo) (region : RegionInfo) (oldPeer : Peer) (n : Nat) :
    Option (Option Peer) :=
  (r.cluster.getStore oldPeer.storeId).map fun sourceStore =>
    -- the distinct score of the region's stores must not drop
    let scoreGuard := newDistinctScoreFilter r.cluster.opt.locationLabels (r.cluster.getRegionStores region) sourceStore
    let candidates := stores.filter fun store => !scoreGuard.filterTarget r.cluster.opt r.cluster.now store
    if candidates.isEmpty then none
    else (candidates[n % candidates.length]?).bind fun target => r.cluster.allocPeer target.getId

/-- The start of a pass of `scatterRegion`'s loop: with no store left, the
selected stores start over, and the stores are collected again. -/
def refill (region : RegionInfo) (st : ScatterState) : ScatterState :=
  if st.stores.isEmpty then
    { st with selected := st.selected.reset, stores := r.collectAvailableStores st.selected.reset region }
  else st

/-- One pass of `scatterRegion`'s loop, over `peer`, with `n` the draw for it. -/
def scatterPeer (region : RegionInfo) (st : ScatterState) (peer : Peer) (n : Nat) : Option ScatterState :=
  let st := r.refill region st
  let put := st.selected.put peer.storeId
  if put.1 then some { st with selected := put.2, stores := st.stores.filter (·.getId != peer.storeId) }
  else (r.selectPeerToReplace st.stores region peer n).map fun
    | none => st
    | some newPeer =>
      let op := createMovePeerOperator "scatter-peer" r.cluster region opAdmin peer.storeId newPeer.storeId newPeer.id
        r.cluster.now
      { selected := (st.selected.put newPeer.storeId).2
        stores := st.stores.filter (·.getId != newPeer.storeId)
        steps := st.steps ++ op.steps ++ [.transferLeader 0 newPeer.storeId]
        kind := st.kind ||| op.kind }

/-- `scatterRegion(region)`, with `draw i` the draw of pass `i`: the operator,
if the loop made a step, and the selected stores after the loop. -/
def scatterRegion (region : RegionInfo) (draw : Nat → Nat) : Option (Option Operator × SelectedStores) :=
  let init : ScatterState := ⟨r.selected, r.collectAvailableStores r.selected region, [], 0⟩
  (region.getPeers.zipIdx.foldlM (fun st (peer, i) => r.scatterPeer region st peer (draw i)) init).map
    fun (st : ScatterState) =>
    (if st.steps.isEmpty then none
      else some (newOperator "scatter-region" region.getID region.getRegionEpoch st.kind st.steps r.cluster.now),
     st.selected)

/-- `Scatter(region)`: nothing for a hot region, or one without `MaxReplicas`
peers. -/
def scatter (region : RegionInfo) (draw : Nat → Nat) : Option (Option Operator × SelectedStores) :=
  if r.cluster.isRegionHot region.getID then some (none, r.selected)
  else if region.getPeers.length != r.cluster.opt.maxReplicas then some (none, r.selected)
  else r.scatterRegion region draw

end RegionScatterer

/-! ## The moves of one call -/

/-- The steps of the moves `moves`, each a peer of the region and the peer
that replaces it: `CreateMovePeerOperator` against the region, then the
leadership to the new peer. -/
def moveSteps (cluster : Cluster) (region : RegionInfo) (moves : List (Peer × Peer)) : List OperatorStep :=
  (moves.map fun m => (createMovePeerOperator "scatter-peer" cluster region opAdmin m.1.storeId m.2.storeId m.2.id
    cluster.now).steps ++ [.transferLeader 0 m.2.storeId]).flatten

theorem moveSteps_append_singleton (cluster : Cluster) (region : RegionInfo) (moves : List (Peer × Peer))
    (m : Peer × Peer) :
    moveSteps cluster region (moves ++ [m]) = moveSteps cluster region moves ++
      ((createMovePeerOperator "scatter-peer" cluster region opAdmin m.1.storeId m.2.storeId m.2.id
        cluster.now).steps ++ [.transferLeader 0 m.2.storeId]) := by
  simp [moveSteps]

namespace SelectedStores

variable {s : SelectedStores} {id x : UInt64}

theorem mem_put_snd : x ∈ (s.put id).2.stores ↔ x = id ∨ x ∈ s.stores := by
  unfold put
  split
  · next h =>
    have hid : id ∈ s.stores := List.contains_iff_mem.mp h
    constructor
    · exact .inr
    · rintro (rfl | hx)
      · exact hid
      · exact hx
  · simp

theorem mem_of_put_fst (h : (s.put id).1 = false) : id ∈ s.stores := by
  unfold put at h
  split at h
  · next hc => exact List.contains_iff_mem.mp hc
  · cases h

end SelectedStores

namespace RegionScatterer

variable {r : RegionScatterer} {region : RegionInfo}

/-- A store `collectAvailableStores` returns is neither selected nor one of
the region's. -/
theorem mem_collectAvailableStores {selected : SelectedStores} {s : StoreInfo}
    (h : s ∈ r.collectAvailableStores selected region) :
    s.getId ∉ selected.stores ∧ s.getId ∉ region.getStoreIds := by
  unfold collectAvailableStores at h
  obtain ⟨-, hpass⟩ := List.mem_filter.mp h
  simp only [Bool.and_eq_true, Bool.not_eq_true'] at hpass
  simp [filterTarget, StoreFilter.filterTarget, SelectedStores.newFilter] at hpass
  exact ⟨hpass.1.1, hpass.1.2.1⟩

/-- The peer `selectPeerToReplace` allocates is on one of the stores it was
given, when `AllocPeer` allocates on the store it is asked for. -/
theorem selectPeerToReplace_eq_some (halloc : ∀ s p, r.cluster.allocPeer s = some p → p.storeId = s)
    {stores : List StoreInfo} {oldPeer newPeer : Peer} {n : Nat}
    (h : r.selectPeerToReplace stores region oldPeer n = some (some newPeer)) :
    ∃ s ∈ stores, newPeer.storeId = s.getId := by
  obtain ⟨sourceStore, -, h⟩ := Option.map_eq_some_iff.mp h
  dsimp only at h
  split at h
  · cases h
  · obtain ⟨target, htarget, halloc'⟩ := Option.bind_eq_some_iff.mp h
    exact ⟨target, (List.mem_filter.mp (List.mem_of_getElem? htarget)).1, halloc _ _ halloc'⟩

/-- What `scatterRegion`'s loop keeps after the peers `done`, with the moves
`moves` made so far. The steps are the moves'. The stores left to pick from
are neither selected nor the region's. Each move replaced a peer passed by one
on a store outside the region and outside the set the call started with, all
on distinct stores. Either the selected stores still hold the starting set and
every store picked, or the set has started over and holds only stores of
peers passed. -/
structure LoopInv (r : RegionScatterer) (region : RegionInfo) (done : List Peer) (st : ScatterState)
    (moves : List (Peer × Peer)) : Prop where
  steps : st.steps = moveSteps r.cluster region moves
  available : ∀ s ∈ st.stores, s.getId ∉ st.selected.stores ∧ s.getId ∉ region.getStoreIds
  moved : (moves.map Prod.fst).Sublist done
  outside : ∀ m ∈ moves, m.2.storeId ∉ region.getStoreIds ∧ m.2.storeId ∉ r.selected.stores
  distinct : (moves.map (·.2.storeId)).Nodup
  selected : ((∀ x ∈ r.selected.stores, x ∈ st.selected.stores) ∧ ∀ m ∈ moves, m.2.storeId ∈ st.selected.stores) ∨
    ∀ x ∈ st.selected.stores, x ∈ done.map (·.storeId)

variable {done : List Peer} {st : ScatterState} {moves : List (Peer × Peer)}

theorem LoopInv.refill (h : LoopInv r region done st moves) : LoopInv r region done (r.refill region st) moves := by
  unfold RegionScatterer.refill
  split
  · exact { steps := h.steps
            available := fun s hs => mem_collectAvailableStores hs
            moved := h.moved
            outside := h.outside
            distinct := h.distinct
            selected := .inr fun x hx => by simp [SelectedStores.reset, newSelectedStores] at hx }
  · exact h

/-- A peer whose store was not selected stays, and its store is selected. -/
theorem LoopInv.keep (h : LoopInv r region done st moves) (p : Peer) :
    LoopInv r region (done ++ [p])
      { st with selected := (st.selected.put p.storeId).2, stores := st.stores.filter (·.getId != p.storeId) } moves where
  steps := h.steps
  available s hs := by
    obtain ⟨hs, hne⟩ := List.mem_filter.mp hs
    refine ⟨fun hin => ?_, (h.available s hs).2⟩
    rcases SelectedStores.mem_put_snd.mp hin with heq | hin
    · simp [heq] at hne
    · exact (h.available s hs).1 hin
  moved := h.moved.trans (List.sublist_append_left _ _)
  outside := h.outside
  distinct := h.distinct
  selected := by
    rcases h.selected with ⟨hinit, hmoves⟩ | hdone
    · exact .inl ⟨fun x hx => SelectedStores.mem_put_snd.mpr (.inr (hinit x hx)),
        fun m hm => SelectedStores.mem_put_snd.mpr (.inr (hmoves m hm))⟩
    · refine .inr fun x hx => ?_
      rcases SelectedStores.mem_put_snd.mp hx with rfl | hx
      · simp
      · simp [hdone x hx]

/-- A peer with no store to move to stays as it is. -/
theorem LoopInv.skip (h : LoopInv r region done st moves) (p : Peer) : LoopInv r region (done ++ [p]) st moves where
  steps := h.steps
  available := h.available
  moved := h.moved.trans (List.sublist_append_left _ _)
  outside := h.outside
  distinct := h.distinct
  selected := h.selected.imp id fun hdone x hx => by simp [hdone x hx]

/-- A peer whose store was selected moves to a store left to pick from. -/
theorem LoopInv.move (h : LoopInv r region done st moves) {p newPeer : Peer}
    (hsel : p.storeId ∈ st.selected.stores) (hp : p.storeId ∉ done.map (·.storeId)) {s : StoreInfo}
    (hs : s ∈ st.stores) (hnew : newPeer.storeId = s.getId) (k : OperatorKind) :
    LoopInv r region (done ++ [p])
      { selected := (st.selected.put newPeer.storeId).2
        stores := st.stores.filter (·.getId != newPeer.storeId)
        steps := st.steps ++ (createMovePeerOperator "scatter-peer" r.cluster region opAdmin p.storeId newPeer.storeId
          newPeer.id r.cluster.now).steps ++ [.transferLeader 0 newPeer.storeId]
        kind := k } (moves ++ [(p, newPeer)]) := by
  -- after a reset only stores of passed peers are selected, and this one's is not
  obtain ⟨hinit, hmoves⟩ := h.selected.resolve_right fun hdone => hp (hdone _ hsel)
  obtain ⟨hfree, hout⟩ := h.available s hs
  rw [← hnew] at hfree hout
  refine ⟨?_, fun s' hs' => ?_, ?_, fun m hm => ?_, ?_, .inl ⟨?_, fun m hm => ?_⟩⟩
  · rw [moveSteps_append_singleton, ← h.steps, List.append_assoc]
  · obtain ⟨hs', hne⟩ := List.mem_filter.mp hs'
    refine ⟨fun hin => ?_, (h.available s' hs').2⟩
    rcases SelectedStores.mem_put_snd.mp hin with heq | hin
    · simp [heq] at hne
    · exact (h.available s' hs').1 hin
  · rw [List.map_append]
    exact h.moved.append (List.Sublist.refl _)
  · rcases List.mem_append.mp hm with hm | hm
    · exact h.outside m hm
    · rw [List.mem_singleton.mp hm]
      exact ⟨hout, fun hin => hfree (hinit _ hin)⟩
  · rw [List.map_append, List.nodup_append]
    refine ⟨h.distinct, List.nodup_singleton _, fun a ha b hb hab => ?_⟩
    rw [List.map_singleton, List.mem_singleton] at hb
    obtain ⟨m, hm, rfl⟩ := List.mem_map.mp ha
    have hsame : m.2.storeId = newPeer.storeId := hab.trans hb
    exact hfree (hsame ▸ hmoves m hm)
  · exact fun x hx => SelectedStores.mem_put_snd.mpr (.inr (hinit x hx))
  · rcases List.mem_append.mp hm with hm | hm
    · exact SelectedStores.mem_put_snd.mpr (.inr (hmoves m hm))
    · rw [List.mem_singleton.mp hm]
      exact SelectedStores.mem_put_snd.mpr (.inl rfl)

/-- One pass of the loop keeps the invariant, when `AllocPeer` allocates on
the store it is asked for and the peer's store is not a passed peer's. -/
theorem LoopInv.scatterPeer (halloc : ∀ s p, r.cluster.allocPeer s = some p → p.storeId = s)
    (h : LoopInv r region done st moves) {p : Peer} {n : Nat} (hp : p.storeId ∉ done.map (·.storeId))
    {st' : ScatterState} (hstep : r.scatterPeer region st p n = some st') :
    ∃ moves', LoopInv r region (done ++ [p]) st' moves' := by
  unfold RegionScatterer.scatterPeer at hstep
  generalize hst₀ : r.refill region st = st₀ at hstep
  have h₀ : LoopInv r region done st₀ moves := hst₀ ▸ h.refill
  dsimp only at hstep
  split at hstep
  · cases hstep
    exact ⟨moves, h₀.keep p⟩
  · next hfresh =>
    obtain ⟨o, ho, rfl⟩ := Option.map_eq_some_iff.mp hstep
    cases o with
    | none => exact ⟨moves, h₀.skip p⟩
    | some newPeer =>
      obtain ⟨s, hs, hnew⟩ := selectPeerToReplace_eq_some halloc ho
      exact ⟨_, h₀.move (SelectedStores.mem_of_put_fst (by simpa using hfresh)) hp hs hnew _⟩

/-- The loop over the rest of the peers keeps the invariant. -/
theorem LoopInv.foldlM (halloc : ∀ s p, r.cluster.allocPeer s = some p → p.storeId = s) (hr : region.Placed)
    {draw : Nat → Nat} {ps : List (Peer × Nat)} (h : LoopInv r region done st moves)
    (hps : done ++ ps.map Prod.fst = region.getPeers) {st' : ScatterState}
    (hrun : ps.foldlM (fun st (peer, i) => r.scatterPeer region st peer (draw i)) st = some st') :
    ∃ moves', LoopInv r region region.getPeers st' moves' := by
  induction ps generalizing done st moves with
  | nil =>
    cases hrun
    rw [List.map_nil, List.append_nil] at hps
    exact ⟨moves, hps ▸ h⟩
  | cons q ps ih =>
    obtain ⟨p, i⟩ := q
    simp only [List.foldlM_cons, Option.bind_eq_bind] at hrun
    obtain ⟨st₁, h₁, hrun⟩ := Option.bind_eq_some_iff.mp hrun
    -- the region's stores are distinct, so the peer's is not a passed peer's
    have hp : p.storeId ∉ done.map (·.storeId) := by
      have hnd := hr.peerStores
      rw [RegionInfo.getStoreIds_eq, ← hps, List.map_append, List.nodup_append] at hnd
      exact fun hin => hnd.2.2 _ hin _ (by simp) rfl
    obtain ⟨moves₁, h₁⟩ := h.scatterPeer halloc hp h₁
    exact ih h₁ (by simpa using hps) hrun

end RegionScatterer

/-- The moves of a scatter operator: each replaces a distinct peer of the
region by a peer on a store that is neither the region's nor in the selected
set the call started with, the new stores all distinct. -/
theorem scatterRegion_moves {r : RegionScatterer} {region : RegionInfo} (hr : region.Placed)
    (halloc : ∀ s p, r.cluster.allocPeer s = some p → p.storeId = s) {draw : Nat → Nat} {op : Operator}
    {selected : SelectedStores} (h : r.scatterRegion region draw = some (some op, selected)) :
    ∃ moves : List (Peer × Peer), op.steps = moveSteps r.cluster region moves ∧
      (moves.map Prod.fst).Sublist region.getPeers ∧ (moves.map (·.2.storeId)).Nodup ∧
      ∀ m ∈ moves, m.2.storeId ∉ region.getStoreIds ∧ m.2.storeId ∉ r.selected.stores := by
  unfold RegionScatterer.scatterRegion at h
  obtain ⟨st, hrun, hst⟩ := Option.map_eq_some_iff.mp h
  have hinit : RegionScatterer.LoopInv r region [] ⟨r.selected, r.collectAvailableStores r.selected region, [], 0⟩ [] :=
    { steps := rfl
      available := fun s hs => RegionScatterer.mem_collectAvailableStores hs
      moved := List.Sublist.slnil
      outside := by simp
      distinct := List.nodup_nil
      selected := .inl ⟨fun x hx => hx, by simp⟩ }
  obtain ⟨moves, hinv⟩ := hinit.foldlM halloc hr (by simp [List.zipIdx_map_fst]) hrun
  -- the operator is made of the loop's steps
  have hop : op.steps = st.steps := by
    split at hst
    · simp at hst
    · simp only [Prod.mk.injEq, Option.some.injEq] at hst
      rw [← hst.1]
      rfl
  exact ⟨moves, hop.trans hinv.steps, hinv.moved, hinv.distinct, hinv.outside⟩

/-! ## Moves that leave the leader in place -/

section KeptLeader

open RegionInfo

variable {cluster : Cluster} {region cur : RegionInfo}

/-- The new voter of a move. -/
def movedPeer (m : Peer × Peer) : Peer := ⟨m.2.id, m.2.storeId, false⟩

/-- The move of a peer off a store the region's leader is not on runs on
every placed region that holds no peer on the new store and its leader
elsewhere, and leaves the new voter leading. -/
theorem runSteps_moveFollower {m : Peer × Peer} (hcur : cur.Placed) (hfollower : ¬ region.LeaderOn m.1.storeId)
    (hleader : ¬ cur.LeaderOn m.1.storeId) (hnew : m.2.storeId ∉ cur.getStoreIds) (hne : m.2.storeId ≠ m.1.storeId) :
    runSteps cur ((createMovePeerOperator "scatter-peer" cluster region opAdmin m.1.storeId m.2.storeId m.2.id
        cluster.now).steps ++ [.transferLeader 0 m.2.storeId]) =
      some { cur.withPeers ((cur.getPeers ++ [movedPeer m]).filter (·.storeId != m.1.storeId)) with
        leader := some (movedPeer m) } := by
  have hadd : runSteps cur (if cluster.isRaftLearnerEnabled then [.addLearner m.2.storeId m.2.id,
      .promoteLearner m.2.storeId m.2.id] else [.addPeer m.2.storeId m.2.id]) =
      some (cur.withPeers (cur.getPeers ++ [movedPeer m])) :=
    runSteps_addVoter _ hcur hnew
  have hremove : (OperatorStep.removePeer m.1.storeId).apply (cur.withPeers (cur.getPeers ++ [movedPeer m])) =
      some ((cur.withPeers (cur.getPeers ++ [movedPeer m])).withPeers
        ((cur.getPeers ++ [movedPeer m]).filter (·.storeId != m.1.storeId))) :=
    apply_removePeer hleader
  -- the new voter survives the removal, and is the voter on its store
  have hvoter : ((cur.withPeers (cur.getPeers ++ [movedPeer m])).withPeers
      ((cur.getPeers ++ [movedPeer m]).filter (·.storeId != m.1.storeId))).getStoreVoter m.2.storeId =
      some (movedPeer m) := by
    have hmem : movedPeer m ∈ (cur.getPeers ++ [movedPeer m]).filter (·.storeId != m.1.storeId) :=
      List.mem_filter.mpr ⟨by simp, by simpa [movedPeer] using hne⟩
    exact ((hcur.append (p := movedPeer m) hnew).filter hleader).getStoreVoter_eq (p := movedPeer m) hmem rfl
  rw [createMovePeerOperator_steps, removePeerSteps_of_not_leaderOn hfollower, runSteps_append, runSteps_append,
    hadd, Option.bind_some, runSteps_cons, hremove, Option.bind_some, runSteps_nil, Option.bind_some, runSteps_cons,
    OperatorStep.apply, hvoter]
  rfl

theorem moveSteps_cons (m : Peer × Peer) (moves : List (Peer × Peer)) :
    moveSteps cluster region (m :: moves) =
      ((createMovePeerOperator "scatter-peer" cluster region opAdmin m.1.storeId m.2.storeId m.2.id
        cluster.now).steps ++ [.transferLeader 0 m.2.storeId]) ++ moveSteps cluster region moves := rfl

/-- Removing the old store's peer after adding a peer that stays. -/
theorem filter_move {ps : List Peer} {o : UInt64} {olds : List UInt64} {q : Peer} (hqo : q.storeId ≠ o)
    (hq : q.storeId ∉ olds) :
    ((ps ++ [q]).filter (·.storeId != o)).filter (fun p => !olds.contains p.storeId) =
      ps.filter (fun p => !(o :: olds).contains p.storeId) ++ [q] := by
  have hkept : (q.storeId != o) = true := by simpa using hqo
  have hstays : (!olds.contains q.storeId) = true := by simpa using hq
  simp only [List.filter_append, List.filter_cons, List.filter_nil, hkept, hstays, if_true, List.filter_filter]
  congr 1
  exact List.filter_congr fun p _ => by simp [Bool.and_comm, bne, beq_eq_decide]

/-- Moves of followers to new, distinct stores run one after another from any
placed region whose leader is on none of the old stores. -/
theorem runSteps_moveSteps_of_followers {moves : List (Peer × Peer)} (hcur : cur.Placed)
    (hfollowers : ∀ m ∈ moves, ¬ region.LeaderOn m.1.storeId)
    (hleader : ∀ l, cur.leader = some l → l.storeId ∉ moves.map (·.1.storeId))
    (hnew : ∀ m ∈ moves, m.2.storeId ∉ cur.getStoreIds) (hdistinct : (moves.map (·.2.storeId)).Nodup)
    (hapart : ∀ m ∈ moves, ∀ m' ∈ moves, m.2.storeId ≠ m'.1.storeId) :
    ∃ r', runSteps cur (moveSteps cluster region moves) = some r' ∧
      r'.getPeers = cur.getPeers.filter (fun p => !(moves.map (·.1.storeId)).contains p.storeId) ++
        moves.map movedPeer := by
  induction moves generalizing cur with
  | nil => exact ⟨cur, rfl, by simp⟩
  | cons m moves ih =>
    have hm : m ∈ m :: moves := List.mem_cons_self
    have hnot : ¬ cur.LeaderOn m.1.storeId := by
      rintro ⟨l, hl, hls⟩
      exact hleader l hl (by simp [hls])
    have hrun := @runSteps_moveFollower cluster region cur m hcur (hfollowers m hm) hnot (hnew m hm)
      (hapart m hm m hm)
    obtain ⟨hfresh, hdistinct⟩ := List.nodup_cons.mp hdistinct
    -- after the move the new voter leads, on a store no later move touches
    have hleader₁ : ∀ l, some (movedPeer m) = some l → l.storeId ∉ moves.map (·.1.storeId) := by
      rintro l ⟨⟩ hin
      obtain ⟨m', hm', hs⟩ := List.mem_map.mp hin
      exact hapart m hm m' (List.mem_cons_of_mem _ hm') hs.symm
    have hnew₁ : ∀ m' ∈ moves, m'.2.storeId ∉
        (cur.withPeers ((cur.getPeers ++ [movedPeer m]).filter (·.storeId != m.1.storeId))).getStoreIds := by
      intro m' hm' hin
      obtain ⟨q, hq, hqs⟩ := mem_getStoreIds.mp hin
      rcases List.mem_append.mp (List.mem_filter.mp hq).1 with hq | hq
      · exact hnew m' (List.mem_cons_of_mem _ hm') (mem_getStoreIds.mpr ⟨q, hq, hqs⟩)
      · rw [List.mem_singleton.mp hq] at hqs
        exact hfresh (List.mem_map.mpr ⟨m', hm', hqs.symm⟩)
    obtain ⟨r', hrun', hpeers⟩ := ih (hcur.runSteps hrun) (fun m' hm' => hfollowers m' (List.mem_cons_of_mem _ hm'))
      hleader₁ hnew₁ hdistinct
      (fun m₁ hm₁ m₂ hm₂ => hapart m₁ (List.mem_cons_of_mem _ hm₁) m₂ (List.mem_cons_of_mem _ hm₂))
    refine ⟨r', ?_, ?_⟩
    · rw [moveSteps_cons, runSteps_append, hrun, Option.bind_some, hrun']
    · have hout : (movedPeer m).storeId ∉ moves.map (·.1.storeId) := hleader₁ _ rfl
      rw [hpeers]
      show ((cur.getPeers ++ [movedPeer m]).filter (·.storeId != m.1.storeId)).filter
          (fun p => !(moves.map (·.1.storeId)).contains p.storeId) ++ moves.map movedPeer = _
      rw [filter_move (q := movedPeer m) (hapart m hm m hm) hout, List.map_cons, List.map_cons, List.append_assoc]
      rfl

/-- Every other peer of a placed region stays: as many peers as the moves
replace are dropped. -/
theorem length_filter_moved (hr : region.Placed) {moves : List (Peer × Peer)}
    (hsub : (moves.map Prod.fst).Sublist region.getPeers) :
    (region.getPeers.filter fun p => !(moves.map (·.1.storeId)).contains p.storeId).length + moves.length =
      region.getPeers.length := by
  have hnodup : region.getPeers.Nodup := List.Nodup.of_map _ hr.peerStores
  -- the dropped peers are the moved ones
  have hdropped : (region.getPeers.filter fun p => (moves.map (·.1.storeId)).contains p.storeId).Perm
      (moves.map Prod.fst) := by
    rw [List.perm_ext_iff_of_nodup (hnodup.filter _) (hnodup.sublist hsub)]
    intro p
    simp only [List.mem_filter, List.contains_iff_mem, List.mem_map]
    constructor
    · rintro ⟨hp, m, hm, hs⟩
      exact ⟨m, hm, hr.eq_of_storeId (hsub.subset (List.mem_map_of_mem hm)) hp hs⟩
    · rintro ⟨m, hm, rfl⟩
      exact ⟨hsub.subset (List.mem_map_of_mem hm), m, hm, rfl⟩
  have hsplit := (List.filter_append_perm (fun p => (moves.map (·.1.storeId)).contains p.storeId)
    region.getPeers).length_eq
  rw [List.length_append, hdropped.length_eq, List.length_map] at hsplit
  omega

/-- When no moved peer is the leader's, the steps of the moves run to their
end and leave as many peers as before, on distinct stores. -/
theorem runSteps_moveSteps (hr : region.Placed) {moves : List (Peer × Peer)}
    (hsub : (moves.map Prod.fst).Sublist region.getPeers) (hdistinct : (moves.map (·.2.storeId)).Nodup)
    (hout : ∀ m ∈ moves, m.2.storeId ∉ region.getStoreIds)
    (hfollowers : ∀ m ∈ moves, ¬ region.LeaderOn m.1.storeId) :
    ∃ r', runSteps region (moveSteps cluster region moves) = some r' ∧ r'.Placed ∧
      r'.getPeers.length = region.getPeers.length := by
  have hleader : ∀ l, region.leader = some l → l.storeId ∉ moves.map (·.1.storeId) := by
    intro l hl hin
    obtain ⟨m, hm, hs⟩ := List.mem_map.mp hin
    exact hfollowers m hm ⟨l, hl, hs.symm⟩
  have hapart : ∀ m ∈ moves, ∀ m' ∈ moves, m.2.storeId ≠ m'.1.storeId := by
    intro m hm m' hm' hs
    exact hout m hm (hs ▸ mem_getStoreIds.mpr ⟨m'.1, hsub.subset (List.mem_map_of_mem hm'), rfl⟩)
  obtain ⟨r', hrun, hpeers⟩ :=
    @runSteps_moveSteps_of_followers cluster region region moves hr hfollowers hleader hout hdistinct hapart
  refine ⟨r', hrun, hr.runSteps hrun, ?_⟩
  rw [hpeers, List.length_append, List.length_map]
  exact length_filter_moved hr hsub

end KeptLeader

/-! ## A leader moved after its successor -/

/-- Three peers on stores `1`, `2` and `3`, led from store `2`. -/
def threeRegion : RegionInfo :=
  newRegionInfo ⟨5, [], [], ⟨1, 1⟩, [⟨1, 1, false⟩, ⟨2, 2, false⟩, ⟨3, 3, false⟩]⟩ (some ⟨2, 2, false⟩)

/-- Five up stores; the peer allocated on store `s` has id `10 + s`. -/
def fiveStoreCluster : Cluster :=
  Cluster.ofRegions defaultScheduleOption 0 ((List.range 5).map fun i => upStore (i + 1).toUInt64 [])
    RegionsInfo.newRegionsInfo (fun _ _ => 0) (fun storeId => some ⟨10 + storeId, storeId, false⟩) false
    (fun _ => false)

/-- A scatterer that has picked stores `1` and `2` before. -/
def busyScatterer : RegionScatterer := { newRegionScatterer fiveStoreCluster defaultClassifier with selected := ⟨[1, 2]⟩ }

theorem placed_threeRegion : threeRegion.Placed := ⟨by decide, ⟨2, 2, false⟩, rfl, by decide⟩

theorem scatter_transfers_to_removed_peer :
    (∀ (r : RegionScatterer) (region : RegionInfo) (draw : Nat → Nat) (op : Operator) (selected : SelectedStores),
      region.Placed → (∀ s p, r.cluster.allocPeer s = some p → p.storeId = s) →
      r.scatterRegion region draw = some (some op, selected) →
      ∃ moves : List (Peer × Peer), op.steps = moveSteps r.cluster region moves ∧
        (moves.map Prod.fst).Sublist region.getPeers ∧ (moves.map (·.2.storeId)).Nodup ∧
        (∀ m ∈ moves, m.2.storeId ∉ region.getStoreIds ∧ m.2.storeId ∉ r.selected.stores) ∧
        ((∀ m ∈ moves, ¬ region.LeaderOn m.1.storeId) →
          ∃ r', runSteps region op.steps = some r' ∧ r'.Placed ∧ r'.getPeers.length = region.getPeers.length)) ∧
    threeRegion.Placed ∧ threeRegion.getPeers.length = fiveStoreCluster.opt.maxReplicas ∧
    (busyScatterer.scatter threeRegion fun _ => 0).map (·.1.map (·.steps)) =
      some (some [.addPeer 4 14, .removePeer 1, .transferLeader 0 4,
        .addPeer 5 15, .transferLeader 2 1, .removePeer 2, .transferLeader 0 5]) ∧
    (∃ r₄, runSteps threeRegion [.addPeer 4 14, .removePeer 1, .transferLeader 0 4, .addPeer 5 15] = some r₄ ∧
      r₄.getStoreVoter 1 = none) ∧
    runSteps threeRegion [.addPeer 4 14, .removePeer 1, .transferLeader 0 4,
      .addPeer 5 15, .transferLeader 2 1, .removePeer 2, .transferLeader 0 5] = none := by
  refine ⟨fun r region draw op selected hr halloc h => ?_, placed_threeRegion, rfl, by decide, ⟨_, rfl, rfl⟩, rfl⟩
  obtain ⟨moves, hsteps, hsub, hdistinct, hout⟩ := scatterRegion_moves hr halloc h
  refine ⟨moves, hsteps, hsub, hdistinct, hout, fun hfollowers => ?_⟩
  rw [hsteps]
  exact runSteps_moveSteps hr hsub hdistinct (fun m hm => (hout m hm).1) hfollowers

end Schedule

end PlacementDriver
