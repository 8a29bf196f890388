import Mathlib

/-!
# Regions and their peers

The data model shared by every part of PD that touches regions: the
`metapb` messages a store reports (`Peer`, `RegionEpoch`, `Region`), the
`pdpb.PeerStats` of a down peer, and `core.RegionInfo`, the read-only record
PD builds from a heartbeat.

Keys are `[]byte` compared by `bytes.Compare`, that is lexicographically, so a
key is a list of bytes under the list order. An empty `EndKey` is the end of
the key space; `endBound` turns it into `⊤`, which is how every range test in
`region_tree.go` reads it.

`classifyVoterAndLearner` runs on every path that creates a `RegionInfo`
(`NewRegionInfo`, `RegionFromHeartbeat`, `Clone`), so the `voters` and
`learners` slices are always the split of `meta.Peers` by `IsLearner`. We
therefore make them functions of the meta rather than fields: a `RegionInfo`
whose slices disagree with its peers cannot be built.

A nil `*RegionEpoch` reads as version and conf version `0` through the
generated getters, which is all the code ever does with it, so the epoch is a
plain value here.
-/

namespace PlacementDriver

/-- A byte. -/
abbrev Byte := Fin 256

/-- The size of a byte is not zero: one named instance, which every byte
literal then cites instead of a proof of its own. -/
instance byteSizeNeZero : NeZero (256 : Nat) := ⟨by decide⟩

/-- A region key: `[]byte`, ordered as `bytes.Compare` orders it, that is
lexicographically. `Key` is a definition rather than an abbreviation so that
its order has one instance, the lexicographic one of Mathlib. -/
def Key := List Byte

instance : LinearOrder Key := inferInstanceAs (LinearOrder (List Byte))

instance : Repr Key := inferInstanceAs (Repr (List Byte))

/-- How a region end key bounds its range: `len(end) == 0` is `+∞`. -/
def endBound (e : Key) : WithTop Key := if e.isEmpty then ⊤ else (e : WithTop Key)

@[simp] theorem endBound_nil : endBound [] = ⊤ := rfl

theorem endBound_of_ne_nil {e : Key} (h : e ≠ []) : endBound e = (e : WithTop Key) := by
  simp [endBound, List.isEmpty_eq_false_iff.mpr h]

/-- The empty key is the least key. -/
theorem nil_le_key (k : Key) : ([] : Key) ≤ k := by
  cases k with
  | nil => exact le_rfl
  | cons b k => exact le_of_lt (show List.Lex (· < ·) [] (b :: k) from List.Lex.nil)

namespace Metapb

/-- `metapb.Peer`. -/
structure Peer where
  id : UInt64
  storeId : UInt64
  isLearner : Bool
deriving DecidableEq, Repr

/-- `metapb.RegionEpoch`. -/
structure RegionEpoch where
  confVer : UInt64
  version : UInt64
deriving DecidableEq, Repr

/-- `metapb.Region`: the range `[startKey, endKey)`, its epoch and peers. -/
structure Region where
  id : UInt64
  startKey : Key
  endKey : Key
  regionEpoch : RegionEpoch
  peers : List Peer
deriving DecidableEq, Repr

/-- A region with only a start key, as `&metapb.Region{StartKey: key}`. -/
def Region.ofStartKey (key : Key) : Region := ⟨0, key, [], ⟨0, 0⟩, []⟩

@[simp] theorem Region.ofStartKey_startKey (key : Key) : (Region.ofStartKey key).startKey = key :=
  rfl

end Metapb

namespace Pdpb

/-- `pdpb.PeerStats`: a down peer and for how long it has been down. -/
structure PeerStats where
  peer : Metapb.Peer
  downSeconds : UInt64
deriving DecidableEq, Repr

end Pdpb

open Metapb

/-- `core.RegionInfo`; its `meta` field is `regionMeta`, as `meta` is a Lean
keyword. The sizes are `int64` in the source. -/
structure RegionInfo where
  regionMeta : Region
  leader : Option Peer
  downPeers : List Pdpb.PeerStats
  pendingPeers : List Peer
  writtenBytes : UInt64
  readBytes : UInt64
  approximateSize : Int
  approximateKeys : Int
deriving DecidableEq, Repr

/-- `NewRegionInfo(region, leader)` with no options: no down or pending peers,
and zero flows and sizes. -/
def newRegionInfo (region : Region) (leader : Option Peer) : RegionInfo :=
  ⟨region, leader, [], [], 0, 0, 0, 0⟩

namespace RegionInfo

variable (r : RegionInfo)

/-- `GetID`. -/
def getID : UInt64 := r.regionMeta.id

/-- `GetPeers`. -/
def getPeers : List Peer := r.regionMeta.peers

/-- `GetVoters`: the non-learner peers, as `classifyVoterAndLearner` sorts them. -/
def getVoters : List Peer := r.regionMeta.peers.filter (fun p => !p.isLearner)

/-- `GetLearners`. -/
def getLearners : List Peer := r.regionMeta.peers.filter (fun p => p.isLearner)

/-- `GetLeader().GetId()`: a nil leader reads as peer id `0`. -/
def leaderId : UInt64 := match r.leader with
  | some p => p.id
  | none => 0

/-- `GetLeader().GetStoreId()`. -/
def leaderStoreId : UInt64 := match r.leader with
  | some p => p.storeId
  | none => 0

/-- `GetStorePeer(storeID)`. -/
def getStorePeer (storeId : UInt64) : Option Peer :=
  r.regionMeta.peers.find? (fun p => p.storeId == storeId)

/-- `GetStoreIds()`: the stores of the peers, in the order of the peers. -/
def getStoreIds : List UInt64 := r.regionMeta.peers.map (·.storeId)

/-- `GetRegionEpoch`. -/
def getRegionEpoch : RegionEpoch := r.regionMeta.regionEpoch

/-! ## Roles of a region on a store

These are the facts `RegionsInfo`'s per-store indexes are meant to record,
stated about the region itself. -/

/-- The region's leader is on store `s`. -/
def LeaderOn (s : UInt64) : Prop := ∃ p, r.leader = some p ∧ p.storeId = s

/-- A voter of the region other than its leader is on store `s`. -/
def FollowerOn (s : UInt64) : Prop := ∃ p ∈ r.getVoters, p.storeId = s ∧ r.leader ≠ some p

/-- A learner of the region is on store `s`. -/
def LearnerOn (s : UInt64) : Prop := ∃ p ∈ r.getLearners, p.storeId = s

/-- A pending peer of the region is on store `s`. -/
def PendingOn (s : UInt64) : Prop := ∃ p ∈ r.pendingPeers, p.storeId = s

/-- What every region handed to `RegionsInfo` satisfies: a nonempty range,
peers with distinct ids on distinct stores, a leader that is one of the
voters, and pending peers that are peers. -/
structure WellFormed : Prop where
  range : r.regionMeta.startKey < r.regionMeta.endKey ∨ r.regionMeta.endKey = []
  peerIds : (r.regionMeta.peers.map Peer.id).Nodup
  peerStores : (r.regionMeta.peers.map Peer.storeId).Nodup
  leader : ∃ p, r.leader = some p ∧ p ∈ r.getVoters
  pending : ∀ p ∈ r.pendingPeers, p ∈ r.regionMeta.peers

end RegionInfo

end PlacementDriver
