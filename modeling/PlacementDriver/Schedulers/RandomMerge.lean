import PlacementDriver.Schedule.Operator

/-!
# The random-merge scheduler

`randomMergeScheduler.Schedule` (in `server/schedulers/random_merge.go`)
picks a source store that can move regions, a healthy region led from it, and
one of the region's adjacent regions at random, and merges the two with
`CreateMergeRegionOperator`. It reads the regions and stores only through the
`schedule.Cluster` it is given, and asks no classifier whether the merge is
allowed.

`draw` is the value of `rand.Int()` for the store, `coin` the one for the
side.
-/

namespace PlacementDriver

namespace Schedulers

open Schedule

/-- `randomMergeScheduler`, with its selector. -/
structure RandomMergeScheduler where
  selector : RandomSelector

/-- `newRandomMergeScheduler`: sources must be able to move regions. -/
def newRandomMergeScheduler : RandomMergeScheduler := ⟨⟨[⟨false, true⟩]⟩⟩

/-- `Schedule(cluster)`. -/
def RandomMergeScheduler.schedule (s : RandomMergeScheduler) (cluster : Cluster) (draw coin : Nat) :
    Option (List Operator) := do
  let store ← s.selector.selectSource cluster.opt cluster.now cluster.getStores draw
  let region ← cluster.randLeaderRegion store.getId [healthRegion] 0
  let adjacent := cluster.getAdjacentRegions region
  -- the next region on an even draw when there is one, the previous one otherwise
  let target := if (coin % 2 == 0 && adjacent.2.isSome) || adjacent.1.isNone then adjacent.2 else adjacent.1
  let target ← target
  createMergeRegionOperator "random-merge" cluster region target opAdmin cluster.now

/-- An operator of the scheduler merges a region that `RandLeaderRegion`
returned with a region adjacent to it. -/
theorem RandomMergeScheduler.schedule_eq_some {s : RandomMergeScheduler} {cluster : Cluster} {draw coin : Nat}
    {ops : List Operator} (h : s.schedule cluster draw coin = some ops) :
    ∃ (store : StoreInfo) (region target : RegionInfo), cluster.randLeaderRegion store.getId [healthRegion] 0 = some region ∧
      (some target = (cluster.getAdjacentRegions region).1 ∨ some target = (cluster.getAdjacentRegions region).2) ∧
      createMergeRegionOperator "random-merge" cluster region target opAdmin cluster.now = some ops := by
  simp only [RandomMergeScheduler.schedule, Option.bind_eq_bind] at h
  obtain ⟨store, -, h⟩ := Option.bind_eq_some_iff.mp h
  obtain ⟨region, hregion, h⟩ := Option.bind_eq_some_iff.mp h
  obtain ⟨target, htarget, h⟩ := Option.bind_eq_some_iff.mp h
  refine ⟨store, region, target, hregion, ?_, h⟩
  split_ifs at htarget
  · exact .inr htarget.symm
  · exact .inl htarget.symm

end Schedulers

end PlacementDriver
