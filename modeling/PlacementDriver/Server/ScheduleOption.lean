import Mathlib

/-!
# The scheduler list of the schedule options

`scheduleOption` holds the schedule configuration PD runs with. Its
`Schedulers` list says which schedulers to start, each by type and
arguments, and whether it is disabled. `AddSchedulerCfg` adds one at run
time, and `reload` merges the list saved in etcd into the one in memory
through `adjustScheduleCfg` when PD loads its configuration (`option.go`).

Two entries name the same scheduler when they have the same type and deeply
equal arguments: `SchedulerConfig.key`. The merge keeps the in-memory list in
its order, each entry taking the flag of the saved entry of its scheduler,
and appends the saved schedulers the memory lacks, in their saved order. So a
default scheduler disabled before a restart stays disabled, and a scheduler
added at run time is restored.

`reflect.DeepEqual` tells a nil `Args` from an empty one, and a list does not.
Every result here is stated through the key, so it holds under either reading
of the equality. The other fields of `ScheduleConfig` are copied as a whole by
`reload` and are left out.

## Main results

* `adjustScheduleCfg_eq`: the merge is the in-memory list with the saved
  flags, followed by the saved entries of schedulers not in memory.
* `find?_adjustScheduleCfg`: the first entry of a scheduler in the merged list
  is its saved entry if there is one, its in-memory entry otherwise.
* `nodup_keys_adjustScheduleCfg`, `mem_keys_adjustScheduleCfg`: the merge of two
  lists that name no scheduler twice names no scheduler twice, and names
  exactly the schedulers of either list.
* `adjustScheduleCfg_adjustScheduleCfg`: merging the same saved list again
  changes nothing.
* `nodup_keys_addSchedulerCfg`: adding a scheduler never names one twice.
-/

namespace PlacementDriver

namespace Server

/-- `SchedulerConfig`: a scheduler's type, its arguments and whether it is
disabled. -/
structure SchedulerConfig where
  type : String
  args : List String
  disable : Bool
deriving DecidableEq, Repr

namespace SchedulerConfig

/-- The scheduler an entry names: its type and arguments. -/
def key (s : SchedulerConfig) : String × List String := (s.type, s.args)

/-- The test of both loops of `adjustScheduleCfg`,
`s.Type == ps.Type && reflect.DeepEqual(s.Args, ps.Args)`. -/
def sameScheduler (s ps : SchedulerConfig) : Bool := s.type == ps.type && s.args == ps.args

variable {s ps : SchedulerConfig}

theorem sameScheduler_iff : s.sameScheduler ps = true ↔ s.key = ps.key := by
  simp [sameScheduler, key]

/-- The test read as a comparison of keys. -/
theorem sameScheduler_eq_key_beq : s.sameScheduler ps = (ps.key == s.key) := by
  rw [Bool.eq_iff_iff, sameScheduler_iff, beq_iff_eq, eq_comm]

@[simp] theorem key_with_disable (b : Bool) : { s with disable := b }.key = s.key := rfl

/-- An entry is its key and its flag. -/
theorem eq_of_key_eq (hk : s.key = ps.key) (hd : s.disable = ps.disable) : s = ps := by
  cases s
  cases ps
  simp only [key, Prod.mk.injEq] at hk
  obtain ⟨rfl, rfl⟩ := hk
  cases hd
  rfl

end SchedulerConfig

open SchedulerConfig

/-- `defaultSchedulers`, the list a configuration without schedulers gets. -/
def defaultSchedulers : List SchedulerConfig :=
  [⟨"balance-region", [], false⟩, ⟨"balance-leader", [], false⟩, ⟨"hot-region", [], false⟩,
    ⟨"label", [], false⟩]

/-- `adjustSchedulers(v, defValue)`: an empty list becomes the default one. -/
def adjustSchedulers (v defValue : List SchedulerConfig) : List SchedulerConfig :=
  if v.length = 0 then defValue else v

/-- The entry of the first loop of `adjustScheduleCfg`: an in-memory entry
with the flag of the first saved entry of its scheduler. -/
def withSavedFlag (persisted : List SchedulerConfig) (s : SchedulerConfig) : SchedulerConfig :=
  match persisted.find? (s.sameScheduler ·) with
  | some ps => { s with disable := ps.disable }
  | none => s

/-- `adjustScheduleCfg(persistentCfg)` on the scheduler lists: `current` is
`o.load().Schedulers` and `persisted` is `persistentCfg.Schedule.Schedulers`.
The result is the list it stores into both. -/
def adjustScheduleCfg (persisted current : List SchedulerConfig) : List SchedulerConfig :=
  let scheduleCfg := current.map (withSavedFlag persisted)
  -- the second loop: the saved schedulers that no entry in memory names
  let restoredSchedulers := persisted.filter fun ps => !scheduleCfg.any (·.sameScheduler ps)
  scheduleCfg ++ restoredSchedulers

/-- `AddSchedulerCfg(tp, args)` on the scheduler list: the loop stops at the
first entry of the scheduler, which it enables, and a new enabled entry is
appended when there is none. The error it returns is always nil. -/
def addSchedulerCfg (tp : String) (args : List String) : List SchedulerConfig → List SchedulerConfig
  | [] => [⟨tp, args, false⟩]
  | s :: rest =>
    if s = ⟨tp, args, false⟩ then s :: rest
    else if s = ⟨tp, args, true⟩ then { s with disable := false } :: rest
    else s :: addSchedulerCfg tp args rest

/-- `reload` on the scheduler list. `loaded` is what `kv.LoadConfig(cfg)`
gives: its error, or whether a saved config exists, with the scheduler list it
leaves in `cfg`, which is the in-memory one when nothing was saved. -/
def reload (current : List SchedulerConfig) (loaded : Except String (Bool × List SchedulerConfig)) :
    Except String (List SchedulerConfig) :=
  match loaded with
  | .error e => .error e
  -- `adjustScheduleCfg` stores the merged list, and with a saved config `reload`
  -- then stores the saved schedule, whose list it has set to the same merged list
  | .ok (_, persisted) => .ok (adjustScheduleCfg persisted current)

/-! ## The merge -/

section Merge

variable (persisted current : List SchedulerConfig)

/-- The first loop keeps every entry's scheduler. -/
@[simp] theorem key_withSavedFlag (s : SchedulerConfig) : (withSavedFlag persisted s).key = s.key := by
  unfold withSavedFlag
  split <;> rfl

theorem map_key_map_withSavedFlag :
    (current.map (withSavedFlag persisted)).map key = current.map key := by
  rw [List.map_map]
  exact List.map_congr_left fun s _ => key_withSavedFlag persisted s

/-- An entry in memory names the scheduler of `ps` exactly when the key of
`ps` is among the in-memory keys. -/
theorem any_sameScheduler_iff (ps : SchedulerConfig) :
    (current.map (withSavedFlag persisted)).any (·.sameScheduler ps) = true ↔ ps.key ∈ current.map key := by
  rw [List.any_eq_true, ← map_key_map_withSavedFlag persisted current, List.mem_map]
  simp only [sameScheduler_iff]

/-- The first loop's search, read as a search by key. -/
theorem find?_sameScheduler (s : SchedulerConfig) :
    persisted.find? (s.sameScheduler ·) = persisted.find? (·.key == s.key) :=
  List.find?_congr fun _ _ => sameScheduler_eq_key_beq

/-- The merge in the words of `option.go`: the in-memory list with the saved
flags, followed by the saved entries whose scheduler is not in memory. -/
theorem adjustScheduleCfg_eq :
    adjustScheduleCfg persisted current =
      current.map (fun s => match persisted.find? (fun ps => ps.key == s.key) with
        | some ps => { s with disable := ps.disable }
        | none => s) ++
      persisted.filter (fun ps => ps.key ∉ current.map key) := by
  have hfirst : withSavedFlag persisted = fun s => match persisted.find? (fun ps => ps.key == s.key) with
      | some ps => { s with disable := ps.disable }
      | none => s := by
    funext s
    rw [withSavedFlag, find?_sameScheduler]
  have hsecond : ∀ ps : SchedulerConfig,
      (!(current.map (withSavedFlag persisted)).any (·.sameScheduler ps)) = decide (ps.key ∉ current.map key) := by
    intro ps
    rw [Bool.eq_iff_iff, Bool.not_eq_true', decide_eq_true_iff, ← any_sameScheduler_iff persisted current ps,
      Bool.not_eq_true]
  dsimp only [adjustScheduleCfg]
  rw [List.filter_congr fun ps _ => hsecond ps, hfirst]

/-- The saved entry of a scheduler, read in the first loop, is the entry the
merge gives it. -/
theorem withSavedFlag_of_find? {s ps : SchedulerConfig}
    (h : persisted.find? (fun x => x.key == s.key) = some ps) : withSavedFlag persisted s = ps := by
  have hfind : persisted.find? (s.sameScheduler ·) = some ps := by
    rw [find?_sameScheduler, h]
  have hkey : ps.key = s.key := by simpa using List.find?_some h
  rw [withSavedFlag, hfind]
  exact eq_of_key_eq hkey.symm rfl

theorem withSavedFlag_of_find?_none {s : SchedulerConfig}
    (h : persisted.find? (fun x => x.key == s.key) = none) : withSavedFlag persisted s = s := by
  have hfind : persisted.find? (s.sameScheduler ·) = none := by
    rw [find?_sameScheduler, h]
  rw [withSavedFlag, hfind]

/-- The first entry of a scheduler in the merged list: the saved one wins. -/
theorem find?_adjustScheduleCfg (k : String × List String) :
    (adjustScheduleCfg persisted current).find? (·.key == k) =
      (persisted.find? (·.key == k)).or (current.find? (·.key == k)) := by
  unfold adjustScheduleCfg
  rw [List.find?_append, List.find?_map]
  have hcomp : ((·.key == k) ∘ withSavedFlag persisted) = (·.key == k) := by
    funext s
    simp
  rw [hcomp]
  cases hc : current.find? (·.key == k) with
  | some s =>
    -- the scheduler is in memory: its in-memory entry takes the saved flag if any
    have hks : s.key = k := by simpa using List.find?_some hc
    subst hks
    cases hp : persisted.find? (·.key == s.key) with
    | some ps => simp [withSavedFlag_of_find? persisted hp]
    | none => simp [withSavedFlag_of_find?_none persisted hp]
  | none =>
    -- the scheduler is not in memory, so the second loop restores its saved entries
    have hnot : k ∉ current.map key := by
      rw [List.mem_map]
      rintro ⟨s, hs, rfl⟩
      exact List.find?_eq_none.mp hc s hs (by simp)
    rw [Option.map_none, Option.none_or, Option.or_none, List.find?_filter]
    refine List.find?_congr fun ps _ => ?_
    by_cases hk : ps.key = k
    · subst hk
      have : (current.map (withSavedFlag persisted)).any (·.sameScheduler ps) = false := by
        rw [← Bool.not_eq_true, any_sameScheduler_iff]
        exact hnot
      simp [this]
    · simp [hk]

/-- The merged list names exactly the schedulers of either list. -/
theorem mem_keys_adjustScheduleCfg (k : String × List String) :
    k ∈ (adjustScheduleCfg persisted current).map key ↔ k ∈ current.map key ∨ k ∈ persisted.map key := by
  have hmem : ∀ l : List SchedulerConfig, k ∈ l.map key ↔ (l.find? (·.key == k)).isSome := by
    intro l
    rw [List.find?_isSome, List.mem_map]
    simp
  rw [hmem, hmem, hmem, find?_adjustScheduleCfg, Option.isSome_or, Bool.or_eq_true, or_comm]

variable {persisted current}

/-- Two lists that name no scheduler twice merge into one that names none
twice. -/
theorem nodup_keys_adjustScheduleCfg (hc : (current.map key).Nodup) (hp : (persisted.map key).Nodup) :
    ((adjustScheduleCfg persisted current).map key).Nodup := by
  unfold adjustScheduleCfg
  rw [List.map_append, map_key_map_withSavedFlag, List.nodup_append]
  refine ⟨hc, hp.sublist (List.filter_sublist.map key), ?_⟩
  -- a restored entry's scheduler is one that no entry in memory names
  rintro a ha b hb rfl
  obtain ⟨ps, hps, rfl⟩ := List.mem_map.mp hb
  have hnot := (List.mem_filter.mp hps).2
  rw [Bool.not_eq_true', ← Bool.not_eq_true, any_sameScheduler_iff] at hnot
  exact hnot ha

/-- In a list that names no scheduler twice, an entry is the first of its
scheduler. -/
theorem find?_key_of_nodup {l : List SchedulerConfig} (h : (l.map key).Nodup) {s : SchedulerConfig}
    (hs : s ∈ l) : l.find? (·.key == s.key) = some s := by
  have hsome : (l.find? (·.key == s.key)).isSome := List.find?_isSome.mpr ⟨s, hs, by simp⟩
  obtain ⟨t, ht⟩ := Option.isSome_iff_exists.mp hsome
  have hkey : t.key = s.key := by simpa using List.find?_some ht
  rw [ht, List.inj_on_of_nodup_map h (List.mem_of_find?_eq_some ht) hs hkey]

/-- The merge leaves a list alone when each of its entries already has its
saved flag and each saved scheduler is in it. -/
theorem adjustScheduleCfg_of_fixed (hfixed : ∀ s ∈ current, withSavedFlag persisted s = s)
    (hnamed : ∀ ps ∈ persisted, ps.key ∈ current.map key) : adjustScheduleCfg persisted current = current := by
  have hnone : persisted.filter (fun ps => !(current.map (withSavedFlag persisted)).any (·.sameScheduler ps)) =
      [] := by
    rw [List.filter_eq_nil_iff]
    intro ps hps
    rw [Bool.not_eq_true', Bool.not_eq_false, any_sameScheduler_iff]
    exact hnamed ps hps
  dsimp only [adjustScheduleCfg]
  rw [hnone, List.append_nil, List.map_congr_left hfixed, List.map_id']

/-- Merging the same saved list again changes nothing, when the saved list
names no scheduler twice. -/
theorem adjustScheduleCfg_adjustScheduleCfg (hp : (persisted.map key).Nodup) :
    adjustScheduleCfg persisted (adjustScheduleCfg persisted current) = adjustScheduleCfg persisted current := by
  refine adjustScheduleCfg_of_fixed ?_ fun ps hps =>
    (mem_keys_adjustScheduleCfg persisted current ps.key).mpr (.inr (List.mem_map_of_mem hps))
  -- every merged entry already carries the saved flag of its scheduler
  intro a ha
  cases hfa : persisted.find? (fun x => x.key == a.key) with
  | none => exact withSavedFlag_of_find?_none persisted hfa
  | some ps =>
    rw [withSavedFlag_of_find? persisted hfa]
    rcases List.mem_append.mp ha with hs | hr
    · -- an entry from memory took the flag of this very saved entry
      obtain ⟨s, -, rfl⟩ := List.mem_map.mp hs
      rw [key_withSavedFlag] at hfa
      exact (withSavedFlag_of_find? persisted hfa).symm
    · -- a restored entry is the only saved entry of its scheduler
      rw [find?_key_of_nodup hp (List.mem_filter.mp hr).1] at hfa
      exact (Option.some_inj.mp hfa).symm

end Merge

/-! ## Adding a scheduler -/

section Add

variable (tp : String) (args : List String)

/-- An entry the loop of `AddSchedulerCfg` passes over names another
scheduler. -/
theorem key_ne_of_ne {s : SchedulerConfig} (h₁ : s ≠ ⟨tp, args, false⟩) (h₂ : s ≠ ⟨tp, args, true⟩) :
    s.key ≠ (tp, args) := by
  intro hk
  cases hd : s.disable
  · exact h₁ (eq_of_key_eq hk hd)
  · exact h₂ (eq_of_key_eq hk hd)

/-- Adding names the schedulers of the list and the added one. -/
theorem mem_keys_addSchedulerCfg (l : List SchedulerConfig) (k : String × List String) :
    k ∈ (addSchedulerCfg tp args l).map key ↔ k ∈ l.map key ∨ k = (tp, args) := by
  induction l with
  | nil => simp [addSchedulerCfg, key]
  | cons s rest ih =>
    unfold addSchedulerCfg
    by_cases h₁ : s = ⟨tp, args, false⟩
    · -- the scheduler is there and enabled: the list stays as it is
      rw [if_pos h₁]
      subst h₁
      simp only [List.map_cons, List.mem_cons, key]
      tauto
    · by_cases h₂ : s = ⟨tp, args, true⟩
      · rw [if_neg h₁, if_pos h₂]
        subst h₂
        simp only [List.map_cons, List.mem_cons, key]
        tauto
      · rw [if_neg h₁, if_neg h₂, List.map_cons, List.mem_cons, ih, List.map_cons, List.mem_cons, or_assoc]

/-- Adding a scheduler to a list that names none twice names none twice. -/
theorem nodup_keys_addSchedulerCfg {l : List SchedulerConfig} (h : (l.map key).Nodup) :
    ((addSchedulerCfg tp args l).map key).Nodup := by
  induction l with
  | nil => simp [addSchedulerCfg]
  | cons s rest ih =>
    rw [List.map_cons, List.nodup_cons] at h
    unfold addSchedulerCfg
    by_cases h₁ : s = ⟨tp, args, false⟩
    · rw [if_pos h₁, List.map_cons, List.nodup_cons]
      exact h
    · by_cases h₂ : s = ⟨tp, args, true⟩
      · rw [if_neg h₁, if_pos h₂, List.map_cons, key_with_disable, List.nodup_cons]
        exact h
      · rw [if_neg h₁, if_neg h₂, List.map_cons, List.nodup_cons, mem_keys_addSchedulerCfg]
        exact ⟨not_or.mpr ⟨h.1, key_ne_of_ne tp args h₁ h₂⟩, ih h.2⟩

end Add

/-! ## Reloading -/

/-- A saved list that disables the default region balancer and adds an
evict-leader scheduler. -/
def savedSchedulers : List SchedulerConfig :=
  [⟨"balance-region", [], true⟩, ⟨"evict-leader", ["1"], false⟩]

example : adjustScheduleCfg savedSchedulers defaultSchedulers =
    [⟨"balance-region", [], true⟩, ⟨"balance-leader", [], false⟩, ⟨"hot-region", [], false⟩,
      ⟨"label", [], false⟩, ⟨"evict-leader", ["1"], false⟩] := by
  decide

end Server

end PlacementDriver
