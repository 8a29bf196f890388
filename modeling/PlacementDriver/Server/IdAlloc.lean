import Mathlib

/-!
# The ID allocator

`idAllocator` (in `server/id.go`) hands out the ids of a range
`(end - allocStep, end]` that it reserved in etcd: `generate` reads the
alloc-id key and moves it `allocStep` further, by a transaction that compares
the key with the value read, together with the leader compare. Every server
builds its allocator once, in `startServer`, and never resets it: a server
that loses and regains leadership goes on with the rest of its range.

The value `generate` read is an input of the model, any value at all: it
stands for a read at any earlier point of any interleaving of the servers,
and the compare against the key's current value alone decides the
transaction. The key is a `uint64`, and so is `end`: `generate` adds
`allocStep` with wrap-around.

## Main results

* `IdCluster.Inv.step`, `IdCluster.Inv.run`: the servers hold disjoint ranges,
  none holds an id handed out, and the ids handed out are distinct, positive
  and at most the key.
* `alloc_ids_unique`: while no value read reaches `2^64 - allocStep`, every id
  `Alloc` returns, on any server, is positive and none is returned twice.
* `alloc_wraps`: a single server that allocates `2^64` ids from a fresh cluster
  gets `0`, and one more gets `1` a second time.
-/

namespace PlacementDriver

namespace Server

/-- `allocStep`. -/
def allocStep : UInt64 := 1000

/-- `idAllocator`: the ids `base + 1 .. end` are left. -/
structure IdAllocator where
  base : UInt64
  «end» : UInt64
deriving DecidableEq, Repr

/-- The errors of `Alloc`. -/
inductive IdError
  /-- an error of the etcd client -/
  | etcd
  /-- `generate id failed, we may not leader` -/
  | generateFailed
deriving DecidableEq, Repr

/-- What `Commit` of a transaction returned. -/
inductive CommitResult
  /-- a response -/
  | ok
  /-- an error, the transaction not run -/
  | errorNotApplied
  /-- an error, after the transaction ran -/
  | errorApplied
deriving DecidableEq, Repr

/-- How the etcd calls of one `generate` went. -/
structure GenerateCalls where
  /-- `getValue`: `none` for an error, `some none` for an absent key, `some (some v)`
  for the bytes of `v` -/
  read : Option (Option UInt64)
  /-- whether `leaderCmp` held when the transaction ran -/
  leader : Bool
  commit : CommitResult
deriving DecidableEq, Repr

/-- The compare of `generate`: `CreateRevision(key) = 0` when the read found no
key, `Value(key) = value` otherwise. -/
def generateCmp (key value : Option UInt64) : Bool :=
  match value with
  | none => key.isNone
  | some v => key == some v

/-- `generate` against the alloc-id key `key`: the key after it, and the new `end`. -/
def generate (key : Option UInt64) (calls : GenerateCalls) : Option UInt64 × Except IdError UInt64 :=
  match calls.read with
  | none => (key, .error .etcd)
  | some value =>
    let «end» := value.getD 0 + allocStep
    let succeeded := generateCmp key value && calls.leader
    match calls.commit with
    | .ok => if succeeded then (some «end», .ok «end») else (key, .error .generateFailed)
    | .errorNotApplied => (key, .error .etcd)
    | .errorApplied => (if succeeded then some «end» else key, .error .etcd)

namespace IdAllocator

/-- `Alloc`: a new range from `generate` once the range is used up, then the
next id of the range. -/
def alloc (alloc : IdAllocator) (key : Option UInt64) (calls : GenerateCalls) :
    IdAllocator × Option UInt64 × Except IdError UInt64 :=
  let refilled : Option UInt64 × Except IdError IdAllocator :=
    if alloc.base = alloc.«end» then
      match generate key calls with
      | (key, .error e) => (key, .error e)
      | (key, .ok «end») => (key, .ok ⟨«end» - allocStep, «end»⟩)
    else (key, .ok alloc)
  match refilled with
  | (key, .error e) => (alloc, key, .error e)
  | (key, .ok alloc) => ({ alloc with base := alloc.base + 1 }, key, .ok (alloc.base + 1))

end IdAllocator

/-- The allocators of the servers, by index, and the alloc-id key in etcd. -/
structure IdCluster where
  allocators : Nat → IdAllocator
  key : Option UInt64

namespace IdCluster

/-- A fresh cluster: every `startServer` builds `&idAllocator{s: s}`, and the
key is absent. -/
def initial : IdCluster := ⟨fun _ => ⟨0, 0⟩, none⟩

/-- Server `i` calls `Alloc`. -/
def step (c : IdCluster) (i : Nat) (calls : GenerateCalls) : IdCluster × Option UInt64 :=
  match (c.allocators i).alloc c.key calls with
  | (a, key, r) => (⟨Function.update c.allocators i a, key⟩, r.toOption)

/-- A run of `Alloc` calls; the ids handed out, with their servers, in order. -/
def run : IdCluster → List (Nat × GenerateCalls) → IdCluster × List (Nat × UInt64)
  | c, [] => (c, [])
  | c, (i, calls) :: evs =>
    let r := c.step i calls
    let rest := r.1.run evs
    (rest.1, (r.2.map (i, ·)).toList ++ rest.2)

end IdCluster

/-! ## `generate` and `Alloc` -/

theorem eq_of_generateCmp {key value : Option UInt64} (h : generateCmp key value = true) : key = value := by
  unfold generateCmp at h
  cases value with
  | none => exact Option.isNone_iff_eq_none.mp h
  | some v => exact beq_iff_eq.mp h

/-- `generate` either fails and leaves the key, or moves the key `allocStep`
past its value, and returns that as the new `end` unless `Commit` failed. -/
theorem generate_spec (key : Option UInt64) (calls : GenerateCalls)
    (hwrap : ∀ v ∈ calls.read.join, v.toNat + allocStep.toNat < 2 ^ 64) :
    ((generate key calls).1 = key ∧ ∀ e, (generate key calls).2 ≠ .ok e) ∨
      ∃ e : UInt64, e.toNat = (key.getD 0).toNat + allocStep.toNat ∧ (generate key calls).1 = some e ∧
        ((generate key calls).2 = .ok e ∨ (generate key calls).2 = .error .etcd) := by
  unfold generate
  cases hread : calls.read with
  | none => exact .inl ⟨rfl, fun _ h => nomatch h⟩
  | some value =>
    -- when the compare holds, the value read is the key's
    have hend : generateCmp key value = true →
        (value.getD 0 + allocStep).toNat = (key.getD 0).toNat + allocStep.toNat := by
      intro hcmp
      rw [eq_of_generateCmp hcmp, UInt64.toNat_add]
      cases value with
      | none => decide
      | some v =>
        have := hwrap v (by simp [hread])
        exact Nat.mod_eq_of_lt this
    simp only
    cases hc : calls.commit with
    | ok =>
      by_cases hs : (generateCmp key value && calls.leader) = true
      · exact .inr ⟨_, hend (Bool.and_eq_true_iff.mp hs).1, by simp [hs], .inl (by simp [hs])⟩
      · exact .inl ⟨by simp [hs], fun _ h => by simp [hs] at h⟩
    | errorNotApplied => exact .inl ⟨rfl, fun _ h => nomatch h⟩
    | errorApplied =>
      by_cases hs : (generateCmp key value && calls.leader) = true
      · exact .inr ⟨_, hend (Bool.and_eq_true_iff.mp hs).1, by simp [hs], .inr rfl⟩
      · exact .inl ⟨by simp [hs], fun _ h => nomatch h⟩

namespace IdAllocator

variable {a : IdAllocator} {key : Option UInt64} {calls : GenerateCalls}

theorem alloc_of_ne (h : a.base ≠ a.«end») :
    a.alloc key calls = ({ a with base := a.base + 1 }, key, .ok (a.base + 1)) := by
  simp only [alloc, if_neg h]

theorem alloc_of_generate_error (h : a.base = a.«end») {key' : Option UInt64} {e : IdError}
    (hg : generate key calls = (key', .error e)) : a.alloc key calls = (a, key', .error e) := by
  simp only [alloc, if_pos h, hg]

theorem alloc_of_generate_ok (h : a.base = a.«end») {key' : Option UInt64} {e : UInt64}
    (hg : generate key calls = (key', .ok e)) :
    a.alloc key calls = (⟨e - allocStep + 1, e⟩, key', .ok (e - allocStep + 1)) := by
  simp only [alloc, if_pos h, hg]

end IdAllocator

/-! ## The invariant

Ids are compared as natural numbers. Server `i` holds the ids of its range
`(base, end]`; the ranges are disjoint, below the key, and apart from the ids
handed out. A new range starts at the key, past all of them. -/

namespace IdCluster

/-- The key's value; `generate` reads an absent key as `0`. -/
def keyValue (c : IdCluster) : Nat := (c.key.getD 0).toNat

/-- The allocator still holds the id `n`. -/
def Holds (a : IdAllocator) (n : Nat) : Prop := a.base.toNat < n ∧ n ≤ a.«end».toNat

/-- The invariant of the allocators, with `issued` the ids handed out. -/
structure Inv (c : IdCluster) (issued : List Nat) : Prop where
  base_le_end : ∀ i, (c.allocators i).base.toNat ≤ (c.allocators i).«end».toNat
  end_le_key : ∀ i, (c.allocators i).«end».toNat ≤ c.keyValue
  /-- no id is held by two servers -/
  holds_disjoint : ∀ i j n, i ≠ j → Holds (c.allocators i) n → ¬ Holds (c.allocators j) n
  /-- no server holds an id handed out -/
  issued_not_held : ∀ n ∈ issued, ∀ i, ¬ Holds (c.allocators i) n
  issued_pos : ∀ n ∈ issued, 0 < n ∧ n ≤ c.keyValue
  nodup : issued.Nodup

variable {c : IdCluster} {issued : List Nat}

theorem inv_initial : Inv initial [] where
  base_le_end _ := le_rfl
  end_le_key _ := le_rfl
  holds_disjoint _ _ _ _ h := absurd (lt_of_lt_of_le h.1 h.2) (lt_irrefl _)
  issued_not_held _ h := absurd h List.not_mem_nil
  issued_pos _ h := absurd h List.not_mem_nil
  nodup := List.nodup_nil

/-- Server `i` hands out the next id of its range. -/
theorem Inv.take (h : Inv c issued) {i : Nat} (hne : (c.allocators i).base ≠ (c.allocators i).«end») :
    Inv ⟨Function.update c.allocators i { c.allocators i with base := (c.allocators i).base + 1 }, c.key⟩
      (issued ++ [((c.allocators i).base + 1).toNat]) := by
  have hlt : (c.allocators i).base.toNat < (c.allocators i).«end».toNat :=
    lt_of_le_of_ne (h.base_le_end i) fun he => hne (UInt64.toNat_inj.mp he)
  -- below `end`, the next id does not wrap
  have hnext : ((c.allocators i).base + 1).toNat = (c.allocators i).base.toNat + 1 := by
    rw [UInt64.toNat_add, UInt64.toNat_one]
    exact Nat.mod_eq_of_lt (by have := (c.allocators i).«end».toNat_lt; omega)
  have hheld : Holds (c.allocators i) ((c.allocators i).base.toNat + 1) := ⟨by omega, by omega⟩
  -- what the servers hold now: `i` its range past the id handed out
  have hholds : ∀ j n, Holds (Function.update c.allocators i
      { c.allocators i with base := (c.allocators i).base + 1 } j) n ↔
        Holds (c.allocators j) n ∧ (j = i → (c.allocators i).base.toNat + 1 < n) := by
    intro j n
    by_cases hj : j = i
    · subst hj
      simp only [Function.update_self, Holds, hnext, forall_const]
      omega
    · simp only [Function.update_of_ne hj, hj, false_implies, and_true]
  refine ⟨fun j => ?_, fun j => ?_, fun j k n hjk hn hn' => ?_, fun n hn j hj => ?_, fun n hn => ?_, ?_⟩
  · simp only [Function.update_apply]
    split_ifs with hj
    · subst hj
      simp only [hnext]
      omega
    · exact h.base_le_end j
  · simp only [Function.update_apply]
    split_ifs with hj
    · subst hj
      exact h.end_le_key _
    · exact h.end_le_key j
  · exact h.holds_disjoint j k n hjk ((hholds j n).mp hn).1 ((hholds k n).mp hn').1
  · rw [hholds] at hj
    rcases List.mem_append.mp hn with hn | hn
    · exact h.issued_not_held n hn j hj.1
    -- the id handed out: `i` starts past it, and no other server held it
    · rw [List.mem_singleton.mp hn, hnext] at hj
      by_cases hji : j = i
      · have := hj.2 hji
        omega
      · exact h.holds_disjoint i j _ (Ne.symm hji) hheld hj.1
  · rcases List.mem_append.mp hn with hn | hn
    · exact h.issued_pos n hn
    · rw [List.mem_singleton.mp hn, hnext]
      exact ⟨by omega, le_trans hheld.2 (h.end_le_key i)⟩
  · refine List.nodup_append.mpr ⟨h.nodup, List.nodup_singleton _, fun n hn m hm => ?_⟩
    rw [List.mem_singleton.mp hm, hnext]
    intro hnm
    exact h.issued_not_held n hn i (hnm ▸ hheld)

/-- A transaction moved the key `allocStep` further: every range stays below it. -/
theorem Inv.raiseKey (h : Inv c issued) {e : UInt64} (he : e.toNat = c.keyValue + allocStep.toNat) :
    Inv ⟨c.allocators, some e⟩ issued := by
  have hle : c.keyValue ≤ (⟨c.allocators, some e⟩ : IdCluster).keyValue := by
    show c.keyValue ≤ e.toNat
    omega
  exact { h with
    end_le_key := fun i => le_trans (h.end_le_key i) hle
    issued_pos := fun n hn => ⟨(h.issued_pos n hn).1, le_trans (h.issued_pos n hn).2 hle⟩ }

/-- Server `i`, its range used up, reserves the range `(key, e]` and hands out
its first id. -/
theorem Inv.refill (h : Inv c issued) {i : Nat} {e : UInt64} (he : e.toNat = c.keyValue + allocStep.toNat) :
    Inv ⟨Function.update c.allocators i ⟨e - allocStep + 1, e⟩, some e⟩
      (issued ++ [(e - allocStep + 1).toNat]) := by
  have hstep : allocStep.toNat = 1000 := rfl
  -- the new range starts right past the key
  have hbase : (e - allocStep + 1).toNat = c.keyValue + 1 := by
    have hsub : (e - allocStep).toNat = c.keyValue := by
      rw [UInt64.toNat_sub_of_le _ _ (UInt64.le_iff_toNat_le.mpr (by omega))]
      omega
    rw [UInt64.toNat_add, hsub, UInt64.toNat_one]
    exact Nat.mod_eq_of_lt (by have := e.toNat_lt; omega)
  have hkey : (⟨Function.update c.allocators i ⟨e - allocStep + 1, e⟩, some e⟩ : IdCluster).keyValue =
      c.keyValue + 1000 := by
    show e.toNat = _
    omega
  -- what the servers hold now: the new range for `i`, the old ones, below the key, for the others
  have hholds : ∀ j n, Holds (Function.update c.allocators i ⟨e - allocStep + 1, e⟩ j) n ↔
      (j = i ∧ c.keyValue + 1 < n ∧ n ≤ c.keyValue + 1000) ∨ (j ≠ i ∧ Holds (c.allocators j) n) := by
    intro j n
    by_cases hj : j = i
    · subst hj
      simp only [Function.update_self, Holds, hbase, he, hstep, true_and, ne_eq, not_true_eq_false,
        false_and, or_false]
    · simp only [Function.update_of_ne hj, hj, false_and, ne_eq, not_false_eq_true, true_and, false_or]
  have hbelow : ∀ j n, Holds (c.allocators j) n → n ≤ c.keyValue := fun j n hn =>
    le_trans hn.2 (h.end_le_key j)
  refine ⟨fun j => ?_, fun j => ?_, fun j k n hjk hn hn' => ?_, fun n hn j hj => ?_, fun n hn => ?_, ?_⟩
  · simp only [Function.update_apply]
    split_ifs with hj
    · show (e - allocStep + 1).toNat ≤ e.toNat
      omega
    · exact h.base_le_end j
  · rw [hkey]
    simp only [Function.update_apply]
    split_ifs with hj
    · show e.toNat ≤ _
      omega
    · have := h.end_le_key j
      omega
  · rw [hholds] at hn hn'
    rcases hn with ⟨rfl, hlo, -⟩ | ⟨-, hjn⟩ <;> rcases hn' with ⟨rfl, hlo', -⟩ | ⟨-, hkn⟩
    · exact hjk rfl
    · have := hbelow k n hkn
      omega
    · have := hbelow j n hjn
      omega
    · exact h.holds_disjoint j k n hjk hjn hkn
  · rw [hholds] at hj
    rcases List.mem_append.mp hn with hn | hn
    · rcases hj with ⟨-, hlo, -⟩ | ⟨-, hjn⟩
      · have := (h.issued_pos n hn).2
        omega
      · exact h.issued_not_held n hn j hjn
    · rw [List.mem_singleton.mp hn, hbase] at hj
      rcases hj with ⟨-, hlo, -⟩ | ⟨-, hjn⟩
      · omega
      · have := hbelow j _ hjn
        omega
  · rw [hkey]
    rcases List.mem_append.mp hn with hn | hn
    · have := h.issued_pos n hn
      omega
    · rw [List.mem_singleton.mp hn, hbase]
      omega
  · refine List.nodup_append.mpr ⟨h.nodup, List.nodup_singleton _, fun n hn m hm => ?_⟩
    rw [List.mem_singleton.mp hm, hbase]
    have := (h.issued_pos n hn).2
    omega

/-- One `Alloc` keeps the invariant, with the id it returned handed out. -/
theorem Inv.step (h : Inv c issued) (i : Nat) {calls : GenerateCalls}
    (hwrap : ∀ v ∈ calls.read.join, v.toNat + allocStep.toNat < 2 ^ 64) :
    Inv (c.step i calls).1 (issued ++ ((c.step i calls).2.map UInt64.toNat).toList) := by
  unfold IdCluster.step
  by_cases hempty : (c.allocators i).base = (c.allocators i).«end»
  · rcases generate_spec c.key calls hwrap with ⟨hkey, hfail⟩ | ⟨e, he, hkey, hres | hres⟩
    · -- the transaction failed: nothing changes
      rcases hg : generate c.key calls with ⟨key', r⟩
      rw [hg] at hkey hfail
      cases r with
      | ok e => exact absurd rfl (hfail e)
      | error err =>
        rw [IdAllocator.alloc_of_generate_error hempty hg]
        simp only [Function.update_eq_self, List.append_nil, Except.toOption, Option.map_none, Option.toList_none]
        obtain rfl : key' = c.key := hkey
        exact h
    · -- a new range for `i`
      rw [IdAllocator.alloc_of_generate_ok hempty (Prod.ext hkey hres)]
      exact h.refill he
    · -- the key moved, but `Alloc` failed
      rw [IdAllocator.alloc_of_generate_error hempty (Prod.ext hkey hres)]
      simp only [Function.update_eq_self, List.append_nil, Except.toOption, Option.map_none, Option.toList_none]
      exact h.raiseKey he
  · rw [IdAllocator.alloc_of_ne hempty]
    exact h.take hempty

/-- A run keeps the invariant, with the ids it returned handed out. -/
theorem Inv.run (evs : List (Nat × GenerateCalls))
    (hwrap : ∀ e ∈ evs, ∀ v ∈ e.2.read.join, v.toNat + allocStep.toNat < 2 ^ 64) :
    ∀ {c : IdCluster} {issued : List Nat}, Inv c issued →
      Inv (c.run evs).1 (issued ++ (c.run evs).2.map (·.2.toNat)) := by
  induction evs with
  | nil => intro c issued h; simpa [IdCluster.run] using h
  | cons ev evs ih =>
    intro c issued h
    obtain ⟨i, calls⟩ := ev
    have h₁ := h.step i (hwrap _ List.mem_cons_self)
    have h' := ih (fun e he => hwrap e (List.mem_cons_of_mem _ he)) h₁
    -- the id of the first call is the first of the run
    cases hr : (c.step i calls).2 with
    | none =>
      rw [hr] at h'
      simpa [IdCluster.run, hr] using h'
    | some x =>
      rw [hr] at h'
      simpa [IdCluster.run, hr] using h'

end IdCluster

/-- While no value `generate` reads reaches `2^64 - allocStep`, every id
`Alloc` returns, on any server and in any interleaving, is positive, and no id
is returned twice. -/
theorem alloc_ids_unique (events : List (Nat × GenerateCalls))
    (hwrap : ∀ e ∈ events, ∀ v ∈ e.2.read.join, v.toNat + allocStep.toNat < 2 ^ 64) :
    (∀ x ∈ (IdCluster.initial.run events).2, 0 < x.2.toNat) ∧
      ((IdCluster.initial.run events).2.map Prod.snd).Nodup := by
  have h := IdCluster.Inv.run events hwrap IdCluster.inv_initial
  rw [List.nil_append] at h
  refine ⟨fun x hx => (h.issued_pos _ (List.mem_map_of_mem hx)).1, ?_⟩
  -- distinct as numbers, so distinct
  have hnodup : (((IdCluster.initial.run events).2.map Prod.snd).map UInt64.toNat).Nodup := by
    rw [List.map_map]
    exact h.nodup
  exact hnodup.of_map _

/-- Two servers: server `0` reserves `(0, 1000]`, server `1` then reserves
`(1000, 2000]`, after a first read that another transaction made stale. -/
def twoServerEvents : List (Nat × GenerateCalls) :=
  [(0, ⟨some none, true, .ok⟩), (1, ⟨some none, true, .ok⟩), (1, ⟨some (some 1000), true, .ok⟩),
    (0, ⟨some none, true, .ok⟩)]

theorem alloc_ids_unique_twoServers :
    (∀ e ∈ twoServerEvents, ∀ v ∈ e.2.read.join, v.toNat + allocStep.toNat < 2 ^ 64) ∧
      ((IdCluster.initial.run twoServerEvents).2.map Prod.snd).Nodup :=
  have hwrap : ∀ e ∈ twoServerEvents, ∀ v ∈ e.2.read.join, v.toNat + allocStep.toNat < 2 ^ 64 := by
    simp [twoServerEvents, allocStep]
  ⟨hwrap, (alloc_ids_unique twoServerEvents hwrap).2⟩

example : (IdCluster.initial.run twoServerEvents).2 = [(0, 1), (1, 1001), (0, 2)] := by decide

/-! ## Past `2^64`

A single server on a fresh cluster, every `generate` reading the key's value,
hands out the ids `1, 2, 3, …` modulo `2^64`: after `2^64` calls the key has
wrapped, and the ids start again from `0`. -/

theorem IdCluster.run_append (c : IdCluster) (evs₁ evs₂ : List (Nat × GenerateCalls)) :
    c.run (evs₁ ++ evs₂) = (((c.run evs₁).1.run evs₂).1, (c.run evs₁).2 ++ ((c.run evs₁).1.run evs₂).2) := by
  induction evs₁ generalizing c with
  | nil => rfl
  | cons ev evs₁ ih =>
    obtain ⟨i, calls⟩ := ev
    simp only [List.cons_append, IdCluster.run, ih, List.append_assoc]

theorem ofNat_add_one (k : Nat) : UInt64.ofNat k + 1 = UInt64.ofNat (k + 1) := by
  apply UInt64.toNat_inj.mp
  simp only [UInt64.toNat_add, UInt64.toNat_ofNat', UInt64.toNat_one]
  omega

/-- `k` rounded up to a range boundary: the `end` of the only server after `k` ids. -/
def roundUp (k : Nat) : Nat := (k + 999) / 1000 * 1000

/-- What `generate` reads when the only server has handed out `j` ids. -/
def wrapCalls (j : Nat) : GenerateCalls := ⟨some (if j = 0 then none else some (UInt64.ofNat j)), true, .ok⟩

/-- Server `0` alone calls `Alloc` `k` times. -/
def wrapEvents (k : Nat) : List (Nat × GenerateCalls) := (List.range k).map fun j => (0, wrapCalls j)

/-- The cluster after `wrapEvents k`. -/
def wrapCluster (k : Nat) : IdCluster :=
  ⟨Function.update IdCluster.initial.allocators 0 ⟨UInt64.ofNat k, UInt64.ofNat (roundUp k)⟩,
    if k = 0 then none else some (UInt64.ofNat (roundUp k))⟩

/-- On a range boundary, `generate` reads the key and reserves the next range. -/
theorem generate_wrapCalls {k : Nat} (hk : k % 1000 = 0) :
    generate (wrapCluster k).key (wrapCalls k) = (some (UInt64.ofNat (k + 1000)), .ok (UInt64.ofNat (k + 1000))) := by
  have hround : roundUp k = k := by unfold roundUp; omega
  by_cases hk0 : k = 0
  · subst hk0
    rfl
  · have hadd : UInt64.ofNat k + allocStep = UInt64.ofNat (k + 1000) := by
      apply UInt64.toNat_inj.mp
      simp only [UInt64.toNat_add, UInt64.toNat_ofNat', show allocStep.toNat = 1000 from rfl]
      omega
    simp only [wrapCluster, wrapCalls, if_neg hk0, hround, generate, generateCmp, beq_self_eq_true, Bool.and_self,
      if_true, Option.getD_some, hadd]

theorem step_wrapCluster (k : Nat) :
    (wrapCluster k).step 0 (wrapCalls k) = (wrapCluster (k + 1), some (UInt64.ofNat (k + 1))) := by
  have halloc : (wrapCluster k).allocators 0 = ⟨UInt64.ofNat k, UInt64.ofNat (roundUp k)⟩ := by
    simp only [wrapCluster, Function.update_self]
  unfold IdCluster.step
  rw [halloc]
  by_cases hk : k % 1000 = 0
  · -- a range boundary: a new range `(k, k + 1000]`
    have hround : roundUp k = k := by unfold roundUp; omega
    have hround' : roundUp (k + 1) = k + 1000 := by unfold roundUp; omega
    rw [IdAllocator.alloc_of_generate_ok (show UInt64.ofNat k = UInt64.ofNat (roundUp k) by rw [hround])
      (generate_wrapCalls hk)]
    have hbase : UInt64.ofNat (k + 1000) - allocStep + 1 = UInt64.ofNat (k + 1) := by
      apply UInt64.toNat_inj.mp
      simp only [UInt64.toNat_add, UInt64.toNat_sub, UInt64.toNat_ofNat', UInt64.toNat_one,
        show allocStep.toNat = 1000 from rfl]
      omega
    simp only [wrapCluster, Function.update_idem, hbase, hround', Except.toOption, Nat.add_one_ne_zero, if_false]
  · -- inside a range: its next id
    have hround' : roundUp (k + 1) = roundUp k := by unfold roundUp; omega
    have hne : UInt64.ofNat k ≠ UInt64.ofNat (roundUp k) := by
      rw [Ne, ← UInt64.toNat_inj, UInt64.toNat_ofNat', UInt64.toNat_ofNat']
      unfold roundUp
      omega
    have hk0 : k ≠ 0 := by omega
    rw [IdAllocator.alloc_of_ne hne]
    simp only [wrapCluster, Function.update_idem, ofNat_add_one, hround', Except.toOption, if_neg hk0,
      Nat.add_one_ne_zero, if_false]

theorem run_wrapEvents (k : Nat) :
    IdCluster.initial.run (wrapEvents k) = (wrapCluster k, (List.range k).map fun j => (0, UInt64.ofNat (j + 1))) := by
  induction k with
  | zero =>
    have : wrapCluster 0 = IdCluster.initial := by
      unfold wrapCluster IdCluster.initial
      congr 1
      exact Function.update_eq_self_iff.mpr rfl
    rw [this]
    rfl
  | succ k ih =>
    rw [wrapEvents, List.range_succ, List.map_append, IdCluster.run_append, ← wrapEvents, ih]
    simp only [List.map_cons, List.map_nil, IdCluster.run, step_wrapCluster, List.map_append]
    rfl

/-- After `2^64` calls, the only server gets the id `0`; one more call, and it
gets `1` a second time. -/
theorem alloc_wraps :
    (0, 0) ∈ (IdCluster.initial.run (wrapEvents (2 ^ 64))).2 ∧
      ¬ ((IdCluster.initial.run (wrapEvents (2 ^ 64 + 1))).2.map Prod.snd).Nodup := by
  have hids : ∀ k, (IdCluster.initial.run (wrapEvents k)).2 = (List.range k).map fun j => (0, UInt64.ofNat (j + 1)) :=
    fun k => by rw [run_wrapEvents]
  rw [hids, hids]
  refine ⟨List.mem_map.mpr ⟨2 ^ 64 - 1, List.mem_range.mpr (by norm_num), ?_⟩, fun hnodup => ?_⟩
  · -- the `2^64`-th id is `2^64` modulo `2^64`
    exact Prod.ext rfl (UInt64.toNat_inj.mp (by norm_num [UInt64.toNat_ofNat']))
  -- the first id and the `2^64 + 1`-th are both `1`
  rw [List.map_map] at hnodup
  have h := List.inj_on_of_nodup_map hnodup (List.mem_range.mpr (show 0 < 2 ^ 64 + 1 by norm_num))
    (List.mem_range.mpr (show 2 ^ 64 < 2 ^ 64 + 1 by norm_num))
    (UInt64.toNat_inj.mp (by norm_num [UInt64.toNat_ofNat']))
  exact absurd h (by norm_num)

end Server

end PlacementDriver
