import Mathlib.Data.List.Dedup
import Wiring.Processor.Lifecycle
import Wiring.Proofs.Ranking
import Wiring.Proofs.Creation.Stamps

namespace Wiring

/-! The shape of the lifecycle chain after a registration. Adding a processor already in the
chain moves it to the end (`chainAfter`). A registration adds the chain checker, the three tiers,
the internal processors again and the listener detector, and creation never changes the chain;
so the chain ends with the detector, holds each processor once, and, when no processor is found
under two names, ends with the processors that have a merged definition hook, sorted. -/

namespace Lifecycle

/-- Whether a list holds a processor with the stamp of `l`. -/
def addedIn (ls : List Lifecycle) (l : Lifecycle) : Bool :=
  ls.any (·.stamp == l.stamp)

/-- The last addition of each processor of a list, in order. -/
def lastAdded : List Lifecycle → List Lifecycle
  | [] => []
  | l :: rest => if addedIn rest l then lastAdded rest else l :: lastAdded rest

/-- The chain after adding `ls` one by one to `chain`. -/
def chainAfter (chain ls : List Lifecycle) : List Lifecycle :=
  chain.filter (!addedIn ls ·) ++ lastAdded ls

theorem addedIn_iff {ls : List Lifecycle} {l : Lifecycle} :
    addedIn ls l = true ↔ l.stamp ∈ ls.map (·.stamp) := by
  simp [addedIn]

@[simp] theorem addedIn_nil (l : Lifecycle) : addedIn [] l = false := rfl

theorem addedIn_cons (x : Lifecycle) (ls : List Lifecycle) (l : Lifecycle) :
    addedIn (x :: ls) l = (x.stamp == l.stamp || addedIn ls l) := rfl

theorem addedIn_append (xs ys : List Lifecycle) (l : Lifecycle) :
    addedIn (xs ++ ys) l = (addedIn xs l || addedIn ys l) := by
  simp [addedIn, List.any_append]

theorem mem_lastAdded_stamps {ls : List Lifecycle} {st : Nat} :
    st ∈ (lastAdded ls).map (·.stamp) ↔ st ∈ ls.map (·.stamp) := by
  induction ls with
  | nil => simp [lastAdded]
  | cons l rest ih =>
    unfold lastAdded
    split
    · -- a processor added again later keeps its stamp in the rest
      rename_i hlater
      rw [ih, List.map_cons, List.mem_cons, or_iff_right_of_imp]
      rintro rfl
      exact addedIn_iff.1 hlater
    · rw [List.map_cons, List.map_cons, List.mem_cons, List.mem_cons, ih]

theorem nodup_lastAdded (ls : List Lifecycle) : ((lastAdded ls).map (·.stamp)).Nodup := by
  induction ls with
  | nil => simp [lastAdded]
  | cons l rest ih =>
    unfold lastAdded
    split
    · exact ih
    · rename_i hlater
      rw [List.map_cons, List.nodup_cons, mem_lastAdded_stamps, ← addedIn_iff]
      exact ⟨hlater, ih⟩

theorem lastAdded_of_nodup {ls : List Lifecycle} (h : (ls.map (·.stamp)).Nodup) :
    lastAdded ls = ls := by
  induction ls with
  | nil => rfl
  | cons l rest ih =>
    rw [List.map_cons, List.nodup_cons] at h
    have hlater : addedIn rest l = false := by
      rw [Bool.eq_false_iff, ne_eq, addedIn_iff]
      exact h.1
    rw [lastAdded, hlater, if_neg Bool.false_ne_true, ih h.2]

theorem lastAdded_append (xs ys : List Lifecycle) :
    lastAdded (xs ++ ys) = (lastAdded xs).filter (!addedIn ys ·) ++ lastAdded ys := by
  induction xs with
  | nil => rfl
  | cons x xs ih =>
    rw [List.cons_append, lastAdded, lastAdded, addedIn_append, ih]
    cases hxs : addedIn xs x <;> cases hys : addedIn ys x <;> simp [hys]

theorem foldl_addLifecycle (ls : List Lifecycle) (c : Container) :
    ls.foldl Container.addLifecycle c = { c with chain := chainAfter c.chain ls } := by
  induction ls generalizing c with
  | nil => simp [chainAfter, lastAdded, addedIn]
  | cons l rest ih =>
    rw [List.foldl_cons, ih]
    simp only [Container.addLifecycle, Container.mk.injEq, and_true, true_and]
    -- a processor moved by `l` and then by the rest is where the rest puts it
    unfold chainAfter
    rw [lastAdded, List.filter_append, List.filter_filter]
    have hsame : ∀ a : Lifecycle,
        (!addedIn rest a && a.stamp != l.stamp) = (!(l.stamp == a.stamp) && !addedIn rest a) := by
      intro a
      rw [Bool.and_comm, bne_comm, bne]
    cases hlater : addedIn rest l <;> simp [hlater, addedIn_cons, hsame]

theorem chainAfter_append (chain xs ys : List Lifecycle) :
    chainAfter chain (xs ++ ys) = chainAfter (chainAfter chain xs) ys := by
  unfold chainAfter
  rw [lastAdded_append, List.filter_append, List.filter_filter, List.append_assoc]
  simp only [addedIn_append, Bool.not_or, Bool.and_comm]

theorem nodup_chainAfter {chain : List Lifecycle} (h : (chain.map (·.stamp)).Nodup)
    (ls : List Lifecycle) : ((chainAfter chain ls).map (·.stamp)).Nodup := by
  rw [chainAfter, List.map_append, List.nodup_append]
  refine ⟨(h.sublist (List.filter_sublist.map _)), nodup_lastAdded ls, ?_⟩
  intro a ha b hb hab
  subst hab
  obtain ⟨l, hl, rfl⟩ := List.mem_map.1 ha
  have hkept := (List.mem_filter.1 hl).2
  rw [Bool.not_eq_true', Bool.eq_false_iff, ne_eq, addedIn_iff] at hkept
  exact hkept (mem_lastAdded_stamps.1 hb)

theorem mem_chainAfter_stamps {chain ls : List Lifecycle} {l : Lifecycle} (hl : l ∈ ls) :
    l.stamp ∈ (chainAfter chain ls).map (·.stamp) := by
  rw [chainAfter, List.map_append, List.mem_append, mem_lastAdded_stamps]
  exact .inr (List.mem_map_of_mem hl)

theorem stamp_not_mem_of_lt {ls : List Lifecycle} {n st : Nat} (hls : ∀ l ∈ ls, l.stamp < n)
    (hst : n ≤ st) : st ∉ ls.map (·.stamp) := by
  intro hmem
  obtain ⟨l, hl, rfl⟩ := List.mem_map.1 hmem
  exact absurd (hls l hl) (by omega)

theorem chainAfter_fresh {chain added : List Lifecycle} {checker detector : Lifecycle}
    (hchecker : checker.stamp ∉ chain.map (·.stamp) ∧ checker.stamp ∉ added.map (·.stamp))
    (hdetector : detector.stamp ∉ chain.map (·.stamp) ∧ detector.stamp ∉ added.map (·.stamp) ∧
      detector.stamp ≠ checker.stamp) :
    chainAfter chain (checker :: added ++ [detector]) =
      chain.filter (!addedIn added ·) ++ checker :: lastAdded added ++ [detector] := by
  have hchk : addedIn (added ++ [detector]) checker = false := by
    rw [addedIn_append, Bool.or_eq_false_iff, Bool.eq_false_iff, ne_eq, addedIn_iff]
    exact ⟨hchecker.2, by simp [addedIn, hdetector.2.2]⟩
  have hlast : lastAdded (added ++ [detector]) = lastAdded added ++ [detector] := by
    rw [lastAdded_append]
    simp only [lastAdded, addedIn_nil, Bool.false_eq_true, if_false]
    congr 1
    refine List.filter_eq_self.2 fun l hl => ?_
    have hne : l.stamp ≠ detector.stamp := fun heq =>
      hdetector.2.1 (heq ▸ mem_lastAdded_stamps.1 (List.mem_map_of_mem hl))
    simp [addedIn, hne.symm]
  -- the old entries keep exactly the stamps no addition takes
  have hold : chain.filter (!addedIn (checker :: added ++ [detector]) ·) =
      chain.filter (!addedIn added ·) := by
    refine List.filter_congr fun l hl => ?_
    have hc : (checker.stamp == l.stamp) = false :=
      beq_eq_false_iff_ne.2 fun heq => hchecker.1 (heq ▸ List.mem_map_of_mem hl)
    have hd : (detector.stamp == l.stamp) = false :=
      beq_eq_false_iff_ne.2 fun heq => hdetector.1 (heq ▸ List.mem_map_of_mem hl)
    simp [addedIn, hc, hd]
  rw [chainAfter, hold, List.cons_append, lastAdded, hchk, if_neg Bool.false_ne_true, hlast]
  simp

/-! ### Order by last addition

A list of additions read as a history: position `i` holds the processor added at time `i`. -/

/-- Position `i` of the additions holds `l`, and no later addition has the stamp of `l`. -/
def AddedLastAt (ls : List Lifecycle) (i : Nat) (l : Lifecycle) : Prop :=
  ls[i]? = some l ∧ ∀ j x, i < j → ls[j]? = some x → x.stamp ≠ l.stamp

theorem AddedLastAt.stamp_mem {ls : List Lifecycle} {i : Nat} {l : Lifecycle}
    (h : AddedLastAt ls i l) : l.stamp ∈ ls.map (·.stamp) :=
  List.mem_map_of_mem (List.mem_iff_getElem?.2 ⟨i, h.1⟩)

theorem addedLastAt_cons_succ {x l : Lifecycle} {rest : List Lifecycle} {i : Nat} :
    AddedLastAt (x :: rest) (i + 1) l ↔ AddedLastAt rest i l := by
  simp only [AddedLastAt, List.getElem?_cons_succ]
  constructor
  · rintro ⟨hl, hlater⟩
    exact ⟨hl, fun j y hj hy => hlater (j + 1) y (by omega) (by simpa using hy)⟩
  · rintro ⟨hl, hlater⟩
    refine ⟨hl, fun j y hj hy => ?_⟩
    cases j with
    | zero => omega
    | succ j => exact hlater j y (by omega) (by simpa using hy)

theorem addedLastAt_cons_zero {x l : Lifecycle} {rest : List Lifecycle} :
    AddedLastAt (x :: rest) 0 l ↔ l = x ∧ addedIn rest x = false := by
  rw [Bool.eq_false_iff, ne_eq, addedIn_iff]
  constructor
  · rintro ⟨hx, hlater⟩
    obtain rfl : x = l := by simpa using hx
    refine ⟨rfl, fun hmem => ?_⟩
    obtain ⟨y, hy, hst⟩ := List.mem_map.1 hmem
    obtain ⟨j, hj⟩ := List.mem_iff_getElem?.1 hy
    exact hlater (j + 1) y (by omega) (by simpa using hj) hst
  · rintro ⟨rfl, hnew⟩
    refine ⟨rfl, fun j y hj hy => ?_⟩
    cases j with
    | zero => omega
    | succ j =>
      intro hst
      rw [List.getElem?_cons_succ] at hy
      exact hnew (hst ▸ List.mem_map_of_mem (List.mem_iff_getElem?.2 ⟨j, hy⟩))

theorem exists_addedLastAt_cons {x l : Lifecycle} {rest : List Lifecycle} :
    (∃ i, AddedLastAt (x :: rest) i l) ↔
      (l = x ∧ addedIn rest x = false) ∨ ∃ i, AddedLastAt rest i l := by
  constructor
  · rintro ⟨_ | i, h⟩
    · exact .inl (addedLastAt_cons_zero.1 h)
    · exact .inr ⟨i, addedLastAt_cons_succ.1 h⟩
  · rintro (h | ⟨i, h⟩)
    · exact ⟨0, addedLastAt_cons_zero.2 h⟩
    · exact ⟨i + 1, addedLastAt_cons_succ.2 h⟩

theorem mem_lastAdded_iff {ls : List Lifecycle} {l : Lifecycle} :
    l ∈ lastAdded ls ↔ ∃ i, AddedLastAt ls i l := by
  induction ls with
  | nil => simp [lastAdded, AddedLastAt]
  | cons x rest ih =>
    rw [exists_addedLastAt_cons, ← ih, lastAdded]
    cases hlater : addedIn rest x <;> simp

theorem addedLastAt_cons_of_mem {x a : Lifecycle} {rest : List Lifecycle}
    (ha : a ∈ lastAdded rest) {i : Nat} (hi : AddedLastAt (x :: rest) i a) :
    ∃ i', i = i' + 1 ∧ AddedLastAt rest i' a := by
  cases i with
  | succ i' => exact ⟨i', rfl, addedLastAt_cons_succ.1 hi⟩
  | zero =>
    -- at position 0 it would be `x`, which `rest` does not add again
    obtain ⟨rfl, hnew⟩ := addedLastAt_cons_zero.1 hi
    have hmem : a.stamp ∈ rest.map (·.stamp) :=
      mem_lastAdded_stamps.1 (List.mem_map_of_mem ha)
    rw [← addedIn_iff, hnew] at hmem
    cases hmem

theorem pairwise_lastAdded (ls : List Lifecycle) :
    (lastAdded ls).Pairwise
      (fun a b => ∀ i j, AddedLastAt ls i a → AddedLastAt ls j b → i < j) := by
  induction ls with
  | nil => simp [lastAdded]
  | cons x rest ih =>
    have hrest : (lastAdded rest).Pairwise
        (fun a b => ∀ i j, AddedLastAt (x :: rest) i a → AddedLastAt (x :: rest) j b → i < j) := by
      refine ih.imp_of_mem fun ha hb hab i j hi hj => ?_
      obtain ⟨i', rfl, hi'⟩ := addedLastAt_cons_of_mem ha hi
      obtain ⟨j', rfl, hj'⟩ := addedLastAt_cons_of_mem hb hj
      have := hab i' j' hi' hj'
      omega
    unfold lastAdded
    split
    · exact hrest
    · rename_i hlater
      refine List.pairwise_cons.2 ⟨fun b hb i j hi hj => ?_, hrest⟩
      -- `x` kept is added last at position 0, every other entry later
      obtain ⟨j', rfl, -⟩ := addedLastAt_cons_of_mem hb hj
      cases i with
      | zero => omega
      | succ i =>
        have hmem := (addedLastAt_cons_succ.1 hi).stamp_mem
        rw [← addedIn_iff] at hmem
        exact absurd hmem hlater

theorem length_lastAdded (ls : List Lifecycle) :
    (lastAdded ls).length = (ls.map (·.stamp)).dedup.length := by
  have hperm : ((lastAdded ls).map (·.stamp)).Perm (ls.map (·.stamp)).dedup :=
    (List.perm_ext_iff_of_nodup (nodup_lastAdded ls) (List.nodup_dedup _)).2 fun st => by
      rw [List.mem_dedup, mem_lastAdded_stamps]
  rw [← hperm.length_eq, List.length_map]

theorem chainAfter_eq_lastAdded {chain : List Lifecycle} (h : (chain.map (·.stamp)).Nodup)
    (ls : List Lifecycle) : chainAfter chain ls = lastAdded (chain ++ ls) := by
  rw [lastAdded_append, lastAdded_of_nodup h, chainAfter]

/-- Adding processors one by one to a container whose chain holds each processor once: the chain
then holds every processor of the history (the old chain, then the additions) exactly once, as it
was added last, ordered by the time of its last addition; its length is the number of distinct
processors of the history. -/
theorem addLifecycle_orders_by_last_addition (c : Container) (hc : (c.chain.map (·.stamp)).Nodup)
    (ls : List Lifecycle) :
    let chain := (ls.foldl Container.addLifecycle c).chain
    let added := c.chain ++ ls
    (∀ x ∈ added, (chain.map (·.stamp)).count x.stamp = 1) ∧
    (∀ l, l ∈ chain ↔ ∃ i, AddedLastAt added i l) ∧
    chain.Pairwise (fun a b => ∀ i j, AddedLastAt added i a → AddedLastAt added j b → i < j) ∧
    chain.length = (added.map (·.stamp)).dedup.length := by
  intro chain added
  have hchain : chain = lastAdded added := by
    simp only [chain, added, foldl_addLifecycle, chainAfter_eq_lastAdded hc]
  rw [hchain]
  refine ⟨fun x hx => ?_, fun l => mem_lastAdded_iff, pairwise_lastAdded added,
    length_lastAdded added⟩
  exact List.count_eq_one_of_mem (nodup_lastAdded added)
    (mem_lastAdded_stamps.2 (List.mem_map_of_mem hx))

theorem readded_processor_moves_last :
    let first : Lifecycle := ⟨1, .configurationAware⟩
    let second : Lifecycle := ⟨2, .configurationAware⟩
    ((Container.create ⟨0⟩ true).chain.map (·.stamp)).Nodup ∧
    ([first, second, first].foldl Container.addLifecycle (Container.create ⟨0⟩ true)).chain =
      [second, first] ∧
    let chain := ([first, second, first].foldl Container.addLifecycle
      (Container.create ⟨0⟩ true)).chain
    let added := (Container.create ⟨0⟩ true).chain ++ [first, second, first]
    (∀ x ∈ added, (chain.map (·.stamp)).count x.stamp = 1) ∧
    (∀ l, l ∈ chain ↔ ∃ i, AddedLastAt added i l) ∧
    chain.Pairwise (fun a b => ∀ i j, AddedLastAt added i a → AddedLastAt added j b → i < j) ∧
    chain.length = (added.map (·.stamp)).dedup.length :=
  ⟨by simp [Container.create], by simp [Container.create, Container.addLifecycle],
    addLifecycle_orders_by_last_addition (Container.create ⟨0⟩ true) (by simp [Container.create])
      [⟨1, .configurationAware⟩, ⟨2, .configurationAware⟩, ⟨1, .configurationAware⟩]⟩

end Lifecycle

end Wiring
