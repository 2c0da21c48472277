import Mathlib.Data.Prod.Lex
import Wiring.Processor.Tier

namespace Wiring

/-! Stable sorting by a key. A list is the stable sort of another by a key when it holds the same
entries in ascending key order and the entries of each key in the order the other list has them.
Merge sort by a key gives exactly that, and the batches of processors are sorted so by the key
"priority tier first, then the lower order"; inside one tier that is the order alone. -/

/-- `ys` is `xs` sorted stably by `key`. -/
structure StablySorted {α κ : Type} [LinearOrder κ] (key : α → κ) (xs ys : List α) : Prop where
  perm : ys.Perm xs
  sorted : ys.Pairwise fun a b => key a ≤ key b
  stable : ∀ k, ys.filter (fun a => key a = k) = xs.filter (fun a => key a = k)

section

variable {α κ κ' : Type} [LinearOrder κ] [LinearOrder κ']

theorem stablySorted_mergeSort (key : α → κ) (xs : List α) :
    StablySorted key xs (xs.mergeSort fun a b => decide (key a ≤ key b)) := by
  have htrans : ∀ a b c : α, decide (key a ≤ key b) = true → decide (key b ≤ key c) = true →
      decide (key a ≤ key c) = true := by
    simp only [decide_eq_true_eq]
    exact fun _ _ _ => le_trans
  have htotal : ∀ a b : α, (decide (key a ≤ key b) || decide (key b ≤ key a)) = true := by
    simpa using fun a b => le_total (key a) (key b)
  have hperm := List.mergeSort_perm xs fun a b => decide (key a ≤ key b)
  refine ⟨hperm, (List.pairwise_mergeSort htrans htotal xs).imp fun h => by simpa using h,
    fun k => ?_⟩
  -- the entries of one key are sorted among themselves, so merge sort keeps them in order
  have hone : (xs.filter fun a => key a = k).Pairwise fun a b => decide (key a ≤ key b) := by
    refine List.pairwise_of_forall_mem_list fun a ha b hb => ?_
    simp only [List.mem_filter, decide_eq_true_eq] at ha hb
    simp [ha.2, hb.2]
  have hsub := (List.sublist_mergeSort htrans htotal hone List.filter_sublist).filter
    fun a => decide (key a = k)
  simp only [List.filter_filter, Bool.and_self] at hsub
  exact (hsub.eq_of_length (hperm.filter _).length_eq.symm).symm

theorem StablySorted.of_strictMono {key : α → κ} {key' : α → κ'} {xs ys : List α}
    (h : StablySorted key xs ys) {e : κ' → κ} (he : StrictMono e)
    (hkey : ∀ a ∈ xs, key a = e (key' a)) : StablySorted key' xs ys := by
  have hkey' : ∀ a ∈ ys, key a = e (key' a) := fun a ha => hkey a (h.perm.subset ha)
  refine ⟨h.perm, h.sorted.imp_of_mem fun ha hb hab => ?_, fun k => ?_⟩
  · rwa [hkey' _ ha, hkey' _ hb, he.le_iff_le] at hab
  · have hsame : ∀ l : List α, (∀ a ∈ l, key a = e (key' a)) →
        l.filter (fun a => key' a = k) = l.filter (fun a => key a = e k) := by
      intro l hl
      refine List.filter_congr fun a ha => ?_
      simp only [hl a ha, he.injective.eq_iff]
    rw [hsame ys hkey', hsame xs hkey, h.stable]

theorem StablySorted.filter {key : α → κ} {xs ys : List α} (h : StablySorted key xs ys)
    (p : α → Bool) : StablySorted key (xs.filter p) (ys.filter p) := by
  refine ⟨h.perm.filter p, h.sorted.sublist List.filter_sublist, fun k => ?_⟩
  have hswap : ∀ l : List α,
      (l.filter p).filter (fun a => key a = k) = (l.filter fun a => key a = k).filter p := by
    intro l
    rw [List.filter_filter, List.filter_filter]
    exact List.filter_congr fun a _ => Bool.and_comm _ _
  rw [hswap, hswap, h.stable]

end

namespace Ranked

variable {α : Type}

/-- The sort key of a batch entry: priority entries first, then the lower order. -/
def key (r : Ranked α) : Bool ×ₗ Int :=
  toLex (r.tier != .priority, r.order)

theorem le_eq_decide (a b : Ranked α) : le a b = decide (a.key ≤ b.key) := by
  have hbeq : ∀ t : Tier, (t == .priority) = decide (t = .priority) := fun _ => rfl
  unfold le key
  cases a.tier <;> cases b.tier <;> simp [bne, hbeq, Prod.Lex.toLex_le_toLex]

theorem stablySorted_sort (xs : List (Ranked α)) : StablySorted key xs (sort xs) := by
  have hle : (le : Ranked α → Ranked α → Bool) = fun a b => decide (a.key ≤ b.key) := by
    funext a b
    exact le_eq_decide a b
  rw [sort, hle]
  exact stablySorted_mergeSort key xs

theorem stablySorted_sort_order {xs : List (Ranked α)} {tier : Tier}
    (htier : ∀ r ∈ xs, r.tier = tier) : StablySorted (·.order) xs (sort xs) := by
  have he : StrictMono fun n : Int => toLex (tier != .priority, n) := by
    intro m n hmn
    simp [Prod.Lex.toLex_lt_toLex, hmn]
  exact (stablySorted_sort xs).of_strictMono he fun r hr => by simp [key, htier r hr]

end Ranked

end Wiring
