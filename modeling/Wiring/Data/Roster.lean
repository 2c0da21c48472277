namespace Wiring

/-! A roster is a table from names to values that remembers the order in which names first
arrived. Writing an existing name replaces its value in place. Each name has one entry, and the
roster carries the proof of it, so every table built from rosters has unique names. -/

/-- Named entries in order of first arrival; each name occurs once. -/
structure Roster (α : Type) where
  entries : List (String × α)
  nodup : (entries.map (·.1)).Nodup

namespace Roster

variable {α : Type}

def replaceIn (k : String) (v : α) : List (String × α) → List (String × α)
  | [] => []
  | e :: es => if e.1 == k then (k, v) :: es else e :: replaceIn k v es

theorem map_fst_replaceIn (k : String) (v : α) (es : List (String × α)) :
    (replaceIn k v es).map (·.1) = es.map (·.1) := by
  induction es with
  | nil => rfl
  | cons e es ih =>
    by_cases hk : e.1 = k
    · simp [replaceIn, hk]
    · simp [replaceIn, hk, ih]

theorem map_fst_filter_nodup (p : String × α → Bool) {es : List (String × α)}
    (hnodup : (es.map (·.1)).Nodup) : ((es.filter p).map (·.1)).Nodup :=
  hnodup.sublist ((List.filter_sublist).map _)

def empty : Roster α := ⟨[], List.nodup_nil⟩

instance : Inhabited (Roster α) := ⟨empty⟩

def get? (r : Roster α) (k : String) : Option α :=
  (r.entries.find? (·.1 == k)).map (·.2)

def contains (r : Roster α) (k : String) : Bool :=
  r.entries.any (·.1 == k)

def keys (r : Roster α) : List String :=
  r.entries.map (·.1)

def values (r : Roster α) : List α :=
  r.entries.map (·.2)

def size (r : Roster α) : Nat :=
  r.entries.length

def insert (r : Roster α) (k : String) (v : α) : Roster α :=
  if h : r.contains k then
    ⟨replaceIn k v r.entries, by rw [map_fst_replaceIn]; exact r.nodup⟩
  else
    ⟨r.entries ++ [(k, v)], by
      rw [List.map_append, List.nodup_append]
      refine ⟨r.nodup, List.pairwise_singleton _ _, ?_⟩
      intro a ha b hb
      simp only [List.map_cons, List.map_nil, List.mem_singleton] at hb
      subst hb
      intro hak
      subst hak
      obtain ⟨e, he, rfl⟩ := List.mem_map.1 ha
      exact h (List.any_eq_true.2 ⟨e, he, by simp⟩)⟩

def erase (r : Roster α) (k : String) : Roster α :=
  ⟨r.entries.filter (·.1 != k), map_fst_filter_nodup _ r.nodup⟩

def modify (r : Roster α) (k : String) (f : α → α) : Roster α :=
  ⟨r.entries.map (fun e => if e.1 == k then (e.1, f e.2) else e), by
    have hkeys : (r.entries.map (fun e => if e.1 == k then (e.1, f e.2) else e)).map (·.1) =
        r.entries.map (·.1) := by
      simp only [List.map_map]
      congr 1
      funext e
      by_cases he : e.1 = k <;> simp [he]
    rw [hkeys]
    exact r.nodup⟩

def putFirst (r : Roster α) (k : String) (v : α) : Roster α :=
  ⟨(k, v) :: (r.erase k).entries, by
    refine List.nodup_cons.2 ⟨?_, (r.erase k).nodup⟩
    intro hk
    obtain ⟨e, he, hek⟩ := List.mem_map.1 hk
    simp only [erase, List.mem_filter, bne_iff_ne, ne_eq] at he
    exact he.2 hek⟩

def sortBy (r : Roster α) (le : String × α → String × α → Bool) : Roster α :=
  ⟨r.entries.mergeSort le, ((List.mergeSort_perm _ _).map _).nodup_iff.2 r.nodup⟩

def sorted (r : Roster α) : List (String × α) :=
  r.entries.mergeSort (fun a b => decide (a.1 ≤ b.1))

theorem keys_nodup (r : Roster α) : r.keys.Nodup :=
  r.nodup

theorem contains_iff_mem_keys (r : Roster α) (k : String) : r.contains k = true ↔ k ∈ r.keys := by
  simp [contains, keys]

theorem keys_insert_of_contains (r : Roster α) (k : String) (v : α) (h : r.contains k = true) :
    (r.insert k v).keys = r.keys := by
  simp only [insert, h, dite_true, keys]
  exact map_fst_replaceIn k v r.entries

theorem keys_insert_of_not_contains (r : Roster α) (k : String) (v : α)
    (h : r.contains k = false) : (r.insert k v).keys = r.keys ++ [k] := by
  simp [insert, h, keys]

theorem eq_of_mem_of_fst_eq {es : List (String × α)} (hnodup : (es.map (·.1)).Nodup)
    {a b : String × α} (ha : a ∈ es) (hb : b ∈ es) (hab : a.1 = b.1) : a = b := by
  induction es with
  | nil => cases ha
  | cons e es ih =>
    rw [List.map_cons, List.nodup_cons] at hnodup
    have hfresh : ∀ x ∈ es, x.1 ≠ e.1 := fun x hx hxe =>
      hnodup.1 (List.mem_map.2 ⟨x, hx, hxe⟩)
    rcases List.mem_cons.1 ha with rfl | hrestA
    · rcases List.mem_cons.1 hb with rfl | hrestB
      · rfl
      · exact absurd hab.symm (hfresh b hrestB)
    · rcases List.mem_cons.1 hb with rfl | hrestB
      · exact absurd hab (hfresh a hrestA)
      · exact ih hnodup.2 hrestA hrestB

theorem mem_replaceIn {k : String} {v : α} {es : List (String × α)} {e : String × α}
    (hnodup : (es.map (·.1)).Nodup) :
    e ∈ replaceIn k v es ↔ (e = (k, v) ∧ k ∈ es.map (·.1)) ∨ (e ∈ es ∧ e.1 ≠ k) := by
  induction es with
  | nil => simp [replaceIn]
  | cons x xs ih =>
    rw [List.map_cons, List.nodup_cons] at hnodup
    by_cases hx : x.1 = k
    · -- the entry under `k` is replaced; no later entry has that name
      have hrest : ∀ y ∈ xs, y.1 ≠ k := fun y hy hyk =>
        hnodup.1 (List.mem_map.2 ⟨y, hy, hyk.trans hx.symm⟩)
      simp only [replaceIn, hx, beq_self_eq_true, if_true, List.mem_cons, List.map_cons, true_or,
        and_true]
      constructor
      · rintro (rfl | he)
        · exact .inl rfl
        · exact .inr ⟨.inr he, hrest e he⟩
      · rintro (rfl | ⟨rfl | he, hek⟩)
        · exact .inl rfl
        · exact absurd hx hek
        · exact .inr he
    · have hxk : (x.1 == k) = false := by simpa using hx
      simp only [replaceIn, hxk, Bool.false_eq_true, if_false, List.mem_cons, List.map_cons,
        ih hnodup.2]
      constructor
      · rintro (rfl | ⟨rfl, hk⟩ | ⟨he, hek⟩)
        · exact .inr ⟨.inl rfl, hx⟩
        · exact .inl ⟨rfl, .inr hk⟩
        · exact .inr ⟨.inr he, hek⟩
      · rintro (⟨rfl, hk | hk⟩ | ⟨rfl | he, hek⟩)
        · exact absurd hk.symm hx
        · exact .inr (.inl ⟨rfl, hk⟩)
        · exact .inl rfl
        · exact .inr (.inr ⟨he, hek⟩)

theorem mem_insert {r : Roster α} {k : String} {v : α} {e : String × α} :
    e ∈ (r.insert k v).entries ↔ e = (k, v) ∨ (e ∈ r.entries ∧ e.1 ≠ k) := by
  unfold insert
  split
  · rename_i hk
    rw [mem_replaceIn r.nodup]
    have hkey : k ∈ r.entries.map (·.1) := (contains_iff_mem_keys r k).1 hk
    simp only [hkey, and_true]
  · rename_i hk
    have hkey : k ∉ r.entries.map (·.1) := fun h => hk ((contains_iff_mem_keys r k).2 h)
    simp only [List.mem_append, List.mem_singleton]
    constructor
    · rintro (he | rfl)
      · refine .inr ⟨he, fun hek => hkey ?_⟩
        exact List.mem_map.2 ⟨e, he, hek⟩
      · exact .inl rfl
    · rintro (rfl | ⟨he, -⟩)
      · exact .inr rfl
      · exact .inl he

theorem mem_erase {r : Roster α} {k : String} {e : String × α} :
    e ∈ (r.erase k).entries ↔ e ∈ r.entries ∧ e.1 ≠ k := by
  simp [erase]

theorem get?_eq_some_iff {r : Roster α} {k : String} {v : α} :
    r.get? k = some v ↔ (k, v) ∈ r.entries := by
  unfold get?
  constructor
  · intro h
    obtain ⟨e, hfind, rfl⟩ := Option.map_eq_some_iff.1 h
    have hp := List.find?_some (p := fun e : String × α => e.1 == k) hfind
    have hek : e.1 = k := by simpa using hp
    have he := List.mem_of_find?_eq_some hfind
    rw [← hek]
    exact he
  · intro h
    obtain ⟨e, hfind⟩ := Option.isSome_iff_exists.1
      (List.find?_isSome.2 ⟨(k, v), h, by simp⟩ : (r.entries.find? fun e => e.1 == k).isSome)
    have hp := List.find?_some (p := fun e : String × α => e.1 == k) hfind
    have hek : e.1 = k := by simpa using hp
    have hsame := eq_of_mem_of_fst_eq r.nodup (List.mem_of_find?_eq_some hfind) h hek
    rw [hfind, hsame]
    rfl

theorem get?_insert (r : Roster α) (k : String) (v : α) (u : String) :
    (r.insert k v).get? u = if u = k then some v else r.get? u := by
  apply Option.ext
  intro w
  rw [get?_eq_some_iff, mem_insert]
  by_cases hu : u = k
  · subst hu
    simp [eq_comm]
  · simp [hu, get?_eq_some_iff]

theorem get?_erase (r : Roster α) (k u : String) :
    (r.erase k).get? u = if u = k then none else r.get? u := by
  apply Option.ext
  intro w
  rw [get?_eq_some_iff, mem_erase]
  by_cases hu : u = k
  · subst hu
    simp
  · simp [hu, get?_eq_some_iff]

theorem mem_keys_iff {r : Roster α} {k : String} : k ∈ r.keys ↔ ∃ v, r.get? k = some v := by
  simp only [keys, List.mem_map, get?_eq_some_iff]
  constructor
  · rintro ⟨⟨k', v⟩, he, rfl⟩
    exact ⟨v, he⟩
  · rintro ⟨v, he⟩
    exact ⟨(k, v), he, rfl⟩

theorem mem_values_insert {r : Roster α} {k : String} {v w : α} (h : w ∈ (r.insert k v).values) :
    w = v ∨ w ∈ r.values := by
  obtain ⟨e, he, rfl⟩ := List.mem_map.1 h
  rcases mem_insert.1 he with rfl | ⟨he, -⟩
  · exact .inl rfl
  · exact .inr (List.mem_map_of_mem he)

theorem mem_values_erase {r : Roster α} {k : String} {w : α} (h : w ∈ (r.erase k).values) :
    w ∈ r.values := by
  obtain ⟨e, he, rfl⟩ := List.mem_map.1 h
  exact List.mem_map_of_mem (mem_erase.1 he).1

theorem mem_values_of_get? {r : Roster α} {k : String} {v : α} (h : r.get? k = some v) :
    v ∈ r.values :=
  List.mem_map.2 ⟨(k, v), get?_eq_some_iff.1 h, rfl⟩

theorem contains_eq_false_of_get? {r : Roster α} {k : String} (h : r.get? k = none) :
    r.contains k = false := by
  cases hk : r.contains k with
  | false => rfl
  | true =>
    obtain ⟨v, hv⟩ := mem_keys_iff.1 ((contains_iff_mem_keys r k).1 hk)
    rw [h] at hv
    cases hv

theorem get?_modify (r : Roster α) (k : String) (f : α → α) (u : String) :
    (r.modify k f).get? u = if u = k then (r.get? u).map f else r.get? u := by
  apply Option.ext
  intro w
  rw [get?_eq_some_iff]
  simp only [modify, List.mem_map]
  by_cases hu : u = k
  · subst hu
    simp only [if_true, Option.map_eq_some_iff, get?_eq_some_iff]
    constructor
    · rintro ⟨e, he, hew⟩
      by_cases hek : e.1 = u
      · simp only [hek, beq_self_eq_true, if_true, Prod.mk.injEq] at hew
        exact ⟨e.2, hek ▸ he, hew.2⟩
      · have hfalse : (e.1 == u) = false := by simpa using hek
        simp only [hfalse, Bool.false_eq_true, if_false] at hew
        exact absurd (congrArg Prod.fst hew) hek
    · rintro ⟨v, hv, rfl⟩
      exact ⟨(u, v), hv, by simp⟩
  · simp only [hu, if_false, get?_eq_some_iff]
    constructor
    · rintro ⟨e, he, hew⟩
      by_cases hek : e.1 = k
      · simp only [hek, beq_self_eq_true, if_true, Prod.mk.injEq] at hew
        exact absurd hew.1.symm hu
      · have hfalse : (e.1 == k) = false := by simpa using hek
        simp only [hfalse, Bool.false_eq_true, if_false] at hew
        exact hew ▸ he
    · intro h
      have hfalse : ((u, w).1 == k) = false := by simpa using hu
      exact ⟨(u, w), h, by simp only [hfalse, Bool.false_eq_true, if_false]⟩

theorem keys_modify (r : Roster α) (k : String) (f : α → α) : (r.modify k f).keys = r.keys := by
  simp only [keys, modify, List.map_map]
  apply List.map_congr_left
  intro e _
  by_cases hek : e.1 = k <;> simp [hek]

theorem mem_putFirst {r : Roster α} {k : String} {v : α} {e : String × α} :
    e ∈ (r.putFirst k v).entries ↔ e = (k, v) ∨ (e ∈ r.entries ∧ e.1 ≠ k) := by
  simp only [putFirst, List.mem_cons, mem_erase]

end Roster

end Wiring
