import Wiring.Catalog

/-! The class catalog. A class name is a whole text in the language `ident ('.' ident$)*`, with
ASCII identifiers and dollar signs allowed after the first segment (`valid_iff_matches`).
Registration appends a class exactly when its name is a class name no class holds, an invalid
name refused before a duplicate one. A scan keeps the classes of a package and of the packages
nested in it, never those of a sibling package that shares a prefix (`inPackage_iff_pieces`). -/

namespace Wiring.ClassName

def StartClass (c : Char) : Prop :=
  ('A' ≤ c ∧ c ≤ 'Z') ∨ ('a' ≤ c ∧ c ≤ 'z') ∨ c = '_'

def WordClass (c : Char) : Prop := StartClass c ∨ ('0' ≤ c ∧ c ≤ '9')

def DollarClass (c : Char) : Prop := WordClass c ∨ c = '$'

instance : DecidablePred StartClass := fun c =>
  inferInstanceAs (Decidable (('A' ≤ c ∧ c ≤ 'Z') ∨ ('a' ≤ c ∧ c ≤ 'z') ∨ c = '_'))

instance : DecidablePred WordClass := fun c =>
  inferInstanceAs (Decidable (StartClass c ∨ ('0' ≤ c ∧ c ≤ '9')))

instance : DecidablePred DollarClass := fun c =>
  inferInstanceAs (Decidable (WordClass c ∨ c = '$'))

def Ident (cls : Char → Prop) : List Char → Prop
  | [] => False
  | c :: cs => StartClass c ∧ ∀ d ∈ cs, cls d

/-- The whole text is a word of `ident ('.' ident$)*`. -/
def Matches (s : List Char) : Prop :=
  ∃ (first : List Char) (rest : List (List Char)),
    Ident WordClass first ∧ (∀ w ∈ rest, Ident DollarClass w) ∧
      s = first ++ (rest.map ('.' :: ·)).flatten

theorem isAlpha_iff (c : Char) :
    c.isAlpha = true ↔ ('A' ≤ c ∧ c ≤ 'Z') ∨ ('a' ≤ c ∧ c ≤ 'z') := by
  change (decide (c.val ≥ 'A'.val ∧ c.val ≤ 'Z'.val) ||
    (decide (c.val ≥ 'a'.val) && decide (c.val ≤ 'z'.val))) = true ↔ _
  simp only [Bool.or_eq_true, Bool.and_eq_true, decide_eq_true_eq, Char.le_def, ge_iff_le]

theorem isStart_iff (c : Char) : isStart c = true ↔ StartClass c := by
  simp only [isStart, Bool.or_eq_true, isAlpha_iff, beq_iff_eq, StartClass, or_assoc]

theorem isInner_eq (c : Char) : isInner c = (isStart c || c.isDigit) := by
  simp only [isInner, isStart, Char.isAlphanum, Bool.or_right_comm]

theorem isInner_iff (c : Char) : isInner c = true ↔ WordClass c := by
  simp only [isInner_eq, Bool.or_eq_true, isStart_iff, WordClass, Char.isDigit,
    Bool.and_eq_true, decide_eq_true_eq, Char.le_def, ge_iff_le]

theorem isLaterInner_iff (c : Char) : isLaterInner c = true ↔ DollarClass c := by
  simp only [isLaterInner, Bool.or_eq_true, isInner_iff, beq_iff_eq, DollarClass]

theorem segment_iff {inner : Char → Bool} {cls : Char → Prop}
    (h : ∀ c, inner c = true ↔ cls c) (w : List Char) : segment inner w = true ↔ Ident cls w := by
  cases w with
  | nil => simp [segment, Ident]
  | cons c cs => simp [segment, Ident, isStart_iff, List.all_eq_true, h]

theorem dot_not_mem_of_ident {cls : Char → Prop} (hdot : ¬ cls '.') {w : List Char}
    (h : Ident cls w) : '.' ∉ w := by
  cases w with
  | nil => simp [Ident] at h
  | cons c cs =>
    rintro (_ | ⟨_, hmem⟩)
    · exact absurd h.1 (by decide)
    · exact hdot (h.2 _ hmem)

theorem pieces_eq_splitOn (cs : List Char) : pieces cs = cs.splitOn '.' := by
  induction cs with
  | nil => rfl
  | cons c cs ih =>
    rw [List.splitOn_cons_eq_if_modifyHead, ← ih]
    -- the pieces of a list are never empty, so the head that `modifyHead` extends exists
    obtain ⟨p, ps, hp⟩ : ∃ p ps, pieces cs = p :: ps :=
      List.exists_cons_of_ne_nil (ih ▸ List.splitOn_ne_nil '.' cs)
    by_cases hc : c = '.' <;> simp [pieces, hp, hc]

theorem append_flatten_map_cons (a : Char) (first : List Char) (rest : List (List Char)) :
    first ++ (rest.map (a :: ·)).flatten = [a].intercalate (first :: rest) := by
  induction rest generalizing first with
  | nil => simp
  | cons w rest ih =>
    rw [List.intercalate_cons_cons, ← ih w]
    simp

theorem intercalate_append {a : Char} {ls ms : List (List Char)} (hls : ls ≠ [])
    (hms : ms ≠ []) :
    [a].intercalate (ls ++ ms) = [a].intercalate ls ++ a :: [a].intercalate ms := by
  induction ls with
  | nil => exact absurd rfl hls
  | cons l ls ih =>
    cases ls with
    | nil =>
      obtain ⟨m, ms, rfl⟩ := List.exists_cons_of_ne_nil hms
      simp
    | cons l' ls =>
      have h := ih (List.cons_ne_nil _ _)
      simp only [List.cons_append] at h ⊢
      simp [h]

theorem validPieces_iff_matches (s : List Char) : validPieces (pieces s) = true ↔ Matches s := by
  rw [pieces_eq_splitOn]
  constructor
  · intro h
    obtain ⟨first, rest, hsplit⟩ : ∃ first rest, s.splitOn '.' = first :: rest :=
      List.exists_cons_of_ne_nil (List.splitOn_ne_nil _ _)
    rw [hsplit] at h
    simp only [validPieces, Bool.and_eq_true, List.all_eq_true] at h
    refine ⟨first, rest, (segment_iff isInner_iff first).1 h.1,
      fun w hw => (segment_iff isLaterInner_iff w).1 (h.2 w hw), ?_⟩
    rw [append_flatten_map_cons, ← hsplit, List.intercalate_splitOn]
  · rintro ⟨first, rest, hfirst, hrest, hs⟩
    have hsplit : s.splitOn '.' = first :: rest := by
      rw [hs, append_flatten_map_cons]
      refine List.splitOn_intercalate '.' ?_ (List.cons_ne_nil _ _)
      rintro w (_ | ⟨_, hw⟩)
      · exact dot_not_mem_of_ident (by decide) hfirst
      · exact dot_not_mem_of_ident (by decide) (hrest w hw)
    simp only [hsplit, validPieces, Bool.and_eq_true, List.all_eq_true]
    exact ⟨(segment_iff isInner_iff first).2 hfirst,
      fun w hw => (segment_iff isLaterInner_iff w).2 (hrest w hw)⟩

instance : DecidablePred Matches := fun s =>
  decidable_of_iff _ (validPieces_iff_matches s)

theorem valid_iff_matches (name : String) : valid name = true ↔ Matches name.toList :=
  validPieces_iff_matches name.toList

example : valid "app.Thing\n" = false := by decide

end Wiring.ClassName

namespace Wiring

/-- A class lies in package `p` or in a package nested in it: its name continues `p` with a
dot. -/
def InPackage (p name : String) : Prop :=
  ∃ rest, name.toList = p.toList ++ '.' :: rest

theorem inPackage_iff_isPrefix (p name : String) :
    InPackage p name ↔ (p.toList ++ ['.']) <+: name.toList := by
  constructor
  · rintro ⟨rest, h⟩
    exact ⟨rest, by simp [h]⟩
  · rintro ⟨rest, h⟩
    exact ⟨rest, by simp [← h]⟩

theorem inPackage_iff_startsWith (p name : String) :
    InPackage p name ↔ name.startsWith (p ++ ".") = true := by
  rw [inPackage_iff_isPrefix, String.startsWith_string_iff, String.toList_append]
  rfl

instance (p name : String) : Decidable (InPackage p name) :=
  decidable_of_iff _ (Iff.trans List.isPrefixOf_iff_prefix (inPackage_iff_isPrefix p name).symm)

example : InPackage "app.web" "app.web.admin.Panel" ∧
    ¬ InPackage "app.web" "app.webhooks.Hook" := by
  decide

theorem inPackage_iff_pieces (p name : String) :
    InPackage p name ↔ ∃ more, more ≠ [] ∧
      ClassName.pieces name.toList = ClassName.pieces p.toList ++ more := by
  simp only [ClassName.pieces_eq_splitOn]
  constructor
  · rintro ⟨rest, hrest⟩
    exact ⟨rest.splitOn '.', List.splitOn_ne_nil _ _, by
      rw [hrest, List.splitOn_append_cons_self]⟩
  · rintro ⟨more, hmore, hsplit⟩
    refine ⟨['.'].intercalate more, ?_⟩
    calc name.toList = ['.'].intercalate (name.toList.splitOn '.') :=
          (List.intercalate_splitOn '.').symm
      _ = ['.'].intercalate (p.toList.splitOn '.' ++ more) := by rw [hsplit]
      _ = p.toList ++ '.' :: ['.'].intercalate more := by
          rw [ClassName.intercalate_append (List.splitOn_ne_nil _ _) hmore,
            List.intercalate_splitOn]

namespace Catalog

theorem any_name_eq_isSome (c : Catalog) (n : String) :
    c.classes.any (·.name == n) = (c.resolve? n).isSome := by
  simp [resolve?, List.isSome_find?]

theorem scan_eq_filter (c : Catalog) (p : String) :
    c.scan p = c.classes.filter fun k =>
      decide (InPackage p k.name) && (k.metadata.component || k.metadata.configuration) := by
  simp only [scan, inPackage_iff_startsWith, Bool.decide_eq_true]

theorem register_eq (c : Catalog) (k : ComponentClass) :
    c.register k =
      if ¬ ClassName.Matches k.name.toList then
        .error (.invalidConfiguration (.invalidClassName k.name))
      else if (c.resolve? k.name).isSome then
        .error (.invalidConfiguration (.duplicateClass k.name))
      else .ok ⟨c.classes ++ [k]⟩ := by
  have hvalid := ClassName.valid_iff_matches k.name
  unfold register
  rw [any_name_eq_isSome]
  cases hv : ClassName.valid k.name with
  | false =>
    have hbad : ¬ ClassName.Matches k.name.toList := by simp [← hvalid, hv]
    simp [hbad]
  | true => simp [hvalid.1 hv]

theorem classes_of_register_eq_ok {c c' : Catalog} {k : ComponentClass}
    (h : c.register k = .ok c') : c'.classes = c.classes ++ [k] := by
  rw [register_eq] at h
  split at h
  · cases h
  · split at h
    · cases h
    · cases h
      rfl

theorem registerEach_classes (c : Catalog) (ks : List ComponentClass) :
    (c.registerEach ks).2.classes =
      c.classes ++ ((ks.zip (c.registerEach ks).1).filter (·.2.isOk)).map (·.1) := by
  induction ks generalizing c with
  | nil => simp [registerEach]
  | cons k ks ih =>
    cases hreg : c.register k with
    | ok c' =>
      simp [registerEach, hreg, ih c', classes_of_register_eq_ok hreg, Except.isOk, Except.toBool]
    | error e => simp [registerEach, hreg, ih c, Except.isOk, Except.toBool]

theorem register_accepts_exactly_class_names (c : Catalog) (k : ComponentClass)
    (ks : List ComponentClass) (p : String) :
    (c.register k = .ok ⟨c.classes ++ [k]⟩ ↔
      ClassName.Matches k.name.toList ∧ c.resolve? k.name = none) ∧
    (∀ e, c.register k = .error e ↔
      (¬ ClassName.Matches k.name.toList ∧
        e = .invalidConfiguration (.invalidClassName k.name)) ∨
      (ClassName.Matches k.name.toList ∧ (c.resolve? k.name).isSome ∧
        e = .invalidConfiguration (.duplicateClass k.name))) ∧
    (c.registerEach ks).2.classes =
      c.classes ++ ((ks.zip (c.registerEach ks).1).filter (·.2.isOk)).map (·.1) ∧
    c.scan p = c.classes.filter fun k =>
      decide (InPackage p k.name) && (k.metadata.component || k.metadata.configuration) := by
  refine ⟨?_, fun e => ?_, registerEach_classes c ks, scan_eq_filter c p⟩
  · rw [register_eq]
    by_cases hm : ClassName.Matches k.name.toList <;> simp [hm]
  · rw [register_eq]
    by_cases hm : ClassName.Matches k.name.toList <;> cases (c.resolve? k.name).isSome <;>
      simp [hm] <;> exact eq_comm

end Catalog
end Wiring
