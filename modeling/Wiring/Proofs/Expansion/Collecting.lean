import Wiring.Configuration.Expansion
import Wiring.Proofs.Expansion.Parsing

namespace Wiring

/-! Collecting candidates. The candidate check reads a class through the cache and writes the
mark the answer earns into the definition; a definition made by a factory method is never
marked. Collecting over a list of names checks each name once, changes no other definition, and
queues exactly the marked definitions whose identity is not parsed yet. -/

/-- A definition carries the mark the cached answer for its class earns, or is made by a factory
method. -/
def Definition.Checked (c : MetadataCache) (d : Definition) : Prop :=
  d.hasFactory = true ∨ ∃ m, c.entries.get? d.cls.userName = some m ∧ d.configuration = m.mode?

theorem Definition.Checked.mono {c c' : MetadataCache} {d : Definition} (h : d.Checked c)
    (hc : c.Extends c') : d.Checked c' := by
  rcases h with hfactory | ⟨m, hm, hmode⟩
  · exact .inl hfactory
  · exact .inr ⟨m, hc _ _ hm, hmode⟩

/-- The three outcomes of the candidate check: a factory-method definition is refused unread;
otherwise the class is read, and the definition is refused when the answer earns no mark, or
marked with the mark it earns. -/
theorem checkCandidate_cases (c : MetadataCache) (d : Definition) :
    (d.hasFactory = true ∧ checkCandidate c d = (false, d, c)) ∨
    (d.hasFactory = false ∧ (c.read d.cls).1.mode? = none ∧
      checkCandidate c d = (false, d, (c.read d.cls).2)) ∨
    (∃ mode d', d.hasFactory = false ∧ (c.read d.cls).1.mode? = some mode ∧
      checkCandidate c d = (true, d', (c.read d.cls).2) ∧ d'.cls = d.cls ∧
      d'.factory = d.factory ∧ d'.configuration = some mode) := by
  unfold checkCandidate
  by_cases hfactory : d.hasFactory = true
  · rw [if_pos hfactory]
    exact .inl ⟨hfactory, rfl⟩
  · rw [if_neg hfactory]
    have hnot : d.hasFactory = false := by simpa using hfactory
    generalize hr : c.read d.cls = r
    obtain ⟨m, c'⟩ := r
    dsimp only
    cases hmode : m.mode? with
    | none => exact .inr (.inl ⟨hnot, rfl, rfl⟩)
    | some mode =>
      dsimp only
      refine .inr (.inr ⟨mode, _, hnot, rfl, rfl, ?_, ?_, ?_⟩) <;> split <;> rfl

theorem extends_checkCandidate (c : MetadataCache) (d : Definition) :
    c.Extends (checkCandidate c d).2.2 := by
  rcases checkCandidate_cases c d with ⟨-, h⟩ | ⟨-, -, h⟩ | ⟨_, _, -, -, h, -, -, -⟩ <;> rw [h]
  · exact .refl c
  · exact MetadataCache.extends_read c d.cls
  · exact MetadataCache.extends_read c d.cls

theorem marked_of_checkCandidate (c : MetadataCache) (d : Definition)
    (h : (checkCandidate c d).1 = true) :
    (checkCandidate c d).2.1.configuration.isSome = true ∧
      (checkCandidate c d).2.1.hasFactory = false := by
  rcases checkCandidate_cases c d with ⟨-, hc⟩ | ⟨-, -, hc⟩ |
    ⟨mode, d', hfactory, -, hc, -, hfac, hmode⟩ <;> rw [hc] at h ⊢
  · cases h
  · cases h
  · simp only [hmode, Option.isSome_some, true_and]
    simpa [Definition.hasFactory, hfac] using hfactory

/-- The candidate check of a definition that is unmarked unless a factory method makes it: the
class and the factory stay, the definition gets the mark the answer earns, and unless a factory
method makes it, the verdict is whether it got one. -/
theorem checkCandidate_spec (c : MetadataCache) {d : Definition}
    (hd : d.hasFactory = false → d.configuration = none) :
    (checkCandidate c d).2.1.cls = d.cls ∧
      (checkCandidate c d).2.1.hasFactory = d.hasFactory ∧
      (checkCandidate c d).2.1.Checked (checkCandidate c d).2.2 ∧
      (d.hasFactory = false →
        (checkCandidate c d).1 = (checkCandidate c d).2.1.configuration.isSome) := by
  have hread := MetadataCache.get?_read c d.cls
  rcases checkCandidate_cases c d with ⟨hfactory, h⟩ | ⟨hnot, hmode, h⟩ |
    ⟨mode, d', hnot, hmode, h, hcls, hfac, hconf⟩ <;> rw [h] <;> dsimp only
  · refine ⟨rfl, rfl, .inl hfactory, fun hnot => ?_⟩
    rw [hfactory] at hnot
    cases hnot
  · exact ⟨rfl, rfl, .inr ⟨_, hread, by rw [hd hnot, hmode]⟩, by simp [hd hnot]⟩
  · refine ⟨hcls, by simp [Definition.hasFactory, hfac], .inr ⟨_, by rw [hcls]; exact hread, ?_⟩,
      by simp [hconf]⟩
    rw [hconf, hmode]

namespace Expansion

/-- What collecting over the names `names` from `s` to `t`, queueing `found`, guarantees: only the
named definitions change, each keeps its class and factory and carries the mark the cache answers
for it, and the queue holds marked definitions whose identity is not parsed, under their names.
A marked definition outside the queue has its identity parsed already. -/
structure Collected (parsed : List String) (names : List String) (s t : Pass)
    (found : CandidateSet) : Prop where
  names_eq : t.box.names = s.box.names
  parser_eq : t.parser = s.parser
  cache_extends : s.cache.Extends t.cache
  frame : ∀ n, n ∉ names → t.box.definition? n = s.box.definition? n
  checked : ∀ n ∈ names, ∀ d, s.box.definition? n = some d →
    (d.hasFactory = false → d.configuration = none) →
    ∃ d', t.box.definition? n = some d' ∧ d'.cls = d.cls ∧ d'.hasFactory = d.hasFactory ∧
      d'.Checked t.cache ∧ (d'.hasFactory = false → d'.configuration.isSome = true →
        d'.cls.userName ∈ parsed ∨ (n, d') ∈ found.entries.entries)
  queued : ∀ e ∈ found.entries.entries, e.1 ∈ names ∧ t.box.definition? e.1 = some e.2 ∧
    e.2.configuration.isSome = true ∧ e.2.hasFactory = false ∧ e.2.cls.userName ∉ parsed

namespace Collected

variable {parsed : List String} {name : String} {rest : List String} {s t : Pass}
  {found : CandidateSet}

theorem nil (s : Pass) : Collected parsed [] s s .empty :=
  ⟨rfl, rfl, .refl _, fun _ _ => rfl, fun _ hn => (nomatch hn),
    fun _ he => by simp [CandidateSet.empty, Roster.empty] at he⟩

theorem check {d : Definition} (hd : s.box.definition? name = some d)
    (hc : Collected parsed rest
      { s with box := s.box.modifyDefinition name (fun _ => (checkCandidate s.cache d).2.1),
               cache := (checkCandidate s.cache d).2.2 } t found) (hname : name ∉ rest) :
    Collected parsed (name :: rest) s t
      (if ((checkCandidate s.cache d).1 &&
          !parsed.contains (checkCandidate s.cache d).2.1.cls.userName) = true then
        ⟨found.entries.putFirst name (checkCandidate s.cache d).2.1⟩ else found) := by
  have hext := extends_checkCandidate s.cache d
  have hmarked := marked_of_checkCandidate s.cache d
  have hspec := fun hpre => checkCandidate_spec s.cache (d := d) hpre
  generalize checkCandidate s.cache d = r at hc hext hmarked hspec ⊢
  obtain ⟨ok, d₁, c₁⟩ := r
  dsimp only at hc hext hmarked hspec ⊢
  -- the checked definition sits at `name` until the end, the others as the rest left them
  have hat : t.box.definition? name = some d₁ := by
    rw [hc.frame name hname, Container.definition?_modifyDefinition, if_pos rfl, hd]
    rfl
  have hother : ∀ n, n ≠ name →
      (s.box.modifyDefinition name (fun _ => d₁)).definition? n = s.box.definition? n := by
    intro n hn
    rw [Container.definition?_modifyDefinition, if_neg hn]
  refine ⟨hc.names_eq.trans (Container.names_modifyDefinition _ _ _), hc.parser_eq,
    hext.trans hc.cache_extends, fun n hn => ?_, fun n hn d' hd' hpre => ?_, fun e he => ?_⟩
  · have hne : n ≠ name := fun h => hn (h ▸ List.mem_cons_self)
    exact (hc.frame n (fun h => hn (.tail _ h))).trans (hother n hne)
  · rcases List.mem_cons.1 hn with rfl | hn
    · rw [hd] at hd'
      cases hd'
      obtain ⟨hcls, hfactory, hchecked, hverdict⟩ := hspec hpre
      refine ⟨d₁, hat, hcls, hfactory, hchecked.mono hc.cache_extends, fun hnot hsome => ?_⟩
      have hok : ok = true := by rw [hverdict (hfactory ▸ hnot), hsome]
      by_cases hp : d₁.cls.userName ∈ parsed
      · exact .inl hp
      · refine .inr ?_
        rw [if_pos (by simp [hok, hp])]
        exact Roster.mem_putFirst.2 (.inl rfl)
    · have hne : n ≠ name := fun h => hname (h ▸ hn)
      obtain ⟨d'', hat', hcls, hfactory, hchecked, hqueued⟩ :=
        hc.checked n hn d' ((hother n hne).trans hd') hpre
      refine ⟨d'', hat', hcls, hfactory, hchecked, fun hnot hsome => ?_⟩
      rcases hqueued hnot hsome with hp | hfound
      · exact .inl hp
      · refine .inr ?_
        split
        · exact Roster.mem_putFirst.2 (.inr ⟨hfound, hne⟩)
        · exact hfound
  · split at he
    · next hpass =>
      simp only [Bool.and_eq_true, Bool.not_eq_true', List.contains_eq_mem,
        decide_eq_false_iff_not] at hpass
      rcases Roster.mem_putFirst.1 he with rfl | ⟨he, -⟩
      · obtain ⟨hsome, hnot⟩ := hmarked hpass.1
        exact ⟨List.mem_cons_self, hat, hsome, hnot, hpass.2⟩
      · obtain ⟨hmem, hrest⟩ := hc.queued e he
        exact ⟨.tail _ hmem, hrest⟩
    · obtain ⟨hmem, hrest⟩ := hc.queued e he
      exact ⟨.tail _ hmem, hrest⟩

end Collected

end Expansion

end Wiring
