import Wiring.Log

/-! The process logger starts once. The first request that passes its own checks
(`Request.check`) and whose directory can be created starts the logger; every later request is
answered against it by `Logger.answer`, which never changes it (`first_start_fixes_logger`). A
panic message is logged on one line, cut past the limit and marked with three dots
(`singleLine_flattens_and_caps`). -/

namespace Wiring.Log

namespace Directory

theorem sameAs_self (d : Directory) : d.sameAs d = true := by
  simp [sameAs]

theorem absolute_sameAs_absolute (t u : String) :
    (absolute t).sameAs (absolute u) = true ↔ bodyComponents t = bodyComponents u := by
  simp [sameAs, components]

theorem bodyComponents_append_separator (t : String) :
    bodyComponents (t ++ "/") = bodyComponents t := by
  simp [bodyComponents, String.toList_append, List.splitOn_append_cons_self]

theorem bodyComponents_doubled_separator (a b : String) :
    bodyComponents (a ++ "//" ++ b) = bodyComponents (a ++ "/" ++ b) := by
  simp [bodyComponents, String.toList_append, List.splitOn_append_cons_self,
    List.splitOn_cons_eq_if_modifyHead]

theorem bodyComponents_current_name (a b : String) :
    bodyComponents (a ++ "/./" ++ b) = bodyComponents (a ++ "/" ++ b) := by
  simp [bodyComponents, String.toList_append, List.splitOn_append_cons_self,
    List.splitOn_cons_eq_if_modifyHead]

example : (absolute "/var/log/").sameAs (absolute "/var//./log") = true := by decide

end Directory

/-- The checks a request passes or fails on its own, in their order: its level must parse, and
its directory must be absolute. -/
def Request.check (r : Request) : Except LogError Level :=
  match Level.parse? r.level, r.dir with
  | none, _ => .error (.unsupportedLevel (Text.trim r.level))
  | some _, .relative p => .error (.invalidDirectory p "path must be absolute")
  | some lvl, .absolute _ => .ok lvl

/-- What a request answers while `l` runs: the request's own checks, then the running directory,
compared by components, and last the running level. -/
def Logger.answer (l : Logger) (r : Request) : Except LogError Unit :=
  match r.check with
  | .error e => .error e
  | .ok lvl =>
    if !l.directory.sameAs r.dir then .error (.alreadyActive l.directory.text r.dir.text)
    else if l.level ≠ lvl then .error (.alreadyActive l.level.name lvl.name)
    else .ok ()

theorem init_of_check_error {active : Option Logger} {create : Creation} {r : Request}
    {e : LogError} (h : r.check = .error e) : init active create r = (.error e, active) := by
  obtain ⟨level, dir⟩ := r
  unfold Request.check at h
  unfold init start
  cases hp : Level.parse? level with
  | none =>
    simp only [hp] at h
    cases h
    rfl
  | some lvl =>
    cases dir with
    | relative p =>
      simp only [hp] at h
      cases h
      rfl
    | absolute t => simp [hp] at h

theorem check_eq_ok {r : Request} {lvl : Level} :
    r.check = .ok lvl ↔ Level.parse? r.level = some lvl ∧ ∃ t, r.dir = .absolute t := by
  obtain ⟨level, dir⟩ := r
  unfold Request.check
  cases Level.parse? level <;> cases dir <;> simp

theorem init_of_running (l : Logger) (create : Creation) (r : Request) :
    init (some l) create r = (l.answer r, some l) := by
  cases hc : r.check with
  | error e => simp [init_of_check_error hc, Logger.answer, hc]
  | ok lvl =>
    obtain ⟨hp, t, hdir⟩ := check_eq_ok.1 hc
    obtain ⟨level, dir⟩ := r
    simp only at hp hdir
    subst hdir
    simp only [init, start, hp, Logger.answer, hc]
    by_cases hd : l.directory.sameAs (.absolute t) <;> by_cases hl : l.level = lvl <;>
      simp [hd, hl] <;> rfl

theorem init_starts {create : Creation} {level D : String} {lvl : Level}
    (hp : Level.parse? level = some lvl) (hcreate : create D = .ok ()) :
    init none create ⟨level, .absolute D⟩ = (.ok (), some ⟨lvl, .absolute D⟩) := by
  simp [init, start, hp, hcreate, Directory.sameAs_self]
  rfl

theorem initAll_append (active : Option Logger) (create : Creation) (rs qs : List Request) :
    initAll active create (rs ++ qs) =
      ((initAll active create rs).1 ++ (initAll (initAll active create rs).2 create qs).1,
        (initAll (initAll active create rs).2 create qs).2) := by
  induction rs generalizing active with
  | nil => rfl
  | cons r rs ih => simp [initAll, ih]

theorem initAll_of_running (l : Logger) (create : Creation) (rs : List Request) :
    initAll (some l) create rs = (rs.map l.answer, some l) := by
  induction rs with
  | nil => rfl
  | cons r rs ih => simp [initAll, init_of_running, ih]

theorem initAll_of_refused (create : Creation) (rs : List Request)
    (h : ∀ r ∈ rs, ∃ e, r.check = .error e) :
    initAll none create rs = (rs.map fun r => r.check.map fun _ => (), none) := by
  induction rs with
  | nil => rfl
  | cons r rs ih =>
    obtain ⟨e, he⟩ := h r (by simp)
    simp [initAll, init_of_check_error he, ih fun q hq => h q (by simp [hq]), he]
    rfl

theorem first_start_fixes_logger (create : Creation) (pre post : List Request)
    (level D : String) (lvl : Level) (hpre : ∀ r ∈ pre, ∃ e, r.check = .error e)
    (hlevel : Level.parse? level = some lvl) (hcreate : create D = .ok ()) :
    (initAll none create (pre ++ ⟨level, .absolute D⟩ :: post)).1 =
        pre.map (fun r => r.check.map fun _ => ()) ++
          .ok () :: post.map (Logger.answer ⟨lvl, .absolute D⟩) ∧
      status (initAll none create (pre ++ ⟨level, .absolute D⟩ :: post)).2 =
        some (lvl, .absolute D) := by
  rw [initAll_append, initAll_of_refused create pre hpre]
  simp [initAll, init_starts hlevel hcreate, initAll_of_running, status]

theorem warning_start_fixes_logger :
    (∀ r ∈ [Request.mk "verbose" (.absolute "/var/log/app"),
        ⟨"info", .relative "logs/dev"⟩], ∃ e, r.check = .error e) ∧
      Level.parse? " Warning " = some .warn ∧
      (initAll none (fun _ => .ok ())
          [⟨"verbose", .absolute "/var/log/app"⟩, ⟨"info", .relative "logs/dev"⟩,
            ⟨" Warning ", .absolute "/var/log/app"⟩, ⟨"WARN", .absolute "/var/log//./app/"⟩,
            ⟨"debug", .absolute "/var/log/app"⟩, ⟨"warn", .absolute "/srv/log"⟩]).1 =
        [.error (.unsupportedLevel "verbose"),
          .error (.invalidDirectory "logs/dev" "path must be absolute"), .ok (), .ok (),
          .error (.alreadyActive "warn" "debug"),
          .error (.alreadyActive "/var/log/app" "/srv/log")] := by
  have hpre : ∀ r ∈ [Request.mk "verbose" (.absolute "/var/log/app"),
      ⟨"info", .relative "logs/dev"⟩], ∃ e, r.check = .error e := by
    simp only [List.mem_cons, List.not_mem_nil, or_false, forall_eq_or_imp, forall_eq]
    exact ⟨⟨_, rfl⟩, ⟨_, rfl⟩⟩
  have hlevel : Level.parse? " Warning " = some .warn := by decide
  refine ⟨hpre, hlevel, ?_⟩
  exact (first_start_fixes_logger (fun _ => .ok ()) _
    [⟨"WARN", .absolute "/var/log//./app/"⟩, ⟨"debug", .absolute "/var/log/app"⟩,
      ⟨"warn", .absolute "/srv/log"⟩] " Warning " "/var/log/app" .warn hpre hlevel rfl).1.trans
    rfl

/-! ### Panic messages on one line -/

/-- A line feed or a carriage return becomes a space; every other character stays. -/
def spaceForBreak (c : Char) : Char :=
  if c = '\n' ∨ c = '\r' then ' ' else c

theorem spaceForBreak_ne_break (c : Char) : spaceForBreak c ≠ '\n' ∧ spaceForBreak c ≠ '\r' := by
  unfold spaceForBreak
  split <;> simp_all

theorem singleLine_eq (s : String) (limit : Nat) :
    singleLine s limit =
      String.ofList ((s.map spaceForBreak).toList.take limit) ++
        if limit < s.length then "..." else "" := by
  unfold spaceForBreak
  simp only [singleLine, String.toList_map, List.length_map, String.length_toList, gt_iff_lt]

theorem singleLine_flattens_and_caps (s : String) (limit : Nat) :
    '\n' ∉ (singleLine s limit).toList ∧ '\r' ∉ (singleLine s limit).toList ∧
    (s.length ≤ limit → singleLine s limit = s.map spaceForBreak) ∧
    (limit < s.length →
      singleLine s limit = String.ofList ((s.map spaceForBreak).toList.take limit) ++ "...") ∧
    (singleLine s limit).length = min s.length limit + if limit < s.length then 3 else 0 := by
  -- no character of the flattened text is a line break, and the marker holds only dots
  have hbreak : ∀ b ∈ (singleLine s limit).toList, b ≠ '\n' ∧ b ≠ '\r' := by
    intro b hb
    rw [singleLine_eq, String.toList_append, String.toList_ofList, List.mem_append] at hb
    rcases hb with hb | hb
    · obtain ⟨c, -, rfl⟩ := List.mem_map.1 (String.toList_map ▸ List.mem_of_mem_take hb)
      exact spaceForBreak_ne_break c
    · split at hb <;> simp_all
  refine ⟨fun h => (hbreak _ h).1 rfl, fun h => (hbreak _ h).2 rfl, fun hle => ?_,
    fun hlt => ?_, ?_⟩
  · rw [singleLine_eq, if_neg (by omega), String.append_empty, ← String.toList_inj,
      String.toList_ofList, List.take_of_length_le]
    rw [String.toList_map, List.length_map, String.length_toList]
    exact hle
  · rw [singleLine_eq, if_pos hlt]
  · rw [singleLine_eq, String.length_append, String.length_ofList, List.length_take]
    simp only [String.toList_map, List.length_map, String.length_toList, Nat.min_comm]
    split <;> rfl

/-- The message of the library's own test: two line breaks flattened, the rest cut after ten
characters. -/
example : singleLine "first\nsecond\rthird" 10 = "first seco..." := by decide

end Wiring.Log
