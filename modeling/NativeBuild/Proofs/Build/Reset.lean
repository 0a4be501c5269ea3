import NativeBuild.Proofs.Build.CallRun
import NativeBuild.Proofs.Build.History
import NativeBuild.Proofs.Build.Invariant
import NativeBuild.Proofs.Build.Order
import NativeBuild.Proofs.Build.Steady

/-!
# Cleaning everything

Cleaning a project asks for the removal of its two directories, one after the other, and forgets
the project when both are removed.  Cleaning everything goes through the projects by their ids.
Since nothing else is remembered of projects, a session after it goes on as a fresh one does; when
a removal fails, the projects before the one it is for are forgotten, and nothing else changes.

Main definitions:

- `BuildSetup.removalCalls`: the calls that cleaning a project asks for.
- `Project.cleaning`: what cleaning a project leaves in the trace.
- `Session.Cleared`: a session after some projects were cleaned.
- `BuildSetup.OnlyRegistered`: only registered projects have a state.

Main results:

- Theorem `outcome_clean`: what cleaning a project does.
- Theorem `cleanEach_cases`: what cleaning several projects does.
- Theorem `onlyRegistered_of_requests`: requests give a state to registered projects only.
- Theorem `cleanAll_resets`: what cleaning everything does, and what comes after it.
-/

namespace NativeBuild

/-- The calls that cleaning a project asks for. -/
def BuildSetup.removalCalls (p : Project) : List ToolCall :=
  [.removeDirectoryTree p.objDir, .removeDirectoryTree p.binDir]

/-- What cleaning a project leaves in the trace. -/
def Project.cleaning (p : Project) : List TraceEntry :=
  (BuildSetup.removalCalls p).map (.call p.id) ++ [.cleaned p.id]

namespace Session

variable {σ : Type} {projects others : List Project} {s t u : Session σ}

/-- The session after a run of calls for a project. -/
def called (s : Session σ) (id : String) (run : CallRun σ) : Session σ :=
  { s with trace := s.trace ++ run.made.map (.call id), world := run.world }

/-- The second session is the first after the given projects were cleaned. -/
structure Cleared (projects : List Project) (s t : Session σ) : Prop where
  forgotten : ∀ p ∈ projects, t.states p.id = .notBuilt
  kept : ∀ id, id ∉ projects.map (·.id) → t.states id = s.states id
  stats : t.stats = s.stats
  trace : t.trace = s.trace ++ projects.flatMap Project.cleaning

/-- A session is itself after nothing was cleaned. -/
theorem Cleared.refl (s : Session σ) : Cleared [] s s :=
  ⟨by simp, by simp, rfl, by simp⟩

/-- Projects may be cleaned after others. -/
theorem Cleared.trans (hst : Cleared projects s t)
    (htu : Cleared others t u) : Cleared (projects ++ others) s u where
  forgotten := by
    intro p hp
    by_cases hother : p.id ∈ others.map (·.id)
    · obtain ⟨q, hq, hid⟩ := List.mem_map.1 hother
      rw [← hid]
      exact htu.forgotten q hq
    · rw [htu.kept _ hother]
      rcases List.mem_append.1 hp with hp | hp
      · exact hst.forgotten p hp
      · exact absurd (List.mem_map_of_mem hp) hother
  kept := by
    intro id hid
    rw [List.map_append, List.mem_append, not_or] at hid
    rw [htu.kept id hid.2, hst.kept id hid.1]
  stats := htu.stats.trans hst.stats
  trace := by rw [htu.trace, hst.trace, List.flatMap_append, List.append_assoc]

end Session

namespace BuildSetup

open Build Session

variable {σ : Type} {x : BuildSetup σ} {p : Project} {projects : List Project} {s t u : Session σ}
  {e : BuildError}

/-! ## One project -/

/-- Cleaning a project asks for two removals and forgets the project when both succeed. -/
theorem outcome_clean (hp : x.registry.get? p.id = some p) (s : Session σ) :
    (x.clean p.id).outcome s =
      match (x.backend.run (removalCalls p) s.world).failure with
      | none => (.ok (), (s.called p.id (x.backend.run (removalCalls p) s.world)).forget p.id)
      | some (_, e) => (.error e, s.called p.id (x.backend.run (removalCalls p) s.world)) := by
  have hgive := outcome_give (x.registry.require p.id) s
  rw [Registry.require, hp] at hgive
  rw [clean, Registry.require, hp, outcome_bind_of_ok hgive]
  simp only [removalCalls, perform, outcome, bind, EStateM.bind, act, answer, Session.record]
  cases hobj : x.backend.perform (.removeDirectoryTree p.objDir) s.world with
  | error e after =>
      rw [Backend.run_cons_of_error hobj]
      rfl
  | ok _ middle =>
      rw [Backend.run_cons_of_ok hobj]
      cases hbin : x.backend.perform (.removeDirectoryTree p.binDir) middle with
      | error e after =>
          rw [Backend.run_cons_of_error hbin]
          simp [hbin, called]
      | ok _ after =>
          rw [Backend.run_cons_of_ok hbin]
          simp [hbin, Backend.run, called, change]

/-- A project that was cleaned is forgotten, and its directories were removed. -/
theorem cleared_of_clean (hp : x.registry.get? p.id = some p)
    (h : (x.clean p.id).outcome s = (.ok (), t)) : Cleared [p] s t := by
  rw [outcome_clean hp] at h
  split at h
  · rename_i hfailure
    cases h
    refine ⟨by simp, fun id hid => ?_, rfl, ?_⟩
    · rw [List.map_singleton, List.mem_singleton] at hid
      rw [states_forget, states_setState_other _ _ hid, called]
    · simp [called, Backend.made_of_ok hfailure, Project.cleaning]
  · cases h

/-! ## Several projects -/

/-- Projects are cleaned one after another, up to the first whose directories cannot be
removed. -/
theorem cleanEach_cases (hprojects : ∀ p ∈ projects, x.registry.get? p.id = some p)
    (s : Session σ) :
    (∃ t, (x.cleanEach (projects.map (·.id))).outcome s = (.ok (), t) ∧ Cleared projects s t) ∨
      ∃ before p after t call e, projects = before ++ p :: after ∧
        (x.cleanEach (before.map (·.id))).outcome s = (.ok (), t) ∧ Cleared before s t ∧
        (x.backend.run (removalCalls p) t.world).failure = some (call, e) ∧
        (x.cleanEach (projects.map (·.id))).outcome s =
          (.error e, t.called p.id (x.backend.run (removalCalls p) t.world)) := by
  induction projects generalizing s with
  | nil => exact .inl ⟨s, rfl, .refl s⟩
  | cons p rest ih =>
      have hp := hprojects p List.mem_cons_self
      simp only [List.map_cons, cleanEach]
      cases hfailure : (x.backend.run (removalCalls p) s.world).failure with
      | some failed =>
          obtain ⟨call, e⟩ := failed
          have hclean := outcome_clean hp s
          rw [hfailure] at hclean
          exact .inr ⟨[], p, rest, s, call, e, rfl, rfl, .refl s, hfailure,
            outcome_bind_of_error hclean⟩
      | none =>
          have hclean := outcome_clean hp s
          rw [hfailure] at hclean
          have hcleared := cleared_of_clean hp hclean
          rw [outcome_bind_of_ok hclean]
          rcases ih (fun q hq => hprojects q (List.mem_cons_of_mem _ hq)) _ with
            ⟨t, hrest, ht⟩ | ⟨before, q, after, t, call, e, rfl, hbefore, ht, hfailure, hrest⟩
          · exact .inl ⟨t, hrest, hcleared.trans ht⟩
          · refine .inr ⟨p :: before, q, after, t, call, e, rfl, ?_, hcleared.trans ht, hfailure,
              hrest⟩
            rw [List.map_cons, cleanEach, outcome_bind_of_ok hclean, hbefore]

/-! ## What is remembered -/

/-- Only registered projects run, and only registered projects have a state. -/
structure OnlyRegistered (x : BuildSetup σ) (running : List String) (s : Session σ) : Prop where
  running : ∀ id ∈ running, id ∈ x.registry.ids
  states : ∀ id, s.states id ≠ .notBuilt → id ∈ x.registry.ids

/-- Only the states matter for which projects have one. -/
theorem OnlyRegistered.of_states {running : List String} (h : x.OnlyRegistered running s)
    (hstates : t.states = s.states) : x.OnlyRegistered running t :=
  ⟨h.running, fun id hid => h.states id (hstates ▸ hid)⟩

/-- A registered project may have any state. -/
theorem OnlyRegistered.setState {running : List String} (h : x.OnlyRegistered running s)
    {id : String} (hid : id ∈ x.registry.ids) (state : BuildState) :
    x.OnlyRegistered running (s.setState id state) := by
  refine ⟨h.running, fun other hother => ?_⟩
  by_cases hsame : other = id
  · exact hsame ▸ hid
  · rw [states_setState_other _ _ hsame] at hother
    exact h.states other hother

/-- No step of a build gives a state to a project that is not registered. -/
theorem stepInvariant_onlyRegistered (x : BuildSetup σ) :
    x.StepInvariant fun _ running => x.OnlyRegistered running where
  entered h _ := h.of_states rfl
  left h := h.of_states rfl
  directories h hdirs := h.of_states ((x.works_makeDirectories _).worked hdirs).states
  reused h _ _ := h.of_states rfl
  begun h hp _ _ := ⟨List.forall_mem_cons.2 ⟨Registry.mem_ids_iff.2 ⟨_, hp⟩, h.running⟩, h.states⟩
  generated h _ hgen := h.of_states (states_generate hgen)
  marked h := h.setState (h.running _ List.mem_cons_self) .built
  produced h _ _ hown := h.of_states (states_produce hown)
  succeeded _ h _ _ _ := ⟨(List.forall_mem_cons.1 h.running).2, h.states⟩
  failed h hp _ :=
    (OnlyRegistered.mk (List.forall_mem_cons.1 h.running).2 h.states).setState
      (Registry.mem_ids_iff.2 ⟨_, hp⟩) .failed |>.of_states rfl

/-- Cleaning gives no unregistered project a state. -/
theorem onlyRegistered_clean (id : String) (s : Session σ) (h : x.OnlyRegistered [] s) :
    x.OnlyRegistered [] ((x.clean id).outcome s).2 := by
  rcases x.outcome_clean_cases id s with ⟨e, -, hworked⟩ | ⟨-, t, hworked, heq⟩
  · exact h.of_states hworked.states
  · refine ⟨by simp, fun other hother => ?_⟩
    rw [heq, states_forget] at hother
    by_cases hsame : other = id
    · exact absurd (by rw [hsame, states_setState_same]) hother
    · rw [states_setState_other _ _ hsame, hworked.states] at hother
      exact h.states other hother

/-- Requests give a state to registered projects only. -/
theorem onlyRegistered_of_requests (x : BuildSetup σ) (world : σ) (requests : List Request) :
    x.OnlyRegistered [] (x.serveAll requests { world }).2 := by
  refine serveAll_preserves (fun request _ s hs => ?_) ⟨by simp, by simp⟩
  exact serve_preserves x.stepInvariant_onlyRegistered.build onlyRegistered_clean request hs

/-! ## Everything -/

/-- The projects before one of a registry are those with smaller ids. -/
theorem mem_ids_before_iff {r : Registry} {before after : List Project}
    (hsplit : r.projects = before ++ p :: after) {id : String} :
    id ∈ before.map (·.id) ↔ id ∈ r.ids ∧ id < p.id := by
  have hsorted := r.sorted
  rw [hsplit, List.pairwise_append, List.pairwise_cons] at hsorted
  obtain ⟨-, ⟨hafter, -⟩, hbefore⟩ := hsorted
  rw [Registry.ids, hsplit, List.map_append, List.map_cons, List.mem_append, List.mem_cons]
  constructor
  · intro hid
    obtain ⟨q, hq, rfl⟩ := List.mem_map.1 hid
    exact ⟨.inl hid, hbefore q hq p List.mem_cons_self⟩
  · rintro ⟨hid | rfl | hid, hlt⟩
    · exact hid
    · exact absurd hlt (String.lt_irrefl _)
    · obtain ⟨q, hq, rfl⟩ := List.mem_map.1 hid
      exact absurd (String.lt_trans hlt (hafter q hq)) (String.lt_irrefl _)

/-- Take a session after any requests, and clean everything.

* When that succeeds, no project has a state, and the counters are as before.  Any requests are
  then answered as in a fresh session in the same world, they make the same calls, tell the same
  news and leave the same states and the same world; the counters differ by what they were.
* When it fails, it does so because of a removal for a project.  The projects with smaller ids
  were cleaned, each by its two removals, and have no state; every other state is as before, and
  so are the counters. -/
theorem cleanAll_resets (x : BuildSetup σ) (world : σ) (earlier : List Request) {s t : Session σ}
    {result : Except BuildError Unit} (hs : (x.serveAll earlier { world }).2 = s)
    (h : x.cleanAll.outcome s = (result, t)) :
    (result = .ok () →
      (∀ id, t.states id = .notBuilt) ∧ t.stats = s.stats ∧
      t.trace = s.trace ++ x.registry.projects.flatMap Project.cleaning ∧
      ∀ later : List Request,
        let fresh := x.serveAll later { world := t.world }
        (x.serveAll later t).1 = fresh.1 ∧
          (x.serveAll later t).2.states = fresh.2.states ∧
          (x.serveAll later t).2.world = fresh.2.world ∧
          (x.serveAll later t).2.trace = t.trace ++ fresh.2.trace ∧
          (x.serveAll later t).2.stats = s.stats.plus fresh.2.stats) ∧
    (∀ e, result = .error e →
      ∃ p, x.registry.get? p.id = some p ∧
        (∀ id, id ∈ x.registry.ids → id < p.id → t.states id = .notBuilt) ∧
        (∀ id, ¬ (id ∈ x.registry.ids ∧ id < p.id) → t.states id = s.states id) ∧
        t.stats = s.stats ∧
        ∃ before after u call, x.registry.projects = before ++ p :: after ∧
          (x.cleanEach (before.map (·.id))).outcome s = (.ok (), u) ∧
          (x.backend.run (removalCalls p) u.world).failure = some (call, e) ∧
          t.world = (x.backend.run (removalCalls p) u.world).world ∧
          t.trace = s.trace ++ before.flatMap Project.cleaning ++
            (x.backend.run (removalCalls p) u.world).made.map (.call p.id)) := by
  have hget : ∀ p ∈ x.registry.projects, x.registry.get? p.id = some p :=
    fun p hp => Registry.get?_eq_some_iff.2 ⟨hp, rfl⟩
  have hregistered := (x.onlyRegistered_of_requests world earlier).states
  rw [hs] at hregistered
  rw [cleanAll, Registry.ids] at h
  constructor
  · rintro rfl
    rcases cleanEach_cases hget s with ⟨u, hu, hcleared⟩ | ⟨_, _, _, _, _, _, -, -, -, -, he⟩
    swap
    · cases h.symm.trans he
    cases h.symm.trans hu
    have hstates : ∀ id, t.states id = .notBuilt := by
      intro id
      by_cases hid : id ∈ x.registry.ids
      · obtain ⟨p, hp, rfl⟩ := List.mem_map.1 hid
        exact hcleared.forgotten p hp
      · rw [hcleared.kept id hid]
        by_contra hstate
        exact hid (hregistered id hstate)
    refine ⟨hstates, hcleared.stats, hcleared.trace, fun later => ?_⟩
    have hlater := x.serveAll_following later { world := t.world } t
    rw [← t.eq_following hstates] at hlater
    simp [hlater, following, hcleared.stats]
  · rintro e rfl
    rcases cleanEach_cases hget s with
      ⟨u, hu, -⟩ | ⟨before, p, after, u, call, e, hsplit, hbefore, hcleared, hfailure, he⟩
    · cases h.symm.trans hu
    cases h.symm.trans he
    have hforgotten : ∀ id, id ∈ x.registry.ids → id < p.id → u.states id = .notBuilt := by
      intro id hid hlt
      obtain ⟨q, hq, rfl⟩ := List.mem_map.1 ((mem_ids_before_iff hsplit).2 ⟨hid, hlt⟩)
      exact hcleared.forgotten q hq
    have hkept : ∀ id, ¬ (id ∈ x.registry.ids ∧ id < p.id) → u.states id = s.states id :=
      fun id hid => hcleared.kept id fun hmem => hid ((mem_ids_before_iff hsplit).1 hmem)
    refine ⟨p, hget p (by simp [hsplit]), hforgotten, hkept, hcleared.stats, before, after, u,
      call, hsplit, hbefore, hfailure, rfl, ?_⟩
    rw [called, hcleared.trace]

end BuildSetup

/-! ## A sample -/

namespace Sample

/-- The answers of a world in which the outputs of the application are held fast. -/
def heldAnswers : Answers where
  perform
    | .removeDirectoryTree path =>
      if path = Path.ofString "shell/bin" then .error (.fileFault path .permissionDenied)
      else .ok ()
    | _ => .ok ()
  generate _ := .ok ()
  scan _ := .ok []

/-- The sample projects in that world. -/
def heldSetup : BuildSetup Unit where
  registry := registry
  backend := heldAnswers.backend

/-- The session after everything was built with a toolchain that never fails. -/
def freeBuilt : Session Unit :=
  (setup.serveAll [.buildAll] { world := () }).2

/-- The session after everything was built where the application is held fast. -/
def heldBuilt : Session Unit :=
  (heldSetup.serveAll [.buildAll] { world := () }).2

/-- Where everything can be removed, a session goes on as a fresh one does; where the application
is held fast, only the library before it is forgotten. -/
theorem built_session_reset :
    ((setup.cleanAll.outcome freeBuilt).1 = .ok () ∧
      ∀ later : List Request, (setup.serveAll later (setup.cleanAll.outcome freeBuilt).2).1 =
        (setup.serveAll later { world := () }).1) ∧
    (heldSetup.cleanAll.outcome heldBuilt).1 =
      .error (.fileFault (Path.ofString "shell/bin") .permissionDenied) ∧
    ["core", "shell", "text"].map (heldSetup.cleanAll.outcome heldBuilt).2.states =
      [.notBuilt, .built, .built] ∧
    (heldSetup.cleanAll.outcome heldBuilt).2.stats = heldBuilt.stats := by
  have hfree : (setup.cleanAll.outcome freeBuilt).1 = .ok () := by cbv
  have hheld : (heldSetup.cleanAll.outcome heldBuilt).1 =
      .error (.fileFault (Path.ofString "shell/bin") .permissionDenied) := by cbv
  obtain ⟨-, -, -, hlater⟩ := (BuildSetup.cleanAll_resets setup () [.buildAll] rfl rfl).1 hfree
  obtain ⟨p, -, -, -, hstats, -⟩ :=
    (BuildSetup.cleanAll_resets heldSetup () [.buildAll] rfl rfl).2 _ hheld
  exact ⟨⟨hfree, fun later => (hlater later).1⟩, hheld, by cbv, hstats⟩

end Sample

end NativeBuild
