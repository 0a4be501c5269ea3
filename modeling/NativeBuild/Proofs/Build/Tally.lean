import Mathlib.Algebra.BigOperators.Group.Finset.Piecewise
import NativeBuild.Proofs.Build.Attainable
import NativeBuild.Proofs.Build.Invariant

/-!
# Counters and states

The counters of a session and the states of projects are kept in different places: a
project is marked as built before its libraries are there, and counted only when it ends.
Summed over the projects that are not being built, the states still give the counters.

Main definitions:

- `Session.tally`: a sum over the states of the projects that are not being built.
- `BuildSetup.Counted`: a session whose counters are such sums.

Main results:

- Theorem `tally_eq_add`: what a project adds to a sum when it ends.
- Theorem `stepInvariant_counted`: every step of a build keeps the counters right.
- Theorem `session_consistent`: what holds between any two requests to build.
-/

namespace NativeBuild

open Finset

/-- No id is registered twice. -/
theorem Registry.nodup_ids (r : Registry) : r.ids.Nodup := by
  refine List.pairwise_map.2 (r.sorted.imp fun hlt heq => ?_)
  exact String.lt_irrefl _ (heq ▸ hlt)

namespace Session

variable {σ : Type} {r : Registry} {stack : List String} {s t : Session σ}
  {weight : String → BuildState → Nat} {id : String}

/-! ## Sums over states -/

/-- The sum over the registered projects, without those of a list, of a number that depends
on the id and the state. -/
def tally (r : Registry) (stack : List String) (weight : String → BuildState → Nat)
    (s : Session σ) : Nat :=
  ∑ q ∈ r.ids.toFinset \ stack.toFinset, weight q (s.states q)

/-- States of other projects do not matter. -/
theorem tally_congr (h : ∀ q, q ∉ stack → t.states q = s.states q) :
    t.tally r stack weight = s.tally r stack weight := by
  refine sum_congr rfl fun q hq => ?_
  rw [h q (by simpa using (mem_sdiff.1 hq).2)]

/-- A project that leaves the list is counted by its state. -/
theorem tally_eq_add (hid : id ∈ r.ids) (hnot : id ∉ stack) :
    s.tally r stack weight = s.tally r (id :: stack) weight + weight id (s.states id) := by
  have hmem : id ∈ r.ids.toFinset \ stack.toFinset := by simp [hid, hnot]
  rw [tally, tally, List.toFinset_cons, sdiff_insert, sum_erase_add _ _ hmem]

/-- Without a list, the sum of ones over a state is the number of projects in it. -/
theorem tally_nil_eq_countP (r : Registry) (s : Session σ) (state : BuildState) :
    s.tally r [] (fun _ own => if own = state then 1 else 0) =
      r.ids.countP fun q => s.states q = state := by
  have hnodup : (r.ids.filter fun q => s.states q = state).Nodup := r.nodup_ids.filter _
  rw [tally, List.toFinset_nil, sdiff_empty, ← card_filter, List.countP_eq_length_filter,
    ← List.toFinset_card_of_nodup hnodup]
  congr 1
  ext q
  simp

end Session

namespace BuildSetup

open Session

variable {σ : Type} {x : BuildSetup σ} {running : List String} {s t : Session σ} {id : String}

/-! ## Counted sessions -/

/-- The counters are the numbers of projects that are built and that failed, apart from
those that run; what has a state is registered, and what is built was accepted. -/
structure Counted (x : BuildSetup σ) (running : List String) (s : Session σ) : Prop where
  built : s.stats.projectsBuilt =
    s.tally x.registry running fun _ own => if own = .built then 1 else 0
  failed : s.stats.projectsFailed =
    s.tally x.registry running fun _ own => if own = .failed then 1 else 0
  registered : ∀ q, q ∉ running → s.states q ≠ .notBuilt → q ∈ x.registry.ids
  accepted : ∀ q, q ∉ running → s.states q = .built →
    ∃ p, x.registry.get? q = some p ∧ x.validate p = .ok ()

/-- A fresh session has counted nothing. -/
theorem counted_fresh (x : BuildSetup σ) (world : σ) : x.Counted [] { world } where
  built := by simp [tally]
  failed := by simp [tally]
  registered _ _ h := absurd rfl h
  accepted _ _ h := by cases h

/-- Only the states of projects that do not run matter, and the counters of projects. -/
theorem Counted.congr (h : x.Counted running s)
    (hstates : ∀ q, q ∉ running → t.states q = s.states q)
    (hbuilt : t.stats.projectsBuilt = s.stats.projectsBuilt)
    (hfailed : t.stats.projectsFailed = s.stats.projectsFailed) : x.Counted running t where
  built := by rw [hbuilt, tally_congr hstates, h.built]
  failed := by rw [hfailed, tally_congr hstates, h.failed]
  registered q hq hstate := h.registered q hq (hstates q hq ▸ hstate)
  accepted q hq hstate := h.accepted q hq (hstates q hq ▸ hstate)

/-- Work counts no projects. -/
theorem Counted.worked (h : x.Counted running s) (hst : Worked id s t) : x.Counted running t :=
  h.congr (fun _ _ => by rw [hst.states]) hst.built hst.failed

/-- An entry that is recorded counts no projects. -/
theorem Counted.record (h : x.Counted running s) (entry : TraceEntry) :
    x.Counted running (s.record entry) :=
  h.congr (fun _ _ => rfl) rfl rfl

/-- A project that is not built begins to run without having been counted. -/
theorem Counted.start (h : x.Counted running s) (hid : id ∈ x.registry.ids)
    (hnot : id ∉ running) (hstate : s.states id = .notBuilt) : x.Counted (id :: running) s where
  built := by
    rw [h.built, tally_eq_add hid hnot, hstate]
    simp
  failed := by
    rw [h.failed, tally_eq_add hid hnot, hstate]
    simp
  registered q hq := h.registered q fun hmem => hq (List.mem_cons_of_mem _ hmem)
  accepted q hq := h.accepted q fun hmem => hq (List.mem_cons_of_mem _ hmem)

/-- The state of a project that runs does not matter. -/
theorem Counted.setState (h : x.Counted (id :: running) s) (state : BuildState) :
    x.Counted (id :: running) (s.setState id state) := by
  refine h.congr (fun q hq => states_setState_other s state ?_) rfl rfl
  rintro rfl
  exact hq List.mem_cons_self

/-- A project that runs may end when the counters tell its state. -/
theorem Counted.finish {p : Project} (h : x.Counted (id :: running) s)
    (hp : x.registry.get? id = some p) (hnot : id ∉ running)
    (hothers : ∀ q, q ≠ id → t.states q = s.states q)
    (hbuilt : t.stats.projectsBuilt =
      s.stats.projectsBuilt + if t.states id = .built then 1 else 0)
    (hfailed : t.stats.projectsFailed =
      s.stats.projectsFailed + if t.states id = .failed then 1 else 0)
    (hvalid : t.states id = .built → x.validate p = .ok ()) : x.Counted running t := by
  have hid : id ∈ x.registry.ids := Registry.mem_ids_iff.2 ⟨p, hp⟩
  have hsame : ∀ q, q ∉ id :: running → t.states q = s.states q := by
    intro q hq
    exact hothers q fun heq => hq (heq ▸ List.mem_cons_self)
  refine ⟨?_, ?_, fun q hq hstate => ?_, fun q hq hstate => ?_⟩
  · rw [tally_eq_add hid hnot, tally_congr hsame, hbuilt, h.built]
  · rw [tally_eq_add hid hnot, tally_congr hsame, hfailed, h.failed]
  · by_cases heq : q = id
    · exact heq ▸ hid
    · exact h.registered q (by simp [heq, hq]) (hothers q heq ▸ hstate)
  · by_cases heq : q = id
    · subst heq
      exact ⟨p, hp, hvalid hstate⟩
    · exact h.accepted q (by simp [heq, hq]) (hothers q heq ▸ hstate)

/-- The steps of a project succeed only if it is accepted. -/
theorem Runs.valid_of_ok {p : Project} (h : x.Runs running (.steps p) s (.ok ()) t) :
    x.validate p = .ok () := by
  cases h with
  | produced hvalid hgen hlibs hown => exact hvalid

/-- Every step of a build keeps the counters right. -/
theorem stepInvariant_counted (x : BuildSetup σ) :
    x.StepInvariant fun _ running => x.Counted running where
  entered h _ := h.record _
  left h := h.record _
  directories h hdirs := h.worked ((x.works_makeDirectories _).worked hdirs)
  reused h _ _ := h.record _
  begun h hp hnot hstate := h.start (Registry.mem_ids_iff.2 ⟨_, hp⟩) hnot hstate
  generated h _ hgen := h.worked ((x.works_generate _).worked hgen)
  marked h := h.setState .built
  produced h _ _ hown := h.worked ((x.works_produce _).worked hown)
  succeeded _ h hp hnot hsteps := by
    have hbuilt := hsteps.built_of_steps
    exact h.finish hp hnot (fun _ _ => rfl) (by simp [Session.succeed, hbuilt])
      (by simp [Session.succeed, hbuilt]) fun _ => hsteps.valid_of_ok
  failed h hp hnot :=
    h.finish hp hnot (fun q hq => by simp [hq]) (by simp [Session.fail])
      (by simp [Session.fail]) (by simp)

/-! ## Between requests -/

/-- After any requests to build, and any projects of a further one:

* what has a state is registered;
* what is built has a link closure, and all of that is built;
* what is built or failed keeps its state, whatever is built later;
* the counters are the numbers of projects that are built and that failed. -/
theorem session_consistent (x : BuildSetup σ) (world : σ) (requests : List Request)
    (hrequests : ∀ request ∈ requests, request.isBuild = true) (ids : List String) :
    let s := (x.buildEach ids (x.serveAll requests { world }).2).2
    (∀ q, s.states q ≠ .notBuilt → x.registry.contains q = true) ∧
    (∀ q, s.states q = .built →
      ∃ closure, x.registry.linkClosure q = .ok closure ∧ ∀ d ∈ closure, s.states d = .built) ∧
    (∀ later : List Request, (∀ request ∈ later, request.isBuild = true) →
      ∀ others q, s.states q ≠ .notBuilt →
        (x.buildEach others (x.serveAll later s).2).2.states q = s.states q) ∧
    s.stats.projectsBuilt = x.registry.ids.countP (fun q => s.states q = .built) ∧
    s.stats.projectsFailed = x.registry.ids.countP (fun q => s.states q = .failed) := by
  intro s
  have hcounted : x.Counted [] s :=
    builds_preserve x.stepInvariant_counted.build hrequests ids (x.counted_fresh world)
  have hclosed : Closed x.registry [] s := x.closed_of_builds world hrequests ids
  refine ⟨fun q hq => ?_, fun q hq => ?_, fun later hlater others q hq => ?_, ?_, ?_⟩
  · have hid := hcounted.registered q List.not_mem_nil hq
    rwa [Registry.contains, Option.isSome_iff_exists, ← Registry.mem_ids_iff]
  · obtain ⟨p, hp, hvalid⟩ := hcounted.accepted q List.not_mem_nil hq
    obtain rfl := Registry.id_of_get? hp
    obtain ⟨-, ⟨closure, hclosure⟩, -⟩ := validate_eq_ok_iff.1 hvalid
    refine ⟨closure, hclosure, fun d hd => ?_⟩
    have hreach := (Registry.mem_linkClosure_iff hclosure).1 hd
    exact (hclosed.of_reaches hq List.not_mem_nil hreach).1
  · refine builds_preserve (I := fun t => t.states q = s.states q) (fun id t ht => ?_)
      hlater others rfl
    rw [states_build_of_settled id t (ht ▸ hq), ht]
  · rw [hcounted.built, tally_nil_eq_countP]
  · rw [hcounted.failed, tally_nil_eq_countP]

end BuildSetup

/-! ## A sample -/

namespace Sample

/-- The session after an application was asked for of which one library cannot be generated. -/
def tornSession : Session Unit :=
  (tornSetup.serveAll [.build "core", .build "shell"] { world := () }).2

/-- The library and the application failed for good, and the counters tell so. -/
theorem torn_session_consistent :
    (∀ request ∈ [Request.build "core", .build "shell"], request.isBuild = true) ∧
    tornSession.states "shell" = .failed ∧
    tornSession.stats.projectsBuilt = 1 ∧ tornSession.stats.projectsFailed = 2 ∧
    ∀ later : List Request, (∀ request ∈ later, request.isBuild = true) → ∀ others,
      (tornSetup.buildEach others (tornSetup.serveAll later tornSession).2).2.states "shell" =
        .failed := by
  have hshell : tornSession.states "shell" = .failed := by cbv
  have hbuilt : (tornSetup.registry.ids.countP fun q => tornSession.states q = .built) = 1 := by
    cbv
  have hfailed : (tornSetup.registry.ids.countP fun q => tornSession.states q = .failed) = 2 := by
    cbv
  obtain ⟨-, -, hkept, hbuiltcount, hfailedcount⟩ := BuildSetup.session_consistent tornSetup ()
    [.build "core", .build "shell"] (by decide) []
  have hsettled : tornSession.states "shell" ≠ .notBuilt := by
    rw [hshell]
    decide
  refine ⟨by decide, hshell, hbuiltcount.trans hbuilt, hfailedcount.trans hfailed, ?_⟩
  intro later hlater others
  exact (hkept later hlater others "shell" hsettled).trans hshell

end Sample

end NativeBuild
