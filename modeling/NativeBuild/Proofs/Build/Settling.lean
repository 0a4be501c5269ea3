import NativeBuild.Proofs.Build.CallRun
import NativeBuild.Proofs.Build.Invariant
import NativeBuild.Proofs.Build.Nested
import NativeBuild.Proofs.Build.Resolution

/-!
# How builds end

A build whose directories can be made ends with the state of its project: built if it succeeds,
failed if it fails, whatever the state was before.  A build whose directories cannot be made
ends before it looks at the state, and its failure is not remembered.  Every other failure is
counted and told once.

Main definitions:

- `failedIds`: the projects that were finished with failure, in order.
- `Session.Settling`: a session reached from another one while some projects run.

Main results:

- Theorem `stepInvariant_settling`: what every step of a build preserves.
- Theorem `outcome_build_of_blocked`: a build whose directories cannot be made.
- Theorem `build_settles`: how a build ends, and which failures are counted and told.
- Theorem `Sample.blocked_not_failed`: a failure that is not remembered.
-/

namespace NativeBuild

/-! ## Failures that are told -/

/-- The project that an entry tells to be finished with failure. -/
def TraceEntry.failed? : TraceEntry → Option String
  | .event (.finished project false) => some project
  | _ => none

/-- The projects that were finished with failure, in order. -/
def failedIds (trace : List TraceEntry) : List String :=
  trace.filterMap TraceEntry.failed?

@[simp] theorem failedIds_append (trace more : List TraceEntry) :
    failedIds (trace ++ more) = failedIds trace ++ failedIds more :=
  List.filterMap_append

/-- Work finishes no project with failure. -/
theorem failedIds_of_work {id : String} {entries : List TraceEntry}
    (h : ∀ entry ∈ entries, entry.IsWorkOf id) : failedIds entries = [] := by
  refine List.filterMap_eq_nil_iff.2 fun entry hentry => ?_
  have hwork := h entry hentry
  unfold TraceEntry.IsWorkOf at hwork
  split at hwork <;> first | rfl | cases hwork

/-! ## Sessions on the way -/

namespace Session

variable {σ : Type}

/-- While some projects run, the second session is reached from the first: the projects that
failed since are those that were told to have failed, each once, and none of them runs. -/
structure Settling (start : Session σ) (running : List String) (t : Session σ) : Prop where
  told : ∃ entries, t.trace = start.trace ++ entries ∧ (failedIds entries).Nodup ∧
    t.stats.projectsFailed = start.stats.projectsFailed + (failedIds entries).length ∧
    (∀ q ∈ failedIds entries, start.states q = .notBuilt ∧ t.states q = .failed) ∧
    ∀ q, t.states q = .failed → start.states q = .failed ∨ q ∈ failedIds entries
  settled : ∀ q, start.states q ≠ .notBuilt → t.states q = start.states q
  running : ∀ q ∈ running, start.states q = .notBuilt ∧ t.states q ≠ .failed

variable {start s t : Session σ} {running : List String} {id : String}

/-- A session has settled at its start. -/
theorem Settling.refl (s : Session σ) : Settling s [] s where
  told := ⟨[], by simp, List.nodup_nil, rfl, by simp [failedIds], fun _ h => .inl h⟩
  settled _ _ := rfl
  running := by simp

/-- Entries may follow that finish nothing with failure, when states and counter stay. -/
theorem Settling.extend (h : Settling start running s) {entries : List TraceEntry}
    (htrace : t.trace = s.trace ++ entries) (hentries : failedIds entries = [])
    (hstates : t.states = s.states)
    (hstats : t.stats.projectsFailed = s.stats.projectsFailed) : Settling start running t := by
  obtain ⟨before, hbefore, hnodup, hcount, hfailed, hall⟩ := h.told
  have hids : failedIds (before ++ entries) = failedIds before := by simp [hentries]
  refine ⟨⟨before ++ entries, by rw [htrace, hbefore, List.append_assoc], ?_⟩, ?_, ?_⟩
  · rw [hids, hstats, hstates]
    exact ⟨hnodup, hcount, hfailed, hall⟩
  · rw [hstates]
    exact h.settled
  · rw [hstates]
    exact h.running

/-- An entry may be recorded that finishes nothing with failure. -/
theorem Settling.record (h : Settling start running s) {entry : TraceEntry}
    (hentry : failedIds [entry] = []) : Settling start running (s.record entry) :=
  h.extend (trace_record s entry) hentry rfl rfl

/-- Work of a project finishes nothing. -/
theorem Settling.worked (h : Settling start running s) (hworked : Worked id s t) :
    Settling start running t := by
  obtain ⟨entries, htrace, hwork⟩ := hworked.trace
  exact h.extend htrace (failedIds_of_work hwork) hworked.states hworked.failed

/-- A project that is not built may begin to run: it was not built before. -/
theorem Settling.begin (h : Settling start running s) (hid : s.states id = .notBuilt) :
    Settling start (id :: running) s where
  told := h.told
  settled := h.settled
  running q hq := by
    rcases List.mem_cons.1 hq with rfl | hq
    · refine ⟨?_, by simp [hid]⟩
      by_contra hold
      exact hold (h.settled q hold ▸ hid)
    · exact h.running q hq

/-- A project that runs may be marked. -/
theorem Settling.mark (h : Settling start running s) (hid : id ∈ running) :
    Settling start running (s.setState id .built) := by
  obtain ⟨hfresh, hnot⟩ := h.running id hid
  have hother : ∀ q, s.states q = .failed → q ≠ id := fun q hq heq => hnot (heq ▸ hq)
  obtain ⟨entries, htrace, hnodup, hcount, hfailed, hall⟩ := h.told
  refine ⟨⟨entries, htrace, hnodup, hcount, fun q hq => ?_, fun q hq => ?_⟩, fun q hq => ?_,
    fun q hq => ?_⟩
  · obtain ⟨hbefore, hafter⟩ := hfailed q hq
    exact ⟨hbefore, (states_setState_other s .built (hother q hafter)).trans hafter⟩
  · by_cases heq : q = id
    · simp [heq] at hq
    · exact hall q ((states_setState_other s .built heq) ▸ hq)
  · have heq : q ≠ id := fun heq => hq (heq ▸ hfresh)
    rw [states_setState_other s .built heq, h.settled q hq]
  · refine ⟨(h.running q hq).1, ?_⟩
    by_cases heq : q = id
    · simp [heq]
    · rw [states_setState_other s .built heq]
      exact (h.running q hq).2

/-- A project that runs may succeed. -/
theorem Settling.succeed (h : Settling start (id :: running) s) :
    Settling start running (s.succeed id) := by
  have hrest : Settling start running s :=
    ⟨h.told, h.settled, fun q hq => h.running q (List.mem_cons_of_mem id hq)⟩
  exact hrest.extend (trace_succeed s id) rfl rfl rfl

/-- A project that runs may fail: this is counted and told. -/
theorem Settling.fail (h : Settling start (id :: running) s) (hid : id ∉ running) :
    Settling start running (s.fail id) := by
  obtain ⟨hfresh, hnot⟩ := h.running id List.mem_cons_self
  obtain ⟨entries, htrace, hnodup, hcount, hfailed, hall⟩ := h.told
  have hids : failedIds (entries ++ [.event (.finished id false)]) = failedIds entries ++ [id] := by
    rw [failedIds_append]
    rfl
  have hnew : id ∉ failedIds entries := fun hmem => hnot (hfailed id hmem).2
  have hstate : ∀ {q}, q ≠ id → (s.fail id).states q = s.states q :=
    fun hq => states_setState_other s .failed hq
  refine ⟨⟨entries ++ [.event (.finished id false)], ?_, ?_, ?_, fun q hq => ?_, fun q hq => ?_⟩,
    fun q hq => ?_, fun q hq => ?_⟩
  · rw [trace_fail, htrace, List.append_assoc]
  · rw [hids]
    exact List.nodup_append.2 ⟨hnodup, by simp, fun a ha b hb heq =>
      hnew (List.mem_singleton.1 hb ▸ heq ▸ ha)⟩
  · rw [hids, List.length_append]
    simp only [Session.fail, hcount, List.length_singleton, Nat.add_assoc]
  · rw [hids] at hq
    by_cases heq : q = id
    · rw [heq]
      exact ⟨hfresh, by simp⟩
    · have hmem : q ∈ failedIds entries := by simpa [heq] using hq
      exact ⟨(hfailed q hmem).1, (hstate heq).trans (hfailed q hmem).2⟩
  · rw [hids]
    by_cases heq : q = id
    · exact .inr (by simp [heq])
    · rw [hstate heq] at hq
      exact (hall q hq).imp_right (List.mem_append_left _)
  · have heq : q ≠ id := fun heq => hq (heq ▸ hfresh)
    rw [hstate heq, h.settled q hq]
  · have heq : q ≠ id := fun heq => hid (heq ▸ hq)
    rw [hstate heq]
    exact h.running q (List.mem_cons_of_mem id hq)

end Session

namespace BuildSetup

open Build Session

variable {σ : Type} {x : BuildSetup σ}

/-- Every step of a build counts and tells the failures it brings about. -/
theorem stepInvariant_settling (x : BuildSetup σ) (start : Session σ) :
    x.StepInvariant fun _ running t => Settling start running t where
  entered h _ := h.record rfl
  left h := h.record rfl
  directories h hdirs := h.worked ((x.works_makeDirectories _).worked hdirs)
  reused h _ _ := h.record rfl
  begun h _ _ hstate := h.begin hstate
  generated h _ hgen := h.worked ((x.works_generate _).worked hgen)
  marked h := h.mark List.mem_cons_self
  produced h _ _ hown := h.worked ((x.works_produce _).worked hown)
  succeeded _ h _ _ _ := h.succeed
  failed h _ hid := h.fail hid

/-! ## Ends of a build -/

variable {p : Project} {s : Session σ}

/-- A build whose directories cannot be made does nothing else. -/
theorem outcome_build_of_blocked (hp : x.registry.get? p.id = some p) {call : ToolCall}
    {cause : BuildError}
    (hdirs : (x.backend.run (directoryCalls p) s.world).failure = some (call, cause)) :
    (x.build p.id).outcome s = (.error cause, { s with
      trace := s.trace ++ .entered p.id ::
        (x.backend.run (directoryCalls p) s.world).made.map (.call p.id) ++ [.left p.id]
      world := (x.backend.run (directoryCalls p) s.world).world }) := by
  have hcall := (x.runs_build p.id s).callOutcome hp
  rw [outcome_makeDirectories] at hcall
  simp only [Session.record, CallRun.result, hdirs, CallOutcome] at hcall
  obtain ⟨hresult, hend⟩ := hcall
  refine Prod.ext hresult (hend.trans ?_)
  simp

/-- A build whose directories can be made ends with its project built or failed. -/
theorem state_of_made (hp : x.registry.get? p.id = some p)
    (hdirs : (x.backend.run (directoryCalls p) s.world).failure = none) :
    (((x.build p.id).outcome s).1 = .ok () ∧
      ((x.build p.id).outcome s).2.states p.id = .built) ∨
    (∃ e, ((x.build p.id).outcome s).1 = .error e) ∧
      ((x.build p.id).outcome s).2.states p.id = .failed := by
  have hcall := (x.runs_build p.id s).callOutcome hp
  rw [outcome_makeDirectories] at hcall
  simp only [Session.record, CallRun.result, hdirs, CallOutcome] at hcall
  split at hcall
  · next hstate =>
      obtain ⟨hresult, hend⟩ := hcall
      exact .inl ⟨hresult, by rw [hend]; exact hstate⟩
  · next hstate =>
      obtain ⟨hresult, hend⟩ := hcall
      exact .inr ⟨⟨_, hresult⟩, by rw [hend]; exact hstate⟩
  · next hstate =>
      obtain ⟨v, hsteps, hend⟩ := hcall
      cases hresult : ((x.build p.id).outcome s).1 with
      | ok _ =>
          rw [hresult] at hsteps hend
          exact .inl ⟨rfl, by rw [hend]; exact hsteps.built_of_steps⟩
      | error e =>
          rw [hresult] at hend
          exact .inr ⟨⟨e, rfl⟩, by rw [hend]; simp [Session.ended]⟩

/-- How a build ends.

* If the directories of its project can be made, it succeeds if and only if the project is built
  in the end, and fails if and only if the project has failed in the end.
* If one of them cannot be made, it fails with that error, and no state, no counter and no news
  tell of it: there is nothing in the trace but the calls.
* The projects that have failed in the end and were not built before are those that were told
  to be finished with failure, each once, and the counter grows by their number. -/
theorem build_settles (x : BuildSetup σ) (p : Project) (hp : x.registry.get? p.id = some p)
    (s : Session σ) :
    ((x.backend.run [.makeDirectory p.objDir, .makeDirectory p.binDir] s.world).failure = none →
      (((x.build p.id).outcome s).1 = .ok () ↔
        ((x.build p.id).outcome s).2.states p.id = .built) ∧
      ((∃ e, ((x.build p.id).outcome s).1 = .error e) ↔
        ((x.build p.id).outcome s).2.states p.id = .failed)) ∧
    (∀ call cause, (x.backend.run [.makeDirectory p.objDir, .makeDirectory p.binDir]
        s.world).failure = some (call, cause) →
      (x.build p.id).outcome s = (.error cause, { s with
        trace := s.trace ++ .entered p.id :: (x.backend.run
          [.makeDirectory p.objDir, .makeDirectory p.binDir] s.world).made.map (.call p.id) ++
            [.left p.id]
        world := (x.backend.run [.makeDirectory p.objDir, .makeDirectory p.binDir]
          s.world).world })) ∧
    ∃ entries, ((x.build p.id).outcome s).2.trace = s.trace ++ entries ∧
      (failedIds entries).Nodup ∧
      ((x.build p.id).outcome s).2.stats.projectsFailed =
        s.stats.projectsFailed + (failedIds entries).length ∧
      ∀ q, q ∈ failedIds entries ↔ s.states q = .notBuilt ∧
        ((x.build p.id).outcome s).2.states q = .failed := by
  refine ⟨fun hdirs => ?_, fun call cause hdirs => outcome_build_of_blocked hp hdirs, ?_⟩
  · obtain ⟨hresult, hstate⟩ | ⟨⟨e, hresult⟩, hstate⟩ := state_of_made hp hdirs
    · simp [hresult, hstate]
    · simp [hresult, hstate]
  · have hend := (x.stepInvariant_settling s).build p.id s (.refl s)
    obtain ⟨entries, htrace, hnodup, hcount, hfailed, hall⟩ := hend.told
    refine ⟨entries, htrace, hnodup, hcount, fun q => ⟨hfailed q, ?_⟩⟩
    rintro ⟨hbefore, hafter⟩
    refine (hall q hafter).resolve_left fun hold => ?_
    cases hold.symm.trans hbefore

end BuildSetup

/-! ## A sample -/

namespace Sample

/-- The answers of a world in which a file stands in the place of a library's directory. -/
def jammedAnswers : Answers where
  perform
    | .makeDirectory path =>
      if path = Path.ofString "core/obj" then .error (.fileFault path .alreadyExists) else .ok ()
    | _ => .ok ()
  generate _ := .ok ()
  scan _ := .ok []

/-- The sample projects in that world. -/
def jammedSetup : BuildSetup Unit where
  registry := registry
  backend := jammedAnswers.backend

/-- The application fails over the library, and so does the other library that links it: both
are counted and told, and the library itself is not. -/
theorem shell_settles :
    jammedSetup.registry.get? "shell" = some shell ∧
    ((∃ e, ((jammedSetup.build "shell").outcome { world := () }).1 = .error e) ↔
      ((jammedSetup.build "shell").outcome { world := () }).2.states "shell" = .failed) ∧
    ∃ entries, ((jammedSetup.build "shell").outcome { world := () }).2.trace = [] ++ entries ∧
      ((jammedSetup.build "shell").outcome { world := () }).2.stats.projectsFailed =
        0 + (failedIds entries).length ∧
      "shell" ∈ failedIds entries ∧ "text" ∈ failedIds entries ∧ "core" ∉ failedIds entries := by
  have hp : jammedSetup.registry.get? "shell" = some shell := by cbv
  obtain ⟨hmade, -, entries, htrace, -, hcount, hfailed⟩ :=
    BuildSetup.build_settles jammedSetup shell hp { world := () }
  refine ⟨hp, (hmade (by cbv)).2, entries, htrace, hcount, ?_, ?_, fun hcore => ?_⟩
  · exact (hfailed "shell").2 ⟨rfl, by cbv⟩
  · exact (hfailed "text").2 ⟨rfl, by cbv⟩
  · have hstate : ((jammedSetup.build "shell").outcome { world := () }).2.states "core" =
        .notBuilt := by cbv
    cases hstate.symm.trans ((hfailed "core").1 hcore).2

/-- A build may fail and leave its project as it was: the library is registered, its directory
cannot be made, and in the end it is neither failed nor counted nor told of. -/
theorem blocked_not_failed :
    jammedSetup.registry.contains "core" = true ∧
    ((jammedSetup.build "core").outcome { world := () }).1 =
      .error (.fileFault (Path.ofString "core/obj") .alreadyExists) ∧
    ((jammedSetup.build "core").outcome { world := () }).2.states "core" ≠ .failed ∧
    ((jammedSetup.build "core").outcome { world := () }).2.stats.projectsFailed = 0 ∧
    failedIds ((jammedSetup.build "core").outcome { world := () }).2.trace = [] := by
  have hstate : ((jammedSetup.build "core").outcome { world := () }).2.states "core" =
      .notBuilt := by cbv
  refine ⟨by cbv, by cbv, ?_, by cbv, by cbv⟩
  rw [hstate]
  decide

end Sample

end NativeBuild
