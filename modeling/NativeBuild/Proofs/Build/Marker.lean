import NativeBuild.Proofs.Build.Replay
import NativeBuild.Proofs.Build.Trace

/-!
# The mark of a project

A project is marked as built before its libraries and its objects are there.  Nobody sees
the mark before it is true: as long as the project is being built, no call for it is made.
So the state of any other project is the verdict of the trace on it, through any builds and
cleanings.

Main definitions:

- `BuildSetup.Lawful`: what must hold before an entry of the trace.
- `BuildSetup.Tracked`: a session whose trace is lawful, and whose states and world are those of
  the trace.

Main results:

- Theorem `stepInvariant_tracked`: what the steps of a build preserve.
- Theorem `clean_tracked`: what a cleaning preserves.
- Theorem `mark_never_observed`: no call is made for a project that is being built, what is
  reused was built, and nothing is finished twice.
-/

namespace NativeBuild

/-- The state of a project by the verdict on it. -/
def BuildState.ofVerdict : Option Bool → BuildState
  | none => .notBuilt
  | some true => .built
  | some false => .failed

/-- By its verdict a project is built exactly when it was finished with success. -/
theorem BuildState.ofVerdict_eq_built_iff {told : Option Bool} :
    ofVerdict told = .built ↔ told = some true := by
  rcases told with _ | (_ | _) <;> simp [ofVerdict]

/-- By its verdict a project is not built exactly when there is no verdict on it. -/
theorem BuildState.ofVerdict_eq_notBuilt_iff {told : Option Bool} :
    ofVerdict told = .notBuilt ↔ told = none := by
  rcases told with _ | (_ | _) <;> simp [ofVerdict]

namespace BuildSetup

open Session TraceEntry

variable {σ : Type} {x : BuildSetup σ} {start : σ} {opened running : List String}
  {s t : Session σ} {id : String}

/-! ## Lawful traces -/

/-- What must hold before an entry: a project is entered when it is not being built, reused
when it was finished with success, and finished when there is no verdict on it; with
success, when a plan of it was carried out. -/
def Lawful (x : BuildSetup σ) (start : σ) (before : List TraceEntry) : TraceEntry → Prop
  | .entered id => id ∉ openBuilds before
  | .reused id => verdict id before = some true
  | .event (.finished id success) => verdict id before = none ∧
      (success = true → ∃ p, x.registry.get? id = some p ∧ x.Carried start p before)
  | _ => True

/-- Work is always lawful. -/
theorem lawful_of_work {entry : TraceEntry} (h : entry.IsWorkOf id)
    (before : List TraceEntry) : x.Lawful start before entry := by
  unfold IsWorkOf at h
  split at h <;> trivial

/-- Before a project is finished, there is no verdict on it. -/
theorem Lawful.none_of_finishes {before : List TraceEntry} {entry : TraceEntry}
    (h : x.Lawful start before entry) (hfinishes : entry.finishes id = true) :
    verdict id before = none := by
  unfold finishes at hfinishes
  split at hfinishes
  · rw [← beq_iff_eq.1 hfinishes]
    exact h.1
  · cases hfinishes

/-! ## Tracked sessions -/

/-- The trace is lawful and tells which builds are going on; of the projects that run, there
is no verdict yet, and the state of every other is the verdict on it.  The world is that of the
trace. -/
structure Tracked (x : BuildSetup σ) (start : σ) (opened running : List String)
    (s : Session σ) : Prop where
  lawful : Throughout (x.Lawful start) s.trace
  opens : openBuilds s.trace = opened
  pending : ∀ q ∈ running, verdict q s.trace = none
  settled : ∀ q, q ∉ running → s.states q = .ofVerdict (verdict q s.trace)
  replayed : x.Replayed start s

/-- A fresh session is tracked. -/
theorem tracked_fresh (x : BuildSetup σ) (start : σ) :
    x.Tracked start [] [] { world := start } where
  lawful := throughout_nil
  opens := rfl
  pending := by simp
  settled _ _ := rfl
  replayed := x.replayed_fresh start

/-- Work keeps a session tracked, if its world is still that of its trace. -/
theorem Tracked.worked (h : x.Tracked start opened running s) (hst : Worked id s t)
    (hworld : x.Replayed start t) : x.Tracked start opened running t := by
  obtain ⟨entries, htrace, hwork⟩ := hst.trace
  have hverdict : ∀ q, verdict q t.trace = verdict q s.trace := by
    intro q
    rw [htrace, verdict_append_of_work hwork]
  refine ⟨?_, ?_, fun q hq => ?_, fun q hq => ?_, hworld⟩
  · rw [htrace]
    exact h.lawful.append fun entry hentry => lawful_of_work (hwork entry hentry)
  · rw [htrace, openBuilds_append_of_work hwork, h.opens]
  · rw [hverdict, h.pending q hq]
  · rw [hverdict, hst.states, h.settled q hq]

/-- A lawful entry that changes no verdict. -/
theorem Tracked.record (h : x.Tracked start opened running s) (entry : TraceEntry)
    (hlawful : x.Lawful start s.trace entry) (hkept : ∀ q told, entry.verdictAfter q told = told)
    (hworld : ∀ world, x.worldAfterEntry world entry = world) :
    x.Tracked start (entry.openAfter opened) running (s.record entry) where
  lawful := throughout_concat.2 ⟨h.lawful, hlawful⟩
  opens := by rw [trace_record, openBuilds_concat, h.opens]
  pending q hq := by rw [trace_record, verdict_concat, hkept, h.pending q hq]
  settled q hq := by rw [trace_record, verdict_concat, hkept, states_record, h.settled q hq]
  replayed := h.replayed.concat rfl (hworld _).symm

/-- A project may be entered that is not being built. -/
theorem Tracked.enter (h : x.Tracked start opened running s) (hid : id ∉ opened) :
    x.Tracked start (id :: opened) running (s.record (.entered id)) := by
  rw [← h.opens] at hid
  exact h.record (.entered id) hid (fun _ _ => rfl) fun _ => rfl

/-- The project that was entered last may be left. -/
theorem Tracked.leave (h : x.Tracked start (id :: opened) running s) :
    x.Tracked start opened running (s.record (.left id)) := by
  have hleft := h.record (.left id) trivial (fun _ _ => rfl) fun _ => rfl
  rwa [openAfter, List.erase_cons_head] at hleft

/-- A project may be reused when it is built and not being built. -/
theorem Tracked.reuse (h : x.Tracked start opened running s) (hid : id ∉ running)
    (hstate : s.states id = .built) : x.Tracked start opened running (s.record (.reused id)) := by
  rw [h.settled id hid, BuildState.ofVerdict_eq_built_iff] at hstate
  exact h.record (.reused id) hstate (fun _ _ => rfl) fun _ => rfl

/-- A project that is not built may begin to run. -/
theorem Tracked.begin (h : x.Tracked start opened running s) (hid : id ∉ running)
    (hstate : s.states id = .notBuilt) : x.Tracked start opened (id :: running) s := by
  rw [h.settled id hid, BuildState.ofVerdict_eq_notBuilt_iff] at hstate
  refine ⟨h.lawful, h.opens, fun q hq => ?_, fun q hq => ?_, h.replayed⟩
  · rcases List.mem_cons.1 hq with rfl | hq
    · exact hstate
    · exact h.pending q hq
  · exact h.settled q fun hmem => hq (List.mem_cons_of_mem _ hmem)

/-- The state of a project that runs does not matter. -/
theorem Tracked.setState (h : x.Tracked start opened (id :: running) s) (state : BuildState) :
    x.Tracked start opened (id :: running) (s.setState id state) := by
  refine ⟨h.lawful, h.opens, h.pending, fun q hq => ?_, h.replayed⟩
  have hne : q ≠ id := by
    rintro rfl
    exact hq List.mem_cons_self
  rw [states_setState_other s state hne, trace_setState, h.settled q hq]

/-- A project that runs may be finished, with its state by the verdict. -/
theorem Tracked.finish {success : Bool} (h : x.Tracked start opened (id :: running) s)
    (hid : id ∉ running) (hstates : t.states id = .ofVerdict (some success))
    (hothers : ∀ q, q ≠ id → t.states q = s.states q)
    (htrace : t.trace = s.trace ++ [.event (.finished id success)]) (hworld : t.world = s.world)
    (hcarried : success = true → ∃ p, x.registry.get? id = some p ∧ x.Carried start p s.trace) :
    x.Tracked start opened running t := by
  refine ⟨?_, ?_, fun q hq => ?_, fun q hq => ?_, h.replayed.concat htrace hworld⟩
  · rw [htrace, throughout_concat]
    exact ⟨h.lawful, h.pending id List.mem_cons_self, hcarried⟩
  · rw [htrace, openBuilds_concat, h.opens]
    rfl
  · have hne : id ≠ q := by
      rintro rfl
      exact hid hq
    rw [htrace, verdict_concat, verdictAfter, if_neg hne, h.pending q (by simp [hq])]
  · rw [htrace, verdict_concat, verdictAfter]
    split
    · next heq => rw [← heq, hstates]
    · next hne => rw [hothers q (Ne.symm hne), h.settled q (by simp [Ne.symm hne, hq])]

/-- A project that runs may be finished with success when a plan of it was carried out. -/
theorem Tracked.succeed (h : x.Tracked start opened (id :: running) s) (hid : id ∉ running)
    (hstate : s.states id = .built) {p : Project} (hp : x.registry.get? id = some p)
    (hcarried : x.Carried start p s.trace) : x.Tracked start opened running (s.succeed id) := by
  have hstates : (s.succeed id).states id = .ofVerdict (some true) := hstate
  exact h.finish hid hstates (fun _ _ => rfl) rfl rfl fun _ => ⟨p, hp, hcarried⟩

/-- A project that runs may be finished with failure. -/
theorem Tracked.fail (h : x.Tracked start opened (id :: running) s) (hid : id ∉ running) :
    x.Tracked start opened running (s.fail id) :=
  h.finish hid (by simp [BuildState.ofVerdict]) (fun q hq => by simp [hq]) rfl rfl (by simp)

/-- Any project may be forgotten that does not run. -/
theorem Tracked.forget (h : x.Tracked start opened running s) (hid : id ∉ running) :
    x.Tracked start opened running (s.forget id) := by
  refine ⟨throughout_concat.2 ⟨h.lawful, trivial⟩, ?_, fun q hq => ?_, fun q hq => ?_,
    h.replayed.concat rfl rfl⟩
  · rw [trace_forget, openBuilds_concat, h.opens]
    rfl
  · have hne : id ≠ q := by
      rintro rfl
      exact hid hq
    rw [trace_forget, verdict_concat, verdictAfter, if_neg hne, h.pending q hq]
  · rw [trace_forget, verdict_concat, verdictAfter]
    split
    · next heq => simp [← heq, BuildState.ofVerdict]
    · next hne => simp [Ne.symm hne, h.settled q hq]

/-! ## Runs -/

/-- Every step of a build keeps a session tracked. -/
theorem stepInvariant_tracked (x : BuildSetup σ) (start : σ) :
    x.StepInvariant (x.Tracked start) where
  entered h hid := h.enter hid
  left h := h.leave
  directories h hdirs :=
    h.worked ((x.works_makeDirectories _).worked hdirs) (h.replayed.directories hdirs)
  reused h hid hstate := h.reuse hid hstate
  begun h _ hid hstate := h.begin hid hstate
  generated h hp hgen :=
    h.worked ((x.works_generate _).worked hgen) (h.replayed.generated hp hgen)
  marked h := h.setState .built
  produced h hp _ hown :=
    h.worked ((x.works_produce _).worked hown) (h.replayed.produced hp hown)
  succeeded hs h hp hid hsteps :=
    h.succeed hid hsteps.built_of_steps hp (hsteps.carried hp hs.replayed)
  failed h _ hid := h.fail hid

/-- Building keeps a session tracked. -/
theorem build_tracked (id : String) (s : Session σ) (hs : x.Tracked start [] [] s) :
    x.Tracked start [] [] ((x.build id).outcome s).2 :=
  (x.stepInvariant_tracked start).build id s hs

/-- Cleaning keeps a session tracked. -/
theorem clean_tracked (id : String) (s : Session σ) (hs : x.Tracked start [] [] s) :
    x.Tracked start [] [] ((x.clean id).outcome s).2 := by
  have hworld := clean_replayed id s hs.replayed
  rcases x.outcome_clean_cases id s with ⟨e, -, hworked⟩ | ⟨-, t, hworked, heq⟩
  · exact hs.worked hworked hworld
  · rw [heq] at hworld ⊢
    exact (hs.worked hworked hworld.of_forget).forget List.not_mem_nil

/-- Any run of requests keeps a session tracked. -/
theorem serveAll_tracked (x : BuildSetup σ) (start : σ) (requests : List Request) :
    x.Tracked start [] [] (x.serveAll requests { world := start }).2 :=
  serveAll_preserves (fun request _ _ => serve_preserves build_tracked clean_tracked request)
    (x.tracked_fresh start)

/-- The mark of a project that is being built is never observed.  In the trace of any
requests, to build or to clean:

* no build is entered of a project whose build was entered and not left;
* before a project is reused, a plan of it was carried out, all of whose calls succeeded in the
  world of the run, and it was finished with success, and it was not cleaned since;
* as long as a project is not cleaned, it is finished at most once. -/
theorem mark_never_observed (x : BuildSetup σ) (world : σ) (requests : List Request)
    (id : String) :
    let trace := (x.serveAll requests { world }).2.trace
    (∀ before after, trace = before ++ .entered id :: after → id ∉ openBuilds before) ∧
    (∀ before after, trace = before ++ .reused id :: after →
      ∃ p made later, x.registry.get? id = some p ∧ x.Carried world p made ∧
        before = made ++ .event (.finished id true) :: later ∧
        TraceEntry.cleaned id ∉ later) ∧
    ∀ before middle after, trace = before ++ middle ++ after →
      TraceEntry.cleaned id ∉ middle → middle.countP (finishes id) ≤ 1 := by
  intro trace
  have hlawful : Throughout (x.Lawful world) trace :=
    (x.serveAll_tracked world requests).lawful
  refine ⟨fun before after heq => ?_, fun before after heq => ?_, ?_⟩
  · exact hlawful before (.entered id) after heq
  · have hverdict : verdict id before = some true := hlawful before (.reused id) after heq
    obtain ⟨made, later, rfl, hkept⟩ := exists_finished_of_verdict hverdict
    have hfinished := hlawful made (.event (.finished id true)) (later ++ .reused id :: after)
      (by simp [heq])
    obtain ⟨p, hp, hcarried⟩ := hfinished.2 rfl
    exact ⟨p, made, later, hp, hcarried, rfl, hkept⟩
  · intro before middle after heq hkept
    rw [heq] at hlawful
    have honce := hlawful.left.imp fun _ _ hentry (hfinishes : finishes id _ = true) =>
      hentry.none_of_finishes hfinishes
    have hcount := countP_finishes_le honce hkept
    split at hcount
    · omega
    · exact hcount

end BuildSetup

end NativeBuild
