import NativeBuild.CommandLine.Commands
import NativeBuild.Proofs.Build.RootCause

/-!
# Reported stages

A report of several builds names a stage for each failure.  The stages that it remembers are
enough to name one for a failure that points back to an earlier one, because whatever fails in
a build lies on the path of its error.  When no project lacks its directories, nothing else is
remembered, and so the stage that is named is that of the root cause.

Main definitions:

- `FailedStages.report` and `FailedStages.afterReports`: what is remembered after some outcomes.
- `BuildSetup.Informed`: a stage is remembered for whatever has failed.
- `BuildSetup.Faithful`: the stages that are remembered are those of the root causes.

Main results:

- Theorem `get?_record`: what is remembered after one more failure.
- Theorem `reported_stage`: the stages that are reported.
-/

namespace NativeBuild

open CommandLine

namespace CommandLine

/-! ## What is remembered -/

namespace FailedStages

variable {stages : FailedStages} {e : BuildError} {q : String}

/-- Remembering a stage for some projects keeps the stages remembered before. -/
theorem get?_foldl_remember (stages : FailedStages) (stage : String) (ids : List String)
    (q : String) :
    (ids.foldl (·.remember stage) stages).get? q =
      (stages.get? q).or (if q ∈ ids then some stage else none) := by
  induction ids generalizing stages with
  | nil => simp
  | cons id rest ih =>
      rw [List.foldl_cons, ih, get?_remember]
      by_cases hid : q = id
      · subst hid
        cases stages.get? q <;> simp
      · simp [hid]

/-- The dependencies that failed are the second projects of the links of the error. -/
theorem failedDependencies_eq (e : BuildError) : failedDependencies e = e.links.map Prod.snd := by
  induction e with
  | dependencyFailed project dependency source ih =>
      rw [failedDependencies, ih]
      rfl
  | _ => rfl

/-- After one more failure, its stage is remembered for the path of its error, where none was
remembered before. -/
theorem get?_record (stages : FailedStages) (project : String) (e : BuildError) (q : String) :
    (stages.record project e).2.get? q =
      (stages.get? q).or (if q ∈ e.path project then some (stages.stageOf e) else none) := by
  have hmem : q ∈ failedDependencies e ++ [project] ↔ q ∈ e.path project := by
    simp [failedDependencies_eq, BuildError.path, or_comm]
  rw [record, get?_foldl_remember]
  simp only [hmem]

/-- The stage of a failure is that of its innermost error, unless that points back. -/
theorem stageOf_of_own (h : ∀ q, e.innermost ≠ .previouslyFailed q) :
    stages.stageOf e = e.innermost.stage := by
  induction e with
  | dependencyFailed project dependency source ih => exact ih h
  | previouslyFailed project => exact absurd rfl (h project)
  | _ => rfl

/-- The stage of a failure that points back is the one that is remembered. -/
theorem stageOf_of_back (h : e.innermost = .previouslyFailed q) :
    stages.stageOf e = (stages.get? q).getD unreported := by
  induction e with
  | dependencyFailed project dependency source ih => exact ih h
  | previouslyFailed project =>
      cases h
      rfl
  | _ => cases h

/-- No error belongs to the stage that stands for a missing report. -/
theorem stage_ne_unreported (e : BuildError) : e.stage ≠ unreported := by
  cases e <;> simp [BuildError.stage, unreported]

/-! ## Reports one after another -/

/-- What is remembered after an outcome. -/
def report (stages : FailedStages) (outcome : BuildSetup.Outcome) : FailedStages :=
  match outcome.result with
  | .ok _ => stages
  | .error e => (stages.record outcome.project e).2

/-- What is remembered after some outcomes. -/
def afterReports (outcomes : List BuildSetup.Outcome) : FailedStages :=
  outcomes.foldl report {}

end FailedStages

end CommandLine

namespace BuildSetup

open Build Session FailedStages

variable {σ : Type} {x : BuildSetup σ} {start : Session σ} {before : List String} {id : String}
  {stages : FailedStages} {e : BuildError} {t : Session σ}

/-! ## Every failure has a stage -/

/-- After some builds, a stage is remembered for whatever has failed. -/
structure Informed (x : BuildSetup σ) (start : Session σ) (before : List String)
    (stages : FailedStages) : Prop where
  said : ∀ q stage, stages.get? q = some stage → stage ≠ unreported
  covers : ∀ q, (x.after start before).states q = .failed → stages.get? q ≠ none

/-- A failure is reported with a stage. -/
theorem Informed.stageOf_ne (h : x.Informed start before stages)
    (hexternal : x.backend.External)
    (hfails : (x.build id).outcome (x.after start before) = (.error e, t)) :
    stages.stageOf e ≠ unreported := by
  have hrun := x.runs_build id (x.after start before)
  rw [hfails] at hrun
  by_cases hback : ∃ q, e.innermost = .previouslyFailed q
  · obtain ⟨q, hq⟩ := hback
    have hfailed := hrun.failed_of_previouslyFailed hexternal rfl hq
    obtain ⟨stage, hstage⟩ := Option.ne_none_iff_exists'.1 (h.covers q hfailed)
    rw [stageOf_of_back hq, hstage]
    exact h.said q stage hstage
  · rw [stageOf_of_own (not_exists.1 hback)]
    exact stage_ne_unreported _

/-- One more outcome is reported. -/
theorem Informed.report (h : x.Informed start before stages) (hexternal : x.backend.External)
    (id : String) :
    x.Informed start (before ++ [id])
      (stages.report ⟨id, ((x.build id).outcome (x.after start before)).1⟩) := by
  rcases hfails : (x.build id).outcome (x.after start before) with ⟨e | _, t⟩
  · refine ⟨fun q stage hstage => ?_, fun q hq => ?_⟩
    · rw [FailedStages.report, get?_record] at hstage
      cases hold : stages.get? q with
      | some old =>
          rw [hold] at hstage
          cases hstage
          exact h.said q stage hold
      | none =>
          rw [hold, Option.none_or] at hstage
          split at hstage <;> cases hstage
          exact h.stageOf_ne hexternal hfails
    · rw [after_concat, hfails] at hq
      rw [FailedStages.report, get?_record]
      rcases failed_build_cases hfails hq with hold | ⟨-, other, hother, hpath⟩
      · obtain ⟨stage, hstage⟩ := Option.ne_none_iff_exists'.1 (h.covers q hold)
        simp [hstage]
      · cases hother
        simp [hpath]
  · refine ⟨h.said, fun q hq => h.covers q ?_⟩
    rw [after_concat, hfails] at hq
    rcases failed_build_cases hfails hq with hold | ⟨-, other, hother, -⟩
    · exact hold
    · cases hother

/-! ## Every stage is that of the root cause -/

/-- After some builds, a stage is remembered for no registered project but those that have
failed, and it is the stage of what lies behind the build in which the project failed. -/
structure Faithful (x : BuildSetup σ) (start : Session σ) (before : List String)
    (stages : FailedStages) : Prop where
  failed : ∀ q stage, stages.get? q = some stage → (∃ p, x.registry.get? q = some p) →
    (x.after start before).states q = .failed
  causes : ∀ q early other late, before = early ++ other :: late →
    (x.after start early).states q ≠ .failed →
    (x.after start (early ++ [other])).states q = .failed →
    (∃ cause, x.RootCause start early other cause) ∧
      ∀ cause, x.RootCause start early other cause → stages.get? q = some cause.stage

/-- A failure has a root cause, and is reported with the stage of it. -/
theorem Faithful.stageOf_eq (h : x.Faithful start before stages)
    (hexternal : x.backend.External) (hstart : ∀ q, start.states q ≠ .failed)
    (hfails : (x.build id).outcome (x.after start before) = (.error e, t)) :
    (∃ cause, x.RootCause start before id cause) ∧
      ∀ cause, x.RootCause start before id cause → stages.stageOf e = cause.stage := by
  have hresult : ((x.build id).outcome (x.after start before)).1 = .error e := by rw [hfails]
  have hrun := x.runs_build id (x.after start before)
  rw [hfails] at hrun
  by_cases hback : ∃ q, e.innermost = .previouslyFailed q
  · obtain ⟨q, hq⟩ := hback
    have hstage : stages.stageOf e = (stages.get? q).getD unreported := stageOf_of_back hq
    constructor
    · -- The project failed in one of the builds before, and that has a root cause.
      obtain ⟨early, other, late, rfl, hnew, hfailed⟩ :=
        exists_build_failed (hstart q) (hrun.failed_of_previouslyFailed hexternal rfl hq)
      obtain ⟨⟨cause, hcause⟩, -⟩ := h.causes q early other late rfl hnew hfailed
      exact ⟨cause, .earlier hresult hq hnew hfailed hcause⟩
    · intro cause hcause
      cases hcause with
      | own hfails' hown =>
          cases hresult.symm.trans hfails'
          exact absurd hq (hown q)
      | earlier hfails' hback' hnew hfailed hcause =>
          cases hresult.symm.trans hfails'
          cases hq.symm.trans hback'
          have hremembered := (h.causes q _ _ _ rfl hnew hfailed).2 cause hcause
          rw [hstage, hremembered, Option.getD_some]
  · have hown := not_exists.1 hback
    refine ⟨⟨e.innermost, .own hresult hown⟩, fun cause hcause => ?_⟩
    cases hcause with
    | own hfails' hown' =>
        cases hresult.symm.trans hfails'
        exact stageOf_of_own hown
    | earlier hfails' hback' =>
        cases hresult.symm.trans hfails'
        exact absurd hback' (hown _)

/-- A list that is extended splits at its last element or before that. -/
theorem concat_eq_append_cons {α : Type} {front early late : List α} {last other : α}
    (h : front ++ [last] = early ++ other :: late) :
    (early = front ∧ other = last) ∨ ∃ rest, front = early ++ other :: rest := by
  rcases List.eq_nil_or_concat late with rfl | ⟨rest, b, rfl⟩
  · obtain ⟨rfl, hlast⟩ := List.append_inj' h rfl
    cases hlast
    exact .inl ⟨rfl, rfl⟩
  · rw [List.concat_eq_append, ← List.cons_append, ← List.append_assoc] at h
    exact .inr ⟨rest, (List.append_inj' h rfl).1⟩

/-- What has failed stays so in one more build. -/
theorem failed_after_concat (id : String) {q : String}
    (hq : (x.after start before).states q = .failed) :
    (x.after start (before ++ [id])).states q = .failed := by
  rw [after_concat, states_build_of_settled id _ (by simp [hq]), hq]

/-- Where all directories are made, a stage is remembered for no registered project but those
that have failed. -/
theorem Faithful.failed_record (h : x.Faithful start before stages)
    (hexternal : x.backend.External)
    (hdirectories : ∀ d u p, x.Nested (.call id) (x.after start before) d u →
      x.registry.get? d = some p →
        ((x.makeDirectories p).outcome (u.record (.entered d))).1 = .ok ())
    (hfails : (x.build id).outcome (x.after start before) = (.error e, t)) {q stage : String}
    (hstage : (stages.record id e).2.get? q = some stage)
    (hregistered : ∃ p, x.registry.get? q = some p) : t.states q = .failed := by
  have hrun := x.runs_build id (x.after start before)
  rw [hfails] at hrun
  rw [get?_record] at hstage
  cases hold : stages.get? q with
  | some old =>
      have hstays := failed_after_concat id (h.failed q old hold hregistered)
      rwa [after_concat, hfails] at hstays
  | none =>
      rw [hold, Option.none_or] at hstage
      split at hstage <;> cases hstage
      next hpath =>
        refine hrun.failed_of_links hexternal rfl hdirectories ?_ hregistered
        exact (List.mem_cons.1 hpath).symm.imp_right fun heq => by rw [heq]

/-- A project that fails in a build has a root cause, and the stage of that is remembered. -/
theorem Faithful.causes_record (h : x.Faithful start before stages)
    (hexternal : x.backend.External) (hstart : ∀ q, start.states q ≠ .failed)
    (hfails : (x.build id).outcome (x.after start before) = (.error e, t)) {q : String}
    (hnew : (x.after start before).states q ≠ .failed) (hfailed : t.states q = .failed) :
    (∃ cause, x.RootCause start before id cause) ∧
      ∀ cause, x.RootCause start before id cause →
        (stages.record id e).2.get? q = some cause.stage := by
  obtain ⟨hregistered, other, hother, hpath⟩ :=
    (failed_build_cases hfails hfailed).resolve_left hnew
  cases hother
  -- The project had not failed before, so nothing was remembered for it.
  have hnone : stages.get? q = none := by
    by_contra hold
    obtain ⟨stage, hstage⟩ := Option.ne_none_iff_exists'.1 hold
    exact hnew (h.failed q stage hstage hregistered)
  obtain ⟨hexists, hall⟩ := h.stageOf_eq hexternal hstart hfails
  refine ⟨hexists, fun cause hcause => ?_⟩
  rw [get?_record, hnone, if_pos hpath, hall cause hcause]
  rfl

/-- One more outcome is reported. -/
theorem Faithful.report (h : x.Faithful start before stages) (hexternal : x.backend.External)
    (hstart : ∀ q, start.states q ≠ .failed)
    (hdirectories : ∀ d u p, x.Nested (.call id) (x.after start before) d u →
      x.registry.get? d = some p →
        ((x.makeDirectories p).outcome (u.record (.entered d))).1 = .ok ()) :
    x.Faithful start (before ++ [id])
      (stages.report ⟨id, ((x.build id).outcome (x.after start before)).1⟩) := by
  rcases hfails : (x.build id).outcome (x.after start before) with ⟨e | _, t⟩
  · refine ⟨fun q stage hstage hregistered => ?_, fun q early other late hsplit hnew hfailed => ?_⟩
    · rw [after_concat, hfails]
      exact h.failed_record hexternal hdirectories hfails hstage hregistered
    · rcases concat_eq_append_cons hsplit with ⟨rfl, rfl⟩ | ⟨rest, rfl⟩
      · rw [after_concat, hfails] at hfailed
        exact h.causes_record hexternal hstart hfails hnew hfailed
      · obtain ⟨hexists, hall⟩ := h.causes q early other rest rfl hnew hfailed
        refine ⟨hexists, fun cause hcause => ?_⟩
        rw [FailedStages.report, get?_record, hall cause hcause]
        rfl
  · refine ⟨fun q stage hstage hregistered => ?_, fun q early other late hsplit hnew hfailed => ?_⟩
    · exact failed_after_concat id (h.failed q stage hstage hregistered)
    · rcases concat_eq_append_cons hsplit with ⟨rfl, rfl⟩ | ⟨rest, rfl⟩
      · rw [after_concat, hfails] at hfailed
        obtain ⟨-, e, he, -⟩ := (failed_build_cases hfails hfailed).resolve_left hnew
        cases he
      · exact h.causes q early other rest rfl hnew hfailed

/-! ## Reports of builds -/

/-- The outcomes of one more build. -/
theorem buildEach_concat (x : BuildSetup σ) (start : Session σ) (before : List String)
    (id : String) :
    (x.buildEach (before ++ [id]) start).1 =
      (x.buildEach before start).1 ++ [⟨id, ((x.build id).outcome (x.after start before)).1⟩] := by
  rw [buildEach_append]
  rfl

/-- Reports of builds in a fresh session have a stage for whatever fails. -/
theorem informed_afterReports (hexternal : x.backend.External) (world : σ)
    (before : List String) :
    x.Informed { world } before (afterReports (x.buildEach before { world }).1) := by
  induction before using List.reverseRecOn with
  | nil =>
      refine ⟨fun q stage hstage => ?_, fun q hq => ?_⟩
      · cases hstage
      · cases hq
  | append_singleton before id ih =>
      rw [buildEach_concat, afterReports, List.foldl_concat]
      exact ih.report hexternal id

/-- Where all directories are made, reports of builds in a fresh session remember the stages of
root causes. -/
theorem faithful_afterReports (hexternal : x.backend.External) (world : σ)
    {before : List String} (hdirectories : x.MakesDirectories { world } before) :
    x.Faithful { world } before (afterReports (x.buildEach before { world }).1) := by
  induction before using List.reverseRecOn with
  | nil =>
      refine ⟨fun q stage hstage => ?_, fun q early other late hsplit => ?_⟩
      · cases hstage
      · simp at hsplit
  | append_singleton before id ih =>
      rw [buildEach_concat, afterReports, List.foldl_concat]
      have hbefore : x.MakesDirectories { world } before := by
        intro front own later hsplit
        exact hdirectories front own (later ++ [id]) (by simp [hsplit])
      exact (ih hbefore).report hexternal (fun q => by simp) (hdirectories before id [] rfl)

/-- An outcome is that of the build after those before it. -/
theorem outcome_of_buildEach {ids : List String} {told rest : List Outcome} {outcome : Outcome}
    (h : (x.buildEach ids start).1 = told ++ outcome :: rest) :
    ∃ later, ids = told.map (·.project) ++ outcome.project :: later ∧
      (x.buildEach (told.map (·.project)) start).1 = told ∧
      ((x.build outcome.project).outcome (x.after start (told.map (·.project)))).1 =
        outcome.result := by
  induction told generalizing ids start with
  | nil =>
      cases ids with
      | nil => cases h
      | cons id later =>
          cases h
          exact ⟨later, rfl, rfl, rfl⟩
  | cons first told ih =>
      cases ids with
      | nil => cases h
      | cons id later =>
          obtain ⟨hfirst, hrest⟩ := List.cons.inj h
          cases hfirst
          obtain ⟨later, hids, htold, hresult⟩ := ih hrest
          refine ⟨later, congrArg (id :: ·) hids, ?_, hresult⟩
          exact congrArg (Outcome.mk id _ :: ·) htold

/-- The stages that are reported.  Let some projects be built one after another in a fresh
session, with a backend that fails by itself only, and let one of them fail:

* the stage that is reported, after the outcomes before it, is not the text that stands for a
  missing report;
* if the two directories of every project that is called can be made, the failure has a root
  cause, and the stage is that of the root cause. -/
theorem reported_stage (x : BuildSetup σ) (hexternal : x.backend.External) (world : σ)
    (ids : List String) (told rest : List Outcome) (id : String) (e : BuildError)
    (h : (x.buildEach ids { world }).1 = told ++ ⟨id, .error e⟩ :: rest) :
    let stage := ((afterReports told).record id e).1
    stage ≠ unreported ∧
      (x.MakesDirectories { world } ids →
        (∃ cause, x.RootCause { world } (told.map (·.project)) id cause) ∧
          ∀ cause, x.RootCause { world } (told.map (·.project)) id cause →
            stage = cause.stage) := by
  intro stage
  obtain ⟨later, hids, htold, hresult⟩ := outcome_of_buildEach h
  have hfails : (x.build id).outcome (x.after { world } (told.map (·.project))) =
      (.error e, ((x.build id).outcome (x.after { world } (told.map (·.project)))).2) :=
    Prod.ext hresult rfl
  have hinformed := informed_afterReports hexternal world (told.map (·.project))
  rw [htold] at hinformed
  refine ⟨hinformed.stageOf_ne hexternal hfails, fun hdirectories => ?_⟩
  have hbefore : x.MakesDirectories { world } (told.map (·.project)) := by
    intro front own others hsplit
    exact hdirectories front own (others ++ id :: later) (by rw [hids, hsplit]; simp)
  have hfaithful := faithful_afterReports hexternal world hbefore
  rw [htold] at hfaithful
  exact hfaithful.stageOf_eq hexternal (fun q => by simp) hfails

end BuildSetup

/-! ## A sample -/

namespace Sample

/-- The library fails with the files, and the application that is built after it is reported
with the stage of that. -/
theorem shell_reported_stage :
    (tornSetup.backend.External ∧
      (tornSetup.buildEach ["text", "shell"] { world := () }).1 =
        [⟨"text", .error (.systemFault .permissionDenied)⟩] ++
          ⟨"shell", .error (.dependencyFailed "shell" "text" (.previouslyFailed "text"))⟩ :: [] ∧
      tornSetup.MakesDirectories { world := () } ["text", "shell"]) ∧
    ∃ cause, tornSetup.RootCause { world := () } ["text"] "shell" cause ∧
      cause.stage = "filesystem" := by
  have houtcomes : (tornSetup.buildEach ["text", "shell"] { world := () }).1 =
      [⟨"text", .error (.systemFault .permissionDenied)⟩] ++
        ⟨"shell", .error (.dependencyFailed "shell" "text" (.previouslyFailed "text"))⟩ :: [] := by
    cbv
  have hdirectories : tornSetup.MakesDirectories { world := () } ["text", "shell"] := by
    intro before id later hsplit d u p hnested hp
    rfl
  obtain ⟨-, hstage⟩ := BuildSetup.reported_stage tornSetup external_tornSetup ()
    ["text", "shell"] _ _ "shell" _ houtcomes
  obtain ⟨⟨cause, hcause⟩, hall⟩ := hstage hdirectories
  refine ⟨⟨external_tornSetup, houtcomes, hdirectories⟩, cause, hcause, ?_⟩
  rw [← hall cause hcause]
  rfl

end Sample

end NativeBuild
