import NativeBuild.Proofs.Build.FailureChain

/-!
# Root causes

Projects that are built one after another may fail because of a project that failed earlier.
What lies behind such a failure is the error of the call in which that project was marked as
failed, and if that points back as well, the error behind it.

Main definitions:

- `BuildSetup.RootCause`: the error behind the failure of one of several builds.
- `BuildSetup.MakesDirectories`: in some builds, no project lacks its directories.

Main results:

- Theorem `Runs.failed_cases`: what has failed after a build had failed before, or the error
  leads through it.
- Theorem `Runs.failed_of_previouslyFailed`: an error points back to what had failed before.
- Theorem `Runs.failed_of_links`: where all directories are made, whatever an error leads
  through has failed.
-/

namespace NativeBuild

namespace BuildError

/-- An error of a project itself has none behind it that a dependency passed on. -/
theorem innermost_of_isOwn {e : BuildError} (h : e.isOwn = true) : e.innermost = e := by
  cases e <;> first | rfl | cases h

/-- An error of a project itself does not point back. -/
theorem innermost_ne_of_isOwn {e : BuildError} (h : e.isOwn = true) (q : String) :
    e.innermost ≠ .previouslyFailed q := by
  rw [innermost_of_isOwn h]
  rintro rfl
  cases h

end BuildError

namespace BuildSetup

open Build BuildError Session

variable {σ : Type} {x : BuildSetup σ} {stack : List String} {s t : Session σ}
  {result : Except BuildError Unit} {q : String}

/-! ## What has failed -/

/-- A mark makes nothing fail. -/
theorem failed_of_marked {id : String} (h : (s.setState id .built).states q = .failed) :
    s.states q = .failed := by
  by_cases hq : q = id
  · simp [hq] at h
  · simpa [hq] using h

/-- What has failed after a task had failed before, or it is registered and the error of the
task leads through it. -/
theorem Runs.failed_cases {task : BuildTask} (h : x.Runs stack task s result t)
    (hq : t.states q = .failed) :
    s.states q = .failed ∨ (∃ p, x.registry.get? q = some p) ∧
      ∃ e, result = .error e ∧ (q ∈ e.links.map Prod.snd ∨ task = .call q) := by
  induction h with
  | unknown hid => exact .inl hq
  | blocked hp hdirs => exact .inl (states_entered hdirs ▸ hq)
  | reused hp hdirs hstate => exact .inl (states_entered hdirs ▸ hq)
  | refused hp hdirs hstate => exact .inl (states_entered hdirs ▸ hq)
  | succeeded hp hdirs hstate hsteps ih =>
      rcases ih hq with hold | ⟨-, e, he, -⟩
      · exact .inl (states_entered hdirs ▸ hold)
      · cases he
  | @failed stack p s t u e hp hdirs hstate hsteps ih =>
      by_cases hne : q = p.id
      · subst hne
        exact .inr ⟨⟨p, hp⟩, e, rfl, .inr rfl⟩
      · have hu : u.states q = .failed := by simpa [hne] using hq
        rcases ih hu with hold | ⟨hregistered, other, he, hpath⟩
        · exact .inl (states_entered hdirs ▸ hold)
        · exact .inr ⟨hregistered, other, he, .inl (hpath.resolve_right (by simp))⟩
  | invalid hvalid => exact .inl hq
  | ungenerated hvalid hgen => exact .inl (states_generate hgen ▸ hq)
  | @interrupted stack p s t u e hvalid hgen hlibs ih =>
      rcases ih hq with hold | ⟨hregistered, other, he, hpath⟩
      · exact .inl (states_generate hgen ▸ failed_of_marked hold)
      · exact .inr ⟨hregistered, other, he, .inl (hpath.resolve_right (by simp))⟩
  | @produced stack p s t u v result hvalid hgen hlibs hown ih =>
      rcases ih (states_produce hown ▸ hq) with hold | ⟨-, e, he, -⟩
      · exact .inl (states_generate hgen ▸ failed_of_marked hold)
      · cases he
  | noLibrary => exact .inl hq
  | nextLibrary hid hfirst hrest ihfirst ihrest =>
      rcases ihrest hq with hold | ⟨hregistered, other, he, hpath⟩
      · rcases ihfirst hold with hold | ⟨-, e, he, -⟩
        · exact .inl hold
        · cases he
      · exact .inr ⟨hregistered, other, he, .inl (hpath.resolve_right (by simp))⟩
  | lostLibrary hid hfirst ih =>
      rcases ih hq with hold | ⟨hregistered, other, he, hpath⟩
      · exact .inl hold
      · cases he
        refine .inr ⟨hregistered, _, rfl, .inl ?_⟩
        rcases hpath with hmem | hcall
        · exact List.mem_cons_of_mem _ hmem
        · cases hcall
          exact List.mem_cons_self

/-- What has failed after a build had failed before, or it lies on the path of the error. -/
theorem failed_build_cases {id : String} (h : (x.build id).outcome s = (result, t))
    (hq : t.states q = .failed) :
    s.states q = .failed ∨ (∃ p, x.registry.get? q = some p) ∧
      ∃ e, result = .error e ∧ q ∈ e.path id := by
  have hrun := x.runs_build id s
  rw [h] at hrun
  rcases hrun.failed_cases hq with hold | ⟨hregistered, e, he, hlink | hcall⟩
  · exact .inl hold
  · exact .inr ⟨hregistered, e, he, List.mem_cons_of_mem _ hlink⟩
  · cases hcall
    exact .inr ⟨hregistered, e, he, List.mem_cons_self⟩

/-- An error that points back points to a project that had failed before, with a backend that
fails by itself only. -/
theorem Runs.failed_of_previouslyFailed (hexternal : x.backend.External) {task : BuildTask}
    (h : x.Runs stack task s result t) {e : BuildError} (he : result = .error e)
    (hq : e.innermost = .previouslyFailed q) : s.states q = .failed := by
  induction h generalizing e with
  | unknown hid =>
      cases he
      cases hq
  | blocked hp hdirs =>
      cases he
      have hown := isOwn_of_makeDirectories hexternal hdirs
      exact absurd hq (innermost_ne_of_isOwn hown q)
  | reused hp hdirs hstate => cases he
  | refused hp hdirs hstate =>
      cases he
      cases hq
      exact states_entered hdirs ▸ hstate
  | succeeded hp hdirs hstate hsteps ih => cases he
  | failed hp hdirs hstate hsteps ih => exact states_entered hdirs ▸ ih he hq
  | invalid hvalid =>
      cases he
      exact absurd hq (innermost_ne_of_isOwn (isOwn_of_validate hvalid) q)
  | ungenerated hvalid hgen =>
      cases he
      have hown := isOwn_of_generate hexternal hgen
      exact absurd hq (innermost_ne_of_isOwn hown q)
  | interrupted hvalid hgen hlibs ih => exact states_generate hgen ▸ failed_of_marked (ih he hq)
  | produced hvalid hgen hlibs hown ih =>
      cases he
      have hfails := isOwn_of_produce hexternal hown
      exact absurd hq (innermost_ne_of_isOwn hfails q)
  | noLibrary => cases he
  | nextLibrary hid hfirst hrest ihfirst ihrest =>
      -- What had failed before the other libraries had failed before the first one.
      rcases hfirst.failed_cases (ihrest he hq) with hold | ⟨-, other, hother, -⟩
      · exact hold
      · cases hother
  | lostLibrary hid hfirst ih =>
      cases he
      exact ih rfl hq

/-- Where every project that is called has its directories made, whatever the error of a task
leads through has failed, as far as it is registered. -/
theorem Runs.failed_of_links (hexternal : x.backend.External) {task : BuildTask}
    (h : x.Runs stack task s result t) {e : BuildError} (he : result = .error e)
    (hdirectories : ∀ d u p, x.Nested task s d u → x.registry.get? d = some p →
      ((x.makeDirectories p).outcome (u.record (.entered d))).1 = .ok ())
    (hq : q ∈ e.links.map Prod.snd ∨ task = .call q)
    (hregistered : ∃ p, x.registry.get? q = some p) : t.states q = .failed := by
  induction h generalizing e with
  | unknown hid =>
      cases he
      obtain ⟨p, hp⟩ := hregistered
      rcases hq with hmem | hcall
      · cases hmem
      · cases hcall
        rw [hid] at hp
        cases hp
  | @blocked stack p s t e hp hdirs =>
      have hmade := hdirectories p.id s p .here hp
      rw [hdirs] at hmade
      cases hmade
  | reused hp hdirs hstate => cases he
  | refused hp hdirs hstate =>
      cases he
      rcases hq with hmem | hcall
      · cases hmem
      · cases hcall
        exact hstate
  | succeeded hp hdirs hstate hsteps ih => cases he
  | @failed stack p s t u e hp hdirs hstate hsteps ih =>
      by_cases hne : q = p.id
      · simp [hne]
      · have hlink := hq.resolve_right fun hcall => hne (BuildTask.call.inj hcall).symm
        have hnested : ∀ d v own, x.Nested (.steps p) t d v → x.registry.get? d = some own →
            ((x.makeDirectories own).outcome (v.record (.entered d))).1 = .ok () :=
          fun d v own h => hdirectories d v own (.steps hp hdirs hstate h)
        have hu := ih he hnested (.inl hlink)
        simpa [hne] using hu
  | invalid hvalid =>
      cases he
      have hown := isOwn_of_validate hvalid
      simp [links_of_isOwn hown] at hq
  | ungenerated hvalid hgen =>
      cases he
      have hown := isOwn_of_generate hexternal hgen
      simp [links_of_isOwn hown] at hq
  | interrupted hvalid hgen hlibs ih =>
      refine ih he (fun d v own hnested => ?_) (.inl (hq.resolve_right (by simp)))
      exact hdirectories d v own (.libraries hvalid hgen hnested)
  | produced hvalid hgen hlibs hown ih =>
      cases he
      have hfails := isOwn_of_produce hexternal hown
      simp [links_of_isOwn hfails] at hq
  | noLibrary => cases he
  | nextLibrary hid hfirst hrest ihfirst ihrest =>
      refine ihrest he (fun d v own hnested => ?_) (.inl (hq.resolve_right (by simp)))
      exact hdirectories d v own (.rest hfirst.outcome_build hnested)
  | lostLibrary hid hfirst ih =>
      cases he
      refine ih rfl (fun d v own hnested => hdirectories d v own (.first hnested)) ?_
      rcases List.mem_cons.1 (hq.resolve_right (by simp)) with rfl | hmem
      · exact .inr rfl
      · exact .inl hmem

/-! ## Builds one after another -/

/-- The session after the given builds. -/
def after (x : BuildSetup σ) (start : Session σ) (before : List String) : Session σ :=
  (x.buildEach before start).2

/-- The session after some projects and one more is the one after building that one. -/
theorem after_concat (x : BuildSetup σ) (start : Session σ) (before : List String) (id : String) :
    x.after start (before ++ [id]) = ((x.build id).outcome (x.after start before)).2 := by
  rw [after, buildEach_append]
  rfl

/-- The error behind the failure of the build of an id after others.  It is the innermost error
of the build, unless that points back to a project that had failed before: then it is the error
behind the build in which that project was marked as failed. -/
inductive RootCause (x : BuildSetup σ) (start : Session σ) :
    List String → String → BuildError → Prop
  | own {before : List String} {id : String} {e : BuildError}
      (hfails : ((x.build id).outcome (x.after start before)).1 = .error e)
      (hown : ∀ q, e.innermost ≠ .previouslyFailed q) : RootCause x start before id e.innermost
  | earlier {early late : List String} {other id q : String} {e cause : BuildError}
      (hfails : ((x.build id).outcome (x.after start (early ++ other :: late))).1 = .error e)
      (hback : e.innermost = .previouslyFailed q)
      (hbefore : (x.after start early).states q ≠ .failed)
      (hafter : (x.after start (early ++ [other])).states q = .failed)
      (hcause : RootCause x start early other cause) :
      RootCause x start (early ++ other :: late) id cause

/-- In the given builds, the two directories of every project that is called can be made. -/
def MakesDirectories (x : BuildSetup σ) (start : Session σ) (ids : List String) : Prop :=
  ∀ before id later, ids = before ++ id :: later →
    ∀ d u p, x.Nested (.call id) (x.after start before) d u → x.registry.get? d = some p →
      ((x.makeDirectories p).outcome (u.record (.entered d))).1 = .ok ()

/-- What fails in the course of some builds fails in one of them. -/
theorem exists_build_failed {start : Session σ} {ids : List String}
    (hstart : start.states q ≠ .failed) (hq : (x.after start ids).states q = .failed) :
    ∃ early other late, ids = early ++ other :: late ∧
      (x.after start early).states q ≠ .failed ∧
      (x.after start (early ++ [other])).states q = .failed := by
  induction ids using List.reverseRecOn with
  | nil => exact absurd hq hstart
  | append_singleton before id ih =>
      by_cases hbefore : (x.after start before).states q = .failed
      · obtain ⟨early, other, late, rfl, hnew, hfailed⟩ := ih hbefore
        exact ⟨early, other, late ++ [id], by simp, hnew, hfailed⟩
      · exact ⟨before, id, [], rfl, hbefore, hq⟩

end BuildSetup

end NativeBuild
