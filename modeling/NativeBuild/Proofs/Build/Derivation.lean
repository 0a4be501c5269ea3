import NativeBuild.Build.Clean
import NativeBuild.Proofs.Dependency.LinkPath

/-!
# What a build does

All that the building of a project can do, said once as a derivation: one rule for each
way that a call, the steps of a project, or a list of libraries may go.  The depth that
bounds the recursion does not occur in the rules.

Main definitions:

- `BuildTask`: a call for an id, the steps of a project, or some libraries of a project.
- `BuildSetup.Runs`: a task, below the projects that are being built, goes from one
  session to another with an outcome.

Main results:

- Theorem `runs_buildWithin_of_mem`: for a registered id, the number of projects is depth enough.
- Theorem `runs_build`: building an id is such a derivation.
-/

namespace NativeBuild

/-- What is to be done in a build. -/
inductive BuildTask where
  /-- Build an id. -/
  | call (id : String)
  /-- Take the steps of a project that was not built. -/
  | steps (p : Project)
  /-- Build the given libraries of a project, in order. -/
  | libraries (p : Project) (ids : List String)

namespace BuildSetup

open Build

variable {σ : Type} {x : BuildSetup σ}

/-! ## Rules -/

/-- Below the projects that are being built, innermost first, a task goes from one session
to another with an outcome.  A library is never one of those projects. -/
inductive Runs (x : BuildSetup σ) :
    List String → BuildTask → Session σ → Except BuildError Unit → Session σ → Prop
  | unknown {stack : List String} {id : String} {s : Session σ}
      (hid : x.registry.get? id = none) :
      Runs x stack (.call id) s (.error (.projectNotFound id))
        ((s.record (.entered id)).record (.left id))
  | blocked {stack : List String} {p : Project} {s t : Session σ} {e : BuildError}
      (hp : x.registry.get? p.id = some p)
      (hdirs : (x.makeDirectories p).outcome (s.record (.entered p.id)) = (.error e, t)) :
      Runs x stack (.call p.id) s (.error e) (t.record (.left p.id))
  | reused {stack : List String} {p : Project} {s t : Session σ}
      (hp : x.registry.get? p.id = some p)
      (hdirs : (x.makeDirectories p).outcome (s.record (.entered p.id)) = (.ok (), t))
      (hstate : t.states p.id = .built) :
      Runs x stack (.call p.id) s (.ok ()) ((t.record (.reused p.id)).record (.left p.id))
  | refused {stack : List String} {p : Project} {s t : Session σ}
      (hp : x.registry.get? p.id = some p)
      (hdirs : (x.makeDirectories p).outcome (s.record (.entered p.id)) = (.ok (), t))
      (hstate : t.states p.id = .failed) :
      Runs x stack (.call p.id) s (.error (.previouslyFailed p.id)) (t.record (.left p.id))
  | succeeded {stack : List String} {p : Project} {s t u : Session σ}
      (hp : x.registry.get? p.id = some p)
      (hdirs : (x.makeDirectories p).outcome (s.record (.entered p.id)) = (.ok (), t))
      (hstate : t.states p.id = .notBuilt) (hsteps : Runs x stack (.steps p) t (.ok ()) u) :
      Runs x stack (.call p.id) s (.ok ()) ((u.succeed p.id).record (.left p.id))
  | failed {stack : List String} {p : Project} {s t u : Session σ} {e : BuildError}
      (hp : x.registry.get? p.id = some p)
      (hdirs : (x.makeDirectories p).outcome (s.record (.entered p.id)) = (.ok (), t))
      (hstate : t.states p.id = .notBuilt) (hsteps : Runs x stack (.steps p) t (.error e) u) :
      Runs x stack (.call p.id) s (.error e) ((u.fail p.id).record (.left p.id))
  | invalid {stack : List String} {p : Project} {s : Session σ} {e : BuildError}
      (hvalid : x.validate p = .error e) : Runs x stack (.steps p) s (.error e) s
  | ungenerated {stack : List String} {p : Project} {s t : Session σ} {e : BuildError}
      (hvalid : x.validate p = .ok ()) (hgen : (x.generate p).outcome s = (.error e, t)) :
      Runs x stack (.steps p) s (.error e) t
  | interrupted {stack : List String} {p : Project} {s t u : Session σ} {e : BuildError}
      (hvalid : x.validate p = .ok ()) (hgen : (x.generate p).outcome s = (.ok (), t))
      (hlibs : Runs x (p.id :: stack) (.libraries p p.libs) (t.setState p.id .built)
        (.error e) u) :
      Runs x stack (.steps p) s (.error e) u
  | produced {stack : List String} {p : Project} {s t u v : Session σ}
      {result : Except BuildError Unit}
      (hvalid : x.validate p = .ok ()) (hgen : (x.generate p).outcome s = (.ok (), t))
      (hlibs : Runs x (p.id :: stack) (.libraries p p.libs) (t.setState p.id .built) (.ok ()) u)
      (hown : (x.produce p).outcome u = (result, v)) :
      Runs x stack (.steps p) s result v
  | noLibrary {stack : List String} {p : Project} {s : Session σ} :
      Runs x stack (.libraries p []) s (.ok ()) s
  | nextLibrary {stack rest : List String} {p : Project} {id : String} {s t u : Session σ}
      {result : Except BuildError Unit} (hid : id ∉ stack)
      (hfirst : Runs x stack (.call id) s (.ok ()) t)
      (hrest : Runs x stack (.libraries p rest) t result u) :
      Runs x stack (.libraries p (id :: rest)) s result u
  | lostLibrary {stack rest : List String} {p : Project} {id : String} {s t : Session σ}
      {e : BuildError} (hid : id ∉ stack) (hfirst : Runs x stack (.call id) s (.error e) t) :
      Runs x stack (.libraries p (id :: rest)) s (.error (.dependencyFailed p.id id e)) t

/-! ## Validation -/

/-- A project is accepted when its kind may be built and both of its closures are. -/
theorem validate_eq_ok_iff {p : Project} :
    x.validate p = .ok () ↔
      p.kind.isBuildable = true ∧ (∃ closure, x.registry.linkClosure p.id = .ok closure) ∧
        ∃ closure, x.registry.headerClosure p.id = .ok closure := by
  unfold validate
  cases hkind : p.kind.isBuildable with
  | false => simp [bind, Except.bind]
  | true =>
      cases hlink : x.registry.linkClosure p.id with
      | error e => simp [bind, Except.bind]
      | ok links =>
          cases hheader : x.registry.headerClosure p.id with
          | error e => simp [bind, Except.bind]
          | ok headers => simp [bind, Except.bind, pure, Except.pure]

/-! ## Building is a derivation -/

/-- Libraries that can each be built by a derivation are built by one. -/
theorem runs_buildLibraries {stack ids : List String} {p : Project}
    {buildOne : String → Build σ Unit}
    (hone : ∀ d ∈ ids, d ∉ stack ∧
      ∀ s, x.Runs stack (.call d) s ((buildOne d).outcome s).1 ((buildOne d).outcome s).2)
    (s : Session σ) :
    x.Runs stack (.libraries p ids) s ((buildLibraries buildOne p ids).outcome s).1
      ((buildLibraries buildOne p ids).outcome s).2 := by
  induction ids generalizing s with
  | nil => exact .noLibrary
  | cons id rest ih =>
      obtain ⟨hid, hcall⟩ := hone id List.mem_cons_self
      have hfirst := hcall s
      have hwrap := outcome_wrap (.dependencyFailed p.id id) (buildOne id) s
      rcases h : (buildOne id).outcome s with ⟨_ | _, t⟩
      · rw [h] at hfirst hwrap
        rw [buildLibraries, outcome_bind_of_error hwrap]
        exact .lostLibrary hid hfirst
      · rw [h] at hfirst hwrap
        rw [buildLibraries, outcome_bind_of_ok hwrap]
        exact .nextLibrary hid hfirst (ih (fun d hd => hone d (List.mem_cons_of_mem _ hd)) t)

/-- The steps of a project are a derivation when its libraries, once it is accepted, can
each be built by one. -/
theorem runs_runSteps {stack : List String} {p : Project} {buildOne : String → Build σ Unit}
    (hone : x.validate p = .ok () → ∀ d ∈ p.libs, d ∉ p.id :: stack ∧
      ∀ s, x.Runs (p.id :: stack) (.call d) s ((buildOne d).outcome s).1
        ((buildOne d).outcome s).2)
    (s : Session σ) :
    x.Runs stack (.steps p) s ((x.runSteps buildOne p).outcome s).1
      ((x.runSteps buildOne p).outcome s).2 := by
  unfold runSteps
  have hgive := outcome_give (x.validate p) s
  cases hvalid : x.validate p with
  | error e =>
      rw [hvalid] at hgive
      rw [outcome_bind_of_error hgive]
      exact .invalid hvalid
  | ok _ =>
      rw [hvalid] at hgive
      rw [outcome_bind_of_ok hgive]
      rcases hgen : (x.generate p).outcome s with ⟨e | _, t⟩
      · rw [outcome_bind_of_error hgen]
        exact .ungenerated hvalid hgen
      · rw [outcome_bind_of_ok hgen, outcome_bind_of_ok (outcome_change _ t)]
        have hlibs := runs_buildLibraries (p := p) (hone hvalid) (t.setState p.id .built)
        rcases h : (buildLibraries buildOne p p.libs).outcome (t.setState p.id .built)
          with ⟨e | _, u⟩
        · rw [h] at hlibs
          rw [outcome_bind_of_error h]
          exact .interrupted hvalid hgen hlibs
        · rw [h] at hlibs
          rw [outcome_bind_of_ok h]
          exact .produced hvalid hgen hlibs rfl

/-- Steps that succeed finish their project with success. -/
theorem outcome_settle_of_ok {id : String} {steps : Build σ Unit} {s t : Session σ}
    (h : steps.outcome s = (.ok (), t)) : (settle id steps).outcome s = (.ok (), t.succeed id) := by
  simp only [outcome, settle] at h ⊢
  cases hs : steps s with
  | ok _ after =>
      rw [hs] at h
      cases h
      rfl
  | error e after =>
      rw [hs] at h
      cases h

/-- Steps that fail finish their project with failure. -/
theorem outcome_settle_of_error {id : String} {steps : Build σ Unit} {s t : Session σ}
    {e : BuildError} (h : steps.outcome s = (.error e, t)) :
    (settle id steps).outcome s = (.error e, t.fail id) := by
  simp only [outcome, settle] at h ⊢
  cases hs : steps s with
  | ok _ after =>
      rw [hs] at h
      cases h
  | error e after =>
      rw [hs] at h
      cases h
      rfl

/-- A call is a derivation when the libraries of its project, once it is accepted, can each
be built by one. -/
theorem runs_enter {stack : List String} {id : String} {buildOne : String → Build σ Unit}
    (hone : ∀ p, x.registry.get? id = some p → x.validate p = .ok () →
      ∀ d ∈ p.libs, d ∉ id :: stack ∧
        ∀ s, x.Runs (id :: stack) (.call d) s ((buildOne d).outcome s).1
          ((buildOne d).outcome s).2)
    (s : Session σ) :
    x.Runs stack (.call id) s ((bracket id (x.enter buildOne id)).outcome s).1
      ((bracket id (x.enter buildOne id)).outcome s).2 := by
  rw [outcome_bracket]
  unfold enter
  cases hp : x.registry.get? id with
  | none =>
      have hgive := outcome_give (x.registry.require id) (s.record (.entered id))
      rw [Registry.require, hp] at hgive
      rw [Registry.require, hp, outcome_bind_of_error hgive]
      exact .unknown hp
  | some p =>
      obtain rfl := Registry.id_of_get? hp
      have hgive := outcome_give (x.registry.require p.id) (s.record (.entered p.id))
      rw [Registry.require, hp] at hgive
      rw [Registry.require, hp, outcome_bind_of_ok hgive]
      rcases hdirs : (x.makeDirectories p).outcome (s.record (.entered p.id)) with ⟨e | _, t⟩
      · rw [outcome_bind_of_error hdirs]
        exact .blocked hp hdirs
      · rw [outcome_bind_of_ok hdirs, outcome_bind_of_ok (outcome_get t)]
        cases hstate : t.states p.id with
        | built => exact .reused hp hdirs hstate
        | failed => exact .refused hp hdirs hstate
        | notBuilt =>
            have hsteps := runs_runSteps (hone p hp) t
            rcases h : (x.runSteps buildOne p).outcome t with ⟨e | _, u⟩
            · rw [h] at hsteps
              simp only [outcome_settle_of_error h]
              exact .failed hp hdirs hstate hsteps
            · rw [h] at hsteps
              simp only [outcome_settle_of_ok h]
              exact .succeeded hp hdirs hstate hsteps

/-- The libraries of a project that is accepted are registered. -/
theorem mem_ids_of_validate {p : Project} {d : String} (hp : x.registry.get? p.id = some p)
    (hvalid : x.validate p = .ok ()) (hd : d ∈ p.libs) : d ∈ x.registry.ids := by
  obtain ⟨-, ⟨closure, hclosure⟩, -⟩ := validate_eq_ok_iff.1 hvalid
  rw [← Registry.edges_linkEdges hp] at hd
  obtain ⟨q, hq, -⟩ := (Registry.soundAlong_of_linkClosure hclosure).usable d (.step hd)
  exact Registry.mem_ids_iff.2 ⟨q, hq⟩

/-- Building to one more depth is a derivation when building to the depth is one, for each
registered id that the project leads to. -/
theorem runs_buildWithin_succ {depth : Nat} {stack : List String} {id : String}
    (hlead : x.registry.LeadsTo stack id)
    (hlibs : ∀ d ∈ x.registry.ids, x.registry.LeadsTo (id :: stack) d → ∀ s,
      x.Runs (id :: stack) (.call d) s ((x.buildWithin depth d).outcome s).1
        ((x.buildWithin depth d).outcome s).2)
    (s : Session σ) :
    x.Runs stack (.call id) s ((x.buildWithin (depth + 1) id).outcome s).1
      ((x.buildWithin (depth + 1) id).outcome s).2 := by
  rw [buildWithin]
  refine runs_enter (fun p hp hvalid d hd => ?_) s
  have hclosure := (validate_eq_ok_iff.1 hvalid).2.1
  obtain rfl := Registry.id_of_get? hp
  obtain ⟨hid, hsound⟩ := Registry.exists_linkClosure_iff.1 hclosure
  have hpush := hlead.push hid hsound (by rwa [Registry.edges_linkEdges hp])
  exact ⟨hpush.not_mem, hlibs d (mem_ids_of_validate hp hvalid hd) hpush⟩

/-- Building a registered id to a depth is a derivation when the depth and the projects that are
being built together make up the registry.  The depth is then never used up, since those projects
and the id are different. -/
theorem runs_buildWithin_of_mem {depth : Nat} {stack : List String} {id : String}
    (hlead : x.registry.LeadsTo stack id) (hid : id ∈ x.registry.ids)
    (hdepth : x.registry.size ≤ depth + stack.length) (s : Session σ) :
    x.Runs stack (.call id) s ((x.buildWithin depth id).outcome s).1
      ((x.buildWithin depth id).outcome s).2 := by
  induction depth generalizing stack id s with
  | zero =>
      have hlt := hlead.length_lt hid
      omega
  | succ depth ih =>
      refine runs_buildWithin_succ hlead (fun d hd hpush s => ih hpush hd ?_ s) s
      rw [List.length_cons]
      omega

/-- Building any id takes a depth of one more, for the call that finds that it is not
registered. -/
theorem runs_buildWithin {depth : Nat} {stack : List String} {id : String}
    (hlead : x.registry.LeadsTo stack id) (hdepth : x.registry.size < depth + stack.length)
    (s : Session σ) :
    x.Runs stack (.call id) s ((x.buildWithin depth id).outcome s).1
      ((x.buildWithin depth id).outcome s).2 := by
  cases depth with
  | zero =>
      have hle := hlead.length_le
      omega
  | succ depth =>
      refine runs_buildWithin_succ hlead (fun d hd hpush s => ?_) s
      refine runs_buildWithin_of_mem hpush hd ?_ s
      rw [List.length_cons]
      omega

/-- Building an id is a derivation, from any session. -/
theorem runs_build (x : BuildSetup σ) (id : String) (s : Session σ) :
    x.Runs [] (.call id) s ((x.build id).outcome s).1 ((x.build id).outcome s).2 :=
  runs_buildWithin (.nil x.registry id) (by simp) s

end BuildSetup

end NativeBuild
