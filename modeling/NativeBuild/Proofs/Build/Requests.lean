import NativeBuild.Proofs.Build.OwnWork

/-!
# Runs of requests

What holds of a session after every build and every cleaning holds after every run of
requests: building everything is building its targets one by one, and cleaning everything
is cleaning projects up to the first that fails.

Main definitions:

- `Request.isBuild`: the request builds and cleans nothing.

Main results:

- Theorem `outcome_clean_cases`: what cleaning a project can do.
- Theorem `buildEach_append`: building projects is building some and then the others.
- Theorem `forall_mem_buildEach`: what holds of all outcomes of building several projects.
- Theorem `serveAll_preserves`: what each request preserves, a run preserves.
- Theorem `serve_preserves`: what building and cleaning preserve, every request preserves.
- Theorem `serve_preserves_of_isBuild`: for a request to build, building is enough.
-/

namespace NativeBuild

/-- The request builds and cleans nothing. -/
def Request.isBuild : Request → Bool
  | .build _ => true
  | .buildAll => true
  | .clean _ => false
  | .cleanAll => false

namespace BuildSetup

open Build Session

variable {σ : Type} {x : BuildSetup σ}

/-! ## Cleaning -/

/-- Cleaning does some work of the project; when it succeeds, the project is forgotten at
its end. -/
theorem outcome_clean_cases (x : BuildSetup σ) (id : String) (s : Session σ) :
    (∃ e, ((x.clean id).outcome s).1 = .error e ∧ Worked id s ((x.clean id).outcome s).2) ∨
      (((x.clean id).outcome s).1 = .ok () ∧
        ∃ t, Worked id s t ∧ ((x.clean id).outcome s).2 = t.forget id) := by
  unfold clean
  have hgive := outcome_give (x.registry.require id) s
  cases hp : x.registry.get? id with
  | none =>
      rw [Registry.require, hp] at hgive
      rw [Registry.require, hp, outcome_bind_of_error hgive]
      exact .inl ⟨_, rfl, .refl id s⟩
  | some p =>
      obtain rfl := Registry.id_of_get? hp
      rw [Registry.require, hp] at hgive
      rw [Registry.require, hp, outcome_bind_of_ok hgive]
      have hobj := x.works_perform p (.removeDirectoryTree p.objDir) s
      rcases hfirst : (x.perform p.id (.removeDirectoryTree p.objDir)).outcome s with ⟨e | _, t⟩
      · rw [outcome_bind_of_error hfirst]
        rw [hfirst] at hobj
        exact .inl ⟨e, rfl, hobj⟩
      · rw [outcome_bind_of_ok hfirst]
        rw [hfirst] at hobj
        have hbin := x.works_perform p (.removeDirectoryTree p.binDir) t
        rcases hsecond : (x.perform p.id (.removeDirectoryTree p.binDir)).outcome t
          with ⟨e | _, u⟩
        · rw [outcome_bind_of_error hsecond]
          rw [hsecond] at hbin
          exact .inl ⟨e, rfl, hobj.trans hbin⟩
        · rw [outcome_bind_of_ok hsecond]
          rw [hsecond] at hbin
          exact .inr ⟨rfl, u, hobj.trans hbin, rfl⟩

/-! ## Invariants of runs -/

variable {I : Session σ → Prop}

/-- What building each of some projects preserves, building all of them preserves. -/
theorem buildEach_preserves_of_mem {ids : List String}
    (hbuild : ∀ id ∈ ids, ∀ s, I s → I ((x.build id).outcome s).2) {s : Session σ} (hs : I s) :
    I (x.buildEach ids s).2 := by
  induction ids generalizing s with
  | nil => exact hs
  | cons id rest ih =>
      have hfirst := hbuild id List.mem_cons_self s hs
      exact ih (fun other hother => hbuild other (List.mem_cons_of_mem _ hother)) hfirst

/-- What building preserves, building several projects preserves. -/
theorem buildEach_preserves (hbuild : ∀ id s, I s → I ((x.build id).outcome s).2)
    (ids : List String) {s : Session σ} (hs : I s) : I (x.buildEach ids s).2 :=
  buildEach_preserves_of_mem (fun id _ => hbuild id) hs

/-- Building projects one after another is building the first ones and then the others. -/
theorem buildEach_append (first second : List String) (s : Session σ) :
    x.buildEach (first ++ second) s =
      ((x.buildEach first s).1 ++ (x.buildEach second (x.buildEach first s).2).1,
        (x.buildEach second (x.buildEach first s).2).2) := by
  induction first generalizing s with
  | nil => rfl
  | cons id rest ih =>
      simp only [List.cons_append, buildEach, ih]

/-- Every project that is to be built has an outcome, in order. -/
theorem map_project_buildEach (ids : List String) (s : Session σ) :
    (x.buildEach ids s).1.map (·.project) = ids := by
  induction ids generalizing s with
  | nil => rfl
  | cons id rest ih => exact congrArg (id :: ·) (ih _)

/-- What holds of each result of building, as long as building preserves what it takes, holds
of all outcomes. -/
theorem forall_mem_buildEach (φ : String → Except BuildError Unit → Prop)
    (hbuild : ∀ id s, I s → I ((x.build id).outcome s).2)
    (hresult : ∀ id s, I s → φ id ((x.build id).outcome s).1) (ids : List String)
    {s : Session σ} (hs : I s) :
    ∀ outcome ∈ (x.buildEach ids s).1, φ outcome.project outcome.result := by
  induction ids generalizing s with
  | nil => simp [buildEach]
  | cons id rest ih =>
      intro outcome houtcome
      rcases List.mem_cons.1 houtcome with rfl | houtcome
      · exact hresult id s hs
      · exact ih (hbuild id s hs) outcome houtcome

/-- What cleaning preserves, cleaning several projects preserves. -/
theorem cleanEach_preserves (hclean : ∀ id s, I s → I ((x.clean id).outcome s).2)
    (ids : List String) {s : Session σ} (hs : I s) : I ((x.cleanEach ids).outcome s).2 := by
  induction ids generalizing s with
  | nil => exact hs
  | cons id rest ih =>
      have hfirst := hclean id s hs
      rw [cleanEach]
      rcases h : (x.clean id).outcome s with ⟨e | _, t⟩
      · rw [outcome_bind_of_error h]
        rwa [h] at hfirst
      · rw [outcome_bind_of_ok h]
        rw [h] at hfirst
        exact ih hfirst

/-- What building preserves, a request to build preserves. -/
theorem serve_preserves_of_isBuild (hbuild : ∀ id s, I s → I ((x.build id).outcome s).2)
    {request : Request} (hrequest : request.isBuild = true) {s : Session σ} (hs : I s) :
    I (x.serve request s).2 := by
  cases request with
  | build id => exact hbuild id s hs
  | buildAll => exact buildEach_preserves hbuild x.targets hs
  | clean id => cases hrequest
  | cleanAll => cases hrequest

/-- What building and cleaning preserve, every request preserves. -/
theorem serve_preserves (hbuild : ∀ id s, I s → I ((x.build id).outcome s).2)
    (hclean : ∀ id s, I s → I ((x.clean id).outcome s).2) (request : Request) {s : Session σ}
    (hs : I s) : I (x.serve request s).2 := by
  cases request with
  | build id => exact hbuild id s hs
  | buildAll => exact buildEach_preserves hbuild x.targets hs
  | clean id => exact hclean id s hs
  | cleanAll => exact cleanEach_preserves hclean x.registry.ids hs

/-- What each of some requests preserves, the run of them preserves. -/
theorem serveAll_preserves {requests : List Request}
    (hserve : ∀ request ∈ requests, ∀ s, I s → I (x.serve request s).2) {s : Session σ}
    (hs : I s) : I (x.serveAll requests s).2 := by
  induction requests generalizing s with
  | nil => exact hs
  | cons request rest ih =>
      have hfirst := hserve request List.mem_cons_self s hs
      exact ih (fun other hother => hserve other (List.mem_cons_of_mem _ hother)) hfirst

/-- What building preserves, any requests to build preserve, and then the building of any
projects. -/
theorem builds_preserve (hbuild : ∀ id s, I s → I ((x.build id).outcome s).2)
    {requests : List Request} (hrequests : ∀ request ∈ requests, request.isBuild = true)
    (ids : List String) {s : Session σ} (hs : I s) :
    I (x.buildEach ids (x.serveAll requests s).2).2 := by
  refine buildEach_preserves hbuild ids (serveAll_preserves (fun request hmem s hs => ?_) hs)
  exact serve_preserves_of_isBuild hbuild (hrequests request hmem) hs

end BuildSetup

end NativeBuild
