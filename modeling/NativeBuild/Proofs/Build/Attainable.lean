import NativeBuild.Proofs.Build.Advance
import NativeBuild.Proofs.Build.Order
import NativeBuild.Proofs.Build.Steady

/-!
# What can be built

With a steady backend, whether a project can be built is a property of the project: its
kind, its closures, and the own steps of each project in its link closure.  Builds go
through states that are remembered, and stop at the first failure; still every request is
answered by that property, whatever was requested before.

Main definitions:

- `BuildSetup.Attainable`: the property.
- `BuildSetup.Settled`: a session in which what was built is attainable and what failed is
  not.

Main results:

- Theorem `attainable_iff`: a project is attainable by its libraries and its own steps.
- Theorem `Runs.settled`: a build answers by the property and keeps a session settled.
- Theorem `build_ok_iff_attainable`: so does every request.
-/

namespace NativeBuild

namespace BuildSetup

open Build Session

variable {σ : Type}

/-! ## Attainable projects -/

/-- By the answers, a project can be built: it is registered with a kind that can be built,
it has both closures, and the own steps of every project of its link closure, and its own,
succeed. -/
def Attainable (x : BuildSetup σ) (answers : Answers) (id : String) : Prop :=
  ∃ p links headers, x.registry.get? id = some p ∧ p.kind.isBuildable = true ∧
    x.registry.linkClosure id = .ok links ∧ x.registry.headerClosure id = .ok headers ∧
    ∀ q ∈ links ++ [id], ∃ dep, x.registry.get? q = some dep ∧ x.Succeeds answers dep

variable {x : BuildSetup σ} {answers : Answers}

/-- Whatever an attainable project reaches over libraries is attainable. -/
theorem Attainable.of_reaches {id d : String} (h : x.Attainable answers id)
    (hd : x.registry.Reaches linkEdges id d) : x.Attainable answers d := by
  obtain ⟨p, links, headers, hp, hkind, hlinks, hheaders, hall⟩ := h
  obtain ⟨dep, hdep, hdepkind⟩ := (Registry.soundAlong_of_linkClosure hlinks).usable d hd
  obtain ⟨inner, hinner, hsub⟩ := Registry.linkClosure_of_reaches hlinks hd
  obtain ⟨used, hused⟩ :=
    Registry.headerClosure_of_reaches ⟨p, hp, hkind⟩ ⟨headers, hheaders⟩ hd.headers
  refine ⟨dep, inner, used, hdep, hdepkind, hinner, hused, fun q hq => hall q ?_⟩
  rcases List.mem_append.1 hq with hq | hq
  · exact List.mem_append_left _ (hsub q hq)
  · rw [List.mem_singleton.1 hq]
    exact List.mem_append_left _ ((Registry.mem_linkClosure_iff hlinks).2 hd)

/-- The own steps of an attainable project succeed. -/
theorem Attainable.succeeds {id : String} (h : x.Attainable answers id) :
    ∃ p, x.registry.get? id = some p ∧ x.Succeeds answers p := by
  obtain ⟨_, links, -, -, -, -, -, hall⟩ := h
  exact hall id (by simp)

/-- A project is attainable when it is valid, its libraries are attainable, and its own steps
succeed. -/
theorem attainable_iff {p : Project} (hp : x.registry.get? p.id = some p) :
    x.Attainable answers p.id ↔
      x.validate p = .ok () ∧ (∀ d ∈ p.libs, x.Attainable answers d) ∧ x.Succeeds answers p := by
  rw [← Registry.edges_linkEdges hp]
  constructor
  · intro h
    have hlibs : ∀ d ∈ x.registry.edges linkEdges p.id, x.Attainable answers d :=
      fun d hd => h.of_reaches (.step hd)
    obtain ⟨own, hown, hsucceeds⟩ := h.succeeds
    obtain ⟨_, links, headers, hsame, hkind, hlinks, hheaders, -⟩ := h
    rw [hp] at hown hsame
    cases hown
    cases hsame
    exact ⟨validate_eq_ok_iff.2 ⟨hkind, ⟨links, hlinks⟩, headers, hheaders⟩, hlibs, hsucceeds⟩
  · rintro ⟨hvalid, hlibs, hown⟩
    obtain ⟨hkind, ⟨links, hlinks⟩, headers, hheaders⟩ := validate_eq_ok_iff.1 hvalid
    refine ⟨p, links, headers, hp, hkind, hlinks, hheaders, fun q hq => ?_⟩
    rcases List.mem_append.1 hq with hq | hq
    · -- A project of the closure is one of the libraries or reached from one.
      obtain ⟨d, hd, hdq⟩ := ((Registry.mem_linkClosure_iff hlinks).1 hq).cases_head
      rcases hdq with rfl | hdq
      · exact (hlibs d hd).succeeds
      · exact ((hlibs d hd).of_reaches hdq).succeeds
    · rw [List.mem_singleton.1 hq]
      exact ⟨p, hp, hown⟩

/-! ## Settled sessions -/

/-- Of the projects that are not being built, what was built is attainable and what failed is
not. -/
def Settled (x : BuildSetup σ) (answers : Answers) (stack : List String) (s : Session σ) : Prop :=
  ∀ q, q ∉ stack → (s.states q = .built → x.Attainable answers q) ∧
    (s.states q = .failed → ¬ x.Attainable answers q)

variable {stack : List String} {s t : Session σ} {id : String} {result : Except BuildError Unit}

/-- A fresh session is settled. -/
theorem settled_fresh (x : BuildSetup σ) (answers : Answers) (world : σ) :
    x.Settled answers [] { world } := by
  intro q _
  constructor
  · intro h
    cases h
  · intro h
    cases h

/-- Only the states matter for whether a session is settled. -/
theorem Settled.of_states (h : x.Settled answers stack s) (hstates : t.states = s.states) :
    x.Settled answers stack t := by
  unfold Settled
  rwa [hstates]

/-- One more project may run. -/
theorem Settled.push (h : x.Settled answers stack s) (id : String) :
    x.Settled answers (id :: stack) s :=
  fun q hq => h q fun hmem => hq (List.mem_cons_of_mem _ hmem)

/-- The state of a project that is being built does not matter. -/
theorem Settled.setState (h : x.Settled answers (id :: stack) s) (state : BuildState) :
    x.Settled answers (id :: stack) (s.setState id state) := by
  intro q hq
  have hne : q ≠ id := by
    rintro rfl
    exact hq List.mem_cons_self
  rw [states_setState_other s state hne]
  exact h q hq

/-- A project has run when its state says whether it is attainable. -/
theorem Settled.pop (h : x.Settled answers (id :: stack) s)
    (hbuilt : s.states id = .built → x.Attainable answers id)
    (hfailed : s.states id = .failed → ¬ x.Attainable answers id) :
    x.Settled answers stack s := by
  intro q hq
  by_cases heq : q = id
  · subst heq
    exact ⟨hbuilt, hfailed⟩
  · exact h q (by simp [heq, hq])

/-! ## Builds -/

/-- By the answers, a task can be done. -/
def Possible (x : BuildSetup σ) (answers : Answers) : BuildTask → Prop
  | .call id => x.Attainable answers id
  | .steps p => x.validate p = .ok () ∧ answers.generate p = .ok () ∧
      (∀ d ∈ p.libs, x.Attainable answers d) ∧ x.Produces answers p
  | .libraries _ ids => ∀ d ∈ ids, x.Attainable answers d

/-- A project is attainable when its directories can be made and its steps are possible. -/
theorem attainable_iff_steps {p : Project} (hp : x.registry.get? p.id = some p) :
    x.Attainable answers p.id ↔
      (answers.perform (.makeDirectory p.objDir) = .ok () ∧
        answers.perform (.makeDirectory p.binDir) = .ok ()) ∧
      x.Possible answers (.steps p) := by
  rw [attainable_iff hp]
  constructor
  · rintro ⟨hvalid, hlibs, hown⟩
    exact ⟨hown.directories, hvalid, hown.generated, hlibs, hown.produced⟩
  · rintro ⟨hdirs, hvalid, hgen, hlibs, hproduced⟩
    exact ⟨hvalid, hlibs, hdirs, hgen, hproduced⟩

/-- A task below the projects that are being built, none of which it is called for, succeeds
exactly if it is possible, and keeps a session settled. -/
theorem Runs.settled (hsteady : x.backend.Steady answers) {task : BuildTask}
    (h : x.Runs stack task s result t) (hcall : ∀ id, task = .call id → id ∉ stack)
    (hs : x.Settled answers (task.inside stack) s) :
    x.Settled answers (task.inside stack) t ∧ (result = .ok () ↔ x.Possible answers task) := by
  induction h with
  | @unknown stack id s hid =>
      refine ⟨hs, by simp, fun hpossible => ?_⟩
      obtain ⟨p, hp, -⟩ := Attainable.succeeds hpossible
      rw [hid] at hp
      cases hp
  | @blocked stack p s t e hp hdirs =>
      have ht := hs.of_states (states_entered hdirs)
      refine ⟨ht, by simp, fun hpossible => ?_⟩
      -- The directories cannot be made, now as at any other time.
      have hmade := (okIff_makeDirectories hsteady p).of_outcome hdirs
      have hok := hmade.2 ((attainable_iff_steps hp).1 hpossible).1
      cases hok
  | @reused stack p s t hp hdirs hstate =>
      have ht := hs.of_states (states_entered hdirs)
      exact ⟨ht, iff_of_true rfl ((ht p.id (hcall p.id rfl)).1 hstate)⟩
  | @refused stack p s t hp hdirs hstate =>
      have ht := hs.of_states (states_entered hdirs)
      exact ⟨ht, iff_of_false (by simp) ((ht p.id (hcall p.id rfl)).2 hstate)⟩
  | @succeeded stack p s t u hp hdirs hstate hsteps ih =>
      have ht := hs.of_states (states_entered hdirs)
      obtain ⟨hu, hiff⟩ := ih (by simp) (ht.push p.id)
      have hmade := (okIff_makeDirectories hsteady p).of_outcome hdirs
      have hattain := (attainable_iff_steps hp).2 ⟨hmade.1 rfl, hiff.1 rfl⟩
      have hbuilt : u.states p.id = .built := hsteps.built_of_steps
      refine ⟨hu.pop (fun _ => hattain) fun hfailed => ?_, iff_of_true rfl hattain⟩
      rw [hbuilt] at hfailed
      cases hfailed
  | @failed stack p s t u e hp hdirs hstate hsteps ih =>
      have ht := hs.of_states (states_entered hdirs)
      obtain ⟨hu, hiff⟩ := ih (by simp) (ht.push p.id)
      have hnot : ¬ x.Attainable answers p.id := by
        intro hattain
        have hok := hiff.2 ((attainable_iff_steps hp).1 hattain).2
        cases hok
      refine ⟨(hu.setState .failed).pop (fun hbuilt => ?_) fun _ => hnot,
        iff_of_false (by simp) hnot⟩
      simp at hbuilt
  | invalid hvalid =>
      refine ⟨hs, iff_of_false (by simp) fun hpossible => ?_⟩
      have hok := hvalid.symm.trans hpossible.1
      cases hok
  | @ungenerated stack p s t e hvalid hgen =>
      refine ⟨hs.of_states (states_generate hgen), by simp, ?_⟩
      intro hpossible
      have hok := ((okIff_generate hsteady p).of_outcome hgen).2 hpossible.2.1
      cases hok
  | @interrupted stack p s t u e hvalid hgen hlibs ih =>
      have ht := hs.of_states (states_generate hgen)
      obtain ⟨hu, hiff⟩ := ih (by simp) (ht.setState .built)
      refine ⟨hu, by simp, fun hpossible => ?_⟩
      have hok := hiff.2 hpossible.2.2.1
      cases hok
  | @produced stack p s t u v result hvalid hgen hlibs hown ih =>
      have ht := hs.of_states (states_generate hgen)
      obtain ⟨hu, hiff⟩ := ih (by simp) (ht.setState .built)
      have hgenerated := ((okIff_generate hsteady p).of_outcome hgen).1 rfl
      obtain ⟨hkind, ⟨links, hlinks⟩, headers, hheaders⟩ := validate_eq_ok_iff.1 hvalid
      have hproduce := (okIff_produce hsteady hkind hlinks hheaders).of_outcome hown
      refine ⟨hu.of_states (states_produce hown), fun hok => ?_, fun h => ?_⟩
      · exact ⟨hvalid, hgenerated, hiff.1 rfl, hproduce.1 hok⟩
      · exact hproduce.2 h.2.2.2
  | noLibrary => exact ⟨hs, iff_of_true rfl (by simp [Possible])⟩
  | @nextLibrary stack rest p id s t u result hid hfirst hrest ihfirst ihrest =>
      obtain ⟨ht, hone⟩ := ihfirst (fun d hd => by cases hd; exact hid) hs
      obtain ⟨hu, hothers⟩ := ihrest (by simp) ht
      refine ⟨hu, hothers.trans ?_⟩
      simp only [Possible, List.forall_mem_cons]
      exact (and_iff_right (hone.1 rfl)).symm
  | @lostLibrary stack rest p id s t e hid hfirst ih =>
      obtain ⟨ht, hone⟩ := ih (fun d hd => by cases hd; exact hid) hs
      refine ⟨ht, by simp, fun hpossible => ?_⟩
      have hok := hone.2 (hpossible id List.mem_cons_self)
      cases hok

/-! ## Requests -/

/-- Building keeps a session settled. -/
theorem build_settled (hsteady : x.backend.Steady answers) (id : String) (s : Session σ)
    (hs : x.Settled answers [] s) : x.Settled answers [] ((x.build id).outcome s).2 :=
  ((x.runs_build id s).settled hsteady (fun _ _ => List.not_mem_nil) hs).1

/-- From a settled session, exactly the attainable projects are built without an error. -/
theorem build_ok_iff (hsteady : x.backend.Steady answers) (id : String) (s : Session σ)
    (hs : x.Settled answers [] s) :
    ((x.build id).outcome s).1 = .ok () ↔ x.Attainable answers id :=
  ((x.runs_build id s).settled hsteady (fun _ _ => List.not_mem_nil) hs).2

/-- A project that is valid cannot be built exactly if the own steps of some project of its
link closure, or its own, fail. -/
theorem not_attainable_iff {id : String} {p : Project} {links headers : List String}
    (hp : x.registry.get? id = some p) (hkind : p.kind.isBuildable = true)
    (hlinks : x.registry.linkClosure id = .ok links)
    (hheaders : x.registry.headerClosure id = .ok headers) :
    ¬ x.Attainable answers id ↔
      ∃ q ∈ links ++ [id], ∃ dep, x.registry.get? q = some dep ∧ ¬ x.Succeeds answers dep := by
  constructor
  · intro hnot
    by_contra hall
    refine hnot ⟨p, links, headers, hp, hkind, hlinks, hheaders, fun q hq => ?_⟩
    obtain ⟨dep, hdep⟩ : ∃ dep, x.registry.get? q = some dep := by
      rcases List.mem_append.1 hq with hlink | hown
      · obtain ⟨dep, hdep, -⟩ := (Registry.linkClosure_eq_ok_iff.1 hlinks).2.usable q hlink
        exact ⟨dep, hdep⟩
      · exact ⟨p, by rw [List.mem_singleton.1 hown, hp]⟩
    refine ⟨dep, hdep, ?_⟩
    by_contra hfails
    exact hall ⟨q, hq, dep, hdep, hfails⟩
  · rintro ⟨q, hq, dep, hdep, hfails⟩ ⟨_, found, _, _, _, hfound, _, hall⟩
    rw [hlinks] at hfound
    cases hfound
    obtain ⟨own, hown, hsucceeds⟩ := hall q hq
    rw [hdep] at hown
    cases hown
    exact hfails hsucceeds

/-- Every request to build is answered by a property of the project, whatever was requested
before.  With a backend that always gives the same answers, and after any requests to build:

* building a project succeeds if and only if it is attainable;
* building everything tells so of every project of a known kind;
* a project with a kind and closures that are accepted fails if and only if the own steps
  fail of some project in its link closure, or its own. -/
theorem build_ok_iff_attainable (x : BuildSetup σ) (answers : Answers)
    (hsteady : x.backend.Steady answers) (world : σ) (requests : List Request)
    (hrequests : ∀ request ∈ requests, request.isBuild = true) :
    let s := (x.serveAll requests { world }).2
    (∀ id, ((x.build id).outcome s).1 = .ok () ↔ x.Attainable answers id) ∧
    (x.buildAll s).1.map (·.project) = x.targets ∧
    (∀ outcome ∈ (x.buildAll s).1,
      outcome.result = .ok () ↔ x.Attainable answers outcome.project) ∧
    ∀ id p links headers, x.registry.get? id = some p → p.kind.isBuildable = true →
      x.registry.linkClosure id = .ok links → x.registry.headerClosure id = .ok headers →
      (((x.build id).outcome s).1 ≠ .ok () ↔
        ∃ q ∈ links ++ [id], ∃ dep, x.registry.get? q = some dep ∧
          ¬ x.Succeeds answers dep) := by
  intro s
  have hs : x.Settled answers [] s := by
    refine serveAll_preserves (fun request hmem s hs => ?_) (x.settled_fresh answers world)
    exact serve_preserves_of_isBuild (build_settled hsteady) (hrequests request hmem) hs
  have houtcomes := forall_mem_buildEach
    (fun id result => result = .ok () ↔ x.Attainable answers id)
    (build_settled hsteady) (build_ok_iff hsteady) x.targets hs
  refine ⟨fun id => build_ok_iff hsteady id s hs, map_project_buildEach x.targets s,
    houtcomes, ?_⟩
  intro id p links headers hp hkind hlinks hheaders
  rw [ne_eq, build_ok_iff hsteady id s hs]
  exact not_attainable_iff hp hkind hlinks hheaders

end BuildSetup

/-! ## A sample -/

namespace Sample

/-- The answers of a world in which one library cannot be generated. -/
def answers : Answers where
  perform _ := .ok ()
  generate p :=
    if p.id = "text" then .error (.systemFault .permissionDenied) else .ok ()
  scan _ := .ok []

/-- The sample projects in that world. -/
def tornSetup : BuildSetup Unit where
  registry := registry
  backend := answers.backend

/-- The library that fails takes the application that links it along, and no other. -/
theorem shell_not_attainable :
    tornSetup.Attainable answers "core" ∧ ¬ tornSetup.Attainable answers "shell" := by
  have hiff := (BuildSetup.build_ok_iff_attainable tornSetup answers answers.steady_backend ()
    [.build "core"] (by decide)).1
  have hfails : ((tornSetup.build "shell").outcome
      (tornSetup.serveAll [.build "core"] { world := () }).2).1 =
      .error (.dependencyFailed "shell" "text" (.systemFault .permissionDenied)) := by cbv
  refine ⟨(hiff "core").1 (by cbv), fun hshell => ?_⟩
  rw [(hiff "shell").2 hshell] at hfails
  cases hfails

end Sample

end NativeBuild
