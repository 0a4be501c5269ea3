import NativeBuild.Proofs.Build.Attainable

/-!
# What is entered

With a steady backend, which projects a session comes to build or to fail does not depend on
the order of the requests, although a build stops at the first library that fails and passes
over what was built before.  A project is demanded when a request asks for it, or when a
demanded project goes on to it; and what is demanded is entered sooner or later.

Main definitions:

- `BuildSetup.asked`: the ids that some requests ask for.
- `BuildSetup.GoesOn`: a project that comes to build one of its libraries.
- `BuildSetup.Demanded`: the projects that are entered.
- `BuildSetup.Covered`: a session in which whatever was entered has come as far as it can.

Main results:

- Theorem `Runs.demanded`: a build enters only what is demanded.
- Theorem `Runs.covered`: a build takes what it enters as far as it can.
- Theorem `settled_and_entered`: what is entered is what is demanded.
-/

namespace NativeBuild

/-- The ids that a request asks for. -/
def Request.asked (targets : List String) : Request → List String
  | .build id => [id]
  | .buildAll => targets
  | .clean _ => []
  | .cleanAll => []

namespace BuildSetup

open Build Session

variable {σ : Type} {x : BuildSetup σ} {answers : Answers}

/-! ## Requests to build -/

/-- The ids that some requests ask for, in order. -/
def asked (x : BuildSetup σ) (requests : List Request) : List String :=
  requests.flatMap (·.asked x.targets)

/-- Serving requests to build is building what they ask for. -/
theorem serveAll_eq_buildEach {requests : List Request}
    (hrequests : ∀ request ∈ requests, request.isBuild = true) (s : Session σ) :
    (x.serveAll requests s).2 = (x.buildEach (x.asked requests) s).2 := by
  induction requests generalizing s with
  | nil => rfl
  | cons request rest ih =>
      have hone : (x.serve request s).2 = (x.buildEach (request.asked x.targets) s).2 := by
        have hbuild := hrequests request List.mem_cons_self
        cases request with
        | build id => rfl
        | buildAll => rfl
        | clean id => cases hbuild
        | cleanAll => cases hbuild
      have hrest := ih (fun other hother => hrequests other (List.mem_cons_of_mem _ hother))
        (x.serve request s).2
      rw [asked, List.flatMap_cons, buildEach_append, ← hone]
      exact hrest

/-! ## Demanded projects -/

/-- By the answers, a project is entered when it is called: it is registered, and its
directories can be made. -/
def Enterable (x : BuildSetup σ) (answers : Answers) (id : String) : Prop :=
  ∃ p, x.registry.get? id = some p ∧ answers.perform (.makeDirectory p.objDir) = .ok () ∧
    answers.perform (.makeDirectory p.binDir) = .ok ()

/-- By the answers, a project comes to build one of its libraries: it is accepted, its files
are generated, and the libraries before that one can be built. -/
def GoesOn (x : BuildSetup σ) (answers : Answers) (p : Project) (d : String) : Prop :=
  x.validate p = .ok () ∧ answers.generate p = .ok () ∧
    ∃ before after, p.libs = before ++ d :: after ∧ ∀ b ∈ before, x.Attainable answers b

/-- The projects that are entered when some ids are asked for, by the answers. -/
inductive Demanded (x : BuildSetup σ) (answers : Answers) (ids : List String) : String → Prop
  | asked {id : String} (hid : id ∈ ids) (henter : x.Enterable answers id) :
      Demanded x answers ids id
  | next {p : Project} {d : String} (hp : x.registry.get? p.id = some p)
      (hdemand : Demanded x answers ids p.id) (hnext : x.GoesOn answers p d)
      (henter : x.Enterable answers d) : Demanded x answers ids d

variable {ids : List String}

/-- Only the registered ids that are asked for matter. -/
theorem Demanded.mono {others : List String} {q : String} (h : x.Demanded answers ids q)
    (hsub : ∀ id, x.registry.contains id = true → id ∈ ids → id ∈ others) :
    x.Demanded answers others q := by
  induction h with
  | asked hid henter =>
      obtain ⟨p, hp, hdirs⟩ := henter
      exact .asked (hsub _ (by simp [Registry.contains, hp]) hid) ⟨p, hp, hdirs⟩
  | next hp _ hnext henter ih => exact .next hp ih hnext henter

/-- A task is on demand: a call for what is demanded if it can be entered, the steps of a
demanded project, or the rest of its libraries after some that can be built. -/
def OnDemand (x : BuildSetup σ) (answers : Answers) (ids : List String) : BuildTask → Prop
  | .call id => x.Enterable answers id → x.Demanded answers ids id
  | .steps p => x.registry.get? p.id = some p ∧ x.Demanded answers ids p.id
  | .libraries p rest => (x.registry.get? p.id = some p ∧ x.Demanded answers ids p.id) ∧
      x.validate p = .ok () ∧ answers.generate p = .ok () ∧
      ∃ before, p.libs = before ++ rest ∧ ∀ b ∈ before, x.Attainable answers b

variable {stack : List String} {s t : Session σ} {id : String} {result : Except BuildError Unit}

/-- The libraries of a demanded project are on demand once it is accepted and generated. -/
theorem OnDemand.libraries {p : Project} (h : x.OnDemand answers ids (.steps p))
    (hvalid : x.validate p = .ok ()) (hgen : answers.generate p = .ok ()) :
    x.OnDemand answers ids (.libraries p p.libs) :=
  ⟨h, hvalid, hgen, [], rfl, by simp⟩

/-- The first of some libraries on demand is on demand. -/
theorem OnDemand.first {p : Project} {rest : List String}
    (h : x.OnDemand answers ids (.libraries p (id :: rest))) :
    x.OnDemand answers ids (.call id) := by
  obtain ⟨⟨hp, hdemand⟩, hvalid, hgen, before, hlibs, hall⟩ := h
  exact fun henter => .next hp hdemand ⟨hvalid, hgen, before, rest, hlibs, hall⟩ henter

/-- The others are on demand once the first can be built. -/
theorem OnDemand.rest {p : Project} {rest : List String}
    (h : x.OnDemand answers ids (.libraries p (id :: rest))) (hid : x.Attainable answers id) :
    x.OnDemand answers ids (.libraries p rest) := by
  obtain ⟨hown, hvalid, hgen, before, hlibs, hall⟩ := h
  refine ⟨hown, hvalid, hgen, before ++ [id], by simp [hlibs], fun b hb => ?_⟩
  rcases List.mem_append.1 hb with hb | hb
  · exact hall b hb
  · rwa [List.mem_singleton.1 hb]

end BuildSetup

/-! ## Entered projects -/

namespace Session

variable {σ : Type} {s t : Session σ} {φ : String → Prop} {id : String}

/-- Only projects with the property were entered. -/
def Only (φ : String → Prop) (s : Session σ) : Prop :=
  ∀ q, s.states q ≠ .notBuilt → φ q

/-- Only the states matter for which projects were entered. -/
theorem Only.of_states (h : Only φ s) (hstates : t.states = s.states) : Only φ t := by
  unfold Only
  rwa [hstates]

/-- A project with the property may have any state. -/
theorem Only.setState (h : Only φ s) (hid : φ id) (state : BuildState) :
    Only φ (s.setState id state) := by
  intro q hq
  by_cases heq : q = id
  · exact heq ▸ hid
  · exact h q (by simpa [heq] using hq)

end Session

namespace BuildSetup

open Build Session

variable {σ : Type} {x : BuildSetup σ} {answers : Answers} {ids stack : List String}
  {s t : Session σ} {id : String} {result : Except BuildError Unit}

/-- A library that was built without an error is attainable. -/
theorem Runs.attainable_of_ok (hsteady : x.backend.Steady answers)
    (h : x.Runs stack (.call id) s (.ok ()) t) (hid : id ∉ stack)
    (hs : x.Settled answers stack s) : x.Attainable answers id :=
  (h.settled hsteady (fun d hd => by cases hd; exact hid) hs).2.1 rfl

/-- A call keeps a session settled. -/
theorem Runs.settled_of_call (hsteady : x.backend.Steady answers)
    (h : x.Runs stack (.call id) s result t) (hid : id ∉ stack)
    (hs : x.Settled answers stack s) : x.Settled answers stack t :=
  (h.settled hsteady (fun d hd => by cases hd; exact hid) hs).1

/-- A task on demand, below the projects that are being built, enters only what is demanded. -/
theorem Runs.demanded (hsteady : x.backend.Steady answers) {task : BuildTask}
    (h : x.Runs stack task s result t) (hsettled : x.Settled answers (task.inside stack) s)
    (htask : x.OnDemand answers ids task) (hs : Only (x.Demanded answers ids) s) :
    Only (x.Demanded answers ids) t := by
  induction h with
  | unknown hid => exact hs
  | blocked hp hdirs =>
      have hsame := states_entered hdirs
      exact hs.of_states hsame
  | reused hp hdirs hstate =>
      have hsame := states_entered hdirs
      exact hs.of_states hsame
  | refused hp hdirs hstate =>
      have hsame := states_entered hdirs
      exact hs.of_states hsame
  | @succeeded stack p s t u hp hdirs hstate hsteps ih =>
      have hsame := states_entered hdirs
      have hdemand := htask ⟨p, hp, ((okIff_makeDirectories hsteady p).of_outcome hdirs).1 rfl⟩
      exact ih ((hsettled.of_states hsame).push p.id) ⟨hp, hdemand⟩ (hs.of_states hsame)
  | @failed stack p s t u e hp hdirs hstate hsteps ih =>
      have hsame := states_entered hdirs
      have hdemand := htask ⟨p, hp, ((okIff_makeDirectories hsteady p).of_outcome hdirs).1 rfl⟩
      have hu := ih ((hsettled.of_states hsame).push p.id) ⟨hp, hdemand⟩ (hs.of_states hsame)
      exact (hu.setState hdemand .failed).of_states rfl
  | invalid hvalid => exact hs
  | ungenerated hvalid hgen => exact hs.of_states (states_generate hgen)
  | @interrupted stack p s t u e hvalid hgen hlibs ih =>
      have hsame := states_generate hgen
      have hgenerated := ((okIff_generate hsteady p).of_outcome hgen).1 rfl
      exact ih ((hsettled.of_states hsame).setState .built) (htask.libraries hvalid hgenerated)
        ((hs.of_states hsame).setState htask.2 .built)
  | @produced stack p s t u v result hvalid hgen hlibs hown ih =>
      have hsame := states_generate hgen
      have hgenerated := ((okIff_generate hsteady p).of_outcome hgen).1 rfl
      have hu := ih ((hsettled.of_states hsame).setState .built)
        (htask.libraries hvalid hgenerated) ((hs.of_states hsame).setState htask.2 .built)
      exact hu.of_states (states_produce hown)
  | noLibrary => exact hs
  | nextLibrary hid hfirst hrest ihfirst ihrest =>
      have hattain := hfirst.attainable_of_ok hsteady hid hsettled
      exact ihrest (hfirst.settled_of_call hsteady hid hsettled) (htask.rest hattain)
        (ihfirst hsettled htask.first hs)
  | lostLibrary hid hfirst ih => exact ih hsettled htask.first hs

/-! ## Covered sessions -/

/-- A call enters its project if that can be entered. -/
theorem Runs.enters (hsteady : x.backend.Steady answers) (h : x.Runs stack (.call id) s result t)
    (hid : x.Enterable answers id) : t.states id ≠ .notBuilt := by
  obtain ⟨q, hq, hmade⟩ := hid
  cases h with
  | unknown hunknown =>
      rw [hunknown] at hq
      cases hq
  | blocked hp hdirs =>
      rw [hp] at hq
      cases hq
      cases ((okIff_makeDirectories hsteady _).of_outcome hdirs).2 hmade
  | reused hp hdirs hstate => simp [hstate]
  | refused hp hdirs hstate => simp [hstate]
  | succeeded hp hdirs hstate hsteps => simp [hsteps.built_of_steps]
  | failed hp hdirs hstate hsteps => simp

/-- What was entered stays so. -/
theorem Runs.stays_entered {p : Project} {rest : List String}
    (h : x.Runs stack (.libraries p rest) s result t) (hid : s.states id ≠ .notBuilt) :
    t.states id ≠ .notBuilt := by
  obtain ⟨⟨done, hdone⟩, -⟩ := h.advances
  have hsame : t.states id = s.states id := hdone.kept id hid
  rwa [hsame]

/-- Of some libraries, each is entered, if it can be, when those before it can be built. -/
theorem Runs.enters_library (hsteady : x.backend.Steady answers) {p : Project}
    {before after : List String} {d : String}
    (h : x.Runs stack (.libraries p (before ++ d :: after)) s result t)
    (hsettled : x.Settled answers stack s) (hbefore : ∀ b ∈ before, x.Attainable answers b)
    (hd : x.Enterable answers d) : t.states d ≠ .notBuilt := by
  induction before generalizing s with
  | nil =>
      cases h with
      | nextLibrary hid hfirst hrest => exact hrest.stays_entered (hfirst.enters hsteady hd)
      | lostLibrary hid hfirst => exact hfirst.enters hsteady hd
  | cons b rest ih =>
      cases h with
      | nextLibrary hid hfirst hrest =>
          exact ih hrest (hfirst.settled_of_call hsteady hid hsettled)
            fun other hother => hbefore other (List.mem_cons_of_mem _ hother)
      | lostLibrary hid hfirst =>
          have hpossible : x.Possible answers (.call b) := hbefore b List.mem_cons_self
          cases (hfirst.settled hsteady (fun d hd => by cases hd; exact hid) hsettled).2.2 hpossible

/-- The steps of a project enter all that it goes on to. -/
theorem Runs.enters_of_steps (hsteady : x.backend.Steady answers) {p : Project} {d : String}
    (h : x.Runs stack (.steps p) s result t) (hsettled : x.Settled answers (p.id :: stack) s)
    (hnext : x.GoesOn answers p d) (hd : x.Enterable answers d) : t.states d ≠ .notBuilt := by
  obtain ⟨hvalid, hgenerated, before, after, hlibs, hbefore⟩ := hnext
  cases h with
  | invalid hinvalid => cases hinvalid.symm.trans hvalid
  | ungenerated _ hgen => cases ((okIff_generate hsteady p).of_outcome hgen).2 hgenerated
  | interrupted _ hgen hrun =>
      have hsame := states_generate hgen
      rw [hlibs] at hrun
      exact hrun.enters_library hsteady ((hsettled.of_states hsame).setState .built) hbefore hd
  | produced _ hgen hrun hown =>
      have hsame := states_generate hgen
      rw [hlibs] at hrun
      rw [states_produce hown]
      exact hrun.enters_library hsteady ((hsettled.of_states hsame).setState .built) hbefore hd

/-- Whatever was entered and is not being built has come as far as it can: what it goes on to
was entered as well. -/
def Covered (x : BuildSetup σ) (answers : Answers) (stack : List String) (s : Session σ) : Prop :=
  ∀ p, x.registry.get? p.id = some p → p.id ∉ stack → s.states p.id ≠ .notBuilt →
    ∀ d, x.GoesOn answers p d → x.Enterable answers d → s.states d ≠ .notBuilt

/-- In a fresh session nothing was entered. -/
theorem covered_fresh (x : BuildSetup σ) (answers : Answers) (world : σ) :
    x.Covered answers [] { world } := by
  intro p _ _ hp
  exact absurd rfl hp

/-- Only the states matter for what was entered. -/
theorem Covered.of_states (h : x.Covered answers stack s) (hstates : t.states = s.states) :
    x.Covered answers stack t := by
  unfold Covered
  rwa [hstates]

/-- One more project may run. -/
theorem Covered.push (h : x.Covered answers stack s) (id : String) :
    x.Covered answers (id :: stack) s :=
  fun p hp hnot => h p hp fun hmem => hnot (List.mem_cons_of_mem _ hmem)

/-- A project that is being built may be entered. -/
theorem Covered.setState (h : x.Covered answers (id :: stack) s) (state : BuildState)
    (hstate : state ≠ .notBuilt) : x.Covered answers (id :: stack) (s.setState id state) := by
  intro p hp hnot hentered d hnext hd
  have hne : p.id ≠ id := by
    rintro rfl
    exact hnot List.mem_cons_self
  rw [states_setState_other s state hne] at hentered
  by_cases heq : d = id
  · simpa [heq] using hstate
  · simpa [heq] using h p hp hnot hentered d hnext hd

/-- A project may end when all that it goes on to was entered. -/
theorem Covered.pop {p : Project} (h : x.Covered answers (p.id :: stack) s)
    (hp : x.registry.get? p.id = some p)
    (hown : ∀ d, x.GoesOn answers p d → x.Enterable answers d → s.states d ≠ .notBuilt) :
    x.Covered answers stack s := by
  intro q hq hnot hentered
  by_cases heq : q.id = p.id
  · rw [heq, hp] at hq
    cases hq
    exact hown
  · exact h q hq (by simp [heq, hnot]) hentered

/-- A task takes what it enters as far as it can. -/
theorem Runs.covered (hsteady : x.backend.Steady answers) {task : BuildTask}
    (h : x.Runs stack task s result t) (hsettled : x.Settled answers (task.inside stack) s)
    (hs : x.Covered answers (task.inside stack) s) : x.Covered answers (task.inside stack) t := by
  induction h with
  | unknown hid => exact hs
  | blocked hp hdirs =>
      have hsame := states_entered hdirs
      exact hs.of_states hsame
  | reused hp hdirs hstate =>
      have hsame := states_entered hdirs
      exact hs.of_states hsame
  | refused hp hdirs hstate =>
      have hsame := states_entered hdirs
      exact hs.of_states hsame
  | @succeeded stack p s t u hp hdirs hstate hsteps ih =>
      have hsame := states_entered hdirs
      have ht := (hsettled.of_states hsame).push p.id
      have hu := ih ht ((hs.of_states hsame).push p.id)
      exact hu.pop hp fun d hnext hd => hsteps.enters_of_steps hsteady ht hnext hd
  | @failed stack p s t u e hp hdirs hstate hsteps ih =>
      have hsame := states_entered hdirs
      have ht := (hsettled.of_states hsame).push p.id
      have hu := (ih ht ((hs.of_states hsame).push p.id)).setState .failed (by simp)
      refine hu.pop hp fun d hnext hd => ?_
      have hentered := hsteps.enters_of_steps hsteady ht hnext hd
      by_cases heq : d = p.id
      · simp [heq]
      · simpa [heq] using hentered
  | invalid hvalid => exact hs
  | ungenerated hvalid hgen => exact hs.of_states (states_generate hgen)
  | interrupted hvalid hgen hlibs ih =>
      have hsame := states_generate hgen
      exact ih ((hsettled.of_states hsame).setState .built)
        ((hs.of_states hsame).setState .built (by simp))
  | produced hvalid hgen hlibs hown ih =>
      have hsame := states_generate hgen
      have hu := ih ((hsettled.of_states hsame).setState .built)
        ((hs.of_states hsame).setState .built (by simp))
      exact hu.of_states (states_produce hown)
  | noLibrary => exact hs
  | nextLibrary hid hfirst hrest ihfirst ihrest =>
      exact ihrest (hfirst.settled_of_call hsteady hid hsettled) (ihfirst hsettled hs)
  | lostLibrary hid hfirst ih => exact ih hsettled hs

/-! ## What is entered -/

/-- Whatever is asked for is entered if it can be. -/
theorem entered_of_mem (hsteady : x.backend.Steady answers) (hid : id ∈ ids)
    (henter : x.Enterable answers id) (s : Session σ) :
    (x.buildEach ids s).2.states id ≠ .notBuilt := by
  induction ids generalizing s with
  | nil => cases hid
  | cons other rest ih =>
      rcases List.mem_cons.1 hid with rfl | hid
      · have hfirst := (x.runs_build id s).enters hsteady henter
        refine buildEach_preserves (I := fun t => t.states id ≠ .notBuilt) (fun other t ht => ?_)
          rest hfirst
        rwa [states_build_of_settled other t ht]
      · exact ih hid _

/-- From a fresh session, building some ids enters what is demanded and nothing else, and
leaves a settled session. -/
theorem settled_and_entered (hsteady : x.backend.Steady answers) (world : σ)
    (ids : List String) :
    x.Settled answers [] (x.buildEach ids { world }).2 ∧
      ∀ q, (x.buildEach ids { world }).2.states q ≠ .notBuilt ↔ x.Demanded answers ids q := by
  obtain ⟨hsettled, honly, hcovered⟩ :
      x.Settled answers [] (x.buildEach ids { world }).2 ∧
        Only (x.Demanded answers ids) (x.buildEach ids { world }).2 ∧
        x.Covered answers [] (x.buildEach ids { world }).2 := by
    refine buildEach_preserves_of_mem (I := fun s => x.Settled answers [] s ∧
      Only (x.Demanded answers ids) s ∧ x.Covered answers [] s) (fun id hid s hs => ?_)
      ⟨x.settled_fresh answers world, fun q hq => absurd rfl hq, x.covered_fresh answers world⟩
    obtain ⟨hsettled, honly, hcovered⟩ := hs
    have hrun := x.runs_build id s
    exact ⟨hrun.settled_of_call hsteady List.not_mem_nil hsettled,
      hrun.demanded hsteady hsettled (fun henter => .asked hid henter) honly,
      hrun.covered hsteady hsettled hcovered⟩
  refine ⟨hsettled, fun q => ⟨honly q, fun hq => ?_⟩⟩
  induction hq with
  | asked hid henter => exact entered_of_mem hsteady hid henter { world }
  | next hp _ hnext henter ih => exact hcovered _ hp List.not_mem_nil ih _ hnext henter

/-- Settled sessions in which the same projects were entered have the same states. -/
theorem Settled.states_eq (hs : x.Settled answers [] s) (ht : x.Settled answers [] t)
    {q : String} (hentered : s.states q ≠ .notBuilt ↔ t.states q ≠ .notBuilt) :
    s.states q = t.states q := by
  obtain ⟨hsbuilt, hsfailed⟩ := hs q List.not_mem_nil
  obtain ⟨htbuilt, htfailed⟩ := ht q List.not_mem_nil
  cases hsq : s.states q <;> cases htq : t.states q <;> simp_all

end BuildSetup

end NativeBuild
