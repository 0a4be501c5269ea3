import NativeBuild.Proofs.Build.Derivation

/-!
# Nested builds

While a project is built, its libraries are built by nested calls.  A nested call does what
a call from outside does in the same session: neither the depth to which it may go nor the
projects above it matter, because a derivation is determined by its task and its session.

Main definitions:

- `Session.ended`: the session after the steps of a project, by their outcome.
- `BuildSetup.Nested`: a call that is made while a task goes on, with its session.

Main results:

- Theorem `Runs.unique`: a task and a session determine the outcome.
- Theorems `Runs.outcome_build` and `Runs.outcome_buildLibraries`: a nested call is a build.
-/

namespace NativeBuild

/-- The session after the steps of a project, by their outcome. -/
def Session.ended {σ : Type} (s : Session σ) (id : String) :
    Except BuildError Unit → Session σ
  | .ok _ => s.succeed id
  | .error _ => s.fail id

namespace BuildSetup

open Build Session

variable {σ : Type} {x : BuildSetup σ} {stack : List String} {s t : Session σ}
  {result : Except BuildError Unit}

/-! ## Calls by their first steps -/

/-- A call for an unknown id does nothing. -/
theorem Runs.of_unknown {id : String} (h : x.Runs stack (.call id) s result t)
    (hid : x.registry.get? id = none) :
    result = .error (.projectNotFound id) ∧ t = (s.record (.entered id)).record (.left id) := by
  generalize htask : BuildTask.call id = task at h
  cases h with
  | unknown _ =>
      cases htask
      exact ⟨rfl, rfl⟩
  | blocked hp => rw [← BuildTask.call.inj htask, hid] at hp; cases hp
  | reused hp => rw [← BuildTask.call.inj htask, hid] at hp; cases hp
  | refused hp => rw [← BuildTask.call.inj htask, hid] at hp; cases hp
  | succeeded hp => rw [← BuildTask.call.inj htask, hid] at hp; cases hp
  | failed hp => rw [← BuildTask.call.inj htask, hid] at hp; cases hp
  | _ => cases htask

/-- What the call for a registered project does, by the making of its directories and then by
its state. -/
def CallOutcome (x : BuildSetup σ) (stack : List String) (p : Project)
    (result : Except BuildError Unit) (t : Session σ) : Except BuildError Unit × Session σ → Prop
  | (.error e, u) => result = .error e ∧ t = u.record (.left p.id)
  | (.ok _, u) =>
    match u.states p.id with
    | .built => result = .ok () ∧ t = (u.record (.reused p.id)).record (.left p.id)
    | .failed => result = .error (.previouslyFailed p.id) ∧ t = u.record (.left p.id)
    | .notBuilt => ∃ v, x.Runs stack (.steps p) u result v ∧
        t = (v.ended p.id result).record (.left p.id)

/-- All that the call for a registered project can do. -/
theorem Runs.callOutcome {p : Project} (h : x.Runs stack (.call p.id) s result t)
    (hp : x.registry.get? p.id = some p) :
    x.CallOutcome stack p result t ((x.makeDirectories p).outcome (s.record (.entered p.id))) := by
  generalize htask : BuildTask.call p.id = task at h
  -- The project of each rule is the given one.
  have hsame : ∀ {q : Project}, BuildTask.call p.id = .call q.id →
      x.registry.get? q.id = some q → q = p := by
    intro q hcall hq
    rw [← BuildTask.call.inj hcall, hp] at hq
    cases hq
    rfl
  cases h with
  | unknown hid =>
      rw [← BuildTask.call.inj htask, hp] at hid
      cases hid
  | blocked hq hdirs =>
      obtain rfl := hsame htask hq
      rw [hdirs]
      exact ⟨rfl, rfl⟩
  | reused hq hdirs hstate =>
      obtain rfl := hsame htask hq
      simp [hdirs, CallOutcome, hstate]
  | refused hq hdirs hstate =>
      obtain rfl := hsame htask hq
      simp [hdirs, CallOutcome, hstate]
  | succeeded hq hdirs hstate hsteps =>
      obtain rfl := hsame htask hq
      simp only [hdirs, CallOutcome, hstate]
      exact ⟨_, hsteps, rfl⟩
  | failed hq hdirs hstate hsteps =>
      obtain rfl := hsame htask hq
      simp only [hdirs, CallOutcome, hstate]
      exact ⟨_, hsteps, rfl⟩
  | _ => cases htask

/-! ## Derivations are unique -/

/-- A task and a session determine the outcome and the session after it. -/
theorem Runs.unique {stack' : List String} {task : BuildTask} {t' : Session σ}
    {result' : Except BuildError Unit} (h : x.Runs stack task s result t)
    (h' : x.Runs stack' task s result' t') : result' = result ∧ t' = t := by
  induction h generalizing stack' result' t' with
  | unknown hid => exact h'.of_unknown hid
  | blocked hp hdirs =>
      have hcall := h'.callOutcome hp
      rwa [hdirs] at hcall
  | reused hp hdirs hstate =>
      have hcall := h'.callOutcome hp
      simpa only [hdirs, CallOutcome, hstate] using hcall
  | refused hp hdirs hstate =>
      have hcall := h'.callOutcome hp
      simpa only [hdirs, CallOutcome, hstate] using hcall
  | succeeded hp hdirs hstate hsteps ih =>
      have hcall := h'.callOutcome hp
      simp only [hdirs, CallOutcome, hstate] at hcall
      obtain ⟨v, hv, rfl⟩ := hcall
      obtain ⟨rfl, rfl⟩ := ih hv
      exact ⟨rfl, rfl⟩
  | failed hp hdirs hstate hsteps ih =>
      have hcall := h'.callOutcome hp
      simp only [hdirs, CallOutcome, hstate] at hcall
      obtain ⟨v, hv, rfl⟩ := hcall
      obtain ⟨rfl, rfl⟩ := ih hv
      exact ⟨rfl, rfl⟩
  | invalid hvalid =>
      cases h' with
      | invalid hvalid' =>
          cases hvalid.symm.trans hvalid'
          exact ⟨rfl, rfl⟩
      | ungenerated hvalid' => cases hvalid.symm.trans hvalid'
      | interrupted hvalid' => cases hvalid.symm.trans hvalid'
      | produced hvalid' => cases hvalid.symm.trans hvalid'
  | ungenerated hvalid hgen =>
      cases h' with
      | invalid hvalid' => cases hvalid.symm.trans hvalid'
      | ungenerated _ hgen' =>
          cases hgen.symm.trans hgen'
          exact ⟨rfl, rfl⟩
      | interrupted _ hgen' => cases hgen.symm.trans hgen'
      | produced _ hgen' => cases hgen.symm.trans hgen'
  | interrupted hvalid hgen hlibs ih =>
      cases h' with
      | invalid hvalid' => cases hvalid.symm.trans hvalid'
      | ungenerated _ hgen' => cases hgen.symm.trans hgen'
      | interrupted _ hgen' hlibs' =>
          cases hgen.symm.trans hgen'
          exact ih hlibs'
      | produced _ hgen' hlibs' =>
          cases hgen.symm.trans hgen'
          obtain ⟨hresult, -⟩ := ih hlibs'
          cases hresult
  | produced hvalid hgen hlibs hown ih =>
      cases h' with
      | invalid hvalid' => cases hvalid.symm.trans hvalid'
      | ungenerated _ hgen' => cases hgen.symm.trans hgen'
      | interrupted _ hgen' hlibs' =>
          cases hgen.symm.trans hgen'
          obtain ⟨hresult, -⟩ := ih hlibs'
          cases hresult
      | produced _ hgen' hlibs' hown' =>
          cases hgen.symm.trans hgen'
          obtain ⟨-, rfl⟩ := ih hlibs'
          cases hown.symm.trans hown'
          exact ⟨rfl, rfl⟩
  | noLibrary =>
      cases h'
      exact ⟨rfl, rfl⟩
  | nextLibrary hid hfirst hrest ihfirst ihrest =>
      cases h' with
      | nextLibrary _ hfirst' hrest' =>
          obtain ⟨-, rfl⟩ := ihfirst hfirst'
          exact ihrest hrest'
      | lostLibrary _ hfirst' =>
          obtain ⟨hresult, -⟩ := ihfirst hfirst'
          cases hresult
  | lostLibrary hid hfirst ih =>
      cases h' with
      | nextLibrary _ hfirst' hrest' =>
          obtain ⟨hresult, -⟩ := ih hfirst'
          cases hresult
      | lostLibrary _ hfirst' =>
          obtain ⟨hresult, rfl⟩ := ih hfirst'
          cases hresult
          exact ⟨rfl, rfl⟩

/-- A call below other projects is a build of its own. -/
theorem Runs.outcome_build {id : String} (h : x.Runs stack (.call id) s result t) :
    (x.build id).outcome s = (result, t) := by
  obtain ⟨hresult, hsession⟩ := h.unique (x.runs_build id s)
  exact Prod.ext hresult hsession

/-- Libraries are built by calls from outside, one after another. -/
theorem Runs.outcome_buildLibraries {p : Project} {ids : List String}
    (h : x.Runs stack (.libraries p ids) s result t) :
    (buildLibraries x.build p ids).outcome s = (result, t) := by
  induction ids generalizing s with
  | nil =>
      cases h
      rfl
  | cons id rest ih =>
      have hwrap := outcome_wrap (.dependencyFailed p.id id) (x.build id) s
      rw [buildLibraries]
      cases h with
      | nextLibrary _ hfirst hrest =>
          rw [hfirst.outcome_build] at hwrap
          rw [outcome_bind_of_ok hwrap, ih hrest]
      | lostLibrary _ hfirst =>
          rw [hfirst.outcome_build] at hwrap
          rw [outcome_bind_of_error hwrap]

/-! ## Calls within calls -/

/-- While a task goes on from a session, an id is called from another session: the call
itself, or one for a library after the libraries before it were built. -/
inductive Nested (x : BuildSetup σ) : BuildTask → Session σ → String → Session σ → Prop
  | here {id : String} {s : Session σ} : Nested x (.call id) s id s
  | steps {p : Project} {id : String} {s t u : Session σ} (hp : x.registry.get? p.id = some p)
      (hdirs : (x.makeDirectories p).outcome (s.record (.entered p.id)) = (.ok (), t))
      (hstate : t.states p.id = .notBuilt) (h : Nested x (.steps p) t id u) :
      Nested x (.call p.id) s id u
  | libraries {p : Project} {id : String} {s t u : Session σ} (hvalid : x.validate p = .ok ())
      (hgen : (x.generate p).outcome s = (.ok (), t))
      (h : Nested x (.libraries p p.libs) (t.setState p.id .built) id u) :
      Nested x (.steps p) s id u
  | first {p : Project} {d id : String} {rest : List String} {s u : Session σ}
      (h : Nested x (.call d) s id u) : Nested x (.libraries p (d :: rest)) s id u
  | rest {p : Project} {d id : String} {rest : List String} {s t u : Session σ}
      (hfirst : (x.build d).outcome s = (.ok (), t)) (h : Nested x (.libraries p rest) t id u) :
      Nested x (.libraries p (d :: rest)) s id u

/-- What is called within the later libraries is called within all of them, once the earlier
ones are built. -/
theorem Nested.after {p : Project} {before rest : List String} {id : String} {u w : Session σ}
    (hbefore : x.Runs stack (.libraries p before) s (.ok ()) u)
    (h : x.Nested (.libraries p rest) u id w) :
    x.Nested (.libraries p (before ++ rest)) s id w := by
  induction before generalizing s with
  | nil =>
      cases hbefore
      exact h
  | cons d others ih =>
      cases hbefore with
      | nextLibrary hid hfirst hothers => exact .rest hfirst.outcome_build (ih hothers)

end BuildSetup

end NativeBuild
