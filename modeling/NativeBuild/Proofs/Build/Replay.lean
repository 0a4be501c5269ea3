import NativeBuild.Proofs.Build.Execution
import NativeBuild.Proofs.Build.Invariant

/-!
# Replaying a trace

Only the backend changes the world, and the trace shows what it was asked.  So the world of a
session is that of its trace: carried out once more from the first world on, what the trace shows
leads to it.  That tells in which world a project was scanned and its plan was carried out.

Main definitions:

- `BuildSetup.worldAfter`: the world after all that a trace shows.
- `BuildSetup.Replayed`: a session whose world is that of its trace.
- `BuildSetup.Carried`: a trace that ends with a plan that was carried out, in the world of the
  trace before it.

Main results:

- Theorem `stepInvariant_replayed`: every step of a build keeps a session replayed.
- Theorem `serveAll_replayed`: so does any run of requests.
- Theorem `Runs.carried`: steps that succeed end with a plan that was carried out.
-/

namespace NativeBuild

/-! ## Worlds of a trace -/

/-- The world after an action, whether it succeeds or fails. -/
def worldOf {σ α : Type} (action : EStateM BuildError σ α) (world : σ) : σ :=
  match action world with
  | .ok _ after => after
  | .error _ after => after

namespace BuildSetup

variable {σ : Type}

/-- The world after what an entry shows: the backend is asked the same once more. -/
def worldAfterEntry (x : BuildSetup σ) (world : σ) : TraceEntry → σ
  | .call _ call => worldOf (x.backend.perform call) world
  | .generate id =>
    match x.registry.get? id with
    | some p => worldOf (x.backend.generate p) world
    | none => world
  | .scan id =>
    match x.registry.get? id with
    | some p => worldOf (x.backend.scan p.sourceDir) world
    | none => world
  | _ => world

/-- The world after all that a trace shows, from the first world on. -/
def worldAfter (x : BuildSetup σ) (start : σ) (trace : List TraceEntry) : σ :=
  trace.foldl x.worldAfterEntry start

/-- The world of a session is that of its trace. -/
def Replayed (x : BuildSetup σ) (start : σ) (s : Session σ) : Prop :=
  s.world = x.worldAfter start s.trace

/-- What a trace shows ends with a plan of the project that was carried out: in the world that
what was shown before leads to, the project was scanned and planned for the sources that are
there, and from the world after that all calls of the plan succeeded, in their order. -/
def Carried (x : BuildSetup σ) (start : σ) (p : Project) (trace : List TraceEntry) : Prop :=
  ∃ earlier output sources plan world, p.output? = some output ∧
    x.backend.scan p.sourceDir (x.worldAfter start earlier) = .ok sources world ∧
    x.registry.planWith p output sources = .ok plan ∧ p.kind ≠ .loadable ∧
    (x.backend.run (x.planCalls p plan) world).failure = none ∧
    trace = earlier ++ .scan p.id :: x.script p plan

variable {x : BuildSetup σ} {start : σ} {s t : Session σ}

@[simp] theorem worldAfter_concat (x : BuildSetup σ) (start : σ) (trace : List TraceEntry)
    (entry : TraceEntry) :
    x.worldAfter start (trace ++ [entry]) = x.worldAfterEntry (x.worldAfter start trace) entry := by
  simp [worldAfter]

/-- A fresh session is replayed. -/
theorem replayed_fresh (x : BuildSetup σ) (start : σ) : x.Replayed start { world := start } :=
  rfl

/-! ## Steps of a build -/

open Build Session

/-- One more entry, with what it does to the world. -/
theorem Replayed.concat {entry : TraceEntry} (h : x.Replayed start s)
    (htrace : t.trace = s.trace ++ [entry]) (hworld : t.world = x.worldAfterEntry s.world entry) :
    x.Replayed start t := by
  rw [Replayed, htrace, worldAfter_concat, ← h, hworld]

/-- What the backend is asked keeps a session replayed, if the entry shows it. -/
theorem keeps_replayed_act {α : Type} {entry : TraceEntry} {action : EStateM BuildError σ α}
    (h : ∀ world, x.worldAfterEntry world entry = worldOf action world) :
    Keeps (x.Replayed start) (act entry action) := by
  intro s hs
  refine hs.concat (trace_outcome_act entry action s) ?_
  rw [h]
  simp only [outcome, act, answer, worldOf]
  cases hanswer : action s.world <;> simp [Session.record, hanswer]

/-- A call keeps a session replayed. -/
theorem keeps_replayed_perform (id : String) (call : ToolCall) :
    Keeps (x.Replayed start) (x.perform id call) :=
  keeps_replayed_act fun _ => rfl

variable {p : Project} {result : Except BuildError Unit}

/-- Making the directories of a project keeps a session replayed. -/
theorem Replayed.directories (h : x.Replayed start s)
    (hdirs : (x.makeDirectories p).outcome s = (result, t)) : x.Replayed start t :=
  (keeps_makeDirectories fun _ => keeps_replayed_perform p.id _).of_outcome hdirs h

/-- Generating the files of a registered project keeps a session replayed. -/
theorem Replayed.generated (h : x.Replayed start s) (hp : x.registry.get? p.id = some p)
    (hgen : (x.generate p).outcome s = (result, t)) : x.Replayed start t := by
  have hgenerate : Keeps (x.Replayed start) (x.generate p) :=
    keeps_replayed_act fun _ => by simp [worldAfterEntry, hp]
  exact hgenerate.of_outcome hgen h

/-- The production of a registered project keeps a session replayed. -/
theorem Replayed.produced (h : x.Replayed start s) (hp : x.registry.get? p.id = some p)
    (hown : (x.produce p).outcome s = (result, t)) : x.Replayed start t := by
  have hproduce : Keeps (x.Replayed start) (x.produce p) := by
    refine keeps_produce (fun _ => keeps_replayed_perform p.id _) ?_ ?_ ?_
    · exact keeps_replayed_act fun _ => by simp [worldAfterEntry, hp]
    · exact fun _ _ hs => hs.concat rfl rfl
    · exact fun _ _ _ hs => hs.concat rfl rfl
  exact hproduce.of_outcome hown h

/-- Every step of a build keeps a session replayed. -/
theorem stepInvariant_replayed (x : BuildSetup σ) (start : σ) :
    x.StepInvariant fun _ _ s => x.Replayed start s where
  entered h _ := h.concat rfl rfl
  left h := h.concat rfl rfl
  directories h hdirs := h.directories hdirs
  reused h _ _ := h.concat rfl rfl
  begun h _ _ _ := h
  generated h hp hgen := h.generated hp hgen
  marked h := h
  produced h hp _ hown := h.produced hp hown
  succeeded _ h _ _ _ := h.concat rfl rfl
  failed h _ _ := h.concat rfl rfl

/-! ## Runs -/

/-- Forgetting a project does nothing to the world. -/
theorem Replayed.of_forget {id : String} (h : x.Replayed start (s.forget id)) :
    x.Replayed start s := by
  rw [Replayed, trace_forget, worldAfter_concat] at h
  exact h

/-- Cleaning keeps a session replayed. -/
theorem clean_replayed (id : String) (s : Session σ) (hs : x.Replayed start s) :
    x.Replayed start ((x.clean id).outcome s).2 := by
  have hclean : Keeps (x.Replayed start) (x.clean id) := by
    refine keeps_bind (keeps_give _) fun p => ?_
    refine keeps_bind (keeps_replayed_perform p.id _) fun _ => ?_
    refine keeps_bind (keeps_replayed_perform p.id _) fun _ => ?_
    exact fun _ hs => hs.concat rfl rfl
  exact hclean s hs

/-- Any run of requests leaves the world that its trace leads to. -/
theorem serveAll_replayed (x : BuildSetup σ) (start : σ) (requests : List Request) :
    x.Replayed start (x.serveAll requests { world := start }).2 :=
  serveAll_preserves (fun request _ _ =>
    serve_preserves (x.stepInvariant_replayed start).build clean_replayed request)
    (x.replayed_fresh start)

/-! ## Plans that were carried out -/

/-- A project that is produced has carried out a plan. -/
theorem carried_of_produce (hs : x.Replayed start s)
    (h : (x.produce p).outcome s = (.ok (), t)) : x.Carried start p t.trace := by
  obtain ⟨plan, planned, hplan, hrest⟩ := outcome_bind_eq_ok h
  obtain ⟨output, sources, houtput, hscan, hplanned⟩ := x.scan_of_plan p hplan
  obtain ⟨-, -, hsame, -⟩ := Registry.planWith_eq_ok hplanned
  obtain ⟨count, -, hexecution⟩ := x.outcome_carryOut (hsame ▸ houtput) hrest
  obtain ⟨hcalls, hkind⟩ := hexecution.ok_iff.1 rfl
  have htrace : planned.trace = s.trace ++ [.scan p.id] := by
    obtain ⟨done, -, hdone, hall⟩ := x.follows_plan p s
    rw [hplan] at hdone hall
    rw [hdone, hall plan rfl]
  obtain ⟨done, -, hdone, hall⟩ := x.follows_carryOut p plan planned
  rw [hrest] at hdone hall
  refine ⟨s.trace, output, sources, plan, planned.world, houtput, hs ▸ hscan, hplanned, hkind,
    hcalls, ?_⟩
  rw [hdone, hall () rfl, htrace, List.append_assoc, List.singleton_append]

/-- Steps that succeed end with a plan that was carried out. -/
theorem Runs.carried {stack : List String} (h : x.Runs stack (.steps p) s (.ok ()) t)
    (hp : x.registry.get? p.id = some p) (hs : x.Replayed start s) :
    x.Carried start p t.trace := by
  cases h with
  | produced hvalid hgen hlibs hown =>
      have hgenerated := hs.generated hp hgen
      have hready := (x.stepInvariant_replayed start).runs hlibs trivial hgenerated
      exact carried_of_produce hready hown

end BuildSetup

end NativeBuild
