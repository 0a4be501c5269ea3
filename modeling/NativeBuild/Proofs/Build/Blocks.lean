import NativeBuild.Proofs.Build.Calls
import NativeBuild.Proofs.Build.Invariant

/-!
# News in blocks

Builds nest, but what observers are told does not.  A project begins to tell of itself when
its libraries are done, so all news of it come in one piece: a project that is not compiled
only tells that it failed, and any other one tells of its start, of its units one by one, and of
its end.  The counters of a session are those of its news.

Main definitions:

- `news`: what observers are told, in order.
- `IsBlock`: all that is told of one attempt to build a project.
- `InBlocks`: news that come block by block.
- `Stats.ofNews`: the counters that news add up to.

Main results:

- Theorem `isBlock_produce`: what a project tells while it is produced, and then its end.
- Theorem `Runs.inBlocks`: a build tells its news in blocks.
- Theorem `news_in_blocks`: so does every run of requests, and its counters are right.
-/

namespace NativeBuild

/-! ## News -/

/-- What an entry tells observers. -/
def TraceEntry.event? : TraceEntry → Option Event
  | .event told => some told
  | _ => none

/-- What observers are told, in order. -/
def news (trace : List TraceEntry) : List Event :=
  trace.filterMap TraceEntry.event?

/-- The counters that news add up to. -/
def Stats.ofNews (events : List Event) : Stats where
  projectsBuilt := events.countP fun
    | .finished _ true => true
    | _ => false
  projectsFailed := events.countP fun
    | .finished _ false => true
    | _ => false
  unitsCompiled := events.countP fun
    | .unitFinished _ _ _ => true
    | _ => false

@[simp] theorem news_nil : news [] = [] := rfl

@[simp] theorem news_append (trace more : List TraceEntry) :
    news (trace ++ more) = news trace ++ news more :=
  List.filterMap_append

@[simp] theorem news_cons (entry : TraceEntry) (trace : List TraceEntry) :
    news (entry :: trace) = entry.event?.toList ++ news trace := by
  cases h : entry.event? <;> simp [news, h]

/-- Entries that tell nothing are no news. -/
theorem news_eq_nil {entries : List TraceEntry} (h : ∀ entry ∈ entries, entry.event? = none) :
    news entries = [] :=
  List.filterMap_eq_nil_iff.2 h

/-- Calls are no news. -/
theorem news_map_call (project : String) (calls : List ToolCall) :
    news (calls.map (.call project)) = [] := by
  refine news_eq_nil fun entry hentry => ?_
  obtain ⟨call, -, rfl⟩ := List.mem_map.1 hentry
  rfl

/-! ## Blocks -/

/-- The news of the first units of a project. -/
def unitNews (project : String) (total done : Nat) : List Event :=
  (List.range' 1 done).map fun unit => .unitFinished project unit total

/-- All that is told of one attempt to build a project: that it failed, or its start with the
number of its units, the units that were done, and its end.  It ends with success only when all
units were done. -/
inductive IsBlock (project : String) : List Event → Prop
  | refused : IsBlock project [.finished project false]
  | tried {total done : Nat} {success : Bool} (hpos : 1 ≤ total) (hle : done ≤ total)
      (hall : success = true → done = total) :
      IsBlock project
        (.started project total :: unitNews project total done ++ [.finished project success])

/-- The news are blocks of projects, one after another. -/
def InBlocks (events : List Event) : Prop :=
  ∃ blocks : List (List Event), events = blocks.flatten ∧
    ∀ block ∈ blocks, ∃ project, IsBlock project block

/-- The empty list of news is in blocks. -/
theorem inBlocks_nil : InBlocks [] :=
  ⟨[], rfl, by simp⟩

/-- A block alone is in blocks. -/
theorem IsBlock.inBlocks {project : String} {events : List Event} (h : IsBlock project events) :
    InBlocks events :=
  ⟨[events], by simp, by simpa using ⟨project, h⟩⟩

/-- News in blocks may follow one another. -/
theorem InBlocks.append {first second : List Event} (h : InBlocks first) (h' : InBlocks second) :
    InBlocks (first ++ second) := by
  obtain ⟨blocks, rfl, hblocks⟩ := h
  obtain ⟨more, rfl, hmore⟩ := h'
  refine ⟨blocks ++ more, by simp, fun block hblock => ?_⟩
  rcases List.mem_append.1 hblock with hblock | hblock
  · exact hblocks block hblock
  · exact hmore block hblock

/-! ## What is told on the way -/

/-- From the first session to the second, observers are told these news. -/
def Session.Tells {σ : Type} (s t : Session σ) (events : List Event) : Prop :=
  ∃ entries, t.trace = s.trace ++ entries ∧ news entries = events

namespace Session

variable {σ : Type} {s t u : Session σ} {events more : List Event}

/-- From a session to itself nothing is told. -/
theorem Tells.refl (s : Session σ) : Tells s s [] :=
  ⟨[], by simp, rfl⟩

/-- What is told in two parts is told one after the other. -/
theorem Tells.trans (h : Tells s t events) (h' : Tells t u more) : Tells s u (events ++ more) := by
  obtain ⟨first, hfirst, rfl⟩ := h
  obtain ⟨second, hsecond, rfl⟩ := h'
  exact ⟨first ++ second, by rw [hsecond, hfirst, List.append_assoc], news_append first second⟩

/-- One more entry, with what it tells. -/
theorem Tells.concat (h : Tells s t events) {entry : TraceEntry}
    (htrace : u.trace = t.trace ++ [entry]) : Tells s u (events ++ entry.event?.toList) :=
  h.trans ⟨[entry], htrace, by rw [news_cons]; exact List.append_nil _⟩

/-- A mark tells nothing. -/
theorem Tells.record (h : Tells s t events) {entry : TraceEntry} (hentry : entry.event? = none) :
    Tells s (t.record entry) events := by
  simpa [hentry] using h.concat (trace_record t entry)

/-- Whatever is done first without news. -/
theorem Tells.after (h : Tells t u events) (hst : Tells s t []) : Tells s u events :=
  hst.trans h

/-- An action along a script without news tells nothing. -/
theorem tells_nil_of_follows {α : Type} {script : List TraceEntry} {action : Build σ α}
    (h : Build.Follows script action) (hscript : ∀ entry ∈ script, entry.event? = none)
    {result : Except BuildError α} (houtcome : action.outcome s = (result, t)) :
    Tells s t [] := by
  obtain ⟨done, hdone, htrace, -⟩ := h s
  rw [houtcome] at htrace
  exact ⟨done, htrace, news_eq_nil fun entry hentry => hscript entry (hdone.subset hentry)⟩

end Session

/-! ## News of a plan -/

/-- The news of the given units, after others of the plan. -/
theorem news_unitScript (p : Project) (plan : ArtifactPlan) (done : Nat)
    (units : List CompilationUnit) :
    news (unitScript p plan done units) =
      (List.range' (done + 1) units.length).map fun unit =>
        .unitFinished p.id unit plan.units.length := by
  induction units generalizing done with
  | nil => rfl
  | cons unit rest ih =>
      rw [unitScript, news_append, news_map_call, news_cons, ih]
      simp [TraceEntry.event?, List.range'_succ]

namespace BuildSetup

open Build Session

variable {σ : Type} {x : BuildSetup σ}

/-- The news of a plan that is carried out: its start and all of its units. -/
theorem news_script (x : BuildSetup σ) (p : Project) (plan : ArtifactPlan) :
    news (x.script p plan) =
      .started p.id plan.units.length :: unitNews p.id plan.units.length plan.units.length := by
  rw [script, List.cons_append, news_cons, news_append, news_unitScript, news_map_call]
  simp [TraceEntry.event?, unitNews]

/-- What is told before a plan is given up or carried out, and then the end of its project, is
a block. -/
theorem isBlock_of_prefix {p : Project} {plan : ArtifactPlan} {told : List Event}
    {success : Bool} (hunits : plan.units ≠ []) (htold : told <+: news (x.script p plan))
    (hall : success = true → told = news (x.script p plan)) :
    IsBlock p.id (told ++ [.finished p.id success]) := by
  rw [news_script] at htold hall
  rcases List.prefix_cons_iff.1 htold with rfl | ⟨units, rfl, hdone⟩
  · cases success with
    | false => exact .refused
    | true => cases hall rfl
  · have hle : units.length ≤ plan.units.length := by
      simpa [unitNews] using hdone.length_le
    have htake : units = unitNews p.id plan.units.length units.length := by
      rw [List.prefix_iff_eq_take.1 hdone]
      simp [unitNews, ← List.map_take, List.take_range'_of_length_ge hle]
    rw [htake]
    refine .tried (List.length_pos_iff.2 hunits) hle fun hsuccess => ?_
    have hwhole := congrArg List.length (List.cons.inj (hall hsuccess)).2
    simpa [unitNews] using hwhole

/-- What a project tells while it is produced, and then its end, is a block. -/
theorem isBlock_produce {p : Project} {s t : Session σ} {result : Except BuildError Unit}
    (h : (x.produce p).outcome s = (result, t)) :
    ∃ events, Tells s t events ∧ IsBlock p.id (events ++ [.finished p.id result.isOk]) := by
  rcases hplan : (x.plan p).outcome s with ⟨e | plan, t₁⟩
  · have houtcome : (x.produce p).outcome s = (.error e, t₁) := outcome_bind_of_error hplan
    rw [h] at houtcome
    cases houtcome
    have hquiet := tells_nil_of_follows (x.follows_plan p) (by simp [TraceEntry.event?]) hplan
    exact ⟨[], hquiet, .refused⟩
  · have houtcome : (x.produce p).outcome s = (do x.compile p plan; x.link p plan).outcome t₁ :=
      outcome_bind_of_ok hplan
    obtain ⟨output, sources, -, hplanned⟩ := x.outcome_plan_eq_ok p hplan
    have hunits : plan.units ≠ [] := by
      rw [(Registry.planWith_eq_ok hplanned).2.2.2, Project.units_eq_cons]
      exact List.cons_ne_nil _ _
    obtain ⟨done, hdone, htrace, hall⟩ := x.follows_carryOut p plan t₁
    rw [← houtcome, h] at htrace hall
    have hscan : Tells s t₁ [] :=
      tells_nil_of_follows (x.follows_plan p) (by simp [TraceEntry.event?]) hplan
    refine ⟨news done, .after ⟨done, htrace, rfl⟩ hscan, ?_⟩
    refine isBlock_of_prefix hunits (hdone.filterMap _) fun hsuccess => ?_
    cases result with
    | ok _ => rw [hall () rfl]
    | error e => cases hsuccess

/-! ## Builds in blocks -/

variable {stack : List String} {s t : Session σ} {result : Except BuildError Unit}

/-- Entering a project and making its directories tells nothing. -/
theorem tells_entered {p : Project}
    (hdirs : (x.makeDirectories p).outcome (s.record (.entered p.id)) = (result, t)) :
    Tells s t [] := by
  have hmade :=
    tells_nil_of_follows (x.follows_makeDirectories p) (by simp [TraceEntry.event?]) hdirs
  exact hmade.after ((Tells.refl s).record rfl)

/-- Generating the files of a project tells nothing. -/
theorem tells_generate {p : Project} (hgen : (x.generate p).outcome s = (result, t)) :
    Tells s t [] :=
  tells_nil_of_follows (x.follows_generate p) (by simp [TraceEntry.event?]) hgen

/-- Generating the files of a project and marking it tells nothing. -/
theorem tells_marked {p : Project} (hgen : (x.generate p).outcome s = (result, t)) :
    Tells s (t.setState p.id .built) [] := by
  have hgenerated : Tells s t [] := tells_generate hgen
  exact hgenerated

end BuildSetup

/-- The news that are due when a task is done: the steps of a project are followed by its
end. -/
def BuildTask.due (result : Except BuildError Unit) : BuildTask → List Event
  | .steps p => [.finished p.id result.isOk]
  | .call _ | .libraries _ _ => []

namespace BuildSetup

open Build Session

variable {σ : Type} {x : BuildSetup σ} {stack : List String} {s t : Session σ}
  {result : Except BuildError Unit}

/-- A task tells its news, with those that are due after it, in blocks. -/
theorem Runs.inBlocks {task : BuildTask} (h : x.Runs stack task s result t) :
    ∃ events, Tells s t events ∧ InBlocks (events ++ task.due result) := by
  induction h with
  | @unknown stack id s hid =>
      exact ⟨[], ((Tells.refl s).record rfl).record rfl, inBlocks_nil⟩
  | blocked hp hdirs => exact ⟨[], (tells_entered hdirs).record rfl, inBlocks_nil⟩
  | reused hp hdirs hstate =>
      exact ⟨[], ((tells_entered hdirs).record rfl).record rfl, inBlocks_nil⟩
  | refused hp hdirs hstate => exact ⟨[], (tells_entered hdirs).record rfl, inBlocks_nil⟩
  | @succeeded stack p s t u hp hdirs hstate hsteps ih =>
      -- The end that was due is told.
      obtain ⟨events, htells, hblocks⟩ := ih
      have hend : Tells s (u.succeed p.id) (events ++ [.finished p.id true]) :=
        (htells.after (tells_entered hdirs)).concat (trace_succeed u p.id)
      exact ⟨_, hend.record rfl, by rwa [BuildTask.due, List.append_nil]⟩
  | @failed stack p s t u e hp hdirs hstate hsteps ih =>
      obtain ⟨events, htells, hblocks⟩ := ih
      have hend : Tells s (u.fail p.id) (events ++ [.finished p.id false]) :=
        (htells.after (tells_entered hdirs)).concat (trace_fail u p.id)
      exact ⟨_, hend.record rfl, by rwa [BuildTask.due, List.append_nil]⟩
  | invalid hvalid => exact ⟨[], .refl _, IsBlock.refused.inBlocks⟩
  | ungenerated hvalid hgen => exact ⟨[], tells_generate hgen, IsBlock.refused.inBlocks⟩
  | interrupted hvalid hgen hlibs ih =>
      obtain ⟨events, htells, hblocks⟩ := ih
      refine ⟨events, htells.after (tells_marked hgen), ?_⟩
      rw [BuildTask.due, List.append_nil] at hblocks
      exact hblocks.append IsBlock.refused.inBlocks
  | produced hvalid hgen hlibs hown ih =>
      obtain ⟨events, htells, hblocks⟩ := ih
      obtain ⟨own, hown, hblock⟩ := isBlock_produce hown
      refine ⟨events ++ own, (htells.trans hown).after (tells_marked hgen), ?_⟩
      rw [BuildTask.due, List.append_nil] at hblocks
      rw [BuildTask.due, List.append_assoc]
      exact hblocks.append hblock.inBlocks
  | noLibrary => exact ⟨[], .refl _, inBlocks_nil⟩
  | nextLibrary hid hfirst hrest ihfirst ihrest =>
      obtain ⟨first, htellsfirst, hblocksfirst⟩ := ihfirst
      obtain ⟨rest, htellsrest, hblocksrest⟩ := ihrest
      refine ⟨first ++ rest, htellsfirst.trans htellsrest, ?_⟩
      simp only [BuildTask.due, List.append_nil] at hblocksfirst hblocksrest ⊢
      exact hblocksfirst.append hblocksrest
  | lostLibrary hid hfirst ih => exact ih

/-! ## Cleaning tells nothing -/

/-- Cleaning a project tells nothing. -/
theorem tells_clean (x : BuildSetup σ) (id : String) (s : Session σ) :
    Tells s ((x.clean id).outcome s).2 [] := by
  unfold clean
  have hgive := outcome_give (x.registry.require id) s
  cases hp : x.registry.get? id with
  | none =>
      rw [Registry.require, hp] at hgive
      rw [Registry.require, hp, outcome_bind_of_error hgive]
      exact .refl s
  | some p =>
      rw [Registry.require, hp] at hgive
      rw [Registry.require, hp, outcome_bind_of_ok hgive]
      have hforget : Follows [.cleaned p.id] (change (·.forget p.id) : Build σ Unit) :=
        follows_change _ fun _ => rfl
      have hclean := follows_bind (x.follows_perform p (.removeDirectoryTree p.objDir)) fun _ =>
        follows_bind (x.follows_perform p (.removeDirectoryTree p.binDir)) fun _ => hforget
      exact tells_nil_of_follows hclean (by simp [TraceEntry.event?]) rfl

end BuildSetup

/-! ## Counters -/

namespace Session

variable {σ : Type} {s t : Session σ}

/-- The counters are those of the news so far. -/
def Noted (s : Session σ) : Prop :=
  s.stats = .ofNews (news s.trace)

/-- A fresh session has counted nothing and was told nothing. -/
theorem noted_fresh (world : σ) : Noted { world } := rfl

/-- News that are not counted change no counter. -/
theorem Noted.of_trace (h : Noted s) (hstats : t.stats = s.stats) {entry : TraceEntry}
    (htrace : t.trace = s.trace ++ [entry])
    (hentry : Stats.ofNews entry.event?.toList = {}) : Noted t := by
  simp only [Stats.ofNews, Stats.mk.injEq] at hentry
  obtain ⟨hbuilt, hfailed, hunits⟩ := hentry
  rw [Noted, hstats, htrace, h]
  simp [Stats.ofNews, hbuilt, hfailed, hunits]

/-- An entry that counts nothing may be recorded. -/
theorem Noted.record (h : Noted s) {entry : TraceEntry}
    (hentry : Stats.ofNews entry.event?.toList = {}) : Noted (s.record entry) :=
  h.of_trace rfl rfl hentry

/-- A unit is counted when it is told. -/
theorem Noted.unitDone (h : Noted s) (id : String) (done total : Nat) :
    Noted (s.unitDone id done total) := by
  rw [Noted] at h
  simp [Noted, Session.unitDone, h, Stats.ofNews, TraceEntry.event?]

/-- A success is counted when it is told. -/
theorem Noted.succeed (h : Noted s) (id : String) : Noted (s.succeed id) := by
  rw [Noted] at h
  simp [Noted, Session.succeed, h, Stats.ofNews, TraceEntry.event?]

/-- A failure is counted when it is told. -/
theorem Noted.fail (h : Noted s) (id : String) : Noted (s.fail id) := by
  rw [Noted] at h
  simp [Noted, Session.fail, h, Stats.ofNews, TraceEntry.event?]

end Session

namespace BuildSetup

open Build Session

variable {σ : Type} {x : BuildSetup σ}

/-- What the backend does is neither told nor counted. -/
theorem keeps_noted_act {α : Type} {entry : TraceEntry} (hentry : entry.event? = none)
    (action : EStateM BuildError σ α) : Keeps Noted (act entry action) := by
  intro s hs
  refine hs.of_trace (stats_outcome_act entry action s) (trace_outcome_act entry action s) ?_
  rw [hentry]
  rfl

/-- Every step of a build keeps the counters along with the news. -/
theorem stepInvariant_noted (x : BuildSetup σ) : x.StepInvariant fun _ _ s => Noted s where
  entered hs _ := hs.record rfl
  left hs := hs.record rfl
  directories hs h := (keeps_makeDirectories fun _ => keeps_noted_act rfl _).of_outcome h hs
  reused hs _ _ := hs.record rfl
  begun hs _ _ _ := hs
  generated hs _ h := (keeps_noted_act rfl _).of_outcome h hs
  marked hs := hs
  produced {_ _ p _ _ _} hs _ _ h := by
    have hproduce : Keeps Noted (x.produce p) := by
      refine keeps_produce (fun _ => keeps_noted_act rfl _) (keeps_noted_act rfl _) ?_ ?_
      · exact fun _ _ hs => hs.record rfl
      · exact fun done total _ hs => hs.unitDone p.id done total
    exact hproduce.of_outcome h hs
  succeeded _ hs _ _ _ := hs.succeed _
  failed hs _ _ := hs.fail _

/-- Cleaning a project tells and counts nothing. -/
theorem noted_clean (id : String) (s : Session σ) (hs : Noted s) :
    Noted ((x.clean id).outcome s).2 := by
  have hperform : ∀ project call, Keeps Noted (x.perform project call) :=
    fun _ _ => keeps_noted_act rfl _
  have hclean : Keeps Noted (x.clean id) := by
    refine keeps_bind (keeps_give _) fun p => keeps_bind (hperform _ _) fun _ => ?_
    refine keeps_bind (hperform _ _) fun _ => fun s hs => ?_
    exact hs.of_trace rfl rfl rfl
  exact hclean s hs

/-! ## Runs of requests -/

/-- Building a project keeps the news in blocks. -/
theorem inBlocks_build (id : String) (s : Session σ) (hs : InBlocks (news s.trace)) :
    InBlocks (news ((x.build id).outcome s).2.trace) := by
  obtain ⟨events, ⟨entries, htrace, rfl⟩, hmore⟩ := (x.runs_build id s).inBlocks
  rw [BuildTask.due, List.append_nil] at hmore
  rw [htrace, news_append]
  exact hs.append hmore

/-- Cleaning a project keeps the news in blocks. -/
theorem inBlocks_clean (id : String) (s : Session σ) (hs : InBlocks (news s.trace)) :
    InBlocks (news ((x.clean id).outcome s).2.trace) := by
  obtain ⟨entries, htrace, hnews⟩ := x.tells_clean id s
  rwa [htrace, news_append, hnews, List.append_nil]

/-- The shape of what observers are told.  After any requests, whatever the backend answers:

* all that was told is blocks, one after another, each of one project;
* the counters are the numbers of successes, of failures and of units in it. -/
theorem news_in_blocks (x : BuildSetup σ) (world : σ) (requests : List Request) :
    let s := (x.serveAll requests { world }).2
    InBlocks (news s.trace) ∧ s.stats = .ofNews (news s.trace) := by
  intro s
  have hblocks : ∀ request ∈ requests, ∀ s : Session σ,
      InBlocks (news s.trace) → InBlocks (news (x.serve request s).2.trace) :=
    fun request _ _ hs => serve_preserves inBlocks_build inBlocks_clean request hs
  have hnoted : ∀ request ∈ requests, ∀ s : Session σ,
      Noted s → Noted (x.serve request s).2 :=
    fun request _ _ hs => serve_preserves x.stepInvariant_noted.build noted_clean request hs
  exact ⟨serveAll_preserves hblocks inBlocks_nil, serveAll_preserves hnoted (noted_fresh world)⟩

end BuildSetup

end NativeBuild
