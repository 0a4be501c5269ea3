import NativeBuild.Proofs.Build.Derivation
import NativeBuild.Proofs.Build.Trace

/-!
# How states advance

A build never takes back the state of a project: one that was built or failed stays so, and
the only ones that become built are those it tells to be finished with success.  From this,
when nothing is cleaned, whatever a built project links is built as well.

Main definitions:

- `Session.Advance`: a later session of a build, with the projects finished on the way.
- `Session.Closed`: outside the projects that are being built, what is built links only what
  is built.

Main results:

- Theorem `Runs.advances`: a build advances states, and builds what it is to build or fails.
- Theorem `Runs.advance_of_settled`: a call for a project that was built or failed finishes
  nothing.
- Theorem `Runs.closed`: a build keeps what is built closed.
-/

namespace NativeBuild

namespace Session

variable {σ : Type} {s t u : Session σ} {done first second : List String} {id : String}

/-! ## Advancing -/

/-- The second session comes after the first in a build, and in between the given projects
were finished with success, in this order. -/
structure Advance (done : List String) (s t : Session σ) : Prop where
  trace : ∃ entries, t.trace = s.trace ++ entries ∧ finishedIds entries = done
  kept : ∀ q, s.states q ≠ .notBuilt → t.states q = s.states q
  fresh : ∀ q ∈ done, s.states q = .notBuilt
  built : ∀ q, t.states q = .built ↔ s.states q = .built ∨ q ∈ done

/-- What is built stays built. -/
theorem Advance.stays (h : Advance done s t) (hid : s.states id = .built) :
    t.states id = .built :=
  (h.built id).2 (.inl hid)

/-- Where no state changes, nothing is finished with success. -/
theorem Advance.of_states (hstates : t.states = s.states)
    (htrace : ∃ entries, t.trace = s.trace ++ entries ∧ finishedIds entries = []) :
    Advance [] s t where
  trace := htrace
  kept q _ := by rw [hstates]
  fresh := by simp
  built := by simp [hstates]

/-- From a session to itself nothing was finished. -/
theorem Advance.refl (s : Session σ) : Advance [] s s :=
  .of_states rfl ⟨[], by simp, rfl⟩

/-- Work finishes nothing. -/
theorem Worked.advance (h : Worked id s t) : Advance [] s t := by
  obtain ⟨entries, htrace, hwork⟩ := h.trace
  exact .of_states h.states ⟨entries, htrace, finishedIds_of_work hwork⟩

/-- An entry that tells of no success leaves all states alone. -/
theorem advance_record {entry : TraceEntry} (hentry : entry.succeeded? = none)
    (s : Session σ) : Advance [] s (s.record entry) :=
  .of_states rfl ⟨[entry], rfl, by simp [finishedIds, hentry]⟩

/-- What is finished in two parts is finished one after the other. -/
theorem Advance.trans (hst : Advance first s t) (htu : Advance second t u) :
    Advance (first ++ second) s u where
  trace := by
    obtain ⟨before, hbefore, rfl⟩ := hst.trace
    obtain ⟨after, hafter, rfl⟩ := htu.trace
    refine ⟨before ++ after, ?_, finishedIds_append before after⟩
    rw [hafter, hbefore, List.append_assoc]
  kept q hq := by
    have hfirst := hst.kept q hq
    rw [htu.kept q (hfirst ▸ hq), hfirst]
  fresh q hq := by
    rcases List.mem_append.1 hq with hq | hq
    · exact hst.fresh q hq
    · have hnew := htu.fresh q hq
      by_contra hold
      exact hold (hst.kept q hold ▸ hnew)
  built q := by rw [htu.built, hst.built, List.mem_append, or_assoc]

/-- An entry may be recorded that finishes nothing with success. -/
theorem Advance.record {entry : TraceEntry} (h : Advance done s t)
    (hentry : entry.succeeded? = none) : Advance done s (t.record entry) := by
  simpa using h.trans (advance_record hentry t)

/-- What advances from a session with one more entry advances from the session. -/
theorem Advance.of_record {entry : TraceEntry} (h : Advance done (s.record entry) t)
    (hentry : entry.succeeded? = none) : Advance done s t := by
  simpa using (advance_record hentry s).trans h

/-! ## Advancing around the steps of a project -/

/-- Work advances the sessions with a mark as well. -/
theorem Worked.advance_setState (h : Worked id s t) (p : String) (state : BuildState) :
    Advance [] (s.setState p state) (t.setState p state) := by
  obtain ⟨entries, htrace, hwork⟩ := h.trace
  refine .of_states ?_ ⟨entries, htrace, finishedIds_of_work hwork⟩
  simp [setState, h.states]

/-- A mark takes nothing back that was built. -/
theorem built_mark {q : String} (h : s.states q = .built) :
    (s.setState id .built).states q = .built := by
  by_cases hq : q = id
  · simp [hq]
  · simpa [hq] using h

/-- Marking again what is built changes nothing. -/
theorem advance_mark (h : s.states id = .built) : Advance [] s (s.setState id .built) := by
  refine .of_states (funext fun q => ?_) ⟨[], by simp, rfl⟩
  by_cases hq : q = id
  · simp [hq, h]
  · simp [hq]

/-- The steps of a project that was not built, from its mark on, and then its success. -/
theorem Advance.succeed (h : Advance done (s.setState id .built) (t.setState id .built))
    (hbefore : s.states id = .notBuilt) (hafter : t.states id = .built) :
    Advance (done ++ [id]) s (t.succeed id) := by
  have hne : ∀ q, s.states q ≠ .notBuilt → q ≠ id := by
    rintro q hq rfl
    exact hq hbefore
  refine ⟨?_, fun q hq => ?_, fun q hq => ?_, fun q => ?_⟩
  · obtain ⟨entries, htrace, hdone⟩ := h.trace
    refine ⟨entries ++ [.event (.finished id true)], ?_, ?_⟩
    · rw [trace_succeed, ← List.append_assoc]
      exact congrArg (· ++ _) htrace
    · rw [finishedIds_append, hdone]
      rfl
  · have hkept := h.kept q (by simpa [hne q hq] using hq)
    simpa [hne q hq] using hkept
  · rcases List.mem_append.1 hq with hq | hq
    · have hfresh := h.fresh q hq
      by_cases heq : q = id
      · simp [heq] at hfresh
      · simpa [heq] using hfresh
    · rw [List.mem_singleton.1 hq, hbefore]
  · by_cases heq : q = id
    · simp [heq, hafter]
    · simpa [heq] using h.built q

/-- The steps of a project that was not built, and then its failure. -/
theorem Advance.fail (h : Advance done (s.setState id .built) (t.setState id .built))
    (hbefore : s.states id = .notBuilt) : Advance done s (t.fail id) := by
  have hnotdone : id ∉ done := by
    intro hmem
    have hfresh := h.fresh id hmem
    simp at hfresh
  refine ⟨?_, fun q hq => ?_, fun q hq => ?_, fun q => ?_⟩
  · obtain ⟨entries, htrace, hdone⟩ := h.trace
    refine ⟨entries ++ [.event (.finished id false)], ?_, ?_⟩
    · rw [trace_fail, ← List.append_assoc]
      exact congrArg (· ++ _) htrace
    · rw [finishedIds_append, hdone]
      exact List.append_nil done
  · have hne : q ≠ id := by
      rintro rfl
      exact hq hbefore
    have hkept := h.kept q (by simpa [hne] using hq)
    simpa [hne] using hkept
  · have hne : q ≠ id := by
      rintro rfl
      exact hnotdone hq
    simpa [hne] using h.fresh q hq
  · by_cases heq : q = id
    · simp [heq, hbefore, hnotdone]
    · simpa [heq] using h.built q

/-! ## Closed sessions -/

/-- Whatever is built and not being built links only what is likewise. -/
def Closed (r : Registry) (stack : List String) (s : Session σ) : Prop :=
  ∀ q, s.states q = .built → q ∉ stack →
    ∀ d ∈ r.edges linkEdges q, s.states d = .built ∧ d ∉ stack

variable {r : Registry} {stack : List String}

/-- Only the states matter for whether a session is closed. -/
theorem Closed.of_states (h : Closed r stack s) (hstates : t.states = s.states) :
    Closed r stack t := by
  unfold Closed
  rwa [hstates]

/-- A project that is not built may begin. -/
theorem Closed.push (h : Closed r stack s) (hid : s.states id ≠ .built) :
    Closed r (id :: stack) s := by
  intro q hq hnot d hd
  obtain ⟨hbuilt, hout⟩ := h q hq (fun hmem => hnot (List.mem_cons_of_mem _ hmem)) d hd
  refine ⟨hbuilt, fun hmem => ?_⟩
  rcases List.mem_cons.1 hmem with rfl | hmem
  · exact hid hbuilt
  · exact hout hmem

/-- The state of a project that is being built does not matter. -/
theorem Closed.setState (h : Closed r (id :: stack) s) (state : BuildState) :
    Closed r (id :: stack) (s.setState id state) := by
  intro q hq hnot d hd
  have hne : ∀ other, other ∉ id :: stack → other ≠ id := by
    rintro other hother rfl
    exact hother List.mem_cons_self
  rw [states_setState_other s state (hne q hnot)] at hq
  obtain ⟨hbuilt, hout⟩ := h q hq hnot d hd
  rw [states_setState_other s state (hne d hout)]
  exact ⟨hbuilt, hout⟩

/-- Nothing is built yet. -/
theorem closed_fresh (r : Registry) (stack : List String) (world : σ) :
    Closed r stack { world } := by
  intro q hq
  cases hq

/-- A project may end when, if it is built, all that it links is. -/
theorem Closed.pop (h : Closed r (id :: stack) s)
    (hid : s.states id = .built → ∀ d ∈ r.edges linkEdges id, s.states d = .built ∧ d ∉ stack) :
    Closed r stack s := by
  intro q hq hnot d hd
  by_cases heq : q = id
  · subst heq
    exact hid hq d hd
  · obtain ⟨hbuilt, hout⟩ := h q hq (by simp [heq, hnot]) d hd
    exact ⟨hbuilt, fun hmem => hout (List.mem_cons_of_mem _ hmem)⟩

/-- Whatever is built and not being built reaches only what is likewise. -/
theorem Closed.of_reaches (h : Closed r stack s) {a b : String} (ha : s.states a = .built)
    (hnot : a ∉ stack) (hab : r.Reaches linkEdges a b) : s.states b = .built ∧ b ∉ stack := by
  induction hab with
  | step hb => exact h a ha hnot _ hb
  | tail _ hc ih => exact h _ ih.1 ih.2 _ hc

end Session

/-! ## Tasks -/

/-- The ids that a task is to build. -/
def BuildTask.targets : BuildTask → List String
  | .call id => [id]
  | .steps p => [p.id]
  | .libraries _ ids => ids

/-- The projects that are being built while a task goes on. -/
def BuildTask.inside (stack : List String) : BuildTask → List String
  | .steps p => p.id :: stack
  | _ => stack

/-- The session with the mark of the project whose steps are taken. -/
def BuildTask.marked {σ : Type} : BuildTask → Session σ → Session σ
  | .steps p, s => s.setState p.id .built
  | _, s => s

namespace BuildSetup

open Session

variable {σ : Type} {x : BuildSetup σ} {stack : List String} {s t : Session σ}
  {result : Except BuildError Unit}

/-- Entering a project and making its directories advances the session. -/
theorem advance_entered {p : Project}
    (hdirs : (x.makeDirectories p).outcome (s.record (.entered p.id)) = (result, t)) :
    Advance [] s t :=
  ((x.works_makeDirectories p).worked hdirs).advance.of_record rfl

/-- A task advances the session, and builds its targets or fails. -/
theorem Runs.advances {task : BuildTask} (h : x.Runs stack task s result t) :
    (∃ done, Advance done (task.marked s) (task.marked t)) ∧
      (result = .ok () → ∀ d ∈ task.targets, t.states d = .built) := by
  induction h with
  | unknown hid => exact ⟨⟨[], (advance_record rfl _).record rfl⟩, by simp⟩
  | blocked hp hdirs => exact ⟨⟨[], (advance_entered hdirs).record rfl⟩, by simp⟩
  | reused hp hdirs hstate =>
      refine ⟨⟨[], ((advance_entered hdirs).record rfl).record rfl⟩, fun _ d hd => ?_⟩
      rwa [List.mem_singleton.1 hd]
  | refused hp hdirs hstate => exact ⟨⟨[], (advance_entered hdirs).record rfl⟩, by simp⟩
  | @succeeded stack p s t u hp hdirs hstate hsteps ih =>
      obtain ⟨⟨done, hdone⟩, hbuilt⟩ := ih
      have hu := hbuilt rfl p.id List.mem_cons_self
      have hcall := (advance_entered hdirs).trans (hdone.succeed hstate hu)
      refine ⟨⟨_, hcall.record rfl⟩, fun _ d hd => ?_⟩
      rwa [List.mem_singleton.1 hd]
  | failed hp hdirs hstate hsteps ih =>
      obtain ⟨⟨done, hdone⟩, -⟩ := ih
      have hcall := (advance_entered hdirs).trans (hdone.fail hstate)
      exact ⟨⟨_, hcall.record rfl⟩, by simp⟩
  | invalid hvalid => exact ⟨⟨[], .refl _⟩, by simp⟩
  | @ungenerated stack p s t e hvalid hgen =>
      have hworked := (x.works_generate p).worked hgen
      exact ⟨⟨[], hworked.advance_setState p.id .built⟩, by simp⟩
  | @interrupted stack p s t u e hvalid hgen hlibs ih =>
      obtain ⟨⟨done, hdone⟩, -⟩ := ih
      have hmark := ((x.works_generate p).worked hgen).advance_setState p.id .built
      have hu : u.states p.id = .built := hdone.stays (states_setState_same t p.id .built)
      exact ⟨⟨_, (hmark.trans hdone).trans (advance_mark hu)⟩, by simp⟩
  | @produced stack p s t u v result hvalid hgen hlibs hown ih =>
      obtain ⟨⟨done, hdone⟩, -⟩ := ih
      have hmark := ((x.works_generate p).worked hgen).advance_setState p.id .built
      have hproduced := ((x.works_produce p).worked hown).advance
      have hv : v.states p.id = .built :=
        (hdone.trans hproduced).stays (states_setState_same t p.id .built)
      refine ⟨⟨_, (hmark.trans (hdone.trans hproduced)).trans (advance_mark hv)⟩, ?_⟩
      intro _ d hd
      rwa [List.mem_singleton.1 hd]
  | noLibrary => exact ⟨⟨[], .refl _⟩, by simp [BuildTask.targets]⟩
  | @nextLibrary stack rest p id s t u result hid hfirst hrest ihfirst ihrest =>
      obtain ⟨⟨first, hfirstdone⟩, hbuilt⟩ := ihfirst
      obtain ⟨⟨second, hseconddone⟩, hrestbuilt⟩ := ihrest
      refine ⟨⟨_, hfirstdone.trans hseconddone⟩, fun hok d hd => ?_⟩
      rcases List.mem_cons.1 hd with rfl | hd
      · exact hseconddone.stays (hbuilt rfl d List.mem_cons_self)
      · exact hrestbuilt hok d hd
  | lostLibrary hid hfirst ih => exact ⟨ih.1, by simp⟩

/-- A task only adds to the trace. -/
theorem Runs.exists_entries {task : BuildTask} (h : x.Runs stack task s result t) :
    ∃ entries, t.trace = s.trace ++ entries := by
  obtain ⟨⟨done, hdone⟩, -⟩ := h.advances
  obtain ⟨entries, htrace, -⟩ := hdone.trace
  exact ⟨entries, by cases task <;> exact htrace⟩

/-- A project whose steps succeed is built. -/
theorem Runs.built_of_steps {p : Project} (h : x.Runs stack (.steps p) s (.ok ()) t) :
    t.states p.id = .built :=
  h.advances.2 rfl p.id List.mem_cons_self

/-- A build changes no state of a project that was built or failed. -/
theorem states_build_of_settled {q : String} (id : String) (s : Session σ)
    (hq : s.states q ≠ .notBuilt) : ((x.build id).outcome s).2.states q = s.states q := by
  obtain ⟨⟨done, hdone⟩, -⟩ := (x.runs_build id s).advances
  exact hdone.kept q hq

/-- A call for a project that was built or failed finishes nothing. -/
theorem Runs.advance_of_settled {id : String} (h : x.Runs stack (.call id) s result t)
    (hs : s.states id ≠ .notBuilt) : Advance [] s t := by
  cases h with
  | unknown hid => exact (advance_record rfl _).record rfl
  | blocked hp hdirs => exact (advance_entered hdirs).record rfl
  | reused hp hdirs hstate => exact ((advance_entered hdirs).record rfl).record rfl
  | refused hp hdirs hstate => exact (advance_entered hdirs).record rfl
  | succeeded hp hdirs hstate hsteps =>
      rw [(advance_entered hdirs).kept _ hs] at hstate
      exact absurd hstate hs
  | failed hp hdirs hstate hsteps =>
      rw [(advance_entered hdirs).kept _ hs] at hstate
      exact absurd hstate hs

/-- What is not built and fails is still not built. -/
theorem Runs.not_built_of_error {id : String} {e : BuildError}
    (h : x.Runs stack (.call id) s (.error e) t) (hs : s.states id ≠ .built) :
    t.states id ≠ .built := by
  cases h with
  | unknown hid => exact hs
  | blocked hp hdirs => simpa [(advance_entered hdirs).built] using hs
  | refused hp hdirs hstate => simp [hstate]
  | failed hp hdirs hstate hsteps => simp

/-! ## What was built is closed -/

/-- Libraries that are built without an error are none of the projects being built. -/
theorem Runs.not_mem_of_ok {p : Project} {ids : List String}
    (h : x.Runs stack (.libraries p ids) s (.ok ()) t) : ∀ d ∈ ids, d ∉ stack := by
  induction ids generalizing s with
  | nil => simp
  | cons id rest ih =>
      cases h with
      | nextLibrary hid hfirst hrest =>
          intro d hd
          rcases List.mem_cons.1 hd with rfl | hd
          · exact hid
          · exact ih hrest d hd

/-- The libraries of a project whose steps succeed are built, and none of them is one of the
projects being built. -/
theorem Runs.libs_of_ok {p : Project} (h : x.Runs stack (.steps p) s (.ok ()) t) :
    ∀ d ∈ p.libs, t.states d = .built ∧ d ∉ p.id :: stack := by
  cases h with
  | produced hvalid hgen hlibs hown =>
      intro d hd
      have hworked := (x.works_produce p).worked hown
      rw [hworked.states]
      exact ⟨hlibs.advances.2 rfl d hd, hlibs.not_mem_of_ok d hd⟩

/-- A task keeps what was built closed. -/
theorem Runs.closed {task : BuildTask} (h : x.Runs stack task s result t)
    (hs : Closed x.registry (task.inside stack) s) :
    Closed x.registry (task.inside stack) t := by
  induction h with
  | unknown hid => exact hs
  | blocked hp hdirs =>
      have hsame := states_entered hdirs
      exact hs.of_states hsame
  | reused hp hdirs hstate =>
      have hsame := states_entered hdirs
      exact hs.of_states hsame
  | refused hp hdirs hstate =>
      have hsame := states_entered hdirs
      exact hs.of_states hsame
  | succeeded hp hdirs hstate hsteps ih =>
      have ht := hs.of_states (states_entered hdirs)
      refine (ih (ht.push (by simp [hstate]))).pop fun _ d hd => ?_
      rw [Registry.edges_linkEdges hp] at hd
      obtain ⟨hbuilt, hnot⟩ := hsteps.libs_of_ok d hd
      exact ⟨hbuilt, fun hmem => hnot (List.mem_cons_of_mem _ hmem)⟩
  | failed hp hdirs hstate hsteps ih =>
      have ht := hs.of_states (states_entered hdirs)
      have hu := (ih (ht.push (by simp [hstate]))).setState .failed
      exact hu.pop fun hbuilt => by simp at hbuilt
  | invalid hvalid => exact hs
  | ungenerated hvalid hgen => exact hs.of_states (states_generate hgen)
  | interrupted hvalid hgen hlibs ih =>
      exact ih ((hs.of_states (states_generate hgen)).setState .built)
  | produced hvalid hgen hlibs hown ih =>
      have hu := ih ((hs.of_states (states_generate hgen)).setState .built)
      exact hu.of_states (states_produce hown)
  | noLibrary => exact hs
  | nextLibrary hid hfirst hrest ihfirst ihrest => exact ihrest (ihfirst hs)
  | lostLibrary hid hfirst ih => exact ih hs

end BuildSetup

end NativeBuild
