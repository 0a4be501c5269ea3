import Mathlib
import NativeBuild.Proofs.Build.Advance
import NativeBuild.Proofs.Build.Requests

/-!
# The order of a build

A build finishes projects in the order in which the link closure lists them.  The search
for the closure keeps a list of ids that were found and the build keeps states, but both
go the same way: an id that was found is built, and below a project that was built before
nothing is left to build.

Main definitions:

- `Session.unbuilt`: the ids of a list that are not built.
- `Session.InOrder`: what was finished is a first part of what was not built, and all of it
  unless there was an error.
- `BuildTask.Visits`: the visit of the search that goes along with a task.

Main results:

- Theorem `Runs.inOrder`: a task finishes what its visit adds, in that order.
- Theorem `build_order`: the projects that a build finishes, in order.
-/

namespace NativeBuild

namespace Session

variable {σ : Type} {s t u : Session σ} {ids first second : List String} {id : String}
  {result : Except BuildError Unit}

/-! ## What is not built -/

/-- The ids of a list that are not built. -/
def unbuilt (s : Session σ) (ids : List String) : List String :=
  ids.filter fun q => s.states q ≠ .built

/-- What is unbuilt of some ids are those that are not built. -/
theorem mem_unbuilt {q : String} : q ∈ s.unbuilt ids ↔ q ∈ ids ∧ s.states q ≠ .built := by
  simp [unbuilt]

/-- What is unbuilt of two lists is what is unbuilt of the first and of the second. -/
theorem unbuilt_append : s.unbuilt (first ++ second) = s.unbuilt first ++ s.unbuilt second :=
  List.filter_append first second

/-- A project that is not built is unbuilt. -/
theorem unbuilt_singleton (h : s.states id ≠ .built) : s.unbuilt [id] = [id] := by
  simp [unbuilt, h]

/-- Where all is built, nothing is unbuilt. -/
theorem unbuilt_eq_nil (h : ∀ q ∈ ids, s.states q = .built) : s.unbuilt ids = [] := by
  simpa [unbuilt] using h

/-- What is unbuilt depends on which projects are built. -/
theorem unbuilt_congr (h : ∀ q ∈ ids, (t.states q = .built ↔ s.states q = .built)) :
    t.unbuilt ids = s.unbuilt ids := by
  refine List.filter_congr fun q hq => ?_
  simp [h q hq]

/-- The state of a project that is not listed does not matter. -/
theorem unbuilt_setState {state : BuildState} (hid : id ∉ ids) :
    (s.setState id state).unbuilt ids = s.unbuilt ids := by
  refine unbuilt_congr fun q hq => ?_
  have hne : q ≠ id := by
    rintro rfl
    exact hid hq
  rw [states_setState_other s state hne]

/-- Where nothing is finished, the same is left to build. -/
theorem Advance.unbuilt (h : Advance [] s t) : t.unbuilt ids = s.unbuilt ids :=
  unbuilt_congr fun q _ => by simp [h.built q]

/-! ## Finishing in order -/

/-- The second session comes after the first in a build, and in between a first part of what
was not built was finished, in order; all of it unless there was an error. -/
def InOrder (ids : List String) (result : Except BuildError Unit) (s t : Session σ) : Prop :=
  ∃ done, Advance done s t ∧ done <+: s.unbuilt ids ∧ (result = .ok () → done = s.unbuilt ids)

/-- An error may come before anything is finished. -/
theorem Advance.inOrder_error (h : Advance [] s t) (ids : List String) (e : BuildError) :
    InOrder ids (.error e) s t :=
  ⟨[], h, List.nil_prefix, by simp⟩

/-- Where all is built, nothing needs to be finished. -/
theorem Advance.inOrder_of_built (h : Advance [] s t) (hbuilt : ∀ q ∈ ids, s.states q = .built)
    (result : Except BuildError Unit) : InOrder ids result s t :=
  ⟨[], h, List.nil_prefix, fun _ => (unbuilt_eq_nil hbuilt).symm⟩

/-- Sessions before, in which nothing is finished, change nothing. -/
theorem InOrder.after (h : InOrder ids result t u) (hst : Advance [] s t) :
    InOrder ids result s u := by
  obtain ⟨done, hdone, hle, hall⟩ := h
  rw [hst.unbuilt] at hle hall
  exact ⟨done, hst.trans hdone, hle, hall⟩

/-- Sessions after, in which nothing is finished, change nothing. -/
theorem InOrder.before (h : InOrder ids result s t) (htu : Advance [] t u) :
    InOrder ids result s u := by
  obtain ⟨done, hdone, hle, hall⟩ := h
  exact ⟨done, by simpa using hdone.trans htu, hle, hall⟩

/-- What is built stays built. -/
theorem InOrder.stays (h : InOrder ids result s t) (hid : s.states id = .built) :
    t.states id = .built := by
  obtain ⟨done, hdone, -⟩ := h
  exact hdone.stays hid

/-- Once all is finished, there may still be an error. -/
theorem InOrder.of_ok (h : InOrder ids (.ok ()) s t) (result : Except BuildError Unit) :
    InOrder ids result s t := by
  obtain ⟨done, hdone, hle, hall⟩ := h
  exact ⟨done, hdone, hle, fun _ => hall rfl⟩

/-- One list after another, if the first is finished and the second has none of it. -/
theorem InOrder.append (h : InOrder first (.ok ()) s t) (hrest : InOrder second result t u)
    (hnew : ∀ q ∈ second, q ∉ first) : InOrder (first ++ second) result s u := by
  obtain ⟨done, hdone, -, hall⟩ := h
  obtain ⟨more, hmore, hle, hallmore⟩ := hrest
  obtain rfl := hall rfl
  have hsame : t.unbuilt second = s.unbuilt second := by
    refine unbuilt_congr fun q hq => ?_
    rw [hdone.built, or_iff_left fun hmem => hnew q hq (mem_unbuilt.1 hmem).1]
  rw [hsame] at hle hallmore
  refine ⟨s.unbuilt first ++ more, hdone.trans hmore, ?_, fun hok => ?_⟩
  · rw [unbuilt_append]
    exact (List.prefix_append_right_inj _).2 hle
  · rw [unbuilt_append, hallmore hok]

/-- An error in the first list keeps the second from being begun. -/
theorem InOrder.of_error {e e' : BuildError} (h : InOrder first (.error e) s t)
    (second : List String) : InOrder (first ++ second) (.error e') s t := by
  obtain ⟨done, hdone, hle, -⟩ := h
  refine ⟨done, hdone, ?_, by simp⟩
  rw [unbuilt_append]
  exact hle.trans (List.prefix_append _ _)

/-- After a list is finished, all of it is built. -/
theorem InOrder.built (h : InOrder ids (.ok ()) s t) : ∀ q ∈ ids, t.states q = .built := by
  obtain ⟨done, hdone, -, hall⟩ := h
  intro q hq
  rw [hdone.built, hall rfl, mem_unbuilt]
  by_cases hbuilt : s.states q = .built
  · exact .inl hbuilt
  · exact .inr ⟨hq, hbuilt⟩

/-- What goes on below the mark of a project goes on between marked sessions. -/
theorem InOrder.of_marked (h : InOrder ids result (t.setState id .built) u)
    (hst : Worked id s t) : InOrder ids result (s.setState id .built) (u.setState id .built) := by
  have hu : u.states id = .built := h.stays (states_setState_same t id .built)
  exact (h.before (advance_mark hu)).after (hst.advance_setState id .built)

/-- A project that was not built is finished after what its steps finish. -/
theorem InOrder.succeed
    (h : InOrder ids (.ok ()) (s.setState id .built) (t.setState id .built))
    (hid : id ∉ ids) (hbefore : s.states id = .notBuilt) (hafter : t.states id = .built) :
    InOrder (ids ++ [id]) (.ok ()) s (t.succeed id) := by
  obtain ⟨done, hdone, -, hall⟩ := h
  have hlast : s.unbuilt (ids ++ [id]) = done ++ [id] := by
    rw [unbuilt_append, unbuilt_singleton (by simp [hbefore]), hall rfl, unbuilt_setState hid]
  exact ⟨done ++ [id], hdone.succeed hbefore hafter, hlast ▸ List.prefix_rfl, fun _ => hlast.symm⟩

/-- A project that fails after its steps began is not finished itself. -/
theorem InOrder.fail (h : InOrder ids result (s.setState id .built) (t.setState id .built))
    (hid : id ∉ ids) (hbefore : s.states id = .notBuilt) (e : BuildError) :
    InOrder (ids ++ [id]) (.error e) s (t.fail id) := by
  obtain ⟨done, hdone, hle, -⟩ := h
  rw [unbuilt_setState hid] at hle
  refine ⟨done, hdone.fail hbefore, ?_, by simp⟩
  rw [unbuilt_append]
  exact hle.trans (List.prefix_append _ _)

end Session

/-! ## Tasks and visits -/

/-- The visit of the search for a link closure that goes along with a task: it adds what is
still to be built. -/
def BuildTask.Visits (r : Registry) (stack path found new : List String) : BuildTask → Prop
  | .call id => id ∉ stack ∧ ∃ inner, new = inner ++ [id] ∧
      r.LinkVisit (path ++ [id]) found (r.edges linkEdges id) inner
  | .steps p => r.get? p.id = some p ∧ r.LinkVisit (path ++ [p.id]) found p.libs new
  | .libraries _ ids => r.LinkVisit path found ids new

/-- The visit of a call adds what the visit of the project's steps adds, and then the project,
which that visit does not add. -/
theorem BuildTask.Visits.steps {r : Registry} {stack path found new : List String} {p : Project}
    (hp : r.get? p.id = some p) (h : (BuildTask.call p.id).Visits r stack path found new) :
    ∃ inner, new = inner ++ [p.id] ∧ p.id ∉ inner ∧
      (BuildTask.steps p).Visits r stack path found inner := by
  obtain ⟨-, inner, rfl, hvisit⟩ := h
  have hnot := hvisit.not_mem_of_last
  rw [Registry.edges_linkEdges hp] at hvisit
  exact ⟨inner, rfl, hnot, hp, hvisit⟩

namespace BuildSetup

open Session

variable {σ : Type} {x : BuildSetup σ} {stack : List String} {s t : Session σ}
  {result : Except BuildError Unit}

/-- A task finishes what its visit adds, in that order. -/
theorem Runs.inOrder {task : BuildTask} {path found new : List String}
    (h : x.Runs stack task s result t)
    (hvisit : task.Visits x.registry stack path found new)
    (hclosed : Closed x.registry (task.inside stack) s)
    (hfound : ∀ q ∈ found, s.states q = .built) :
    InOrder new result (task.marked s) (task.marked t) := by
  -- The visit and the task go along: what the visit has found is built in the session.
  induction h generalizing path found new with
  | unknown hid => exact ((advance_record rfl _).record rfl).inOrder_error new _
  | blocked hp hdirs => exact ((advance_entered hdirs).record rfl).inOrder_error new _
  | @reused stack p s t hp hdirs hstate =>
      obtain ⟨hid, inner, rfl, hvisit⟩ := hvisit
      have hdone := advance_entered hdirs
      have hs : s.states p.id = .built := by simpa [hdone.built] using hstate
      -- The search may enter a project that was built, but all below it is built as well.
      refine ((hdone.record rfl).record rfl).inOrder_of_built (fun q hq => ?_) _
      rcases List.mem_append.1 hq with hq | hq
      · exact (hclosed.of_reaches hs hid (hvisit.reaches q hq)).1
      · rwa [List.mem_singleton.1 hq]
  | refused hp hdirs hstate => exact ((advance_entered hdirs).record rfl).inOrder_error new _
  | @succeeded stack p s t u hp hdirs hstate hsteps ih =>
      obtain ⟨inner, rfl, hnot, hvisit⟩ := hvisit.steps hp
      have hdone := advance_entered hdirs
      have hsame := states_entered hdirs
      have hinner := ih hvisit ((hclosed.of_states hsame).push (by simp [hstate]))
        fun q hq => hdone.stays (hfound q hq)
      have hu : u.states p.id = .built := hsteps.built_of_steps
      exact ((hinner.succeed hnot hstate hu).before (advance_record rfl _)).after hdone
  | @failed stack p s t u e hp hdirs hstate hsteps ih =>
      obtain ⟨inner, rfl, hnot, hvisit⟩ := hvisit.steps hp
      have hdone := advance_entered hdirs
      have hsame := states_entered hdirs
      have hinner := ih hvisit ((hclosed.of_states hsame).push (by simp [hstate]))
        fun q hq => hdone.stays (hfound q hq)
      exact ((hinner.fail hnot hstate e).before (advance_record rfl _)).after hdone
  | invalid hvalid => exact (Advance.refl _).inOrder_error new _
  | ungenerated hvalid hgen =>
      exact (((x.works_generate _).worked hgen).advance_setState _ _).inOrder_error new _
  | @interrupted stack p s t u e hvalid hgen hlibs ih =>
      have hworked := (x.works_generate p).worked hgen
      have hlist := ih hvisit.2 ((hclosed.of_states hworked.states).setState .built)
        fun q hq => built_mark (hworked.advance.stays (hfound q hq))
      exact hlist.of_marked hworked
  | @produced stack p s t u v result hvalid hgen hlibs hown ih =>
      have hworked := (x.works_generate p).worked hgen
      have hlist := ih hvisit.2 ((hclosed.of_states hworked.states).setState .built)
        fun q hq => built_mark (hworked.advance.stays (hfound q hq))
      have hproduced := ((x.works_produce p).worked hown).advance
      exact ((hlist.of_ok result).before hproduced).of_marked hworked
  | noLibrary =>
      cases hvisit
      exact (Advance.refl _).inOrder_of_built (by simp) _
  | nextLibrary hid hfirst hrest ihfirst ihrest =>
      cases hvisit with
      | skip hpath hmem hvisit =>
          -- The build calls a library that the search skips, and finds it built.
          have hskip := hfirst.advance_of_settled (by simp [hfound _ hmem])
          have hlater := ihrest hvisit (hfirst.closed hclosed) fun q hq => hskip.stays (hfound q hq)
          exact hlater.after hskip
      | @enter _ _ _ inner rest id hpath hmem husable hinner hvisit =>
          have hone := ihfirst ⟨hid, inner, rfl, hinner⟩ hclosed hfound
          have hlater := ihrest hvisit (hfirst.closed hclosed) fun q hq => ?_
          · rw [List.append_cons]
            refine hone.append hlater fun q hq hmem => (hvisit.fresh q hq).2 ?_
            rw [List.append_assoc]
            exact List.mem_append_right found hmem
          · rw [List.append_assoc] at hq
            rcases List.mem_append.1 hq with hq | hq
            · exact hone.stays (hfound q hq)
            · exact hone.built q hq
  | lostLibrary hid hfirst ih =>
      cases hvisit with
      | skip hpath hmem hvisit =>
          exact (hfirst.advance_of_settled (by simp [hfound _ hmem])).inOrder_error _ _
      | enter hpath hmem husable hinner hvisit =>
          rw [List.append_cons]
          exact (ih ⟨hid, _, rfl, hinner⟩ hclosed hfound).of_error _

/-! ## The order of a build -/

/-- A call from outside finishes the rest of the link closure and then its own project, or
a first part of that. -/
theorem Runs.order {id : String} {closure : List String} (h : x.Runs [] (.call id) s result t)
    (hclosed : Closed x.registry [] s) (hstate : s.states id = .notBuilt)
    (hclosure : x.registry.linkClosure id = .ok closure) :
    ∃ done, Advance done s t ∧ done <+: s.unbuilt closure ++ [id] ∧
      (result = .ok () ↔ done = s.unbuilt closure ++ [id]) := by
  have hvisit : x.registry.LinkVisit ([] ++ [id]) [] (x.registry.edges linkEdges id) closure :=
    (Registry.linkClosure_eq_ok_iff.1 hclosure).2
  have hid : s.states id ≠ .built := by simp [hstate]
  have hinorder : InOrder (closure ++ [id]) result s t :=
    h.inOrder ⟨List.not_mem_nil, closure, rfl, hvisit⟩ hclosed (by simp)
  obtain ⟨done, hdone, hle, hall⟩ := hinorder
  rw [unbuilt_append, unbuilt_singleton hid] at hle hall
  refine ⟨done, hdone, hle, hall, fun hwhole => ?_⟩
  have hbuilt : t.states id = .built := (hdone.built id).2 (.inr (by simp [hwhole]))
  cases result with
  | ok _ => rfl
  | error e => exact absurd hbuilt (h.not_built_of_error hid)

/-- As long as nothing is cleaned, what was built is closed. -/
theorem closed_of_builds (x : BuildSetup σ) (world : σ) {requests : List Request}
    (hrequests : ∀ request ∈ requests, request.isBuild = true) (ids : List String) :
    Closed x.registry [] (x.buildEach ids (x.serveAll requests { world }).2).2 := by
  have hbuild : ∀ id (s : Session σ), Closed x.registry [] s →
      Closed x.registry [] ((x.build id).outcome s).2 :=
    fun id s hs => (x.runs_build id s).closed hs
  exact builds_preserve hbuild hrequests ids (closed_fresh x.registry [] world)

/-- The order of a build is that of the link closure.  After any requests to build, and any
projects of a further request, let a project be not built yet.  Building it finishes a first
part of what its link closure lists and is not built, in the order of the list, and then the
project; and there is no error exactly when it finishes all of that. -/
theorem build_order (x : BuildSetup σ) (world : σ) (requests : List Request)
    (hrequests : ∀ request ∈ requests, request.isBuild = true) (ids : List String)
    (id : String) (closure : List String) (s : Session σ)
    (hs : s = (x.buildEach ids (x.serveAll requests { world }).2).2)
    (hstate : s.states id = .notBuilt) (hclosure : x.registry.linkClosure id = .ok closure) :
    ∃ entries, ((x.build id).outcome s).2.trace = s.trace ++ entries ∧
      finishedIds entries <+: s.unbuilt closure ++ [id] ∧
      (((x.build id).outcome s).1 = .ok () ↔
        finishedIds entries = s.unbuilt closure ++ [id]) := by
  have hclosed : Closed x.registry [] s := hs ▸ x.closed_of_builds world hrequests ids
  obtain ⟨done, hdone, hle, hall⟩ := (x.runs_build id s).order hclosed hstate hclosure
  obtain ⟨entries, htrace, rfl⟩ := hdone.trace
  exact ⟨entries, htrace, hle, hall⟩

end BuildSetup

/-! ## A sample -/

namespace Sample

/-- Two libraries, one of which links the other, and an application. -/
def registry : Registry where
  projects := [
    { id := "core", kind := .library, root := Path.ofString "core" },
    { id := "shell", kind := .application, root := Path.ofString "shell",
      libs := ["text", "core"] },
    { id := "text", kind := .library, root := Path.ofString "text", libs := ["core"] }]
  sorted := by decide

/-- A toolchain that does nothing and never fails. -/
def setup : BuildSetup Unit where
  registry := registry
  backend :=
    { perform := fun _ => pure ()
      generate := fun _ => pure ()
      scan := fun _ => pure [] }

/-- The session after one of the libraries was built. -/
def session : Session Unit :=
  (setup.serveAll [.build "core"] { world := () }).2

/-- With one library built, the application still needs the other one before itself. -/
theorem build_order_shell :
    session.unbuilt ["core", "text"] = ["text"] ∧
    ∃ entries, ((setup.build "shell").outcome session).2.trace = session.trace ++ entries ∧
      finishedIds entries <+: session.unbuilt ["core", "text"] ++ ["shell"] ∧
      (((setup.build "shell").outcome session).1 = .ok () ↔
        finishedIds entries = session.unbuilt ["core", "text"] ++ ["shell"]) :=
  ⟨by cbv, BuildSetup.build_order setup () [.build "core"] (by decide) [] "shell"
    ["core", "text"] session rfl (by cbv) (by cbv)⟩

end Sample

end NativeBuild
