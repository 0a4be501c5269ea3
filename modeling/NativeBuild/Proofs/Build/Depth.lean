import NativeBuild.Proofs.Build.Advance
import NativeBuild.Proofs.Build.Nested
import NativeBuild.Proofs.Build.Order
import NativeBuild.Proofs.Dependency.Errors

/-!
# The depth of recursions

How deep the recursions of a build nest, whatever the dependency graph.  A build of a project
calls builds of its libraries, and these of theirs, but only after the link closure of the project
was accepted; so the builds that go on at the same time are those of different registered
projects.  The trace shows them: a build that is entered is nested in those that were entered
before and not left.

Main definitions:

- `WellNested`: entries in which builds are entered within others, and left again.
- `Session.Nests`: a session after such entries.
- `BuildTask.Below`: a task for registered projects below those that are being built.

Main results:

- Theorem `Runs.nests`: every task nests builds of different registered projects.
- Theorem `outcome_buildWithin`: a depth of the number of projects is enough.
- Theorem `depth_bounded`: the bounds of both searches and of a build.
-/

namespace NativeBuild

open TraceEntry

/-! ## Nested entries -/

/-- The entry neither enters nor leaves a build. -/
def TraceEntry.IsStill (entry : TraceEntry) : Prop :=
  ∀ opened, entry.openAfter opened = opened

/-- After some entries below builds that are going on, a build that is entered is one of a further
registered project. -/
def EntersFurther (r : Registry) (opened : List String) (before : List TraceEntry)
    (entry : TraceEntry) : Prop :=
  ∀ q, entry = .entered q → r.Distinct (q :: before.foldl openAfter opened)

/-- Entries below builds that are going on: each build that is entered is one of a further
registered project, and all of them are left again. -/
structure WellNested (r : Registry) (opened : List String) (entries : List TraceEntry) :
    Prop where
  closed : entries.foldl openAfter opened = opened
  further : Throughout (EntersFurther r opened) entries

section Entries

variable {r : Registry} {opened : List String} {entries more : List TraceEntry} {id : String}

/-- Work enters and leaves no build. -/
theorem TraceEntry.IsWorkOf.isStill {entry : TraceEntry} (h : entry.IsWorkOf id) :
    entry.IsStill := by
  unfold IsWorkOf at h
  split at h <;> first | exact fun _ => rfl | cases h

/-- Entries that enter and leave no build are nested. -/
theorem wellNested_of_still (h : ∀ entry ∈ entries, entry.IsStill) :
    WellNested r opened entries where
  closed := by
    induction entries with
    | nil => rfl
    | cons entry rest ih =>
        obtain ⟨hentry, hrest⟩ := List.forall_mem_cons.1 h
        rw [List.foldl_cons, hentry, ih hrest]
  further := by
    rintro before _ after rfl q rfl
    have hstill := h (.entered q) (by simp) []
    cases hstill

/-- Nested entries may follow one another. -/
theorem WellNested.append (h : WellNested r opened entries) (h' : WellNested r opened more) :
    WellNested r opened (entries ++ more) where
  closed := by rw [List.foldl_append, h.closed, h'.closed]
  further := by
    refine throughout_append.2 ⟨h.further, h'.further.imp fun before entry hentry q hq => ?_⟩
    rw [List.foldl_append, h.closed]
    exact hentry q hq

/-- A build of a further project, with all that is nested in it. -/
theorem WellNested.enclose (h : WellNested r (id :: opened) entries)
    (hid : r.Distinct (id :: opened)) :
    WellNested r opened (.entered id :: (entries ++ [.left id])) where
  closed := by
    rw [List.foldl_cons, List.foldl_append, openAfter, h.closed]
    exact List.erase_cons_head id opened
  further := by
    rw [← List.singleton_append, throughout_append, throughout_concat]
    refine ⟨?_, h.further, by rintro q ⟨⟩⟩
    rintro before entry after hsplit q rfl
    obtain ⟨rfl, hsame⟩ : before = [] ∧ TraceEntry.entered id = .entered q := by
      cases before <;> simp_all
    cases hsame
    exact hid

end Entries

/-! ## Sessions -/

namespace Session

variable {σ : Type} {r : Registry} {opened : List String} {s t u : Session σ} {id : String}

/-- The second session has the trace of the first, and then entries that are nested below the
builds that are going on. -/
def Nests (r : Registry) (opened : List String) (s t : Session σ) : Prop :=
  ∃ entries, t.trace = s.trace ++ entries ∧ WellNested r opened entries

/-- From a session to itself nothing is entered. -/
theorem Nests.refl (r : Registry) (opened : List String) (s : Session σ) : Nests r opened s s :=
  ⟨[], by simp, wellNested_of_still (by simp)⟩

/-- Nested entries may follow nested entries. -/
theorem Nests.trans (hst : Nests r opened s t) (htu : Nests r opened t u) :
    Nests r opened s u := by
  obtain ⟨entries, htrace, hentries⟩ := hst
  obtain ⟨more, htrace', hmore⟩ := htu
  exact ⟨entries ++ more, by rw [htrace', htrace, List.append_assoc], hentries.append hmore⟩

/-- One more entry that neither enters nor leaves a build. -/
theorem Nests.concat (h : Nests r opened s t) {entry : TraceEntry} (hstill : entry.IsStill)
    (htrace : u.trace = t.trace ++ [entry]) : Nests r opened s u :=
  h.trans ⟨[entry], htrace, wellNested_of_still (by simpa using hstill)⟩

/-- Work is nested below the builds that are going on. -/
theorem Worked.nests (h : Worked id s t) : Nests r opened s t := by
  obtain ⟨entries, htrace, hwork⟩ := h.trace
  exact ⟨entries, htrace, wellNested_of_still fun entry hentry => (hwork entry hentry).isStill⟩

/-- A build of a further project, between its two marks. -/
theorem Nests.enclose (h : Nests r (id :: opened) (s.record (.entered id)) t)
    (hid : r.Distinct (id :: opened)) : Nests r opened s (t.record (.left id)) := by
  obtain ⟨entries, htrace, hentries⟩ := h
  refine ⟨.entered id :: (entries ++ [.left id]), ?_, hentries.enclose hid⟩
  rw [trace_record, htrace, trace_record]
  simp

end Session

/-- The task is one for registered projects, below different ones that are being built. -/
def BuildTask.Below (r : Registry) (stack : List String) : BuildTask → Prop
  | .call id => r.Distinct (id :: stack)
  | .steps p => r.get? p.id = some p ∧ r.Distinct (p.id :: stack)
  | .libraries _ ids => r.Distinct stack ∧ ∀ d ∈ ids, d ∈ r.ids

namespace BuildSetup

open Build Session

variable {σ : Type} {x : BuildSetup σ} {stack : List String} {s t : Session σ}
  {result : Except BuildError Unit} {id : String}

/-! ## Builds -/

/-- Making the directories of a project nests no build. -/
theorem nests_makeDirectories {p : Project} {opened : List String}
    (hdirs : (x.makeDirectories p).outcome s = (result, t)) : Nests x.registry opened s t :=
  ((x.works_makeDirectories p).worked hdirs).nests

/-- Nor does generating its files, with the mark after it. -/
theorem nests_marked {p : Project} {opened : List String}
    (hgen : (x.generate p).outcome s = (result, t)) :
    Nests x.registry opened s (t.setState p.id .built) :=
  ((x.works_generate p).worked hgen).nests

/-- Every task nests builds of different registered projects. -/
theorem Runs.nests {task : BuildTask} (h : x.Runs stack task s result t)
    (hbelow : task.Below x.registry stack) : Nests x.registry (task.inside stack) s t := by
  induction h with
  | @unknown stack id s hid =>
      obtain ⟨p, hp⟩ := Registry.mem_ids_iff.1 (hbelow.registered id List.mem_cons_self)
      rw [hid] at hp
      cases hp
  | blocked hp hdirs => exact (nests_makeDirectories hdirs).enclose hbelow
  | reused hp hdirs hstate =>
      exact ((nests_makeDirectories hdirs).concat (fun _ => rfl) rfl).enclose hbelow
  | refused hp hdirs hstate => exact (nests_makeDirectories hdirs).enclose hbelow
  | succeeded hp hdirs hstate hsteps ih =>
      have hcall := (nests_makeDirectories hdirs).trans (ih ⟨hp, hbelow⟩)
      exact (hcall.concat (fun _ => rfl) (trace_succeed _ _)).enclose hbelow
  | failed hp hdirs hstate hsteps ih =>
      have hcall := (nests_makeDirectories hdirs).trans (ih ⟨hp, hbelow⟩)
      exact (hcall.concat (fun _ => rfl) (trace_fail _ _)).enclose hbelow
  | invalid hvalid => exact .refl _ _ _
  | ungenerated hvalid hgen => exact ((x.works_generate _).worked hgen).nests
  | interrupted hvalid hgen hlibs ih =>
      obtain ⟨hp, hstack⟩ := hbelow
      exact (nests_marked hgen).trans (ih ⟨hstack, fun d hd => mem_ids_of_validate hp hvalid hd⟩)
  | produced hvalid hgen hlibs hown ih =>
      obtain ⟨hp, hstack⟩ := hbelow
      have hlibraries := (nests_marked hgen).trans
        (ih ⟨hstack, fun d hd => mem_ids_of_validate hp hvalid hd⟩)
      exact hlibraries.trans ((x.works_produce _).worked hown).nests
  | noLibrary => exact .refl _ _ _
  | nextLibrary hid hfirst hrest ihfirst ihrest =>
      obtain ⟨hstack, hregistered⟩ := hbelow
      obtain ⟨hlibrary, hothers⟩ := List.forall_mem_cons.1 hregistered
      exact (ihfirst (hstack.cons hlibrary hid)).trans (ihrest ⟨hstack, hothers⟩)
  | lostLibrary hid hfirst ih =>
      exact ih (hbelow.1.cons (hbelow.2 _ List.mem_cons_self) hid)

/-- For a registered id, a depth of the number of projects is enough. -/
theorem outcome_buildWithin (hid : id ∈ x.registry.ids) {depth : Nat}
    (hdepth : x.registry.size ≤ depth) (s : Session σ) :
    (x.buildWithin depth id).outcome s = (x.build id).outcome s :=
  (runs_buildWithin_of_mem (.nil x.registry id) hid (by simpa using hdepth) s).outcome_build.symm

/-- All recursions nest at most as deep as there are projects, whatever the dependency graph.  For
every registered id:

* the searches behind the link closure and the header closure, from any seed, nest in different
  registered projects; they enter the id first, and after that only registered ids outside the
  seed, each at most once;
* a build, from any session, is the same as one that may only nest to the depth of the number of
  projects; and whenever a build of a project is entered in it, this project and those whose
  builds it is nested in are different registered ones. -/
theorem depth_bounded (x : BuildSetup σ) {id : String} (hid : id ∈ x.registry.ids) :
    (∀ seed,
      ((x.registry.linkSearch id seed).result = x.registry.extendLink id seed ∧
        x.registry.SearchBound id seed (x.registry.linkSearch id seed)) ∧
      (x.registry.headerSearch id seed).result = x.registry.extendHeaders id seed ∧
        x.registry.SearchBound id seed (x.registry.headerSearch id seed)) ∧
    ∀ s : Session σ,
      (∀ depth, x.registry.size ≤ depth →
        (x.buildWithin depth id).outcome s = (x.build id).outcome s) ∧
      ∃ entries, ((x.build id).outcome s).2.trace = s.trace ++ entries ∧
        ∀ before q after, entries = before ++ .entered q :: after →
          x.registry.Distinct (q :: openBuilds before) ∧
          (q :: openBuilds before).length ≤ x.registry.size := by
  refine ⟨fun seed => ⟨?_, ?_⟩, fun s => ⟨fun depth hdepth => outcome_buildWithin hid hdepth s, ?_⟩⟩
  · exact ⟨Registry.result_linkSearch _ id seed, Registry.searchBound_linkSearch hid seed⟩
  · exact ⟨Registry.result_headerSearch _ id seed, Registry.searchBound_headerSearch hid seed⟩
  · obtain ⟨entries, htrace, hnested⟩ :=
      (x.runs_build id s).nests (Registry.distinct_singleton hid)
    refine ⟨entries, htrace, fun before q after hsplit => ?_⟩
    have hdistinct := hnested.further before (.entered q) after hsplit q rfl
    exact ⟨hdistinct, hdistinct.length_le⟩

end BuildSetup

/-! ## Samples -/

namespace Sample

/-- The projects of the tangled registry, with a toolchain that never fails. -/
def tangledSetup : BuildSetup Unit where
  registry := tangle
  backend := setup.backend

/-- What the trace shows when the application of the sample projects is built. -/
def shellTrace : List TraceEntry :=
  ((setup.build "shell").outcome { world := () }).2.trace

/-- Up to there, the builds of both other projects are entered. -/
theorem shellTrace_eq :
    shellTrace = shellTrace.take 8 ++ .entered "core" :: shellTrace.drop 9 := by
  cbv

/-- The search that finds the cycle enters both libraries of it once, and then ends.  In a build
without a cycle, three builds go on at the same time, and there are no more projects. -/
theorem searches_and_builds_bounded :
    ("shell" ∈ tangledSetup.registry.ids ∧ "shell" ∈ setup.registry.ids) ∧
    ((tangle.linkSearch "shell" []).calls = [["shell"], ["shell", "text"],
        ["shell", "text", "core"]] ∧
      tangle.SearchBound "shell" [] (tangle.linkSearch "shell" [])) ∧
    "core" :: openBuilds (shellTrace.take 8) = ["core", "text", "shell"] ∧
    registry.Distinct ["core", "text", "shell"] ∧ registry.size = 3 := by
  have htangled : "shell" ∈ tangledSetup.registry.ids := by decide
  have hshell : "shell" ∈ setup.registry.ids := by decide
  have hopen : "core" :: openBuilds (shellTrace.take 8) = ["core", "text", "shell"] := by cbv
  obtain ⟨hsearch, -⟩ := BuildSetup.depth_bounded tangledSetup htangled
  obtain ⟨-, hbuild⟩ := BuildSetup.depth_bounded setup hshell
  obtain ⟨-, entries, htrace, hnested⟩ := hbuild { world := () }
  obtain rfl : shellTrace = entries := htrace
  obtain ⟨hdistinct, -⟩ := hnested _ _ _ shellTrace_eq
  rw [hopen] at hdistinct
  exact ⟨⟨htangled, hshell⟩, ⟨by cbv, (hsearch []).1.2⟩, hopen, hdistinct, rfl⟩

end Sample

end NativeBuild
