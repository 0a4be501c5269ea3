import Mathlib
import NativeBuild.Proofs.Build.Calls
import NativeBuild.Proofs.Build.Marker
import NativeBuild.Proofs.Build.Steady
import NativeBuild.Proofs.Project.Layout

/-!
# Archives that are linked

An archive is in stock from the call that makes it until its directory is removed.  Cleaning
a library forgets the library, and not the projects that were built with it: they answer for
it unseen.  So whether an archive is in stock when an image is linked depends on how the
library is reached.

Main definitions:

- `inStock`: an archive was made and its directory was not removed after that.
- `BuildSetup.Supplied`: what holds before an image is linked and before a success is told.
- `BuildSetup.Stockpiled`: a session in which the archives of all built libraries are in
  stock.

Main results:

- Theorem `inStock_iff`: what being in stock means, by the calls of the trace.
- Theorem `stepInvariant_stockpiled`: what the steps of a build preserve.
- Theorem `clean_stockpiled`: what a cleaning preserves.
- Theorem `linked_archives_in_stock`: which archives are in stock when an image is linked.
- Theorem `Sample.removed_archive_linked`: an archive may be linked after it was removed.
-/

namespace NativeBuild

/-! ## Being in stock -/

/-- The archive of a library is in stock after an entry. -/
def stockAfter (dep : Project) (library : Path) (before : Bool) : TraceEntry → Bool
  | .call project (.archive _ output) =>
    if project = dep.id ∧ output = library then true else before
  | .call _ (.removeDirectoryTree directory) => if directory.same dep.binDir then false else before
  | _ => before

/-- The archive of a library was made, and the directory of the library's output was not
removed after that. -/
def inStock (dep : Project) (library : Path) (trace : List TraceEntry) : Bool :=
  trace.foldl (stockAfter dep library) false

variable {dep : Project} {library : Path} {trace entries : List TraceEntry}

@[simp] theorem inStock_concat (dep : Project) (library : Path) (trace : List TraceEntry)
    (entry : TraceEntry) :
    inStock dep library (trace ++ [entry]) =
      stockAfter dep library (inStock dep library trace) entry := by
  simp [inStock]

/-- The entry does not remove the directory of the library's output. -/
def TraceEntry.Spares (dep : Project) (entry : TraceEntry) : Prop :=
  ∀ project directory, entry = .call project (.removeDirectoryTree directory) →
    directory.same dep.binDir = false

/-- An archive stays in stock as long as its directory is not removed. -/
theorem stockAfter_of_spares {entry : TraceEntry} (h : entry.Spares dep) :
    stockAfter dep library true entry = true := by
  unfold stockAfter
  split
  · exact ite_self true
  · next project directory => rw [if_neg (by simp [h project directory rfl])]
  · rfl

/-- What is in stock stays so as long as its directory is not removed. -/
theorem inStock_append (h : inStock dep library trace = true)
    (hentries : ∀ entry ∈ entries, entry.Spares dep) :
    inStock dep library (trace ++ entries) = true := by
  induction entries using List.reverseRecOn with
  | nil => rwa [List.append_nil]
  | append_singleton rest entry ih =>
      have hrest := ih fun other hother => hentries other (by simp [hother])
      rw [← List.append_assoc, inStock_concat, hrest]
      exact stockAfter_of_spares (hentries entry (by simp))

/-- An archive is in stock when a call made it after which its directory was not removed. -/
theorem inStock_iff :
    inStock dep library trace = true ↔
      ∃ early objects late, trace = early ++ .call dep.id (.archive objects library) :: late ∧
        ∀ entry ∈ late, entry.Spares dep := by
  constructor
  · intro h
    induction trace using List.reverseRecOn with
    | nil => cases h
    | append_singleton rest entry ih =>
        -- Either the last entry makes the archive, or it leaves what was in stock before.
        have hkept : inStock dep library rest = true → entry.Spares dep →
            ∃ early objects late,
              rest ++ [entry] = early ++ .call dep.id (.archive objects library) :: late ∧
                ∀ entry ∈ late, entry.Spares dep := by
          intro hrest hentry
          obtain ⟨early, objects, late, rfl, hlate⟩ := ih hrest
          refine ⟨early, objects, late ++ [entry], by simp, fun other hother => ?_⟩
          rcases List.mem_append.1 hother with hother | hother
          · exact hlate other hother
          · rwa [List.mem_singleton.1 hother]
        rw [inStock_concat] at h
        unfold stockAfter at h
        split at h
        · next project objects output =>
            split at h
            · next hmade =>
                obtain ⟨rfl, rfl⟩ := hmade
                exact ⟨rest, objects, [], rfl, by simp⟩
            · exact hkept h (by simp [TraceEntry.Spares])
        · next project directory =>
            split at h
            · cases h
            · next hother => exact hkept h (by simpa [TraceEntry.Spares] using hother)
        · next hentry =>
            exact hkept h fun project directory heq => absurd heq (hentry project directory)
  · rintro ⟨early, objects, late, rfl, hlate⟩
    rw [List.append_cons]
    exact inStock_append (by simp [stockAfter]) hlate

namespace Registry

/-- Only a library has an archive, and that is its output. -/
theorem archive?_eq_some_iff {dep : Project} {library : Path} :
    archive? dep = some library ↔ dep.kind = .library ∧ dep.output? = some library := by
  unfold archive?
  split <;> simp [*]

end Registry

namespace BuildSetup

open Build Session TraceEntry

variable {σ : Type} {x : BuildSetup σ} {start : σ} {opened running : List String}
  {s t : Session σ} {id : String}

/-! ## Supplied traces -/

/-- The archives of all libraries that were finished with success are in stock. -/
def Stocked (x : BuildSetup σ) (trace : List TraceEntry) : Prop :=
  ∀ dep library, x.registry.get? dep.id = some dep → Registry.archive? dep = some library →
    verdict dep.id trace = some true → inStock dep library trace = true

/-- What holds before an entry: an image is linked, with the archives that the registry has
for its project, when the libraries of the project were finished with success and what was
finished so is in stock; and a project is finished with success after its libraries were. -/
def Supplied (x : BuildSetup σ) (before : List TraceEntry) : TraceEntry → Prop
  | .call id (.link _ libraries _ _) => x.Stocked before ∧
      ∃ p, x.registry.get? id = some p ∧ x.registry.libraries p = .ok libraries ∧
        ∀ d ∈ p.libs, verdict d before = some true
  | .event (.finished id true) =>
    ∀ d ∈ x.registry.edges linkEdges id, verdict d before = some true
  | _ => True

/-- Entries that change no verdict and remove nothing keep archives in stock. -/
theorem Stocked.append {trace entries : List TraceEntry} (h : x.Stocked trace)
    (hverdict : ∀ q, verdict q (trace ++ entries) = verdict q trace)
    (hspares : ∀ dep, ∀ entry ∈ entries, entry.Spares dep) : x.Stocked (trace ++ entries) := by
  intro dep library hdep harchive hsuccess
  rw [hverdict] at hsuccess
  exact inStock_append (h dep library hdep harchive hsuccess) (hspares dep)

/-- A library of which a plan was carried out has its archive in stock. -/
theorem inStock_of_carried {dep : Project} {library : Path} {trace : List TraceEntry}
    (h : x.Carried start dep trace) (harchive : Registry.archive? dep = some library) :
    inStock dep library trace = true := by
  obtain ⟨earlier, output, sources, plan, world, houtput, -, hplan, -, -, htrace⟩ := h
  obtain ⟨hkind, hlibrary⟩ := Registry.archive?_eq_some_iff.1 harchive
  obtain rfl := Option.some.inj (houtput.symm.trans hlibrary)
  obtain ⟨-, -, rfl, -⟩ := Registry.planWith_eq_ok hplan
  -- The archive is the last call of the plan.
  have hlink : x.linkCalls dep plan = [.archive plan.objects plan.output] := by
    rw [linkCalls, hkind]
    rfl
  rw [htrace, script, hlink, List.map_singleton, List.append_cons, ← List.append_assoc,
    inStock_concat]
  simp [stockAfter]

/-! ## Sessions -/

/-- A tracked session whose trace is supplied and in which the archives of all libraries that
were finished with success are in stock. -/
structure Stockpiled (x : BuildSetup σ) (start : σ) (opened running : List String)
    (s : Session σ) : Prop where
  tracked : x.Tracked start opened running s
  supplied : Throughout x.Supplied s.trace
  stocked : x.Stocked s.trace

/-- A fresh session is stockpiled. -/
theorem stockpiled_fresh (x : BuildSetup σ) (start : σ) :
    x.Stockpiled start [] [] { world := start } where
  tracked := x.tracked_fresh start
  supplied := throughout_nil
  stocked _ _ _ _ h := by cases h

/-- Before an entry of work, what it takes is there: nothing is removed, and an image is
linked, with the archives of its project, only when the libraries were finished. -/
def Ready (x : BuildSetup σ) (before : List TraceEntry) : TraceEntry → Prop
  | .call id (.link _ libraries _ _) =>
    ∃ p, x.registry.get? id = some p ∧ x.registry.libraries p = .ok libraries ∧
      ∀ d ∈ p.libs, verdict d before = some true
  | .call _ (.removeDirectoryTree _) => False
  | _ => True

/-- Work for which all is there removes nothing. -/
theorem Ready.spares {before : List TraceEntry} {entry : TraceEntry} (h : x.Ready before entry)
    (dep : Project) : entry.Spares dep := by
  rintro project directory rfl
  cases h

/-- Only verdicts matter for what work takes. -/
theorem Ready.congr {before after : List TraceEntry} {entry : TraceEntry}
    (h : x.Ready before entry) (hverdict : ∀ q, verdict q after = verdict q before) :
    x.Ready after entry := by
  unfold Ready at h ⊢
  split
  · obtain ⟨p, hp, hlibraries, hlibs⟩ := h
    exact ⟨p, hp, hlibraries, fun d hd => (hverdict d).trans (hlibs d hd)⟩
  · exact h
  · trivial

/-- Where archives are in stock, work is supplied if what it takes is there. -/
theorem Ready.supplied {before : List TraceEntry} {entry : TraceEntry} (h : x.Ready before entry)
    (hwork : entry.IsWorkOf id) (hstocked : x.Stocked before) : x.Supplied before entry := by
  unfold Supplied
  split
  · exact ⟨hstocked, h⟩
  · cases hwork
  · trivial

/-- Work for which all that it takes is there. -/
theorem Stockpiled.worked (h : x.Stockpiled start opened running s) (hst : Worked id s t)
    (hworld : x.Replayed start t)
    (hready : ∀ entries, t.trace = s.trace ++ entries → ∀ entry ∈ entries, x.Ready s.trace entry) :
    x.Stockpiled start opened running t := by
  obtain ⟨entries, htrace, hwork⟩ := hst.trace
  have hentries := hready entries htrace
  have hstocked : ∀ done, done <+: entries → x.Stocked (s.trace ++ done) := by
    intro done hdone
    refine h.stocked.append (fun q => ?_) fun dep entry hentry => ?_
    · exact verdict_append_of_work fun entry hentry => hwork entry (hdone.subset hentry)
    · exact (hentries entry (hdone.subset hentry)).spares dep
  refine ⟨h.tracked.worked hst hworld, ?_, ?_⟩
  · rw [htrace, throughout_append]
    refine ⟨h.supplied, fun before entry after heq => ?_⟩
    have hentry := hentries entry (by simp [heq])
    have hown := hwork entry (by simp [heq])
    have hbefore : before <+: entries := ⟨entry :: after, heq.symm⟩
    refine (hentry.congr fun q => ?_).supplied hown (hstocked before hbefore)
    exact verdict_append_of_work fun other hother => hwork other (hbefore.subset hother)
  · rw [htrace]
    exact hstocked entries List.prefix_rfl

/-- Making directories and generating files takes nothing. -/
theorem Stockpiled.followed {p : Project} {α : Type} {action : Build σ α}
    {result : Except BuildError α} {script : List TraceEntry}
    (h : x.Stockpiled start opened running s) (hworks : Works p.id action)
    (hfollows : Follows script action) (hscript : ∀ entry ∈ script, x.Ready s.trace entry)
    (hworld : x.Replayed start t) (houtcome : action.outcome s = (result, t)) :
    x.Stockpiled start opened running t := by
  refine h.worked (hworks.worked houtcome) hworld fun entries htrace entry hentry => ?_
  obtain ⟨done, hdone, hsame, -⟩ := hfollows s
  rw [houtcome, htrace] at hsame
  exact hscript entry (hdone.subset (List.append_cancel_left hsame ▸ hentry))

/-- A project whose libraries are built may be produced. -/
theorem Stockpiled.produced {p : Project} {result : Except BuildError Unit}
    (h : x.Stockpiled start opened running s) (hp : x.registry.get? p.id = some p)
    (hlibs : ∀ d ∈ p.libs, s.states d = .built ∧ d ∉ running)
    (houtcome : (x.produce p).outcome s = (result, t)) : x.Stockpiled start opened running t := by
  have hworked := (x.works_produce p).worked houtcome
  refine h.worked hworked (h.tracked.replayed.produced hp houtcome)
    fun entries htrace entry hentry => ?_
  obtain ⟨left, hleft, hall⟩ := grown_produce hp houtcome
  obtain ⟨own, hown, hwork⟩ := hworked.trace
  obtain rfl := List.append_cancel_left (htrace.symm.trans hleft)
  obtain rfl := List.append_cancel_left (htrace.symm.trans hown)
  have hentryleft := hall entry hentry
  have hentrywork := hwork entry hentry
  unfold Ready
  split
  · next project objects libraries output script =>
      obtain ⟨q, hq, hlibraries⟩ := hentryleft
      obtain rfl : project = p.id := hentrywork
      rw [hp] at hq
      cases hq
      refine ⟨p, hp, hlibraries, fun d hd => ?_⟩
      obtain ⟨hbuilt, hnot⟩ := hlibs d hd
      rwa [h.tracked.settled d hnot, BuildState.ofVerdict_eq_built_iff] at hbuilt
  · exact hentryleft
  · trivial

/-- An entry that finishes nothing and takes nothing. -/
theorem Stockpiled.record {opened' running' : List String}
    (h : x.Stockpiled start opened running s) {entry : TraceEntry}
    (htracked : x.Tracked start opened' running' (s.record entry))
    (hsupplied : ∀ before, x.Supplied before entry)
    (hkept : ∀ q told, entry.verdictAfter q told = told) (hspares : ∀ dep, entry.Spares dep) :
    x.Stockpiled start opened' running' (s.record entry) := by
  refine ⟨htracked, throughout_concat.2 ⟨h.supplied, hsupplied _⟩, ?_⟩
  refine h.stocked.append (fun q => ?_) fun dep other hother => ?_
  · rw [verdict_concat, hkept]
  · rw [List.mem_singleton.1 hother]
    exact hspares dep

/-- A project that is finished, with success only if its archive is in stock. -/
theorem Stockpiled.finish {opened' running' : List String} {success : Bool}
    (h : x.Stockpiled start opened running s) (htracked : x.Tracked start opened' running' t)
    (htrace : t.trace = s.trace ++ [.event (.finished id success)])
    (hsupplied : x.Supplied s.trace (.event (.finished id success)))
    (hmade : success = true → ∃ p, x.registry.get? id = some p ∧ x.Carried start p s.trace) :
    x.Stockpiled start opened' running' t := by
  refine ⟨htracked, ?_, ?_⟩
  · rw [htrace, throughout_concat]
    exact ⟨h.supplied, hsupplied⟩
  · rw [htrace]
    intro dep library hdep harchive hsuccess
    rw [verdict_concat, verdictAfter] at hsuccess
    refine inStock_append ?_ (by simp [Spares])
    split at hsuccess
    · next heq =>
        obtain ⟨p, hp, hcarried⟩ := hmade (Option.some.inj hsuccess)
        rw [heq, hdep] at hp
        cases hp
        exact inStock_of_carried hcarried harchive
    · exact h.stocked dep library hdep harchive hsuccess

/-- Every step of a build keeps the archives of what is built in stock. -/
theorem stepInvariant_stockpiled (x : BuildSetup σ) (start : σ) :
    x.StepInvariant (x.Stockpiled start) where
  entered h hid := h.record (h.tracked.enter hid) (fun _ => trivial) (fun _ _ => rfl)
    (by simp [Spares])
  left h := h.record h.tracked.leave (fun _ => trivial) (fun _ _ => rfl) (by simp [Spares])
  directories h hdirs := h.followed (x.works_makeDirectories _) (x.follows_makeDirectories _)
    (by simp [Ready]) (h.tracked.replayed.directories hdirs) hdirs
  reused h hid hstate := h.record (h.tracked.reuse hid hstate) (fun _ => trivial)
    (fun _ _ => rfl) (by simp [Spares])
  begun h _ hid hstate := ⟨h.tracked.begin hid hstate, h.supplied, h.stocked⟩
  generated h hp hgen := h.followed (x.works_generate _) (x.follows_generate _) (by simp [Ready])
    (h.tracked.replayed.generated hp hgen) hgen
  marked h := ⟨h.tracked.setState .built, h.supplied, h.stocked⟩
  produced h hp hlibs hown := h.produced hp hlibs hown
  succeeded := by
    intro opened running p s t hs h hp hid hsteps
    have hcarried := hsteps.carried hp hs.tracked.replayed
    have htracked := h.tracked.succeed hid hsteps.built_of_steps hp hcarried
    refine h.finish htracked rfl (fun d hd => ?_) fun _ => ⟨p, hp, hcarried⟩
    rw [Registry.edges_linkEdges hp] at hd
    obtain ⟨hbuilt, hnot⟩ := hsteps.libs_of_ok d hd
    rwa [h.tracked.settled d hnot, BuildState.ofVerdict_eq_built_iff] at hbuilt
  failed h _ hid := h.finish (h.tracked.fail hid) rfl trivial (by simp)

/-! ## Cleaning -/

/-- Directories can always be removed. -/
def Removes (x : BuildSetup σ) : Prop :=
  ∀ directory world, resultOf (x.backend.perform (.removeDirectoryTree directory)) world = .ok ()

/-- Where directories can be removed, cleaning a project removes its two and forgets it. -/
theorem trace_clean (hremoves : x.Removes) {p : Project} (hp : x.registry.get? p.id = some p)
    (s : Session σ) :
    ((x.clean p.id).outcome s).2.trace = s.trace ++
      [.call p.id (.removeDirectoryTree p.objDir), .call p.id (.removeDirectoryTree p.binDir)] ++
        [.cleaned p.id] := by
  have hperform : ∀ directory (s : Session σ),
      ∃ t, (x.perform p.id (.removeDirectoryTree directory)).outcome s = (.ok (), t) ∧
        t.trace = s.trace ++ [.call p.id (.removeDirectoryTree directory)] := by
    intro directory s
    have hok := fst_outcome_act (.call p.id (.removeDirectoryTree directory))
      (x.backend.perform (.removeDirectoryTree directory)) s
    rw [hremoves] at hok
    exact ⟨_, Prod.ext hok rfl, trace_outcome_act _ _ s⟩
  obtain ⟨t, hobj, htrace⟩ := hperform p.objDir s
  obtain ⟨u, hbin, hboth⟩ := hperform p.binDir t
  have hgive := outcome_give (x.registry.require p.id) s
  rw [Registry.require, hp] at hgive
  rw [clean, Registry.require, hp, outcome_bind_of_ok hgive, outcome_bind_of_ok hobj,
    outcome_bind_of_ok hbin, outcome_change, trace_forget, hboth, htrace]
  simp

/-- Where projects lie apart and directories can be removed, cleaning keeps in stock what is
not cleaned. -/
theorem clean_stockpiled (hapart : x.registry.Apart) (hremoves : x.Removes) (id : String)
    (s : Session σ) (hs : x.Stockpiled start [] [] s) :
    x.Stockpiled start [] [] ((x.clean id).outcome s).2 := by
  have htracked := clean_tracked id s hs.tracked
  cases hp : x.registry.get? id with
  | none =>
      have hsame : (x.clean id).outcome s = (.error (.projectNotFound id), s) := by
        rw [clean, Registry.require, hp]
        exact outcome_bind_of_error (outcome_give _ s)
      rwa [hsame]
  | some p =>
      obtain rfl := Registry.id_of_get? hp
      have htrace := trace_clean hremoves hp s
      refine ⟨htracked, ?_, ?_⟩
      · rw [htrace, List.append_assoc]
        exact hs.supplied.append (by simp [Supplied])
      · rw [htrace]
        intro dep library hdep harchive hsuccess
        rw [verdict_concat, verdictAfter] at hsuccess
        split at hsuccess
        · cases hsuccess
        · next hne =>
            have hremovals : ∀ entry ∈ [TraceEntry.call p.id (.removeDirectoryTree p.objDir),
                .call p.id (.removeDirectoryTree p.binDir)], entry.IsWorkOf p.id := by
              simp [IsWorkOf]
            rw [verdict_append_of_work hremovals] at hsuccess
            have hobj := p.objDir_same_binDir dep
            have hbin : p.binDir.same dep.binDir = false := by
              refine Bool.eq_false_iff.2 fun hsame => hne ?_
              exact hapart.id_eq_of_same_binDir (Registry.get?_eq_some_iff.1 hp).1
                (Registry.get?_eq_some_iff.1 hdep).1 hsame
            rw [List.append_assoc]
            refine inStock_append (hs.stocked dep library hdep harchive hsuccess) ?_
            simp [Spares, hobj, hbin]

/-- Where projects lie apart and directories can be removed, any run of requests keeps the
archives of what is built in stock. -/
theorem serveAll_stockpiled (hapart : x.registry.Apart) (hremoves : x.Removes) (start : σ)
    (requests : List Request) :
    x.Stockpiled start [] [] (x.serveAll requests { world := start }).2 :=
  serveAll_preserves (fun request _ _ =>
    serve_preserves (x.stepInvariant_stockpiled start).build (clean_stockpiled hapart hremoves)
      request) (x.stockpiled_fresh start)

/-! ## Linked archives -/

/-- What was finished with success and is not cleaned keeps its verdict. -/
theorem verdict_append_of_kept {before later : List TraceEntry} {d : String}
    (hlawful : Throughout (x.Lawful start) (before ++ later)) (hd : verdict d before = some true)
    (hkept : TraceEntry.cleaned d ∉ later) : verdict d (before ++ later) = some true := by
  induction later using List.reverseRecOn with
  | nil => rwa [List.append_nil]
  | append_singleton rest entry ih =>
      rw [← List.append_assoc] at hlawful ⊢
      obtain ⟨hrest, hentry⟩ := throughout_concat.1 hlawful
      have hsame := ih hrest fun hmem => hkept (by simp [hmem])
      rw [verdict_concat, verdictAfter_of_not_finishes ?_ fun heq => hkept (by simp [heq]), hsame]
      -- What has a verdict is not finished again.
      cases hfinishes : entry.finishes d with
      | false => rfl
      | true => cases hsame.symm.trans (hentry.none_of_finishes hfinishes)

/-- What a project reaches whose libraries were finished with success was finished so at some
time. -/
theorem exists_finished_of_reaches {before : List TraceEntry} {p d : String}
    (hsupplied : Throughout x.Supplied before)
    (hlibs : ∀ q ∈ x.registry.edges linkEdges p, verdict q before = some true)
    (hd : x.registry.Reaches linkEdges p d) :
    ∃ told later, before = told ++ .event (.finished d true) :: later := by
  induction hd with
  | step hd =>
      obtain ⟨told, later, heq, -⟩ := exists_finished_of_verdict (hlibs _ hd)
      exact ⟨told, later, heq⟩
  | tail _ hd ih =>
      obtain ⟨told, later, rfl⟩ := ih
      have hinner := hsupplied told _ later rfl _ hd
      obtain ⟨first, second, rfl, -⟩ := exists_finished_of_verdict hinner
      exact ⟨first, second ++ _ :: later, by rw [List.append_assoc]; rfl⟩

/-- Which archives are in stock when an image is linked.  Let projects lie apart, and let
directories always be removed without an error.  In the trace of any requests, to build or to
clean, whatever else may fail, an image is linked with archives of libraries in the link
closure of its project, and each of them was archived before.  An archive is in stock, which
means that its directory was not removed after the call that made it,

* if the project links the library itself,
* if the library was finished with success and not cleaned since, or
* if the library was not cleaned since some project that links it was finished with success. -/
theorem linked_archives_in_stock (x : BuildSetup σ) (hapart : x.registry.Apart)
    (hremoves : x.Removes) (world : σ) (requests : List Request) (before after : List TraceEntry)
    (id : String) (objects libraries : List Path) (output script : Path)
    (htrace : (x.serveAll requests { world }).2.trace =
      before ++ .call id (.link objects libraries output script) :: after) :
    ∃ p closure, x.registry.get? id = some p ∧ x.registry.linkClosure id = .ok closure ∧
      ∀ library ∈ libraries, ∃ dep, dep.id ∈ closure ∧ x.registry.get? dep.id = some dep ∧
        Registry.archive? dep = some library ∧
        (∃ made, .call dep.id (.archive made library) ∈ before) ∧
        ((dep.id ∈ p.libs ∨ verdict dep.id before = some true ∨
            ∃ q told later, dep.id ∈ x.registry.edges linkEdges q ∧
              before = told ++ .event (.finished q true) :: later ∧
              TraceEntry.cleaned dep.id ∉ later) →
          inStock dep library before = true) := by
  obtain ⟨htracked, hsupplied, -⟩ := serveAll_stockpiled hapart hremoves world requests
  have hlawful := htracked.lawful
  rw [htrace] at hsupplied hlawful
  obtain ⟨hstocked, p, hp, hlibraries, hlibs⟩ := hsupplied before _ after rfl
  obtain rfl := Registry.id_of_get? hp
  obtain ⟨closure, hclosure, hmem⟩ := Registry.mem_libraries hlibraries
  refine ⟨p, closure, hp, hclosure, fun library hlibrary => ?_⟩
  obtain ⟨dep, hdep, hget, harchive⟩ := hmem library hlibrary
  refine ⟨dep, hdep, hget, harchive, ?_, fun hlinked => ?_⟩
  · have hreach := (Registry.mem_linkClosure_iff hclosure).1 hdep
    rw [← Registry.edges_linkEdges hp] at hlibs
    obtain ⟨told, later, rfl⟩ := exists_finished_of_reaches hsupplied.left hlibs hreach
    obtain ⟨-, hcarried⟩ := hlawful.left told _ later rfl
    obtain ⟨q, hq, hmade⟩ := hcarried rfl
    rw [hget] at hq
    cases hq
    obtain ⟨early, made, late, rfl, -⟩ := inStock_iff.1 (inStock_of_carried hmade harchive)
    exact ⟨made, by simp⟩
  · refine hstocked dep library hget harchive ?_
    rcases hlinked with hown | hbuilt | ⟨q, told, later, hq, rfl, hkept⟩
    · exact hlibs dep.id hown
    · exact hbuilt
    · have htold : verdict dep.id told = some true := hsupplied.left told _ later rfl dep.id hq
      exact verdict_append_of_kept hlawful.left htold (by simp [hkept])

end BuildSetup

/-! ## A sample -/

namespace Sample

/-- A library, a library that links it, and an application that links only the second. -/
def chain : Registry where
  projects := [
    { id := "core", kind := .library, root := Path.ofString "core" },
    { id := "shell", kind := .application, root := Path.ofString "shell", libs := ["text"] },
    { id := "text", kind := .library, root := Path.ofString "text", libs := ["core"] }]
  sorted := by decide

/-- Those projects with a toolchain that does nothing and never fails. -/
def chainSetup : BuildSetup Unit where
  registry := chain
  backend :=
    { perform := fun _ => pure ()
      generate := fun _ => pure ()
      scan := fun _ => pure [] }

/-- What the trace shows when a library is cleaned after the one that links it was built, and
then the application is built. -/
def chainTrace : List TraceEntry :=
  (chainSetup.serveAll [.build "text", .clean "core", .build "shell"] { world := () }).2.trace

/-- The sample projects lie apart. -/
theorem apart_chain : chain.Apart := by
  unfold Registry.Apart
  decide +kernel

/-- The application is linked with the archives of both libraries. -/
theorem chainTrace_eq :
    chainTrace = chainTrace.take 41 ++ .call "shell" (.link
      [Path.ofString "shell/obj/__assets.s.o"]
      [Path.ofString "core/bin/core.lib", Path.ofString "text/bin/text.lib"]
      (Path.ofString "shell/bin/shell.app") (Path.ofString "common/userspace.ld")) ::
      chainTrace.drop 42 := by
  cbv

/-- The archive of the library that the application links itself is in stock. -/
theorem chain_archive_in_stock :
    (chain.Apart ∧ chainSetup.Removes ∧ chainTrace ≠ []) ∧
    ∃ dep, chain.get? "text" = some dep ∧
      inStock dep (Path.ofString "text/bin/text.lib") (chainTrace.take 41) = true := by
  have hremoves : chainSetup.Removes := fun _ _ => rfl
  have hnonempty : chainTrace ≠ [] := by
    rw [chainTrace_eq]
    simp
  refine ⟨⟨apart_chain, hremoves, hnonempty⟩, ?_⟩
  obtain ⟨p, closure, hp, -, hall⟩ := BuildSetup.linked_archives_in_stock chainSetup apart_chain
    hremoves () [.build "text", .clean "core", .build "shell"] _ _ _ _ _ _ _ chainTrace_eq
  obtain ⟨dep, -, hdep, harchive, -, hstock⟩ := hall (Path.ofString "text/bin/text.lib") (by simp)
  cases hp
  have hmem := (Registry.get?_eq_some_iff.1 hdep).1
  simp only [chainSetup, chain, List.mem_cons, List.not_mem_nil, or_false] at hmem
  rcases hmem with rfl | rfl | rfl
  · exact absurd harchive (by decide)
  · exact absurd harchive (by decide)
  · exact ⟨_, rfl, hstock (.inl (by decide))⟩

/-- All calls succeed, and still the archive of the library below is gone when it is linked:
the library was cleaned, and the one that links it was reused. -/
theorem removed_archive_linked :
    chain.Apart ∧ (∀ call world, resultOf (chainSetup.backend.perform call) world = .ok ()) ∧
    ¬ ∀ before id objects libraries output script after,
        chainTrace = before ++ .call id (.link objects libraries output script) :: after →
        ∀ library ∈ libraries, ∃ dep, chain.get? dep.id = some dep ∧
          Registry.archive? dep = some library ∧ inStock dep library before = true := by
  refine ⟨apart_chain, fun _ _ => rfl, fun hclaim => ?_⟩
  obtain ⟨dep, hdep, harchive, hstock⟩ :=
    hclaim _ _ _ _ _ _ _ chainTrace_eq (Path.ofString "core/bin/core.lib") (by simp)
  have hmem := (Registry.get?_eq_some_iff.1 hdep).1
  simp only [chain, List.mem_cons, List.not_mem_nil, or_false] at hmem
  rcases hmem with rfl | rfl | rfl
  · have hlost : inStock { id := "core", kind := .library, root := Path.ofString "core" }
        (Path.ofString "core/bin/core.lib") (chainTrace.take 41) = false := by cbv
    rw [hlost] at hstock
    cases hstock
  · exact absurd harchive (by decide)
  · exact absurd harchive (by decide)

end Sample

end NativeBuild
