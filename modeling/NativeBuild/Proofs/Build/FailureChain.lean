import NativeBuild.Proofs.Build.Invariant
import NativeBuild.Proofs.Build.Nested
import NativeBuild.Proofs.Build.Resolution

/-!
# Chains of failures

A build that fails passes the failure of a library on to the project that links it, and so on
up to the project that was asked for.  The layers of its error are this path: each says which
project lost which library, and below them is the error that the last project of the path
failed with by itself.  The projects above it were begun and failed, and nothing was compiled
or linked for any of them.

Main definitions:

- `BuildError.links`: the layers of an error, each a project with the library it lost.
- `TraceEntry.IsProductionOf`: the entry shows that a project is compiled or linked.
- `BuildSetup.PassedOn`: a call that passes on the failure of a library.
- `BuildSetup.FailureChain`: what an error tells of the call that failed with it.

Main results:

- Theorem `Runs.passedOn`: where a failure of a dependency comes from.
- Theorem `Runs.failureChain`: every call that fails does so along a chain.
- Theorem `failure_path`: the structure of the error of a build.
-/

namespace NativeBuild

/-! ## Layers of errors -/

namespace BuildError

/-- The failures of dependencies that an error passes on, outermost first: the project and the
library it lost. -/
def links : BuildError → List (String × String)
  | .dependencyFailed project dependency source => (project, dependency) :: source.links
  | _ => []

/-- An error is its innermost error below its layers. -/
theorem foldr_links_innermost (e : BuildError) :
    e.links.foldr (fun link source => .dependencyFailed link.1 link.2 source) e.innermost = e := by
  induction e with
  | dependencyFailed project dependency source ih =>
      simp only [links, List.foldr_cons, innermost]
      rw [ih]
  | _ => rfl

/-- Below its layers, an error passes nothing on. -/
theorem links_innermost (e : BuildError) : e.innermost.links = [] := by
  induction e with
  | dependencyFailed project dependency source ih => exact ih
  | _ => rfl

/-- The projects that an error leads through, from the one that was asked for. -/
def path (id : String) (e : BuildError) : List String :=
  id :: e.links.map Prod.snd

/-- An error of a project itself names no dependencies. -/
theorem links_of_isOwn {e : BuildError} (h : e.isOwn = true) : e.links = [] := by
  cases e <;> first | rfl | cases h

end BuildError

/-! ## Production -/

/-- The call runs a tool; the others make or remove directories. -/
def ToolCall.isTool : ToolCall → Bool
  | .makeDirectory _ | .removeDirectoryTree _ => false
  | .compile .. | .assemble .. | .archive .. | .link .. | .disassemble .. => true

/-- The entry shows that a project is compiled or linked, or that its units are begun. -/
def TraceEntry.IsProductionOf (id : String) : TraceEntry → Prop
  | .call project made => project = id ∧ made.isTool = true
  | .event (.started project _) => project = id
  | _ => False

/-- What is production of a project is work of that project alone. -/
theorem TraceEntry.IsProductionOf.eq_of_work {entry : TraceEntry} {id q : String}
    (h : entry.IsProductionOf q) (hwork : entry.IsWorkOf id) : q = id := by
  unfold IsProductionOf at h
  split at h
  · exact h.1.symm.trans hwork
  · exact h.symm.trans hwork
  · cases h

namespace Session

variable {σ : Type} {s t u : Session σ} {q : String}

/-- From the first session to the second, nothing is compiled or linked for a project. -/
def Quiet (q : String) (s t : Session σ) : Prop :=
  ∃ entries, t.trace = s.trace ++ entries ∧ ∀ entry ∈ entries, ¬ entry.IsProductionOf q

/-- From a session to itself nothing is compiled or linked. -/
theorem Quiet.refl (q : String) (s : Session σ) : Quiet q s s :=
  Adds.refl s

/-- Quiet may go on. -/
theorem Quiet.trans (hst : Quiet q s t) (htu : Quiet q t u) : Quiet q s u :=
  Adds.trans hst htu

/-- One more entry that is no production. -/
theorem Quiet.concat (h : Quiet q s t) {entry : TraceEntry}
    (htrace : u.trace = t.trace ++ [entry]) (hentry : ¬ entry.IsProductionOf q) : Quiet q s u :=
  Adds.concat h htrace hentry

/-- An entry may be recorded that compiles and links nothing for the project. -/
theorem Quiet.record (h : Quiet q s t) {entry : TraceEntry}
    (hentry : ¬ entry.IsProductionOf q) : Quiet q s (t.record entry) :=
  h.concat (trace_record t entry) hentry

/-- Work of another project is none of this one. -/
theorem Worked.quiet {id : String} (h : Worked id s t) (hq : q ≠ id) : Quiet q s t := by
  obtain ⟨entries, htrace, hwork⟩ := h.trace
  refine ⟨entries, htrace, ?_⟩
  intro entry hentry hproduction
  exact hq (hproduction.eq_of_work (hwork entry hentry))

/-- An action along a script without production. -/
theorem quiet_of_follows {α : Type} {script : List TraceEntry} {action : Build σ α}
    (h : Build.Follows script action) (hscript : ∀ entry ∈ script, ¬ entry.IsProductionOf q)
    {result : Except BuildError α} (houtcome : action.outcome s = (result, t)) :
    Quiet q s t :=
  Build.adds_of_follows h hscript houtcome

end Session

namespace BuildSetup

open Build BuildError Session

variable {σ : Type} {x : BuildSetup σ} {stack : List String} {s t : Session σ}
  {result : Except BuildError Unit}

/-! ## Projects that stay quiet -/

/-- Making the directories of a project compiles and links nothing. -/
theorem quiet_makeDirectories {p : Project} {q : String}
    (hdirs : (x.makeDirectories p).outcome (s.record (.entered p.id)) = (result, t)) :
    Quiet q s t := by
  have hentered : Quiet q s (s.record (.entered p.id)) := (Quiet.refl q s).record not_false
  refine hentered.trans (quiet_of_follows (x.follows_makeDirectories p) ?_ hdirs)
  simp [TraceEntry.IsProductionOf, ToolCall.isTool]

/-- Generating the files of a project compiles and links nothing. -/
theorem quiet_generate {p : Project} {q : String}
    (hgen : (x.generate p).outcome s = (result, t)) : Quiet q s t :=
  quiet_of_follows (x.follows_generate p) (by simp [TraceEntry.IsProductionOf]) hgen

/-- Nothing is compiled or linked for a project that is being built further out, and nothing
for one that is not built in the end. -/
theorem Runs.quiet {task : BuildTask} {q : String} (h : x.Runs stack task s result t)
    (hfits : task.Fits x.registry stack)
    (hq : q ∈ stack ∨ q ∉ task.inside stack ∧ t.states q = .notBuilt) : Quiet q s t := by
  induction h with
  | @unknown stack id s hid =>
      have hentered : Quiet q s (s.record (.entered id)) := (Quiet.refl q s).record not_false
      exact hentered.record not_false
  | blocked hp hdirs => exact (quiet_makeDirectories hdirs).record not_false
  | @reused stack p s t hp hdirs hstate =>
      have hreused : Quiet q s (t.record (.reused p.id)) :=
        (quiet_makeDirectories hdirs).record not_false
      exact hreused.record not_false
  | refused hp hdirs hstate => exact (quiet_makeDirectories hdirs).record not_false
  | @succeeded stack p s t u hp hdirs hstate hsteps ih =>
      have hbuilt : u.states p.id = .built := hsteps.built_of_steps
      have hinner : Quiet q t u := by
        refine ih ⟨hp, hfits⟩ (hq.imp_right ?_)
        rintro ⟨hout, hnew⟩
        have hnew' : u.states q = .notBuilt := hnew
        refine ⟨fun hmem => ?_, hnew'⟩
        rcases List.mem_cons.1 hmem with rfl | hmem
        · rw [hbuilt] at hnew'
          cases hnew'
        · exact hout hmem
      have hdone : Quiet q s (u.succeed p.id) :=
        ((quiet_makeDirectories hdirs).trans hinner).concat (trace_succeed u p.id) not_false
      exact hdone.record not_false
  | @failed stack p s t u e hp hdirs hstate hsteps ih =>
      have hinner : Quiet q t u := by
        refine ih ⟨hp, hfits⟩ (hq.imp_right ?_)
        rintro ⟨hout, hnew⟩
        have hne : q ≠ p.id := by
          rintro rfl
          simp at hnew
        refine ⟨fun hmem => ?_, by simpa [hne] using hnew⟩
        exact hout (List.mem_of_ne_of_mem hne hmem)
      have hdone : Quiet q s (u.fail p.id) :=
        ((quiet_makeDirectories hdirs).trans hinner).concat (trace_fail u p.id) not_false
      exact hdone.record not_false
  | invalid hvalid => exact .refl q _
  | ungenerated hvalid hgen => exact quiet_generate hgen
  | @interrupted stack p s t u e hvalid hgen hlibs ih =>
      exact (quiet_generate hgen).trans (ih trivial (hq.imp_left (List.mem_cons_of_mem p.id)))
  | @produced stack p s t u v result hvalid hgen hlibs hown ih =>
      -- The project itself is neither further out nor without a state.
      have hne : q ≠ p.id := by
        rintro rfl
        rcases hq with hmem | ⟨hout, -⟩
        · exact hfits.2 hmem
        · exact hout List.mem_cons_self
      have hlist : Quiet q (t.setState p.id .built) u := by
        refine ih trivial (hq.imp (List.mem_cons_of_mem p.id) fun ⟨hout, hnew⟩ => ⟨hout, ?_⟩)
        rwa [states_produce hown] at hnew
      exact ((quiet_generate hgen).trans hlist).trans
        (((x.works_produce p).worked hown).quiet hne)
  | noLibrary => exact .refl q _
  | @nextLibrary stack rest p id s t u result hid hfirst hrest ihfirst ihrest =>
      refine (ihfirst hid (hq.imp_right fun ⟨hout, hnew⟩ => ⟨hout, ?_⟩)).trans (ihrest trivial hq)
      obtain ⟨⟨done, hdone⟩, -⟩ := hrest.advances
      by_contra hold
      exact hold (hdone.kept q hold ▸ hnew)
  | lostLibrary hid hfirst ih => exact ih hid hq

/-! ## Failures that are passed on -/

/-- Libraries fail by one of them, after those before it were built. -/
theorem Runs.lost {p : Project} {ids : List String} {e : BuildError}
    (h : x.Runs stack (.libraries p ids) s (.error e) t) :
    ∃ before d after inner u, ids = before ++ d :: after ∧ d ∉ stack ∧
      e = .dependencyFailed p.id d inner ∧ x.Runs stack (.libraries p before) s (.ok ()) u ∧
      x.Runs stack (.call d) u (.error inner) t := by
  induction ids generalizing s with
  | nil => cases h
  | cons id rest ih =>
      cases h with
      | nextLibrary hid hfirst hrest =>
          obtain ⟨before, d, after, inner, u, rfl, hd, he, hbefore, hlost⟩ := ih hrest
          exact ⟨id :: before, d, after, inner, u, rfl, hd, he, .nextLibrary hid hfirst hbefore,
            hlost⟩
      | lostLibrary hid hfirst => exact ⟨[], id, rest, _, s, rfl, hid, rfl, .noLibrary, hfirst⟩

/-- The call for a project fails because one of its libraries does: the project is not built
yet and accepted, its files are generated, and the libraries before that one are built. -/
inductive PassedOn (x : BuildSetup σ) (stack : List String) (p : Project) (d : String)
    (inner : BuildError) (s t : Session σ) : Prop
  | intro {before after : List String} {t₁ t₂ u v : Session σ}
      (hp : x.registry.get? p.id = some p)
      (hdirs : (x.makeDirectories p).outcome (s.record (.entered p.id)) = (.ok (), t₁))
      (hstate : t₁.states p.id = .notBuilt) (hvalid : x.validate p = .ok ())
      (hgen : (x.generate p).outcome t₁ = (.ok (), t₂)) (hlibs : p.libs = before ++ d :: after)
      (hd : d ∉ p.id :: stack)
      (hbefore : x.Runs (p.id :: stack) (.libraries p before) (t₂.setState p.id .built) (.ok ()) u)
      (hlost : x.Runs (p.id :: stack) (.call d) u (.error inner) v)
      (ht : t = (v.fail p.id).record (.left p.id))

/-- Where the failure of a dependency comes from, with a backend that fails by itself only. -/
theorem Runs.passedOn (hexternal : x.backend.External) {id project d : String}
    {inner : BuildError}
    (h : x.Runs stack (.call id) s (.error (.dependencyFailed project d inner)) t) :
    project = id ∧ ∃ p : Project, p.id = id ∧ x.PassedOn stack p d inner s t := by
  -- An error of a step of the project itself is no failure of a dependency.
  have hown : ∀ {e : BuildError}, e.isOwn = true → e ≠ .dependencyFailed project d inner := by
    rintro e he rfl
    cases he
  cases h with
  | blocked hp hdirs =>
      exact absurd rfl (hown (isOwn_of_makeDirectories hexternal hdirs))
  | @failed stack p s t u e hp hdirs hstate hsteps =>
      cases hsteps with
      | invalid hvalid => exact absurd rfl (hown (isOwn_of_validate hvalid))
      | ungenerated hvalid hgen =>
          exact absurd rfl (hown (isOwn_of_generate hexternal hgen))
      | interrupted hvalid hgen hlibs =>
          obtain ⟨before, lost, after, error, w, hsplit, hout, he, hbefore, hlost⟩ := hlibs.lost
          cases he
          exact ⟨rfl, p, rfl, .intro hp hdirs hstate hvalid hgen hsplit hout hbefore hlost rfl⟩
      | produced hvalid hgen hlibs hproduced =>
          exact absurd rfl (hown (isOwn_of_produce hexternal hproduced))

/-! ## Chains -/

/-- A project failed over the loss of a library: nothing was compiled or linked for it, and the
libraries that it lists before that one are built. -/
structure FailedOver (x : BuildSetup σ) (stack : List String) (id d : String)
    (s t : Session σ) : Prop where
  lists : ∃ p : Project, x.registry.get? id = some p ∧ d ∈ p.libs ∧
    ∀ before after, p.libs = before ++ d :: after → d ∉ before →
      ∀ other ∈ before, other ∉ stack ∧ t.states other = .built
  begun : s.states id = .notBuilt
  failed : t.states id = .failed
  quiet : Quiet id s t

/-- What an error tells of the call that failed with it. -/
structure FailureChain (x : BuildSetup σ) (stack : List String) (id : String) (e : BuildError)
    (s t : Session σ) : Prop where
  /-- Each layer leads from a project of the path to the next. -/
  links : e.links = (e.path id).zip (e.path id).tail
  nodup : (e.path id).Nodup
  outside : ∀ q ∈ e.path id, q ∉ stack
  /-- The innermost error is that of the call for the last project. -/
  origin : ∃ last u v, (e.path id).getLast? = some last ∧ x.Nested (.call id) s last u ∧
    (x.build last).outcome u = (.error e.innermost, v)
  failed : ∀ q d, (q, d) ∈ e.links → x.FailedOver stack q d s t

/-- A call whose error has no layers is the end of the chain. -/
theorem FailureChain.of_no_links {id : String} {e : BuildError}
    (h : x.Runs stack (.call id) s (.error e) t) (hid : id ∉ stack) (hlinks : e.links = [])
    (hinnermost : e.innermost = e) : x.FailureChain stack id e s t := by
  have hpath : e.path id = [id] := by simp [BuildError.path, hlinks]
  refine ⟨by simp [hpath, hlinks], by simp [hpath], by simpa [hpath] using hid, ?_, ?_⟩
  · refine ⟨id, s, t, by simp [hpath], .here, ?_⟩
    rw [hinnermost]
    exact h.outcome_build
  · simp [hlinks]

/-- What stays not built until a library is called was not built before, and nothing was
compiled or linked for it. -/
theorem quiet_before_library {p : Project} {before : List String} {t₁ t₂ u : Session σ}
    {q : String} (hdirs : (x.makeDirectories p).outcome (s.record (.entered p.id)) = (.ok (), t₁))
    (hgen : (x.generate p).outcome t₁ = (.ok (), t₂))
    (hbefore : x.Runs (p.id :: stack) (.libraries p before) (t₂.setState p.id .built) (.ok ()) u)
    (hq : q ∉ p.id :: stack) (hnew : u.states q = .notBuilt) :
    s.states q = .notBuilt ∧ Quiet q s u := by
  have hne : q ≠ p.id := fun heq => hq (heq ▸ List.mem_cons_self)
  obtain ⟨⟨done, hdone⟩, -⟩ := hbefore.advances
  have hmarked : (t₂.setState p.id .built).states q = .notBuilt := by
    by_contra hold
    exact hold (hdone.kept q hold ▸ hnew)
  refine ⟨?_, ?_⟩
  · rwa [states_setState_other t₂ .built hne, states_generate hgen, states_entered hdirs] at hmarked
  · have hgenerated : Quiet q s t₂ := (quiet_makeDirectories hdirs).trans (quiet_generate hgen)
    have hlist : Quiet q t₂ u := hbefore.quiet trivial (.inr ⟨hq, hnew⟩)
    exact hgenerated.trans hlist

/-- What stands before the first occurrence stands before every occurrence. -/
theorem mem_of_first {α : Type} {before after front back : List α} {a b : α}
    (h : before ++ a :: after = front ++ a :: back) (ha : a ∉ front) (hb : b ∈ front) :
    b ∈ before := by
  rcases List.append_eq_append_iff.1 h with ⟨more, rfl, hmore⟩ | ⟨more, rfl, -⟩
  · rcases more with _ | ⟨first, rest⟩
    · simpa using hb
    · cases hmore
      simp at ha
  · exact List.mem_append_left _ hb

/-- After the call for a lost library, only the state of the project that lists it changes. -/
theorem states_failed_left {id q : String} (v : Session σ) (hq : q ≠ id) :
    ((v.fail id).record (.left id)).states q = v.states q := by
  simp [hq]

/-- Finishing a project with failure compiles and links nothing. -/
theorem quiet_failed_left (q id : String) (v : Session σ) :
    Quiet q v ((v.fail id).record (.left id)) :=
  ((Quiet.refl q v).concat (trace_fail v id) not_false).record not_false

section Layers

variable {p : Project} {d : String} {inner : BuildError} {before after : List String}
  {t₁ t₂ u v : Session σ}

/-- A project fails over the library that is lost. -/
theorem failedOver_of_lost (hp : x.registry.get? p.id = some p)
    (hdirs : (x.makeDirectories p).outcome (s.record (.entered p.id)) = (.ok (), t₁))
    (hstate : t₁.states p.id = .notBuilt) (hgen : (x.generate p).outcome t₁ = (.ok (), t₂))
    (hlibs : p.libs = before ++ d :: after) (hd : d ∉ p.id :: stack)
    (hbefore : x.Runs (p.id :: stack) (.libraries p before) (t₂.setState p.id .built) (.ok ()) u)
    (hlost : x.Runs (p.id :: stack) (.call d) u (.error inner) v) :
    x.FailedOver stack p.id d s ((v.fail p.id).record (.left p.id)) := by
  have hgenerated : Quiet p.id s t₂ := (quiet_makeDirectories hdirs).trans (quiet_generate hgen)
  have hlist : Quiet p.id t₂ u := hbefore.quiet trivial (.inl List.mem_cons_self)
  have hlast : Quiet p.id u v := hlost.quiet hd (.inl List.mem_cons_self)
  have hlisted : d ∈ p.libs := by simp [hlibs]
  refine ⟨⟨p, hp, hlisted, ?_⟩, ?_, by simp, ?_⟩
  · intro front back hsplit hfirst other hother
    have hmem : other ∈ before := mem_of_first (hlibs ▸ hsplit) hfirst hother
    have hout := hbefore.not_mem_of_ok other hmem
    have hbuilt := hbefore.advances.2 rfl other hmem
    obtain ⟨⟨done, hdone⟩, -⟩ := hlost.advances
    have hne : other ≠ p.id := fun heq => hout (heq ▸ List.mem_cons_self)
    rw [states_failed_left v hne]
    exact ⟨fun hmem => hout (List.mem_cons_of_mem _ hmem), hdone.stays hbuilt⟩
  · rwa [states_entered hdirs] at hstate
  · exact ((hgenerated.trans hlist).trans hlast).trans (quiet_failed_left p.id p.id v)

/-- What failed over a library within the call for a lost one, failed so within the call that
lost it. -/
theorem FailedOver.outward {q lost : String}
    (hdirs : (x.makeDirectories p).outcome (s.record (.entered p.id)) = (.ok (), t₁))
    (hgen : (x.generate p).outcome t₁ = (.ok (), t₂))
    (hbefore : x.Runs (p.id :: stack) (.libraries p before) (t₂.setState p.id .built) (.ok ()) u)
    (hout : q ∉ p.id :: stack) (h : x.FailedOver (p.id :: stack) q lost u v) :
    x.FailedOver stack q lost s ((v.fail p.id).record (.left p.id)) := by
  have hne : q ≠ p.id := fun heq => hout (heq ▸ List.mem_cons_self)
  obtain ⟨hnew, hquiet⟩ := quiet_before_library hdirs hgen hbefore hout h.begun
  refine ⟨?_, hnew, ?_, (hquiet.trans h.quiet).trans (quiet_failed_left q p.id v)⟩
  · obtain ⟨own, hown, hlisted, hall⟩ := h.lists
    refine ⟨own, hown, hlisted, ?_⟩
    intro front back hsplit hfirst other hother
    obtain ⟨hother, hbuilt⟩ := hall front back hsplit hfirst other hother
    have hne : other ≠ p.id := fun heq => hother (heq ▸ List.mem_cons_self)
    rw [states_failed_left v hne]
    exact ⟨fun hmem => hother (List.mem_cons_of_mem _ hmem), hbuilt⟩
  · rw [states_failed_left v hne]
    exact h.failed

end Layers

/-- The chain of the library that was lost goes on to the project that lists it. -/
theorem PassedOn.failureChain {p : Project} {d : String} {inner : BuildError}
    (h : x.PassedOn stack p d inner s t) (hid : p.id ∉ stack)
    (hinner : ∀ u v, x.Runs (p.id :: stack) (.call d) u (.error inner) v → d ∉ p.id :: stack →
      x.FailureChain (p.id :: stack) d inner u v) :
    x.FailureChain stack p.id (.dependencyFailed p.id d inner) s t := by
  obtain ⟨hp, hdirs, hstate, hvalid, hgen, hlibs, hd, hbefore, hlost, rfl⟩ := h
  rename_i before after t₁ t₂ u v
  have hchain := hinner u v hlost hd
  have hpath : (BuildError.dependencyFailed p.id d inner).path p.id = p.id :: inner.path d := rfl
  refine ⟨?_, ?_, ?_, ?_, ?_⟩
  · show (p.id, d) :: inner.links = _
    rw [hchain.links, hpath]
    rfl
  · rw [hpath]
    exact List.nodup_cons.2 ⟨fun hmem => hchain.outside p.id hmem List.mem_cons_self, hchain.nodup⟩
  · intro q hq
    rcases List.mem_cons.1 (hpath ▸ hq) with rfl | hq
    · exact hid
    · exact fun hmem => hchain.outside q hq (List.mem_cons_of_mem _ hmem)
  · obtain ⟨last, w, after', hlast, hnested, hfails⟩ := hchain.origin
    refine ⟨last, w, after', ?_, ?_, hfails⟩
    · rw [hpath, BuildError.path, List.getLast?_cons_cons]
      exact hlast
    · have hlibraries : x.Nested (.libraries p (d :: after)) u last w := .first hnested
      refine .steps hp hdirs hstate (.libraries hvalid hgen ?_)
      rw [hlibs]
      exact hlibraries.after hbefore
  · intro q lost hmem
    rcases List.mem_cons.1 hmem with heq | hmem
    · cases heq
      exact failedOver_of_lost hp hdirs hstate hgen hlibs hd hbefore hlost
    · have hout : q ∉ p.id :: stack := by
        refine hchain.outside q ?_
        rw [hchain.links] at hmem
        exact (List.of_mem_zip hmem).1
      exact (hchain.failed q lost hmem).outward hdirs hgen hbefore hout

/-- Every call that fails does so along a chain, with a backend that fails by itself only. -/
theorem Runs.failureChain (hexternal : x.backend.External) {id : String} {e : BuildError}
    (h : x.Runs stack (.call id) s (.error e) t) (hid : id ∉ stack) :
    x.FailureChain stack id e s t := by
  -- The layers are taken off one by one, each with the call of the next library.
  induction e generalizing stack id s t with
  | dependencyFailed project d inner ih =>
      obtain ⟨rfl, p, rfl, hpassed⟩ := h.passedOn hexternal
      exact hpassed.failureChain hid fun u v hlost hd => ih hlost hd
  | _ => exact .of_no_links h hid rfl rfl

/-- The structure of a build error.  With a backend that fails by itself only, let a build fail
in any session.  The layers of its error lead along a path of different projects, from the one
that was asked for:

* the innermost error passes on no failure, and it is the error of the nested call for the last
  project of the path;
* each other project of the path lists the next one as a library, and the libraries before the
  first occurrence of that are built;
* each of them has failed after the call, and during it nothing was compiled or linked for it,
  nor were its units begun. -/
theorem failure_path (x : BuildSetup σ) (hexternal : x.backend.External) (id : String)
    (s t : Session σ) (e : BuildError) (h : (x.build id).outcome s = (.error e, t)) :
    ∃ ids : List String, ids.head? = some id ∧ ids.Nodup ∧ e.links = ids.zip ids.tail ∧
      e.links.foldr (fun link source => .dependencyFailed link.1 link.2 source) e.innermost = e ∧
      (∀ project dependency source,
        e.innermost ≠ .dependencyFailed project dependency source) ∧
      (∃ last u v, ids.getLast? = some last ∧ x.Nested (.call id) s last u ∧
        (x.build last).outcome u = (.error e.innermost, v)) ∧
      ∀ project dependency, (project, dependency) ∈ e.links →
        (∃ p : Project, x.registry.get? project = some p ∧ dependency ∈ p.libs ∧
          ∀ before after, p.libs = before ++ dependency :: after → dependency ∉ before →
            ∀ other ∈ before, t.states other = .built) ∧
        t.states project = .failed ∧
        ∃ entries, t.trace = s.trace ++ entries ∧
          ∀ entry ∈ entries, ¬ entry.IsProductionOf project := by
  have hrun := x.runs_build id s
  rw [h] at hrun
  have hchain := hrun.failureChain hexternal List.not_mem_nil
  refine ⟨e.path id, rfl, hchain.nodup, hchain.links, e.foldr_links_innermost, ?_, hchain.origin,
    fun project dependency hmem => ?_⟩
  · intro project dependency source heq
    have hlinks := e.links_innermost
    rw [heq] at hlinks
    cases hlinks
  · have hover := hchain.failed project dependency hmem
    refine ⟨?_, hover.failed, hover.quiet⟩
    obtain ⟨p, hp, hlisted, hall⟩ := hover.lists
    refine ⟨p, hp, hlisted, fun before after hsplit hfirst other hother => ?_⟩
    exact (hall before after hsplit hfirst other hother).2

end BuildSetup

/-! ## A sample -/

namespace Sample

/-- The application fails by the library that cannot be generated, and has failed itself. -/
theorem shell_failure_path :
    (tornSetup.backend.External ∧ ((tornSetup.build "shell").outcome { world := () }).1 =
      .error (.dependencyFailed "shell" "text" (.systemFault .permissionDenied))) ∧
    ((tornSetup.build "shell").outcome { world := () }).2.states "shell" = .failed := by
  have hfails : ((tornSetup.build "shell").outcome { world := () }).1 =
      .error (.dependencyFailed "shell" "text" (.systemFault .permissionDenied)) := by cbv
  have houtcome : (tornSetup.build "shell").outcome { world := () } =
      (.error (.dependencyFailed "shell" "text" (.systemFault .permissionDenied)),
        ((tornSetup.build "shell").outcome { world := () }).2) := Prod.ext hfails rfl
  obtain ⟨ids, -, -, -, -, -, -, hall⟩ := BuildSetup.failure_path tornSetup external_tornSetup
    "shell" { world := () } _ _ houtcome
  exact ⟨⟨external_tornSetup, hfails⟩, (hall "shell" "text" (by simp [BuildError.links])).2.1⟩

end Sample

end NativeBuild
