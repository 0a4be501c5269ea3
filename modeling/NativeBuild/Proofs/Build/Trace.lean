import Mathlib.Data.List.Induction
import NativeBuild.Proofs.Build.OwnWork

/-!
# What a trace tells

A trace alone tells which builds are going on at a point of it, and how each project was
finished since it was last forgotten.

Main definitions:

- `openBuilds`: the builds that were entered and not left.
- `verdict`: how a project was finished since it was last forgotten, if it was.
- `finishedIds`: the projects that were finished with success, in order.
- `Throughout`: a property of each entry together with what comes before it.

Main results:

- Theorem `exists_finished_of_verdict`: a verdict was told, and the project was not
  forgotten after that.
- Theorem `countP_finishes_le`: where each project that is finished has no verdict before,
  it is finished at most once between being forgotten.
-/

namespace NativeBuild

namespace TraceEntry

/-- The builds that are going on after an entry, the last entered first. -/
def openAfter (opened : List String) : TraceEntry → List String
  | .entered id => id :: opened
  | .left id => opened.erase id
  | _ => opened

/-- The verdict on a project after an entry. -/
def verdictAfter (id : String) (before : Option Bool) : TraceEntry → Option Bool
  | .event (.finished project success) => if project = id then some success else before
  | .cleaned project => if project = id then none else before
  | _ => before

/-- The entry tells that a project is finished. -/
def finishes (id : String) : TraceEntry → Bool
  | .event (.finished project _) => project == id
  | _ => false

/-- The project that an entry tells to be finished with success. -/
def succeeded? : TraceEntry → Option String
  | .event (.finished project true) => some project
  | _ => none

end TraceEntry

open TraceEntry

/-- The builds that were entered and not left, the last entered first. -/
def openBuilds (trace : List TraceEntry) : List String :=
  trace.foldl openAfter []

/-- How a project was finished since it was last forgotten, if it was. -/
def verdict (id : String) (trace : List TraceEntry) : Option Bool :=
  trace.foldl (verdictAfter id) none

/-- The projects that were finished with success, in order. -/
def finishedIds (trace : List TraceEntry) : List String :=
  trace.filterMap succeeded?

variable {id : String} {trace entries : List TraceEntry}

@[simp] theorem openBuilds_concat (trace : List TraceEntry) (entry : TraceEntry) :
    openBuilds (trace ++ [entry]) = entry.openAfter (openBuilds trace) := by
  simp [openBuilds]

@[simp] theorem verdict_concat (id : String) (trace : List TraceEntry) (entry : TraceEntry) :
    verdict id (trace ++ [entry]) = entry.verdictAfter id (verdict id trace) := by
  simp [verdict]

@[simp] theorem finishedIds_append (trace more : List TraceEntry) :
    finishedIds (trace ++ more) = finishedIds trace ++ finishedIds more :=
  List.filterMap_append

/-! ## Work of a project -/

/-- Work opens and closes no build. -/
theorem openBuilds_append_of_work (h : ∀ entry ∈ entries, entry.IsWorkOf id) :
    openBuilds (trace ++ entries) = openBuilds trace := by
  induction entries using List.reverseRecOn with
  | nil => rw [List.append_nil]
  | append_singleton rest entry ih =>
      have hentry := h entry (by simp)
      rw [← List.append_assoc, openBuilds_concat, ih fun other hother => h other (by simp [hother])]
      unfold IsWorkOf at hentry
      split at hentry <;> first | rfl | cases hentry

/-- Work changes no verdict. -/
theorem verdict_append_of_work {other : String} (h : ∀ entry ∈ entries, entry.IsWorkOf id) :
    verdict other (trace ++ entries) = verdict other trace := by
  induction entries using List.reverseRecOn with
  | nil => rw [List.append_nil]
  | append_singleton rest entry ih =>
      have hentry := h entry (by simp)
      rw [← List.append_assoc, verdict_concat, ih fun other hother => h other (by simp [hother])]
      unfold IsWorkOf at hentry
      split at hentry <;> first | rfl | cases hentry

/-- Work finishes no project. -/
theorem finishedIds_of_work (h : ∀ entry ∈ entries, entry.IsWorkOf id) :
    finishedIds entries = [] := by
  refine List.filterMap_eq_nil_iff.2 fun entry hentry => ?_
  have hwork := h entry hentry
  unfold IsWorkOf at hwork
  split at hwork <;> first | rfl | cases hwork

/-! ## Verdicts -/

/-- Nothing but being finished or forgotten changes the verdict on a project. -/
theorem verdictAfter_of_not_finishes {entry : TraceEntry} {before : Option Bool}
    (hfinishes : entry.finishes id = false) (hcleaned : entry ≠ .cleaned id) :
    entry.verdictAfter id before = before := by
  unfold verdictAfter
  split
  · exact if_neg (by simpa [finishes] using hfinishes)
  · exact if_neg fun heq => hcleaned (by rw [heq])
  · rfl

/-- A verdict was told, and the project was not forgotten after that. -/
theorem exists_finished_of_verdict {success : Bool} (h : verdict id trace = some success) :
    ∃ before after, trace = before ++ .event (.finished id success) :: after ∧
      TraceEntry.cleaned id ∉ after := by
  induction trace using List.reverseRecOn with
  | nil => cases h
  | append_singleton rest entry ih =>
      rw [verdict_concat] at h
      unfold verdictAfter at h
      split at h
      · next project told =>
          split at h
          · next heq =>
              cases h
              subst heq
              exact ⟨rest, [], rfl, by simp⟩
          · next hne =>
              obtain ⟨before, after, rfl, hkept⟩ := ih h
              exact ⟨before, after ++ [.event (.finished project told)], by simp, by simp [hkept]⟩
      · next project =>
          split at h
          · cases h
          · next hne =>
              obtain ⟨before, after, rfl, hkept⟩ := ih h
              refine ⟨before, after ++ [.cleaned project], by simp, ?_⟩
              simp [hkept, Ne.symm hne]
      · next hfinished hcleaned =>
          obtain ⟨before, after, rfl, hkept⟩ := ih h
          refine ⟨before, after ++ [entry], by simp, ?_⟩
          simp [hkept, Ne.symm (hcleaned id)]

/-! ## Properties throughout a trace -/

/-- Each entry has a property together with what comes before it. -/
def Throughout (φ : List TraceEntry → TraceEntry → Prop) (trace : List TraceEntry) : Prop :=
  ∀ before entry after, trace = before ++ entry :: after → φ before entry

variable {φ : List TraceEntry → TraceEntry → Prop}

/-- Every property holds throughout the empty trace. -/
theorem throughout_nil : Throughout φ [] := by
  intro before entry after h
  simp at h

/-- A property holds throughout a trace with one more entry exactly when it holds before and of that
entry. -/
theorem throughout_concat {entry : TraceEntry} :
    Throughout φ (trace ++ [entry]) ↔ Throughout φ trace ∧ φ trace entry := by
  constructor
  · intro h
    refine ⟨fun before other after heq => ?_, h trace entry [] rfl⟩
    exact h before other (after ++ [entry]) (by simp [heq])
  · rintro ⟨h, hentry⟩ before other after heq
    induction after using List.reverseRecOn with
    | nil =>
        obtain ⟨rfl, hsame⟩ := List.append_inj' heq rfl
        cases hsame
        exact hentry
    | append_singleton rest last _ =>
        rw [← List.cons_append, ← List.append_assoc] at heq
        obtain ⟨hsame, -⟩ := List.append_inj' heq rfl
        exact h before other rest hsame

/-- Entries may be added that have the property after the trace and those before them. -/
theorem throughout_append :
    Throughout φ (trace ++ entries) ↔
      Throughout φ trace ∧ Throughout (fun before => φ (trace ++ before)) entries := by
  constructor
  · intro h
    refine ⟨fun before entry after heq => ?_, fun before entry after heq => ?_⟩
    · exact h before entry (after ++ entries) (by simp [heq])
    · exact h (trace ++ before) entry after (by simp [heq])
  · rintro ⟨htrace, hentries⟩ before entry after heq
    rcases List.append_eq_append_iff.1 heq with ⟨front, rfl, hfront⟩ | ⟨back, rfl, hback⟩
    · exact hentries front entry after hfront
    · rcases back with _ | ⟨first, rest⟩
      · simpa using hentries [] entry after hback.symm
      · cases hback
        exact htrace before entry rest rfl

/-- Entries that have the property after anything may be added. -/
theorem Throughout.append (h : Throughout φ trace)
    (hentries : ∀ entry ∈ entries, ∀ before, φ before entry) :
    Throughout φ (trace ++ entries) :=
  throughout_append.2 ⟨h, fun before entry after heq =>
    hentries entry (by simp [heq]) (trace ++ before)⟩

/-- A property that holds throughout a trace does so in its first part. -/
theorem Throughout.left (h : Throughout φ (trace ++ entries)) : Throughout φ trace :=
  fun before entry after heq => h before entry (after ++ entries) (by simp [heq])

/-- A weaker property holds throughout as well. -/
theorem Throughout.imp {ψ : List TraceEntry → TraceEntry → Prop} (h : Throughout φ trace)
    (himp : ∀ before entry, φ before entry → ψ before entry) : Throughout ψ trace :=
  fun before entry after heq => himp before entry (h before entry after heq)

/-- Where each project that is finished has no verdict before, a part of the trace in which
it is not forgotten finishes it at most once, and not at all if it ends without verdict. -/
theorem countP_finishes_le {before middle : List TraceEntry}
    (honce : Throughout (fun front entry => entry.finishes id = true → verdict id front = none)
      (before ++ middle))
    (hkept : TraceEntry.cleaned id ∉ middle) :
    middle.countP (finishes id) ≤ if verdict id (before ++ middle) = none then 0 else 1 := by
  induction middle using List.reverseRecOn with
  | nil => simp
  | append_singleton rest entry ih =>
      rw [← List.append_assoc] at honce ⊢
      obtain ⟨hrest, hentry⟩ := throughout_concat.1 honce
      have hcount := ih hrest fun hmem => hkept (by simp [hmem])
      rw [List.countP_append, verdict_concat]
      cases hfinishes : entry.finishes id with
      | true =>
          rw [if_pos (hentry hfinishes)] at hcount
          have hsome : entry.verdictAfter id (verdict id (before ++ rest)) ≠ none := by
            unfold finishes at hfinishes
            split at hfinishes
            · simp [verdictAfter, beq_iff_eq.1 hfinishes]
            · cases hfinishes
          rw [if_neg hsome, List.countP_singleton, if_pos hfinishes]
          omega
      | false =>
          have hsame : entry.verdictAfter id (verdict id (before ++ rest)) =
              verdict id (before ++ rest) := by
            refine verdictAfter_of_not_finishes hfinishes fun heq => hkept ?_
            simp [heq]
          rw [hsame, List.countP_singleton, if_neg (by simp [hfinishes])]
          exact hcount

end NativeBuild
